import VectorBench.Proofs.Binding.Sessions
import VectorBench.Proofs.Hart.Refinement

/-!
# Histories of a hart

Whatever is done to a hart, by programs, by calls that come through the
hardware binding or from outside, it keeps its configuration, its datapath and
the emulator of its trap handler.
-/

namespace VectorBench

variable {H : Type}

/-! ### Requests -/

/-- What can be asked of a hart. -/
inductive HartRequest where
  | execute (word : Word)
  | run (program : List Word)
  | emit (word a b : Word)
  | emitVector (word : Word)
  /-- A call that reaches the hart through the hardware binding. -/
  | invoke (call : VectorCall)

inductive HartAnswer where
  | action (result : Except Fault StepAction)
  | finished (result : Except Fault Unit)
  | word (result : Except Fault Word)
  | vector (result : Except Fault VectorWords)
  | returned (result : CallResult)

namespace HartRequest

def perform (hart : Hart H) : HartRequest → HartAnswer × Hart H
  | .execute word => (hart.execute word).map .action id
  | .run program => (hart.run program).map .finished id
  | .emit word a b => (hart.emit word a b).map .word id
  | .emitVector word => (hart.emitVector word).map .vector id
  | .invoke call =>
      (call.perform ({ emitter := hart } : HardwareBinding (Hart H))).map
        .returned (·.emitter)

/-- The answers to requests one after the other, and the hart after them. -/
def performAll (hart : Hart H) : List HartRequest → List HartAnswer × Hart H
  | [] => ([], hart)
  | request :: requests =>
      let (answer, hart) := request.perform hart
      let (answers, hart) := performAll hart requests
      (answer :: answers, hart)

end HartRequest

/-- What a call through the hardware binding comes to on the hart. -/
inductive VectorCall.Amounts (H : Type) (call : VectorCall) : Prop where
  | emits (word a b : Word)
      (same : ∀ hart : Hart H,
        call.perform ({ emitter := hart } : HardwareBinding (Hart H)) =
          (hart.emit word a b).map .word HardwareBinding.mk)
  | emitsVector (word : Word)
      (same : ∀ hart : Hart H,
        call.perform ({ emitter := hart } : HardwareBinding (Hart H)) =
          (hart.emitVector word).map .vector HardwareBinding.mk)
  | edits (answer : CallResult) (change : VRegFile → VRegFile)
      (same : ∀ hart : Hart H,
        call.perform ({ emitter := hart } : HardwareBinding (Hart H)) =
          (answer, { emitter := hart.setVregs (change hart.vregs) }))

namespace VectorCall

theorem amounts_of_issue {call : VectorCall} (opcode : Option OpcodeClass)
    (funct3 funct7 a b : Word)
    (same : ∀ hart : Hart H,
      call.perform ({ emitter := hart } : HardwareBinding (Hart H)) =
        (VectorOps.issue opcode funct3 funct7 a b
          ({ emitter := hart } : HardwareBinding (Hart H))).map .word id) :
    call.Amounts H := by
  cases issued : issuable opcode with
  | error fault =>
      apply Amounts.edits (.word (.error fault)) id
      intro hart
      rw [same]
      simp only [VectorOps.issue, issued]
      rfl
  | ok kind =>
      apply Amounts.emits (HardwareBinding.scalarWord kind funct3 funct7) a b
      intro hart
      rw [same]
      simp only [VectorOps.issue, issued]
      rfl

theorem amounts (call : VectorCall) : call.Amounts H := by
  cases call with
  | issue opcode funct3 funct7 a b =>
      exact amounts_of_issue opcode funct3 funct7 a b fun _ => rfl
  | scalarOp funct3 funct7 a b =>
      exact amounts_of_issue (some .scalar) funct3 funct7 a b fun _ => rfl
  | load funct3 funct7 a b =>
      exact amounts_of_issue (some .load) funct3 funct7 a b fun _ => rfl
  | store funct3 funct7 a b =>
      exact amounts_of_issue (some .store) funct3 funct7 a b fun _ => rfl
  | vectorVector funct3 funct7 vs1 vs2 vd =>
      exact .emitsVector (HardwareBinding.vectorWord funct3 funct7 vs1 vs2 vd)
        fun _ => rfl
  | writeRegister register words =>
      exact .edits .done (·.writeRegister register words) fun _ => rfl
  | edit change => exact .edits .done change fun _ => rfl

end VectorCall

/-! ### What a hart keeps -/

namespace Hart

/-- What nothing that is done to a hart changes. -/
structure SameBuild (before after : Hart H) : Prop where
  config : after.config = before.config
  datapath : after.datapath = before.datapath
  emulator : after.dispatcher.emulator = before.dispatcher.emulator

theorem SameBuild.refl (hart : Hart H) : hart.SameBuild hart :=
  ⟨rfl, rfl, rfl⟩

theorem SameBuild.trans {first second third : Hart H}
    (earlier : first.SameBuild second) (later : second.SameBuild third) :
    first.SameBuild third where
  config := later.config.trans earlier.config
  datapath := later.datapath.trans earlier.datapath
  emulator := later.emulator.trans earlier.emulator

theorem sameBuild_trap (hart : Hart H) (info : TrapInfo) :
    hart.SameBuild (hart.trap info).2 := by
  have emulator :=
    dispatch_emulator InterruptController.service info hart.trapState
  cases handled : dispatch InterruptController.service info hart.trapState with
  | mk result state =>
      rw [handled] at emulator
      unfold trapState at handled
      cases result <;> simp only [trap, handled] <;> exact ⟨rfl, rfl, emulator⟩

theorem sameBuild_step (hart : Hart H) (word : Word) :
    hart.SameBuild (hart.step word).2 := by
  cases implemented : hart.config.implements word with
  | true =>
      obtain ⟨xregs, vregs, ran⟩ := exists_runDatapath_eq hart word
      rw [step_implemented implemented, ran]
      exact ⟨rfl, rfl, rfl⟩
  | false =>
      rw [step_unimplemented implemented]
      exact sameBuild_trap hart _

theorem sameBuild_execute (hart : Hart H) (word : Word) :
    hart.SameBuild (hart.execute word).2 := by
  unfold execute
  split
  · exact .refl hart
  · split
    · have kept := sameBuild_trap hart (.interrupt externalInterrupt)
      cases trapped : hart.trap (.interrupt externalInterrupt) with
      | mk result after =>
          rw [trapped] at kept
          cases result with
          | ok outcome => exact kept.trans (sameBuild_step after word)
          | error fault => exact kept
    · exact sameBuild_step hart word

theorem sameBuild_run (hart : Hart H) (program : List Word) :
    hart.SameBuild (hart.run program).2 := by
  induction program generalizing hart with
  | nil => exact .refl hart
  | cons word program induction =>
      have kept := sameBuild_execute hart word
      cases executed : hart.execute word with
      | mk result after =>
          rw [executed] at kept
          simp only [run, executed]
          cases result with
          | ok action => exact kept.trans (induction after)
          | error fault => exact kept

theorem sameBuild_emit (hart : Hart H) (word a b : Word) :
    hart.SameBuild (hart.emit word a b).2 := by
  have loads : hart.SameBuild (hart.loaded word a b) := ⟨rfl, rfl, rfl⟩
  rw [emit_snd]
  exact loads.trans (sameBuild_execute (hart.loaded word a b) word)

theorem sameBuild_emitVector (hart : Hart H) (word : Word) :
    hart.SameBuild (hart.emitVector word).2 := by
  rw [emitVector_snd]
  exact sameBuild_execute hart word

theorem sameBuild_perform (hart : Hart H) (request : HartRequest) :
    hart.SameBuild (request.perform hart).2 := by
  cases request with
  | execute word => exact sameBuild_execute hart word
  | run program => exact sameBuild_run hart program
  | emit word a b => exact sameBuild_emit hart word a b
  | emitVector word => exact sameBuild_emitVector hart word
  | invoke call =>
      cases call.amounts (H := H) with
      | emits word a b same =>
          simp only [HartRequest.perform, same]
          exact sameBuild_emit hart word a b
      | emitsVector word same =>
          simp only [HartRequest.perform, same]
          exact sameBuild_emitVector hart word
      | edits answer change same =>
          simp only [HartRequest.perform, same]
          exact ⟨rfl, rfl, rfl⟩

end Hart

/-! ### Histories -/

/-- One thing that is done to a hart. -/
inductive HartOperation (H : Type) where
  | ask (request : HartRequest)
  | controlInterrupts (control : InterruptControl H)
  /-- Any other change of the interrupt lines. -/
  | editInterrupts (change : InterruptController H → InterruptController H)
  | writeX (number value : Word)
  | editVregs (change : VRegFile → VRegFile)
  | setPc (pc : Word)
  | setResetPc (pc : Word)
  | enterTrap
  | exitTrap
  /-- A trap handled by the dispatcher alone, in a context and with an interrupt
  service of its own. -/
  | dispatch (info : TrapInfo) (context : TrapContext) (serviced : Word)
  | tick (cycles : Nat)
  | reset

namespace HartOperation

def apply (hart : Hart H) : HartOperation H → Hart H
  | .ask request => (request.perform hart).2
  | .controlInterrupts control => control.apply hart
  | .editInterrupts change =>
      { hart with interrupts := change hart.interrupts }
  | .writeX number value =>
      match hart.xregs.write number value with
      | .ok xregs => { hart with xregs }
      | .error _ => hart
  | .editVregs change => hart.setVregs (change hart.vregs)
  | .setPc pc => { hart with pc }
  | .setResetPc pc => hart.setResetPc pc
  | .enterTrap => { hart with dispatcher := hart.dispatcher.enter.2 }
  | .exitTrap => { hart with dispatcher := hart.dispatcher.exit }
  | .dispatch info context serviced =>
      { hart with
        dispatcher :=
          (VectorBench.dispatch (fun (_ : Unit) => (serviced, ())) info
            { dispatcher := hart.dispatcher, context,
              surroundings := () }).2.dispatcher }
  | .tick cycles => Clocked.advance cycles hart
  | .reset => hart.reset

def applyAll (hart : Hart H) (history : List (HartOperation H)) : Hart H :=
  history.foldl apply hart

theorem sameBuild_apply (hart : Hart H) (operation : HartOperation H) :
    hart.SameBuild (operation.apply hart) := by
  cases operation with
  | ask request => exact hart.sameBuild_perform request
  | controlInterrupts control => cases control <;> exact ⟨rfl, rfl, rfl⟩
  | writeX number value =>
      simp only [apply]
      split <;> exact ⟨rfl, rfl, rfl⟩
  | enterTrap =>
      refine ⟨rfl, rfl, ?_⟩
      simp only [apply, Dispatcher.enter]
      split <;> rfl
  | dispatch info context serviced =>
      exact ⟨rfl, rfl, dispatch_emulator _ info _⟩
  | editInterrupts | editVregs | setPc | setResetPc | exitTrap | tick | reset =>
      exact ⟨rfl, rfl, rfl⟩

theorem sameBuild_applyAll (hart : Hart H) (history : List (HartOperation H)) :
    hart.SameBuild (applyAll hart history) := by
  induction history generalizing hart with
  | nil => exact .refl hart
  | cons operation history induction =>
      exact (sameBuild_apply hart operation).trans
        (induction (operation.apply hart))

end HartOperation

end VectorBench
