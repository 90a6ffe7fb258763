import VectorBench.Proofs.Hart.Step

/-!
# Harts refine the plain core

Which instructions trap, what they cost and which interrupts arrive between
them leaves no mark on the registers: every run of a hart with the software
model as its datapath ends as the same words end on a plain core.
-/

namespace VectorBench

/-- What can be done to the interrupts of a hart between two instructions. -/
inductive InterruptControl (H : Type) where
  | register (number : Nat) (handler : H)
  | unregister (number : Nat)
  | setMask (mask : Word)
  | raise (number : Nat)
  | setEnabled (enabled : Bool)

/-- One thing that happens to a hart. -/
inductive HartEvent (H : Type) where
  | instruction (word : Word)
  | control (control : InterruptControl H)

variable {H : Type}

def InterruptControl.apply (hart : Hart H) : InterruptControl H → Hart H
  | .register number handler =>
      { hart with interrupts := hart.interrupts.register number handler }
  | .unregister number =>
      { hart with interrupts := hart.interrupts.unregister number }
  | .setMask mask => { hart with interrupts := hart.interrupts.setMask mask }
  | .raise number => hart.raiseInterrupt number
  | .setEnabled enabled => hart.setInterruptsEnabled enabled

namespace HartEvent

/-- The instruction words among some events, in order. -/
def words : List (HartEvent H) → List Word
  | [] => []
  | .instruction word :: events => word :: words events
  | .control _ :: events => words events

theorem words_map_instruction (program : List Word) :
    words (program.map (HartEvent.instruction (H := H))) = program := by
  induction program with
  | nil => rfl
  | cons word program induction =>
      simp only [List.map_cons, words, induction]

end HartEvent

namespace Hart

/-- Lets events happen in order, up to the first instruction that faults. -/
def runEvents (hart : Hart H) : List (HartEvent H) → Except Fault Unit × Hart H
  | [] => (.ok (), hart)
  | .control control :: events => (control.apply hart).runEvents events
  | .instruction word :: events =>
      match hart.execute word with
      | (.ok _, hart) => hart.runEvents events
      | (.error fault, hart) => (.error fault, hart)

theorem runEvents_map_instruction (hart : Hart H) (program : List Word) :
    hart.runEvents (program.map HartEvent.instruction) = hart.run program := by
  induction program generalizing hart with
  | nil => rfl
  | cons word program induction =>
      simp only [List.map_cons, runEvents, run]
      cases executed : hart.execute word with
      | mk result after =>
          cases result with
          | ok action => exact induction after
          | error fault => rfl

theorem core_control (hart : Hart H) (control : InterruptControl H) :
    (control.apply hart).core = hart.core := by
  cases control <;> rfl

theorem datapath_control (hart : Hart H) (control : InterruptControl H) :
    (control.apply hart).datapath = hart.datapath := by
  cases control <;> rfl

theorem Ready.control {hart : Hart H} (ready : hart.Ready)
    (control : InterruptControl H) : (control.apply hart).Ready := by
  cases control <;> exact ⟨ready.live, ready.idle, ready.emulator⟩

theorem runEvents_core {hart : Hart H} (ready : hart.Ready)
    (modelled : hart.datapath = Datapath.model) (events : List (HartEvent H)) :
    ((hart.runEvents events).1, (hart.runEvents events).2.core) =
      hart.core.run Datapath.model (HartEvent.words events) := by
  induction events generalizing hart with
  | nil => rfl
  | cons event events induction =>
      cases event with
      | control control =>
          have later := induction (ready.control control)
            ((datapath_control hart control).trans modelled)
          rw [core_control] at later
          exact later
      | instruction word =>
          have computed := datapathOf_eq_model ready modelled word
          simp only [runEvents, HartEvent.words, PlainCore.run]
          cases stepped : hart.core.step Datapath.model word with
          | error fault =>
              obtain ⟨after, executed, unchanged⟩ := execute_error ready stepped
              simp only [executed, unchanged]
          | ok core =>
              rw [← computed] at stepped
              obtain ⟨action, after, executed, follows⟩ :=
                execute_ok ready stepped
              have later := induction follows.ready
                (follows.datapath.trans modelled)
              rw [follows.core_eq] at later
              simp only [executed]
              exact later

/-- Runs of a ready hart whose datapath is the software model end as the plain
core does, also when its interrupts are changed between the instructions. -/
theorem run_refines_plainCore {hart : Hart H} (ready : hart.Ready)
    (modelled : hart.datapath = Datapath.model) :
    (∀ program : List Word,
      ((hart.run program).1, (hart.run program).2.core) =
        hart.core.run Datapath.model program) ∧
    ∀ events : List (HartEvent H),
      ((hart.runEvents events).1, (hart.runEvents events).2.core) =
        hart.core.run Datapath.model (HartEvent.words events) := by
  refine ⟨?_, runEvents_core ready modelled⟩
  intro program
  have refined :=
    runEvents_core ready modelled (program.map HartEvent.instruction)
  rw [runEvents_map_instruction, HartEvent.words_map_instruction] at refined
  exact refined

/-- A hart about to take an interrupt. -/
def withPendingLine : Hart Unit :=
  InterruptControl.apply
    (((Hart.initial Clock.zero {} Datapath.model).setInterruptsEnabled
      true).raiseInterrupt 3)
    (.register 3 ())

theorem run_refines_plainCore_interrupted :
    withPendingLine.Ready ∧ withPendingLine.datapath = Datapath.model ∧
    withPendingLine.takesInterrupt = true ∧
    ∀ program : List Word,
      ((withPendingLine.run program).1, (withPendingLine.run program).2.core) =
        withPendingLine.core.run Datapath.model program :=
  ⟨⟨rfl, rfl, rfl⟩, rfl, by decide,
    (run_refines_plainCore
      (⟨rfl, rfl, rfl⟩ : withPendingLine.Ready) rfl).1⟩

end Hart

end VectorBench
