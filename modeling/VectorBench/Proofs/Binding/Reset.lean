import VectorBench.Proofs.Binding.Histories
import VectorBench.Proofs.Hart.Background

/-!
# Reset

A hart that is reset is a new hart on an old background.  As long as interrupts
stay off, no program and no session tells it from a new one.
-/

namespace VectorBench

variable {H : Type}

namespace Hart

theorem oblivious_invoke (call : VectorCall) :
    Oblivious fun hart : Hart H => (HartRequest.invoke call).perform hart := by
  cases call.amounts (H := H) with
  | emits word a b same =>
      simp only [HartRequest.perform, same]
      exact (oblivious_emit word a b).map
        fun result => HartAnswer.returned (.word result)
  | emitsVector word same =>
      simp only [HartRequest.perform, same]
      exact (oblivious_emitVector word).map
        fun result => HartAnswer.returned (.vector result)
  | edits answer change same =>
      have edits : Oblivious fun hart : Hart H =>
          ((), hart.setVregs (change hart.vregs)) := by
        apply Oblivious.changing
        · intro hart quiet
          exact ⟨quiet.disabled, quiet.idle⟩
        · intro hart background
          rfl
      simp only [HartRequest.perform, same]
      exact edits.map fun _ => HartAnswer.returned answer

theorem oblivious_perform (request : HartRequest) :
    Oblivious fun hart : Hart H => request.perform hart := by
  cases request with
  | execute word => exact (oblivious_execute word).map HartAnswer.action
  | run program => exact (oblivious_run program).map HartAnswer.finished
  | emit word a b => exact (oblivious_emit word a b).map HartAnswer.word
  | emitVector word => exact (oblivious_emitVector word).map HartAnswer.vector
  | invoke call => exact oblivious_invoke call

theorem oblivious_performAll (requests : List HartRequest) :
    Oblivious fun hart : Hart H => HartRequest.performAll hart requests := by
  induction requests with
  | nil => exact Oblivious.pure []
  | cons request requests induction =>
      exact (oblivious_perform request).bind fun answer =>
        induction.map fun answers => answer :: answers

/-- Two pieces of work, on two harts, that leave the same behind.  They advance
the clocks and the counts of emulated instructions by the same amounts. -/
structure SameEffect (first firstAfter second secondAfter : Hart H) : Prop where
  xregs : firstAfter.xregs = secondAfter.xregs
  vregs : firstAfter.vregs = secondAfter.vregs
  pc : firstAfter.pc = secondAfter.pc
  halted : firstAfter.halted = secondAfter.halted
  clock : ∃ cycles, firstAfter.clock = first.clock.advance cycles ∧
    secondAfter.clock = second.clock.advance cycles
  emulated : ∃ count,
    firstAfter.dispatcher.emulated = first.dispatcher.emulated + count ∧
    secondAfter.dispatcher.emulated = second.dispatcher.emulated + count

theorem Oblivious.sameEffect {α : Type} {work : Hart H → α × Hart H}
    (oblivious : Oblivious work) {hart : Hart H} (quiet : hart.Quiet)
    (background : Background H) :
    (work (hart.onto background)).1 = (work hart).1 ∧
      SameEffect (hart.onto background) (work (hart.onto background)).2
        hart (work hart).2 := by
  obtain ⟨-, cycles, count, same⟩ := oblivious hart quiet
  have here := congrArg Prod.snd (same hart.background)
  rw [onto_background] at here
  rw [same background]
  exact ⟨rfl, rfl, rfl, rfl, rfl, ⟨cycles, rfl, congrArg Hart.clock here⟩,
    ⟨count, rfl, congrArg (·.dispatcher.emulated) here⟩⟩

theorem reset_eq_onto {clock : Clock} {config : HartConfig}
    {datapath : Datapath} {used : Hart H}
    (same : (Hart.initial clock config datapath).SameBuild used)
    (freshClock : Clock) :
    used.reset =
      ((Hart.initial freshClock config datapath).setResetPc used.resetPc).onto
        used.background := by
  obtain ⟨sameConfig, sameDatapath, emulator⟩ := same
  simp only [reset, sameConfig, sameDatapath, emulator]
  rfl

/-- Reset erases history: after it every request has the same answer as on a
new hart, and leaves the same registers behind. -/
theorem reset_erases_history (clock freshClock : Clock) (config : HartConfig)
    (datapath : Datapath) (history : List (HartOperation H))
    (requests : List HartRequest) :
    let used := HartOperation.applyAll (initial clock config datapath) history
    let fresh := (initial freshClock config datapath : Hart H).setResetPc
      used.resetPc
    (HartRequest.performAll used.reset requests).1 =
        (HartRequest.performAll fresh requests).1 ∧
      SameEffect used.reset (HartRequest.performAll used.reset requests).2
        fresh (HartRequest.performAll fresh requests).2 := by
  intro used fresh
  have same := HartOperation.sameBuild_applyAll
    (initial clock config datapath) history
  have quiet : fresh.Quiet := ⟨rfl, rfl⟩
  rw [reset_eq_onto same freshClock]
  exact (oblivious_performAll requests).sameEffect quiet used.background

/-- An interrupt finds the dispatcher busy, and the hart halts. -/
def busyHistory : List (HartOperation Unit) :=
  [.setResetPc 0x80, .writeX 10 7, .controlInterrupts (.register 3 ()),
    .controlInterrupts (.raise 3), .controlInterrupts (.setEnabled true),
    .enterTrap, .ask (.execute 0x00b5055b)]

/-- An addition in the datapath, an emulated product, and a word of no vector
class. -/
def laterRequests : List HartRequest :=
  [.run [0x00b5055b], .invoke (.scalarOp 7 0 6 7), .execute 0x000010b7]

theorem reset_erases_history_busy :
    let used := HartOperation.applyAll (initial Clock.zero {} Datapath.model)
      busyHistory
    let fresh := (initial Clock.zero {} Datapath.model : Hart Unit).setResetPc
      used.resetPc
    used.halted = true ∧ used.interrupts.firing ≠ 0 ∧ used.clock.now = 40 ∧
      (HartRequest.performAll used.reset laterRequests).1 =
        (HartRequest.performAll fresh laterRequests).1 ∧
      (HartRequest.performAll used.reset laterRequests).2.vregs =
        (HartRequest.performAll fresh laterRequests).2.vregs := by
  intro used fresh
  obtain ⟨answers, effect⟩ := reset_erases_history Clock.zero Clock.zero {}
    Datapath.model busyHistory laterRequests
  refine ⟨?_, ?_, ?_, answers, effect.vregs⟩
  · rfl
  · decide
  · rfl

end Hart

end VectorBench
