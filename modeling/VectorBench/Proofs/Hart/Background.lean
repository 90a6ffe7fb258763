import VectorBench.Proofs.Hart.Emit
import VectorBench.Proofs.Hart.FatalTraps

/-!
# The background of a hart

Three things outlive a reset: the clock, the count of emulated instructions and
the interrupt lines.  While interrupts are off no instruction looks at them.
Whatever a hart does then, it would do as well on any other background, and it
would advance the clock and the count there by the same amounts.
-/

namespace VectorBench

variable {H α β : Type}

/-- What a reset of a hart leaves as it is. -/
structure Background (H : Type) where
  clock : Clock
  emulated : Word
  interrupts : InterruptController H

/-- A background after some cycles and some emulated instructions. -/
def Background.later (background : Background H) (cycles : Nat) (count : Word) :
    Background H where
  clock := background.clock.advance cycles
  emulated := background.emulated + count
  interrupts := background.interrupts

theorem Background.later_of_none (background : Background H) (cycles : Nat) :
    background.later cycles 0 =
      { background with clock := background.clock.advance cycles } := by
  have same : background.emulated + 0 = background.emulated :=
    BitVec.add_zero background.emulated
  simp only [later, same]

theorem Background.later_zero (background : Background H) :
    background.later 0 0 = background := by
  rw [later_of_none, Clock.advance_zero]

theorem Background.later_later (background : Background H)
    (first second : Nat) (count next : Word) :
    (background.later first count).later second next =
      background.later (first + second) (count + next) := by
  simp only [later, Clock.advance_advance, BitVec.add_assoc]

namespace Hart

variable {hart : Hart H} {word : Word}

def background (hart : Hart H) : Background H where
  clock := hart.clock
  emulated := hart.dispatcher.emulated
  interrupts := hart.interrupts

/-- The same hart on another background. -/
def onto (hart : Hart H) (background : Background H) : Hart H :=
  { hart with
    clock := background.clock
    dispatcher := { hart.dispatcher with emulated := background.emulated }
    interrupts := background.interrupts }

theorem onto_background (hart : Hart H) : hart.onto hart.background = hart :=
  rfl

/-- Interrupts are off and no trap is being handled. -/
structure Quiet (hart : Hart H) : Prop where
  disabled : hart.interruptsEnabled = false
  idle : hart.dispatcher.state = .idle

/-- Work that does the same on every background.  All that it does there is to
advance the clock and the count of emulated instructions. -/
def Oblivious (work : Hart H → α × Hart H) : Prop :=
  ∀ hart : Hart H, hart.Quiet → (work hart).2.Quiet ∧
    ∃ cycles count, ∀ background : Background H,
      work (hart.onto background) =
        ((work hart).1, (work hart).2.onto (background.later cycles count))

namespace Oblivious

theorem reading {answer : Hart H → α}
    (blind : ∀ (hart : Hart H) (background : Background H),
      answer (hart.onto background) = answer hart) :
    Oblivious fun hart => (answer hart, hart) := by
  intro hart quiet
  refine ⟨quiet, 0, 0, ?_⟩
  intro background
  simp only [Background.later_zero, blind]

theorem pure (answer : α) : Oblivious fun hart : Hart H => (answer, hart) :=
  reading fun _ _ => rfl

theorem changing {change : Hart H → Hart H}
    (kept : ∀ hart : Hart H, hart.Quiet → (change hart).Quiet)
    (commutes : ∀ (hart : Hart H) (background : Background H),
      change (hart.onto background) = (change hart).onto background) :
    Oblivious fun hart => ((), change hart) := by
  intro hart quiet
  refine ⟨kept hart quiet, 0, 0, ?_⟩
  intro background
  simp only [Background.later_zero, commutes]

theorem bind {work : Hart H → α × Hart H} {next : α → Hart H → β × Hart H}
    (first : Oblivious work) (second : ∀ answer, Oblivious (next answer)) :
    Oblivious fun hart => next (work hart).1 (work hart).2 := by
  intro hart quiet
  obtain ⟨between, cycles, count, same⟩ := first hart quiet
  obtain ⟨final, further, more, rest⟩ := second (work hart).1 (work hart).2 between
  refine ⟨final, cycles + further, count + more, ?_⟩
  intro background
  simp only [same, rest, Background.later_later]

theorem map {work : Hart H → α × Hart H} (first : Oblivious work) (f : α → β) :
    Oblivious fun hart => (f (work hart).1, (work hart).2) :=
  bind first (fun answer => pure (f answer))

/-- Work that goes on where its first part succeeds and passes on its
faults. -/
theorem onSuccess {work : Hart H → Except Fault α × Hart H}
    {next whole : Hart H → Except Fault β × Hart H}
    (first : Oblivious work) (second : Oblivious next)
    (goesOn : ∀ hart answer after, work hart = (.ok answer, after) →
      whole hart = next after)
    (stops : ∀ hart fault after, work hart = (.error fault, after) →
      whole hart = (.error fault, after)) :
    Oblivious whole := by
  let rest (answer : Except Fault α) (hart : Hart H) :
      Except Fault β × Hart H :=
    match answer with
    | .ok _ => next hart
    | .error fault => (.error fault, hart)
  have composed : whole = fun hart => rest (work hart).1 (work hart).2 := by
    funext hart
    cases worked : work hart with
    | mk answer after =>
        cases answer with
        | ok value => exact goesOn hart value after worked
        | error fault => exact stops hart fault after worked
  rw [composed]
  apply bind first
  intro answer
  cases answer with
  | ok value => exact second
  | error fault => exact pure _

end Oblivious

/-! ### Instructions -/

theorem runDatapath_onto (hart : Hart H) (word : Word)
    (background : Background H) :
    (hart.onto background).runDatapath word =
      (hart.runDatapath word).onto background := by
  simp only [runDatapath]
  split <;> rfl

theorem oblivious_illegalInstruction (word : Word) :
    Oblivious fun hart : Hart H =>
      hart.trap (TrapInfo.illegalInstruction word) := by
  intro hart quiet
  have elsewhere : ∀ background : Background H,
      (hart.onto background).dispatcher.state = .idle := fun _ => quiet.idle
  cases (InstructionFields.ofWord word).classCases with
  | unsupported selected =>
      simp only [trap_unsupported quiet.idle selected,
        trap_unsupported (elsewhere _) selected]
      refine ⟨⟨quiet.disabled, quiet.idle⟩, hart.config.trapCycles, 0, ?_⟩
      intro background
      rw [Background.later_of_none]
      rfl
  | vector selected =>
      simp only [trap_vector quiet.idle selected,
        trap_vector (elsewhere _) selected]
      exact ⟨⟨quiet.disabled, quiet.idle⟩, hart.config.trapCycles, 1,
        fun _ => rfl⟩
  | scalar kind scalar selected =>
      simp only [trap_scalar quiet.idle selected scalar,
        trap_scalar (elsewhere _) selected scalar]
      exact ⟨⟨quiet.disabled, quiet.idle⟩, hart.config.trapCycles, 1,
        fun _ => rfl⟩

theorem oblivious_step (word : Word) :
    Oblivious fun hart : Hart H => hart.step word := by
  intro hart quiet
  cases implemented : hart.config.implements word with
  | true =>
      have elsewhere : ∀ background : Background H,
          (hart.onto background).config.implements word = true :=
        fun _ => implemented
      obtain ⟨xregs, vregs, ran⟩ := exists_runDatapath_eq hart word
      simp only [step_implemented implemented, step_implemented (elsewhere _),
        runDatapath_onto, ran]
      refine ⟨⟨quiet.disabled, quiet.idle⟩, hart.config.opCycles, 0, ?_⟩
      intro background
      rw [Background.later_of_none]
      rfl
  | false =>
      have elsewhere : ∀ background : Background H,
          (hart.onto background).config.implements word = false :=
        fun _ => implemented
      simp only [step_unimplemented implemented,
        step_unimplemented (elsewhere _)]
      exact (oblivious_illegalInstruction word).map _ hart quiet

theorem execute_disabled (live : hart.halted = false)
    (disabled : hart.interruptsEnabled = false) :
    hart.execute word = hart.step word := by
  simp only [execute, takesInterrupt, live, disabled, Bool.false_and,
    Bool.false_eq_true, if_false]

/-- An instruction does the same whatever interrupts a hart has had and
whatever its clock shows. -/
theorem oblivious_execute (word : Word) :
    Oblivious fun hart : Hart H => hart.execute word := by
  intro hart quiet
  cases live : hart.halted with
  | true =>
      have elsewhere : ∀ background : Background H,
          (hart.onto background).halted = true := fun _ => live
      simp only [execute_halted live, execute_halted (elsewhere _)]
      exact Oblivious.pure _ hart quiet
  | false =>
      have elsewhere : ∀ background : Background H,
          (hart.onto background).execute word =
            (hart.onto background).step word :=
        fun _ => execute_disabled live quiet.disabled
      simp only [execute_disabled live quiet.disabled, elsewhere]
      exact oblivious_step word hart quiet

/-! ### Programs and single words -/

theorem oblivious_run (program : List Word) :
    Oblivious fun hart : Hart H => hart.run program := by
  induction program with
  | nil => exact Oblivious.pure _
  | cons word program induction =>
      apply (oblivious_execute word).onSuccess induction
      · intro hart action after executed
        simp only [run, executed]
      · intro hart fault after executed
        simp only [run, executed]

theorem oblivious_emit (word a b : Word) :
    Oblivious fun hart : Hart H => hart.emit word a b := by
  have loads : Oblivious fun hart : Hart H => ((), hart.loaded word a b) := by
    apply Oblivious.changing
    · intro hart quiet
      exact ⟨quiet.disabled, quiet.idle⟩
    · intro hart background
      rfl
  have reads : Oblivious fun hart : Hart H =>
      ((.ok (hart.xregs.get (InstructionFields.ofWord word).rd), hart) :
        Except Fault Word × Hart H) :=
    Oblivious.reading fun _ _ => rfl
  have executes := loads.bind fun _ => oblivious_execute word
  apply executes.onSuccess reads
  · intro hart action after executed
    unfold loaded at executed
    simp only [emit, executed]
  · intro hart fault after executed
    unfold loaded at executed
    simp only [emit, executed]

theorem oblivious_emitVector (word : Word) :
    Oblivious fun hart : Hart H => hart.emitVector word := by
  have reads : Oblivious fun hart : Hart H =>
      ((.ok (hart.vregs.readRegister (InstructionFields.ofWord word).rd), hart) :
        Except Fault VectorWords × Hart H) :=
    Oblivious.reading fun _ _ => rfl
  apply (oblivious_execute word).onSuccess reads
  · intro hart action after executed
    simp only [emitVector, executed]
  · intro hart fault after executed
    simp only [emitVector, executed]

end Hart

end VectorBench
