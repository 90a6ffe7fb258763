import Mathlib.Algebra.GroupWithZero.Nat
import VectorBench.Proofs.Comparison.Agreement
import VectorBench.Proofs.Comparison.Calls

/-!
# The spans of a comparison in two phases

The reference answers all inputs before the device sees the first one, and the
clock is read before, between and after.  So the span of each side counts the
cycles of its own calls, up to the largest count of the clock.
-/

namespace VectorBench

variable {σ ι τ : Type}

/-- The span counts the cycle that begins at this reading of the clock. -/
def CycleSpan.Covers (span : CycleSpan) (cycle : Nat) : Prop :=
  span.start ≤ cycle ∧ cycle < span.stop

/-- The spans of two pieces of work, one right after the other, on a clock
that stops at its largest count. -/
structure CycleSpan.Consecutive (start first second : Nat)
    (earlier later : CycleSpan) : Prop where
  earlier_eq : earlier = ⟨start, min maxCycles (start + first)⟩
  later_eq : later =
    ⟨min maxCycles (start + first), min maxCycles (start + first + second)⟩
  earlier_le : earlier.start ≤ earlier.stop
  later_le : later.start ≤ later.stop
  meet : earlier.stop = later.start
  apart : ∀ cycle, ¬(earlier.Covers cycle ∧ later.Covers cycle)

theorem Clock.consecutive (clock : Clock) (first second : Nat) :
    CycleSpan.Consecutive clock.now first second
      ⟨clock.now, (clock.advance first).now⟩
      ⟨(clock.advance first).now,
        (clock.advance (first + second)).now⟩ where
  earlier_eq := rfl
  later_eq := by
    rw [Nat.add_assoc]
    rfl
  earlier_le := clock.now_le_advance first
  later_le := clock.now_advance_le (Nat.le_add_right first second)
  meet := rfl
  apart := by
    rintro cycle ⟨⟨_started, before⟩, started, _before⟩
    exact Nat.lt_irrefl _ (Nat.lt_of_lt_of_le before started)

theorem Device.snd_onAll_cons {device : Device σ ι τ} {input : ι}
    {state next : σ} {answer : τ}
    (asked : device input state = (.ok answer, next)) (inputs : List ι) :
    (Device.onAll device (input :: inputs) state).2 =
      (Device.onAll device inputs next).2 := by
  simp only [Device.onAll, asked]
  rcases Device.onAll device inputs next with ⟨fault | answers, last⟩
  · rfl
  · rfl

section Spending

variable [Clocked σ]

/-- Each call of a reference on the inputs moves the clock by a number of
cycles. -/
inductive Reference.Spends (reference : Reference σ ι τ) :
    σ → List ι → List Nat → σ → Prop where
  | nil {state : σ} : Spends reference state [] [] state
  | cons {state next last : σ} {input : ι} {answer : τ} {inputs : List ι}
      {cycles : Nat} {later : List Nat} :
      reference input state = (answer, next) →
      Clocked.clock next = (Clocked.clock state).advance cycles →
      Spends reference next inputs later last →
      Spends reference state (input :: inputs) (cycles :: later) last

/-- Each call of a device, up to the first fault, moves the clock by a number
of cycles. -/
inductive Device.Spends (device : Device σ ι τ) :
    σ → List ι → List Nat → σ → Prop where
  | nil {state : σ} : Spends device state [] [] state
  | fault {state next : σ} {input : ι} {later : List ι} {fault : Fault}
      {cycles : Nat} :
      device input state = (.error fault, next) →
      Clocked.clock next = (Clocked.clock state).advance cycles →
      Spends device state (input :: later) [cycles] next
  | cons {state next last : σ} {input : ι} {answer : τ} {inputs : List ι}
      {cycles : Nat} {later : List Nat} :
      device input state = (.ok answer, next) →
      Clocked.clock next = (Clocked.clock state).advance cycles →
      Spends device next inputs later last →
      Spends device state (input :: inputs) (cycles :: later) last

theorem Reference.Spends.clock {reference : Reference σ ι τ} {state last : σ}
    {inputs : List ι} {cycles : List Nat}
    (spent : Reference.Spends reference state inputs cycles last) :
    Clocked.clock last = (Clocked.clock state).advance cycles.sum := by
  induction spent with
  | nil => exact (Clock.advance_zero _).symm
  | cons _ moved _ ih =>
      rw [ih, moved, Clock.advance_advance, List.sum_cons]

theorem Device.Spends.clock {device : Device σ ι τ} {state last : σ}
    {inputs : List ι} {cycles : List Nat}
    (spent : Device.Spends device state inputs cycles last) :
    Clocked.clock last = (Clocked.clock state).advance cycles.sum := by
  induction spent with
  | nil => exact (Clock.advance_zero _).symm
  | fault _ moved => rw [moved, List.sum_singleton]
  | cons _ moved _ ih =>
      rw [ih, moved, Clock.advance_advance, List.sum_cons]

theorem Reference.Spends.snd_onAll {reference : Reference σ ι τ}
    {state last : σ} {inputs : List ι} {cycles : List Nat}
    (spent : Reference.Spends reference state inputs cycles last) :
    (Reference.onAll reference inputs state).2 = last := by
  induction spent with
  | nil => rfl
  | cons asked _ _ ih =>
      rw [Reference.onAll, asked]
      exact ih

theorem Device.Spends.snd_onAll {device : Device σ ι τ}
    {state last : σ} {inputs : List ι} {cycles : List Nat}
    (spent : Device.Spends device state inputs cycles last) :
    (Device.onAll device inputs state).2 = last := by
  induction spent with
  | nil => rfl
  | fault asked _ => rw [Device.onAll, asked]
  | cons asked _ _ ih => exact (Device.snd_onAll_cons asked _).trans ih

/-- A comparison in two phases ends in the fault of the device, or in a report
with the spans of both sides. -/
inductive TimedEnd (start scalar vector : Nat) :
    Except Fault (List τ) → Except Fault (Report ι τ) → Prop where
  | fault (fault : Fault) :
      TimedEnd start scalar vector (.error fault) (.error fault)
  | report {got : List τ} {report : Report ι τ}
      {scalarSpan vectorSpan : CycleSpan} :
      report.scalarSpan = some scalarSpan →
      report.vectorSpan = some vectorSpan →
      CycleSpan.Consecutive start scalar vector scalarSpan vectorSpan →
      TimedEnd start scalar vector (.ok got) (.ok report)

variable [BEq τ]

section Batch

variable {reference : Reference σ (List ι) (List τ)}
  {device : Device σ (List ι) (List τ)} {inputs : List ι}
  {state between after : σ} {expected : List τ}

theorem compareBatch_fault {fault : Fault}
    (asked : reference inputs state = (expected, between))
    (faulted : device inputs between = (.error fault, after)) :
    compareBatch reference device inputs state = (.error fault, after) := by
  simp only [compareBatch, CycleSpan.measure, asked, faulted]

theorem compareBatch_report {got : List τ}
    (asked : reference inputs state = (expected, between))
    (answered : device inputs between = (.ok got, after))
    (length_expected : expected.length = inputs.length)
    (length_got : got.length = inputs.length) :
    compareBatch reference device inputs state =
      (.ok { Report.ofTables inputs got expected with
              scalarSpan := some
                ⟨(Clocked.clock state).now, (Clocked.clock between).now⟩
              vectorSpan := some
                ⟨(Clocked.clock between).now, (Clocked.clock after).now⟩ },
        after) := by
  have complete : ¬(expected.length ≠ inputs.length ∨
      got.length ≠ inputs.length) :=
    not_or.mpr ⟨not_not.mpr length_expected, not_not.mpr length_got⟩
  simp only [compareBatch, CycleSpan.measure, asked, answered,
    if_neg complete]

end Batch

/-- A comparison in two phases makes all calls of the reference before those
of the device, and the spans of its report lie one right after the other. -/
theorem compareTimed_spans {reference : Reference σ ι τ}
    {device : Device σ ι τ} {inputs : List ι} {state between after : σ}
    {scalarCycles vectorCycles : List Nat}
    (asked : Reference.Spends reference state inputs scalarCycles between)
    (answered : Device.Spends device between inputs vectorCycles after) :
    ∃ expected outcome deviceCalls result,
      compareTimed reference device inputs state = (result, after) ∧
      compareTimed reference.logged device.logged inputs
        (Logged.start state) =
          (result, ⟨after,
            List.zipWith Call.reference inputs expected ++ deviceCalls⟩) ∧
      expected.length = inputs.length ∧
      DeviceCalls inputs outcome deviceCalls ∧
      TimedEnd (Clocked.clock state).now scalarCycles.sum vectorCycles.sum
        outcome result := by
  obtain ⟨expected, middle, asksAll, asksAllLogged, length_expected⟩ :=
    Reference.onAll_logged reference inputs state []
  obtain rfl : middle = between :=
    (congrArg Prod.snd asksAll).symm.trans asked.snd_onAll
  obtain ⟨outcome, last, deviceCalls, answersAll, answersAllLogged, called⟩ :=
    Device.onAll_logged device inputs middle
      (List.zipWith Call.reference inputs expected)
  obtain rfl : last = after :=
    (congrArg Prod.snd answersAll).symm.trans answered.snd_onAll
  cases outcome with
  | error fault =>
      exact ⟨expected, .error fault, deviceCalls, .error fault,
        compareBatch_fault asksAll answersAll,
        compareBatch_fault asksAllLogged answersAllLogged,
        length_expected, called, .fault fault⟩
  | ok got =>
      have length_got := called.length_eq rfl
      have spans := (Clocked.clock state).consecutive scalarCycles.sum
        vectorCycles.sum
      rw [← Clock.advance_advance, ← asked.clock, ← answered.clock] at spans
      exact ⟨expected, .ok got, deviceCalls, _,
        compareBatch_report asksAll answersAll length_expected length_got,
        compareBatch_report asksAllLogged answersAllLogged length_expected
          length_got,
        length_expected, called, .report rfl rfl spans⟩

end Spending

/-- The clock stops while the device answers the second input. -/
theorem compareTimed_spans_doublings :
    ∃ report,
      (compareTimed doubling packedDoubling [3, 9]
        (Clock.zero.advance (maxCycles - 7))).1 = .ok report ∧
      report.scalarSpan = some ⟨maxCycles - 7, maxCycles - 1⟩ ∧
      report.vectorSpan = some ⟨maxCycles - 1, maxCycles⟩ := by
  let start := Clock.zero.advance (maxCycles - 7)
  have asked : Reference.Spends doubling start [3, 9] [3, 3]
      ((start.advance 3).advance 3) :=
    .cons rfl rfl (.cons rfl rfl .nil)
  have answered : Device.Spends packedDoubling ((start.advance 3).advance 3)
      [3, 9] [1, 1] ((((start.advance 3).advance 3).advance 1).advance 1) :=
    .cons rfl rfl (.cons rfl rfl .nil)
  obtain ⟨_expected, outcome, _calls, result, ran, _logged, _length, called,
    ended⟩ := compareTimed_spans asked answered
  cases ended with
  | fault fault => nomatch ran
  | report scalarSpan vectorSpan spans =>
      refine ⟨_, congrArg Prod.fst ran, ?_, ?_⟩
      · rw [scalarSpan, spans.earlier_eq]
        simp [start, Clocked.clock, Clock.advance, Clock.zero, maxCycles]
      · rw [vectorSpan, spans.later_eq]
        simp [start, Clocked.clock, Clock.advance, Clock.zero, maxCycles]

end VectorBench
