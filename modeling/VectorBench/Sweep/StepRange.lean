import VectorBench.Word

/-!
# Step ranges

A range yields `start`, `start + step`, `start + 2 * step`, … below `stop`.  It ends also where the
next value would not fit a word, and it is empty when the step is zero.  `remaining` counts the
values still to come.
-/

namespace VectorBench

/-- A range of words together with the value that comes next. -/
structure StepRange where
  start : Word
  stop : Word
  step : Word
  upcoming : Option Word
  /-- What is left lies below `stop`, and the step moves on. -/
  upcoming_lt : ∀ value ∈ upcoming, value < stop ∧ step ≠ 0
deriving DecidableEq

namespace StepRange

/-- The value of a range that comes at a place, if it lies in the range. -/
def clip (stop step : Word) (value : Nat) : Option Word :=
  if value < stop.toNat ∧ step ≠ 0 then some (BitVec.ofNat 32 value) else none

theorem clip_lt {stop step : Word} {value : Nat} :
    ∀ word ∈ clip stop step value, word < stop ∧ step ≠ 0 := by
  intro word member
  unfold clip at member
  split at member
  case isTrue inside =>
    cases member
    have fits := stop.isLt
    refine ⟨?_, inside.2⟩
    rw [BitVec.lt_def, BitVec.toNat_ofNat, Nat.mod_eq_of_lt (by omega)]
    exact inside.1
  case isFalse => cases member

def ofBounds (start stop step : Word) : StepRange where
  start := start
  stop := stop
  step := step
  upcoming := clip stop step start.toNat
  upcoming_lt := clip_lt

def restart (range : StepRange) : StepRange :=
  ofBounds range.start range.stop range.step

def remaining (range : StepRange) : Nat :=
  match range.upcoming with
  | some value => (range.stop.toNat - value.toNat - 1) / range.step.toNat + 1
  | none => 0

def after (range : StepRange) (value : Word) : StepRange :=
  { range with
    upcoming := clip range.stop range.step (value.toNat + range.step.toNat)
    upcoming_lt := clip_lt }

def next? (range : StepRange) : Option (Word × StepRange) :=
  range.upcoming.map fun value => (value, range.after value)

theorem remaining_eq_succ {range rest : StepRange} {value : Word}
    (yields : range.next? = some (value, rest)) : range.remaining = rest.remaining + 1 := by
  obtain ⟨start, stop, step, upcoming, upcoming_lt⟩ := range
  cases upcoming with
  | none => simp [next?] at yields
  | some first =>
      simp only [next?, Option.map_some, Option.some.injEq, Prod.mk.injEq] at yields
      obtain ⟨rfl, rfl⟩ := yields
      obtain ⟨below, nonzero⟩ := upcoming_lt first rfl
      have positive : 0 < step.toNat := by
        rw [Nat.pos_iff_ne_zero]
        exact fun toNat_eq => nonzero (BitVec.eq_of_toNat_eq toNat_eq)
      have fits := stop.isLt
      rw [BitVec.lt_def] at below
      simp only [remaining, after, clip]
      split
      · next value found =>
          split at found
          case isFalse => cases found
          case isTrue inside =>
            cases found
            rw [BitVec.toNat_ofNat, Nat.mod_eq_of_lt (by omega)]
            have shift : stop.toNat - first.toNat - 1
                = (stop.toNat - (first.toNat + step.toNat) - 1) + step.toNat := by omega
            rw [shift, Nat.add_div_right _ positive]
      · next missing =>
          split at missing
          case isTrue => cases missing
          case isFalse outside =>
            have small : stop.toNat - first.toNat - 1 < step.toNat := by
              have beyond : ¬ first.toNat + step.toNat < stop.toNat :=
                fun inside => outside ⟨inside, nonzero⟩
              omega
            rw [Nat.div_eq_of_lt small]

def toList (range : StepRange) : List Word :=
  match _yields : range.next? with
  | some (value, rest) => value :: rest.toList
  | none => []
termination_by range.remaining
decreasing_by
  have counted := remaining_eq_succ _yields
  omega

def take (range : StepRange) : (count : Nat) → List Word × StepRange
  | 0 => ([], range)
  | count + 1 =>
      match range.next? with
      | some (value, rest) =>
          let (values, rest) := rest.take count
          (value :: values, rest)
      | none => ([], range)

/-- Skips `count` values and yields the next one, if the range goes so far. -/
def nth? (range : StepRange) : (count : Nat) → Option Word × StepRange
  | 0 =>
      match range.next? with
      | some (value, rest) => (some value, rest)
      | none => (none, range)
  | count + 1 =>
      match range.next? with
      | some (_, rest) => rest.nth? count
      | none => (none, range)

end StepRange

end VectorBench
