import Mathlib.Algebra.Group.Nat.Defs
import Mathlib.Logic.Function.Iterate
import VectorBench.Sweep.StepRange

/-!
# Ranges as progressions

A range is called for one value after the other.  The answers are the terms of
an arithmetic progression, as long as they lie below the end of the range, and
at every point the range knows how many are left.  Its sums and differences are
those of words, and none of them leaves the word size.
-/

namespace VectorBench

/-! ### Calls in a row -/

section Calls

variable {σ α : Type} {next : σ → Option α × σ} {Stands : σ → Prop}
  {left : σ → List α} {state : σ}

/-- What a number of calls leave of a state. -/
def afterCalls (next : σ → Option α × σ) (calls : Nat) (state : σ) : σ :=
  (fun state => (next state).2)^[calls] state

theorem afterCalls_succ (next : σ → Option α × σ) (calls : Nat) (state : σ) :
    afterCalls next (calls + 1) state =
      (next (afterCalls next calls state)).2 :=
  Function.iterate_succ_apply' _ _ _

/-- A call answers with the first of the values that are left and leaves the
others, and it answers with nothing only where no value is left. -/
structure Enumerates (next : σ → Option α × σ) (Stands : σ → Prop)
    (left : σ → List α) : Prop where
  stands : ∀ {state}, Stands state → Stands (next state).2
  left_eq : ∀ {state}, Stands state →
    left state = (next state).1.toList ++ left (next state).2
  ended : ∀ {state}, Stands state → (next state).1 = none → left state = []

namespace Enumerates

theorem answer (enumerates : Enumerates next Stands left)
    (stands : Stands state) : (next state).1 = (left state).head? := by
  cases answered : (next state).1 with
  | none => rw [enumerates.ended stands answered, List.head?_nil]
  | some value =>
      rw [enumerates.left_eq stands, answered]
      rfl

theorem rest (enumerates : Enumerates next Stands left)
    (stands : Stands state) : left (next state).2 = (left state).tail := by
  have unfolds := enumerates.left_eq stands
  cases answered : (next state).1 with
  | none =>
      have nothing := enumerates.ended stands answered
      rw [answered, Option.toList_none, List.nil_append] at unfolds
      rw [← unfolds, nothing, List.tail_nil]
  | some value =>
      rw [unfolds, answered]
      rfl

theorem stands_afterCalls (enumerates : Enumerates next Stands left)
    (stands : Stands state) (calls : Nat) :
    Stands (afterCalls next calls state) := by
  induction calls with
  | zero => exact stands
  | succ calls ih =>
      rw [afterCalls_succ]
      exact enumerates.stands ih

theorem left_afterCalls (enumerates : Enumerates next Stands left)
    (stands : Stands state) (calls : Nat) :
    left (afterCalls next calls state) = (left state).drop calls := by
  induction calls with
  | zero => rfl
  | succ calls ih =>
      rw [afterCalls_succ,
        enumerates.rest (enumerates.stands_afterCalls stands calls), ih,
        List.tail_drop]

theorem answer_afterCalls (enumerates : Enumerates next Stands left)
    (stands : Stands state) (calls : Nat) :
    (next (afterCalls next calls state)).1 = (left state)[calls]? := by
  rw [enumerates.answer (enumerates.stands_afterCalls stands calls),
    enumerates.left_afterCalls stands, List.head?_drop]

end Enumerates

end Calls

/-! ### Arithmetic that stays in a word -/

namespace Word

/-- The sum of two words, where it fits a word. -/
def plus? (a b : Word) : Option Word :=
  if a.toNat + b.toNat < 2 ^ 32 then some (Word.plus a b) else none

/-- The difference of two words, where it is not below zero. -/
def minus? (a b : Word) : Option Word :=
  if b ≤ a then some (a - b) else none

/-- The quotient of two words, where there is one. -/
def quotient? (a b : Word) : Option Word :=
  if b = 0 then none else some (a / b)

theorem toNat_pos {word : Word} (nonzero : word ≠ 0) : 0 < word.toNat := by
  rw [Nat.pos_iff_ne_zero]
  exact fun zero => nonzero (BitVec.eq_of_toNat_eq zero)

end Word

/-- The terms of a progression in order, as long as they lie below `stop`.  A
step of zero gives none. -/
def progression (start stop step : Word) : List Nat :=
  if step = 0 then []
  else
    ((List.range stop.toNat).map fun place =>
      start.toNat + place * step.toNat).takeWhile (· < stop.toNat)

namespace StepRange

variable {range rest : StepRange} {value : Word}

/-- The next value, if one is left, and the range after it. -/
def next (range : StepRange) : Option Word × StepRange :=
  match range.next? with
  | some (value, rest) => (some value, rest)
  | none => (none, range)

/-- The number of values to come, computed in words.  There is no outcome where
a difference falls below zero or the step is zero. -/
def remaining? (range : StepRange) : Option Nat :=
  match range.upcoming with
  | none => some 0
  | some value => do
      let room ← Word.minus? range.stop value
      let before ← Word.minus? room 1
      let steps ← Word.quotient? before range.step
      some (steps.toNat + 1)

/-- A lower and an upper bound of the number of values to come. -/
def sizeHint? (range : StepRange) : Option (Nat × Option Nat) :=
  range.remaining?.map fun remaining => (remaining, some remaining)

/-- The number of values to come, if both bounds are this number. -/
def len? (range : StepRange) : Option Nat :=
  range.sizeHint?.bind fun (lower, upper) =>
    if upper = some lower then some lower else none

/-! ### The values to come -/

theorem next_of_next?_some (yields : range.next? = some (value, rest)) :
    range.next = (some value, rest) := by
  rw [next, yields]

theorem next_of_next?_none (ended : range.next? = none) :
    range.next = (none, range) := by
  rw [next, ended]

theorem toList_of_next?_some (yields : range.next? = some (value, rest)) :
    range.toList = value :: rest.toList := by
  rw [toList]
  split
  case h_1 found =>
    cases yields.symm.trans found
    rfl
  case h_2 ended => cases yields.symm.trans ended

theorem toList_of_next?_none (ended : range.next? = none) :
    range.toList = [] := by
  rw [toList]
  split
  case h_1 found => cases ended.symm.trans found
  case h_2 => rfl

theorem next?_of_upcoming (comes : range.upcoming = some value) :
    range.next? = some (value, range.after value) := by
  rw [next?, comes]
  rfl

theorem next?_of_ended (ended : range.upcoming = none) :
    range.next? = none := by
  rw [next?, ended]
  rfl

theorem remaining_eq_length (range : StepRange) :
    range.remaining = range.toList.length := by
  induction counted : range.remaining generalizing range with
  | zero =>
      cases yields : range.next? with
      | none => rw [toList_of_next?_none yields, List.length_nil]
      | some found =>
          have more := remaining_eq_succ yields
          omega
  | succ count ih =>
      cases comes : range.upcoming with
      | none => simp [remaining, comes] at counted
      | some value =>
          have yields := next?_of_upcoming comes
          have more := remaining_eq_succ yields
          rw [toList_of_next?_some yields, List.length_cons,
            ← ih (range.after value) (by omega)]

/-- Before each value there is room for it, so no difference falls below
zero. -/
theorem remaining?_eq (range : StepRange) :
    range.remaining? = some range.remaining := by
  cases comes : range.upcoming with
  | none => simp [remaining?, remaining, comes]
  | some value =>
      obtain ⟨below, nonzero⟩ := range.upcoming_lt value comes
      have room : Word.minus? range.stop value =
          some (range.stop - value) := if_pos (BitVec.le_of_lt below)
      have roomNat : (range.stop - value).toNat =
          range.stop.toNat - value.toNat :=
        BitVec.toNat_sub_of_le (BitVec.le_of_lt below)
      have positive : (1 : Word) ≤ range.stop - value := by
        rw [BitVec.lt_def] at below
        rw [BitVec.le_def, roomNat]
        change 1 ≤ _
        omega
      have before : Word.minus? (range.stop - value) 1 =
          some (range.stop - value - 1) := if_pos positive
      have beforeNat : (range.stop - value - 1).toNat =
          range.stop.toNat - value.toNat - 1 := by
        rw [BitVec.toNat_sub_of_le positive, roomNat]
        rfl
      have steps : Word.quotient? (range.stop - value - 1) range.step =
          some ((range.stop - value - 1) / range.step) := if_neg nonzero
      simp only [remaining?, remaining, comes, room, before, steps,
        Option.bind_eq_bind, Option.bind_some, BitVec.toNat_udiv, beforeNat]

theorem sizeHint?_eq (range : StepRange) :
    range.sizeHint? =
      some (range.toList.length, some range.toList.length) := by
  rw [sizeHint?, remaining?_eq, remaining_eq_length]
  rfl

theorem len?_eq (range : StepRange) :
    range.len? = some range.toList.length := by
  rw [len?, sizeHint?_eq]
  exact if_pos rfl

/-- The value after another one is their sum with the step, kept where it fits
a word and lies below the end. -/
theorem upcoming_after (comes : value ∈ range.upcoming) :
    (range.after value).upcoming =
      (Word.plus? value range.step).filter (· < range.stop) := by
  have nonzero := (range.upcoming_lt value comes).2
  have bounded := range.stop.isLt
  by_cases fits : value.toNat + range.step.toNat < 2 ^ 32
  · have sum : (Word.plus value range.step).toNat =
        value.toNat + range.step.toNat := by
      rw [Word.plus_eq_add, BitVec.toNat_add, Nat.mod_eq_of_lt fits]
    have below : Word.plus value range.step < range.stop ↔
        value.toNat + range.step.toNat < range.stop.toNat := by
      rw [BitVec.lt_def, sum]
    have word : BitVec.ofNat 32 (value.toNat + range.step.toNat) =
        Word.plus value range.step := by
      rw [← sum, BitVec.ofNat_toNat, BitVec.setWidth_eq]
    simp only [after, clip, Word.plus?, if_pos fits, Option.filter_some,
      decide_eq_true_eq, below, word, nonzero, ne_eq, not_false_eq_true,
      and_true]
  · have outside : ¬ value.toNat + range.step.toNat < range.stop.toNat := by
      omega
    simp only [after, clip, Word.plus?, if_neg fits, Option.filter_none,
      outside, false_and, if_false]

/-! ### The terms of the progression -/

section Terms

variable {start stop step : Word}

/-- The range of which the next value is the term at a place, if that lies below
the end. -/
def standing (start stop step : Word) (place : Nat) : StepRange where
  start := start
  stop := stop
  step := step
  upcoming := clip stop step (start.toNat + place * step.toNat)
  upcoming_lt := clip_lt

theorem ofBounds_eq_standing (start stop step : Word) :
    ofBounds start stop step = standing start stop step 0 := by
  simp only [ofBounds, standing, Nat.zero_mul, Nat.add_zero]

theorem next?_standing {place : Nat} (nonzero : step ≠ 0)
    (below : start.toNat + place * step.toNat < stop.toNat) :
    (standing start stop step place).next? =
      some (BitVec.ofNat 32 (start.toNat + place * step.toNat),
        standing start stop step (place + 1)) := by
  have comes : (standing start stop step place).upcoming =
      some (BitVec.ofNat 32 (start.toNat + place * step.toNat)) :=
    if_pos ⟨below, nonzero⟩
  have number : (BitVec.ofNat 32 (start.toNat + place * step.toNat)).toNat =
      start.toNat + place * step.toNat := by
    have bounded := stop.isLt
    rw [BitVec.toNat_ofNat, Nat.mod_eq_of_lt (by omega)]
  rw [next?_of_upcoming comes]
  simp only [after, standing, number, Nat.succ_mul, Nat.add_assoc]

/-- From any place on, the values are the terms that lie below the end. -/
theorem toList_standing (nonzero : step ≠ 0) {place count : Nat}
    (enough : stop.toNat ≤ place + count) :
    (standing start stop step place).toList.map BitVec.toNat =
      ((List.range' place count).map fun place =>
        start.toNat + place * step.toNat).takeWhile (· < stop.toNat) := by
  have positive := Word.toNat_pos nonzero
  induction count generalizing place with
  | zero =>
      -- No place behind the end has a term below it.
      have climbs : place ≤ place * step.toNat :=
        Nat.le_mul_of_pos_right place positive
      have beyond : ¬ start.toNat + place * step.toNat < stop.toNat := by omega
      have ended : (standing start stop step place).upcoming = none :=
        if_neg fun inside => beyond inside.1
      rw [toList_of_next?_none (next?_of_ended ended)]
      rfl
  | succ count ih =>
      rw [List.range'_succ, List.map_cons]
      by_cases below : start.toNat + place * step.toNat < stop.toNat
      · have bounded := stop.isLt
        rw [toList_of_next?_some (next?_standing nonzero below), List.map_cons,
          ih (by omega), List.takeWhile_cons, if_pos (decide_eq_true below),
          BitVec.toNat_ofNat, Nat.mod_eq_of_lt (by omega)]
      · have ended : (standing start stop step place).upcoming = none :=
          if_neg fun inside => below inside.1
        rw [toList_of_next?_none (next?_of_ended ended),
          List.takeWhile_cons, if_neg (by simpa using below)]
        rfl

/-- A whole range has the terms of its progression for values. -/
theorem toList_ofBounds (start stop step : Word) :
    (ofBounds start stop step).toList.map BitVec.toNat =
      progression start stop step := by
  by_cases nonzero : step = 0
  · have ended : (ofBounds start stop step).upcoming = none :=
      if_neg fun inside => inside.2 nonzero
    rw [toList_of_next?_none (next?_of_ended ended), progression,
      if_pos nonzero]
    rfl
  · rw [ofBounds_eq_standing,
      toList_standing nonzero (Nat.le_of_eq (Nat.zero_add _).symm),
      progression, if_neg nonzero, List.range_eq_range']

example : progression 1 10 3 = [1, 4, 7] := by decide

end Terms

/-! ### Calls on a range -/

theorem restart_after (range : StepRange) (value : Word) :
    (range.after value).restart = range.restart :=
  rfl

/-- Calls on a range enumerate its values, and none of them changes what it
restarts to. -/
theorem enumerates_toList (whole : StepRange) :
    Enumerates StepRange.next (fun range => range.restart = whole) toList where
  stands := by
    intro range stands
    cases comes : range.upcoming with
    | none => rwa [next_of_next?_none (next?_of_ended comes)]
    | some value =>
        rwa [next_of_next?_some (next?_of_upcoming comes), restart_after]
  left_eq := by
    intro range _stands
    cases yields : range.next? with
    | none => rw [next_of_next?_none yields]; rfl
    | some found =>
        rw [next_of_next?_some yields, toList_of_next?_some yields]
        rfl
  ended := by
    intro range _stands answered
    cases yields : range.next? with
    | none => exact toList_of_next?_none yields
    | some found =>
        rw [next_of_next?_some yields] at answered
        cases answered

/-- After any number of calls the next one answers with the term at that place
of the progression, and with nothing past its end.  The value kept for the call
after it is their checked sum, both bounds and the length are the number of
terms that are left, and restarting gives the whole range. -/
theorem progression_enumerated (start stop step : Word) (calls : Nat) :
    let whole := ofBounds start stop step
    let range := afterCalls StepRange.next calls whole
    let left := (progression start stop step).drop calls
    range.next.1.map BitVec.toNat = (progression start stop step)[calls]? ∧
    (∀ value ∈ range.next.1, range.next.2.upcoming =
      (Word.plus? value step).filter (· < stop)) ∧
    range.remaining? = some left.length ∧
    range.sizeHint? = some (left.length, some left.length) ∧
    range.len? = some left.length ∧
    range.restart = whole := by
  intro whole range left
  have enumerates := enumerates_toList whole
  have stands : range.restart = whole :=
    enumerates.stands_afterCalls rfl calls
  have sameStep : range.step = step := congrArg StepRange.step stands
  have sameStop : range.stop = stop := congrArg StepRange.stop stands
  have values : range.toList.map BitVec.toNat = left := by
    rw [enumerates.left_afterCalls (rfl : whole.restart = whole) calls,
      List.map_drop, toList_ofBounds]
  have counted : range.toList.length = left.length := by
    rw [← values, List.length_map]
  refine ⟨?_, ?_, ?_, ?_, ?_, stands⟩
  · rw [enumerates.answer_afterCalls (rfl : whole.restart = whole) calls,
      ← List.getElem?_map, toList_ofBounds]
  · intro value answered
    cases comes : range.upcoming with
    | none =>
        rw [next_of_next?_none (next?_of_ended comes)] at answered
        cases answered
    | some upcoming =>
        have ran := next_of_next?_some (next?_of_upcoming comes)
        rw [ran] at answered
        cases answered
        rw [ran, upcoming_after comes, sameStep, sameStop]
  · rw [remaining?_eq, remaining_eq_length, counted]
  · rw [sizeHint?_eq, counted]
  · rw [len?_eq, counted]

end StepRange

end VectorBench
