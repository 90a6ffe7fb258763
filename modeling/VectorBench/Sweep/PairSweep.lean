import VectorBench.Sweep.StepRange

/-!
# Pair sweeps

A sweep yields every pair of a value of an outer range and a value of an inner range; the inner
value varies fastest.
-/

namespace VectorBench

structure PairSweep where
  /-- Outer values after the current one. -/
  outer : StepRange
  inner : StepRange
  current : Option Word
  /-- Inner values not yet paired with the current outer value. -/
  pending : StepRange
deriving DecidableEq

namespace PairSweep

/-- The sweep over two whole ranges, however far they were advanced. -/
def ofRanges (outer inner : StepRange) : PairSweep :=
  match outer.restart.next? with
  | some (value, rest) =>
      { outer := rest, inner, current := some value, pending := inner.restart }
  | none => { outer := outer.restart, inner, current := none, pending := inner.restart }

def total (sweep : PairSweep) : Nat :=
  sweep.outer.restart.remaining * sweep.inner.restart.remaining

def restart (sweep : PairSweep) : PairSweep :=
  ofRanges sweep.outer sweep.inner

def remaining (sweep : PairSweep) : Nat :=
  match sweep.current with
  | some _ =>
      sweep.pending.remaining + sweep.outer.remaining * sweep.inner.restart.remaining
  | none => 0

def exhausted (sweep : PairSweep) : PairSweep :=
  { sweep with current := none }

/-- The next pair and the sweep after it.  Where the inner values are used up, the next outer value
starts the inner range again; an empty inner range ends the sweep at once. -/
def next? (sweep : PairSweep) : Option ((Word × Word) × PairSweep) :=
  match sweep.current with
  | none => none
  | some a =>
      match sweep.pending.next? with
      | some (b, pending) => some ((a, b), { sweep with pending })
      | none =>
          match sweep.outer.next?, sweep.inner.restart.next? with
          | some (a, outer), some (b, pending) =>
              some ((a, b), { sweep with outer, current := some a, pending })
          | _, _ => none

theorem remaining_eq_succ {sweep rest : PairSweep} {pair : Word × Word}
    (yields : sweep.next? = some (pair, rest)) : sweep.remaining = rest.remaining + 1 := by
  unfold next? at yields
  split at yields
  case h_1 => cases yields
  case h_2 a current =>
    split at yields
    case h_1 b pending found =>
      cases yields
      have counted := StepRange.remaining_eq_succ found
      simp only [remaining, current]
      omega
    case h_2 exhausted =>
      split at yields
      case h_2 => cases yields
      case h_1 a outer b pending outerFound innerFound =>
        cases yields
        have outerCount := StepRange.remaining_eq_succ outerFound
        have innerCount := StepRange.remaining_eq_succ innerFound
        have none_left : sweep.pending.remaining = 0 := by
          cases upcoming : sweep.pending.upcoming with
          | none => simp [StepRange.remaining, upcoming]
          | some value => simp [StepRange.next?, upcoming] at exhausted
        simp only [remaining, current, none_left, outerCount, innerCount, Nat.succ_mul]
        omega

def next (sweep : PairSweep) : Option (Word × Word) × PairSweep :=
  match sweep.next? with
  | some (pair, rest) => (some pair, rest)
  | none => (none, sweep.exhausted)

def toList (sweep : PairSweep) : List (Word × Word) :=
  match _yields : sweep.next? with
  | some (pair, rest) => pair :: rest.toList
  | none => []
termination_by sweep.remaining
decreasing_by
  have counted := remaining_eq_succ _yields
  omega

def take (sweep : PairSweep) : (count : Nat) → List (Word × Word) × PairSweep
  | 0 => ([], sweep)
  | count + 1 =>
      match sweep.next? with
      | some (pair, rest) =>
          let (pairs, rest) := rest.take count
          (pair :: pairs, rest)
      | none => ([], sweep.exhausted)

/-- Skips `count` pairs and yields the next one, if the sweep goes so far. -/
def nth? (sweep : PairSweep) : (count : Nat) → Option (Word × Word) × PairSweep
  | 0 => sweep.next
  | count + 1 =>
      match sweep.next? with
      | some (_, rest) => rest.nth? count
      | none => (none, sweep.exhausted)

end PairSweep

end VectorBench
