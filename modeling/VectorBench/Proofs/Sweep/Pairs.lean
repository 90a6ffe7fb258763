import Mathlib.Data.List.ProdSigma
import VectorBench.Sweep.PairSweep
import VectorBench.Proofs.Sweep.Progression

/-!
# Sweeps as products

A sweep yields the pairs of two progressions, the second one varying fastest.
The search for a pair ends also where the inner range is empty, and neither
calls nor a restart change which pairs make up the whole sweep.
-/

namespace VectorBench

namespace StepRange

/-- The terms of a whole range, however far it was advanced. -/
def terms (range : StepRange) : List Nat :=
  progression range.start range.stop range.step

theorem toList_restart (range : StepRange) :
    range.restart.toList.map BitVec.toNat = range.terms :=
  toList_ofBounds _ _ _

theorem length_terms_lt (range : StepRange) :
    range.terms.length < 2 ^ 32 := by
  unfold terms progression
  split
  case isTrue => decide
  case isFalse =>
    refine Nat.lt_of_le_of_lt ?_ range.stop.isLt
    calc
      _ ≤ ((List.range range.stop.toNat).map fun place =>
            range.start.toNat + place * range.step.toNat).length :=
        (List.takeWhile_sublist _).length_le
      _ = range.stop.toNat := by rw [List.length_map, List.length_range]

theorem remaining_restart (range : StepRange) :
    range.restart.remaining = range.terms.length := by
  rw [remaining_eq_length, ← toList_restart, List.length_map]

theorem len?_restart (range : StepRange) :
    range.restart.len? = some range.terms.length := by
  rw [len?_eq, ← toList_restart, List.length_map]

theorem restart_of_next? {range rest : StepRange} {value : Word}
    (yields : range.next? = some (value, rest)) :
    rest.restart = range.restart := by
  have stands := (enumerates_toList range.restart).stands (rfl : range.restart = _)
  rwa [next_of_next?_some yields] at stands

theorem restart_next (range : StepRange) :
    range.next.2.restart = range.restart :=
  (enumerates_toList range.restart).stands rfl

theorem toList_eq_append (range : StepRange) :
    range.toList = range.next.1.toList ++ range.next.2.toList :=
  (enumerates_toList range.restart).left_eq rfl

theorem toList_of_next_none {range : StepRange}
    (ended : range.next.1 = none) : range.toList = [] :=
  (enumerates_toList range.restart).ended rfl ended

end StepRange

namespace PairSweep

variable {outer inner : StepRange} {sweep rest : PairSweep}
  {pair : Word × Word}

/-! ### The pairs to come -/

/-- The pairs to come: those of the current outer value and then those of the
outer values behind it. -/
def pairsLeft (sweep : PairSweep) : List (Word × Word) :=
  match sweep.current with
  | some a => sweep.pending.toList.map (a, ·) ++
      sweep.outer.toList ×ˢ sweep.inner.restart.toList
  | none => []

theorem pairsLeft_of_next?_some (yields : sweep.next? = some (pair, rest)) :
    sweep.pairsLeft = pair :: rest.pairsLeft := by
  unfold next? at yields
  split at yields
  case h_1 => cases yields
  case h_2 a current =>
    split at yields
    case h_1 b pending found =>
      cases yields
      simp only [pairsLeft, current, StepRange.toList_of_next?_some found,
        List.map_cons, List.cons_append]
    case h_2 ended =>
      split at yields
      case h_2 => cases yields
      case h_1 next outer b pending outerFound innerFound =>
        cases yields
        simp only [pairsLeft, current, StepRange.toList_of_next?_none ended,
          StepRange.toList_of_next?_some outerFound,
          StepRange.toList_of_next?_some innerFound, List.product_cons,
          List.map_nil, List.map_cons, List.nil_append, List.cons_append]

theorem pairsLeft_of_next?_none (ended : sweep.next? = none) :
    sweep.pairsLeft = [] := by
  unfold next? at ended
  split at ended
  case h_1 current => simp only [pairsLeft, current]
  case h_2 a current =>
    split at ended
    case h_1 => cases ended
    case h_2 pendingEnded =>
      simp only [pairsLeft, current, StepRange.toList_of_next?_none pendingEnded,
        List.map_nil, List.nil_append]
      cases outerYields : sweep.outer.next? with
      | none => rw [StepRange.toList_of_next?_none outerYields, List.nil_product]
      | some =>
          cases innerYields : sweep.inner.restart.next? with
          | none =>
              rw [StepRange.toList_of_next?_none innerYields, List.product_nil]
          | some => simp [outerYields, innerYields] at ended

theorem toList_eq_pairsLeft (sweep : PairSweep) :
    sweep.toList = sweep.pairsLeft := by
  fun_induction toList sweep with
  | case1 sweep pair rest yields ih =>
      rw [ih, pairsLeft_of_next?_some yields]
  | case2 sweep ended => rw [pairsLeft_of_next?_none ended]

/-- A sweep over two given ranges, wherever it stands. -/
structure Over (outer inner : StepRange) (sweep : PairSweep) : Prop where
  restart_outer : sweep.outer.restart = outer.restart
  inner_eq : sweep.inner = inner
  restart_pending : sweep.pending.restart = inner.restart

/-! ### The search for a pair -/

/-- Outer values that the search for a pair can still turn to, the current one
included. -/
def turns (sweep : PairSweep) : Nat :=
  match sweep.current with
  | some _ => sweep.outer.remaining + 1
  | none => 0

/-- The sweep at its next outer value, with the inner range started again. -/
def turned (sweep : PairSweep) : PairSweep where
  outer := sweep.outer.next.2
  inner := sweep.inner
  current := sweep.outer.next.1
  pending := sweep.pending.next.2.restart

theorem turns_turned {a : Word} (current : sweep.current = some a) :
    sweep.turned.turns < sweep.turns := by
  cases yields : sweep.outer.next? with
  | none =>
      simp [turns, turned, current, StepRange.next_of_next?_none yields]
  | some found =>
      have counted := StepRange.remaining_eq_succ yields
      simp only [turns, turned, current, StepRange.next_of_next?_some yields]
      omega

/-- The search for the next pair, turn by turn.  Where the inner values are used
up it turns to the next outer value, be the inner range empty or not. -/
def search (sweep : PairSweep) : Option (Word × Word) × PairSweep :=
  match _current : sweep.current with
  | none => (none, sweep)
  | some a =>
      match sweep.pending.next with
      | (some b, pending) => (some (a, b), { sweep with pending })
      | (none, _) => search sweep.turned
termination_by sweep.turns
decreasing_by exact turns_turned _current

theorem Over.turned (stands : Over outer inner sweep) :
    Over outer inner sweep.turned where
  restart_outer := (StepRange.restart_next _).trans stands.restart_outer
  inner_eq := stands.inner_eq
  restart_pending := (StepRange.restart_next _).trans stands.restart_pending

/-- Turning to the next outer value keeps the pairs to come, also where no outer
value is left or the inner range is empty. -/
theorem pairsLeft_turned {a : Word} (stands : Over outer inner sweep)
    (current : sweep.current = some a)
    (ended : sweep.pending.next.1 = none) :
    sweep.turned.pairsLeft = sweep.pairsLeft := by
  have restarted : sweep.pending.next.2.restart = sweep.inner.restart := by
    rw [StepRange.restart_next, stands.restart_pending, stands.inner_eq]
  simp only [pairsLeft, turned, current, restarted,
    StepRange.toList_of_next_none ended, List.map_nil, List.nil_append]
  rw [StepRange.toList_eq_append sweep.outer]
  cases answered : sweep.outer.next.1 with
  | none =>
      have outerEnded := StepRange.toList_of_next_none answered
      rw [StepRange.toList_eq_append, answered] at outerEnded
      rw [outerEnded, List.nil_product]
  | some value => rfl

/-- The search ends and answers with the first pair to come. -/
theorem enumerates_search (outer inner : StepRange) :
    Enumerates search (Over outer inner) pairsLeft where
  stands := by
    intro sweep stands
    fun_induction search sweep with
    | case1 => exact stands
    | case2 sweep a current b pending answered =>
        have restarted := StepRange.restart_next sweep.pending
        rw [answered] at restarted
        exact ⟨stands.restart_outer, stands.inner_eq,
          restarted.trans stands.restart_pending⟩
    | case3 sweep a current pending ended ih => exact ih stands.turned
  left_eq := by
    intro sweep stands
    fun_induction search sweep with
    | case1 => rfl
    | case2 sweep a current b pending answered =>
        have unfolds := StepRange.toList_eq_append sweep.pending
        rw [answered] at unfolds
        simp only [pairsLeft, current, unfolds, Option.toList_some,
          List.cons_append, List.nil_append, List.map_cons]
    | case3 sweep a current pending ended ih =>
        rw [← ih stands.turned, pairsLeft_turned stands current]
        rw [ended]
  ended := by
    intro sweep stands answered
    fun_induction search sweep with
    | case1 sweep current => simp only [pairsLeft, current]
    | case2 => cases answered
    | case3 sweep a current pending ended ih =>
        rw [← pairsLeft_turned stands current (by rw [ended])]
        exact ih stands.turned answered

theorem Over.of_next? (stands : Over outer inner sweep)
    (yields : sweep.next? = some (pair, rest)) : Over outer inner rest := by
  unfold next? at yields
  split at yields
  case h_1 => cases yields
  case h_2 a current =>
    split at yields
    case h_1 b pending found =>
      cases yields
      exact ⟨stands.restart_outer, stands.inner_eq,
        (StepRange.restart_of_next? found).trans stands.restart_pending⟩
    case h_2 =>
      split at yields
      case h_2 => cases yields
      case h_1 value later b pending outerFound innerFound =>
        cases yields
        refine ⟨(StepRange.restart_of_next? outerFound).trans
          stands.restart_outer, stands.inner_eq, ?_⟩
        rw [StepRange.restart_of_next? innerFound, stands.inner_eq]
        rfl

/-- A sweep that ends at once where the inner range is empty takes the same
pairs. -/
theorem enumerates_next (outer inner : StepRange) :
    Enumerates PairSweep.next (Over outer inner) pairsLeft where
  stands := by
    intro sweep stands
    unfold PairSweep.next
    cases yields : sweep.next? with
    | none =>
        exact ⟨stands.restart_outer, stands.inner_eq, stands.restart_pending⟩
    | some found => exact stands.of_next? yields
  left_eq := by
    intro sweep _stands
    unfold PairSweep.next
    cases yields : sweep.next? with
    | none => exact pairsLeft_of_next?_none yields
    | some found => exact pairsLeft_of_next?_some yields
  ended := by
    intro sweep _stands answered
    unfold PairSweep.next at answered
    cases yields : sweep.next? with
    | none => exact pairsLeft_of_next?_none yields
    | some found =>
        rw [yields] at answered
        cases answered

/-! ### Whole sweeps -/

theorem ofRanges_stands (outer inner : StepRange) :
    Over outer inner (ofRanges outer inner) := by
  unfold ofRanges
  split
  case h_1 value later found =>
    have restarted := StepRange.restart_of_next? found
    exact ⟨restarted, rfl, rfl⟩
  case h_2 => exact ⟨rfl, rfl, rfl⟩

theorem pairsLeft_ofRanges (outer inner : StepRange) :
    (ofRanges outer inner).pairsLeft =
      outer.restart.toList ×ˢ inner.restart.toList := by
  unfold ofRanges
  split
  case h_1 value later found =>
    rw [StepRange.toList_of_next?_some found]
    rfl
  case h_2 ended =>
    rw [StepRange.toList_of_next?_none ended]
    rfl

/-- The number of pairs in the whole sweep, where the lengths have an outcome
and their product fits 64 bits. -/
def total? (sweep : PairSweep) : Option Nat := do
  let rows ← sweep.outer.restart.len?
  let columns ← sweep.inner.restart.len?
  if rows * columns < 2 ^ 64 then some (rows * columns) else none

/-- A pair of words as a pair of numbers. -/
def numbers (pair : Word × Word) : Nat × Nat :=
  (pair.1.toNat, pair.2.toNat)

theorem map_numbers_product (left right : List Word) :
    (left ×ˢ right).map numbers =
      left.map BitVec.toNat ×ˢ right.map BitVec.toNat := by
  induction left with
  | nil => rfl
  | cons value left ih =>
      rw [List.product_cons, List.map_append, ih, List.map_cons,
        List.product_cons, List.map_map, List.map_map]
      rfl

theorem pairsLeft_ofRanges_numbers (outer inner : StepRange) :
    (ofRanges outer inner).pairsLeft.map numbers =
      outer.terms ×ˢ inner.terms := by
  rw [pairsLeft_ofRanges, map_numbers_product, StepRange.toList_restart,
    StepRange.toList_restart]

theorem Over.restart (stands : Over outer inner sweep) :
    sweep.restart = ofRanges outer inner := by
  simp only [PairSweep.restart, ofRanges, stands.restart_outer,
    stands.inner_eq]

theorem Over.total (stands : Over outer inner sweep) :
    sweep.total = (outer.terms ×ˢ inner.terms).length := by
  rw [PairSweep.total, stands.restart_outer, stands.inner_eq,
    StepRange.remaining_restart, StepRange.remaining_restart,
    List.length_product]

/-- Each of the two lengths is below the word size, so their product fits. -/
theorem Over.total? (stands : Over outer inner sweep) :
    sweep.total? = some (outer.terms ×ˢ inner.terms).length := by
  have rows : sweep.outer.restart.len? = some outer.terms.length := by
    rw [stands.restart_outer, StepRange.len?_restart]
  have columns : sweep.inner.restart.len? = some inner.terms.length := by
    rw [stands.inner_eq, StepRange.len?_restart]
  have fits : outer.terms.length * inner.terms.length < 2 ^ 64 :=
    calc
      _ < 2 ^ 32 * 2 ^ 32 := Nat.mul_lt_mul'' outer.length_terms_lt
        inner.length_terms_lt
      _ = 2 ^ 64 := rfl
  simp only [PairSweep.total?, rows, columns, Option.bind_eq_bind,
    Option.bind_some, if_pos fits, List.length_product]

/-- What calls on a whole sweep over two ranges show after any number of them:
the next answer, the number of pairs in the whole sweep, and the sweep that a
restart gives. -/
structure Sweeps (next : PairSweep → Option (Word × Word) × PairSweep)
    (outer inner : StepRange) : Prop where
  answer : ∀ calls,
    (next (afterCalls next calls (ofRanges outer inner))).1.map numbers =
      (outer.terms ×ˢ inner.terms)[calls]?
  total : ∀ calls,
    (afterCalls next calls (ofRanges outer inner)).total =
      (outer.terms ×ˢ inner.terms).length
  total_fits : ∀ calls,
    (afterCalls next calls (ofRanges outer inner)).total? =
      some (outer.terms ×ˢ inner.terms).length
  restart : ∀ calls,
    (afterCalls next calls (ofRanges outer inner)).restart =
      ofRanges outer inner

theorem sweeps_of_enumerates
    {next : PairSweep → Option (Word × Word) × PairSweep}
    (enumerates : Enumerates next (Over outer inner) pairsLeft) :
    Sweeps next outer inner where
  answer := by
    intro calls
    rw [enumerates.answer_afterCalls (ofRanges_stands outer inner),
      ← List.getElem?_map, pairsLeft_ofRanges_numbers]
  total := fun calls =>
    (enumerates.stands_afterCalls (ofRanges_stands outer inner) calls).total
  total_fits := fun calls =>
    (enumerates.stands_afterCalls (ofRanges_stands outer inner) calls).total?
  restart := fun calls =>
    (enumerates.stands_afterCalls (ofRanges_stands outer inner) calls).restart

/-- The search turn by turn and the shorter way to the next pair both sweep the
product of the two whole ranges, however far these were advanced before.  It is
also what collecting the whole sweep gives. -/
theorem sweeps_product (outer inner : StepRange) :
    Sweeps search outer inner ∧ Sweeps PairSweep.next outer inner ∧
    (ofRanges outer inner).toList.map numbers = outer.terms ×ˢ inner.terms := by
  refine ⟨sweeps_of_enumerates (enumerates_search outer inner),
    sweeps_of_enumerates (enumerates_next outer inner), ?_⟩
  rw [toList_eq_pairsLeft, pairsLeft_ofRanges_numbers]

end PairSweep

end VectorBench
