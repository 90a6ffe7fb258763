import Mathlib.Data.List.Sort
import VectorBench.Comparison.Report

/-!
# Exact reports

A report is exact for two tables of answers if it lists the places where the
tables differ, and counts them.  Recording one more pair of answers keeps a
report exact, and two exact reports for the same tables say the same.
-/

namespace VectorBench

variable {ι τ : Type} {inputs : List ι} {got expected : List τ}

/-- A mismatch stands at a place where two tables of answers differ. -/
structure Mismatch.Stands [BEq τ] (mismatch : Mismatch ι τ) (inputs : List ι)
    (got expected : List τ) : Prop where
  input : inputs[mismatch.index]? = some mismatch.input
  got : got[mismatch.index]? = some mismatch.got
  expected : expected[mismatch.index]? = some mismatch.expected
  differ : (mismatch.got == mismatch.expected) = false

/-- Lists of mismatches in input order are the same if they have the same
members. -/
theorem Mismatch.eq_of_increasing {list other : List (Mismatch ι τ)}
    (increasing : list.Pairwise fun earlier later =>
      earlier.index < later.index)
    (otherIncreasing : other.Pairwise fun earlier later =>
      earlier.index < later.index)
    (same : ∀ mismatch, mismatch ∈ list ↔ mismatch ∈ other) : list = other := by
  have irreflexive : Std.Irrefl fun earlier later : Mismatch ι τ =>
      earlier.index < later.index :=
    ⟨fun mismatch => Nat.lt_irrefl mismatch.index⟩
  have antisymmetric : Std.Antisymm fun earlier later : Mismatch ι τ =>
      earlier.index < later.index :=
    ⟨fun _ _ before after => absurd before (Nat.lt_asymm after)⟩
  exact increasing.eq_of_mem_iff otherIncreasing same

theorem getElem?_concat_eq_some {α : Type} {list : List α}
    {last value : α} {place : Nat} :
    (list ++ [last])[place]? = some value ↔
      list[place]? = some value ∨ place = list.length ∧ last = value := by
  rcases Nat.lt_trichotomy place list.length with below | rfl | above
  · rw [List.getElem?_append_left below]
    simp [Nat.ne_of_lt below]
  · simp
  · have shorter : list[place]? = none :=
      List.getElem?_eq_none (Nat.le_of_lt above)
    have longer : (list ++ [last])[place]? = none := by
      apply List.getElem?_eq_none
      rw [List.length_append, List.length_singleton]
      exact above
    rw [shorter, longer]
    simp [Nat.ne_of_gt above]

namespace Report

variable [BEq τ] {report other : Report ι τ}

/-- The number of places where two tables differ. -/
def differences (inputs : List ι) (got expected : List τ) : Nat :=
  (List.range inputs.length).countP fun place =>
    got[place]? != expected[place]?

/-- A report says on which inputs two complete tables of answers differ. -/
structure Exact (report : Report ι τ) (inputs : List ι)
    (got expected : List τ) : Prop where
  length_got : got.length = inputs.length
  length_expected : expected.length = inputs.length
  compared : report.compared = inputs.length
  errors : report.errors = differences inputs got expected
  size_mismatches : report.mismatches.size = report.errors
  increasing : report.mismatches.toList.Pairwise fun earlier later =>
    earlier.index < later.index
  mem_mismatches : ∀ mismatch : Mismatch ι τ,
    mismatch ∈ report.mismatches ↔ mismatch.Stands inputs got expected

theorem differences_concat (input : ι) (answer reference : τ)
    (length_got : got.length = inputs.length)
    (length_expected : expected.length = inputs.length) :
    differences (inputs ++ [input]) (got ++ [answer])
        (expected ++ [reference]) =
      differences inputs got expected +
        if answer == reference then 0 else 1 := by
  have earlier : ∀ place ∈ List.range inputs.length,
      ((got ++ [answer])[place]? != (expected ++ [reference])[place]?) = true ↔
        (got[place]? != expected[place]?) = true := by
    intro place member
    have below : place < inputs.length := List.mem_range.mp member
    rw [List.getElem?_append_left (by omega),
      List.getElem?_append_left (by omega)]
  have answered : (got ++ [answer])[inputs.length]? = some answer := by
    rw [← length_got]
    exact List.getElem?_concat_length
  have referred :
      (expected ++ [reference])[inputs.length]? = some reference := by
    rw [← length_expected]
    exact List.getElem?_concat_length
  unfold differences
  rw [List.length_append, List.length_singleton, List.range_succ,
    List.countP_append, List.countP_congr earlier, List.countP_singleton,
    answered, referred]
  cases same : answer == reference <;> simp [bne, same]

namespace Exact

theorem empty : (Report.empty : Report ι τ).Exact [] [] [] where
  length_got := rfl
  length_expected := rfl
  compared := rfl
  errors := rfl
  size_mismatches := rfl
  increasing := List.Pairwise.nil
  mem_mismatches := by
    intro mismatch
    constructor
    · intro member
      simp [Report.empty] at member
    · intro stands
      have nowhere := stands.input
      simp at nowhere

/-- A mismatch of the longer tables is one of the shorter ones, or it stands at
their end. -/
theorem stands_concat_iff (exact : report.Exact inputs got expected)
    (input : ι) (answer reference : τ) (mismatch : Mismatch ι τ) :
    mismatch.Stands (inputs ++ [input]) (got ++ [answer])
        (expected ++ [reference]) ↔
      mismatch.Stands inputs got expected ∨
        (answer == reference) = false ∧
          mismatch = ⟨inputs.length, input, answer, reference⟩ := by
  have length_got := exact.length_got
  have length_expected := exact.length_expected
  constructor
  · rintro ⟨atInput, atGot, atExpected, differ⟩
    rw [getElem?_concat_eq_some] at atInput atGot atExpected
    by_cases below : mismatch.index < inputs.length
    · left
      refine ⟨?_, ?_, ?_, differ⟩
      · exact atInput.resolve_right (by omega)
      · exact atGot.resolve_right (by omega)
      · exact atExpected.resolve_right (by omega)
    · right
      have past : ∀ {α : Type} {list : List α} {value : α},
          list.length = inputs.length →
          ¬ list[mismatch.index]? = some value := by
        intro α list value length found
        obtain ⟨inside, _value⟩ := List.getElem?_eq_some_iff.mp found
        omega
      obtain ⟨index, rfl⟩ := atInput.resolve_left (past rfl)
      obtain ⟨_index, rfl⟩ := atGot.resolve_left (past length_got)
      obtain ⟨_index, rfl⟩ := atExpected.resolve_left (past length_expected)
      refine ⟨differ, ?_⟩
      rw [← index]
  · rintro (stands | ⟨differ, rfl⟩)
    · refine ⟨?_, ?_, ?_, stands.differ⟩
      · exact getElem?_concat_eq_some.mpr (.inl stands.input)
      · exact getElem?_concat_eq_some.mpr (.inl stands.got)
      · exact getElem?_concat_eq_some.mpr (.inl stands.expected)
    · refine ⟨?_, ?_, ?_, differ⟩
      · exact getElem?_concat_eq_some.mpr (.inr ⟨rfl, rfl⟩)
      · exact getElem?_concat_eq_some.mpr (.inr ⟨length_got.symm, rfl⟩)
      · exact getElem?_concat_eq_some.mpr (.inr ⟨length_expected.symm, rfl⟩)

theorem index_lt (exact : report.Exact inputs got expected)
    {mismatch : Mismatch ι τ} (member : mismatch ∈ report.mismatches) :
    mismatch.index < inputs.length := by
  have stands := (exact.mem_mismatches mismatch).mp member
  obtain ⟨inside, _value⟩ := List.getElem?_eq_some_iff.mp stands.input
  exact inside

theorem record_same (exact : report.Exact inputs got expected) (input : ι)
    {answer reference : τ} (same : (answer == reference) = true) :
    (report.record input answer reference).Exact (inputs ++ [input])
      (got ++ [answer]) (expected ++ [reference]) := by
  have recorded : report.record input answer reference =
      { report with compared := report.compared + 1 } := if_pos same
  rw [recorded]
  refine
    { length_got := ?_
      length_expected := ?_
      compared := ?_
      errors := ?_
      size_mismatches := exact.size_mismatches
      increasing := exact.increasing
      mem_mismatches := ?_ }
  · simp [exact.length_got]
  · simp [exact.length_expected]
  · simp [exact.compared]
  · rw [differences_concat input answer reference exact.length_got
      exact.length_expected, if_pos same]
    exact exact.errors
  · intro mismatch
    rw [exact.stands_concat_iff input answer reference mismatch,
      exact.mem_mismatches mismatch]
    simp [same]

theorem record_differ (exact : report.Exact inputs got expected) (input : ι)
    {answer reference : τ} (differ : (answer == reference) = false) :
    (report.record input answer reference).Exact (inputs ++ [input])
      (got ++ [answer]) (expected ++ [reference]) := by
  have recorded : report.record input answer reference =
      { report with
        compared := report.compared + 1
        errors := report.errors + 1
        mismatches := report.mismatches.push
          ⟨inputs.length, input, answer, reference⟩ } := by
    rw [← exact.compared]
    exact if_neg (Bool.eq_false_iff.mp differ)
  rw [recorded]
  refine
    { length_got := ?_
      length_expected := ?_
      compared := ?_
      errors := ?_
      size_mismatches := ?_
      increasing := ?_
      mem_mismatches := ?_ }
  · simp [exact.length_got]
  · simp [exact.length_expected]
  · simp [exact.compared]
  · rw [differences_concat input answer reference exact.length_got
      exact.length_expected, differ]
    exact congrArg (· + 1) exact.errors
  · simp [exact.size_mismatches]
  · rw [Array.toList_push, List.pairwise_append]
    refine ⟨exact.increasing, List.pairwise_singleton _ _, ?_⟩
    intro earlier member last isLast
    rw [List.mem_singleton.mp isLast]
    exact exact.index_lt (Array.mem_toList_iff.mp member)
  · intro mismatch
    rw [exact.stands_concat_iff input answer reference mismatch,
      ← exact.mem_mismatches mismatch, Array.mem_push]
    simp [differ]

/-- Recording a pair of answers carries exactness over to the longer tables. -/
theorem record (exact : report.Exact inputs got expected) (input : ι)
    (answer reference : τ) :
    (report.record input answer reference).Exact (inputs ++ [input])
      (got ++ [answer]) (expected ++ [reference]) := by
  cases same : answer == reference with
  | true => exact exact.record_same input same
  | false => exact exact.record_differ input same

/-- When the work was timed is no matter of exactness. -/
theorem timed (exact : report.Exact inputs got expected)
    (scalarSpan vectorSpan : Option CycleSpan) :
    { report with
      scalarSpan := scalarSpan
      vectorSpan := vectorSpan }.Exact inputs got expected :=
  { exact with }

/-- The tables leave an exact report no choice but for its timings. -/
theorem agree (exact : report.Exact inputs got expected)
    (otherExact : other.Exact inputs got expected) :
    report.compared = other.compared ∧ report.errors = other.errors ∧
      report.mismatches = other.mismatches := by
  refine ⟨?_, ?_, ?_⟩
  · rw [exact.compared, otherExact.compared]
  · rw [exact.errors, otherExact.errors]
  · apply Array.toList_inj.mp
    apply Mismatch.eq_of_increasing exact.increasing otherExact.increasing
    intro mismatch
    rw [Array.mem_toList_iff, Array.mem_toList_iff,
      exact.mem_mismatches, otherExact.mem_mismatches]

end Exact

end Report

end VectorBench
