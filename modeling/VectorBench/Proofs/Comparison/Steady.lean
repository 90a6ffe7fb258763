import VectorBench.Proofs.Comparison.Agreement

/-!
# Steady answers

A reference and a device are steady if, as long as an invariant of the state
holds, what they answer depends on the input alone.  Every comparison of the
two lists the inputs on which the two functions differ.
-/

namespace VectorBench

variable {σ ι τ : Type}

namespace Report

variable [BEq τ] {inputs : List ι} {answer expect : ι → τ}

/-- A record for each input on which two functions differ, in input order. -/
def disagreements (inputs : List ι) (answer expect : ι → τ) :
    List (Mismatch ι τ) :=
  (inputs.mapIdx fun index input =>
    ({ index, input, got := answer input, expected := expect input } :
      Mismatch ι τ)).filter fun mismatch => mismatch.got != mismatch.expected

theorem mem_disagreements {mismatch : Mismatch ι τ} :
    mismatch ∈ disagreements inputs answer expect ↔
      mismatch.Stands inputs (inputs.map answer) (inputs.map expect) := by
  rw [disagreements, List.mem_filter, List.mem_mapIdx]
  constructor
  · rintro ⟨⟨place, inside, rfl⟩, differ⟩
    refine ⟨List.getElem?_eq_getElem inside, ?_, ?_, ?_⟩
    · simp [inside]
    · simp [inside]
    · simpa [bne] using differ
  · rintro ⟨input, got, expected, differ⟩
    obtain ⟨inside, found⟩ := List.getElem?_eq_some_iff.mp input
    rw [List.getElem?_map, input, Option.map_some] at got expected
    refine ⟨⟨mismatch.index, inside, ?_⟩, ?_⟩
    · rw [found, Option.some.inj got, Option.some.inj expected]
    · simp [bne, differ]

theorem disagreements_increasing :
    (disagreements inputs answer expect).Pairwise fun earlier later =>
      earlier.index < later.index := by
  apply List.Pairwise.filter
  rw [List.pairwise_iff_getElem]
  intro earlier later _ _ before
  simpa using before

theorem disagreements_of_forall_eq
    (same : ∀ input, (answer input == expect input) = true) :
    disagreements inputs answer expect = [] := by
  apply List.filter_eq_nil_iff.mpr
  intro mismatch member
  obtain ⟨place, inside, rfl⟩ := List.mem_mapIdx.mp member
  simp [bne, same]

theorem disagreements_of_forall_ne
    (differ : ∀ input, (answer input == expect input) = false) :
    disagreements inputs answer expect =
      inputs.mapIdx fun index input =>
        { index, input, got := answer input, expected := expect input } := by
  apply List.filter_eq_self.mpr
  intro mismatch member
  obtain ⟨place, inside, rfl⟩ := List.mem_mapIdx.mp member
  simp [bne, differ]

theorem disagreements_eq_nil_iff [LawfulBEq τ] :
    disagreements inputs answer expect = [] ↔
      ∀ input ∈ inputs, answer input = expect input := by
  rw [disagreements, List.filter_eq_nil_iff]
  constructor
  · intro agree input member
    obtain ⟨place, inside, rfl⟩ := List.mem_iff_getElem.mp member
    have same := agree _ (List.mem_mapIdx.mpr ⟨place, inside, rfl⟩)
    simpa [bne] using same
  · intro agree mismatch member
    obtain ⟨place, inside, rfl⟩ := List.mem_mapIdx.mp member
    simp [bne, agree _ (List.getElem_mem inside)]

/-- Without their places, the records are the inputs on which the two
functions differ, with what they answer. -/
theorem map_disagreements {α : Type} (text : ι → τ → τ → α)
    (inputs : List ι) (answer expect : ι → τ) :
    (disagreements inputs answer expect).map
        (fun mismatch => text mismatch.input mismatch.got mismatch.expected) =
      (inputs.filter fun input => answer input != expect input).map
        fun input => text input (answer input) (expect input) := by
  -- The places of the later inputs count from one, so they are generalised.
  suffices numbered : ∀ number : Nat → Nat,
      ((inputs.mapIdx fun index input =>
          ({ index := number index, input, got := answer input
             expected := expect input } : Mismatch ι τ)).filter
            fun mismatch => mismatch.got != mismatch.expected).map
          (fun mismatch =>
            text mismatch.input mismatch.got mismatch.expected) =
        (inputs.filter fun input => answer input != expect input).map
          fun input => text input (answer input) (expect input) from
    numbered id
  induction inputs with
  | nil => exact fun _number => rfl
  | cons input inputs ih =>
      intro number
      have rest := ih fun index => number (index + 1)
      rw [List.mapIdx_cons, List.filter_cons, List.filter_cons]
      split
      case isTrue => rw [List.map_cons, List.map_cons, rest]
      case isFalse => exact rest

/-- A report on some inputs lists where two functions differ. -/
structure Lists (report : Report ι τ) (inputs : List ι)
    (answer expect : ι → τ) : Prop where
  compared : report.compared = inputs.length
  errors : report.errors = (disagreements inputs answer expect).length
  mismatches : report.mismatches.toList = disagreements inputs answer expect

theorem Lists.passed_iff [LawfulBEq τ] {report : Report ι τ}
    (lists : report.Lists inputs answer expect) :
    report.passed = true ↔ ∀ input ∈ inputs, answer input = expect input := by
  rw [← disagreements_eq_nil_iff, ← List.length_eq_zero_iff, ← lists.errors,
    Report.passed, decide_eq_true_iff]

theorem Exact.lists {report : Report ι τ}
    (exact : report.Exact inputs (inputs.map answer) (inputs.map expect)) :
    report.Lists inputs answer expect := by
  have mismatches :
      report.mismatches.toList = disagreements inputs answer expect := by
    apply Mismatch.eq_of_increasing exact.increasing disagreements_increasing
    intro mismatch
    rw [Array.mem_toList_iff, exact.mem_mismatches, mem_disagreements]
  refine ⟨exact.compared, ?_, mismatches⟩
  rw [← exact.size_mismatches, ← mismatches, Array.length_toList]

end Report

/-- As long as an invariant holds, which every step keeps, a reference and a
device answer as two functions do. -/
structure Steady (reference : Reference σ ι τ) (device : Device σ ι τ)
    (onProgress : Progress → σ → σ) (invariant : σ → Prop)
    (answer expect : ι → τ) : Prop where
  reference_step {state : σ} (input : ι) : invariant state →
    ∃ next, reference input state = (expect input, next) ∧ invariant next
  device_step {state : σ} (input : ι) : invariant state →
    ∃ next, device input state = (.ok (answer input), next) ∧ invariant next
  progress_step {state : σ} (progress : Progress) : invariant state →
    invariant (onProgress progress state)

namespace Steady

variable {reference : Reference σ ι τ} {device : Device σ ι τ}
  {onProgress : Progress → σ → σ} {invariant : σ → Prop}
  {answer expect : ι → τ} {state : σ}

theorem reference_onAll
    (steady : Steady reference device onProgress invariant answer expect)
    (inputs : List ι) (holds : invariant state) :
    ∃ after,
      Reference.onAll reference inputs state = (inputs.map expect, after) ∧
      invariant after := by
  induction inputs generalizing state with
  | nil => exact ⟨state, rfl, holds⟩
  | cons input inputs ih =>
      obtain ⟨next, answered, kept⟩ := steady.reference_step input holds
      obtain ⟨after, rest, stillKept⟩ := ih kept
      refine ⟨after, ?_, stillKept⟩
      simp only [Reference.onAll, answered, rest, List.map_cons]

theorem device_onAll
    (steady : Steady reference device onProgress invariant answer expect)
    (inputs : List ι) (holds : invariant state) :
    ∃ after,
      Device.onAll device inputs state = (.ok (inputs.map answer), after) ∧
      invariant after := by
  induction inputs generalizing state with
  | nil => exact ⟨state, rfl, holds⟩
  | cons input inputs ih =>
      obtain ⟨next, answered, kept⟩ := steady.device_step input holds
      obtain ⟨after, rest, stillKept⟩ := ih kept
      refine ⟨after, ?_, stillKept⟩
      simp only [Device.onAll, answered, rest, List.map_cons]

section Comparisons

variable [BEq τ]

theorem compareTimed_ok [Clocked σ]
    (steady : Steady reference device onProgress invariant answer expect)
    (inputs : List ι) (holds : invariant state) :
    ∃ report after,
      compareTimed reference device inputs state = (.ok report, after) ∧
      report.Lists inputs answer expect ∧ invariant after := by
  obtain ⟨between, referenceRan, kept⟩ := steady.reference_onAll inputs holds
  obtain ⟨after, deviceRan, stillKept⟩ := steady.device_onAll inputs kept
  have tables := compareBatch_tables (Reference.onAll reference)
    (Device.onAll device) inputs state
  rw [referenceRan, deviceRan] at tables
  change TablesCompared _ _ _ (compareTimed reference device inputs state).1
    at tables
  have ended : (compareTimed reference device inputs state).2 = after := by
    simp only [compareTimed, compareBatch, CycleSpan.measure, referenceRan,
      deviceRan]
    split <;> rfl
  rw [← Prod.mk.eta (p := compareTimed reference device inputs state), ended]
  generalize (compareTimed reference device inputs state).1 = result at tables ⊢
  cases tables with
  | lengths differ => simp at differ
  | report exact => exact ⟨_, after, rfl, exact.lists, stillKept⟩

theorem compareTimed_lists [Clocked σ]
    (steady : Steady reference device onProgress invariant answer expect)
    (inputs : List ι) (holds : invariant state) :
    ∃ report, (compareTimed reference device inputs state).1 = .ok report ∧
      report.Lists inputs answer expect := by
  obtain ⟨report, after, ended, lists, -⟩ :=
    steady.compareTimed_ok inputs holds
  exact ⟨report, congrArg Prod.fst ended, lists⟩

theorem compareOnwards_exact
    (steady : Steady reference device onProgress invariant answer expect)
    (interval : Nat) {earlier : List ι} (inputs : List ι)
    {report : Report ι τ}
    (exact : report.Exact earlier (earlier.map answer) (earlier.map expect))
    (holds : invariant state) :
    ∃ final after,
      compareOnwards interval reference device onProgress report inputs state =
        (.ok final, after) ∧
      final.Exact (earlier ++ inputs) ((earlier ++ inputs).map answer)
        ((earlier ++ inputs).map expect) ∧
      invariant after := by
  induction inputs generalizing earlier report state with
  | nil =>
      refine ⟨report, state, rfl, ?_, holds⟩
      rwa [List.append_nil]
  | cons input inputs ih =>
      obtain ⟨between, referenceRan, kept⟩ := steady.reference_step input holds
      obtain ⟨done, deviceRan, stillKept⟩ := steady.device_step input kept
      have recorded := exact.record input (answer input) (expect input)
      rw [← List.map_singleton, ← List.map_singleton, ← List.map_append,
        ← List.map_append] at recorded
      have moved : ∀ progress : Progress,
          invariant (if progressDue interval progress.compared then
            onProgress progress done else done) := by
        intro progress
        split
        case isTrue => exact steady.progress_step progress stillKept
        case isFalse => exact stillKept
      let counts := (report.record input (answer input) (expect input)).progress
      obtain ⟨final, after, ended, finalExact, lastKept⟩ :=
        ih recorded (moved counts)
      refine ⟨final, after, ?_, ?_, lastKept⟩
      · simp only [compareOnwards, referenceRan, deviceRan]
        exact ended
      · rwa [List.append_assoc] at finalExact

theorem compareStreaming_ok
    (steady : Steady reference device onProgress invariant answer expect)
    (interval : Nat) (inputs : List ι) (holds : invariant state) :
    ∃ report after,
      compareStreaming interval reference device onProgress inputs state =
        (.ok report, after) ∧
      report.Lists inputs answer expect ∧ invariant after := by
  obtain ⟨report, after, ended, exact, kept⟩ :=
    steady.compareOnwards_exact interval inputs Report.Exact.empty holds
  exact ⟨report, after, ended, exact.lists, kept⟩

theorem compareStreaming_lists
    (steady : Steady reference device onProgress invariant answer expect)
    (interval : Nat) (inputs : List ι) (holds : invariant state) :
    ∃ report,
      (compareStreaming interval reference device onProgress inputs
        state).1 = .ok report ∧
      report.Lists inputs answer expect := by
  obtain ⟨report, after, ended, lists, -⟩ :=
    steady.compareStreaming_ok interval inputs holds
  exact ⟨report, congrArg Prod.fst ended, lists⟩

end Comparisons

end Steady

end VectorBench
