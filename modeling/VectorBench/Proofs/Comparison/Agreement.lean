import VectorBench.Comparison.Basic
import VectorBench.Proofs.Comparison.Exactness

/-!
# Agreement of the comparisons

The comparison in two phases runs all of the reference before all of the
device.  The comparison in turns runs both on one input at a time, and stops
early on a fault.  If neither side meddles with the other, the two end alike:
in the first fault of the device, or in exact reports with the same content.
-/

namespace VectorBench

variable {σ ρ δ ι τ α : Type}

/-- The answers to some inputs, each asked in the state the one before left, of
a device that faults on none of them. -/
inductive Device.Answers (device : Device σ ι τ) :
    σ → List ι → List τ → Prop where
  | nil {state : σ} : Answers device state [] []
  | cons {state next : σ} {input : ι} {answer : τ} {inputs : List ι}
      {answers : List τ} :
      device input state = (.ok answer, next) →
      Answers device next inputs answers →
      Answers device state (input :: inputs) (answer :: answers)

/-- A reference is a device that never faults. -/
def Reference.asDevice (reference : Reference σ ι α) : Device σ ι α :=
  fun input state => Prod.map Except.ok id (reference input state)

abbrev Reference.Answers (reference : Reference σ ι α) :
    σ → List ι → List α → Prop :=
  Device.Answers reference.asDevice

/-- The device answers a number of inputs and faults on the next one. -/
inductive Device.FirstFault (device : Device σ ι τ) (fault : Fault) :
    σ → List ι → Prop where
  | here {state next : σ} {input : ι} {later : List ι} :
      device input state = (.error fault, next) →
      FirstFault device fault state (input :: later)
  | there {state next : σ} {input : ι} {answer : τ} {later : List ι} :
      device input state = (.ok answer, next) →
      FirstFault device fault next later →
      FirstFault device fault state (input :: later)

theorem Reference.asDevice_eq_ok_iff {reference : Reference σ ι α} {input : ι}
    {state next : σ} {answer : α} :
    reference.asDevice input state = (.ok answer, next) ↔
      reference input state = (answer, next) := by
  simp [asDevice, Prod.ext_iff]

theorem Device.Answers.length {device : Device σ ι τ} {state : σ}
    {inputs : List ι} {answers : List τ}
    (answered : Device.Answers device state inputs answers) :
    answers.length = inputs.length := by
  induction answered with
  | nil => rfl
  | cons _ _ ih => exact congrArg (· + 1) ih

theorem Reference.exists_answers (reference : Reference σ ι α) (state : σ)
    (inputs : List ι) :
    ∃ answers, Reference.Answers reference state inputs answers := by
  induction inputs generalizing state with
  | nil => exact ⟨[], .nil⟩
  | cons input inputs ih =>
      obtain ⟨answers, answered⟩ := ih (reference input state).2
      exact ⟨_ :: answers, .cons rfl answered⟩

theorem Device.firstFault_or_answers (device : Device σ ι τ) (state : σ)
    (inputs : List ι) :
    (∃ fault, Device.FirstFault device fault state inputs) ∨
      ∃ answers, Device.Answers device state inputs answers := by
  induction inputs generalizing state with
  | nil => exact .inr ⟨[], .nil⟩
  | cons input inputs ih =>
      rcases ended : device input state with ⟨fault | answer, next⟩
      · exact .inl ⟨fault, .here ended⟩
      · rcases ih next with ⟨fault, first⟩ | ⟨answers, answered⟩
        · exact .inl ⟨fault, .there ended first⟩
        · exact .inr ⟨answer :: answers, .cons ended answered⟩

/-- A step that looks like `(answer, next)` on a part of its state gives that
answer, and leaves that part. -/
theorem exists_of_map_part {part : σ → ρ} {ran : α × σ} {answer : α} {next : ρ}
    (mapped : Prod.map id part ran = (answer, next)) :
    ∃ after, ran = (answer, after) ∧ part after = next := by
  obtain ⟨rfl, rfl⟩ := Prod.mk.inj mapped
  exact ⟨ran.2, rfl, rfl⟩

/-- A reference and a device on one state that do not meddle with each other:
each answers from a part of the state that is its own, whatever happens to the
rest of the state.  Functions of the input alone need no part at all. -/
structure Apart (reference : Reference σ ι τ) (device : Device σ ι τ)
    (onProgress : Progress → σ → σ) (scalar : σ → ρ) (vector : σ → δ)
    (expect : Reference ρ ι τ) (answer : Device δ ι τ) : Prop where
  reference_answer (input : ι) (state : σ) :
    Prod.map id scalar (reference input state) = expect input (scalar state)
  reference_vector (input : ι) (state : σ) :
    vector (reference input state).2 = vector state
  device_answer (input : ι) (state : σ) :
    Prod.map id vector (device input state) = answer input (vector state)
  device_scalar (input : ι) (state : σ) :
    scalar (device input state).2 = scalar state
  progress_scalar (progress : Progress) (state : σ) :
    scalar (onProgress progress state) = scalar state
  progress_vector (progress : Progress) (state : σ) :
    vector (onProgress progress state) = vector state

namespace Apart

variable {reference : Reference σ ι τ} {device : Device σ ι τ}
  {onProgress : Progress → σ → σ} {scalar : σ → ρ} {vector : σ → δ}
  {expect : Reference ρ ι τ} {answer : Device δ ι τ}

theorem reference_step
    (apart : Apart reference device onProgress scalar vector expect answer)
    {input : ι} {state : σ} {expected : τ} {next : ρ}
    (asked : expect input (scalar state) = (expected, next)) :
    ∃ between, reference input state = (expected, between) ∧
      scalar between = next ∧ vector between = vector state := by
  have kept := apart.reference_vector input state
  obtain ⟨between, ran, moved⟩ :=
    exists_of_map_part ((apart.reference_answer input state).trans asked)
  rw [ran] at kept
  exact ⟨between, ran, moved, kept⟩

theorem device_step
    (apart : Apart reference device onProgress scalar vector expect answer)
    {input : ι} {state : σ} {outcome : Except Fault τ} {next : δ}
    (asked : answer input (vector state) = (outcome, next)) :
    ∃ after, device input state = (outcome, after) ∧
      scalar after = scalar state ∧ vector after = next := by
  have kept := apart.device_scalar input state
  obtain ⟨after, ran, moved⟩ :=
    exists_of_map_part ((apart.device_answer input state).trans asked)
  rw [ran] at kept
  exact ⟨after, ran, kept, moved⟩

/-! ### Two phases -/

theorem reference_onAll
    (apart : Apart reference device onProgress scalar vector expect answer)
    {inputs : List ι} {state : σ} {expected : List τ}
    (asked : Reference.Answers expect (scalar state) inputs expected) :
    ∃ between, Reference.onAll reference inputs state = (expected, between) ∧
      vector between = vector state := by
  induction inputs generalizing state expected with
  | nil =>
      cases asked
      exact ⟨state, rfl, rfl⟩
  | cons input inputs ih =>
      cases asked with
      | cons asked later =>
          obtain ⟨next, answered, rfl, kept⟩ :=
            apart.reference_step (Reference.asDevice_eq_ok_iff.mp asked)
          obtain ⟨between, rest, stillKept⟩ := ih later
          refine ⟨between, ?_, stillKept.trans kept⟩
          simp only [Reference.onAll, answered, rest]

theorem device_onAll_answers
    (apart : Apart reference device onProgress scalar vector expect answer)
    {inputs : List ι} {state : σ} {got : List τ}
    (asked : Device.Answers answer (vector state) inputs got) :
    ∃ after, Device.onAll device inputs state = (.ok got, after) := by
  induction inputs generalizing state got with
  | nil =>
      cases asked
      exact ⟨state, rfl⟩
  | cons input inputs ih =>
      cases asked with
      | cons asked later =>
          obtain ⟨next, answered, _kept, rfl⟩ := apart.device_step asked
          obtain ⟨after, rest⟩ := ih later
          refine ⟨after, ?_⟩
          simp only [Device.onAll, answered, rest]

theorem device_onAll_firstFault
    (apart : Apart reference device onProgress scalar vector expect answer)
    {inputs : List ι} {state : σ} {fault : Fault}
    (first : Device.FirstFault answer fault (vector state) inputs) :
    ∃ after, Device.onAll device inputs state = (.error fault, after) := by
  induction inputs generalizing state with
  | nil => cases first
  | cons input inputs ih =>
      cases first with
      | here asked =>
          obtain ⟨after, faulted, _kept, _moved⟩ := apart.device_step asked
          refine ⟨after, ?_⟩
          simp only [Device.onAll, faulted]
      | there asked later =>
          obtain ⟨next, answered, _kept, rfl⟩ := apart.device_step asked
          obtain ⟨after, rest⟩ := ih later
          refine ⟨after, ?_⟩
          simp only [Device.onAll, answered, rest]

/-! ### Turns -/

section Turns

variable [BEq τ] {interval : Nat} {report : Report ι τ}

theorem turn_ok
    (apart : Apart reference device onProgress scalar vector expect answer)
    {input : ι} {state : σ} {got expected : τ} {next : δ} {nextScalar : ρ}
    (asked : expect input (scalar state) = (expected, nextScalar))
    (answered : answer input (vector state) = (.ok got, next))
    (inputs : List ι) :
    ∃ after,
      compareOnwards interval reference device onProgress report
          (input :: inputs) state =
        compareOnwards interval reference device onProgress
          (report.record input got expected) inputs after ∧
      scalar after = nextScalar ∧ vector after = next := by
  obtain ⟨between, referenceRan, rfl, kept⟩ := apart.reference_step asked
  rw [← kept] at answered
  obtain ⟨done, deviceRan, unmoved, rfl⟩ := apart.device_step answered
  let recorded := report.record input got expected
  let after :=
    if progressDue interval recorded.compared then
      onProgress recorded.progress done
    else done
  have parts : scalar after = scalar done ∧ vector after = vector done := by
    by_cases due : progressDue interval recorded.compared = true
    · have reported : after = onProgress recorded.progress done := if_pos due
      rw [reported]
      exact ⟨apart.progress_scalar _ _, apart.progress_vector _ _⟩
    · have silent : after = done := if_neg due
      rw [silent]
      exact ⟨rfl, rfl⟩
  refine ⟨after, ?_, parts.1.trans unmoved, parts.2⟩
  simp only [compareOnwards, referenceRan, deviceRan]
  rfl

theorem turn_error
    (apart : Apart reference device onProgress scalar vector expect answer)
    {input : ι} {state : σ} {fault : Fault} {next : δ}
    (answered : answer input (vector state) = (.error fault, next))
    (inputs : List ι) :
    (compareOnwards interval reference device onProgress report
      (input :: inputs) state).1 = .error fault := by
  obtain ⟨between, referenceRan, _moved, kept⟩ :=
    apart.reference_step (rfl : expect input (scalar state) = _)
  rw [← kept] at answered
  obtain ⟨after, deviceRan, _unmoved, _moved⟩ := apart.device_step answered
  simp only [compareOnwards, referenceRan, deviceRan]

theorem compareOnwards_answers
    (apart : Apart reference device onProgress scalar vector expect answer)
    {earlier inputs : List ι} {state : σ}
    {earlierGot got earlierExpected expected : List τ}
    (exact : report.Exact earlier earlierGot earlierExpected)
    (asked : Reference.Answers expect (scalar state) inputs expected)
    (answered : Device.Answers answer (vector state) inputs got) :
    ∃ final,
      (compareOnwards interval reference device onProgress report inputs
        state).1 = .ok final ∧
      final.Exact (earlier ++ inputs) (earlierGot ++ got)
        (earlierExpected ++ expected) := by
  -- The report so far is exact for the inputs so far, and a turn keeps it so.
  induction inputs generalizing report earlier earlierGot earlierExpected state
      got expected with
  | nil =>
      cases asked
      cases answered
      refine ⟨report, rfl, ?_⟩
      rwa [List.append_nil, List.append_nil, List.append_nil]
  | cons input inputs ih =>
      cases asked with
      | @cons _ _ _ reference _ references asked laterAsked =>
          cases answered with
          | @cons _ _ _ value _ values answered laterAnswered =>
              obtain ⟨after, turn, rfl, rfl⟩ := apart.turn_ok
                (Reference.asDevice_eq_ok_iff.mp asked) answered inputs
              obtain ⟨final, ended, finalExact⟩ :=
                ih (exact.record input value reference) laterAsked laterAnswered
              refine ⟨final, ?_, ?_⟩
              · rw [turn]
                exact ended
              · simpa using finalExact

theorem compareOnwards_firstFault
    (apart : Apart reference device onProgress scalar vector expect answer)
    {inputs : List ι} {state : σ} {fault : Fault}
    (first : Device.FirstFault answer fault (vector state) inputs) :
    (compareOnwards interval reference device onProgress report inputs
      state).1 = .error fault := by
  induction inputs generalizing report state with
  | nil => cases first
  | cons input inputs ih =>
      cases first with
      | here faulted => exact apart.turn_error faulted inputs
      | there answered later =>
          obtain ⟨after, turn, _moved, rfl⟩ := apart.turn_ok rfl answered inputs
          rw [turn]
          exact ih later

theorem compareStreaming_firstFault
    (apart : Apart reference device onProgress scalar vector expect answer)
    (interval : Nat) {inputs : List ι} {state : σ} {fault : Fault}
    (first : Device.FirstFault answer fault (vector state) inputs) :
    (compareStreaming interval reference device onProgress inputs state).1 =
      .error fault :=
  apart.compareOnwards_firstFault first

theorem compareStreaming_answers
    (apart : Apart reference device onProgress scalar vector expect answer)
    (interval : Nat) {inputs : List ι} {state : σ} {got expected : List τ}
    (asked : Reference.Answers expect (scalar state) inputs expected)
    (answered : Device.Answers answer (vector state) inputs got) :
    ∃ report,
      (compareStreaming interval reference device onProgress inputs
        state).1 = .ok report ∧
      report.Exact inputs got expected :=
  apart.compareOnwards_answers Report.Exact.empty asked answered

end Turns

end Apart

/-! ### Whole tables -/

section Tables

variable [BEq τ] {inputs : List ι} {got expected : List τ}

theorem Report.Exact.foldl_record {report : Report ι τ} {earlier : List ι}
    {earlierGot earlierExpected : List τ}
    (exact : report.Exact earlier earlierGot earlierExpected)
    (length_got : got.length = inputs.length)
    (length_expected : expected.length = inputs.length) :
    ((inputs.zip (got.zip expected)).foldl
        (fun report (input, got, expected) => report.record input got expected)
        report).Exact
      (earlier ++ inputs) (earlierGot ++ got) (earlierExpected ++ expected) := by
  induction inputs generalizing report earlier earlierGot earlierExpected got
      expected with
  | nil =>
      obtain rfl := List.length_eq_zero_iff.mp length_got
      obtain rfl := List.length_eq_zero_iff.mp length_expected
      rwa [List.append_nil, List.append_nil, List.append_nil]
  | cons input inputs ih =>
      obtain ⟨value, values, rfl⟩ := List.exists_cons_of_length_eq_add_one length_got
      obtain ⟨reference, references, rfl⟩ :=
        List.exists_cons_of_length_eq_add_one length_expected
      have later := ih (exact.record input value reference)
        (Nat.succ.inj length_got) (Nat.succ.inj length_expected)
      simpa using later

theorem Report.ofTables_exact (length_got : got.length = inputs.length)
    (length_expected : expected.length = inputs.length) :
    (Report.ofTables inputs got expected).Exact inputs got expected :=
  Report.Exact.empty.foldl_record length_got length_expected

/-- What the comparison of a device's whole table with an expected one comes
to.  An exact report is on tables of the right lengths, so the three cases
exclude each other. -/
inductive TablesCompared (inputs : List ι) (expected : List τ) :
    Except Fault (List τ) → Except Fault (Report ι τ) → Prop where
  | fault (fault : Fault) :
      TablesCompared inputs expected (.error fault) (.error fault)
  | lengths {got : List τ} :
      expected.length ≠ inputs.length ∨ got.length ≠ inputs.length →
      TablesCompared inputs expected (.ok got) (.error .vectorLength)
  | report {got : List τ} {report : Report ι τ} :
      report.Exact inputs got expected →
      TablesCompared inputs expected (.ok got) (.ok report)

theorem compareBatch_tables [Clocked σ]
    (reference : Reference σ (List ι) (List τ))
    (device : Device σ (List ι) (List τ)) (inputs : List ι) (state : σ) :
    TablesCompared inputs (reference inputs state).1
      (device inputs (reference inputs state).2).1
      (compareBatch reference device inputs state).1 := by
  rcases referenceRan : reference inputs state with ⟨expected, between⟩
  rcases deviceRan : device inputs between with ⟨outcome, after⟩
  unfold compareBatch CycleSpan.measure
  rw [referenceRan]
  dsimp only
  rw [deviceRan]
  cases outcome with
  | error fault => exact .fault fault
  | ok got =>
      dsimp only
      by_cases differ :
          expected.length ≠ inputs.length ∨ got.length ≠ inputs.length
      · rw [if_pos differ]
        exact .lengths differ
      · obtain ⟨length_expected, length_got⟩ := not_or.mp differ
        have exact := Report.ofTables_exact (not_not.mp length_got)
          (not_not.mp length_expected)
        rw [if_neg differ]
        exact .report (exact.timed _ _)

end Tables

section Agreement

variable [Clocked σ] [BEq τ] {reference : Reference σ ι τ}
  {device : Device σ ι τ} {onProgress : Progress → σ → σ} {scalar : σ → ρ}
  {vector : σ → δ} {expect : Reference ρ ι τ} {answer : Device δ ι τ}

theorem Apart.compareTimed_firstFault
    (apart : Apart reference device onProgress scalar vector expect answer)
    {inputs : List ι} {state : σ} {fault : Fault}
    (first : Device.FirstFault answer fault (vector state) inputs) :
    (compareTimed reference device inputs state).1 = .error fault := by
  obtain ⟨expected, asked⟩ :=
    Reference.exists_answers expect (scalar state) inputs
  obtain ⟨between, referenceRan, kept⟩ := apart.reference_onAll asked
  rw [← kept] at first
  obtain ⟨after, deviceRan⟩ := apart.device_onAll_firstFault first
  have tables := compareBatch_tables (Reference.onAll reference)
    (Device.onAll device) inputs state
  rw [referenceRan, deviceRan] at tables
  change TablesCompared _ _ _ (compareTimed reference device inputs state).1
    at tables
  generalize (compareTimed reference device inputs state).1 = result at tables ⊢
  cases tables with
  | fault => rfl

theorem Apart.compareTimed_answers
    (apart : Apart reference device onProgress scalar vector expect answer)
    {inputs : List ι} {state : σ} {got expected : List τ}
    (asked : Reference.Answers expect (scalar state) inputs expected)
    (answered : Device.Answers answer (vector state) inputs got) :
    ∃ report,
      (compareTimed reference device inputs state).1 = .ok report ∧
      report.Exact inputs got expected := by
  have length_expected := asked.length
  have length_got := answered.length
  obtain ⟨between, referenceRan, kept⟩ := apart.reference_onAll asked
  rw [← kept] at answered
  obtain ⟨after, deviceRan⟩ := apart.device_onAll_answers answered
  have tables := compareBatch_tables (Reference.onAll reference)
    (Device.onAll device) inputs state
  rw [referenceRan, deviceRan] at tables
  change TablesCompared _ _ _ (compareTimed reference device inputs state).1
    at tables
  generalize (compareTimed reference device inputs state).1 = result at tables ⊢
  cases tables with
  | lengths differ => exact (differ.elim (· length_expected) (· length_got)).elim
  | report exact => exact ⟨_, rfl, exact⟩

/-- The comparison in two phases and the one in turns end in the first fault of
the device, or in exact reports that agree.  A comparison of whole tables, with
any reference and device, ends in the device's fault, or rejects tables of
other lengths, or reports exactly. -/
theorem comparisons_exact
    (apart : Apart reference device onProgress scalar vector expect answer)
    (interval : Nat) (inputs : List ι) (state : σ) :
    ((∃ fault,
        Device.FirstFault answer fault (vector state) inputs ∧
        (compareTimed reference device inputs state).1 = .error fault ∧
        (compareStreaming interval reference device onProgress inputs
          state).1 = .error fault) ∨
      ∃ got expected timed streamed,
        Device.Answers answer (vector state) inputs got ∧
        Reference.Answers expect (scalar state) inputs expected ∧
        (compareTimed reference device inputs state).1 = .ok timed ∧
        (compareStreaming interval reference device onProgress inputs
          state).1 = .ok streamed ∧
        timed.Exact inputs got expected ∧
        streamed.compared = timed.compared ∧
        streamed.errors = timed.errors ∧
        streamed.mismatches = timed.mismatches) ∧
    ∀ (tables : Reference σ (List ι) (List τ))
      (kernel : Device σ (List ι) (List τ)),
      TablesCompared inputs (tables inputs state).1
        (kernel inputs (tables inputs state).2).1
        (compareBatch tables kernel inputs state).1 := by
  refine ⟨?_, fun tables kernel =>
    compareBatch_tables tables kernel inputs state⟩
  rcases Device.firstFault_or_answers answer (vector state) inputs with
    ⟨fault, first⟩ | ⟨got, answered⟩
  · left
    exact ⟨fault, first, apart.compareTimed_firstFault first,
      apart.compareStreaming_firstFault interval first⟩
  · right
    obtain ⟨expected, asked⟩ :=
      Reference.exists_answers expect (scalar state) inputs
    obtain ⟨timed, timedRan, timedExact⟩ :=
      apart.compareTimed_answers asked answered
    obtain ⟨streamed, streamedRan, streamedExact⟩ :=
      apart.compareStreaming_answers interval asked answered
    exact ⟨got, expected, timed, streamed, answered, asked, timedRan,
      streamedRan, timedExact, streamedExact.agree timedExact⟩

end Agreement

/-- Doubles an input in three cycles. -/
def doubling : Reference Clock Nat Nat := fun input clock =>
  (input + input, clock.advance 3)

/-- Doubles an input in one cycle, with four bits for the result. -/
def packedDoubling : Device Clock Nat Nat := fun input clock =>
  (.ok ((input + input) % 16), clock.advance 1)

theorem doublings_apart :
    Apart doubling packedDoubling (fun _ clock => clock.advance 1)
      (fun _ => ()) (fun _ => ()) (fun input _ => (input + input, ()))
      (fun input _ => (.ok ((input + input) % 16), ())) where
  reference_answer _ _ := rfl
  reference_vector _ _ := rfl
  device_answer _ _ := rfl
  device_scalar _ _ := rfl
  progress_scalar _ _ := rfl
  progress_vector _ _ := rfl

theorem comparisons_exact_doublings :
    ∃ timed streamed,
      (compareTimed doubling packedDoubling [3, 9] Clock.zero).1 =
        .ok timed ∧
      (compareStreaming 1 doubling packedDoubling
        (fun _ clock => clock.advance 1) [3, 9] Clock.zero).1 = .ok streamed ∧
      streamed.mismatches = timed.mismatches ∧
      streamed.mismatches = #[⟨1, 9, 2, 18⟩] := by
  rcases (comparisons_exact doublings_apart 1 [3, 9] Clock.zero).1 with
    ⟨fault, _first, _timedRan, streamedRan⟩ |
    ⟨_got, _expected, timed, streamed, _answered, _asked, timedRan,
      streamedRan, _exact, _compared, _errors, same⟩
  · nomatch streamedRan
  · refine ⟨timed, streamed, timedRan, streamedRan, same, ?_⟩
    obtain rfl := Except.ok.inj streamedRan
    rfl

end VectorBench
