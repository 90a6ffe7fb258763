import VectorBench.Proofs.Binding.FaultInjection
import VectorBench.Proofs.Suite.Lines

/-!
# Comparisons on a hart

The suites that compare the first three operations of a hart pass exactly if
its datapath gives the expected results wherever the hart leaves an operation to
it.  The hart can go on after every call, so each answer depends on the operands
alone, and a report marks exactly the pairs on which the two sides differ.
-/

namespace VectorBench

/-! ### What was written -/

theorem Transcript.reportText_push (transcript : Transcript) (text : String) :
    (transcript.push (.report text)).reportText =
      transcript.reportText ++ text := by
  unfold reportText push
  rw [Array.foldl_push]

namespace Bench

variable {σ : Type} {before bench : Bench σ} {lines : List String}

/-- The lines that were written since an earlier state of a bench. -/
def Wrote (before : Bench σ) (lines : List String) (after : Bench σ) : Prop :=
  after.transcript.reportText =
    before.transcript.reportText ++ String.join lines

theorem Wrote.refl (bench : Bench σ) : bench.Wrote [] bench :=
  String.append_empty.symm

theorem Wrote.trans {first second : List String} {middle after : Bench σ}
    (earlier : before.Wrote first middle) (later : middle.Wrote second after) :
    before.Wrote (first ++ second) after := by
  unfold Wrote at earlier later ⊢
  rw [later, earlier, String.join_append, String.append_assoc]

theorem wrote_say (bench : Bench σ) (text : String) :
    bench.Wrote [text] (bench.say text) := by
  unfold Wrote
  rw [Bench.say, Transcript.reportText_push, String.join_cons,
    String.join_nil, String.append_empty]

theorem wrote_sayAll (bench : Bench σ) (texts : List String) :
    bench.Wrote texts (bench.sayAll texts) := by
  induction texts generalizing bench with
  | nil => exact .refl bench
  | cons text texts ih => exact (bench.wrote_say text).trans (ih _)

theorem machine_sayAll (bench : Bench σ) (texts : List String) :
    (bench.sayAll texts).machine = bench.machine := by
  induction texts generalizing bench with
  | nil => rfl
  | cons text texts ih => exact ih (bench.say text)

/-- The marked lines among what was written since an earlier state. -/
def Marked (before : Bench σ) (lines : List String) (after : Bench σ) : Prop :=
  ∃ written,
    after.transcript.reportText = before.transcript.reportText ++ written ∧
    mismatchLines written = lines

end Bench

/-! ### Operations of a hart on a bench -/

variable {H : Type} {config : HartConfig} {datapath : Datapath}
  {bench : Bench (HardwareBinding (Hart H))}

def HartConfig.firstThree (config : HartConfig) (datapath : Datapath)
    (operands : Word × Word) : FirstThree where
  op0 := config.scalarDatapath datapath 0 0 0 operands.1 operands.2
  op1 := config.scalarDatapath datapath 1 1 0 operands.1 operands.2
  op2 := config.scalarDatapath datapath 2 2 0 operands.1 operands.2

namespace Bench

/-- The hart of a bench can go on, with a given configuration and datapath. -/
def Runs (bench : Bench (HardwareBinding (Hart H))) (config : HartConfig)
    (datapath : Datapath) : Prop :=
  bench.machine.emitter.Runs config datapath

theorem Runs.scalarOp {code funct7 : Word} (runs : bench.Runs config datapath)
    (operation : code < 8) (variant : funct7 < 128) (a b : Word) :
    ∃ machine,
      VectorOps.scalarOp code funct7 a b bench =
        (.ok (config.scalarDatapath datapath code code funct7 a b),
          { bench with machine }) ∧
      ({ bench with machine } : Bench _).Runs config datapath := by
  obtain ⟨after, answered, kept⟩ :=
    Hart.Runs.scalarOp_ok runs operation variant a b
  refine ⟨{ emitter := after }, ?_, kept⟩
  change Bench.lift (VectorOps.scalarOp code funct7 a b) bench = _
  simp only [Bench.lift]
  rw [answered]

theorem Runs.firstThree (runs : bench.Runs config datapath)
    (operands : Word × Word) :
    ∃ machine,
      firstThree operands bench =
        (.ok (config.firstThree datapath operands), { bench with machine }) ∧
      ({ bench with machine } : Bench _).Runs config datapath := by
  obtain ⟨first, ranFirst, runsFirst⟩ :=
    runs.scalarOp (by decide : (0 : Word) < 8) (by decide : (0 : Word) < 128)
      operands.1 operands.2
  obtain ⟨second, ranSecond, runsSecond⟩ :=
    runsFirst.scalarOp (by decide : (1 : Word) < 8)
      (by decide : (0 : Word) < 128) operands.1 operands.2
  obtain ⟨third, ranThird, runsThird⟩ :=
    runsSecond.scalarOp (by decide : (2 : Word) < 8)
      (by decide : (0 : Word) < 128) operands.1 operands.2
  refine ⟨third, ?_, runsThird⟩
  simp only [VectorBench.firstThree, ranFirst, ranSecond, ranThird]
  rfl

end Bench

/-! ### Conforming operations -/

/-- The codes of the operations that the suites compare. -/
def comparedCodes : List Word := [0, 1, 2]

/-- On a pair of operands, the datapath gives the expected result of every
compared operation that the hart leaves to it. -/
def HartConfig.Conforms (config : HartConfig) (datapath : Datapath)
    (expected : Word → Word → Word → Word) (operands : Word × Word) : Prop :=
  ∀ code ∈ comparedCodes, config.hwOps.has code = true →
    datapath code 0 operands.1 operands.2 =
      expected code operands.1 operands.2

instance (config : HartConfig) (datapath : Datapath)
    (expected : Word → Word → Word → Word) :
    DecidablePred (config.Conforms datapath expected) :=
  fun _operands => List.decidableBAll _ comparedCodes

theorem HartConfig.conforms_iff {expected : Word → Word → Word → Word}
    (modelled : ∀ code ∈ comparedCodes, ∀ a b,
      Datapath.model code 0 a b = expected code a b)
    (operands : Word × Word) :
    config.Conforms datapath expected operands ↔
      ∀ code ∈ comparedCodes,
        config.scalarDatapath datapath code code 0 operands.1 operands.2 =
          expected code operands.1 operands.2 := by
  unfold HartConfig.Conforms HartConfig.scalarDatapath
  apply forall₂_congr
  intro code member
  split
  case isTrue left => exact ⟨fun same => same left, fun same _ => same⟩
  case isFalse emulated =>
    -- What is emulated is as expected, whatever the datapath does.
    exact ⟨fun _ => modelled code member _ _,
      fun _ left => absurd left emulated⟩

theorem HartConfig.firstThree_eq_model_iff (operands : Word × Word) :
    config.firstThree datapath operands = modelFirstThree operands ↔
      config.Conforms datapath (fun code => Datapath.model code 0)
        operands := by
  rw [HartConfig.conforms_iff fun _code _member _a _b => rfl]
  simp only [HartConfig.firstThree, modelFirstThree, FirstThree.mk.injEq,
    comparedCodes, List.forall_mem_cons, List.not_mem_nil, false_imp_iff,
    implies_true, and_true]

/-! ### Comparison with the software model -/

/-- The line on a pair of operands on which a hart differs from the model; the
place of the pair is not in it. -/
def HartConfig.mismatchLine (config : HartConfig) (datapath : Datapath)
    (operands : Word × Word) : String :=
  modelMismatchLine
    { index := 0, input := operands, got := config.firstThree datapath operands
      expected := modelFirstThree operands }

namespace Bench

/-- A comparison with the software model has only written unmarked lines so
far, and its hart can go on. -/
structure Comparing (before : Bench (HardwareBinding (Hart H)))
    (config : HartConfig) (datapath : Datapath)
    (bench : Bench (HardwareBinding (Hart H))) : Prop where
  runs : bench.Runs config datapath
  plain : ∃ lines, before.Wrote lines bench ∧
    ∀ line ∈ lines, ReportLine false line

theorem Comparing.say {before : Bench (HardwareBinding (Hart H))}
    (comparing : before.Comparing config datapath bench) {text : String}
    (plain : ReportLine false text) :
    before.Comparing config datapath (bench.say text) where
  runs := comparing.runs
  plain := by
    obtain ⟨lines, wrote, plainLines⟩ := comparing.plain
    refine ⟨_, wrote.trans (bench.wrote_say text), ?_⟩
    intro line member
    rcases List.mem_append.mp member with member | member
    · exact plainLines line member
    · rwa [List.mem_singleton.mp member]

theorem comparing_steady (before : Bench (HardwareBinding (Hart H)))
    (config : HartConfig) (datapath : Datapath) :
    Steady
      (fun operands bench => (modelFirstThree operands, bench))
      firstThree sayProgress (before.Comparing config datapath)
      (config.firstThree datapath) modelFirstThree where
  reference_step operands comparing := ⟨_, rfl, comparing⟩
  device_step operands comparing := by
    obtain ⟨machine, answered, kept⟩ := comparing.runs.firstThree operands
    exact ⟨_, answered, kept, comparing.plain⟩
  progress_step progress comparing :=
    comparing.say (.decimal (by decide)
      (by decide : PlainText " comparisons....") progress.compared)

end Bench

theorem map_modelMismatchLine_disagreements (pairs : List (Word × Word)) :
    (Report.disagreements pairs (config.firstThree datapath)
        modelFirstThree).map modelMismatchLine =
      (pairs.filter fun pair =>
        ¬ config.Conforms datapath (fun code => Datapath.model code 0) pair).map
          (config.mismatchLine datapath) := by
  have placeless := Report.map_disagreements
    (fun input got expected =>
      modelMismatchLine { index := 0, input, got, expected })
    pairs (config.firstThree datapath) modelFirstThree
  refine Eq.trans placeless (congrArg (List.map _) ?_)
  apply List.filter_congr
  intro pair _member
  rw [Bool.eq_iff_iff, bne_iff_ne, decide_eq_true_iff, ne_eq,
    HartConfig.firstThree_eq_model_iff]

/-- The lines on a comparison mark the pairs on which the two differ. -/
theorem mismatchLines_modelReportLines
    {report : Report (Word × Word) FirstThree} {pairs : List (Word × Word)}
    (lists : report.Lists pairs (config.firstThree datapath) modelFirstThree) :
    mismatchLines (String.join (modelReportLines report)) =
      (pairs.filter fun pair =>
        ¬ config.Conforms datapath (fun code => Datapath.model code 0) pair).map
          (config.mismatchLine datapath) := by
  have header : ∀ line ∈ (if report.mismatches.isEmpty then [] else
      ["arg0        arg1            fn0                     fn1                     fn2\n"]),
      ReportLine false line := by
    intro line member
    split at member
    case isTrue => cases member
    case isFalse =>
      rw [List.mem_singleton.mp member]
      exact .of_literal (by decide) (by decide)
  have totals : ∀ line ∈
      ["Ran " ++ Numeral.decimal report.compared ++ " comparisons.\n",
        "errors: " ++ Numeral.decimal report.errors ++ "\n"],
      ReportLine false line := by
    rw [List.forall_mem_cons, List.forall_mem_singleton]
    exact ⟨.decimal (by decide) (by decide : PlainText " comparisons.") _,
      .decimal (by decide) (by decide : PlainText "") _⟩
  -- Only the lines in the middle are marked.
  unfold modelReportLines
  rw [String.join_append, String.join_append, String.append_assoc,
    mismatchLines_plain_append header,
    mismatchLines_join_append (fun _mismatch => true) modelMismatchLine
      (fun mismatch _member => .modelMismatchLine mismatch),
    List.filter_true, lists.mismatches, map_modelMismatchLine_disagreements,
    mismatchLines_plain totals, List.append_nil]

theorem compareSuite_verdict (progress : Nat)
    (runs : bench.Runs config datapath) :
    ∃ passed after,
      compareSuite progress bench = (.ok passed, after) ∧
      (passed = true ↔ ∀ operands ∈ comparedOperands.toList,
        config.Conforms datapath (fun code => Datapath.model code 0)
          operands) ∧
      bench.Marked
        ((comparedOperands.toList.filter fun operands =>
          ¬ config.Conforms datapath (fun code => Datapath.model code 0)
            operands).map (config.mismatchLine datapath)) after := by
  have started : bench.Comparing config datapath
      (bench.say "RVV-Lite COMPARE TEST for op0, 1, and 2:\n") :=
    Bench.Comparing.say
      ⟨runs, [], .refl bench, fun _line member => by cases member⟩
      (.of_literal (by decide) (by decide))
  obtain ⟨report, between, compared, lists, comparing⟩ :=
    (Bench.comparing_steady bench config datapath).compareStreaming_ok
      progress comparedOperands.toList started
  obtain ⟨lines, wrote, plain⟩ := comparing.plain
  refine ⟨report.passed, between.sayAll (modelReportLines report), ?_, ?_, ?_⟩
  · simp only [compareSuite, compared]
  · rw [lists.passed_iff]
    simp only [HartConfig.firstThree_eq_model_iff]
  · refine ⟨_, wrote.trans (between.wrote_sayAll _), ?_⟩
    rw [String.join_append, mismatchLines_plain_append plain,
      mismatchLines_modelReportLines lists]

/-! ### Comparison with scalar arithmetic -/

theorem scalarArithmetic_steady (config : HartConfig) (datapath : Datapath)
    {code : Word} (fits : code < 8) :
    Steady
      (fun (operands : Word × Word) (bench : Bench (HardwareBinding (Hart H))) =>
        (scalarReference code operands.1 operands.2,
          Clocked.advance scalarOpCycles bench))
      (fun operands =>
        VectorOps.scalarOp code 0 operands.1 operands.2)
      (fun _progress bench => bench)
      (fun bench => bench.Runs config datapath)
      (fun operands =>
        config.scalarDatapath datapath code code 0 operands.1 operands.2)
      (fun operands => scalarReference code operands.1 operands.2) where
  reference_step _operands runs := ⟨_, rfl, runs.withClock _⟩
  device_step operands runs := by
    obtain ⟨machine, answered, kept⟩ :=
      runs.scalarOp fits (by decide : (0 : Word) < 128) operands.1 operands.2
    exact ⟨_, answered, kept⟩
  progress_step _progress runs := runs

theorem compareWithScalar_verdict {code : Word} (fits : code < 8)
    (runs : bench.Runs config datapath) :
    ∃ report after,
      compareWithScalar code bench = (.ok report, after) ∧
      (report.passed = true ↔ ∀ operands ∈ fixedInputs,
        config.scalarDatapath datapath code code 0 operands.1 operands.2 =
          scalarReference code operands.1 operands.2) ∧
      after.Runs config datapath := by
  obtain ⟨report, after, compared, lists, kept⟩ :=
    (scalarArithmetic_steady config datapath fits).compareTimed_ok fixedInputs
      runs
  exact ⟨report, after, compared, lists.passed_iff, kept⟩

theorem equivalenceOver_verdict {codes : List Word}
    (fits : ∀ code ∈ codes, code < 8) (runs : bench.Runs config datapath) :
    ∃ passed after,
      equivalenceOver codes bench = (.ok passed, after) ∧
      (passed = true ↔ ∀ code ∈ codes, ∀ operands ∈ fixedInputs,
        config.scalarDatapath datapath code code 0 operands.1 operands.2 =
          scalarReference code operands.1 operands.2) := by
  induction codes generalizing bench with
  | nil =>
      refine ⟨true, bench, rfl, fun _passed code member => ?_, fun _ => rfl⟩
      cases member
  | cons code codes ih =>
      obtain ⟨report, between, compared, first, kept⟩ :=
        compareWithScalar_verdict (fits code List.mem_cons_self) runs
      have told : (between.sayAll (scalarReportLines code report)).Runs config
          datapath := by
        unfold Bench.Runs
        rw [Bench.machine_sayAll]
        exact kept
      obtain ⟨others, after, ran, rest⟩ := ih
        (fun later member => fits later (List.mem_cons_of_mem code member)) told
      refine ⟨report.passed && others, after, ?_, ?_⟩
      · simp only [equivalenceOver, compared, ran]
      · rw [Bool.and_eq_true, first, rest, List.forall_mem_cons]

theorem equivalenceSuite_verdict (runs : bench.Runs config datapath) :
    ∃ passed after,
      equivalenceSuite bench = (.ok passed, after) ∧
      (passed = true ↔ ∀ operands ∈ fixedInputs,
        config.Conforms datapath scalarReference operands) := by
  have fits : ∀ code ∈ comparedCodes, code < 8 := by
    simp [comparedCodes]
  obtain ⟨passed, after, ran, verdict⟩ := equivalenceOver_verdict fits runs
  refine ⟨passed, after, ?_, ?_⟩
  · unfold equivalenceSuite
    exact ran
  have modelled : ∀ code ∈ comparedCodes, ∀ a b,
      Datapath.model code 0 a b = scalarReference code a b :=
    fun code member a b => (scalarReference_eq_model (fits code member) a b).symm
  simp only [verdict, HartConfig.conforms_iff modelled]
  exact ⟨fun same operands listed code member =>
      same code member operands listed,
    fun same code member operands listed =>
      same operands listed code member⟩

end VectorBench
