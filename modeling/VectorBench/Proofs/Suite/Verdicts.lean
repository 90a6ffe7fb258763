import VectorBench.Proofs.Suite.Comparisons

/-!
# Verdicts of the suites

On a fresh hart with any datapath, a suite passes exactly if the datapath gives
the expected results wherever the hart leaves operations to it.  The suite on
vector registers seeds its two sources once: every operation writes a third
register, so the seeds are still there for the next one.
-/

namespace VectorBench

variable {H : Type} {config : HartConfig} {datapath : Datapath}
  {bench : Bench (HardwareBinding (Hart H))}

/-! ### Operations on vector registers -/

/-- The datapath whose results an operation on vector registers gives. -/
def HartConfig.vectorDatapath (config : HartConfig) (datapath : Datapath) :
    Datapath :=
  if config.hwVv then datapath else Datapath.model

theorem Hart.Runs.datapathOf_vectorWord {hart : Hart H}
    (runs : hart.Runs config datapath) (funct3 funct7 : Word)
    (vs1 vs2 vd : VReg) :
    hart.datapathOf (HardwareBinding.vectorWord funct3 funct7 vs1 vs2 vd) =
      config.vectorDatapath datapath := by
  have implemented :
      hart.config.implements
        (HardwareBinding.vectorWord funct3 funct7 vs1 vs2 vd) =
          config.hwVv := by
    simp only [HartConfig.implements, HardwareBinding.vectorWord,
      InstructionFields.class?_encodeRegisters, runs.config]
  unfold datapathOf HartConfig.vectorDatapath
  rw [implemented, runs.datapath, runs.ready.emulator]

theorem Operation.funct3_lt (operation : Operation) : operation.funct3 < 8 := by
  cases operation <;> decide

theorem ElementWidth.funct7_lt (width : ElementWidth) : width.funct7 < 128 := by
  cases width <;> decide

theorem mem_vectorCases (width : ElementWidth) (operation : Operation) :
    (width, operation) ∈ vectorCases := by
  cases width <;> cases operation <;> decide

/-- The supported pairs of codes are those of the twenty-four cases. -/
theorem Datapath.forall_supported_iff {holds : Word → Word → Prop} :
    (∀ funct3 funct7, Datapath.isSupported funct3 funct7 = true →
        holds funct3 funct7) ↔
      ∀ item ∈ vectorCases, holds item.2.funct3 item.1.funct7 := by
  constructor
  · intro all item _member
    apply all
    exact isSupported_iff_exists.mpr ⟨item.2, item.1, rfl, rfl⟩
  · intro all funct3 funct7 supported
    obtain ⟨operation, width, rfl, rfl⟩ := isSupported_iff_exists.mp supported
    exact all (width, operation) (mem_vectorCases width operation)

example : vectorCases.length = 24 ∧ vectorCases.Nodup := by decide

namespace Bench

/-- The hart of a bench can go on, and its source registers hold the seeds. -/
structure Seeded (bench : Bench (HardwareBinding (Hart H)))
    (config : HartConfig) (datapath : Datapath) : Prop where
  runs : bench.Runs config datapath
  first : bench.machine.emitter.vregs.readRegister 1 = seedVs1
  second : bench.machine.emitter.vregs.readRegister 2 = seedVs2

theorem Runs.writeRegister (runs : bench.Runs config datapath)
    (register : VReg) (words : VectorWords) :
    (VectorOps.writeRegister register words bench).Runs config datapath :=
  ⟨⟨runs.ready.live, runs.ready.idle, runs.ready.emulator⟩, runs.config,
    runs.datapath⟩

theorem vregs_writeRegister (bench : Bench (HardwareBinding (Hart H)))
    (register : VReg) (words : VectorWords) :
    (VectorOps.writeRegister register words bench).machine.emitter.vregs =
      bench.machine.emitter.vregs.writeRegister register words :=
  rfl

theorem Runs.seeded (runs : bench.Runs config datapath) :
    Seeded (VectorOps.writeRegister 2 seedVs2
      (VectorOps.writeRegister 1 seedVs1 bench)) config datapath where
  runs := (runs.writeRegister 1 seedVs1).writeRegister 2 seedVs2
  first := by
    rw [vregs_writeRegister, VRegFile.readRegister_writeRegister,
      Function.update_of_ne (by decide), vregs_writeRegister,
      VRegFile.readRegister_writeRegister, Function.update_self]
  second := by
    rw [vregs_writeRegister, VRegFile.readRegister_writeRegister,
      Function.update_self]

/-- An operation on the seeded registers is answered by the datapath that it
is left to, and leaves the seeds. -/
theorem Seeded.vectorVector (seeded : bench.Seeded config datapath)
    (width : ElementWidth) (operation : Operation) :
    ∃ machine,
      VectorOps.vectorVector operation.funct3 width.funct7 1 2 3 bench =
        (.ok ((config.vectorDatapath datapath).onVectors operation.funct3
          width.funct7 seedVs1 seedVs2), { bench with machine }) ∧
      ({ bench with machine } : Bench _).Seeded config datapath := by
  obtain ⟨runs, first, second⟩ := seeded
  obtain ⟨core, after, emitted, follows, vregs⟩ :=
    HardwareBinding.emitVector_vectorWord_datapathOf runs.ready
      operation.funct3_lt width.funct7_lt 1 2 3
  rw [runs.datapathOf_vectorWord, first, second] at emitted vregs
  -- The destination is neither of the sources.
  have kept : ∀ register : VReg, register ≠ 3 →
      after.vregs.readRegister register =
        bench.machine.emitter.vregs.readRegister register := by
    intro register distinct
    have written : after.vregs.readRegister = core.vregs :=
      congrArg PlainCore.vregs follows.core_eq
    rw [written, vregs, VRegFile.readRegister_writeRegister,
      Function.update_of_ne distinct]
  refine ⟨{ emitter := after }, ?_, runs.of_follows follows, ?_, ?_⟩
  · change Bench.lift
      (VectorOps.vectorVector operation.funct3 width.funct7 1 2 3) bench = _
    simp only [Bench.lift, VectorOps.vectorVector, HardwareBinding.lift,
      InstructionEmitter.emitVector, emitted]
  · exact (kept 1 (by decide)).trans first
  · exact (kept 2 (by decide)).trans second

end Bench

/-- What a datapath makes of the seeds. -/
def Datapath.onSeeds (datapath : Datapath) (item : ElementWidth × Operation) :
    VectorWords :=
  datapath.onVectors item.2.funct3 item.1.funct7 seedVs1 seedVs2

/-- The line on an operation of a datapath on the seeds. -/
def Datapath.seedsLine (datapath : Datapath)
    (item : ElementWidth × Operation) : String :=
  vectorLine item.1 item.2 (datapath.onSeeds item)
    (Datapath.model.onSeeds item)

theorem vectorCasesOver_cons_ok {σ : Type} [VectorOps σ]
    {item : ElementWidth × Operation} {items : List (ElementWidth × Operation)}
    {bench between after : Bench σ} {got : VectorWords} {passed : Bool}
    (answered : VectorOps.vectorVector item.2.funct3 item.1.funct7 1 2 3 bench =
      (.ok got, between))
    (ran : vectorCasesOver items
      (between.say (vectorLine item.1 item.2 got
        (Datapath.model.onSeeds item))) = (.ok passed, after)) :
    vectorCasesOver (item :: items) bench =
      (.ok (decide (got = Datapath.model.onSeeds item) && passed), after) := by
  unfold Datapath.onSeeds at ran ⊢
  simp only [vectorCasesOver, answered, ran]

theorem vectorCasesOver_verdict (items : List (ElementWidth × Operation))
    (seeded : bench.Seeded config datapath) :
    let answering := config.vectorDatapath datapath
    ∃ passed after,
      vectorCasesOver items bench = (.ok passed, after) ∧
      (passed = true ↔ ∀ item ∈ items,
        answering.onSeeds item = Datapath.model.onSeeds item) ∧
      bench.Wrote (items.map answering.seedsLine) after := by
  intro answering
  induction items generalizing bench with
  | nil =>
      refine ⟨true, bench, rfl, ⟨fun _passed item member => ?_, fun _ => rfl⟩,
        .refl bench⟩
      cases member
  | cons item items ih =>
      obtain ⟨machine, answered, kept⟩ :=
        seeded.vectorVector item.1 item.2
      let told : Bench (HardwareBinding (Hart H)) :=
        ({ bench with machine } : Bench _).say (answering.seedsLine item)
      have seededTold : told.Seeded config datapath :=
        ⟨kept.runs, kept.first, kept.second⟩
      obtain ⟨others, after, ran, verdict, wrote⟩ := ih seededTold
      refine ⟨decide (answering.onSeeds item = Datapath.model.onSeeds item) &&
        others, after, ?_, ?_, ?_⟩
      · exact vectorCasesOver_cons_ok answered ran
      · rw [Bool.and_eq_true, decide_eq_true_iff, verdict,
          List.forall_mem_cons]
      · exact (Bench.wrote_say { bench with machine } _).trans wrote

theorem opvvSuite_onSeeds (runs : bench.Runs config datapath) :
    let answering := config.vectorDatapath datapath
    ∃ passed after,
      opvvSuite bench = (.ok passed, after) ∧
      (passed = true ↔ ∀ item ∈ vectorCases,
        answering.onSeeds item = Datapath.model.onSeeds item) ∧
      bench.Marked
        ((vectorCases.filter fun item =>
          answering.onSeeds item != Datapath.model.onSeeds item).map
            answering.seedsLine) after := by
  intro answering
  let header : Bench (HardwareBinding (Hart H)) :=
    bench.say "RVV-Lite OPVV Test:\n"
  have headerRuns : header.Runs config datapath := runs
  obtain ⟨passed, after, ran, verdict, wrote⟩ :=
    vectorCasesOver_verdict vectorCases headerRuns.seeded
  refine ⟨passed, after, ran, verdict, _, (bench.wrote_say _).trans wrote, ?_⟩
  have plain : ∀ line ∈ ["RVV-Lite OPVV Test:\n"], ReportLine false line :=
    List.forall_mem_singleton.mpr (.of_literal (by decide) (by decide))
  have marked := mismatchLines_join_append
    (fun item => answering.onSeeds item != Datapath.model.onSeeds item)
    answering.seedsLine
    (fun item (_member : item ∈ vectorCases) =>
      ReportLine.vectorLine item.1 item.2 _ _) ""
  rw [String.append_empty] at marked
  rw [String.join_append, mismatchLines_plain_append plain, marked]
  exact List.append_nil _

theorem opvvSuite_verdict (runs : bench.Runs config datapath) :
    ∃ passed after,
      opvvSuite bench = (.ok passed, after) ∧
      (passed = true ↔ config.hwVv = false ∨
        ∀ funct3 funct7, Datapath.isSupported funct3 funct7 = true →
          datapath.onVectors funct3 funct7 seedVs1 seedVs2 =
            Datapath.model.onVectors funct3 funct7 seedVs1 seedVs2) ∧
      bench.Marked
        ((vectorCases.filter fun item => config.hwVv &&
          datapath.onSeeds item != Datapath.model.onSeeds item).map
            datapath.seedsLine) after := by
  obtain ⟨passed, after, ran, verdict, marked⟩ := opvvSuite_onSeeds runs
  rw [Datapath.forall_supported_iff]
  refine ⟨passed, after, ran, ?_⟩
  cases left : config.hwVv with
  | true =>
      have answering : config.vectorDatapath datapath = datapath := if_pos left
      rw [answering] at verdict marked
      simp only [Bool.true_eq_false, false_or, Bool.true_and]
      exact ⟨verdict, marked⟩
  | false =>
      have answering : config.vectorDatapath datapath = Datapath.model := by
        rw [HartConfig.vectorDatapath, left]
        rfl
      rw [answering] at verdict marked
      -- The model answers for itself, so nothing differs.
      simp only [bne_self_eq_false, List.filter_false, List.map_nil] at marked
      simp only [true_or, iff_true, Bool.false_and, List.filter_false,
        List.map_nil]
      exact ⟨verdict.mpr fun _item _member => rfl, marked⟩

/-! ### Fresh harts -/

def Bench.fresh (clock : Clock) (config : HartConfig) (datapath : Datapath)
    (input : ByteStream) (transcript : Transcript) :
    Bench (HardwareBinding (Hart H)) where
  machine := { emitter := Hart.initial clock config datapath }
  input := input
  transcript := transcript

/-- On a fresh hart with any datapath, no suite faults.  The comparison with the
software model passes exactly if the datapath agrees with it on every pair of
the sweep, in each of the three operations that are left to the datapath, and
marks one line for every pair on which it does not.  The comparison with scalar
arithmetic passes exactly if the datapath agrees with that on the fixed
operands.  The suite on vector registers passes exactly if these operations are
not left to the datapath or it agrees with the software model on the seeds, and
marks one line for every operation on which it does not. -/
theorem suites_exact (clock : Clock) (config : HartConfig)
    (datapath : Datapath) (input : ByteStream) (transcript : Transcript)
    (progress : Nat) :
    let bench : Bench (HardwareBinding (Hart H)) :=
      .fresh clock config datapath input transcript
    let modelled := config.Conforms datapath fun code => Datapath.model code 0
    (∃ passed after,
      compareSuite progress bench = (.ok passed, after) ∧
      (passed = true ↔ ∀ operands ∈ comparedOperands.toList,
        modelled operands) ∧
      bench.Marked
        ((comparedOperands.toList.filter fun operands => ¬ modelled operands).map
          (config.mismatchLine datapath)) after) ∧
    (∃ passed after,
      equivalenceSuite bench = (.ok passed, after) ∧
      (passed = true ↔ ∀ operands ∈ fixedInputs,
        config.Conforms datapath scalarReference operands)) ∧
    ∃ passed after,
      opvvSuite bench = (.ok passed, after) ∧
      (passed = true ↔ config.hwVv = false ∨
        ∀ funct3 funct7, Datapath.isSupported funct3 funct7 = true →
          datapath.onVectors funct3 funct7 seedVs1 seedVs2 =
            Datapath.model.onVectors funct3 funct7 seedVs1 seedVs2) ∧
      bench.Marked
        ((vectorCases.filter fun item => config.hwVv &&
          datapath.onSeeds item != Datapath.model.onSeeds item).map
            datapath.seedsLine) after := by
  intro bench modelled
  have runs : bench.Runs config datapath := Hart.Runs.initial clock config datapath
  exact ⟨compareSuite_verdict progress runs, equivalenceSuite_verdict runs,
    opvvSuite_verdict runs⟩

end VectorBench
