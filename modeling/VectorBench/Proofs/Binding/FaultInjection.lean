import VectorBench.Proofs.Binding.Sessions
import VectorBench.Proofs.Comparison.Steady
import VectorBench.Proofs.Datapath.Arithmetic

/-!
# Injected faults are found

A datapath with a fault in one operation is compared with scalar arithmetic.
The comparison finds the fault on every pair of operands if the hart leaves
that operation to its datapath, and nothing at all if it does not.
-/

namespace VectorBench

/-! ### Operations of a hart -/

/-- The datapath whose results a scalar operation gives. -/
def HartConfig.scalarDatapath (config : HartConfig) (datapath : Datapath)
    (code : Word) : Datapath :=
  if config.hwOps.has code then datapath else Datapath.model

variable {H ω : Type}

/-- A hart that can go on, with a given configuration and datapath. -/
structure Hart.Runs (hart : Hart H) (config : HartConfig)
    (datapath : Datapath) : Prop where
  ready : hart.Ready
  config : hart.config = config
  datapath : hart.datapath = datapath

namespace Hart.Runs

variable {hart : Hart H} {config : HartConfig} {datapath : Datapath}
  {code funct7 : Word}

theorem initial (clock : Clock) (config : HartConfig) (datapath : Datapath) :
    (Hart.initial clock config datapath : Hart H).Runs config datapath :=
  ⟨⟨rfl, rfl, rfl⟩, rfl, rfl⟩

theorem of_follows {after : Hart H} {core : PlainCore}
    (runs : hart.Runs config datapath) (follows : Follows hart after core) :
    after.Runs config datapath where
  ready := follows.ready
  config := follows.config.trans runs.config
  datapath := follows.datapath.trans runs.datapath

theorem withClock (runs : hart.Runs config datapath) (clock : Clock) :
    ({ hart with clock } : Hart H).Runs config datapath :=
  ⟨⟨runs.ready.live, runs.ready.idle, runs.ready.emulator⟩, runs.config,
    runs.datapath⟩

theorem datapathOf_scalarWord (runs : hart.Runs config datapath)
    (operation : code < 8) :
    hart.datapathOf (HardwareBinding.scalarWord .scalar code funct7) =
      config.scalarDatapath datapath code := by
  have implemented :
      hart.config.implements (HardwareBinding.scalarWord .scalar code funct7) =
        config.hwOps.has code := by
    simp only [HartConfig.implements, HardwareBinding.scalarWord,
      InstructionFields.class?_encodeRegisters,
      InstructionFields.operationCode_encodeRegisters operation, runs.config]
  unfold datapathOf HartConfig.scalarDatapath
  rw [implemented, runs.datapath, runs.ready.emulator]

theorem scalarOp_ok (runs : hart.Runs config datapath) (operation : code < 8)
    (variant : funct7 < 128) (a b : Word) :
    ∃ after : Hart H,
      VectorOps.scalarOp code funct7 a b
          ({ emitter := hart } : HardwareBinding (Hart H)) =
        (.ok (config.scalarDatapath datapath code code funct7 a b),
          { emitter := after }) ∧
      after.Runs config datapath := by
  obtain ⟨core, after, emitted, follows, -⟩ :=
    HardwareBinding.emit_scalarWord_datapathOf runs.ready
      (by decide : OpcodeClass.scalar ≠ .vector) operation variant a b
  rw [runs.datapathOf_scalarWord operation] at emitted
  refine ⟨after, ?_, runs.of_follows follows⟩
  have issued : issuable (some .scalar) = .ok .scalar := rfl
  simp only [VectorOps.scalarOp, VectorOps.issue, issued, HardwareBinding.lift,
    InstructionEmitter.emit, emitted]

end Hart.Runs

/-! ### Comparisons next to a hart -/

/-- Something happens next to a hart, and has no part in it but the clock. -/
def elsewhere (event : Clock × ω → Clock × ω)
    (state : HardwareBinding (Hart H) × ω) : HardwareBinding (Hart H) × ω :=
  let (clock, world) := event (state.1.emitter.clock, state.2)
  ({ emitter := { state.1.emitter with clock } }, world)

/-- Scalar arithmetic as a reference. -/
def scalarArithmetic (code : Word)
    (charge : Word × Word → Clock × ω → Clock × ω) :
    Reference (HardwareBinding (Hart H) × ω) (Word × Word) Word :=
  fun pair state =>
    (scalarReference code pair.1 pair.2, elsewhere (charge pair) state)

/-- An operation of a hart as a device. -/
def scalarOperation (code : Word) :
    Device (HardwareBinding (Hart H) × ω) (Word × Word) Word :=
  fun pair state =>
    let (result, binding) := VectorOps.scalarOp code 0 pair.1 pair.2 state.1
    (result, (binding, state.2))

/-- A pair of operands is answered alike whenever a hart is asked. -/
theorem scalarOperation_steady (config : HartConfig) (datapath : Datapath)
    {code : Word} (fits : code < 8)
    (charge : Word × Word → Clock × ω → Clock × ω)
    (announce : Progress → Clock × ω → Clock × ω) :
    Steady
      (scalarArithmetic code charge :
        Reference (HardwareBinding (Hart H) × ω) (Word × Word) Word)
      (scalarOperation code)
      (fun progress => elsewhere (announce progress))
      (fun state => state.1.emitter.Runs config datapath)
      (fun pair =>
        config.scalarDatapath datapath code code 0 pair.1 pair.2)
      (fun pair => scalarReference code pair.1 pair.2) where
  reference_step pair runs := ⟨_, rfl, runs.withClock _⟩
  device_step {state} pair runs := by
    obtain ⟨after, answered, kept⟩ :=
      runs.scalarOp_ok fits (by decide : (0 : Word) < 128) pair.1 pair.2
    refine ⟨({ emitter := after }, state.2), ?_, kept⟩
    simp only [scalarOperation, answered]
  progress_step _ runs := runs.withClock _

/-! ### A flipped bit -/

theorem xor_one_ne_self (word : Word) : word ^^^ 1 ≠ word := by
  intro same
  have zero : word ^^^ (word ^^^ 1) = 0#32 := by rw [same, BitVec.xor_self]
  rw [← BitVec.xor_assoc, BitVec.xor_self, BitVec.zero_xor] at zero
  exact absurd zero (by decide)

theorem scalarDatapath_flipping (config : HartConfig) (faulty : Word)
    {code : Word} (fits : code < 8) (a b : Word) :
    config.scalarDatapath (Datapath.flipping faulty) code code 0 a b =
      if code = faulty ∧ config.hwOps.has code = true then
        scalarReference code a b ^^^ 1
      else scalarReference code a b := by
  rw [scalarReference_eq_model fits]
  unfold HartConfig.scalarDatapath Datapath.flipping
  by_cases left : config.hwOps.has code = true
  · simp [left]
  · simp [left]

/-- What a comparison with scalar arithmetic makes of a flipped low bit: if the
fault is caught, every pair is listed with that bit flipped, and otherwise none
is. -/
structure Report.FindsFlips (report : Report (Word × Word) Word)
    (code : Word) (pairs : List (Word × Word)) (caught : Prop)
    [Decidable caught] : Prop where
  compared : report.compared = pairs.length
  errors : report.errors = if caught then pairs.length else 0
  mismatches : report.mismatches.toList =
    if caught then
      pairs.mapIdx fun index pair =>
        { index, input := pair
          got := scalarReference code pair.1 pair.2 ^^^ 1
          expected := scalarReference code pair.1 pair.2 }
    else []

theorem Report.Lists.findsFlips {report : Report (Word × Word) Word}
    {config : HartConfig} {faulty code : Word} {pairs : List (Word × Word)}
    (fits : code < 8)
    (lists : report.Lists pairs
      (fun pair => config.scalarDatapath (Datapath.flipping faulty) code code 0
        pair.1 pair.2)
      (fun pair => scalarReference code pair.1 pair.2)) :
    report.FindsFlips code pairs
      (code = faulty ∧ config.hwOps.has code = true) := by
  obtain ⟨compared, errors, mismatches⟩ := lists
  simp only [scalarDatapath_flipping config faulty fits] at errors mismatches
  by_cases caught : code = faulty ∧ config.hwOps.has code = true
  · simp only [if_pos caught] at errors mismatches
    have differ : ∀ pair : Word × Word,
        (scalarReference code pair.1 pair.2 ^^^ 1 ==
          scalarReference code pair.1 pair.2) = false := by
      intro pair
      exact beq_eq_false_iff_ne.mpr (xor_one_ne_self _)
    rw [disagreements_of_forall_ne differ] at errors mismatches
    refine ⟨compared, ?_, ?_⟩
    · rw [errors, List.length_mapIdx, if_pos caught]
    · rw [mismatches, if_pos caught]
  · simp only [if_neg caught] at errors mismatches
    rw [disagreements_of_forall_eq fun pair => beq_self_eq_true _]
      at errors mismatches
    refine ⟨compared, ?_, ?_⟩
    · rw [errors, if_neg caught, List.length_nil]
    · rw [mismatches, if_neg caught]

/-- A fresh hart whose datapath flips the low bit of one operation, compared on
any operation with scalar arithmetic, in two phases or in turns and whatever
happens next to the hart: no comparison faults, and the flipped bit shows on
all pairs if the operation is the faulty one and left to the datapath, and on
none otherwise. -/
theorem injected_fault_found [Clocked (HardwareBinding (Hart H) × ω)]
    (clock : Clock) (config : HartConfig) (world : ω) (faulty : Word)
    {code : Word} (fits : code < 8)
    (charge : Word × Word → Clock × ω → Clock × ω)
    (announce : Progress → Clock × ω → Clock × ω) (interval : Nat)
    (pairs : List (Word × Word)) :
    let hart : Hart H := Hart.initial clock config (Datapath.flipping faulty)
    let timed := compareTimed (scalarArithmetic code charge)
      (scalarOperation code) pairs ({ emitter := hart }, world)
    let streamed := compareStreaming interval (scalarArithmetic code charge)
      (scalarOperation code) (fun progress => elsewhere (announce progress))
      pairs ({ emitter := hart }, world)
    let caught := code = faulty ∧ config.hwOps.has code = true
    (∃ report, timed.1 = .ok report ∧ report.FindsFlips code pairs caught) ∧
      ∃ report, streamed.1 = .ok report ∧
        report.FindsFlips code pairs caught := by
  intro hart timed streamed caught
  have steady := scalarOperation_steady (H := H) config
    (Datapath.flipping faulty) fits charge announce
  let start : HardwareBinding (Hart H) × ω := ({ emitter := hart }, world)
  have runs : start.1.emitter.Runs config (Datapath.flipping faulty) :=
    Hart.Runs.initial clock config _
  obtain ⟨timedReport, timedRan, timedLists⟩ :=
    steady.compareTimed_lists pairs runs
  obtain ⟨streamedReport, streamedRan, streamedLists⟩ :=
    steady.compareStreaming_lists interval pairs runs
  exact ⟨⟨timedReport, timedRan, timedLists.findsFlips fits⟩,
    streamedReport, streamedRan, streamedLists.findsFlips fits⟩

/-- Subtraction is carried out by the datapath and found faulty; disjunction is
emulated, so that its fault does not show. -/
theorem injected_fault_found_subtraction :
    let start (faulty : Word) : HardwareBinding (Hart Unit) × Nat :=
      ({ emitter := Hart.initial Clock.zero {} (Datapath.flipping faulty) }, 0)
    let charge (_ : Word × Word) (state : Clock × Nat) : Clock × Nat :=
      (state.1.advance 1, state.2)
    let announce (progress : Progress) (state : Clock × Nat) : Clock × Nat :=
      (state.1, state.2 + progress.errors)
    (∃ report,
      (compareStreaming 1 (scalarArithmetic 1 charge) (scalarOperation 1)
        (fun progress => elsewhere (announce progress)) [(3, 5), (0, 0)]
        (start 1)).1 = .ok report ∧
      report.mismatches.toList =
        [⟨0, (3, 5), 0xffffffff, 0xfffffffe⟩, ⟨1, (0, 0), 1, 0⟩]) ∧
    ∃ report,
      (compareStreaming 1 (scalarArithmetic 3 charge) (scalarOperation 3)
        (fun progress => elsewhere (announce progress)) [(3, 5), (0, 0)]
        (start 3)).1 = .ok report ∧
      report.errors = 0 := by
  intro start charge announce
  let clocked : Clocked (HardwareBinding (Hart Unit) × Nat) :=
    { clock := fun state => state.1.emitter.clock
      advance := fun cycles => elsewhere fun state =>
        (state.1.advance cycles, state.2) }
  obtain ⟨-, caught, ran, flips⟩ := injected_fault_found (H := Unit) Clock.zero {}
    0 1 (by decide : (1 : Word) < 8) charge announce 1 [(3, 5), (0, 0)]
  obtain ⟨-, missed, ran', flips'⟩ := injected_fault_found (H := Unit) Clock.zero
    {} 0 3 (by decide : (3 : Word) < 8) charge announce 1 [(3, 5), (0, 0)]
  refine ⟨⟨caught, ran, ?_⟩, missed, ran', ?_⟩
  · rw [flips.mismatches, if_pos (by decide)]
    decide
  · rw [flips'.errors, if_neg (by decide)]

end VectorBench
