import VectorBench.Proofs.VectorUnit.Atomicity
import VectorBench.Proofs.VectorUnit.Masks

/-!
# Reachable configurations

A vector unit is configured as the last accepted request says, whatever was
called since.  The vector length then fits the groups that the unit accepts, so
a call can only fail in the checks of its operands, and it answers with the
fault of the first check that fails.
-/

namespace VectorBench

open VRegFile

/-! ### Checks -/

/-- A check of an operand, with the fault that a call gives where it fails. -/
structure Check where
  passes : Bool
  fault : Fault

namespace Check

/-- The answer of a call that makes checks in order. -/
def answer : List Check → Except Fault Unit
  | [] => .ok ()
  | check :: later => if check.passes then answer later else .error check.fault

end Check

namespace VectorUnit

def groupChecks (unit : VectorUnit) (registers : List VReg) : List Check :=
  registers.map fun register =>
    { passes := unit.startsGroup register, fault := .illegalRegister }

/-- Elements in memory have to be as wide as those of the unit, a register has
to start a group, and there have to be as many elements as the vector length
says. -/
def memoryChecks (unit : VectorUnit) (width : ElementWidth) (register : VReg)
    (length : Nat) : List Check :=
  [{ passes := decide (width = unit.sew), fault := .invalidVectorConfig },
    { passes := unit.startsGroup register, fault := .illegalRegister },
    { passes := decide (unit.vl ≤ length), fault := .vectorLength }]

end VectorUnit

/-- The checks that an operation on elements makes before it writes. -/
def ElementOp.checks (unit : VectorUnit) : ElementOp → List Check
  | .load width vd source => unit.memoryChecks width vd source.length
  | .add vd vs2 vs1 | .addMasked vd _ _ vs2 vs1 =>
      unit.groupChecks [vd, vs2, vs1]
  | .mulScalar vd vs2 _ => unit.groupChecks [vd, vs2]
  | .moveScalar vd _ | .position vd => unit.groupChecks [vd]

namespace UnitCall

def checks (state : VectorState) : UnitCall → List Check
  | .configure _ sew lmul =>
      [{ passes := sew.isSome && lmul.isSome, fault := .invalidVectorConfig }]
  | .element op => op.checks state.unit
  | .store vs =>
      state.unit.memoryChecks state.slice.width vs state.slice.places.length
  | .greater _ vs2 vs1 | .equal _ vs2 vs1 => state.unit.groupChecks [vs2, vs1]
  | .maskXor _ _ _ => []

/-- What a masked sum leaves to its callers; other calls leave nothing. -/
def Guaranteed (unit : VectorUnit) : UnitCall → Prop
  | .element op => op.Guaranteed unit
  | _ => True

end UnitCall

namespace VectorUnit

variable {unit : VectorUnit} {vd vs vs1 vs2 : VReg} {index : Nat}

theorem answer_groupChecks (registers : List VReg) :
    Check.answer (unit.groupChecks registers) =
      if ∀ register ∈ registers, unit.startsGroup register then .ok ()
      else .error .illegalRegister := by
  induction registers with
  | nil => rfl
  | cons register registers ih =>
      rw [groupChecks, List.map_cons, Check.answer, ← groupChecks, ih]
      by_cases starts : unit.startsGroup register <;> simp [starts]

/-- Work on groups that succeeds where they are accepted answers as their
checks do. -/
theorem onGroups_answer {registers : List VReg}
    {work : VRegFile → Except Fault Unit × VRegFile}
    (succeeds : (∀ register ∈ registers, unit.startsGroup register) →
      (unit.onGroups registers work).1 = .ok ()) :
    (unit.onGroups registers work).1 =
      Check.answer (unit.groupChecks registers) := by
  rw [answer_groupChecks]
  by_cases starts : ∀ register ∈ registers, unit.startsGroup register
  · rw [if_pos starts, succeeds starts]
  · rw [if_neg starts, onGroups_rejected starts]

theorem compare_answer {holds : Word → Word → Bool} :
    (unit.compare vd vs2 vs1 holds).1 =
      Check.answer (unit.groupChecks [vs2, vs1]) := by
  apply onGroups_answer
  intro starts
  rw [onGroups_accepted starts]
  apply computeMask_ok
  intro index below
  rw [Nat.zero_add] at below
  exact combine_ok (starts vs2 (by simp)) (starts vs1 (by simp)) below

theorem vle_answer {width : ElementWidth} {source : List (BitVec width.bits)} :
    (unit.vle width vd source).1 =
      Check.answer (unit.memoryChecks width vd source.length) := by
  unfold memoryChecks
  by_cases same : width = unit.sew
  · subst same
    by_cases starts : unit.startsGroup vd
    · have groups : ∀ register ∈ [vd], unit.startsGroup register := by
        simpa using starts
      by_cases long : unit.vl ≤ source.length
      · have guaranteed :
            (ElementOp.load unit.sew vd source).Guaranteed unit := trivial
        obtain ⟨after, ran, _pointwise⟩ :=
          ElementOp.run_accepted guaranteed ⟨groups, rfl, long⟩
        rw [ElementOp.run] at ran
        simp [Check.answer, ran, starts, long]
      · have short : (source.take unit.vl).length < unit.vl := by
          rw [List.length_take]
          omega
        rw [vle, if_neg (fun differs => differs rfl), onGroups_accepted groups]
        simp only [short, if_true]
        simp [Check.answer, starts, long]
    · have groups : ¬ ∀ register ∈ [vd], unit.startsGroup register := by
        simpa using starts
      rw [vle, if_neg (fun differs => differs rfl), onGroups_rejected groups]
      simp [Check.answer, starts]
  · rw [vle, if_pos same]
    simp [Check.answer, same]

theorem store_answer {width : ElementWidth}
    {destination : List (BitVec width.bits)} :
    (unit.store width vs destination).1 =
      Check.answer (unit.memoryChecks width vs destination.length) := by
  unfold memoryChecks
  by_cases same : width = unit.sew
  · subst same
    by_cases starts : unit.startsGroup vs
    · by_cases long : unit.vl ≤ destination.length
      · simp [Check.answer, store_accepted starts long, starts, long]
      · have short : (destination.take unit.vl).length < unit.vl := by
          rw [List.length_take]
          omega
        rw [store, if_neg (fun differs => differs rfl),
          if_neg (by simp [starts]), if_pos short]
        simp [Check.answer, starts, long]
    · rw [store, if_neg (fun differs => differs rfl), if_pos (by simp [starts])]
      simp [Check.answer, starts]
  · rw [store, if_pos same]
    simp [Check.answer, same]

end VectorUnit

open VectorUnit

theorem ElementOp.run_answer {unit : VectorUnit} {op : ElementOp}
    (guaranteed : op.Guaranteed unit) :
    (op.run unit).1 = Check.answer (op.checks unit) := by
  cases op with
  | load width vd source => exact vle_answer
  | add | addMasked | mulScalar | moveScalar | position =>
      apply onGroups_answer
      intro starts
      exact (ElementOp.run_ok_iff guaranteed).mpr ⟨starts, trivial⟩

namespace UnitCall

theorem run_answer {call : UnitCall} {state : VectorState}
    (guaranteed : call.Guaranteed state.unit) :
    (call.run state).1 = Check.answer (call.checks state) := by
  cases call with
  | configure avl sew lmul => cases sew <;> cases lmul <;> rfl
  | element op => exact ElementOp.run_answer guaranteed
  | store vs => exact store_answer
  | greater vd vs2 vs1 | equal vd vs2 vs1 => exact compare_answer
  | maskXor vd vs2 vs1 =>
      exact computeMask_ok (fun _index _below _file => ⟨_, rfl⟩) state.unit.vregs

end UnitCall

/-! ### Configurations -/

structure Configuration where
  vl : Nat
  sew : ElementWidth
  lmul : Lmul
deriving DecidableEq

namespace VectorUnit

def configuration (unit : VectorUnit) : Configuration where
  vl := unit.vl
  sew := unit.sew
  lmul := unit.lmul

/-- Work on groups keeps the configuration, also where it fails. -/
theorem configuration_onGroups (unit : VectorUnit) (registers : List VReg)
    (work : VRegFile → Except Fault Unit × VRegFile) :
    (unit.onGroups registers work).2.configuration = unit.configuration := by
  by_cases starts : ∀ register ∈ registers, unit.startsGroup register
  · rw [onGroups_accepted starts]
    rfl
  · rw [onGroups_rejected starts]

/-- A request for a configuration, made with two codes and a number of
elements, is refused without effect, or installs the vector length that it
answers. -/
def Configures (unit : VectorUnit) (avl : Nat) (sewCode lmulCode : Word) :
    Prop :=
  let requested := unit.vsetvl avl (ElementWidth.ofBits? sewCode)
    (Lmul.ofRegisters? lmulCode)
  if sewCode ∈ [8, 16, 32] ∧ lmulCode ∈ [1, 2, 4, 8] then
    let vl := min avl (128 / sewCode.toNat * lmulCode.toNat)
    ∃ after, requested = (.ok vl, after) ∧ after.vl = vl ∧
      after.sew.bits = sewCode.toNat ∧ after.lmul.registers = lmulCode.toNat ∧
      after.vregs = unit.vregs
  else requested = (.error .invalidVectorConfig, unit)

end VectorUnit

theorem ElementWidth.ofBits?_eq_none {code : Word} (invalid : code ∉ [8, 16, 32]) :
    ElementWidth.ofBits? code = none := by
  apply List.find?_eq_none.mpr
  intro width _member selected
  rw [decide_eq_true_iff] at selected
  subst selected
  cases width <;> exact invalid (by decide)

theorem Lmul.ofRegisters?_eq_none {code : Word} (invalid : code ∉ [1, 2, 4, 8]) :
    Lmul.ofRegisters? code = none := by
  apply List.find?_eq_none.mpr
  intro lmul _member selected
  rw [decide_eq_true_iff] at selected
  subst selected
  cases lmul <;> exact invalid (by decide)

namespace VectorUnit

theorem configures (unit : VectorUnit) (avl : Nat) (sewCode lmulCode : Word) :
    unit.Configures avl sewCode lmulCode := by
  unfold Configures
  by_cases width : sewCode ∈ [8, 16, 32]
  · by_cases group : lmulCode ∈ [1, 2, 4, 8]
    · rw [if_pos ⟨width, group⟩]
      simp only [List.mem_cons, List.not_mem_nil, or_false] at width group
      rcases width with rfl | rfl | rfl <;>
        rcases group with rfl | rfl | rfl | rfl <;>
          exact ⟨_, rfl, rfl, rfl, rfl, rfl⟩
    · rw [if_neg (fun valid => group valid.2), Lmul.ofRegisters?_eq_none group]
      cases ElementWidth.ofBits? sewCode <;> rfl
  · rw [if_neg (fun valid => width valid.1), ElementWidth.ofBits?_eq_none width]
    rfl

end VectorUnit

namespace UnitCall

/-- The configuration that a call selects, if it is a valid request for one. -/
def selects? : UnitCall → Option Configuration
  | .configure avl (some sew) (some lmul) =>
      some { vl := min avl (128 / sew.bits * lmul.registers), sew, lmul }
  | _ => none

/-- The unit after some calls of a new unit, each with the memory that it is
given. -/
def unitAfter (calls : List (UnitCall × MemorySlice)) : VectorUnit :=
  calls.foldl (fun unit (call, slice) => (call.run { unit, slice }).2.unit)
    .initial

/-- The configuration selected last, which is that of a new unit if none was. -/
def lastSelected (calls : List (UnitCall × MemorySlice)) : Configuration :=
  ((calls.map Prod.fst).filterMap selects?).getLastD
    { vl := 0, sew := .e32, lmul := .m1 }

/-- Only a valid request changes the configuration. -/
theorem configuration_run (call : UnitCall) (state : VectorState) :
    (call.run state).2.unit.configuration =
      call.selects?.getD state.unit.configuration := by
  cases call with
  | configure avl sew lmul => cases sew <;> cases lmul <;> rfl
  | element op =>
      cases op with
      | load width vd source =>
          simp only [run, ElementOp.run, vle]
          split
          · rfl
          · exact configuration_onGroups _ _ _
      | add | addMasked | mulScalar | moveScalar | position =>
          exact configuration_onGroups _ _ _
  | store vs => rfl
  | greater vd vs2 vs1 | equal vd vs2 vs1 =>
      exact configuration_onGroups _ _ _
  | maskXor vd vs2 vs1 =>
      simp only [run, vmxor]
      exact configuration_onGroups _ _ _

theorem configuration_unitAfter (calls : List (UnitCall × MemorySlice)) :
    (unitAfter calls).configuration = lastSelected calls := by
  unfold unitAfter lastSelected
  have initial : VectorUnit.initial.configuration =
      { vl := 0, sew := .e32, lmul := .m1 } := rfl
  rw [← initial]
  -- Calls are split off in front, so the unit before them is generalised.
  generalize VectorUnit.initial = unit
  induction calls generalizing unit with
  | nil => rfl
  | cons entry calls ih =>
      obtain ⟨call, slice⟩ := entry
      rw [List.foldl_cons, ih, configuration_run, List.map_cons]
      cases selected : call.selects? with
      | none => rw [List.filterMap_cons_none selected, Option.getD_none]
      | some configuration =>
          rw [List.filterMap_cons_some selected, List.getLastD_cons,
            Option.getD_some]

end UnitCall

/-! ### What a reachable configuration is good for -/

namespace VectorUnit

variable {unit : VectorUnit} {register : VReg} {index : Nat}

/-- An element lies in one word of its group, and so of the file. -/
def LiesInGroup (unit : VectorUnit) (register : VReg) (index : Nat) : Prop :=
  ∃ (word : Fin 128) (offset : Nat),
    locate? register unit.sew index = some (word, offset) ∧
    offset + unit.sew.bits ≤ 32 ∧ 4 * register.toNat ≤ word ∧
    word < 4 * (register.toNat + unit.lmul.registers)

theorem liesInGroup_of_lt (starts : unit.startsGroup register)
    (below : index < unit.vl) : unit.LiesInGroup register index := by
  have inside := lt_vlmax below
  have ends : elementPlace register unit.sew index + unit.sew.bits ≤
      128 * (register.toNat + unit.lmul.registers) :=
    elementPlace_add_bits_le inside
  have first := elementPlace_mono register unit.sew (Nat.zero_le index)
  rw [elementPlace_zero] at first
  have fits := offset_add_bits_le unit.sew index
  have positive := unit.sew.bits_pos
  obtain ⟨word, found, located⟩ :=
    locate?_eq_some (contains_of_startsGroup starts inside)
  exact ⟨word, _, found, fits, by omega, by omega⟩

end VectorUnit

namespace UnitCall

/-- After any calls of a new unit, failed ones among them, the configuration is
the valid one that was selected last, and the vector length fits its groups.
Every element and every mask bit below the vector length then has a place of
its own, and a call fails in its checks or not at all. -/
theorem unitAfter_configured (calls : List (UnitCall × MemorySlice)) :
    let unit := unitAfter calls
    (unit.configuration = lastSelected calls ∧
      unit.sew.bits ∈ [8, 16, 32] ∧ unit.lmul.registers ∈ [1, 2, 4, 8] ∧
      unit.vl ≤ 128 / unit.sew.bits * unit.lmul.registers ∧
      128 / unit.sew.bits * unit.lmul.registers ≤ 128) ∧
    (∀ avl sewCode lmulCode, unit.Configures avl sewCode lmulCode) ∧
    (∀ register, unit.startsGroup register → ∀ index, index < unit.vl →
      unit.LiesInGroup register index) ∧
    (∀ index, index < unit.vl → index % vectorBits = index) ∧
    ∀ (call : UnitCall) (slice : MemorySlice), call.Guaranteed unit →
      (call.run { unit, slice }).1 = Check.answer (call.checks { unit, slice }) := by
  intro unit
  have widths : unit.sew.bits ∈ [8, 16, 32] := by
    cases unit.sew <;> decide
  have groups : unit.lmul.registers ∈ [1, 2, 4, 8] := by
    cases unit.lmul <;> decide
  refine ⟨⟨configuration_unitAfter calls, widths, groups, unit.vl_le,
    vlmax_le unit.sew unit.lmul⟩, unit.configures, ?_, ?_, ?_⟩
  · intro register starts index below
    exact liesInGroup_of_lt starts below
  · intro index below
    exact Nat.mod_eq_of_lt (Nat.lt_of_lt_of_le below unit.vl_le_vectorBits)
  · intro call slice guaranteed
    exact run_answer guaranteed

/-- A unit asked for more bytes than eight registers hold, and then for a width
that there is not and for a group that starts nowhere. -/
def crowdedCalls : List (UnitCall × MemorySlice) :=
  [(.configure 300 (some .e8) (some .m8), { width := .e8, places := [] }),
    (.configure 7 none (some .m1), { width := .e8, places := [] }),
    (.element (.position 4), { width := .e8, places := [] })]

/-- The last byte of the last group, and a load from memory that is too short
into a group that starts nowhere. -/
theorem unitAfter_configured_crowded :
    (unitAfter crowdedCalls).configuration =
      { vl := 128, sew := .e8, lmul := .m8 } ∧
    (unitAfter crowdedCalls).startsGroup 24 ∧
    (unitAfter crowdedCalls).LiesInGroup 24 127 ∧
    127 % vectorBits = 127 ∧
    (UnitCall.element (.load .e8 12 [1, 2])).Guaranteed
      (unitAfter crowdedCalls) ∧
    ((unitAfter crowdedCalls).vle .e8 12 [1, 2]).1 =
      .error .illegalRegister := by
  obtain ⟨⟨configured, -⟩, -, elements, masks, answers⟩ :=
    unitAfter_configured crowdedCalls
  have starts : (unitAfter crowdedCalls).startsGroup 24 := by decide
  have below : 127 < (unitAfter crowdedCalls).vl := by decide
  refine ⟨configured, starts, elements 24 starts 127 below, masks 127 below,
    trivial, ?_⟩
  exact answers (.element (.load .e8 12 [1, 2])) { width := .e8, places := [] }
    trivial

end UnitCall

end VectorBench
