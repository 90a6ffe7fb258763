import Mathlib.Control.Monad.Basic
import VectorBench.Proofs.VectorUnit.Memory

/-!
# Calls that fail

A call of the vector unit that fails leaves the registers, the configuration
and the memory as they were, because the checks of its operands rule out any
later failure.  A masked sum is the exception.  Its `maskedoff` operand is not
checked, so the sum can stop among its elements, and it keeps those that it has
written.
-/

namespace VectorBench

open VRegFile

/-- The memory that a store writes to. -/
structure MemorySlice where
  width : ElementWidth
  places : List (BitVec width.bits)

/-- All that a call of the vector unit can change. -/
structure VectorState where
  unit : VectorUnit
  slice : MemorySlice

/-- A call of the vector unit with its operands. -/
inductive UnitCall where
  | configure (avl : Nat) (sew : Option ElementWidth) (lmul : Option Lmul)
  | element (op : ElementOp)
  | store (vs : VReg)
  | greater (vd vs2 vs1 : VReg)
  | equal (vd vs2 vs1 : VReg)
  | maskXor (vd vs2 vs1 : VReg)

namespace UnitCall

def run : UnitCall → VectorState → Except Fault Unit × VectorState
  | .configure avl sew lmul, state =>
      let (result, unit) := state.unit.vsetvl avl sew lmul
      (result.map fun _ => (), { state with unit })
  | .element op, state =>
      let (result, unit) := op.run state.unit
      (result, { state with unit })
  | .store vs, state =>
      let (result, places) :=
        state.unit.store state.slice.width vs state.slice.places
      (result, { state with slice := { width := state.slice.width, places } })
  | .greater vd vs2 vs1, state =>
      let (result, unit) := state.unit.vmsgt vd vs2 vs1
      (result, { state with unit })
  | .equal vd vs2 vs1, state =>
      let (result, unit) := state.unit.vmseq vd vs2 vs1
      (result, { state with unit })
  | .maskXor vd vs2 vs1, state =>
      let (result, unit) := state.unit.vmxor vd vs2 vs1
      (result, { state with unit })

/-- The state after some calls of a new unit, failed ones among them. -/
def reached (slice : MemorySlice) (calls : List UnitCall) : VectorState :=
  calls.foldl (fun state call => (call.run state).2)
    { unit := .initial, slice }

/-- A masked sum that finds no element `stop` in `maskedoff`, where the mask
asks for one.  Only elements of `vd` before that one may have changed. -/
inductive StopsHalfway (before : VectorState) :
    UnitCall → Fault → VectorState → Prop where
  | addMasked {vd mask maskedoff vs2 vs1 : VReg} {stop : Nat}
      {vregs : VRegFile} :
      stop < before.unit.vl →
      ¬ Contains maskedoff before.unit.sew stop →
      vregs.readMaskBit mask stop = false →
      SameOutside (elementPlace vd before.unit.sew 0)
        (elementPlace vd before.unit.sew stop) vregs before.unit.vregs →
      StopsHalfway before (.element (.addMasked vd mask maskedoff vs2 vs1))
        .illegalRegister
        { before with unit := { before.unit with vregs } }

end UnitCall

namespace VectorUnit

variable {unit after : VectorUnit} {vd vs1 vs2 : VReg} {fault : Fault}

theorem vsetvl_failed {avl : Nat} {sew : Option ElementWidth}
    {lmul : Option Lmul}
    (failed : (unit.vsetvl avl sew lmul).1 = .error fault) :
    (unit.vsetvl avl sew lmul).2 = unit := by
  cases sew with
  | none => rfl
  | some sew =>
      cases lmul with
      | none => rfl
      | some lmul => cases failed

/-- Work on groups fails in the check of the registers or in itself. -/
theorem onGroups_failed {registers : List VReg}
    {work : VRegFile → Except Fault Unit × VRegFile}
    (failed : unit.onGroups registers work = (.error fault, after)) :
    after = unit ∨
      (∀ register ∈ registers, unit.startsGroup register) ∧
        ∃ vregs, work unit.vregs = (.error fault, vregs) ∧
          after = { unit with vregs } := by
  by_cases starts : ∀ register ∈ registers, unit.startsGroup register
  · right
    rw [onGroups_accepted starts, Prod.mk.injEq] at failed
    obtain ⟨reason, rfl⟩ := failed
    exact ⟨starts, _, Prod.ext reason rfl, rfl⟩
  · left
    rw [onGroups_rejected starts, Prod.mk.injEq] at failed
    exact failed.2.symm

/-- Elements of two groups can be combined whatever the registers hold. -/
theorem combine_ok {α : Type} {function : Word → Word → α} {index : Nat}
    (left : unit.startsGroup vs2) (right : unit.startsGroup vs1)
    (below : index < unit.vl) (file : VRegFile) :
    ∃ value, file.combine unit.sew vs2 vs1 function index = .ok value := by
  have inside := lt_vlmax below
  unfold combine
  rw [readElement_eq (contains_of_startsGroup left inside),
    readElement_eq (contains_of_startsGroup right inside)]
  exact ⟨_, rfl⟩

theorem compare_failed {holds : Word → Word → Bool}
    (failed : unit.compare vd vs2 vs1 holds = (.error fault, after)) :
    after = unit := by
  rcases onGroups_failed failed with unchanged | ⟨starts, vregs, ran, _same⟩
  · exact unchanged
  · have computes : ∀ index, index < 0 + unit.vl → ∀ file : VRegFile,
        ∃ value, file.combine unit.sew vs2 vs1 holds index = .ok value := by
      intro index below
      rw [Nat.zero_add] at below
      exact combine_ok (starts vs2 (by simp)) (starts vs1 (by simp)) below
    have succeeds := congrArg Prod.fst ran
    rw [computeMask_ok computes unit.vregs] at succeeds
    cases succeeds

theorem vmxor_failed
    (failed : unit.vmxor vd vs2 vs1 = (.error fault, after)) :
    after = unit := by
  rcases onGroups_failed failed with unchanged | ⟨_starts, vregs, ran, _same⟩
  · exact unchanged
  · have succeeds := congrArg Prod.fst ran
    rw [computeMask_ok (fun _index _below _file => ⟨_, rfl⟩)] at succeeds
    cases succeeds

/-- Once its groups are accepted, a masked sum can only stop where it finds no
element in `maskedoff`. -/
theorem vaddMasked_failed {mask maskedoff : VReg}
    (failed : unit.vaddMasked vd mask maskedoff vs2 vs1 =
      (.error fault, after)) :
    after = unit ∨
      ∃ stop vregs, stop < unit.vl ∧
        ¬ Contains maskedoff unit.sew stop ∧
        vregs.readMaskBit mask stop = false ∧
        SameOutside (elementPlace vd unit.sew 0)
          (elementPlace vd unit.sew stop) vregs unit.vregs ∧
        fault = .illegalRegister ∧ after = { unit with vregs } := by
  rcases onGroups_failed failed with unchanged | ⟨starts, vregs, ran, same⟩
  · exact .inl unchanged
  · right
    have destination : unit.startsGroup vd := starts vd (by simp)
    have left : unit.startsGroup vs2 := starts vs2 (by simp)
    have right : unit.startsGroup vs1 := starts vs1 (by simp)
    have inside : ∀ index, index < 0 + unit.vl →
        Contains vd unit.sew index := by
      intro index below
      rw [Nat.zero_add] at below
      exact contains_of_startsGroup destination (lt_vlmax below)
    obtain ⟨stop, _above, below, stopped, outside⟩ :=
      computeElements_stopped inside ran
    rw [Nat.zero_add] at below
    cases masked : vregs.readMaskBit mask stop with
    | true =>
        obtain ⟨value, computed⟩ : ∃ value,
            vregs.combine unit.sew vs2 vs1 Word.plus stop = .ok value :=
          combine_ok left right below vregs
        rw [masked, if_pos rfl, computed] at stopped
        cases stopped
    | false =>
        rw [masked, if_neg Bool.false_ne_true] at stopped
        by_cases found : Contains maskedoff unit.sew stop
        · rw [readElement_eq found] at stopped
          cases stopped
        · rw [readElement_outside found] at stopped
          cases stopped
          exact ⟨stop, vregs, below, found, masked, outside, rfl, same⟩

theorem store_failed {width : ElementWidth} {vs : VReg}
    {destination memory : List (BitVec width.bits)}
    (failed : unit.store width vs destination = (.error fault, memory)) :
    memory = destination := by
  by_cases accepts : unit.StoreAccepts width vs destination
  · obtain ⟨rfl, starts, long⟩ := accepts
    rw [store_accepted starts long] at failed
    cases failed
  · obtain ⟨reason, rejected⟩ := store_rejected accepts
    rw [rejected] at failed
    cases failed
    rfl

end VectorUnit

theorem ElementOp.run_failed {unit after : VectorUnit} {op : ElementOp}
    {fault : Fault} (guaranteed : op.Guaranteed unit)
    (failed : op.run unit = (.error fault, after)) : after = unit := by
  by_cases accepts : op.Accepts unit
  · obtain ⟨computed, ran, _pointwise⟩ := run_accepted guaranteed accepts
    rw [ran] at failed
    cases failed
  · obtain ⟨reason, rejected⟩ := run_rejected accepts
    rw [rejected] at failed
    cases failed
    rfl

namespace UnitCall

variable {before : VectorState} {fault : Fault}

theorem setUnit_eq_self {unit : VectorUnit} (same : unit = before.unit) :
    { before with unit } = before := by
  rw [same]

theorem run_element_failed {op : ElementOp} {unit : VectorUnit}
    (failed : op.run before.unit = (.error fault, unit)) :
    { before with unit } = before ∨
      StopsHalfway before (.element op) fault { before with unit } := by
  cases op with
  | addMasked vd mask maskedoff vs2 vs1 =>
      rcases VectorUnit.vaddMasked_failed failed with
        unchanged | ⟨stop, vregs, below, missing, masked, outside, rfl, rfl⟩
      · exact .inl (setUnit_eq_self unchanged)
      · exact .inr (.addMasked below missing masked outside)
  | load | add | mulScalar | moveScalar | position =>
      left
      exact setUnit_eq_self (ElementOp.run_failed (by trivial) failed)

/-- A failing call changes nothing, except that a masked sum may stop
halfway. -/
theorem failed_call {call : UnitCall} {after : VectorState}
    (failed : call.run before = (.error fault, after)) :
    after = before ∨ StopsHalfway before call fault after := by
  obtain ⟨reason, rfl⟩ := Prod.mk.inj failed
  cases call with
  | configure avl sew lmul =>
      left
      cases configured : (before.unit.vsetvl avl sew lmul).1 with
      | ok vl =>
          simp only [configured] at reason
          cases reason
      | error refused =>
          exact setUnit_eq_self (VectorUnit.vsetvl_failed configured)
  | element op => exact run_element_failed (Prod.ext reason rfl)
  | store vs =>
      left
      have same : _ = before.slice.places :=
        VectorUnit.store_failed (Prod.ext reason rfl)
      simp only [same]
  | greater vd vs2 vs1 | equal vd vs2 vs1 =>
      left
      exact setUnit_eq_self (VectorUnit.compare_failed (Prod.ext reason rfl))
  | maskXor vd vs2 vs1 =>
      left
      exact setUnit_eq_self (VectorUnit.vmxor_failed (Prod.ext reason rfl))

/-- A unit in groups of two registers, of which `v30` and `v31` hold sevens. -/
def sevens : VectorState :=
  reached { width := .e32, places := [] }
    [.configure 8 (some .e32) (some .m2), .element (.moveScalar 30 7)]

/-- The elements of `maskedoff` are those of `v31` and of a register past the
last one. -/
def maskedoffPastEnd : UnitCall :=
  .element (.addMasked 2 0 31 4 6)

theorem maskedoffPastEnd_fails :
    (maskedoffPastEnd.run sevens).1 = .error .illegalRegister := by
  decide

theorem maskedoffPastEnd_writes :
    (maskedoffPastEnd.run sevens).2.unit.vregs.readWord 2 0 ≠
      sevens.unit.vregs.readWord 2 0 := by
  decide

theorem failed_call_maskedoffPastEnd :
    StopsHalfway sevens maskedoffPastEnd .illegalRegister
      (maskedoffPastEnd.run sevens).2 := by
  have failed : maskedoffPastEnd.run sevens =
      (.error .illegalRegister, (maskedoffPastEnd.run sevens).2) :=
    Prod.ext maskedoffPastEnd_fails rfl
  rcases failed_call failed with unchanged | halfway
  · exact absurd
      (congrArg (fun state => state.unit.vregs.readWord 2 0) unchanged)
      maskedoffPastEnd_writes
  · exact halfway

/-- Not every failing call of a unit in use leaves its registers as they
were. -/
theorem failing_masked_sum_writes :
    ¬ ∀ (slice : MemorySlice) (calls : List UnitCall) (call : UnitCall)
        (fault : Fault) (after : VectorState),
      call.run (reached slice calls) = (.error fault, after) →
      after.unit.vregs = (reached slice calls).unit.vregs := by
  intro unchanged
  have same := unchanged { width := .e32, places := [] }
    [.configure 8 (some .e32) (some .m2), .element (.moveScalar 30 7)]
    maskedoffPastEnd .illegalRegister _ (Prod.ext maskedoffPastEnd_fails rfl)
  exact maskedoffPastEnd_writes (congrArg (·.readWord 2 0) same)

end UnitCall

end VectorBench
