import Mathlib.Algebra.Group.Int.Defs
import VectorBench.Proofs.VectorUnit.Pointwise

/-!
# Elements in memory

A store copies the elements of a group over the first elements of memory, so
it gives back what a load has put into the group.
-/

namespace VectorBench

open VRegFile

namespace ElementType

/-- The least integer that a type holds. -/
def least (type : ElementType) : Int :=
  if type.isSigned then -2 ^ (type.width.bits - 1) else 0

/-- The integers that a type holds lie below this one. -/
def bound (type : ElementType) : Int :=
  if type.isSigned then 2 ^ (type.width.bits - 1) else 2 ^ type.width.bits

/-- A type holds an integer. -/
def InRange (type : ElementType) (value : Int) : Prop :=
  type.least ≤ value ∧ value < type.bound

instance (type : ElementType) : DecidablePred type.InRange :=
  fun _ => inferInstanceAs (Decidable (_ ∧ _))

/-- An element stands for the integer it was made from. -/
theorem toInt_ofInt {type : ElementType} {value : Int}
    (inRange : type.InRange value) : type.toInt (type.ofInt value) = value := by
  obtain ⟨atLeast, below⟩ := inRange
  unfold least at atLeast
  unfold bound at below
  unfold toInt ofInt
  split at atLeast
  case isTrue signed =>
    rw [if_pos signed] at below ⊢
    exact BitVec.toInt_ofInt_eq_self type.width.bits_pos atLeast below
  case isFalse unsigned =>
    rw [if_neg unsigned] at below ⊢
    have wrapped : value % (2 ^ type.width.bits : Nat) = value :=
      Int.emod_eq_of_lt atLeast (by simpa using below)
    rw [BitVec.toNat_ofInt, wrapped, Int.toNat_of_nonneg atLeast]

end ElementType

namespace VectorUnit

variable {unit : VectorUnit} {vd vs : VReg}

/-- The operands that a store accepts. -/
def StoreAccepts (unit : VectorUnit) (width : ElementWidth) (vs : VReg)
    (destination : List (BitVec width.bits)) : Prop :=
  width = unit.sew ∧ unit.startsGroup vs ∧ unit.vl ≤ destination.length

/-- The elements that a store finds in a group. -/
def stored (unit : VectorUnit) (vs : VReg) : List (BitVec unit.sew.bits) :=
  (List.range unit.vl).map (unit.vregs.element vs unit.sew)

theorem length_stored (unit : VectorUnit) (vs : VReg) :
    (unit.stored vs).length = unit.vl := by
  rw [stored, List.length_map, List.length_range]

theorem getElem?_stored {index : Nat} (below : index < unit.vl) :
    (unit.stored vs)[index]? =
      some (unit.vregs.element vs unit.sew index) := by
  rw [stored, List.getElem?_map, List.getElem?_range below]
  rfl

theorem store_accepted {destination : List (BitVec unit.sew.bits)}
    (starts : unit.startsGroup vs) (long : unit.vl ≤ destination.length) :
    unit.store unit.sew vs destination =
      (.ok (), unit.stored vs ++ destination.drop unit.vl) := by
  have taken : (destination.take unit.vl).length = unit.vl := by
    rw [List.length_take, Nat.min_eq_left long]
  have inside : ∀ i, i < 0 + (destination.take unit.vl).length →
      Contains vs unit.sew i := by
    intro i below
    rw [Nat.zero_add, taken] at below
    exact contains_of_startsGroup starts (lt_vlmax below)
  have narrowed :
      ((List.range' 0 unit.vl).map fun i =>
          ((unit.vregs.element vs unit.sew i).setWidth 32).setWidth
            unit.sew.bits) = unit.stored vs := by
    rw [stored, List.range_eq_range']
    apply List.map_congr_left
    intro index _member
    exact narrow_widen _ _
  unfold store
  rw [if_neg (fun differs => differs rfl), starts, if_neg (by simp), taken,
    if_neg (Nat.lt_irrefl _), storeElements_eq inside, taken, narrowed]

/-- A store that does not accept its operands fails and leaves memory as it
is. -/
theorem store_rejected {width : ElementWidth}
    {destination : List (BitVec width.bits)}
    (rejected : ¬ unit.StoreAccepts width vs destination) :
    ∃ fault, unit.store width vs destination = (.error fault, destination) := by
  by_cases same : width = unit.sew
  · by_cases starts : unit.startsGroup vs
    · have short : (destination.take unit.vl).length < unit.vl := by
        have missing : ¬ unit.vl ≤ destination.length :=
          fun long => rejected ⟨same, starts, long⟩
        rw [List.length_take]
        omega
      refine ⟨.vectorLength, ?_⟩
      rw [store, if_neg (fun differs => differs same),
        if_neg (by simp [starts]), if_pos short]
    · refine ⟨.illegalRegister, ?_⟩
      rw [store, if_neg (fun differs => differs same),
        if_pos (by simp [starts])]
  · exact ⟨.invalidVectorConfig, if_pos same⟩

theorem vse_accepted {destination : List (BitVec unit.sew.bits)}
    (starts : unit.startsGroup vs) (long : unit.vl ≤ destination.length) :
    unit.vse unit.sew vs destination =
      .ok (unit.stored vs ++ destination.drop unit.vl) := by
  rw [vse, store_accepted starts long]
  rfl

theorem vse_rejected {width : ElementWidth}
    {destination : List (BitVec width.bits)}
    (rejected : ¬ unit.StoreAccepts width vs destination) :
    ∃ fault, unit.vse width vs destination = .error fault := by
  obtain ⟨fault, failed⟩ := store_rejected rejected
  refine ⟨fault, ?_⟩
  rw [vse, failed]
  rfl

theorem vse_ok_iff {width : ElementWidth}
    {destination : List (BitVec width.bits)} :
    (∃ after, unit.vse width vs destination = .ok after) ↔
      unit.StoreAccepts width vs destination := by
  constructor
  · rintro ⟨after, ran⟩
    by_cases accepts : unit.StoreAccepts width vs destination
    · exact accepts
    · obtain ⟨fault, failed⟩ := vse_rejected accepts
      rw [failed] at ran
      cases ran
  · rintro ⟨rfl, starts, long⟩
    exact ⟨_, vse_accepted starts long⟩

/-- What a store leaves in memory. -/
theorem vse_elements {width : ElementWidth}
    {destination after : List (BitVec width.bits)}
    (ran : unit.vse width vs destination = .ok after) :
    after.length = destination.length ∧
    (∀ index, index < unit.vl → after[index]? =
      some ((unit.vregs.element vs unit.sew index).setWidth width.bits)) ∧
    (∀ index, unit.vl ≤ index → after[index]? = destination[index]?) := by
  obtain ⟨rfl, starts, long⟩ := vse_ok_iff.mp ⟨after, ran⟩
  rw [vse_accepted starts long] at ran
  obtain rfl := Except.ok.inj ran
  refine ⟨?_, ?_, ?_⟩
  · rw [List.length_append, length_stored, List.length_drop]
    omega
  · intro index below
    rw [List.getElem?_append_left (by rwa [length_stored]),
      getElem?_stored below, BitVec.setWidth_eq]
  · intro index above
    rw [List.getElem?_append_right (by rwa [length_stored]), length_stored,
      List.getElem?_drop, Nat.add_sub_cancel' above]

/-- A store gives back what a load has put into the same group. -/
theorem vse_vle {width : ElementWidth} {source destination : List (BitVec width.bits)}
    (accepts : (ElementOp.load width vd source).Accepts unit)
    (stores : unit.vl ≤ destination.length) :
    ∃ loaded, unit.vle width vd source = (.ok (), loaded) ∧
      loaded.vse width vd destination =
        .ok (source.take unit.vl ++ destination.drop unit.vl) := by
  have guaranteed : (ElementOp.load width vd source).Guaranteed unit := trivial
  obtain ⟨loaded, ran, pointwise⟩ := ElementOp.run_accepted guaranteed accepts
  obtain ⟨starts, rfl, loads⟩ := accepts
  have storeAccepts : loaded.StoreAccepts unit.sew vd destination := by
    refine ⟨pointwise.sew.symm, ?_, ?_⟩
    · rw [pointwise.startsGroup]
      exact starts vd List.mem_cons_self
    · rwa [pointwise.vl]
  obtain ⟨after, wrote⟩ := vse_ok_iff.mpr storeAccepts
  obtain ⟨_length, inside, outside⟩ := vse_elements wrote
  rw [pointwise.vl] at inside outside
  refine ⟨loaded, ran, wrote.trans (congrArg _ ?_)⟩
  have taken : (source.take unit.vl).length = unit.vl := by
    rw [List.length_take, Nat.min_eq_left loads]
  apply List.ext_getElem?
  intro index
  by_cases below : index < unit.vl
  · have bounded : index < source.length := Nat.lt_of_lt_of_le below loads
    have loadedElement :
        loaded.vregs.element vd unit.sew index = source[index] := by
      have computed := pointwise.elements index below
      rw [ElementOp.value, BitVec.setWidth_eq, List.getD_eq_getElem?_getD,
        List.getElem?_eq_getElem bounded] at computed
      exact computed
    rw [inside index below, List.getElem?_append_left (by rwa [taken]),
      List.getElem?_take_of_lt below, List.getElem?_eq_getElem bounded,
      pointwise.sew, BitVec.setWidth_eq, loadedElement]
  · have above : unit.vl ≤ index := Nat.le_of_not_lt below
    rw [outside index above, List.getElem?_append_right (by rwa [taken]),
      taken, List.getElem?_drop, Nat.add_sub_cancel' above]

/-- Integers of a type come back from a group as they went in. -/
theorem vse_vle_ofInt {type : ElementType} {values : List Int}
    {destination : List (BitVec type.width.bits)}
    (inRange : ∀ value ∈ values, type.InRange value)
    (accepts :
      (ElementOp.load type.width vd (values.map type.ofInt)).Accepts unit)
    (stores : unit.vl ≤ destination.length) :
    ∃ loaded after,
      unit.vle type.width vd (values.map type.ofInt) = (.ok (), loaded) ∧
      loaded.vse type.width vd destination = .ok after ∧
      (after.take unit.vl).map type.toInt = values.take unit.vl := by
  obtain ⟨loaded, ran, wrote⟩ := vse_vle accepts stores
  refine ⟨loaded, _, ran, wrote, ?_⟩
  have taken : ((values.map type.ofInt).take unit.vl).length = unit.vl := by
    rw [List.length_take, Nat.min_eq_left accepts.2.2]
  have restored : values.map (type.toInt ∘ type.ofInt) = values.map id := by
    apply List.map_congr_left
    intro value member
    exact ElementType.toInt_ofInt (inRange value member)
  rw [List.take_left' taken, List.map_take, List.map_map, restored, List.map_id]

/-- What the operations on elements and on memory do in every state and for
all operands.  An operation on elements is `Pointwise` for the values that
`ElementOp.value` reads from the registers as they were before it. -/
theorem elementOperations_pointwise (unit : VectorUnit) :
    (∀ op : ElementOp, op.Guaranteed unit →
      ((op.run unit).1 = .ok () ↔ op.Accepts unit) ∧
      (op.Accepts unit →
        Pointwise unit (op.run unit).2 op.destination (op.value unit))) ∧
    (∀ (width : ElementWidth) (vs : VReg)
        (destination : List (BitVec width.bits)),
      ((∃ after, unit.vse width vs destination = .ok after) ↔
        unit.StoreAccepts width vs destination) ∧
      ∀ after, unit.vse width vs destination = .ok after →
        after.length = destination.length ∧
        (∀ index, index < unit.vl → after[index]? =
          some ((unit.vregs.element vs unit.sew index).setWidth width.bits)) ∧
        (∀ index, unit.vl ≤ index → after[index]? = destination[index]?)) ∧
    (∀ (type : ElementType) (vd : VReg) (values : List Int)
        (destination : List (BitVec type.width.bits)),
      (∀ value ∈ values, type.InRange value) →
      (ElementOp.load type.width vd (values.map type.ofInt)).Accepts unit →
      unit.vl ≤ destination.length →
      ∃ loaded after,
        unit.vle type.width vd (values.map type.ofInt) = (.ok (), loaded) ∧
        loaded.vse type.width vd destination = .ok after ∧
        (after.take unit.vl).map type.toInt = values.take unit.vl) := by
  refine ⟨?_, ?_, ?_⟩
  · intro op guaranteed
    refine ⟨ElementOp.run_ok_iff guaranteed, ?_⟩
    intro accepts
    obtain ⟨after, ran, pointwise⟩ :=
      ElementOp.run_accepted guaranteed accepts
    rw [ran]
    exact pointwise
  · intro width vs destination
    refine ⟨vse_ok_iff, ?_⟩
    intro after ran
    exact vse_elements ran
  · intro type vd values destination inRange accepts stores
    exact vse_vle_ofInt inRange accepts stores

/-- Five bytes in groups of two registers: a mask in `v0` and elements in
`v2`. -/
def maskedBytes : VectorUnit where
  vregs :=
    (VRegFile.zeroed.writeRegister 0 #v[0b10110, 0, 0, 0]).writeRegister 2
      #v[0xc8ff0201, 0xaa05, 0, 0]
  vl := 5
  sew := .e8
  lmul := .m2
  vl_le := by decide

/-- A masked sum over one of its own sources, and signed bytes through a
group. -/
theorem elementOperations_pointwise_maskedBytes :
    (ElementOp.addMasked 2 0 4 2 2).Guaranteed maskedBytes ∧
    (maskedBytes.vaddMasked 2 0 4 2 2).1 = .ok () ∧
    (maskedBytes.vaddMasked 2 0 4 2 2).2.vregs.element 2 .e8 2 = 0xfe ∧
    (maskedBytes.vaddMasked 2 0 4 2 2).2.vregs.element 2 .e8 3 = 0 ∧
    (maskedBytes.vaddMasked 2 0 4 2 2).2.vregs.element 2 .e8 5 = 0xaa ∧
    (∃ after, maskedBytes.vse .e8 2 [0, 0, 0, 0, 0, 7] = .ok after ∧
      after[3]? = some 0xc8 ∧ after[5]? = some 7) ∧
    ∃ loaded after,
      maskedBytes.vle .e8 2 ([-1, -128, 127, 0, 5].map ElementType.i8.ofInt) =
        (.ok (), loaded) ∧
      loaded.vse .e8 2 [0, 0, 0, 0, 0] = .ok after ∧
      (after.take 5).map ElementType.i8.toInt = [-1, -128, 127, 0, 5] := by
  obtain ⟨operations, stores, roundTrips⟩ :=
    elementOperations_pointwise maskedBytes
  have guaranteed : (ElementOp.addMasked 2 0 4 2 2).Guaranteed maskedBytes :=
    ⟨by decide, by decide⟩
  have accepts : (ElementOp.addMasked 2 0 4 2 2).Accepts maskedBytes :=
    ⟨by decide, trivial⟩
  obtain ⟨accepted, computes⟩ := operations _ guaranteed
  have pointwise := computes accepts
  obtain ⟨storeAccepted, stored⟩ := stores .e8 2 [0, 0, 0, 0, 0, 7]
  obtain ⟨after, wrote⟩ :=
    storeAccepted.mpr ⟨rfl, by decide, by decide⟩
  obtain ⟨_length, inside, outside⟩ := stored after wrote
  refine ⟨guaranteed, accepted.mpr accepts, ?_, ?_, ?_, ?_, ?_⟩
  · exact (pointwise.elements 2 (by decide)).trans (by rfl)
  · exact (pointwise.elements 3 (by decide)).trans (by rfl)
  · exact (pointwise.tail 5 (by decide) (by decide)).trans (by rfl)
  · refine ⟨after, wrote, ?_, ?_⟩
    · exact (inside 3 (by decide)).trans (by decide +kernel)
    · exact outside 5 (by decide)
  · exact roundTrips .i8 2 [-1, -128, 127, 0, 5] [0, 0, 0, 0, 0] (by decide)
      ⟨by decide, rfl, by decide⟩ (by decide)

end VectorUnit

end VectorBench
