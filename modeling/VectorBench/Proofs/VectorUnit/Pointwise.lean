import VectorBench.Proofs.VectorUnit.Groups

/-!
# Element operations

An accepted operation replaces the elements of its destination below the
vector length by values computed from the registers as they were, also where
the destination is one of the sources, and changes nothing else.
-/

namespace VectorBench

open VRegFile

/-- An operation that writes the elements of a register group. -/
inductive ElementOp where
  | load (width : ElementWidth) (vd : VReg) (source : List (BitVec width.bits))
  | add (vd vs2 vs1 : VReg)
  | addMasked (vd mask maskedoff vs2 vs1 : VReg)
  | mulScalar (vd vs2 : VReg) (x : Word)
  | moveScalar (vd : VReg) (x : Word)
  | position (vd : VReg)

namespace ElementOp

def run : ElementOp → VectorUnit → Except Fault Unit × VectorUnit
  | .load width vd source, unit => unit.vle width vd source
  | .add vd vs2 vs1, unit => unit.vadd vd vs2 vs1
  | .addMasked vd mask maskedoff vs2 vs1, unit =>
      unit.vaddMasked vd mask maskedoff vs2 vs1
  | .mulScalar vd vs2 x, unit => unit.vmulScalar vd vs2 x
  | .moveScalar vd x, unit => unit.vmoveScalar vd x
  | .position vd, unit => unit.vid vd

def destination : ElementOp → VReg
  | .load _ vd _ | .add vd _ _ | .addMasked vd _ _ _ _ | .mulScalar vd _ _
  | .moveScalar vd _ | .position vd => vd

/-- The registers that have to start groups. -/
def groups : ElementOp → List VReg
  | .load _ vd _ | .moveScalar vd _ | .position vd => [vd]
  | .mulScalar vd vs2 _ => [vd, vs2]
  | .add vd vs2 vs1 | .addMasked vd _ _ vs2 vs1 => [vd, vs2, vs1]

/-- What memory has to hold. -/
def MemoryFits (unit : VectorUnit) : ElementOp → Prop
  | .load width _ source => width = unit.sew ∧ unit.vl ≤ source.length
  | _ => True

/-- The operands that an operation accepts. -/
def Accepts (unit : VectorUnit) (op : ElementOp) : Prop :=
  (∀ register ∈ op.groups, unit.startsGroup register) ∧ op.MemoryFits unit

/-- What a masked operation leaves to its callers. -/
def Guaranteed (unit : VectorUnit) : ElementOp → Prop
  | .addMasked vd mask maskedoff _ _ =>
      unit.startsGroup maskedoff ∧ ¬ unit.InGroup vd mask
  | _ => True

/-- Element `index` of the result, from the registers before the operation. -/
def value (unit : VectorUnit) : ElementOp → (index : Nat) → BitVec unit.sew.bits
  | .load _ _ source, index => (source.getD index 0).setWidth unit.sew.bits
  | .add _ vs2 vs1, index =>
      unit.vregs.element vs2 unit.sew index +
        unit.vregs.element vs1 unit.sew index
  | .addMasked _ mask maskedoff vs2 vs1, index =>
      if unit.vregs.bit (128 * mask.toNat + index) then
        unit.vregs.element vs2 unit.sew index +
          unit.vregs.element vs1 unit.sew index
      else unit.vregs.element maskedoff unit.sew index
  | .mulScalar _ vs2 x, index =>
      unit.vregs.element vs2 unit.sew index * x.setWidth unit.sew.bits
  | .moveScalar _ x, _ => x.setWidth unit.sew.bits
  | .position _, index => BitVec.ofNat unit.sew.bits index

end ElementOp

namespace VectorUnit

variable {unit : VectorUnit} {vd vs1 vs2 : VReg} {index : Nat}

/-- The elements of a group below the vector length are given values, and
nothing else has changed. -/
structure Pointwise (before after : VectorUnit) (vd : VReg)
    (value : Nat → BitVec before.sew.bits) : Prop where
  elements : ∀ index, index < before.vl →
    after.vregs.element vd before.sew index = value index
  tail : ∀ index, before.vl ≤ index →
    index < vlmax before.sew before.lmul →
    after.vregs.element vd before.sew index =
      before.vregs.element vd before.sew index
  others : ∀ register, ¬ before.InGroup vd register →
    after.vregs.readRegister register = before.vregs.readRegister register
  vl : after.vl = before.vl
  sew : after.sew = before.sew
  lmul : after.lmul = before.lmul

namespace Pointwise

variable {before after : VectorUnit} {value : Nat → BitVec before.sew.bits}

theorem startsGroup (pointwise : Pointwise before after vd value)
    (register : VReg) :
    after.startsGroup register = before.startsGroup register := by
  unfold VectorUnit.startsGroup
  rw [pointwise.lmul]

theorem eq_setVregs (pointwise : Pointwise before after vd value) :
    after = { before with vregs := after.vregs } := by
  obtain ⟨_elements, _tail, _others, vl, sew, lmul⟩ := pointwise
  cases before
  cases after
  cases vl
  cases sew
  cases lmul
  rfl

/-- The elements of another group have not changed. -/
theorem element_of_ne (pointwise : Pointwise before after vd value)
    (destination : before.startsGroup vd) (source : before.startsGroup vs1)
    (distinct : vs1 ≠ vd) (inside : index < vlmax before.sew before.lmul) :
    after.vregs.element vs1 before.sew index =
      before.vregs.element vs1 before.sew index := by
  apply element_eq_of_group_eq source inside
  intro register member
  apply pointwise.others
  unfold InGroup at member ⊢
  rcases group_eq_or_disjoint destination source with same | below | above
  · exact absurd same.symm distinct
  · omega
  · omega

end Pointwise

theorem onGroups_accepted {registers : List VReg}
    {work : VRegFile → Except Fault Unit × VRegFile}
    (starts : ∀ register ∈ registers, unit.startsGroup register) :
    unit.onGroups registers work =
      ((work unit.vregs).1, { unit with vregs := (work unit.vregs).2 }) := by
  rw [← List.all_eq_true] at starts
  rw [onGroups, if_pos starts]

theorem onGroups_rejected {registers : List VReg}
    {work : VRegFile → Except Fault Unit × VRegFile}
    (rejected : ¬ ∀ register ∈ registers, unit.startsGroup register) :
    unit.onGroups registers work = (.error .illegalRegister, unit) := by
  rw [← List.all_eq_true] at rejected
  rw [onGroups, if_neg rejected]

/-- A loop over a group whose steps compute words that stand for given
elements. -/
theorem onGroups_pointwise {registers : List VReg}
    {element : VRegFile → Nat → Except Fault Word} {word : Nat → Word}
    {value : Nat → BitVec unit.sew.bits}
    (starts : ∀ register ∈ registers, unit.startsGroup register)
    (destination : vd ∈ registers)
    (computes : ∀ index file, index < unit.vl →
      Filled vd unit.sew word index unit.vregs file →
      element file index = .ok (word index))
    (reduces : ∀ index, index < unit.vl →
      (word index).setWidth unit.sew.bits = value index) :
    ∃ after,
      unit.onGroups registers
          (computeElements vd unit.sew element unit.vl 0) = (.ok (), after) ∧
      Pointwise unit after vd value := by
  have startsDestination := starts vd destination
  obtain ⟨file, ran, filled⟩ := computeElements_eq
    (fun _index below =>
      contains_of_startsGroup startsDestination (lt_vlmax below)) computes
  refine ⟨{ unit with vregs := file }, ?_, ?_⟩
  · rw [onGroups_accepted starts, ran]
  · constructor
    case elements =>
      intro index below
      exact (filled.elements index below).trans (reduces index below)
    case tail =>
      intro index above inside
      exact element_filled filled startsDestination startsDestination
        unit.vl_le above inside
    case others =>
      intro register outside
      exact outside_group_filled filled unit.vl_le outside
    case vl => rfl
    case sew => rfl
    case lmul => rfl

section Sources

variable {word : Nat → Word} {file : VRegFile}

theorem readElement_filled
    (filled : Filled vd unit.sew word index unit.vregs file)
    (destination : unit.startsGroup vd) (source : unit.startsGroup vs2)
    (below : index < unit.vl) :
    file.readElement vs2 unit.sew index =
      .ok ((unit.vregs.element vs2 unit.sew index).setWidth 32) := by
  have inside := lt_vlmax below
  rw [readElement_eq (contains_of_startsGroup source inside),
    element_filled filled destination source (Nat.le_of_lt inside)
      (Nat.le_refl _) inside]

theorem combine_filled {α : Type} {function : Word → Word → α}
    (filled : Filled vd unit.sew word index unit.vregs file)
    (destination : unit.startsGroup vd) (left : unit.startsGroup vs2)
    (right : unit.startsGroup vs1) (below : index < unit.vl) :
    file.combine unit.sew vs2 vs1 function index =
      .ok (function ((unit.vregs.element vs2 unit.sew index).setWidth 32)
        ((unit.vregs.element vs1 unit.sew index).setWidth 32)) := by
  unfold combine
  rw [readElement_filled filled destination left below,
    readElement_filled filled destination right below]
  rfl

end Sources

/-- Widening an element to a word loses nothing. -/
theorem narrow_widen (width : ElementWidth) (element : BitVec width.bits) :
    (element.setWidth 32).setWidth width.bits = element := by
  rw [BitVec.setWidth_setWidth_of_le _ width.bits_le, BitVec.setWidth_eq]

theorem narrow_plus (width : ElementWidth) (a b : BitVec width.bits) :
    (Word.plus (a.setWidth 32) (b.setWidth 32)).setWidth width.bits =
      a + b := by
  rw [Word.plus_eq_add, BitVec.setWidth_add _ _ width.bits_le, narrow_widen,
    narrow_widen]

theorem narrow_times (width : ElementWidth) (a : BitVec width.bits)
    (x : Word) :
    (Word.times (a.setWidth 32) x).setWidth width.bits =
      a * x.setWidth width.bits := by
  rw [Word.times_eq_mul, BitVec.setWidth_mul _ _ width.bits_le, narrow_widen]

/-- The word that a masked sum writes to an element. -/
def maskedSum (unit : VectorUnit) (mask maskedoff vs2 vs1 : VReg)
    (index : Nat) : Word :=
  if unit.vregs.bit (128 * mask.toNat + index) then
    Word.plus ((unit.vregs.element vs2 unit.sew index).setWidth 32)
      ((unit.vregs.element vs1 unit.sew index).setWidth 32)
  else (unit.vregs.element maskedoff unit.sew index).setWidth 32

theorem narrow_maskedSum (unit : VectorUnit) (mask maskedoff vs2 vs1 : VReg)
    (index : Nat) :
    (unit.maskedSum mask maskedoff vs2 vs1 index).setWidth unit.sew.bits =
      if unit.vregs.bit (128 * mask.toNat + index) then
        unit.vregs.element vs2 unit.sew index +
          unit.vregs.element vs1 unit.sew index
      else unit.vregs.element maskedoff unit.sew index := by
  unfold maskedSum
  split
  case isTrue => exact narrow_plus _ _ _
  case isFalse => exact narrow_widen _ _

theorem maskedSum_filled {mask maskedoff : VReg} {word : Nat → Word}
    {file : VRegFile}
    (filled : Filled vd unit.sew word index unit.vregs file)
    (destination : unit.startsGroup vd) (left : unit.startsGroup vs2)
    (right : unit.startsGroup vs1) (other : unit.startsGroup maskedoff)
    (maskOutside : ¬ unit.InGroup vd mask) (below : index < unit.vl) :
    (if file.readMaskBit mask index then
        file.combine unit.sew vs2 vs1 Word.plus index
      else file.readElement maskedoff unit.sew index) =
      .ok (unit.maskedSum mask maskedoff vs2 vs1 index) := by
  have inside := lt_vlmax below
  unfold maskedSum
  rw [readMaskBit_filled filled (Nat.le_of_lt inside) maskOutside inside]
  split
  case isTrue => exact combine_filled filled destination left right below
  case isFalse => exact readElement_filled filled destination other below

theorem vle_eq_onGroups {source : List (BitVec unit.sew.bits)}
    (long : unit.vl ≤ source.length) :
    unit.vle unit.sew vd source =
      unit.onGroups [vd] (computeElements vd unit.sew
        (fun _ index => .ok ((source.getD index 0).setWidth 32))
        unit.vl 0) := by
  have taken : (source.take unit.vl).length = unit.vl := by
    rw [List.length_take, Nat.min_eq_left long]
  have listed : ∀ offset
      (below : offset <
        ((source.take unit.vl).map (·.setWidth 32)).length),
      (source.getD (0 + offset) 0).setWidth 32 =
        ((source.take unit.vl).map (·.setWidth 32))[offset] := by
    intro offset below
    rw [List.length_map, taken] at below
    have bounded : offset < source.length := Nat.lt_of_lt_of_le below long
    simp [List.getD_eq_getElem?_getD, bounded]
  unfold vle
  rw [if_neg (fun differs => differs rfl)]
  congr 1
  funext file
  simp only [taken, Nat.lt_irrefl, if_false]
  rw [writeElements_eq_computeElements
      (fun index => (source.getD index 0).setWidth 32) listed,
    List.length_map, taken]

end VectorUnit

namespace ElementOp

open VectorUnit

variable {unit : VectorUnit} {op : ElementOp}

theorem destination_mem_groups (op : ElementOp) :
    op.destination ∈ op.groups := by
  cases op <;> exact List.mem_cons_self

/-- An operation that does not accept its operands fails and changes
nothing. -/
theorem run_rejected (rejected : ¬ op.Accepts unit) :
    ∃ fault, op.run unit = (.error fault, unit) := by
  by_cases starts : ∀ register ∈ op.groups, unit.startsGroup register
  · have misfits : ¬ op.MemoryFits unit :=
      fun fits => rejected ⟨starts, fits⟩
    cases op with
    | load width vd source =>
        by_cases same : width = unit.sew
        · have short : (source.take unit.vl).length < unit.vl := by
            have missing : ¬ unit.vl ≤ source.length :=
              fun long => misfits ⟨same, long⟩
            rw [List.length_take]
            omega
          refine ⟨.vectorLength, ?_⟩
          have startsDestination : ∀ register ∈ [vd],
              unit.startsGroup register := starts
          rw [run, vle, if_neg (fun differs => differs same),
            onGroups_accepted startsDestination]
          simp only [short, if_true]
        · exact ⟨.invalidVectorConfig, if_pos same⟩
    | add | addMasked | mulScalar | moveScalar | position =>
        exact absurd trivial misfits
  · cases op with
    | load width vd source =>
        by_cases same : width = unit.sew
        · refine ⟨.illegalRegister, ?_⟩
          rw [run, vle, if_neg (fun differs => differs same)]
          exact onGroups_rejected starts
        · exact ⟨.invalidVectorConfig, if_pos same⟩
    | add | addMasked | mulScalar | moveScalar | position =>
        exact ⟨.illegalRegister, onGroups_rejected starts⟩

/-- An operation that accepts its operands computes its values from the
registers as they were. -/
theorem run_accepted (guaranteed : op.Guaranteed unit)
    (accepts : op.Accepts unit) :
    ∃ after, op.run unit = (.ok (), after) ∧
      Pointwise unit after op.destination (op.value unit) := by
  obtain ⟨starts, fits⟩ := accepts
  cases op with
  | load width vd source =>
      obtain ⟨rfl, long⟩ := fits
      rw [run, vle_eq_onGroups long]
      apply onGroups_pointwise starts List.mem_cons_self
      · intro index file _below _filled
        rfl
      · intro index _below
        exact (narrow_widen _ _).trans (BitVec.setWidth_eq _).symm
  | add vd vs2 vs1 =>
      apply onGroups_pointwise starts List.mem_cons_self
      · intro index file below filled
        exact combine_filled filled (starts vd (by simp [groups]))
          (starts vs2 (by simp [groups])) (starts vs1 (by simp [groups])) below
      · intro index _below
        exact narrow_plus _ _ _
  | addMasked vd mask maskedoff vs2 vs1 =>
      obtain ⟨startsOff, maskOutside⟩ := guaranteed
      apply onGroups_pointwise starts List.mem_cons_self
      · intro index file below filled
        exact maskedSum_filled filled (starts vd (by simp [groups]))
          (starts vs2 (by simp [groups])) (starts vs1 (by simp [groups]))
          startsOff maskOutside below
      · intro index _below
        exact narrow_maskedSum _ _ _ _ _ _
  | mulScalar vd vs2 x =>
      apply onGroups_pointwise starts List.mem_cons_self
      · intro index file below filled
        rw [readElement_filled filled (starts vd (by simp [groups]))
          (starts vs2 (by simp [groups])) below]
        rfl
      · intro index _below
        exact narrow_times _ _ _
  | moveScalar vd x =>
      apply onGroups_pointwise starts List.mem_cons_self
      · intro index file _below _filled
        rfl
      · intro index _below
        rfl
  | position vd =>
      apply onGroups_pointwise starts List.mem_cons_self
      · intro index file _below _filled
        rfl
      · intro index _below
        exact BitVec.setWidth_ofNat_of_le unit.sew.bits_le index

theorem run_ok_iff (guaranteed : op.Guaranteed unit) :
    (op.run unit).1 = .ok () ↔ op.Accepts unit := by
  constructor
  · intro ran
    by_cases accepts : op.Accepts unit
    · exact accepts
    · obtain ⟨fault, failed⟩ := run_rejected accepts
      rw [failed] at ran
      cases ran
  · intro accepts
    obtain ⟨after, ran, _pointwise⟩ := run_accepted guaranteed accepts
    rw [ran]

end ElementOp

end VectorBench
