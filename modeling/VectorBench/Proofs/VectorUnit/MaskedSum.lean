import Mathlib.Algebra.Group.Nat.Defs
import VectorBench.Proofs.VectorUnit.Sequences

/-!
# Sums under a mask

Seven operations add a constant to the numbers of the elements, and leave zero
where the number is above the constant.  Each step is computed from what the
earlier ones left in their groups and masks, so the sums are as expected in
every configuration and for every constant, also for one that stands for a
negative number in the element width.
-/

namespace VectorBench

open VRegFile

namespace VectorUnit

variable {unit : VectorUnit} {vd vs register : VReg} {before after : VRegFile}

/-- The elements of a group below the vector length. -/
def Holds (unit : VectorUnit) (vregs : VRegFile) (register : VReg)
    (value : Nat → BitVec unit.sew.bits) : Prop :=
  ∀ index, index < unit.vl → vregs.element register unit.sew index = value index

/-- The bits of a mask below the vector length. -/
def HoldsMask (unit : VectorUnit) (vregs : VRegFile) (register : VReg)
    (value : Nat → Bool) : Prop :=
  ∀ index, index < unit.vl → vregs.readMaskBit register index = value index

theorem Holds.of_pointwise {value written : Nat → BitVec unit.sew.bits}
    (holds : unit.Holds before vs value)
    (pointwise : Pointwise { unit with vregs := before }
      { unit with vregs := after } vd written)
    (destination : unit.startsGroup vd) (source : unit.startsGroup vs)
    (distinct : vs ≠ vd) : unit.Holds after vs value := by
  intro index below
  have kept : after.element vs unit.sew index =
      before.element vs unit.sew index :=
    pointwise.element_of_ne destination source distinct (lt_vlmax below)
  rw [kept, holds index below]

theorem Holds.of_maskPointwise {value : Nat → BitVec unit.sew.bits}
    {written : Nat → Bool} (holds : unit.Holds before vs value)
    (pointwise : MaskPointwise { unit with vregs := before }
      { unit with vregs := after } vd written)
    (source : unit.startsGroup vs) (outside : ¬ unit.InGroup vs vd) :
    unit.Holds after vs value := by
  intro index below
  have kept : after.element vs unit.sew index =
      before.element vs unit.sew index :=
    pointwise.element_of_outside source outside (lt_vlmax below)
  rw [kept, holds index below]

theorem HoldsMask.of_maskPointwise {value written : Nat → Bool}
    (holds : unit.HoldsMask before vs value)
    (pointwise : MaskPointwise { unit with vregs := before }
      { unit with vregs := after } vd written)
    (distinct : vs ≠ vd) : unit.HoldsMask after vs value := by
  intro index below
  have kept : after.readMaskBit vs index = before.readMaskBit vs index :=
    pointwise.readMaskBit_of_ne distinct index
  rw [kept, holds index below]

/-- The number of an element is the same with and without a sign. -/
theorem toInt_ofNat_index {index : Nat} (below : index < unit.vl) :
    (BitVec.ofNat unit.sew.bits index).toInt = index := by
  have short : index < 128 :=
    Nat.lt_of_lt_of_le below unit.vl_le_vectorBits
  have wide : 2 ^ 8 ≤ 2 ^ unit.sew.bits := by
    cases unit.sew <;> decide
  have number : (BitVec.ofNat unit.sew.bits index).toNat = index :=
    (BitVec.toNat_ofNat _ _).trans (Nat.mod_eq_of_lt (by omega))
  rw [BitVec.toInt_eq_toNat_of_lt (by omega), number]

end VectorUnit

/-- The groups and the masks of a sum under a mask. -/
structure MaskedSum where
  constants : VReg
  positions : VReg
  zeros : VReg
  sums : VReg
  /-- Numbers above the constant. -/
  above : VReg
  /-- All numbers. -/
  every : VReg
  /-- Numbers up to the constant. -/
  kept : VReg

namespace MaskedSum

def groups (sum : MaskedSum) : List VReg :=
  [sum.constants, sum.positions, sum.zeros, sum.sums]

def masks (sum : MaskedSum) : List VReg :=
  [sum.above, sum.every, sum.kept]

/-- Different groups, and different masks outside of them. -/
structure Apart (sum : MaskedSum) (lmul : Lmul) : Prop where
  starts : ∀ register ∈ sum.groups, lmul.Starts register
  groups : sum.groups.Nodup
  masks : sum.masks.Nodup
  outside : ∀ mask ∈ sum.masks, ∀ first ∈ sum.groups,
    ¬ (first.toNat ≤ mask.toNat ∧ mask.toNat < first.toNat + lmul.registers)

def preparation (sum : MaskedSum) (k : Word) :
    List (VectorUnit → Except Fault Unit × VectorUnit) :=
  [(·.vmoveScalar sum.constants k), (·.vid sum.positions),
    (·.vmoveScalar sum.zeros 0)]

/-- The operations that compute which elements are kept. -/
def selection (sum : MaskedSum) :
    List (VectorUnit → Except Fault Unit × VectorUnit) :=
  [(·.vmsgt sum.above sum.positions sum.constants),
    (·.vmseq sum.every sum.constants sum.constants),
    (·.vmxor sum.kept sum.above sum.every)]

def operations (sum : MaskedSum) (k : Word) :
    List (VectorUnit → Except Fault Unit × VectorUnit) :=
  sum.preparation k ++ sum.selection ++
    [(·.vaddMasked sum.sums sum.kept sum.zeros sum.constants sum.positions)]

/-- What the source groups hold once they are prepared. -/
structure Prepared (sum : MaskedSum) (unit : VectorUnit) (k : Word)
    (vregs : VRegFile) : Prop where
  constants : unit.Holds vregs sum.constants fun _ => k.setWidth unit.sew.bits
  positions : unit.Holds vregs sum.positions fun index =>
    BitVec.ofNat unit.sew.bits index
  zeros : unit.Holds vregs sum.zeros fun _ => 0

variable {sum : MaskedSum} {unit : VectorUnit} {k : Word} {vregs : VRegFile}

namespace Apart

theorem startsGroup {register : VReg} (apart : sum.Apart unit.lmul)
    (member : register ∈ sum.groups) : unit.startsGroup register :=
  VectorUnit.startsGroup_of_starts apart.starts member

end Apart

theorem prepared (apart : sum.Apart unit.lmul) :
    ∃ vregs,
      unit.runAll (sum.preparation k) = (.ok (), { unit with vregs }) ∧
      sum.Prepared unit k vregs := by
  have startsConstants : unit.startsGroup sum.constants :=
    apart.startsGroup (by simp [groups])
  have startsPositions : unit.startsGroup sum.positions :=
    apart.startsGroup (by simp [groups])
  have startsZeros : unit.startsGroup sum.zeros :=
    apart.startsGroup (by simp [groups])
  have distinct := apart.groups
  simp only [groups, List.nodup_cons, List.mem_cons, List.not_mem_nil,
    or_false, not_or] at distinct
  obtain ⟨⟨notPositions, notZeros, -⟩, ⟨positionsNotZeros, -⟩, -⟩ := distinct
  have movesConstant : (ElementOp.moveScalar sum.constants k).Accepts unit :=
    ⟨List.forall_mem_singleton.mpr startsConstants, trivial⟩
  obtain ⟨first, ranFirst, atFirst⟩ :=
    VectorUnit.run_setVregs movesConstant trivial
  have numbers : (ElementOp.position sum.positions).Accepts
      { unit with vregs := first } :=
    ⟨List.forall_mem_singleton.mpr startsPositions, trivial⟩
  obtain ⟨second, ranSecond, atSecond⟩ :=
    VectorUnit.run_setVregs numbers trivial
  have movesZero : (ElementOp.moveScalar sum.zeros 0).Accepts
      { unit with vregs := second } :=
    ⟨List.forall_mem_singleton.mpr startsZeros, trivial⟩
  obtain ⟨third, ranThird, atThird⟩ :=
    VectorUnit.run_setVregs movesZero trivial
  have constants : unit.Holds first sum.constants fun _ =>
      k.setWidth unit.sew.bits := atFirst.elements
  have positions : unit.Holds second sum.positions fun index =>
      BitVec.ofNat unit.sew.bits index := atSecond.elements
  refine ⟨third, ?_, ?_, ?_, ?_⟩
  · simp only [ElementOp.run] at ranFirst ranSecond ranThird
    simp only [preparation, VectorUnit.runAll, ranFirst, ranSecond, ranThird]
  · have kept := constants.of_pointwise atSecond startsPositions
      startsConstants notPositions
    exact kept.of_pointwise atThird startsZeros startsConstants notZeros
  · exact positions.of_pointwise atThird startsZeros startsPositions
      positionsNotZeros
  · intro index below
    exact (atThird.elements index below).trans (BitVec.setWidth_zero _ _)

/-- Writing a mask outside the groups keeps them prepared. -/
theorem Prepared.of_maskPointwise {before after : VRegFile} {mask : VReg}
    {written : Nat → Bool} (prepared : sum.Prepared unit k before)
    (apart : sum.Apart unit.lmul) (member : mask ∈ sum.masks)
    (pointwise : VectorUnit.MaskPointwise { unit with vregs := before }
      { unit with vregs := after } mask written) :
    sum.Prepared unit k after where
  constants := prepared.constants.of_maskPointwise pointwise
    (apart.startsGroup (by simp [groups]))
    (apart.outside mask member _ (by simp [groups]))
  positions := prepared.positions.of_maskPointwise pointwise
    (apart.startsGroup (by simp [groups]))
    (apart.outside mask member _ (by simp [groups]))
  zeros := prepared.zeros.of_maskPointwise pointwise
    (apart.startsGroup (by simp [groups]))
    (apart.outside mask member _ (by simp [groups]))

theorem selected {before : VRegFile} (apart : sum.Apart unit.lmul)
    (prepared : sum.Prepared unit k before) :
    ∃ vregs,
      VectorUnit.runAll sum.selection { unit with vregs := before } =
        (.ok (), { unit with vregs }) ∧
      sum.Prepared unit k vregs ∧
      unit.HoldsMask vregs sum.kept fun index =>
        !decide ((k.setWidth unit.sew.bits).toInt < index) := by
  have startsConstants : unit.startsGroup sum.constants :=
    apart.startsGroup (by simp [groups])
  have startsPositions : unit.startsGroup sum.positions :=
    apart.startsGroup (by simp [groups])
  have distinct := apart.masks
  simp only [masks, List.nodup_cons, List.mem_cons, List.not_mem_nil,
    or_false, not_or] at distinct
  obtain ⟨⟨notEvery, -⟩, -, -⟩ := distinct
  have outside {mask first : VReg} (isMask : mask ∈ sum.masks)
      (isGroup : first ∈ sum.groups) : ¬ unit.InGroup first mask :=
    apart.outside mask isMask first isGroup
  -- Both comparisons read the prepared groups, which no mask lies in.
  have abovePlaced : ({ unit with vregs := before } : VectorUnit).MaskPlaced
      sum.above sum.positions sum.constants :=
    .inl ⟨outside (by simp [masks]) (by simp [groups]),
      outside (by simp [masks]) (by simp [groups])⟩
  obtain ⟨first, ranFirst, atFirst⟩ :=
    VectorUnit.vmsgt_setVregs abovePlaced startsPositions startsConstants
  have everyPlaced : ({ unit with vregs := first } : VectorUnit).MaskPlaced
      sum.every sum.constants sum.constants :=
    .inl ⟨outside (by simp [masks]) (by simp [groups]),
      outside (by simp [masks]) (by simp [groups])⟩
  obtain ⟨second, ranSecond, atSecond⟩ :=
    VectorUnit.vmseq_setVregs everyPlaced startsConstants startsConstants
  obtain ⟨third, ranThird, atThird⟩ :=
    VectorUnit.vmxor_setVregs { unit with vregs := second } sum.kept sum.above
      sum.every
  have preparedFirst : sum.Prepared unit k first :=
    prepared.of_maskPointwise apart (by simp [masks]) atFirst
  have preparedSecond : sum.Prepared unit k second :=
    preparedFirst.of_maskPointwise apart (by simp [masks]) atSecond
  have above : unit.HoldsMask first sum.above fun index =>
      decide ((k.setWidth unit.sew.bits).toInt < index) := by
    intro index below
    have compared : first.readMaskBit sum.above index =
        decide ((before.element sum.constants unit.sew index).toInt <
          (before.element sum.positions unit.sew index).toInt) :=
      atFirst.bits index below
    rw [compared, prepared.constants index below,
      prepared.positions index below, VectorUnit.toInt_ofNat_index below]
  have aboveSecond := above.of_maskPointwise atSecond notEvery
  have every : unit.HoldsMask second sum.every fun _ => true := by
    intro index below
    exact (atSecond.bits index below).trans (decide_eq_true rfl)
  refine ⟨third, ?_, ?_, ?_⟩
  · simp only [selection, VectorUnit.runAll, ranFirst, ranSecond, ranThird]
  · exact preparedSecond.of_maskPointwise apart (by simp [masks]) atThird
  · intro index below
    have differs : third.readMaskBit sum.kept index =
        (second.readMaskBit sum.above index ^^
          second.readMaskBit sum.every index) := atThird.bits index below
    rw [differs, aboveSecond index below, every index below, Bool.xor_true]

theorem summed {before : VRegFile} (apart : sum.Apart unit.lmul)
    (prepared : sum.Prepared unit k before)
    (selected : unit.HoldsMask before sum.kept fun index =>
      !decide ((k.setWidth unit.sew.bits).toInt < index)) :
    ∃ vregs,
      ({ unit with vregs := before } : VectorUnit).vaddMasked sum.sums sum.kept
          sum.zeros sum.constants sum.positions =
        (.ok (), { unit with vregs }) ∧
      unit.Holds vregs sum.sums fun index =>
        if (k.setWidth unit.sew.bits).toInt < index then 0
        else k.setWidth unit.sew.bits + BitVec.ofNat unit.sew.bits index := by
  have accepts : (ElementOp.addMasked sum.sums sum.kept sum.zeros sum.constants
      sum.positions).Accepts { unit with vregs := before } := by
    refine ⟨?_, trivial⟩
    intro register member
    apply apart.startsGroup
    simp only [ElementOp.groups, List.mem_cons, List.not_mem_nil,
      or_false] at member
    rcases member with rfl | rfl | rfl <;> simp [groups]
  have guaranteed : (ElementOp.addMasked sum.sums sum.kept sum.zeros
      sum.constants sum.positions).Guaranteed { unit with vregs := before } :=
    ⟨apart.startsGroup (by simp [groups]),
      apart.outside sum.kept (by simp [masks]) sum.sums (by simp [groups])⟩
  obtain ⟨after, ran, pointwise⟩ := VectorUnit.run_setVregs accepts guaranteed
  refine ⟨after, ran, ?_⟩
  intro index below
  have short : index < 128 :=
    Nat.lt_of_lt_of_le below unit.vl_le_vectorBits
  have keeps : before.bit (128 * sum.kept.toNat + index) =
      !decide ((k.setWidth unit.sew.bits).toInt < index) := by
    have bit := selected index below
    rwa [readMaskBit_eq_bit, Nat.mod_eq_of_lt short] at bit
  have added : after.element sum.sums unit.sew index =
      if before.bit (128 * sum.kept.toNat + index) then
        before.element sum.constants unit.sew index +
          before.element sum.positions unit.sew index
      else before.element sum.zeros unit.sew index :=
    pointwise.elements index below
  rw [added, keeps, prepared.constants index below,
    prepared.positions index below, prepared.zeros index below]
  simp only [Bool.not_eq_true', decide_eq_false_iff_not, ite_not]

/-- In every configuration, with any registers before, the operations succeed
and leave the sum of the constant and the number of the element, or zero where
the number is above what the constant stands for in the element width. -/
theorem sums_elements (sum : MaskedSum) (unit : VectorUnit) (avl : Nat)
    (sew : ElementWidth) (lmul : Lmul) (k : Word) (apart : sum.Apart lmul) :
    ∃ configured after,
      unit.vsetvl avl (some sew) (some lmul) =
        (.ok (min avl (vlmax sew lmul)), configured) ∧
      configured.runAll (sum.operations k) = (.ok (), after) ∧
      ∀ index, index < min avl (vlmax sew lmul) →
        (after.vregs.element sum.sums sew index).toNat =
          if (k.setWidth sew.bits).toInt < index then 0
          else (k.toNat + index) % 2 ^ sew.bits := by
  let configured : VectorUnit :=
    { vregs := unit.vregs, vl := min avl (vlmax sew lmul), sew, lmul
      vl_le := Nat.min_le_right _ _ }
  have apartConfigured : sum.Apart configured.lmul := apart
  obtain ⟨first, ranFirst, preparedFirst⟩ := prepared (k := k) apartConfigured
  obtain ⟨second, ranSecond, preparedSecond, selectedSecond⟩ :=
    selected apartConfigured preparedFirst
  obtain ⟨third, ranThird, sums⟩ :=
    summed apartConfigured preparedSecond selectedSecond
  refine ⟨configured, { configured with vregs := third }, rfl, ?_, ?_⟩
  · rw [operations, List.append_assoc, VectorUnit.runAll_append_ok ranFirst,
      VectorUnit.runAll_append_ok ranSecond, VectorUnit.runAll_cons_ok ranThird]
    rfl
  · intro index below
    have computed : third.element sum.sums sew index =
        if (k.setWidth sew.bits).toInt < index then 0
        else k.setWidth sew.bits + BitVec.ofNat sew.bits index :=
      sums index below
    rw [computed]
    split
    case isTrue => exact BitVec.toNat_zero
    case isFalse =>
      rw [BitVec.toNat_add, BitVec.toNat_setWidth, BitVec.toNat_ofNat,
        ← Nat.add_mod]

/-- Groups of four registers, with the masks in the first four. -/
def quadruple : MaskedSum where
  constants := 4
  positions := 8
  zeros := 12
  sums := 16
  above := 1
  every := 2
  kept := 3

theorem quadruple_apart : quadruple.Apart .m4 :=
  ⟨by decide, by decide, by decide, by decide⟩

/-- The constant 258 stands for two in a byte, and three is above it. -/
theorem sums_elements_bytes :
    quadruple.Apart .m4 ∧
    ∃ configured after,
      VectorUnit.initial.vsetvl 100 (some .e8) (some .m4) =
        (.ok 64, configured) ∧
      configured.runAll (quadruple.operations 258) = (.ok (), after) ∧
      (after.vregs.element 16 .e8 2).toNat = 4 ∧
      (after.vregs.element 16 .e8 3).toNat = 0 := by
  obtain ⟨configured, after, set, ran, sums⟩ :=
    sums_elements quadruple .initial 100 .e8 .m4 258 quadruple_apart
  exact ⟨quadruple_apart, configured, after, set, ran, sums 2 (by decide),
    sums 3 (by decide)⟩

end MaskedSum

end VectorBench
