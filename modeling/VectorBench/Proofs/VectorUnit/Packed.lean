import VectorBench.Proofs.Datapath.Lanes
import VectorBench.Proofs.VectorUnit.Masks

/-!
# Packed arithmetic

The vector unit computes a group element by element, the software model a
register word by word.  An element of a group is a lane of one of its words, so
where the vector length covers whole groups the two leave the same registers.
-/

namespace VectorBench

open VRegFile

namespace VRegFile

variable {result left right : VRegFile} {rd rs1 rs2 : VReg}
  {width : ElementWidth}

/-- The element of a group that is lane `index` of word `word` of its register
`holder`. -/
def elementIndex (width : ElementWidth) (holder word index : Nat) : Nat :=
  (4 * holder + word) * width.lanes + index

theorem elementIndex_mul_bits (width : ElementWidth) (holder word index : Nat) :
    elementIndex width holder word index * width.bits =
      (4 * holder + word) * 32 + index * width.bits := by
  rw [elementIndex, Nat.add_mul, Nat.mul_assoc, width.lanes_mul_bits]

theorem lane_readWord (file : VRegFile) (register : VReg) {holder word index : Nat}
    (inWords : word < 4) (inLanes : index < width.lanes) :
    width.lane (file.readWord (register + BitVec.ofNat 5 holder) word) index =
      file.element register width (elementIndex width holder word index) := by
  have fits := ElementWidth.add_bits_le inLanes
  have positive := width.bits_pos
  have start := elementIndex_mul_bits width holder word index
  have register_eq : elementIndex width holder word index * width.bits / 128 =
      holder := by omega
  have word_eq : elementIndex width holder word index * width.bits / 32 % 4 =
      word % 4 := by omega
  have offset_eq : elementIndex width holder word index * width.bits % 32 =
      index * width.bits := by omega
  unfold element
  rw [register_eq, offset_eq]
  simp only [ElementWidth.lane, readWord, VRegFile.place, word_eq]

/-- A register whose lanes are an operation on the lanes of two others is what
the model makes of those. -/
theorem readRegister_eq_onVectors (operation : Operation)
    (lanes : ∀ word, word < 4 → ∀ index, index < width.lanes →
      width.lane (result.readWord rd word) index =
        operation.apply (width.lane (left.readWord rs1 word) index)
          (width.lane (right.readWord rs2 word) index)) :
    result.readRegister rd =
      Datapath.model.onVectors operation.funct3 width.funct7
        (left.readRegister rs1) (right.readRegister rs2) := by
  apply Vector.ext
  intro word inWords
  rw [Datapath.onVectors, Vector.getElem_zipWith, getElem_readRegister,
    getElem_readRegister, getElem_readRegister, Datapath.model_eq_lanewise]
  apply ElementWidth.eq_of_lane_eq
  intro index inLanes
  rw [operation.lane_lanewise _ _ inLanes]
  exact lanes word inWords index inLanes

theorem getLsbD_readWord_eq_readMaskBit (file : VRegFile) (register : VReg)
    {word offset : Nat} (inWords : word < 4) (inside : offset < 32) :
    (file.readWord register word).getLsbD offset =
      file.readMaskBit register (32 * word + offset) := by
  have word_eq : (32 * word + offset) % vectorBits / 32 = word := by
    unfold vectorBits
    omega
  have offset_eq : (32 * word + offset) % 32 = offset := by omega
  rw [readMaskBit, word_eq, offset_eq]

end VRegFile

namespace VectorUnit

variable {unit : VectorUnit} {vd vs1 vs2 : VReg} {holder word index : Nat}

/-- The vector length covers whole register groups. -/
def CoversGroups (unit : VectorUnit) : Prop :=
  unit.vl = vlmax unit.sew unit.lmul

theorem elementIndex_lt (covers : unit.CoversGroups)
    (inGroup : holder < unit.lmul.registers) (inWords : word < 4)
    (inLanes : index < unit.sew.lanes) :
    elementIndex unit.sew holder word index < unit.vl := by
  unfold CoversGroups at covers
  have positive := unit.sew.bits_pos
  have capacity := vlmax_mul_bits unit.sew unit.lmul
  have fits := ElementWidth.add_bits_le inLanes
  have start := elementIndex_mul_bits unit.sew holder word index
  have below : elementIndex unit.sew holder word index * unit.sew.bits <
      vlmax unit.sew unit.lmul * unit.sew.bits := by omega
  rw [covers]
  exact Nat.lt_of_mul_lt_mul_right below

/-- After an operation on elements, the lanes of its destination are the
values of the elements. -/
theorem Pointwise.lane_readWord {before after : VectorUnit}
    {value : Nat → BitVec before.sew.bits}
    (pointwise : Pointwise before after vd value)
    (covers : before.CoversGroups) (inGroup : holder < before.lmul.registers)
    (inWords : word < 4) (inLanes : index < before.sew.lanes) :
    before.sew.lane
        (after.vregs.readWord (vd + BitVec.ofNat 5 holder) word) index =
      value (elementIndex before.sew holder word index) := by
  rw [VRegFile.lane_readWord _ _ inWords inLanes]
  exact pointwise.elements _ (elementIndex_lt covers inGroup inWords inLanes)

theorem vadd_packed (covers : unit.CoversGroups)
    (destination : unit.startsGroup vd) (left : unit.startsGroup vs2)
    (right : unit.startsGroup vs1) :
    ∃ after, unit.vadd vd vs2 vs1 = (.ok (), after) ∧
      ∀ holder, holder < unit.lmul.registers →
        after.vregs.readRegister (vd + BitVec.ofNat 5 holder) =
          Datapath.model.onVectors 0 unit.sew.funct7
            (unit.vregs.readRegister (vs1 + BitVec.ofNat 5 holder))
            (unit.vregs.readRegister (vs2 + BitVec.ofNat 5 holder)) := by
  have accepts : (ElementOp.add vd vs2 vs1).Accepts unit := by
    refine ⟨?_, trivial⟩
    simp [ElementOp.groups, destination, left, right]
  have guaranteed : (ElementOp.add vd vs2 vs1).Guaranteed unit := trivial
  obtain ⟨after, ran, pointwise⟩ := ElementOp.run_accepted guaranteed accepts
  refine ⟨after, ran, ?_⟩
  intro holder inGroup
  apply readRegister_eq_onVectors .add
  intro word inWords index inLanes
  rw [VRegFile.lane_readWord unit.vregs _ inWords inLanes,
    VRegFile.lane_readWord unit.vregs _ inWords inLanes]
  exact (pointwise.lane_readWord covers inGroup inWords inLanes).trans
    (BitVec.add_comm _ _)

/-- A scalar moved to a group fills every lane of it. -/
theorem vmoveScalar_lanes (covers : unit.CoversGroups)
    (destination : unit.startsGroup vd) (x : Word) :
    ∃ moved, unit.vmoveScalar vd x = (.ok (), moved) ∧
      ∀ holder, holder < unit.lmul.registers → ∀ word, word < 4 →
        ∀ index, index < unit.sew.lanes →
          unit.sew.lane
              (moved.vregs.readWord (vd + BitVec.ofNat 5 holder) word) index =
            x.setWidth unit.sew.bits := by
  have accepts : (ElementOp.moveScalar vd x).Accepts unit := by
    refine ⟨?_, trivial⟩
    simp [ElementOp.groups, destination]
  have guaranteed : (ElementOp.moveScalar vd x).Guaranteed unit := trivial
  obtain ⟨moved, ran, pointwise⟩ := ElementOp.run_accepted guaranteed accepts
  refine ⟨moved, ran, ?_⟩
  intro holder inGroup word inWords index inLanes
  exact pointwise.lane_readWord covers inGroup inWords inLanes

theorem vmulScalar_packed (covers : unit.CoversGroups)
    (destination : unit.startsGroup vd) (source : unit.startsGroup vs2)
    (x : Word) :
    ∃ after, unit.vmulScalar vd vs2 x = (.ok (), after) ∧
      ∀ (other : VectorUnit) (vs1 : VReg), other.sew = unit.sew →
        other.CoversGroups → other.startsGroup vs1 →
        ∃ moved, other.vmoveScalar vs1 x = (.ok (), moved) ∧
          ∀ holder, holder < unit.lmul.registers →
            ∀ filled, filled < other.lmul.registers →
              after.vregs.readRegister (vd + BitVec.ofNat 5 holder) =
                Datapath.model.onVectors 7 unit.sew.funct7
                  (unit.vregs.readRegister (vs2 + BitVec.ofNat 5 holder))
                  (moved.vregs.readRegister (vs1 + BitVec.ofNat 5 filled)) := by
  have accepts : (ElementOp.mulScalar vd vs2 x).Accepts unit := by
    refine ⟨?_, trivial⟩
    simp [ElementOp.groups, destination, source]
  have guaranteed : (ElementOp.mulScalar vd vs2 x).Guaranteed unit := trivial
  obtain ⟨after, ran, pointwise⟩ := ElementOp.run_accepted guaranteed accepts
  refine ⟨after, ran, ?_⟩
  intro other vs1 width coversOther starts
  obtain ⟨moved, filledAll, lanes⟩ := vmoveScalar_lanes coversOther starts x
  rw [width] at lanes
  refine ⟨moved, filledAll, ?_⟩
  intro holder inGroup filled inOther
  apply readRegister_eq_onVectors .mul
  intro word inWords index inLanes
  rw [lanes filled inOther word inWords index inLanes,
    VRegFile.lane_readWord unit.vregs _ inWords inLanes]
  exact pointwise.lane_readWord covers inGroup inWords inLanes

theorem vmxor_packed (full : unit.vl = 128) (vd vs2 vs1 : VReg) :
    ∃ after, unit.vmxor vd vs2 vs1 = (.ok (), after) ∧
      after.vregs.readRegister vd =
        Datapath.model.onVectors 4 0 (unit.vregs.readRegister vs2)
          (unit.vregs.readRegister vs1) := by
  obtain ⟨after, ran, masked⟩ := unit.vmxor_pointwise vd vs2 vs1
  refine ⟨after, ran, ?_⟩
  have words : ∀ word, word < 4 → after.vregs.readWord vd word =
      unit.vregs.readWord vs2 word ^^^ unit.vregs.readWord vs1 word := by
    intro word inWords
    apply BitVec.eq_of_getLsbD_eq
    intro offset inside
    rw [BitVec.getLsbD_xor,
      getLsbD_readWord_eq_readMaskBit _ _ inWords inside,
      getLsbD_readWord_eq_readMaskBit _ _ inWords inside,
      getLsbD_readWord_eq_readMaskBit _ _ inWords inside]
    exact masked.bits _ (by omega)
  -- Bits do not see where elements end, so the widest elements will do.
  have lanes : ∀ word, word < 4 → ∀ index, index < ElementWidth.e32.lanes →
      ElementWidth.e32.lane (after.vregs.readWord vd word) index =
        Operation.xor.apply
          (ElementWidth.e32.lane (unit.vregs.readWord vs2 word) index)
          (ElementWidth.e32.lane (unit.vregs.readWord vs1 word) index) := by
    intro word inWords index _inLanes
    rw [words word inWords]
    exact BitVec.extractLsb'_xor
  exact readRegister_eq_onVectors .xor lanes

/-- Element by element or word by word, the sum, the product with a scalar and
the difference of two masks come out the same.  The scalar is the one that a
move puts into the registers of any unit with elements of the same width. -/
theorem packed_arithmetic_agrees (unit : VectorUnit) :
    (unit.CoversGroups →
      (∀ vd vs2 vs1, unit.startsGroup vd → unit.startsGroup vs2 →
        unit.startsGroup vs1 →
        ∃ after, unit.vadd vd vs2 vs1 = (.ok (), after) ∧
          ∀ holder, holder < unit.lmul.registers →
            after.vregs.readRegister (vd + BitVec.ofNat 5 holder) =
              Datapath.model.onVectors 0 unit.sew.funct7
                (unit.vregs.readRegister (vs1 + BitVec.ofNat 5 holder))
                (unit.vregs.readRegister (vs2 + BitVec.ofNat 5 holder))) ∧
      ∀ vd vs2 x, unit.startsGroup vd → unit.startsGroup vs2 →
        ∃ after, unit.vmulScalar vd vs2 x = (.ok (), after) ∧
          ∀ (other : VectorUnit) (vs1 : VReg), other.sew = unit.sew →
            other.CoversGroups → other.startsGroup vs1 →
            ∃ moved, other.vmoveScalar vs1 x = (.ok (), moved) ∧
              ∀ holder, holder < unit.lmul.registers →
                ∀ filled, filled < other.lmul.registers →
                  after.vregs.readRegister (vd + BitVec.ofNat 5 holder) =
                    Datapath.model.onVectors 7 unit.sew.funct7
                      (unit.vregs.readRegister (vs2 + BitVec.ofNat 5 holder))
                      (moved.vregs.readRegister
                        (vs1 + BitVec.ofNat 5 filled))) ∧
    (unit.vl = 128 → ∀ vd vs2 vs1,
      ∃ after, unit.vmxor vd vs2 vs1 = (.ok (), after) ∧
        after.vregs.readRegister vd =
          Datapath.model.onVectors 4 0 (unit.vregs.readRegister vs2)
            (unit.vregs.readRegister vs1)) := by
  constructor
  · intro covers
    constructor
    · intro vd vs2 vs1 destination left right
      exact vadd_packed covers destination left right
    · intro vd vs2 x destination source
      exact vmulScalar_packed covers destination source x
  · intro full vd vs2 vs1
    exact vmxor_packed full vd vs2 vs1

/-- All 128 bytes of groups of eight registers. -/
def fullBytes : VectorUnit where
  vregs :=
    (VRegFile.zeroed.writeRegister 9 #v[0xff80fe01, 2, 3, 4]).writeRegister 17
      #v[0x01800201, 5, 6, 7]
  vl := 128
  sew := .e8
  lmul := .m8
  vl_le := by decide

/-- Bytes that wrap, computed over their own source. -/
theorem packed_arithmetic_agrees_fullBytes :
    fullBytes.CoversGroups ∧ fullBytes.startsGroup 8 ∧
    fullBytes.startsGroup 16 ∧ fullBytes.vl = 128 ∧
    (∃ after, fullBytes.vadd 8 8 16 = (.ok (), after) ∧
      after.vregs.readRegister 9 = #v[0x00000002, 7, 9, 11]) ∧
    (∃ after, fullBytes.vmulScalar 8 8 3 = (.ok (), after) ∧
      after.vregs.readRegister 9 = Datapath.model.onVectors 7 2
        #v[0xff80fe01, 2, 3, 4]
        ((fullBytes.vmoveScalar 16 3).2.vregs.readRegister 20)) ∧
    ∃ after, fullBytes.vmxor 9 9 17 = (.ok (), after) ∧
      after.vregs.readRegister 9 = #v[0xfe00fc00, 7, 5, 3] := by
  obtain ⟨arithmetic, masks⟩ := packed_arithmetic_agrees fullBytes
  have covers : fullBytes.CoversGroups := rfl
  have left : fullBytes.startsGroup 8 := by decide
  have right : fullBytes.startsGroup 16 := by decide
  obtain ⟨sums, products⟩ := arithmetic covers
  obtain ⟨sum, ranSum, isSum⟩ := sums 8 8 16 left left right
  obtain ⟨product, ranProduct, isProduct⟩ := products 8 8 3 left left
  obtain ⟨moved, ranMove, isMoved⟩ := isProduct fullBytes 16 rfl covers right
  obtain ⟨difference, ranDifference, isDifference⟩ := masks rfl 9 9 17
  refine ⟨covers, left, right, rfl, ⟨sum, ranSum, ?_⟩,
    ⟨product, ranProduct, ?_⟩, difference, ranDifference, ?_⟩
  · exact (isSum 1 (by decide)).trans (by decide +kernel)
  · rw [ranMove]
    exact isMoved 1 (by decide) 4 (by decide)
  · exact isDifference.trans (by decide +kernel)

end VectorUnit

end VectorBench
