import VectorBench.Proofs.VectorUnit.Pointwise

/-!
# Mask results

A comparison packs its results into one register, a bit for each element.  Bit
`index` of a register lies before element `index + 1` of the group that starts
there, so a comparison that writes over the first register of a source has
read every element before it reaches that element's bits.
-/

namespace VectorBench

namespace VRegFile

variable {register source : VReg} {value : Nat → Bool}

/-- The first `count` mask bits of a register are given ones, and the file is
otherwise the one before. -/
structure MaskFilled (register : VReg) (value : Nat → Bool) (count : Nat)
    (before after : VRegFile) : Prop where
  bits : ∀ index, index < count →
    after.readMaskBit register index = value index
  others : SameOutside (128 * register.toNat) (128 * register.toNat + count)
    after before

namespace MaskFilled

variable {count : Nat} {before current : VRegFile}

theorem zero (register : VReg) (value : Nat → Bool) (file : VRegFile) :
    MaskFilled register value 0 file file where
  bits := fun _index impossible => absurd impossible (Nat.not_lt_zero _)
  others := SameOutside.refl _ _ file

theorem succ (filled : MaskFilled register value count before current)
    (inside : count < 128) :
    MaskFilled register value (count + 1) before
      (current.writeMaskBit register count (value count)) := by
  constructor
  case bits =>
    intro index below
    have earlier := filled.bits index
    rw [readMaskBit_eq_bit] at earlier ⊢
    rw [bit_writeMaskBit]
    rcases Nat.lt_succ_iff_lt_or_eq.mp below with written | rfl
    · rw [if_neg (by omega)]
      exact earlier written
    · rw [if_pos rfl]
  case others =>
    intro place outside
    rw [bit_writeMaskBit, if_neg (by omega)]
    exact filled.others place (by omega)

/-- A mask bit is untouched until the destination reaches it, also in the
destination itself. -/
theorem readMaskBit (filled : MaskFilled register value count before current)
    (inside : count < 128) :
    current.readMaskBit source count = before.readMaskBit source count := by
  rw [readMaskBit_eq_bit, readMaskBit_eq_bit]
  apply filled.others
  by_cases same : source = register
  · subst same
    omega
  · have numbers : source.toNat ≠ register.toNat :=
      fun equal => same (BitVec.eq_of_toNat_eq equal)
    omega

end MaskFilled

theorem computeMask_filled {bit : VRegFile → Nat → Except Fault Bool}
    {before current : VRegFile} {count index : Nat}
    (inside : index + count ≤ 128)
    (computes : ∀ i file, i < index + count →
      MaskFilled register value i before file → bit file i = .ok (value i))
    (filled : MaskFilled register value index before current) :
    ∃ after, computeMask register bit count index current = (.ok (), after) ∧
      MaskFilled register value (index + count) before after := by
  induction count generalizing index current with
  | zero => exact ⟨current, rfl, filled⟩
  | succ count ih =>
      have computed := computes index current (by omega) filled
      have further := filled.succ (by omega)
      have shifted : index + (count + 1) = index + 1 + count := by omega
      rw [shifted] at inside computes ⊢
      obtain ⟨after, ran, done⟩ := ih inside computes further
      refine ⟨after, ?_, done⟩
      simp only [computeMask, computed, ran]

end VRegFile

namespace VectorUnit

open VRegFile

variable {unit : VectorUnit} {vd vs vs1 vs2 : VReg} {index : Nat}

/-- The mask bits of a register below the vector length are given ones, and
nothing else has changed. -/
structure MaskPointwise (before after : VectorUnit) (vd : VReg)
    (value : Nat → Bool) : Prop where
  bits : ∀ index, index < before.vl →
    after.vregs.readMaskBit vd index = value index
  tail : ∀ index, before.vl ≤ index → index < 128 →
    after.vregs.readMaskBit vd index = before.vregs.readMaskBit vd index
  others : ∀ register, register ≠ vd →
    after.vregs.readRegister register = before.vregs.readRegister register
  vl : after.vl = before.vl
  sew : after.sew = before.sew
  lmul : after.lmul = before.lmul

theorem vl_le_vectorBits (unit : VectorUnit) : unit.vl ≤ 128 :=
  Nat.le_trans unit.vl_le (vlmax_le unit.sew unit.lmul)

/-- A loop over mask bits whose steps compute given ones. -/
theorem onGroups_maskPointwise {registers : List VReg}
    {bit : VRegFile → Nat → Except Fault Bool} {value : Nat → Bool}
    (starts : ∀ register ∈ registers, unit.startsGroup register)
    (computes : ∀ index file, index < unit.vl →
      MaskFilled vd value index unit.vregs file →
      bit file index = .ok (value index)) :
    ∃ after,
      unit.onGroups registers (computeMask vd bit unit.vl 0) =
        (.ok (), after) ∧
      MaskPointwise unit after vd value := by
  have short := unit.vl_le_vectorBits
  rw [← Nat.zero_add unit.vl] at computes short
  obtain ⟨file, ran, filled⟩ := computeMask_filled short computes
    (MaskFilled.zero vd value unit.vregs)
  rw [Nat.zero_add] at filled short
  refine ⟨{ unit with vregs := file }, ?_, ?_⟩
  · rw [onGroups_accepted starts, ran]
  · constructor
    case bits => exact filled.bits
    case tail =>
      intro index above inside
      rw [readMaskBit_eq_bit, readMaskBit_eq_bit, Nat.mod_eq_of_lt inside]
      exact filled.others _ (by omega)
    case others =>
      intro register distinct
      have numbers : register.toNat ≠ vd.toNat :=
        fun same => distinct (BitVec.eq_of_toNat_eq same)
      apply filled.others.readRegister
      omega
    case vl => rfl
    case sew => rfl
    case lmul => rfl

section Sources

variable {value : Nat → Bool} {file : VRegFile}

/-- A comparison still finds the element it needs next in a source whose first
register it writes over. -/
theorem element_maskFilled
    (filled : MaskFilled vd value index unit.vregs file)
    (source : unit.startsGroup vs) (apart : vd = vs ∨ ¬ unit.InGroup vs vd)
    (below : index < unit.vl) :
    file.element vs unit.sew index = unit.vregs.element vs unit.sew index := by
  have inside := lt_vlmax below
  have short := unit.vl_le_vectorBits
  apply filled.others.element (contains_of_startsGroup source inside)
  rcases apart with rfl | outside
  · right
    have ahead : index ≤ index * unit.sew.bits :=
      Nat.le_mul_of_pos_right index unit.sew.bits_pos
    unfold elementPlace
    omega
  · have starts := elementPlace_mono vs unit.sew (Nat.zero_le index)
    have ends : elementPlace vs unit.sew index + unit.sew.bits ≤
        128 * (vs.toNat + unit.lmul.registers) :=
      elementPlace_add_bits_le inside
    rw [elementPlace_zero] at starts
    unfold InGroup at outside
    omega

theorem combine_maskFilled {α : Type} {function : Word → Word → α}
    (filled : MaskFilled vd value index unit.vregs file)
    (left : unit.startsGroup vs2) (right : unit.startsGroup vs1)
    (apartLeft : vd = vs2 ∨ ¬ unit.InGroup vs2 vd)
    (apartRight : vd = vs1 ∨ ¬ unit.InGroup vs1 vd)
    (below : index < unit.vl) :
    file.combine unit.sew vs2 vs1 function index =
      .ok (function ((unit.vregs.element vs2 unit.sew index).setWidth 32)
        ((unit.vregs.element vs1 unit.sew index).setWidth 32)) := by
  have inside := lt_vlmax below
  unfold combine
  rw [readElement_eq (contains_of_startsGroup left inside),
    readElement_eq (contains_of_startsGroup right inside),
    element_maskFilled filled left apartLeft below,
    element_maskFilled filled right apartRight below]
  rfl

end Sources

/-- The first register of one group is the first of another one or lies
outside it. -/
theorem eq_or_not_inGroup (first : unit.startsGroup vd)
    (source : unit.startsGroup vs) : vd = vs ∨ ¬ unit.InGroup vs vd := by
  have positive := unit.lmul.registers_pos
  unfold InGroup
  rcases group_eq_or_disjoint first source with same | below | above
  · exact .inl same
  · right; omega
  · right; omega

/-- Where the mask of a comparison may go. -/
def MaskPlaced (unit : VectorUnit) (vd vs2 vs1 : VReg) : Prop :=
  ¬ unit.InGroup vs2 vd ∧ ¬ unit.InGroup vs1 vd ∨ vd = vs2 ∨ vd = vs1

theorem MaskPlaced.apart (placed : unit.MaskPlaced vd vs2 vs1)
    (left : unit.startsGroup vs2) (right : unit.startsGroup vs1) :
    (vd = vs2 ∨ ¬ unit.InGroup vs2 vd) ∧ (vd = vs1 ∨ ¬ unit.InGroup vs1 vd) := by
  rcases placed with ⟨outsideLeft, outsideRight⟩ | rfl | rfl
  · exact ⟨.inr outsideLeft, .inr outsideRight⟩
  · exact ⟨.inl rfl, eq_or_not_inGroup left right⟩
  · exact ⟨eq_or_not_inGroup right left, .inl rfl⟩

theorem compare_pointwise {holds : Word → Word → Bool} {value : Nat → Bool}
    (left : unit.startsGroup vs2) (right : unit.startsGroup vs1)
    (placed : unit.MaskPlaced vd vs2 vs1)
    (decides : ∀ index,
      holds ((unit.vregs.element vs2 unit.sew index).setWidth 32)
        ((unit.vregs.element vs1 unit.sew index).setWidth 32) = value index) :
    ∃ after, unit.compare vd vs2 vs1 holds = (.ok (), after) ∧
      MaskPointwise unit after vd value := by
  obtain ⟨apartLeft, apartRight⟩ := placed.apart left right
  apply onGroups_maskPointwise
  · simp [left, right]
  · intro index file below filled
    rw [← decides index]
    exact combine_maskFilled filled left right apartLeft apartRight below

theorem slt_widen (width : ElementWidth) (a b : BitVec width.bits) :
    (width.signExtend (b.setWidth 32)).slt
        (width.signExtend (a.setWidth 32)) =
      decide (b.toInt < a.toInt) := by
  rw [ElementWidth.slt_signExtend, narrow_widen, narrow_widen,
    BitVec.slt_eq_decide]

theorem beq_widen (width : ElementWidth) (a b : BitVec width.bits) :
    (a.setWidth 32 == b.setWidth 32) = decide (a.toInt = b.toInt) := by
  have same : a.setWidth 32 = b.setWidth 32 ↔ a.toInt = b.toInt := by
    constructor
    · intro widened
      rw [← narrow_widen width a, widened, narrow_widen]
    · intro numbers
      rw [BitVec.eq_of_toInt_eq numbers]
  rw [Bool.eq_iff_iff, beq_iff_eq, decide_eq_true_iff]
  exact same

/-- The difference of two masks may overwrite either of them. -/
theorem vmxor_pointwise (unit : VectorUnit) (vd vs2 vs1 : VReg) :
    ∃ after, unit.vmxor vd vs2 vs1 = (.ok (), after) ∧
      MaskPointwise unit after vd fun index =>
        (unit.vregs.readMaskBit vs2 index ^^
          unit.vregs.readMaskBit vs1 index) := by
  apply onGroups_maskPointwise
  · simp
  · intro index file below filled
    have inside : index < 128 :=
      Nat.lt_of_lt_of_le below unit.vl_le_vectorBits
    rw [filled.readMaskBit inside, filled.readMaskBit inside]

/-- What the operations with a mask result do in every state.  A comparison
may write its mask over the first register of a source. -/
theorem maskOperations_pointwise (unit : VectorUnit) (vd vs2 vs1 : VReg) :
    (unit.startsGroup vs2 → unit.startsGroup vs1 →
      unit.MaskPlaced vd vs2 vs1 →
      (∃ after, unit.vmsgt vd vs2 vs1 = (.ok (), after) ∧
        MaskPointwise unit after vd fun index =>
          decide ((unit.vregs.element vs1 unit.sew index).toInt <
            (unit.vregs.element vs2 unit.sew index).toInt)) ∧
      ∃ after, unit.vmseq vd vs2 vs1 = (.ok (), after) ∧
        MaskPointwise unit after vd fun index =>
          decide ((unit.vregs.element vs2 unit.sew index).toInt =
            (unit.vregs.element vs1 unit.sew index).toInt)) ∧
    ∃ after, unit.vmxor vd vs2 vs1 = (.ok (), after) ∧
      MaskPointwise unit after vd fun index =>
        (unit.vregs.readMaskBit vs2 index ^^
          unit.vregs.readMaskBit vs1 index) := by
  constructor
  · intro left right placed
    constructor
    · apply compare_pointwise left right placed
      intro index
      exact slt_widen _ _ _
    · apply compare_pointwise left right placed
      intro index
      exact beq_widen _ _ _
  · exact unit.vmxor_pointwise vd vs2 vs1

/-- Twenty signed bytes in groups of two registers: 1, -1, 5, -128 and zeros
against 1, 1, -7 and zeros. -/
def signedBytes : VectorUnit where
  vregs :=
    (VRegFile.zeroed.writeRegister 2 #v[0x8005ff01, 0, 0, 0]).writeRegister 4
      #v[0x00f90101, 0, 0, 0]
  vl := 20
  sew := .e8
  lmul := .m2
  vl_le := by decide

/-- Masks over the first register of one source and of both. -/
theorem maskOperations_pointwise_signedBytes :
    signedBytes.startsGroup 2 ∧ signedBytes.startsGroup 4 ∧
    signedBytes.MaskPlaced 2 2 4 ∧ signedBytes.MaskPlaced 2 2 2 ∧
    (∃ after, signedBytes.vmsgt 2 2 4 = (.ok (), after) ∧
      (List.range 5).map (after.vregs.readMaskBit 2) =
        [false, false, true, false, false] ∧
      after.vregs.readMaskBit 2 31 = true) ∧
    ∃ after, signedBytes.vmseq 2 2 2 = (.ok (), after) ∧
      after.vregs.readMaskBit 2 19 = true := by
  have left : signedBytes.startsGroup 2 := by decide
  have right : signedBytes.startsGroup 4 := by decide
  have overOne : signedBytes.MaskPlaced 2 2 4 := .inr (.inl rfl)
  have overBoth : signedBytes.MaskPlaced 2 2 2 := .inr (.inl rfl)
  obtain ⟨⟨greater, ranGreater, isGreater⟩, _equal⟩ :=
    (maskOperations_pointwise signedBytes 2 2 4).1 left right overOne
  obtain ⟨_greater, equal, ranEqual, isEqual⟩ :=
    (maskOperations_pointwise signedBytes 2 2 2).1 left left overBoth
  refine ⟨left, right, overOne, overBoth, ⟨greater, ranGreater, ?_, ?_⟩,
    equal, ranEqual, ?_⟩
  · have computed : (List.range 5).map (greater.vregs.readMaskBit 2) = _ :=
      List.map_congr_left fun index member =>
        isGreater.bits index (Nat.lt_trans (List.mem_range.mp member) (by decide))
    exact computed.trans (by decide)
  · exact (isGreater.tail 31 (by decide) (by decide)).trans (by decide)
  · exact (isEqual.bits 19 (by decide)).trans (by decide)

end VectorUnit

end VectorBench
