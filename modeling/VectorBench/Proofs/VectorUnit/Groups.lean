import VectorBench.Proofs.VectorUnit.Loops

/-!
# Register groups

A group starts at a multiple of its size, so two groups of one size are the
same or share no register.  This is what lets an operation write over one of
its own sources: the elements still to be read come after those written.
-/

namespace VectorBench

namespace VectorUnit

open VRegFile

variable {unit : VectorUnit} {vd vs register : VReg} {index : Nat}

/-- A register belongs to the group that starts at another one. -/
def InGroup (unit : VectorUnit) (first register : VReg) : Prop :=
  first.toNat ≤ register.toNat ∧
    register.toNat < first.toNat + unit.lmul.registers

instance (unit : VectorUnit) (first register : VReg) :
    Decidable (unit.InGroup first register) :=
  inferInstanceAs (Decidable (_ ∧ _))

theorem startsGroup_iff :
    unit.startsGroup register = true ↔
      register.toNat % unit.lmul.registers = 0 ∧
        register.toNat + unit.lmul.registers ≤ 32 := by
  unfold startsGroup
  rw [Bool.and_eq_true, decide_eq_true_iff, decide_eq_true_iff]

/-- Groups of one size are equal or disjoint. -/
theorem group_eq_or_disjoint (destination : unit.startsGroup vd)
    (source : unit.startsGroup vs) :
    vd = vs ∨ vs.toNat + unit.lmul.registers ≤ vd.toNat ∨
      vd.toNat + unit.lmul.registers ≤ vs.toNat := by
  obtain ⟨alignedDestination, _fits⟩ := startsGroup_iff.mp destination
  obtain ⟨alignedSource, _fits⟩ := startsGroup_iff.mp source
  rcases Nat.lt_trichotomy vd.toNat vs.toNat with below | same | above
  · right; right
    revert alignedDestination alignedSource
    cases unit.lmul <;> simp only [Lmul.registers] <;> omega
  · exact .inl (BitVec.eq_of_toNat_eq same)
  · right; left
    revert alignedDestination alignedSource
    cases unit.lmul <;> simp only [Lmul.registers] <;> omega

/-- The elements of a group fill its registers exactly. -/
theorem vlmax_mul_bits (sew : ElementWidth) (lmul : Lmul) :
    vlmax sew lmul * sew.bits = 128 * lmul.registers := by
  cases sew <;> cases lmul <;> rfl

theorem elementPlace_vlmax (unit : VectorUnit) (register : VReg) :
    elementPlace register unit.sew (vlmax unit.sew unit.lmul) =
      128 * (register.toNat + unit.lmul.registers) := by
  rw [elementPlace, vlmax_mul_bits, Nat.mul_add]

theorem elementPlace_zero (register : VReg) (width : ElementWidth) :
    elementPlace register width 0 = 128 * register.toNat := by
  rw [elementPlace, Nat.zero_mul, Nat.add_zero]

/-- An element of a group ends where the group ends or before. -/
theorem elementPlace_add_bits_le
    (inside : index < vlmax unit.sew unit.lmul) :
    elementPlace register unit.sew index + unit.sew.bits ≤
      128 * (register.toNat + unit.lmul.registers) := by
  rw [← elementPlace_succ, ← elementPlace_vlmax]
  exact elementPlace_mono register unit.sew inside

theorem contains_of_startsGroup (starts : unit.startsGroup register)
    (inside : index < vlmax unit.sew unit.lmul) :
    Contains register unit.sew index := by
  have ends : elementPlace register unit.sew index + unit.sew.bits ≤
      128 * (register.toNat + unit.lmul.registers) :=
    elementPlace_add_bits_le inside
  have fits := (startsGroup_iff.mp starts).2
  have positive := unit.sew.bits_pos
  unfold Contains
  omega

/-- An element of a group is the same in two files that agree on the registers
of the group. -/
theorem element_eq_of_group_eq {left right : VRegFile}
    (source : unit.startsGroup vs)
    (inside : index < vlmax unit.sew unit.lmul)
    (same : ∀ register, unit.InGroup vs register →
      left.readRegister register = right.readRegister register) :
    left.element vs unit.sew index = right.element vs unit.sew index := by
  have ends : elementPlace vs unit.sew index + unit.sew.bits ≤
      128 * (vs.toNat + unit.lmul.registers) :=
    elementPlace_add_bits_le inside
  have positive := unit.sew.bits_pos
  have fits := (startsGroup_iff.mp source).2
  unfold elementPlace at ends
  have holder :
      (vs + BitVec.ofNat 5 (index * unit.sew.bits / 128)).toNat =
        vs.toNat + index * unit.sew.bits / 128 := by
    rw [BitVec.toNat_add, BitVec.toNat_ofNat]
    omega
  have member : unit.InGroup vs
      (vs + BitVec.ofNat 5 (index * unit.sew.bits / 128)) := by
    unfold InGroup
    rw [holder]
    omega
  unfold element
  rw [readWord_eq_of_readRegister_eq (same _ member)]

theorem lt_vlmax (below : index < unit.vl) :
    index < vlmax unit.sew unit.lmul :=
  Nat.lt_of_lt_of_le below unit.vl_le

section Filled

variable {value : Nat → Word} {count : Nat} {before after : VRegFile}

/-- An element of a source is untouched until the destination reaches it. -/
theorem element_filled
    (filled : Filled vd unit.sew value count before after)
    (destination : unit.startsGroup vd) (source : unit.startsGroup vs)
    (bounded : count ≤ vlmax unit.sew unit.lmul) (ahead : count ≤ index)
    (inside : index < vlmax unit.sew unit.lmul) :
    after.element vs unit.sew index = before.element vs unit.sew index := by
  have sourceStart := elementPlace_zero vs unit.sew
  have sourceFrom := elementPlace_mono vs unit.sew (Nat.zero_le index)
  have sourceEnd : elementPlace vs unit.sew index + unit.sew.bits ≤
      128 * (vs.toNat + unit.lmul.registers) :=
    elementPlace_add_bits_le inside
  have writtenEnd := elementPlace_mono vd unit.sew bounded
  rw [elementPlace_vlmax] at writtenEnd
  apply filled.others.element (contains_of_startsGroup source inside)
  rw [elementPlace_zero]
  rcases group_eq_or_disjoint destination source with rfl | below | above
  · exact .inr (elementPlace_mono vd unit.sew ahead)
  · left; omega
  · right; omega

/-- A register outside the destination is untouched. -/
theorem outside_group_filled
    (filled : Filled vd unit.sew value count before after)
    (bounded : count ≤ vlmax unit.sew unit.lmul)
    (outside : ¬ unit.InGroup vd register) :
    after.readRegister register = before.readRegister register := by
  have writtenEnd := elementPlace_mono vd unit.sew bounded
  rw [elementPlace_vlmax] at writtenEnd
  apply filled.others.readRegister
  rw [elementPlace_zero]
  unfold InGroup at outside
  omega

/-- A mask register outside the destination keeps its mask bits. -/
theorem readMaskBit_filled
    (filled : Filled vd unit.sew value count before after)
    (bounded : count ≤ vlmax unit.sew unit.lmul)
    (outside : ¬ unit.InGroup vd register)
    (inside : index < vlmax unit.sew unit.lmul) :
    after.readMaskBit register index =
      before.bit (128 * register.toNat + index) := by
  have writtenEnd := elementPlace_mono vd unit.sew bounded
  rw [elementPlace_vlmax] at writtenEnd
  have small : index < 128 :=
    Nat.lt_of_lt_of_le inside (vlmax_le unit.sew unit.lmul)
  rw [readMaskBit_eq_bit, Nat.mod_eq_of_lt small]
  apply filled.others
  rw [elementPlace_zero]
  unfold InGroup at outside
  omega

end Filled

end VectorUnit

end VectorBench
