import VectorBench.Matrix.Kernels
import VectorBench.Proofs.VectorUnit.Masks

/-!
# Operations in sequence

An accepted operation replaces the elements of one group or the bits of one
mask.  The configuration, the other groups and the other masks stay, and so
what one operation has computed is still there for a later one.
-/

namespace VectorBench

open VRegFile

/-- A register is the first one of a group of some size. -/
def Lmul.Starts (lmul : Lmul) (register : VReg) : Prop :=
  register.toNat % lmul.registers = 0 ∧ register.toNat + lmul.registers ≤ 32

instance (lmul : Lmul) : DecidablePred lmul.Starts :=
  fun _ => inferInstanceAs (Decidable (_ ∧ _))

theorem VRegFile.readMaskBit_eq_of_readRegister_eq {left right : VRegFile}
    {register : VReg}
    (same : left.readRegister register = right.readRegister register)
    (index : Nat) :
    left.readMaskBit register index = right.readMaskBit register index := by
  unfold readMaskBit
  rw [readWord_eq_of_readRegister_eq same]

namespace VectorUnit

variable {unit : VectorUnit} {vd vs vs1 vs2 register : VReg} {index : Nat}

theorem startsGroup_of_starts {registers : List VReg}
    (starts : ∀ register ∈ registers, unit.lmul.Starts register)
    (member : register ∈ registers) : unit.startsGroup register :=
  startsGroup_iff.mpr (starts register member)

theorem runAll_cons_ok {unit next : VectorUnit}
    {operation : VectorUnit → Except Fault Unit × VectorUnit}
    {operations : List (VectorUnit → Except Fault Unit × VectorUnit)}
    (ran : operation unit = (.ok (), next)) :
    runAll (operation :: operations) unit = runAll operations next := by
  rw [runAll, ran]

theorem runAll_append_ok {unit next : VectorUnit}
    {first second : List (VectorUnit → Except Fault Unit × VectorUnit)}
    (ran : runAll first unit = (.ok (), next)) :
    runAll (first ++ second) unit = runAll second next := by
  induction first generalizing unit with
  | nil =>
      cases ran
      rfl
  | cons operation first ih =>
      rw [runAll] at ran
      rw [List.cons_append, runAll]
      rcases answered : operation unit with ⟨fault | _, after⟩
      · rw [answered] at ran
        cases ran
      · rw [answered] at ran
        exact ih ran

/-! ### Groups -/

/-- An accepted operation on elements changes nothing but registers. -/
theorem run_setVregs {op : ElementOp} (accepts : op.Accepts unit)
    (guaranteed : op.Guaranteed unit) :
    ∃ vregs, op.run unit = (.ok (), { unit with vregs }) ∧
      Pointwise unit { unit with vregs } op.destination (op.value unit) := by
  obtain ⟨after, ran, pointwise⟩ := ElementOp.run_accepted guaranteed accepts
  have same := pointwise.eq_setVregs
  rw [same] at ran pointwise
  exact ⟨after.vregs, ran, pointwise⟩

/-! ### Masks -/

namespace MaskPointwise

variable {before after : VectorUnit} {value : Nat → Bool}

theorem eq_setVregs (pointwise : MaskPointwise before after vd value) :
    after = { before with vregs := after.vregs } := by
  obtain ⟨_bits, _tail, _others, vl, sew, lmul⟩ := pointwise
  cases before
  cases after
  cases vl
  cases sew
  cases lmul
  rfl

/-- The elements of a group that does not hold the mask have not changed. -/
theorem element_of_outside (pointwise : MaskPointwise before after vd value)
    (source : before.startsGroup vs) (outside : ¬ before.InGroup vs vd)
    (inside : index < vlmax before.sew before.lmul) :
    after.vregs.element vs before.sew index =
      before.vregs.element vs before.sew index := by
  apply element_eq_of_group_eq source inside
  intro register member
  apply pointwise.others
  intro same
  exact outside (same ▸ member)

theorem readMaskBit_of_ne (pointwise : MaskPointwise before after vd value)
    (distinct : vs ≠ vd) (index : Nat) :
    after.vregs.readMaskBit vs index = before.vregs.readMaskBit vs index :=
  readMaskBit_eq_of_readRegister_eq (pointwise.others vs distinct) index

end MaskPointwise

/-- An operation that computes a mask changes nothing but registers. -/
theorem exists_setVregs_of_mask {value : Nat → Bool}
    {outcome : Except Fault Unit × VectorUnit}
    (computed : ∃ after, outcome = (.ok (), after) ∧
      MaskPointwise unit after vd value) :
    ∃ vregs, outcome = (.ok (), { unit with vregs }) ∧
      MaskPointwise unit { unit with vregs } vd value := by
  obtain ⟨after, ran, pointwise⟩ := computed
  have same := pointwise.eq_setVregs
  rw [same] at ran pointwise
  exact ⟨after.vregs, ran, pointwise⟩

theorem vmsgt_setVregs (placed : unit.MaskPlaced vd vs2 vs1)
    (left : unit.startsGroup vs2) (right : unit.startsGroup vs1) :
    ∃ vregs, unit.vmsgt vd vs2 vs1 = (.ok (), { unit with vregs }) ∧
      MaskPointwise unit { unit with vregs } vd fun index =>
        decide ((unit.vregs.element vs1 unit.sew index).toInt <
          (unit.vregs.element vs2 unit.sew index).toInt) :=
  exists_setVregs_of_mask
    (compare_pointwise left right placed fun _index => slt_widen _ _ _)

theorem vmseq_setVregs (placed : unit.MaskPlaced vd vs2 vs1)
    (left : unit.startsGroup vs2) (right : unit.startsGroup vs1) :
    ∃ vregs, unit.vmseq vd vs2 vs1 = (.ok (), { unit with vregs }) ∧
      MaskPointwise unit { unit with vregs } vd fun index =>
        decide ((unit.vregs.element vs2 unit.sew index).toInt =
          (unit.vregs.element vs1 unit.sew index).toInt) :=
  exists_setVregs_of_mask
    (compare_pointwise left right placed fun _index => beq_widen _ _ _)

theorem vmxor_setVregs (unit : VectorUnit) (vd vs2 vs1 : VReg) :
    ∃ vregs, unit.vmxor vd vs2 vs1 = (.ok (), { unit with vregs }) ∧
      MaskPointwise unit { unit with vregs } vd fun index =>
        (unit.vregs.readMaskBit vs2 index ^^
          unit.vregs.readMaskBit vs1 index) :=
  exists_setVregs_of_mask (unit.vmxor_pointwise vd vs2 vs1)

end VectorUnit

end VectorBench
