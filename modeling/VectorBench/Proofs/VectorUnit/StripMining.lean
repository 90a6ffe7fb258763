import VectorBench.Proofs.VectorUnit.Memory
import VectorBench.Proofs.VectorUnit.Sequences

/-!
# Sums in strips

A vector that is longer than a register group is added strip by strip, each as
long as the vector unit allows.  The strips make up the sum of the whole
vectors, whatever the group size and however short the last strip is.
-/

namespace VectorBench

open VRegFile

namespace ElementType

/-- The sum of two elements as integers, wrapped to their type. -/
def wrappingSum (type : ElementType) (x y : BitVec type.width.bits) :
    BitVec type.width.bits :=
  type.ofInt (type.toInt x + type.toInt y)

theorem wrappingSum_eq_add (type : ElementType)
    (x y : BitVec type.width.bits) : type.wrappingSum x y = x + y := by
  unfold wrappingSum ofInt toInt
  split
  case isTrue => rw [BitVec.ofInt_add, BitVec.ofInt_toInt, BitVec.ofInt_toInt]
  case isFalse =>
    rw [BitVec.ofInt_add, BitVec.ofInt_natCast, BitVec.ofInt_natCast,
      BitVec.ofNat_toNat, BitVec.ofNat_toNat, BitVec.setWidth_eq,
      BitVec.setWidth_eq]

end ElementType

namespace VectorUnit

variable {unit : VectorUnit} {va vb vc : VReg} {width : ElementWidth}

/-- Adds the first elements of two vectors, as many as the vector length, and
stores the sums to the first places of `c`. -/
def addStrip (width : ElementWidth) (va vb vc : VReg)
    (a b c : List (BitVec width.bits)) (unit : VectorUnit) :
    Except Fault (List (BitVec width.bits)) × VectorUnit :=
  match unit.runAll
      [(·.vle width va a), (·.vle width vb b), (·.vadd vc va vb)] with
  | (.ok (), unit) => (unit.vse width vc c, unit)
  | (.error fault, unit) => (.error fault, unit)

/-- Adds two vectors from place `done` on, strip by strip, and gives back `c`
with the sums in their places. -/
def addStrips (width : ElementWidth) (lmul : Lmul) (va vb vc : VReg)
    (a b : List (BitVec width.bits)) (done : Nat)
    (c : List (BitVec width.bits)) (unit : VectorUnit) :
    Except Fault (List (BitVec width.bits)) × VectorUnit :=
  if done < a.length then
    match _configured :
        unit.vsetvl (a.length - done) (some width) (some lmul) with
    | (.error fault, unit) => (.error fault, unit)
    | (.ok vl, unit) =>
        match addStrip width va vb vc (a.drop done) (b.drop done)
            (c.drop done) unit with
        | (.error fault, unit) => (.error fault, unit)
        | (.ok stored, unit) =>
            addStrips width lmul va vb vc a b (done + vl)
              (c.take done ++ stored) unit
  else (.ok c, unit)
termination_by a.length - done
decreasing_by
  have positive := vlmax_pos width lmul
  rw [vsetvl_some _configured]
  omega

/-- Two loads and a sum leave the sums of a strip in the group `vc`. -/
theorem addStrip_operations {a b : List (BitVec unit.sew.bits)}
    (starts : ∀ register ∈ [vc, va, vb], unit.startsGroup register)
    (distinct : va ≠ vb) (fromA : unit.vl ≤ a.length)
    (fromB : unit.vl ≤ b.length) :
    ∃ vregs,
      unit.runAll [(·.vle unit.sew va a), (·.vle unit.sew vb b),
          (·.vadd vc va vb)] = (.ok (), { unit with vregs }) ∧
      ∀ index, index < unit.vl → vregs.element vc unit.sew index =
        a.getD index 0 + b.getD index 0 := by
  have startsA : unit.startsGroup va := starts va (by simp)
  have startsB : unit.startsGroup vb := starts vb (by simp)
  have loadsA : (ElementOp.load unit.sew va a).Accepts unit :=
    ⟨List.forall_mem_singleton.mpr startsA, rfl, fromA⟩
  obtain ⟨first, ranFirst, atFirst⟩ := run_setVregs loadsA trivial
  have loadsB : (ElementOp.load unit.sew vb b).Accepts
      { unit with vregs := first } :=
    ⟨List.forall_mem_singleton.mpr startsB, rfl, fromB⟩
  obtain ⟨second, ranSecond, atSecond⟩ := run_setVregs loadsB trivial
  have adds : (ElementOp.add vc va vb).Accepts { unit with vregs := second } :=
    ⟨starts, trivial⟩
  obtain ⟨third, ranThird, atThird⟩ := run_setVregs adds trivial
  refine ⟨third, ?_, ?_⟩
  · simp only [ElementOp.run] at ranFirst ranSecond ranThird
    simp only [runAll, ranFirst, ranSecond, ranThird]
  · intro index below
    have entryA : second.element va unit.sew index = a.getD index 0 :=
      calc
        second.element va unit.sew index = first.element va unit.sew index :=
          atSecond.element_of_ne startsB startsA distinct (lt_vlmax below)
        _ = (a.getD index 0).setWidth unit.sew.bits :=
          atFirst.elements index below
        _ = a.getD index 0 := BitVec.setWidth_eq _
    have entryB : second.element vb unit.sew index = b.getD index 0 :=
      (atSecond.elements index below).trans (BitVec.setWidth_eq _)
    calc
      third.element vc unit.sew index =
          second.element va unit.sew index + second.element vb unit.sew index :=
        atThird.elements index below
      _ = a.getD index 0 + b.getD index 0 := by rw [entryA, entryB]

/-- A strip stores its sums and leaves the places behind them alone. -/
theorem addStrip_ok {a b c : List (BitVec unit.sew.bits)}
    (starts : ∀ register ∈ [vc, va, vb], unit.startsGroup register)
    (distinct : va ≠ vb) (fromA : unit.vl ≤ a.length)
    (fromB : unit.vl ≤ b.length) (toC : unit.vl ≤ c.length) :
    ∃ after,
      addStrip unit.sew va vb vc a b c unit =
        (.ok ((List.zipWith (· + ·) a b).take unit.vl ++ c.drop unit.vl),
          after) := by
  obtain ⟨vregs, ran, sums⟩ := addStrip_operations starts distinct fromA fromB
  have startsC : unit.startsGroup vc := starts vc (by simp)
  have wrote : ({ unit with vregs } : VectorUnit).vse unit.sew vc c =
      .ok (({ unit with vregs } : VectorUnit).stored vc ++ c.drop unit.vl) :=
    vse_accepted startsC toC
  have stored : ({ unit with vregs } : VectorUnit).stored vc =
      (List.zipWith (· + ·) a b).take unit.vl := by
    apply List.ext_getElem?
    intro index
    by_cases below : index < unit.vl
    · have inA : index < a.length := Nat.lt_of_lt_of_le below fromA
      have inB : index < b.length := Nat.lt_of_lt_of_le below fromB
      have entry : (({ unit with vregs } : VectorUnit).stored vc)[index]? =
          some (vregs.element vc unit.sew index) := getElem?_stored below
      rw [entry, sums index below, List.getElem?_take_of_lt below]
      rw [List.getElem?_zipWith_eq_some.mpr
        ⟨a[index], b[index], List.getElem?_eq_getElem inA,
          List.getElem?_eq_getElem inB, rfl⟩]
      simp [List.getD_eq_getElem?_getD, inA, inB]
    · have beyond := Nat.le_of_not_lt below
      rw [List.getElem?_take_eq_none beyond, List.getElem?_eq_none]
      rwa [length_stored]
  refine ⟨{ unit with vregs }, ?_⟩
  rw [addStrip, ran]
  simp only [wrote, stored]

section Strips

variable {lmul : Lmul} {a b c : List (BitVec width.bits)} {done : Nat}

theorem addStrips_finished (finished : ¬ done < a.length) (unit : VectorUnit) :
    addStrips width lmul va vb vc a b done c unit = (.ok c, unit) := by
  rw [addStrips, if_neg finished]

/-- While elements remain, a strip adds at least one and none past the end. -/
theorem addStrips_strip
    (starts : ∀ register ∈ [vc, va, vb], lmul.Starts register)
    (distinct : va ≠ vb) (lengthB : b.length = a.length)
    (lengthC : c.length = a.length) (remains : done < a.length)
    (unit : VectorUnit) :
    ∃ vl next, 0 < vl ∧ done + vl ≤ a.length ∧
      addStrips width lmul va vb vc a b done c unit =
        addStrips width lmul va vb vc a b (done + vl)
          (c.take done ++ (((List.zipWith (· + ·) a b).drop done).take vl ++
            (c.drop done).drop vl)) next := by
  let vl := min (a.length - done) (vlmax width lmul)
  let configured : VectorUnit :=
    { vregs := unit.vregs, vl, sew := width, lmul
      vl_le := Nat.min_le_right _ _ }
  have positive := vlmax_pos width lmul
  have covered : vl ≤ a.length - done := Nat.min_le_left _ _
  have startsConfigured : ∀ register ∈ [vc, va, vb],
      configured.startsGroup register :=
    fun register member => startsGroup_of_starts starts member
  have fromA : configured.vl ≤ (a.drop done).length := by
    rwa [List.length_drop]
  have fromB : configured.vl ≤ (b.drop done).length := by
    rwa [List.length_drop, lengthB]
  have toC : configured.vl ≤ (c.drop done).length := by
    rwa [List.length_drop, lengthC]
  obtain ⟨next, ran⟩ : ∃ next,
      addStrip width va vb vc (a.drop done) (b.drop done) (c.drop done)
          configured =
        (.ok ((List.zipWith (· + ·) (a.drop done) (b.drop done)).take vl ++
          (c.drop done).drop vl), next) :=
    addStrip_ok startsConfigured distinct fromA fromB toC
  refine ⟨vl, next, Nat.lt_min.mpr ⟨by omega, positive⟩, by omega, ?_⟩
  rw [← List.drop_zipWith] at ran
  rw [addStrips, if_pos remains]
  split
  case h_1 refused => cases refused
  case h_2 accepted =>
    cases accepted
    simp only [configured, vl] at ran
    simp only [ran]
    rfl

/-- The strips that are left complete the sums of those before them. -/
theorem addStrips_eq
    (starts : ∀ register ∈ [vc, va, vb], lmul.Starts register)
    (distinct : va ≠ vb) (lengthB : b.length = a.length)
    (lengthC : c.length = a.length)
    (before : c.take done = (List.zipWith (· + ·) a b).take done)
    (unit : VectorUnit) :
    ∃ after, addStrips width lmul va vb vc a b done c unit =
      (.ok (List.zipWith (· + ·) a b), after) := by
  have lengthSum : (List.zipWith (· + ·) a b).length = a.length := by
    rw [List.length_zipWith, lengthB, Nat.min_self]
  -- Every strip adds at least one element, so fewer are left after it.
  induction left : a.length - done using Nat.strongRecOn
      generalizing done c unit with
  | _ count ih =>
      by_cases remains : done < a.length
      · obtain ⟨vl, next, positive, inside, strip⟩ := addStrips_strip starts
          distinct lengthB lengthC remains unit
        have stored : c.take done ++
            (((List.zipWith (· + ·) a b).drop done).take vl ++
              (c.drop done).drop vl) =
            (List.zipWith (· + ·) a b).take (done + vl) ++
              c.drop (done + vl) := by
          rw [before, ← List.append_assoc, ← List.take_add, List.drop_drop]
        have lengthTaken :
            ((List.zipWith (· + ·) a b).take (done + vl)).length =
              done + vl := by
          rw [List.length_take, lengthSum, Nat.min_eq_left inside]
        rw [strip, stored]
        apply ih (a.length - (done + vl)) (by omega) _ _ next rfl
        · rw [List.length_append, lengthTaken, List.length_drop, lengthC]
          omega
        · exact List.take_left' lengthTaken
      · have complete : c = List.zipWith (· + ·) a b := by
          have reached := Nat.le_of_not_lt remains
          rwa [List.take_of_length_le (lengthC ▸ reached),
            List.take_of_length_le (lengthSum ▸ reached)] at before
        exact ⟨unit, complete ▸ addStrips_finished remains unit⟩

end Strips

/-- Two vectors of any length are added in strips of groups of any size,
through two different source groups and whatever the registers held before.  No
call faults, and every place gets the sum of its elements, wrapped to their
type. -/
theorem addStrips_eq_wrappingSums (type : ElementType) (lmul : Lmul)
    (unit : VectorUnit) {a b c : List (BitVec type.width.bits)}
    (lengthB : b.length = a.length) (lengthC : c.length = a.length)
    (starts : ∀ register ∈ [vc, va, vb], lmul.Starts register)
    (distinct : va ≠ vb) :
    ∃ after, addStrips type.width lmul va vb vc a b 0 c unit =
      (.ok (List.zipWith type.wrappingSum a b), after) := by
  have sums : List.zipWith type.wrappingSum a b = List.zipWith (· + ·) a b :=
    congrArg (List.zipWith · a b)
      (funext fun x => funext fun y => type.wrappingSum_eq_add x y)
  rw [sums]
  exact addStrips_eq starts distinct lengthB lengthC rfl unit

/-- Twenty-one signed bytes in strips of sixteen, of which the last sum
wraps. -/
theorem addStrips_eq_wrappingSums_secondStrip :
    (∀ register ∈ [(16 : VReg), 8, 31], Lmul.m1.Starts register) ∧
    ∃ after,
      addStrips .e8 .m1 8 31 16 (List.replicate 21 100)
          (List.replicate 20 (-1) ++ [28]) 0 (List.replicate 21 7)
          maskedBytes =
        (.ok (List.replicate 20 99 ++ [-128]), after) := by
  have starts : ∀ register ∈ [(16 : VReg), 8, 31], Lmul.m1.Starts register := by
    decide
  let a : List (BitVec ElementType.i8.width.bits) := List.replicate 21 100
  let b : List (BitVec ElementType.i8.width.bits) :=
    List.replicate 20 (-1) ++ [28]
  let c : List (BitVec ElementType.i8.width.bits) := List.replicate 21 7
  have lengthB : b.length = a.length := rfl
  have lengthC : c.length = a.length := rfl
  have sums : List.zipWith ElementType.i8.wrappingSum a b =
      List.replicate 20 99 ++ [-128] := by decide
  obtain ⟨after, ran⟩ := addStrips_eq_wrappingSums .i8 .m1 maskedBytes lengthB
    lengthC starts (by decide)
  rw [sums] at ran
  exact ⟨starts, after, ran⟩

end VectorUnit

end VectorBench
