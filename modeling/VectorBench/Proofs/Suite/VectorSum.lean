import Mathlib.Algebra.Group.Nat.Defs
import VectorBench.Suite.Scenarios
import VectorBench.Proofs.VectorUnit.StripMining

/-!
# Vector sums in one strip

The vector sum of the suites asks for its vector length once and adds one strip.
It gives the sums of as many elements as two registers hold, and zeros behind
them.
-/

namespace VectorBench

/-- The unit on which a vector sum runs: groups of two registers with 16-bit
elements, all elements of the vectors if they fit in one. -/
def sumUnit (count : Nat) : VectorUnit where
  vregs := VRegFile.zeroed
  vl := min count (vlmax .e16 .m2)
  sew := .e16
  lmul := .m2
  vl_le := Nat.min_le_right _ _

theorem sumUnit_startsGroup (count : Nat) :
    ∀ register ∈ [(4 : VReg), 0, 2], (sumUnit count).startsGroup register := by
  have starts : ∀ register ∈ [(4 : VReg), 0, 2], Lmul.m2.Starts register := by
    decide
  exact fun register member => VectorUnit.startsGroup_of_starts starts member

theorem vsetvl_initial (count : Nat) :
    VectorUnit.initial.vsetvl count (some .e16) (some .m2) =
      (.ok (min count (vlmax .e16 .m2)), sumUnit count) :=
  rfl

theorem vectorAdd_eq_addStrip (a b : List (BitVec 16)) :
    vectorAdd a b =
      ((sumUnit a.length).addStrip .e16 0 2 4 a b
        (List.replicate a.length 0)).1 := by
  unfold vectorAdd VectorUnit.addStrip
  rw [vsetvl_initial]
  dsimp only
  rcases (sumUnit a.length).runAll
    [(·.vle .e16 0 a), (·.vle .e16 2 b), (·.vadd 4 0 2)] with ⟨_ | _, after⟩
  · rfl
  · rfl

/-- A vector sum is the sum of one strip, followed by zeros. -/
theorem vectorAdd_eq {a b : List (BitVec 16)} (lengthB : b.length = a.length) :
    vectorAdd a b =
      .ok ((List.zipWith (· + ·) a b).take 16 ++
        List.replicate (a.length - 16) 0) := by
  let vl := min a.length 16
  have fromA : vl ≤ a.length := Nat.min_le_left _ _
  have fromB : vl ≤ b.length := by rwa [lengthB]
  have toC : vl ≤ (List.replicate a.length (0 : BitVec 16)).length := by
    rwa [List.length_replicate]
  obtain ⟨after, ran⟩ := VectorUnit.addStrip_ok
    (sumUnit_startsGroup a.length) (by decide) fromA fromB toC
  have sums : (List.zipWith (· + ·) a b).take vl =
      (List.zipWith (· + ·) a b).take 16 := by
    rw [List.take_eq_take_iff, List.length_zipWith, lengthB]
    omega
  have zeros : (List.replicate a.length (0 : BitVec 16)).drop vl =
      List.replicate (a.length - 16) 0 := by
    rw [List.drop_replicate]
    congr 1
    omega
  have stripped : vectorAdd a b =
      .ok ((List.zipWith (· + ·) a b).take vl ++
        (List.replicate a.length (0 : BitVec 16)).drop vl) :=
    (vectorAdd_eq_addStrip a b).trans (congrArg Prod.fst ran)
  rw [stripped, sums, zeros]

section Elements

variable {count : Nat}

/-- The sums of the first sixteen elements, and zeros behind them. -/
def firstStripSums (a b : Vector (BitVec 16) count) :
    Vector (BitVec 16) count :=
  .ofFn fun index =>
    if index.val < 16 then a.get index + b.get index else 0

theorem get_firstStripSums (a b : Vector (BitVec 16) count)
    (index : Fin count) :
    (firstStripSums a b).get index =
      if index.val < 16 then a.get index + b.get index else 0 :=
  Vector.getElem_ofFn index.isLt

theorem toList_firstStripSums (a b : Vector (BitVec 16) count) :
    (firstStripSums a b).toList =
      (List.zipWith (· + ·) a.toList b.toList).take 16 ++
        List.replicate (count - 16) 0 := by
  apply List.ext_getElem
  · simp only [List.length_append, List.length_take, List.length_zipWith,
      List.length_replicate, Vector.length_toList]
    omega
  · intro index inside _inside
    rw [Vector.length_toList] at inside
    have entry : (firstStripSums a b).toList[index] =
        if index < 16 then a.get ⟨index, inside⟩ + b.get ⟨index, inside⟩
        else 0 :=
      (Vector.getElem_toList _).trans (get_firstStripSums a b ⟨index, inside⟩)
    rw [entry, List.getElem_append]
    split
    case isTrue below =>
      have covered : index < ((List.zipWith (· + ·) a.toList b.toList).take
          16).length := by
        simp only [List.length_take, List.length_zipWith, Vector.length_toList]
        omega
      rw [dif_pos covered, List.getElem_take, List.getElem_zipWith,
        Vector.getElem_toList, Vector.getElem_toList]
      rfl
    case isFalse above =>
      have beyond : ¬ index < ((List.zipWith (· + ·) a.toList b.toList).take
          16).length := by
        simp only [List.length_take]
        omega
      rw [dif_neg beyond, List.getElem_replicate]

/-- The sum of two vectors has their length.  The first sixteen elements are the
sums of those of the vectors, wrapped to their size, and the others are zero. -/
theorem vectorAdd_sums_firstStrip (a b : Vector (BitVec 16) count) :
    ∃ c : Vector (BitVec 16) count,
      vectorAdd a.toList b.toList = .ok c.toList ∧
      ∀ index : Fin count, (c.get index).toNat =
        if index.val < 16 then
          ((a.get index).toNat + (b.get index).toNat) % 2 ^ 16
        else 0 := by
  have lengthB : b.toList.length = a.toList.length := by
    rw [Vector.length_toList, Vector.length_toList]
  refine ⟨firstStripSums a b, ?_, ?_⟩
  · rw [vectorAdd_eq lengthB, toList_firstStripSums, Vector.length_toList]
  · intro index
    rw [get_firstStripSums]
    split
    case isTrue => exact BitVec.toNat_add _ _
    case isFalse => rfl

end Elements

/-- A seventeenth element is left out of the sum. -/
theorem not_every_vector_summed :
    ¬ ∀ (count : Nat) (a b : Vector (BitVec 16) count),
      ∃ c : Vector (BitVec 16) count,
        vectorAdd a.toList b.toList = .ok c.toList ∧
        ∀ index : Fin count, (c.get index).toNat =
          ((a.get index).toNat + (b.get index).toNat) % 2 ^ 16 := by
  intro summed
  let ones : Vector (BitVec 16) 17 := .replicate 17 1
  obtain ⟨c, ran, sums⟩ := summed 17 ones ones
  have computed : vectorAdd ones.toList ones.toList =
      .ok (List.replicate 16 2 ++ [0]) :=
    vectorAdd_eq rfl
  have listed : c.toList = List.replicate 16 2 ++ [0] :=
    Except.ok.inj (ran.symm.trans computed)
  have last : c.get 16 = 0 := by
    have entry : c.toList[16]? = some (c.get 16) := by
      rw [Vector.getElem?_toList]
      rfl
    rw [listed] at entry
    exact (Option.some.inj entry).symm
  have wanted : (c.get 16).toNat = 2 := sums 16
  rw [last] at wanted
  cases wanted

end VectorBench
