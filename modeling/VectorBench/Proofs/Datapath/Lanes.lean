import VectorBench.Datapath

/-!
# Lanes of a word

A word is the row of its lanes: lanes put together come apart again, and words
with the same lanes are the same.  The software model therefore works on each
lane alone, and what it answers is known from its lanes.
-/

namespace VectorBench

namespace ElementWidth

variable {width : ElementWidth} {index place : Nat}

theorem add_bits_le (inside : index < width.lanes) :
    index * width.bits + width.bits ≤ 32 := by
  rw [← Nat.succ_mul, ← width.lanes_mul_bits]
  exact Nat.mul_le_mul_right _ inside

theorem div_bits_lt_lanes (inside : place < 32) :
    place / width.bits < width.lanes := by
  rw [Nat.div_lt_iff_lt_mul width.bits_pos, width.lanes_mul_bits]
  exact inside

theorem getLsbD_lane (word : Word) {offset : Nat} (within : offset < width.bits) :
    (width.lane word index).getLsbD offset =
      word.getLsbD (index * width.bits + offset) := by
  simp [lane, within]

/-- Bits of the lanes that are put together first. -/
theorem getLsbD_foldl_lanes (element : Nat → BitVec width.bits) {count : Nat}
    (fits : count * width.bits ≤ 32) (place : Nat) :
    ((List.range count).foldl
        (fun word index =>
          word ||| ((element index).setWidth 32 <<< (index * width.bits)))
        (0 : Word)).getLsbD place =
      (decide (place < count * width.bits) &&
        (element (place / width.bits)).getLsbD (place % width.bits)) := by
  have positive := width.bits_pos
  induction count with
  | zero => simp
  | succ count ih =>
      rw [Nat.succ_mul] at fits ⊢
      have earlier := ih (by omega)
      rw [List.range_succ, List.foldl_append, List.foldl_cons, List.foldl_nil,
        BitVec.getLsbD_or, earlier, BitVec.getLsbD_shiftLeft,
        BitVec.getLsbD_setWidth]
      by_cases below : place < count * width.bits
      · simp [below, Nat.lt_add_right width.bits below]
      · by_cases within : place < count * width.bits + width.bits
        · have quotient : place / width.bits = count := by
            rw [Nat.div_eq_iff positive]
            omega
          have remainder : place % width.bits = place - count * width.bits := by
            rw [Nat.mod_eq_sub_div_mul, quotient]
          have small : place < 32 := by omega
          have near : place - count * width.bits < 32 := by omega
          simp [below, within, quotient, remainder, small, near]
        · have far : width.bits ≤ place - count * width.bits := by omega
          simp [below, within, BitVec.getLsbD_of_ge _ _ far]

theorem getLsbD_ofLanes (element : Nat → BitVec width.bits)
    (inside : place < 32) :
    (width.ofLanes element).getLsbD place =
      (element (place / width.bits)).getLsbD (place % width.bits) := by
  have whole := width.lanes_mul_bits
  unfold ofLanes
  rw [getLsbD_foldl_lanes element (Nat.le_of_eq whole), whole]
  simp [inside]

/-- Lanes that are put together come apart again. -/
theorem lane_ofLanes (element : Nat → BitVec width.bits)
    (inside : index < width.lanes) :
    width.lane (width.ofLanes element) index = element index := by
  have fits := add_bits_le inside
  have positive := width.bits_pos
  apply BitVec.eq_of_getLsbD_eq
  intro offset within
  have quotient : (index * width.bits + offset) / width.bits = index := by
    rw [Nat.div_eq_iff positive]
    omega
  have remainder : (index * width.bits + offset) % width.bits = offset := by
    rw [Nat.mul_add_mod_self_right, Nat.mod_eq_of_lt within]
  rw [getLsbD_lane _ within, getLsbD_ofLanes element (by omega), quotient,
    remainder]

/-- Words with the same lanes are the same. -/
theorem eq_of_lane_eq {left right : Word}
    (same : ∀ index, index < width.lanes →
      width.lane left index = width.lane right index) : left = right := by
  apply BitVec.eq_of_getLsbD_eq
  intro place inside
  have within : place % width.bits < width.bits :=
    Nat.mod_lt _ width.bits_pos
  have lanes := same (place / width.bits) (div_bits_lt_lanes inside)
  have whole : place / width.bits * width.bits + place % width.bits = place :=
    Nat.div_add_mod' place width.bits
  rw [← whole, ← getLsbD_lane left within, ← getLsbD_lane right within, lanes]

end ElementWidth

/-- An operation works on each lane alone. -/
theorem Operation.lane_lanewise (operation : Operation) {width : ElementWidth}
    (a b : Word) {index : Nat} (inside : index < width.lanes) :
    width.lane (operation.lanewise width a b) index =
      operation.apply (width.lane a index) (width.lane b index) :=
  ElementWidth.lane_ofLanes _ inside

/-! ### Codes -/

theorem Operation.ofFunct3?_eq_some_iff {code : Word} {operation : Operation} :
    Operation.ofFunct3? code = some operation ↔ operation.funct3 = code := by
  constructor
  · intro selected
    have found := List.find?_some selected
    exact of_decide_eq_true found
  · rintro rfl
    exact operation.ofFunct3?_funct3

theorem ElementWidth.ofFunct7?_eq_some_iff {code : Word} {width : ElementWidth} :
    ElementWidth.ofFunct7? code = some width ↔ width.funct7 = code := by
  constructor
  · intro selected
    have found := List.find?_some selected
    exact of_decide_eq_true found
  · rintro rfl
    exact width.ofFunct7?_funct7

namespace Datapath

/-- The supported pairs of codes are those of an operation and a width. -/
theorem isSupported_iff_exists {funct3 funct7 : Word} :
    isSupported funct3 funct7 = true ↔
      ∃ (operation : Operation) (width : ElementWidth),
        operation.funct3 = funct3 ∧ width.funct7 = funct7 := by
  simp only [isSupported, Bool.and_eq_true, Option.isSome_iff_exists,
    Operation.ofFunct3?_eq_some_iff, ElementWidth.ofFunct7?_eq_some_iff,
    exists_and_left, exists_and_right]

theorem isSome_model? (funct3 funct7 a b : Word) :
    (model? funct3 funct7 a b).isSome = isSupported funct3 funct7 := by
  unfold model? isSupported
  cases ElementWidth.ofFunct7? funct7 <;>
    cases Operation.ofFunct3? funct3 <;> rfl

theorem model?_eq_lanewise (operation : Operation) (width : ElementWidth)
    (a b : Word) :
    model? operation.funct3 width.funct7 a b =
      some (operation.lanewise width a b) := by
  unfold model?
  rw [ElementWidth.ofFunct7?_funct7, Operation.ofFunct3?_funct3]

/-- The model carries out the operation and the width that its codes select. -/
theorem model_eq_lanewise (operation : Operation)
    (width : ElementWidth) (a b : Word) :
    Datapath.model operation.funct3 width.funct7 a b =
      operation.lanewise width a b := by
  unfold model
  rw [model?_eq_lanewise]
  rfl

end Datapath

end VectorBench
