import Mathlib.Algebra.Group.Nat.Defs
import VectorBench.Proofs.Datapath.Lanes
import VectorBench.Suite.Bench

/-!
# Arithmetic on lanes

What the software model answers, in numbers: a lane of the result is the
operation on the numbers in that lane of the operands, whatever the other lanes
hold.  A loop that shifts and masks whole words computes the same, since what
an operation makes of the bits above a lane is cut off again.
-/

namespace VectorBench

/-! ### Whole words and their lanes -/

/-- An operation may be carried out on wider words and cut to size. -/
theorem Operation.setWidth_apply (operation : Operation) {narrow wide : Nat}
    (fits : narrow ≤ wide) (a b : BitVec narrow) :
    (operation.apply (a.setWidth wide) (b.setWidth wide)).setWidth narrow =
      operation.apply a b := by
  have back : ∀ element : BitVec narrow,
      (element.setWidth wide).setWidth narrow = element := by
    intro element
    rw [BitVec.setWidth_setWidth_of_le element fits, BitVec.setWidth_eq]
  have ordered : a.setWidth wide ≤ b.setWidth wide ↔ a ≤ b := by
    rw [BitVec.le_def, BitVec.le_def, BitVec.toNat_setWidth_of_le fits,
      BitVec.toNat_setWidth_of_le fits]
  cases operation with
  | add => simp only [apply, BitVec.setWidth_add _ _ fits, back]
  | sub =>
      simp only [apply, BitVec.sub_eq_add_neg, BitVec.setWidth_add _ _ fits,
        BitVec.setWidth_neg_of_le fits, back]
  | and => simp only [apply, BitVec.setWidth_and, back]
  | or => simp only [apply, BitVec.setWidth_or, back]
  | xor => simp only [apply, BitVec.setWidth_xor, back]
  | minu => simp only [apply, ordered, apply_ite (BitVec.setWidth narrow), back]
  | maxu => simp only [apply, ordered, apply_ite (BitVec.setWidth narrow), back]
  | mul => simp only [apply, BitVec.setWidth_mul _ _ fits, back]

namespace ElementWidth

variable {width : ElementWidth}

/-- The bits of a word that the element at its low end takes up. -/
def mask (width : ElementWidth) : Word :=
  if 32 ≤ width.bits then BitVec.allOnes 32 else (1 <<< width.bits) - 1

theorem getLsbD_mask (width : ElementWidth) (place : Nat) :
    width.mask.getLsbD place = decide (place < width.bits) := by
  have low : width.mask = (BitVec.allOnes width.bits).setWidth 32 := by
    cases width <;> rfl
  have fits := width.bits_le
  rw [low, BitVec.getLsbD_setWidth, BitVec.getLsbD_allOnes, ← Bool.decide_and]
  apply decide_eq_decide.mpr
  omega

theorem and_mask (width : ElementWidth) (word : Word) :
    word &&& width.mask = (word.setWidth width.bits).setWidth 32 := by
  apply BitVec.eq_of_getLsbD_eq
  intro place inside
  simp only [BitVec.getLsbD_and, getLsbD_mask, BitVec.getLsbD_setWidth, inside,
    decide_true, Bool.true_and, Bool.and_comm]

theorem ushiftRight_and_mask (width : ElementWidth) (word : Word)
    (index : Nat) :
    (word >>> (index * width.bits)) &&& width.mask =
      (width.lane word index).setWidth 32 := by
  have shifted : (word >>> (index * width.bits)).setWidth width.bits =
      width.lane word index := by
    apply BitVec.eq_of_getLsbD_eq
    intro offset within
    simp only [lane, BitVec.getLsbD_setWidth, BitVec.getLsbD_ushiftRight,
      BitVec.getLsbD_extractLsb', within, decide_true, Bool.true_and]
  rw [and_mask, shifted]

/-- The word whose first `count` elements are given and whose others are
zero. -/
def firstLanes (width : ElementWidth) (element : Nat → BitVec width.bits)
    (count : Nat) : Word :=
  (List.range count).foldl
    (fun word index =>
      word ||| ((element index).setWidth 32 <<< (index * width.bits))) 0

theorem firstLanes_succ (element : Nat → BitVec width.bits) (count : Nat) :
    width.firstLanes element (count + 1) =
      width.firstLanes element count |||
        ((element count).setWidth 32 <<< (count * width.bits)) := by
  rw [firstLanes, List.range_succ, List.foldl_append]
  rfl

theorem firstLanes_lanes (element : Nat → BitVec width.bits) :
    width.firstLanes element width.lanes = width.ofLanes element :=
  rfl

end ElementWidth

namespace Operation

/-- The element at bit `shift` of the result, computed on whole words. -/
def maskedElement (operation : Operation) (width : ElementWidth) (a b : Word)
    (shift : Nat) : Word :=
  operation.apply ((a >>> shift) &&& width.mask) ((b >>> shift) &&& width.mask)
    &&& width.mask

/-- The loop over the elements from bit `shift` on, which adds them to the bits
of `result`. -/
def fillLanes (operation : Operation) (width : ElementWidth) (a b : Word)
    (shift : Nat) (result : Word) : Word :=
  if shift < 32 then
    operation.fillLanes width a b (shift + width.bits)
      (result ||| (operation.maskedElement width a b shift <<< shift))
  else result
termination_by 32 - shift
decreasing_by
  have := width.bits_pos
  omega

theorem maskedElement_eq (operation : Operation) (width : ElementWidth)
    (a b : Word) (index : Nat) :
    operation.maskedElement width a b (index * width.bits) =
      (operation.apply (width.lane a index)
        (width.lane b index)).setWidth 32 := by
  rw [maskedElement, width.and_mask (operation.apply _ _),
    width.ushiftRight_and_mask, width.ushiftRight_and_mask,
    operation.setWidth_apply width.bits_le]

theorem fillLanes_firstLanes (operation : Operation) (width : ElementWidth)
    (a b : Word) {missing count : Nat} (total : count + missing = width.lanes) :
    operation.fillLanes width a b (count * width.bits)
        (width.firstLanes
          (fun index =>
            operation.apply (width.lane a index) (width.lane b index)) count) =
      operation.lanewise width a b := by
  have whole := width.lanes_mul_bits
  -- Before each turn the result holds the elements below the shift.
  induction missing generalizing count with
  | zero =>
      have filled : count = width.lanes := total
      subst filled
      rw [fillLanes, if_neg (Nat.not_lt.mpr (Nat.le_of_eq whole.symm))]
      exact ElementWidth.firstLanes_lanes _
  | succ missing ih =>
      have inside : count < width.lanes := by omega
      have room : count * width.bits < 32 := by
        rw [← whole]
        exact Nat.mul_lt_mul_of_pos_right inside width.bits_pos
      rw [fillLanes, if_pos room, maskedElement_eq,
        ← ElementWidth.firstLanes_succ, ← Nat.succ_mul]
      apply ih
      omega

/-- No carry, borrow or high half of a product reaches the next lane. -/
theorem fillLanes_eq_lanewise (operation : Operation) (width : ElementWidth)
    (a b : Word) :
    operation.fillLanes width a b 0 0 = operation.lanewise width a b := by
  have start := operation.fillLanes_firstLanes width a b (Nat.zero_add _)
  rw [Nat.zero_mul] at start
  exact start

end Operation

/-! ### Scalar arithmetic -/

theorem Operation.lanewise_word (operation : Operation) (a b : Word) :
    operation.lanewise .e32 a b = operation.apply a b := by
  have whole : ∀ word : Word, ElementWidth.e32.lane word 0 = word := by
    intro word
    exact BitVec.extractLsb'_eq_self
  have only : 0 < ElementWidth.e32.lanes := by decide
  rw [← whole (operation.lanewise .e32 a b), operation.lane_lanewise a b only,
    whole, whole]
  rfl

theorem Operation.exists_funct3_eq {code : Word} (fits : code < 8) :
    ∃ operation : Operation, operation.funct3 = code := by
  have listed : ∀ number : Fin 8,
      ∃ operation ∈ Operation.all,
        operation.funct3 = BitVec.ofNat 32 number.val := by decide
  obtain ⟨operation, -, selected⟩ := listed ⟨code.toNat, fits⟩
  refine ⟨operation, selected.trans ?_⟩
  rw [BitVec.ofNat_toNat, BitVec.setWidth_eq]

theorem scalarReference_funct3 (operation : Operation) (a b : Word) :
    scalarReference operation.funct3 a b = operation.apply a b := by
  cases operation <;> rfl

/-- Scalar arithmetic answers like the model on elements as wide as a word. -/
theorem scalarReference_eq_model {code : Word} (fits : code < 8) (a b : Word) :
    scalarReference code a b = Datapath.model code 0 a b := by
  obtain ⟨operation, rfl⟩ := Operation.exists_funct3_eq fits
  have modelled := Datapath.model_eq_lanewise operation .e32 a b
  rw [operation.lanewise_word] at modelled
  rw [scalarReference_funct3]
  exact modelled.symm

/-! ### Numbers in the lanes -/

/-- Bits of the elements that an operation of a given variant works on. -/
def elementBits : Nat → Nat
  | 0 => 32
  | 1 => 16
  | _ => 8

/-- The number in one of the lanes of a word, each `bits` bits wide. -/
def laneNumber (bits : Nat) (word : Word) (index : Nat) : Nat :=
  word.toNat / 2 ^ (index * bits) % 2 ^ bits

/-- The number that an operation makes of two numbers, all below
`2 ^ bits`. -/
def resultNumber (code bits a b : Nat) : Nat :=
  match code with
  | 0 => (a + b) % 2 ^ bits
  | 1 => (a + (2 ^ bits - b)) % 2 ^ bits
  | 2 => a &&& b
  | 3 => a ||| b
  | 4 => a ^^^ b
  | 5 => min a b
  | 6 => max a b
  | _ => a * b % 2 ^ bits

theorem ElementWidth.elementBits_funct7 (width : ElementWidth) :
    elementBits width.funct7.toNat = width.bits := by
  cases width <;> rfl

theorem ElementWidth.lanes_eq_div_bits (width : ElementWidth) :
    width.lanes = 32 / width.bits := by
  cases width <;> rfl

theorem ElementWidth.toNat_lane (width : ElementWidth) (word : Word)
    (index : Nat) :
    (width.lane word index).toNat = laneNumber width.bits word index := by
  rw [lane, BitVec.extractLsb'_toNat, Nat.shiftRight_eq_div_pow]
  rfl

theorem Operation.toNat_apply (operation : Operation) {bits : Nat}
    (a b : BitVec bits) :
    (operation.apply a b).toNat =
      resultNumber operation.funct3.toNat bits a.toNat b.toNat := by
  cases operation with
  | add => exact BitVec.toNat_add a b
  | sub =>
      refine (BitVec.toNat_sub a b).trans ?_
      rw [Nat.add_comm]
      rfl
  | and => exact BitVec.toNat_and a b
  | or => exact BitVec.toNat_or a b
  | xor => exact BitVec.toNat_xor a b
  | minu =>
      refine (apply_ite BitVec.toNat (a ≤ b) a b).trans ?_
      exact Nat.min_def.symm
  | maxu =>
      refine (apply_ite BitVec.toNat (a ≤ b) b a).trans ?_
      exact Nat.max_def.symm
  | mul => exact BitVec.toNat_mul a b

theorem Operation.laneNumber_lanewise (operation : Operation)
    {width : ElementWidth} (a b : Word) {index : Nat}
    (inside : index < width.lanes) :
    laneNumber width.bits (operation.lanewise width a b) index =
      resultNumber operation.funct3.toNat width.bits
        (laneNumber width.bits a index) (laneNumber width.bits b index) := by
  rw [← width.toNat_lane, operation.lane_lanewise a b inside,
    operation.toNat_apply, width.toNat_lane, width.toNat_lane]

theorem ElementWidth.exists_funct7_eq {code : Word} (fits : code ≤ 2) :
    ∃ width : ElementWidth, width.funct7 = code := by
  have listed : ∀ number : Fin 3,
      ∃ width ∈ ElementWidth.all,
        width.funct7 = BitVec.ofNat 32 number.val := by decide
  obtain ⟨width, -, selected⟩ := listed ⟨code.toNat, Nat.lt_succ_of_le fits⟩
  refine ⟨width, selected.trans ?_⟩
  rw [BitVec.ofNat_toNat, BitVec.setWidth_eq]

namespace Datapath

variable {funct3 funct7 : Word}

theorem isSupported_iff_le :
    isSupported funct3 funct7 = true ↔ funct3 ≤ 7 ∧ funct7 ≤ 2 := by
  rw [isSupported_iff_exists]
  constructor
  · rintro ⟨operation, width, rfl, rfl⟩
    constructor
    · cases operation <;> decide
    · cases width <;> decide
  · rintro ⟨code, variant⟩
    obtain ⟨operation, selected⟩ :=
      Operation.exists_funct3_eq (Nat.lt_succ_of_le code)
    obtain ⟨width, lanes⟩ := ElementWidth.exists_funct7_eq variant
    exact ⟨operation, width, selected, lanes⟩

theorem laneNumber_model (supported : isSupported funct3 funct7 = true)
    (a b : Word) {index : Nat}
    (inside : index < 32 / elementBits funct7.toNat) :
    laneNumber (elementBits funct7.toNat) (model funct3 funct7 a b) index =
      resultNumber funct3.toNat (elementBits funct7.toNat)
        (laneNumber (elementBits funct7.toNat) a index)
        (laneNumber (elementBits funct7.toNat) b index) := by
  obtain ⟨operation, width, rfl, rfl⟩ := isSupported_iff_exists.mp supported
  rw [width.elementBits_funct7, ← width.lanes_eq_div_bits] at inside
  rw [model_eq_lanewise, width.elementBits_funct7]
  exact operation.laneNumber_lanewise a b inside

/-- The software model has an answer for the eight operations on the three
widths of elements, and the loop over whole words computes it.  Each lane of
the answer is the operation on that lane of the operands, and no other lane has
a part in it. -/
theorem software_model_exact (funct3 funct7 a b : Word) :
    (isSupported funct3 funct7 = true ↔ funct3 ≤ 7 ∧ funct7 ≤ 2) ∧
      (model? funct3 funct7 a b).isSome = isSupported funct3 funct7 ∧
      model funct3 funct7 a b = (model? funct3 funct7 a b).getD 0 ∧
      (∀ (operation : Operation) (width : ElementWidth),
        operation.funct3 = funct3 → width.funct7 = funct7 →
        model? funct3 funct7 a b = some (operation.fillLanes width a b 0 0)) ∧
      (isSupported funct3 funct7 = true →
        let bits := elementBits funct7.toNat
        (∀ index, index < 32 / bits →
          laneNumber bits (model funct3 funct7 a b) index =
            resultNumber funct3.toNat bits
              (laneNumber bits a index) (laneNumber bits b index)) ∧
        (∀ index, index < 32 / bits → ∀ c d : Word,
          laneNumber bits c index = laneNumber bits a index →
          laneNumber bits d index = laneNumber bits b index →
          laneNumber bits (model funct3 funct7 c d) index =
            laneNumber bits (model funct3 funct7 a b) index) ∧
        (funct7 = 0 → model funct3 funct7 a b = scalarReference funct3 a b)) ∧
      ∀ (left right : VectorWords) (place : Nat) (inside : place < 4),
        (model.onVectors funct3 funct7 left right)[place] =
          model funct3 funct7 left[place] right[place] := by
  refine ⟨isSupported_iff_le, isSome_model? funct3 funct7 a b, rfl, ?_, ?_, ?_⟩
  · rintro operation width rfl rfl
    rw [operation.fillLanes_eq_lanewise]
    exact model?_eq_lanewise operation width a b
  · intro supported
    refine ⟨?_, ?_, ?_⟩
    · intro index inside
      exact laneNumber_model supported a b inside
    · intro index inside c d first second
      rw [laneNumber_model supported c d inside,
        laneNumber_model supported a b inside, first, second]
    · rintro rfl
      have fits := (isSupported_iff_le.mp supported).1
      exact (scalarReference_eq_model (Nat.lt_succ_of_le fits) a b).symm
  · intro left right place inside
    exact Vector.getElem_zipWith inside

/-- Products of bytes, with a high half in every lane. -/
theorem software_model_exact_byte_products :
    isSupported 7 2 = true ∧
      laneNumber 8 (model 7 2 0xff80ff10 0xff02ff10) 2 = 0x80 * 0x02 % 2 ^ 8 ∧
      laneNumber 8 (model 7 2 0x00800000 0x00020000) 2 =
        laneNumber 8 (model 7 2 0xff80ff10 0xff02ff10) 2 := by
  obtain ⟨codes, -, -, -, lanes, -⟩ :=
    software_model_exact 7 2 0xff80ff10 0xff02ff10
  have supported := codes.mpr ⟨by decide, by decide⟩
  obtain ⟨each, isolated, -⟩ := lanes supported
  refine ⟨supported, ?_, ?_⟩
  · exact each 2 (by decide)
  · exact isolated 2 (by decide) _ _ (by decide) (by decide)

end Datapath

end VectorBench
