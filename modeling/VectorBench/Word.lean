/-!
# Machine words

Registers, addresses, instruction words and operation codes are all 32 bits wide, and arithmetic
on them wraps.
-/

namespace VectorBench

abbrev Word := BitVec 32

def instructionBytes : Word := 4

/-- The bits of `whole` from position `offset` on, `width` of them, replaced by `value`. -/
def replaceBits {size width : Nat} (whole : BitVec size) (offset : Nat) (value : BitVec width) :
    BitVec size :=
  (whole &&& ~~~((BitVec.allOnes width).setWidth size <<< offset)) |||
    (value.setWidth size <<< offset)

theorem getLsbD_replaceBits {size width : Nat} (whole : BitVec size) (offset : Nat)
    (value : BitVec width) {place : Nat} (inside : place < size) :
    (replaceBits whole offset value).getLsbD place =
      if offset ≤ place ∧ place < offset + width then value.getLsbD (place - offset)
      else whole.getLsbD place := by
  simp only [replaceBits, BitVec.getLsbD_or, BitVec.getLsbD_and, BitVec.getLsbD_not,
    BitVec.getLsbD_shiftLeft, BitVec.getLsbD_setWidth, BitVec.getLsbD_allOnes]
  by_cases below : place < offset
  · have outside : ¬ (offset ≤ place ∧ place < offset + width) := by omega
    rw [if_neg outside]
    simp [below, inside]
  · by_cases within : place < offset + width
    · have near : place - offset < width := by omega
      have small : place - offset < size := by omega
      have starts : offset ≤ place := by omega
      simp [below, inside, within, near, small, starts]
    · have far : ¬ place - offset < width := by omega
      have beyond : value.getLsbD (place - offset) = false := BitVec.getLsbD_of_ge _ _ (by omega)
      simp [below, inside, within, far, beyond]

def Word.sum (words : List Word) : Word :=
  words.foldr (· + ·) 0

/-- The sum of two words, by the processor's own 32-bit addition. -/
@[inline]
def Word.plus (a b : Word) : Word :=
  (UInt32.ofBitVec a + UInt32.ofBitVec b).toBitVec

@[inline]
def Word.times (a b : Word) : Word :=
  (UInt32.ofBitVec a * UInt32.ofBitVec b).toBitVec

@[simp]
theorem Word.sum_nil : Word.sum [] = 0 :=
  rfl

@[simp]
theorem Word.sum_cons (word : Word) (words : List Word) :
    Word.sum (word :: words) = word + Word.sum words :=
  rfl

@[simp]
theorem Word.plus_eq_add (a b : Word) : Word.plus a b = a + b :=
  rfl

@[simp]
theorem Word.times_eq_mul (a b : Word) : Word.times a b = a * b :=
  rfl

end VectorBench
