import VectorBench.Word

/-!
# Element widths

A word holds one 32-bit, two 16-bit or four 8-bit elements.  The width is selected by the `funct7`
code of an instruction, and by its bit count in a vector configuration.
-/

namespace VectorBench

inductive ElementWidth where
  | e8
  | e16
  | e32
deriving DecidableEq, Repr

namespace ElementWidth

def all : List ElementWidth := [.e8, .e16, .e32]

def bits : ElementWidth → Nat
  | .e8 => 8
  | .e16 => 16
  | .e32 => 32

def lanes : ElementWidth → Nat
  | .e8 => 4
  | .e16 => 2
  | .e32 => 1

def funct7 : ElementWidth → Word
  | .e32 => 0
  | .e16 => 1
  | .e8 => 2

def ofFunct7? (code : Word) : Option ElementWidth :=
  all.find? (·.funct7 = code)

def ofBits? (count : Word) : Option ElementWidth :=
  all.find? fun width => BitVec.ofNat 32 width.bits = count

/-- The element of a word that starts at bit `offset`, zero extended.  An element as wide as a word
is that word. -/
@[inline]
def extract (width : ElementWidth) (word : Word) (offset : Nat) : Word :=
  if width = .e32 then word else (word.extractLsb' offset width.bits).setWidth 32

@[inline]
def insert (width : ElementWidth) (word : Word) (offset : Nat) (value : Word) : Word :=
  if width = .e32 then value else replaceBits word offset (value.setWidth width.bits)

/-- The low bits of a word as a signed number, shifted to the top of the word and back. -/
@[inline]
def signExtend (width : ElementWidth) (word : Word) : Word :=
  (word <<< (32 - width.bits)).sshiftRight (32 - width.bits)

def name : ElementWidth → String
  | .e8 => "E8"
  | .e16 => "E16"
  | .e32 => "E32"

theorem lanes_mul_bits (width : ElementWidth) : width.lanes * width.bits = 32 := by
  cases width <;> rfl

theorem bits_pos (width : ElementWidth) : 0 < width.bits := by
  cases width <;> decide

theorem bits_le (width : ElementWidth) : width.bits ≤ 32 := by
  cases width <;> decide

theorem signExtend_eq (width : ElementWidth) (word : Word) :
    width.signExtend word = (word.setWidth width.bits).signExtend 32 := by
  have low := width.bits_pos
  have high := width.bits_le
  apply BitVec.eq_of_getLsbD_eq
  intro place inside
  have short : ¬ 32 ≤ place := by omega
  rw [signExtend, BitVec.getLsbD_sshiftRight, BitVec.getLsbD_signExtend]
  by_cases within : place < width.bits
  · have shifted : 32 - width.bits + place < 32 := by omega
    have moved : ¬ 32 - width.bits + place < 32 - width.bits := by omega
    simp [inside, short, within, shifted, moved]
  · have beyond : ¬ 32 - width.bits + place < 32 := by omega
    have top : 31 - (32 - width.bits) = width.bits - 1 := by omega
    have moved : ¬ 31 < 32 - width.bits := by omega
    have last : width.bits - 1 < width.bits := by omega
    simp [BitVec.msb_eq_getLsbD_last, -BitVec.getLsbD_eq_getElem, inside, short, within, beyond,
      top, moved, last]

/-- Shifting elements to the top and back compares them as signed numbers of their own width. -/
theorem slt_signExtend (width : ElementWidth) (a b : Word) :
    (width.signExtend a).slt (width.signExtend b) =
      (a.setWidth width.bits).slt (b.setWidth width.bits) := by
  have narrow := width.bits_le
  rw [signExtend_eq, signExtend_eq, BitVec.slt_eq_decide, BitVec.slt_eq_decide,
    BitVec.toInt_signExtend_of_le narrow, BitVec.toInt_signExtend_of_le narrow]

theorem ofFunct7?_funct7 (width : ElementWidth) : ofFunct7? width.funct7 = some width := by
  cases width <;> rfl

theorem ofBits?_bits (width : ElementWidth) :
    ofBits? (BitVec.ofNat 32 width.bits) = some width := by
  cases width <;> rfl

theorem getLsbD_extract {width : ElementWidth} {offset : Nat} (word : Word)
    (fits : offset + width.bits ≤ 32) (place : Nat) :
    (width.extract word offset).getLsbD place =
      (decide (place < width.bits) && word.getLsbD (offset + place)) := by
  have bounded := width.bits_le
  by_cases full : width = .e32
  · subst full
    have start : offset = 0 := by simpa [bits] using fits
    subst start
    by_cases inside : place < 32
    · simp [extract, bits, inside]
    · simpa [extract, bits, inside] using BitVec.getLsbD_of_ge word place (by omega)
  · rw [extract, if_neg full]
    by_cases within : place < width.bits
    · have inside : place < 32 := by omega
      simp [within, inside]
    · simp [within]

theorem getLsbD_insert {width : ElementWidth} {offset : Nat} (word value : Word)
    (fits : offset + width.bits ≤ 32) {place : Nat} (inside : place < 32) :
    (width.insert word offset value).getLsbD place =
      if offset ≤ place ∧ place < offset + width.bits then value.getLsbD (place - offset)
      else word.getLsbD place := by
  by_cases full : width = .e32
  · subst full
    have start : offset = 0 := by simpa [bits] using fits
    subst start
    simp [insert, bits, inside]
  · rw [insert, if_neg full, getLsbD_replaceBits word offset _ inside]
    split
    case isTrue within =>
      have near : place - offset < width.bits := by omega
      simp [near]
    case isFalse => rfl

theorem insert_eq_replaceBits {width : ElementWidth} {offset : Nat} (word value : Word)
    (fits : offset + width.bits ≤ 32) :
    width.insert word offset value = replaceBits word offset (value.setWidth width.bits) := by
  apply BitVec.eq_of_getLsbD_eq
  intro place inside
  rw [getLsbD_insert word value fits inside, getLsbD_replaceBits word offset _ inside]
  split
  case isTrue within =>
    have near : place - offset < width.bits := by omega
    simp [near]
  case isFalse => rfl

theorem extract_insert {width : ElementWidth} {offset : Nat} (word value : Word)
    (fits : offset + width.bits ≤ 32) :
    width.extract (width.insert word offset value) offset =
      (value.setWidth width.bits).setWidth 32 := by
  apply BitVec.eq_of_getLsbD_eq
  intro place inside
  rw [getLsbD_extract _ fits]
  by_cases within : place < width.bits
  · rw [getLsbD_insert word value fits (by omega)]
    simp [within, inside]
  · simp [within]

end ElementWidth

end VectorBench
