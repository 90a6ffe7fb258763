import VectorBench.ElementWidth
import VectorBench.Register

/-!
# Vector registers

A vector register holds 128 bits, kept as four words.  The file can be read and written as words,
as whole registers, as elements of a register group and as mask bits; an element or a mask bit
always lies inside one word, so the four views share one store of words.
-/

namespace VectorBench

/-- The contents of one vector register, in lane order. -/
abbrev VectorWords := Vector Word 4

def vectorBits : Nat := 128

/-- The vector registers: word `lane` of register `r` stands at place `4 * r + lane`. -/
structure VRegFile where
  words : Vector Word 128
deriving DecidableEq

namespace VRegFile

def zeroed : VRegFile where
  words := Vector.replicate 128 0

/-- The place of word `lane` of a register; lanes count modulo four. -/
def place (register : VReg) (lane : Nat) : Nat :=
  4 * register.toNat + lane % 4

theorem place_lt (register : VReg) (lane : Nat) : place register lane < 128 := by
  have below := register.isLt
  unfold place
  omega

def readWord (file : VRegFile) (register : VReg) (lane : Nat) : Word :=
  file.words.get ⟨place register lane, place_lt register lane⟩

def writeWord (file : VRegFile) (register : VReg) (lane : Nat) (value : Word) : VRegFile where
  words := file.words.set (place register lane) value (place_lt register lane)

def readRegister (file : VRegFile) (register : VReg) : VectorWords :=
  Vector.ofFn fun lane => file.readWord register lane

def writeRegister (file : VRegFile) (register : VReg) (words : VectorWords) : VRegFile :=
  (((file.writeWord register 0 words[0]).writeWord register 1 words[1]).writeWord register 2
    words[2]).writeWord register 3 words[3]

/-- Where element `index` of the group that starts at a register lies: the place of its word, and
its first bit in that word.  There is no such place past the last register. -/
@[inline]
def locate? (register : VReg) (width : ElementWidth) (index : Nat) : Option (Fin 128 × Nat) :=
  let bit := index * width.bits
  let word := 4 * register.toNat + bit / 32
  if inside : word < 128 then some (⟨word, inside⟩, bit % 32) else none

@[inline]
def readElement (file : VRegFile) (register : VReg) (width : ElementWidth) (index : Nat) :
    Except Fault Word :=
  match locate? register width index with
  | some (word, offset) =>
      .ok (width.extract (file.words.get word) offset)
  | none => .error .illegalRegister

/-- Replaces element `index` of the group that starts at a register by the low bits of `value`.
Nothing changes when there is no such element. -/
@[inline]
def writeElement (file : VRegFile) (register : VReg) (width : ElementWidth) (index : Nat)
    (value : Word) : Except Fault Unit × VRegFile :=
  match locate? register width index with
  | some (word, offset) =>
      let updated := width.insert (file.words.get word) offset value
      (.ok (), { words := file.words.set word updated })
  | none => (.error .illegalRegister, file)

/-- Mask bit `index` of a register; mask bits count modulo the register width. -/
def readMaskBit (file : VRegFile) (register : VReg) (index : Nat) : Bool :=
  (file.readWord register (index % vectorBits / 32)).getLsbD (index % 32)

def writeMaskBit (file : VRegFile) (register : VReg) (index : Nat) (value : Bool) : VRegFile :=
  let lane := index % vectorBits / 32
  file.writeWord register lane
    (replaceBits (file.readWord register lane) (index % 32) (BitVec.ofBool value))

theorem readWord_writeWord_same (file : VRegFile) (register : VReg) (lane : Nat) (value : Word) :
    (file.writeWord register lane value).readWord register lane = value := by
  exact Vector.getElem_set_self _

theorem readWord_writeWord_of_ne {left right : VReg} {written lane : Nat} (file : VRegFile)
    (value : Word) (distinct : place left written ≠ place right lane) :
    (file.writeWord left written value).readWord right lane = file.readWord right lane := by
  simp only [readWord, writeWord]
  exact Vector.getElem_set_ne _ _ distinct

theorem place_ne_of_register_ne {left right : VReg} (distinct : left ≠ right)
    (written lane : Nat) : place left written ≠ place right lane := by
  have numbers : left.toNat ≠ right.toNat := fun same => distinct (BitVec.eq_of_toNat_eq same)
  unfold place
  omega

theorem place_ne_of_lane_ne {written lane : Nat} (register : VReg)
    (distinct : written % 4 ≠ lane % 4) : place register written ≠ place register lane := by
  unfold place
  omega

theorem readWord_writeRegister_same (file : VRegFile) (register : VReg) (words : VectorWords)
    {lane : Nat} (inside : lane < 4) :
    (file.writeRegister register words).readWord register lane = words[lane] := by
  have other {written : Nat} (distinct : written % 4 ≠ lane % 4) (before : VRegFile)
      (value : Word) :
      (before.writeWord register written value).readWord register lane =
        before.readWord register lane :=
    readWord_writeWord_of_ne before value (place_ne_of_lane_ne register distinct)
  have lanes : lane = 0 ∨ lane = 1 ∨ lane = 2 ∨ lane = 3 := by omega
  unfold writeRegister
  rcases lanes with rfl | rfl | rfl | rfl
  · rw [other (by decide), other (by decide), other (by decide), readWord_writeWord_same]
  · rw [other (by decide), other (by decide), readWord_writeWord_same]
  · rw [other (by decide), readWord_writeWord_same]
  · rw [readWord_writeWord_same]

theorem readWord_writeRegister_of_ne {left right : VReg} (file : VRegFile) (words : VectorWords)
    (distinct : left ≠ right) (lane : Nat) :
    (file.writeRegister left words).readWord right lane = file.readWord right lane := by
  have other (written : Nat) (before : VRegFile) (value : Word) :
      (before.writeWord left written value).readWord right lane = before.readWord right lane :=
    readWord_writeWord_of_ne before value (place_ne_of_register_ne distinct written lane)
  unfold writeRegister
  rw [other, other, other, other]

theorem place_ofNat (word : Fin 128) : place (BitVec.ofNat 5 (word / 4)) (word % 4) = word := by
  have inside : (word : Nat) / 4 < 32 := by omega
  rw [place, BitVec.toNat_ofNat, Nat.mod_eq_of_lt inside]
  omega

theorem get_words_eq_readWord (file : VRegFile) (word : Fin 128) :
    file.words.get word = file.readWord (BitVec.ofNat 5 (word / 4)) (word % 4) := by
  simp only [readWord, place_ofNat]

theorem writeWord_eq_set (file : VRegFile) (word : Fin 128) (value : Word) :
    file.writeWord (BitVec.ofNat 5 (word / 4)) (word % 4) value =
      { words := file.words.set word value } := by
  simp only [writeWord, place_ofNat]

theorem eq_of_readWord_eq {left right : VRegFile}
    (same : ∀ register lane, lane < 4 → left.readWord register lane = right.readWord register lane) :
    left = right := by
  obtain ⟨leftWords⟩ := left
  obtain ⟨rightWords⟩ := right
  congr 1
  apply Vector.ext
  intro place inside
  have word := same (BitVec.ofNat 5 (place / 4)) (place % 4) (by omega)
  rw [← get_words_eq_readWord _ ⟨place, inside⟩, ← get_words_eq_readWord _ ⟨place, inside⟩] at word
  exact word

theorem getElem_readRegister (file : VRegFile) (register : VReg) (lane : Nat) (inside : lane < 4) :
    (file.readRegister register)[lane] = file.readWord register lane := by
  simp [readRegister]

end VRegFile

end VectorBench
