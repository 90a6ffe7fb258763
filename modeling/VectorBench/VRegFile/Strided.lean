import VectorBench.VRegFile

/-!
# Strided elements

The elements of a register group need not stand side by side.  A layout fixes the distance between
two elements in bytes and the size of one of them; an element is then a run of bits of one whole
register.  Elements that do stand side by side are the elements found word by word.
-/

namespace VectorBench

structure ElementLayout where
  /-- Bytes from the start of an element to the start of the next one. -/
  stride : Nat
  width : ElementWidth
deriving DecidableEq, Repr

namespace ElementLayout

def packed (width : ElementWidth) : ElementLayout where
  stride := width.bits / 8
  width := width

/-- The layout for elements of `count` bits: they are as many whole bytes apart, and those of a size
other than 8 and 16 are words. -/
def ofBits (count : Nat) : ElementLayout where
  stride := count / 8
  width := if count = 8 then .e8 else if count = 16 then .e16 else .e32

theorem ofBits_bits (width : ElementWidth) : ofBits width.bits = packed width := by
  cases width <;> rfl

end ElementLayout

namespace VRegFile

/-- A register as a single number, lane 0 in its low bits. -/
def registerBits (file : VRegFile) (register : VReg) : BitVec 128 :=
  file.readWord register 3 ++ file.readWord register 2 ++ file.readWord register 1 ++
    file.readWord register 0

def writeRegisterBits (file : VRegFile) (register : VReg) (bits : BitVec 128) : VRegFile :=
  file.writeRegister register (Vector.ofFn fun lane => bits.extractLsb' (32 * lane) 32)

/-- Where element `index` of the group that starts at a register lies: its register and its first
bit there.  There is no such place past the last register.  Elements of 8, 16 and 32 bits never cross
the end of a register; at other widths one can, and to ask for it is a programming error that ends
the program.  Here such an element has no place either, and reading or writing it is refused. -/
def locateStrided? (register : VReg) (layout : ElementLayout) (index : Nat) : Option (VReg × Nat) :=
  let offset := index * layout.stride
  let target := register.toNat + offset / 16
  let bit := 8 * (offset % 16)
  if target < 32 ∧ bit + layout.width.bits ≤ 128 then some (BitVec.ofNat 5 target, bit) else none

def readStrided (file : VRegFile) (register : VReg) (layout : ElementLayout) (index : Nat) :
    Except Fault Word :=
  match locateStrided? register layout index with
  | some (target, bit) =>
      .ok (((file.registerBits target).extractLsb' bit layout.width.bits).setWidth 32)
  | none => .error .illegalRegister

def writeStrided (file : VRegFile) (register : VReg) (layout : ElementLayout) (index : Nat)
    (value : Word) : Except Fault Unit × VRegFile :=
  match locateStrided? register layout index with
  | some (target, bit) =>
      let updated :=
        replaceBits (file.registerBits target) bit (value.setWidth layout.width.bits)
      (.ok (), file.writeRegisterBits target updated)
  | none => (.error .illegalRegister, file)

theorem getLsbD_registerBits (file : VRegFile) (register : VReg) {place : Nat}
    (inside : place < 128) :
    (file.registerBits register).getLsbD place =
      (file.readWord register (place / 32)).getLsbD (place % 32) := by
  simp only [registerBits, BitVec.getLsbD_append]
  have cases : place / 32 = 0 ∨ place / 32 = 1 ∨ place / 32 = 2 ∨ place / 32 = 3 := by omega
  rcases cases with lane | lane | lane | lane
  · rw [if_pos (by omega), lane, show place % 32 = place by omega]
  · rw [if_neg (by omega), if_pos (by omega), lane, show place % 32 = place - 32 by omega]
  · rw [if_neg (by omega), if_neg (by omega), if_pos (by omega), lane,
      show place % 32 = place - 32 - 32 by omega]
  · rw [if_neg (by omega), if_neg (by omega), if_neg (by omega), lane,
      show place % 32 = place - 32 - 32 - 32 by omega]

theorem readWord_writeRegisterBits_same (file : VRegFile) (register : VReg) (bits : BitVec 128)
    {lane : Nat} (inside : lane < 4) :
    (file.writeRegisterBits register bits).readWord register lane =
      bits.extractLsb' (32 * lane) 32 := by
  rw [writeRegisterBits, readWord_writeRegister_same _ _ _ inside, Vector.getElem_ofFn]

theorem readWord_writeRegisterBits_of_ne {left right : VReg} (file : VRegFile) (bits : BitVec 128)
    (distinct : left ≠ right) (lane : Nat) :
    (file.writeRegisterBits left bits).readWord right lane = file.readWord right lane :=
  readWord_writeRegister_of_ne file _ distinct lane

theorem fits_of_locate? {register : VReg} {width : ElementWidth} {index offset : Nat}
    {word : Fin 128} (found : locate? register width index = some (word, offset)) :
    offset + width.bits ≤ 32 := by
  simp only [locate?] at found
  split at found
  · cases found
    cases width <;> simp only [ElementWidth.bits] <;> omega
  · contradiction

theorem locateStrided?_packed (register : VReg) (width : ElementWidth) (index : Nat) :
    locateStrided? register (.packed width) index =
      (locate? register width index).map fun (word, offset) =>
        (BitVec.ofNat 5 (word.val / 4), 32 * (word.val % 4) + offset) := by
  have below := register.isLt
  by_cases inside : 4 * register.toNat + index * width.bits / 32 < 128
  · have found : locate? register width index =
        some (⟨4 * register.toNat + index * width.bits / 32, inside⟩, index * width.bits % 32) := by
      simp only [locate?, dif_pos inside]
    have target : register.toNat + index * (width.bits / 8) / 16 =
        (4 * register.toNat + index * width.bits / 32) / 4 := by
      cases width <;> simp only [ElementWidth.bits] <;> omega
    have bit : 8 * (index * (width.bits / 8) % 16) =
        32 * ((4 * register.toNat + index * width.bits / 32) % 4) + index * width.bits % 32 := by
      cases width <;> simp only [ElementWidth.bits] <;> omega
    have fits := fits_of_locate? found
    simp only [found, Option.map_some, locateStrided?, ElementLayout.packed, target, bit]
    exact if_pos (by omega)
  · have missing : locate? register width index = none := by
      simp only [locate?, dif_neg inside]
    have outside : ¬ register.toNat + index * (width.bits / 8) / 16 < 32 := by
      cases width <;> simp only [ElementWidth.bits] at * <;> omega
    rw [missing]
    exact if_neg fun located => outside located.1

theorem readStrided_packed (file : VRegFile) (register : VReg) (width : ElementWidth)
    (index : Nat) :
    file.readStrided register (.packed width) index = file.readElement register width index := by
  rw [readStrided, readElement, locateStrided?_packed]
  cases found : locate? register width index with
  | none => rfl
  | some place =>
      obtain ⟨word, offset⟩ := place
      have fits := fits_of_locate? found
      simp only [Option.map_some, Except.ok.injEq]
      apply BitVec.eq_of_getLsbD_eq
      intro place inside
      rw [ElementWidth.getLsbD_extract _ fits, BitVec.getLsbD_setWidth,
        BitVec.getLsbD_extractLsb', get_words_eq_readWord]
      by_cases within : place < width.bits
      · rw [getLsbD_registerBits _ _ (by omega),
          show (32 * (word.val % 4) + offset + place) / 32 = word.val % 4 by omega,
          show (32 * (word.val % 4) + offset + place) % 32 = offset + place by omega]
        simp [inside, within, ElementLayout.packed]
      · simp [within, ElementLayout.packed]

/-- Replacing bits of a register inside one word replaces them in that word. -/
theorem writeRegisterBits_replaceBits (file : VRegFile) (register : VReg)
    {width lane offset : Nat} (value : BitVec width) (inside : lane < 4)
    (fits : offset + width ≤ 32) :
    file.writeRegisterBits register
        (replaceBits (file.registerBits register) (32 * lane + offset) value) =
      file.writeWord register lane (replaceBits (file.readWord register lane) offset value) := by
  apply eq_of_readWord_eq
  intro other read within
  by_cases same : register = other
  · subst same
    rw [readWord_writeRegisterBits_same _ _ _ within]
    apply BitVec.eq_of_getLsbD_eq
    intro place below
    have whole : 32 * read + place < 128 := by omega
    rw [BitVec.getLsbD_extractLsb', getLsbD_replaceBits _ _ _ whole, getLsbD_registerBits _ _ whole,
      show (32 * read + place) / 32 = read by omega, show (32 * read + place) % 32 = place by omega]
    by_cases written : read = lane
    · subst written
      rw [readWord_writeWord_same, getLsbD_replaceBits _ _ _ below,
        show 32 * read + place - (32 * read + offset) = place - offset by omega]
      simp only [below, decide_true, Bool.true_and]
      congr 1
      simp only [eq_iff_iff]
      omega
    · rw [readWord_writeWord_of_ne _ _ (place_ne_of_lane_ne register (by omega)),
        if_neg (by omega)]
      simp [below]
  · rw [readWord_writeRegisterBits_of_ne _ _ same,
      readWord_writeWord_of_ne _ _ (place_ne_of_register_ne same lane read)]

theorem writeStrided_packed (file : VRegFile) (register : VReg) (width : ElementWidth)
    (index : Nat) (value : Word) :
    file.writeStrided register (.packed width) index value =
      file.writeElement register width index value := by
  rw [writeStrided, writeElement, locateStrided?_packed]
  cases found : locate? register width index with
  | none => rfl
  | some place =>
      obtain ⟨word, offset⟩ := place
      have fits := fits_of_locate? found
      have lane : word.val % 4 < 4 := by omega
      have written := writeRegisterBits_replaceBits file (BitVec.ofNat 5 (word.val / 4))
        (value.setWidth width.bits) lane fits
      rw [← ElementWidth.insert_eq_replaceBits _ _ fits, ← get_words_eq_readWord,
        writeWord_eq_set] at written
      exact congrArg (Prod.mk (Except.ok ())) written

end VRegFile

end VectorBench
