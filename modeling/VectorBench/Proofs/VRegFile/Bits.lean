import VectorBench.VRegFile.Strided

/-!
# The vector registers as one row of bits

Laid end to end the registers are 4096 bits, and a word, a register, an
element or a mask bit is a run of them.  A write through any of these views
replaces its own run and nothing else.
-/

namespace VectorBench

namespace VRegFile

variable {file : VRegFile} {register : VReg} {width : ElementWidth}
  {index : Nat}

/-- Bit `place` of the whole file; there is none past the last register. -/
def bit (file : VRegFile) (place : Nat) : Bool :=
  (file.words[place / 32]?.getD 0).getLsbD (place % 32)

/-- Element `index` of the group that starts at a register: its first bit lies
`index * width.bits` bits into the group, and no element crosses a word. -/
def element (file : VRegFile) (register : VReg) (width : ElementWidth)
    (index : Nat) : BitVec width.bits :=
  (file.readWord (register + BitVec.ofNat 5 (index * width.bits / 128))
    (index * width.bits / 32)).extractLsb' (index * width.bits % 32) width.bits

theorem readWord_eq_of_readRegister_eq {left right : VRegFile}
    (same : left.readRegister register = right.readRegister register)
    (lane : Nat) :
    left.readWord register lane = right.readWord register lane := by
  have wrapped : ∀ file : VRegFile,
      file.readWord register lane = file.readWord register (lane % 4) := by
    intro file
    simp only [readWord, place, Nat.mod_mod]
  have inside : lane % 4 < 4 := Nat.mod_lt _ (by decide)
  rw [wrapped left, wrapped right, ← getElem_readRegister _ _ _ inside, same,
    getElem_readRegister]

/-- The place of the first bit of an element. -/
def elementPlace (register : VReg) (width : ElementWidth) (index : Nat) : Nat :=
  128 * register.toNat + index * width.bits

/-- An element lies inside the file. -/
def Contains (register : VReg) (width : ElementWidth) (index : Nat) : Prop :=
  elementPlace register width index < 4096

theorem bit_eq_getElem (file : VRegFile) {place word : Nat} (inside : word < 128)
    (located : place / 32 = word) :
    file.bit place = file.words[word].getLsbD (place % 32) := by
  unfold bit
  rw [located, Vector.getElem?_eq_getElem inside]
  rfl

theorem getLsbD_readWord (file : VRegFile) (register : VReg) (lane : Nat)
    {offset : Nat} (inside : offset < 32) :
    (file.readWord register lane).getLsbD offset =
      file.bit (32 * place register lane + offset) := by
  rw [bit_eq_getElem file (place_lt register lane) (by omega),
    show (32 * place register lane + offset) % 32 = offset by omega]
  rfl

theorem readRegister_eq_of_bit_eq {left right : VRegFile} {register : VReg}
    (same : ∀ place, 128 * register.toNat ≤ place →
      place < 128 * register.toNat + 128 → left.bit place = right.bit place) :
    left.readRegister register = right.readRegister register := by
  apply Vector.ext
  intro lane inside
  rw [getElem_readRegister, getElem_readRegister]
  apply BitVec.eq_of_getLsbD_eq
  intro offset below
  rw [getLsbD_readWord left register lane below,
    getLsbD_readWord right register lane below]
  unfold VRegFile.place
  exact same _ (by omega) (by omega)

theorem bit_setWord (file : VRegFile) (word : Fin 128) (value : Word)
    (place : Nat) :
    ({ words := file.words.set word value word.isLt } : VRegFile).bit place =
      if place / 32 = word then value.getLsbD (place % 32)
      else file.bit place := by
  unfold bit
  by_cases located : place / 32 = word
  · simp [located]
  · simp [located, Ne.symm located]

theorem offset_add_bits_le (width : ElementWidth) (index : Nat) :
    index * width.bits % 32 + width.bits ≤ 32 := by
  cases width <;> simp only [ElementWidth.bits] <;> omega

theorem getLsbD_element (inside : Contains register width index)
    {offset : Nat} (within : offset < width.bits) :
    (file.element register width index).getLsbD offset =
      file.bit (elementPlace register width index + offset) := by
  have fits := offset_add_bits_le width index
  have below := register.isLt
  unfold Contains at inside
  unfold elementPlace at inside ⊢
  have target :
      (register + BitVec.ofNat 5 (index * width.bits / 128)).toNat =
        register.toNat + index * width.bits / 128 := by
    rw [BitVec.toNat_add, BitVec.toNat_ofNat]
    omega
  have located :
      32 * place (register + BitVec.ofNat 5 (index * width.bits / 128))
          (index * width.bits / 32) + (index * width.bits % 32 + offset) =
        128 * register.toNat + index * width.bits + offset := by
    unfold place
    rw [target]
    omega
  unfold element
  rw [BitVec.getLsbD_extractLsb', getLsbD_readWord file _ _ (by omega), located]
  simp [within]

theorem locate?_eq_some (inside : Contains register width index) :
    ∃ word : Fin 128,
      locate? register width index = some (word, index * width.bits % 32) ∧
      elementPlace register width index =
        32 * word.val + index * width.bits % 32 := by
  unfold Contains elementPlace at *
  have below : 4 * register.toNat + index * width.bits / 32 < 128 := by omega
  refine ⟨⟨_, below⟩, ?_, ?_⟩
  · simp only [locate?, dif_pos below]
  · simp only
    omega

/-- Reading an element inside the file gives its bits. -/
theorem readElement_eq (inside : Contains register width index) :
    file.readElement register width index =
      .ok ((file.element register width index).setWidth 32) := by
  obtain ⟨word, found, located⟩ := locate?_eq_some inside
  have fits := offset_add_bits_le width index
  simp only [readElement, found, Except.ok.injEq]
  apply BitVec.eq_of_getLsbD_eq
  intro offset below
  rw [ElementWidth.getLsbD_extract _ fits, BitVec.getLsbD_setWidth]
  by_cases within : offset < width.bits
  · rw [getLsbD_element inside within, located,
      bit_eq_getElem file word.isLt (by omega),
      show (32 * word.val + index * width.bits % 32 + offset) % 32 =
        index * width.bits % 32 + offset by omega]
    simp only [within, below, decide_true, Bool.true_and]
    rfl
  · have beyond := BitVec.getLsbD_of_ge (file.element register width index)
      offset (Nat.le_of_not_lt within)
    simp [within, beyond]

/-- There is nothing to read past the last register. -/
theorem readElement_outside (outside : ¬ Contains register width index) :
    file.readElement register width index = .error .illegalRegister := by
  unfold Contains elementPlace at outside
  have beyond : ¬ 4 * register.toNat + index * width.bits / 32 < 128 := by
    omega
  simp only [readElement, locate?, dif_neg beyond]

theorem elementPlace_succ (register : VReg) (width : ElementWidth)
    (index : Nat) :
    elementPlace register width (index + 1) =
      elementPlace register width index + width.bits := by
  unfold elementPlace
  rw [Nat.add_mul, Nat.one_mul, Nat.add_assoc]

theorem elementPlace_mono (register : VReg) (width : ElementWidth)
    {first second : Nat} (ordered : first ≤ second) :
    elementPlace register width first ≤ elementPlace register width second :=
  Nat.add_le_add_left (Nat.mul_le_mul_right _ ordered) _

/-- Two files hold the same bits outside a run of places. -/
def SameOutside (start stop : Nat) (left right : VRegFile) : Prop :=
  ∀ place, ¬ (start ≤ place ∧ place < stop) → left.bit place = right.bit place

namespace SameOutside

variable {start stop : Nat} {left middle right : VRegFile}

theorem refl (start stop : Nat) (file : VRegFile) :
    SameOutside start stop file file :=
  fun _ _ => rfl

theorem trans (first : SameOutside start stop left middle)
    (second : SameOutside start stop middle right) :
    SameOutside start stop left right :=
  fun place outside => (first place outside).trans (second place outside)

theorem mono {start' stop' : Nat} (same : SameOutside start stop left right)
    (starts : start' ≤ start) (stops : stop ≤ stop') :
    SameOutside start' stop' left right := by
  intro place outside
  exact same place (fun inside => outside (by omega))

/-- An element outside the run is the same in both files. -/
theorem element (same : SameOutside start stop left right)
    (inside : Contains register width index)
    (apart : elementPlace register width index + width.bits ≤ start ∨
      stop ≤ elementPlace register width index) :
    left.element register width index = right.element register width index := by
  apply BitVec.eq_of_getLsbD_eq
  intro offset within
  rw [getLsbD_element inside within, getLsbD_element inside within]
  exact same _ (by omega)

/-- A register outside the run is the same in both files. -/
theorem readRegister (same : SameOutside start stop left right)
    (apart : 128 * register.toNat + 128 ≤ start ∨
      stop ≤ 128 * register.toNat) :
    left.readRegister register = right.readRegister register := by
  apply readRegister_eq_of_bit_eq
  intro place starts stops
  exact same place (by omega)

end SameOutside

/-- Writing an element inside the file replaces its bits and no others. -/
theorem writeElement_eq (file : VRegFile)
    (inside : Contains register width index) (value : Word) :
    ∃ after, file.writeElement register width index value = (.ok (), after) ∧
      after.element register width index = value.setWidth width.bits ∧
      SameOutside (elementPlace register width index)
        (elementPlace register width (index + 1)) after file := by
  obtain ⟨word, found, located⟩ := locate?_eq_some inside
  have fits := offset_add_bits_le width index
  rw [elementPlace_succ]
  simp only [writeElement, found]
  refine ⟨_, rfl, ?_, ?_⟩
  · apply BitVec.eq_of_getLsbD_eq
    intro offset within
    rw [getLsbD_element inside within, bit_setWord, if_pos (by omega),
      ElementWidth.getLsbD_insert _ _ fits (by omega), if_pos (by omega),
      BitVec.getLsbD_setWidth, located,
      show (32 * word.val + index * width.bits % 32 + offset) % 32 -
        index * width.bits % 32 = offset by omega]
    simp [within]
  · intro place outside
    rw [bit_setWord]
    by_cases same : place / 32 = word
    · rw [if_pos same, ElementWidth.getLsbD_insert _ _ fits (by omega),
        if_neg (by omega), bit_eq_getElem file word.isLt same]
      rfl
    · rw [if_neg same]

theorem writeElement_outside (file : VRegFile)
    (outside : ¬ Contains register width index) (value : Word) :
    file.writeElement register width index value =
      (.error .illegalRegister, file) := by
  unfold Contains elementPlace at outside
  have beyond : ¬ 4 * register.toNat + index * width.bits / 32 < 128 := by
    omega
  simp only [writeElement, locate?, dif_neg beyond]

theorem readMaskBit_eq_bit (file : VRegFile) (register : VReg) (index : Nat) :
    file.readMaskBit register index =
      file.bit (128 * register.toNat + index % 128) := by
  unfold readMaskBit vectorBits
  rw [getLsbD_readWord file register _ (Nat.mod_lt _ (by decide))]
  unfold place
  congr 1
  omega

/-- Writing a mask bit replaces that bit and no others. -/
theorem bit_writeMaskBit (file : VRegFile) (register : VReg) (index : Nat)
    (value : Bool) (place : Nat) :
    (file.writeMaskBit register index value).bit place =
      if place = 128 * register.toNat + index % 128 then value
      else file.bit place := by
  let word : Fin 128 :=
    ⟨VRegFile.place register (index % 128 / 32), place_lt _ _⟩
  have located : (word : Nat) = 4 * register.toNat + index % 128 / 32 := by
    simp only [word, VRegFile.place]
    omega
  have written : file.writeMaskBit register index value =
      { words := file.words.set word
          (replaceBits (file.words.get word) (index % 32)
            (BitVec.ofBool value)) } := rfl
  rw [written, bit_setWord]
  by_cases same : place / 32 = word
  · have inside : place % 32 < 32 := Nat.mod_lt _ (by decide)
    rw [if_pos same, getLsbD_replaceBits _ _ _ inside]
    by_cases here : place = 128 * register.toNat + index % 128
    · have start : place % 32 - index % 32 = 0 := by omega
      rw [if_pos (by omega), if_pos here, start]
      simp
    · rw [if_neg (by omega), if_neg here, bit_eq_getElem file word.isLt same]
      rfl
  · rw [if_neg same, if_neg (by omega)]

/-- Writing a word replaces its bits and no others. -/
theorem bit_writeWord (file : VRegFile) (register : VReg) (lane : Nat)
    (value : Word) (place : Nat) :
    (file.writeWord register lane value).bit place =
      if 128 * register.toNat + 32 * (lane % 4) ≤ place ∧
          place < 128 * register.toNat + 32 * (lane % 4) + 32 then
        value.getLsbD (place - (128 * register.toNat + 32 * (lane % 4)))
      else file.bit place := by
  let word : Fin 128 := ⟨VRegFile.place register lane, place_lt register lane⟩
  have located : (word : Nat) = 4 * register.toNat + lane % 4 := rfl
  have written : file.writeWord register lane value =
      { words := file.words.set word value } := rfl
  rw [written, bit_setWord]
  by_cases same : place / 32 = word
  · rw [if_pos same, if_pos (by omega)]
    congr 1
    omega
  · rw [if_neg same, if_neg (by omega)]

theorem bit_writeElement (file : VRegFile)
    (inside : Contains register width index) (value : Word) :
    ∃ after, file.writeElement register width index value = (.ok (), after) ∧
      ∀ place, after.bit place =
        if elementPlace register width index ≤ place ∧
            place < elementPlace register width index + width.bits then
          value.getLsbD (place - elementPlace register width index)
        else file.bit place := by
  obtain ⟨after, wrote, holds, others⟩ := writeElement_eq file inside value
  refine ⟨after, wrote, ?_⟩
  intro place
  by_cases written : elementPlace register width index ≤ place ∧
      place < elementPlace register width index + width.bits
  · obtain ⟨offset, rfl⟩ := Nat.exists_eq_add_of_le written.1
    have within : offset < width.bits := by omega
    rw [if_pos written, ← getLsbD_element inside within, holds,
      BitVec.getLsbD_setWidth, Nat.add_sub_cancel_left]
    simp [within]
  · rw [if_neg written]
    exact others place (by rwa [elementPlace_succ])

end VRegFile

end VectorBench
