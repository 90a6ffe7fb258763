import VectorBench.Proofs.VRegFile.Views

/-!
# The vector registers in bytes

A register can also be kept as sixteen bytes, with words and elements standing
in them low byte first.  Each view has its own way to its bits there, and the
views still agree with each other and with the registers kept in words.
-/

namespace VectorBench

/-- The bytes of one register. -/
abbrev RegisterRow := Vector (BitVec 8) 16

/-- Up to four bytes as a word, the lowest first. -/
def littleEndian : List (BitVec 8) → Word
  | [] => 0
  | byte :: bytes => byte.setWidth 32 ||| (littleEndian bytes <<< 8)

/-- Some bytes of one register, side by side. -/
structure ByteRun (count : Nat) where
  register : VReg
  offset : Nat
  fits : offset + count ≤ 16

namespace ByteRun

def word (register : VReg) (lane : Nat) : ByteRun 4 where
  register := register
  offset := lane % 4 * 4
  fits := by omega

theorem element_fits (width : ElementWidth) (index : Nat) :
    index * (width.bits / 8) % 16 + width.bits / 8 ≤ 16 := by
  cases width <;> simp only [ElementWidth.bits] <;> omega

/-- The bytes of an element, unless it lies past the last register. -/
def element? (register : VReg) (width : ElementWidth) (index : Nat) :
    Option (ByteRun (width.bits / 8)) :=
  let offset := index * (width.bits / 8)
  let holder := register.toNat + offset / 16
  if holder < 32 then
    some ⟨BitVec.ofNat 5 holder, offset % 16, element_fits width index⟩
  else none

end ByteRun

/-- The vector registers as rows of bytes. -/
structure RegisterBytes where
  rows : Vector RegisterRow 32

namespace RegisterBytes

variable {count : Nat}

def zeroed : RegisterBytes where
  rows := Vector.replicate 32 (Vector.replicate 16 0)

def row (bytes : RegisterBytes) (register : VReg) : RegisterRow :=
  bytes.rows.get ⟨register.toNat, register.isLt⟩

def setRow (bytes : RegisterBytes) (register : VReg) (row : RegisterRow) :
    RegisterBytes where
  rows := bytes.rows.set register.toNat row register.isLt

/-- Byte `place` of a run. -/
def byte (bytes : RegisterBytes) (run : ByteRun count) (place : Fin count) :
    BitVec 8 :=
  have fits := run.fits
  (bytes.row run.register)[run.offset + place]

def load (bytes : RegisterBytes) (run : ByteRun count) : Word :=
  littleEndian (List.ofFn (bytes.byte run))

/-- Puts the low bytes of a word in the place of a run. -/
def put (bytes : RegisterBytes) (run : ByteRun count) (value : Word) :
    RegisterBytes :=
  bytes.setRow run.register (Vector.ofFn fun place =>
    if run.offset ≤ place ∧ place < run.offset + count then
      value.extractLsb' (8 * (place - run.offset)) 8
    else (bytes.row run.register)[place])

def readWord (bytes : RegisterBytes) (register : VReg) (lane : Nat) : Word :=
  bytes.load (.word register lane)

def writeWord (bytes : RegisterBytes) (register : VReg) (lane : Nat)
    (value : Word) : RegisterBytes :=
  bytes.put (.word register lane) value

def readRegister (bytes : RegisterBytes) (register : VReg) : VectorWords :=
  Vector.ofFn fun lane => bytes.readWord register lane

def writeRegister (bytes : RegisterBytes) (register : VReg)
    (words : VectorWords) : RegisterBytes :=
  (List.finRange 4).foldl
    (fun bytes (lane : Fin 4) =>
      bytes.writeWord register lane (words.get lane)) bytes

def readElement (bytes : RegisterBytes) (register : VReg)
    (width : ElementWidth) (index : Nat) : Except Fault Word :=
  match ByteRun.element? register width index with
  | some run => .ok (bytes.load run)
  | none => .error .illegalRegister

def writeElement (bytes : RegisterBytes) (register : VReg)
    (width : ElementWidth) (index : Nat) (value : Word) :
    Except Fault Unit × RegisterBytes :=
  match ByteRun.element? register width index with
  | some run => (.ok (), bytes.put run value)
  | none => (.error .illegalRegister, bytes)

/-- The byte that holds a mask bit. -/
def maskByte (bytes : RegisterBytes) (register : VReg) (index : Nat) :
    BitVec 8 :=
  (bytes.row register)[index % 128 / 8]

def readMaskBit (bytes : RegisterBytes) (register : VReg) (index : Nat) : Bool :=
  (bytes.maskByte register index >>> (index % 128 % 8)) &&& 1 != 0

def writeMaskBit (bytes : RegisterBytes) (register : VReg) (index : Nat)
    (value : Bool) : RegisterBytes :=
  let byte := bytes.maskByte register index
  let selected := (1 : BitVec 8) <<< (index % 128 % 8)
  bytes.setRow register ((bytes.row register).set (index % 128 / 8)
    (if value then byte ||| selected else byte &&& ~~~selected))

def store : RegisterStore RegisterBytes where
  readWord := readWord
  readRegister := readRegister
  readElement := readElement
  readMaskBit := readMaskBit
  writeWord := writeWord
  writeRegister := writeRegister
  writeElement := writeElement
  writeMaskBit := writeMaskBit

/-- Bit `place` of the registers laid end to end; there is none past the last
register. -/
def bit (bytes : RegisterBytes) (place : Nat) : Bool :=
  ((bytes.rows[place / 128]?.getD (Vector.replicate 16 0))[place % 128 / 8]).getLsbD
    (place % 8)

/-! ### Bits of bytes -/

theorem getLsbD_littleEndian (bytes : List (BitVec 8)) {offset : Nat}
    (inside : offset < 32) :
    (littleEndian bytes).getLsbD offset =
      (bytes[offset / 8]?.getD 0).getLsbD (offset % 8) := by
  induction bytes generalizing offset with
  | nil => simp [littleEndian]
  | cons byte bytes ih =>
      rw [littleEndian, BitVec.getLsbD_or, BitVec.getLsbD_setWidth,
        BitVec.getLsbD_shiftLeft]
      by_cases first : offset < 8
      · simp [first, inside, Nat.div_eq_of_lt first, Nat.mod_eq_of_lt first]
      · have rest : offset / 8 = (offset - 8) / 8 + 1 := by omega
        have same : offset % 8 = (offset - 8) % 8 := by omega
        have none : byte.getLsbD offset = false :=
          BitVec.getLsbD_of_ge _ _ (Nat.le_of_not_lt first)
        rw [rest, same, List.getElem?_cons_succ, ← ih (by omega), none]
        simp [first, inside]

theorem bit_eq_getElem (bytes : RegisterBytes) {register : VReg} {place : Nat}
    (located : place / 128 = register.toNat) :
    bytes.bit place =
      ((bytes.row register)[place % 128 / 8]).getLsbD (place % 8) := by
  have below : register.toNat < 32 := register.isLt
  simp only [bit, located, Vector.getElem?_eq_getElem below, Option.getD_some]
  rfl

theorem bit_setRow (bytes : RegisterBytes) (register : VReg)
    (row : RegisterRow) (place : Nat) :
    (bytes.setRow register row).bit place =
      if place / 128 = register.toNat then
        (row[place % 128 / 8]).getLsbD (place % 8)
      else bytes.bit place := by
  unfold bit setRow
  by_cases located : place / 128 = register.toNat
  · simp [located]
  · simp [located, Ne.symm located]

/-- A run of bytes is where a view is. -/
structure Spans (run : ByteRun count) (view : RegisterView) : Prop where
  short : count ≤ 4
  start : view.start = 128 * run.register.toNat + 8 * run.offset
  size : view.size = 8 * count

theorem spans_word (register : VReg) (lane : Nat) :
    Spans (.word register lane) (.word register lane) where
  short := Nat.le_refl 4
  start := by
    simp only [RegisterView.start, ByteRun.word]
    omega
  size := rfl

/-- An element lies past the last register in bytes where it does in words. -/
theorem holder_lt_iff {register : VReg} {width : ElementWidth} {index : Nat} :
    register.toNat + index * (width.bits / 8) / 16 < 32 ↔
      (RegisterView.element register width index).Inside := by
  simp only [RegisterView.Inside, RegisterView.start, VRegFile.elementPlace]
  cases width <;> simp only [ElementWidth.bits] <;> omega

theorem spans_element {register : VReg} {width : ElementWidth} {index : Nat}
    (inside : (RegisterView.element register width index).Inside) :
    ∃ run, ByteRun.element? register width index = some run ∧
      Spans run (.element register width index) := by
  have holder := holder_lt_iff.mpr inside
  refine ⟨_, if_pos holder, ?_, ?_, ?_⟩
  · cases width <;> decide
  · simp only [RegisterView.start, VRegFile.elementPlace, BitVec.toNat_ofNat]
    rw [Nat.mod_eq_of_lt (holder : _ < 2 ^ 5)]
    cases width <;> simp only [ElementWidth.bits] <;> omega
  · simp only [RegisterView.size]
    cases width <;> rfl

theorem element?_eq_none {register : VReg} {width : ElementWidth} {index : Nat}
    (outside : ¬ (RegisterView.element register width index).Inside) :
    ByteRun.element? register width index = none :=
  if_neg (mt holder_lt_iff.mp outside)

theorem getLsbD_load (bytes : RegisterBytes) (run : ByteRun count)
    {offset : Nat} (inside : offset < 32) :
    (bytes.load run).getLsbD offset =
      if offset < 8 * count then
        bytes.bit (128 * run.register.toNat + 8 * run.offset + offset)
      else false := by
  have fits := run.fits
  rw [load, getLsbD_littleEndian _ inside]
  by_cases within : offset < 8 * count
  · have place : offset / 8 < count := by omega
    have located : (128 * run.register.toNat + 8 * run.offset + offset) / 128 =
        run.register.toNat := by omega
    rw [if_pos within, bit_eq_getElem bytes located]
    have index : (128 * run.register.toNat + 8 * run.offset + offset) % 128 / 8 =
        run.offset + offset / 8 := by omega
    have shift : (128 * run.register.toNat + 8 * run.offset + offset) % 8 =
        offset % 8 := by omega
    simp only [List.getElem?_ofFn, place, dite_true, Option.getD_some, byte,
      index, shift]
  · have beyond : ¬ offset / 8 < count := by omega
    rw [if_neg within]
    simp [beyond]

theorem bit_put (bytes : RegisterBytes) (run : ByteRun count) (value : Word)
    (place : Nat) :
    (bytes.put run value).bit place =
      if 128 * run.register.toNat + 8 * run.offset ≤ place ∧
          place < 128 * run.register.toNat + 8 * run.offset + 8 * count then
        value.getLsbD (place - (128 * run.register.toNat + 8 * run.offset))
      else bytes.bit place := by
  have fits := run.fits
  rw [put, bit_setRow]
  by_cases located : place / 128 = run.register.toNat
  · rw [if_pos located, Vector.getElem_ofFn]
    by_cases within : run.offset ≤ place % 128 / 8 ∧
        place % 128 / 8 < run.offset + count
    · rw [if_pos within, if_pos (by omega), BitVec.getLsbD_extractLsb',
        decide_eq_true (Nat.mod_lt _ (by decide)), Bool.true_and]
      congr 1
      simp only
      omega
    · rw [if_neg within, if_neg (by omega), bit_eq_getElem bytes located]
      rfl
  · rw [if_neg located, if_neg (by omega)]

/-- The bits of a view make the word that is loaded. -/
theorem load_spans (bytes : RegisterBytes) {run : ByteRun count}
    {view : RegisterView} (spans : Spans run view) :
    (∀ offset < view.size,
      (bytes.load run).getLsbD offset = bytes.bit (view.start + offset)) ∧
    ∀ offset, view.size ≤ offset →
      (bytes.load run).getLsbD offset = false := by
  have short := spans.short
  rw [spans.start, spans.size]
  constructor
  · intro offset within
    rw [getLsbD_load bytes run (by omega), if_pos within]
  · intro offset beyond
    by_cases inside : offset < 32
    · rw [getLsbD_load bytes run inside, if_neg (Nat.not_lt.mpr beyond)]
    · exact BitVec.getLsbD_of_ge _ _ (Nat.le_of_not_lt inside)

theorem put_word (bytes : RegisterBytes) {run : ByteRun count}
    {view : RegisterView} (spans : Spans run view) (value : Word)
    {written : view.Value}
    (same : ∀ offset, view.bitOf written offset = value.getLsbD offset) :
    (bytes.put run value).bit =
      RegisterStore.replaced view written bytes.bit := by
  funext place
  have covers : view.Covers place ↔
      128 * run.register.toNat + 8 * run.offset ≤ place ∧
        place < 128 * run.register.toNat + 8 * run.offset + 8 * count := by
    rw [RegisterView.Covers, spans.start, spans.size]
  rw [bit_put, RegisterStore.replaced, same, spans.start]
  by_cases here : view.Covers place
  · rw [if_pos here, if_pos (covers.mp here)]
  · rw [if_neg here, if_neg (mt covers.mpr here)]

theorem bit_writeWord (bytes : RegisterBytes) (register : VReg) (lane : Nat)
    (value : Word) :
    (bytes.writeWord register lane value).bit =
      RegisterStore.replaced (.word register lane) value bytes.bit :=
  bytes.put_word (spans_word register lane) value fun _ => rfl

/-! ### Mask bits -/

theorem shifted_bit (byte : BitVec 8) (place : Nat) :
    (byte >>> place &&& 1 != 0) = byte.getLsbD place := by
  have low := BitVec.and_one_eq_setWidth_ofBool_getLsbD (x := byte >>> place)
  rw [BitVec.getLsbD_ushiftRight, Nat.add_zero] at low
  rw [show (1 : BitVec 8) = 1#8 from rfl, low]
  cases byte.getLsbD place <;> decide

theorem getLsbD_selected {place offset : Nat} (byte : BitVec 8) (value : Bool)
    (inside : place < 8) (below : offset < 8) :
    (if value then byte ||| (1 : BitVec 8) <<< place
      else byte &&& ~~~((1 : BitVec 8) <<< place)).getLsbD offset =
      if offset = place then value else byte.getLsbD offset := by
  have one : (1 : BitVec 8) <<< place = BitVec.twoPow 8 place :=
    (BitVec.twoPow_eq 8 place).symm
  rw [one]
  by_cases here : offset = place
  · subst here
    cases value <;> simp [inside]
  · cases value <;> simp [here, below]

theorem readMaskBit_eq_bit (bytes : RegisterBytes) (register : VReg)
    (index : Nat) :
    bytes.readMaskBit register index =
      bytes.bit (128 * register.toNat + index % 128) := by
  have located : (128 * register.toNat + index % 128) / 128 =
      register.toNat := by omega
  have inner : (128 * register.toNat + index % 128) % 128 = index % 128 := by
    omega
  have shift : (128 * register.toNat + index % 128) % 8 = index % 128 % 8 := by
    omega
  rw [readMaskBit, shifted_bit, bit_eq_getElem bytes located, maskByte]
  simp only [inner, shift]

theorem bit_writeMaskBit (bytes : RegisterBytes) (register : VReg)
    (index : Nat) (value : Bool) (place : Nat) :
    (bytes.writeMaskBit register index value).bit place =
      if place = 128 * register.toNat + index % 128 then value
      else bytes.bit place := by
  have within : index % 128 % 8 < 8 := Nat.mod_lt _ (by decide)
  have below : place % 8 < 8 := Nat.mod_lt _ (by decide)
  unfold writeMaskBit
  simp only [bit_setRow]
  by_cases located : place / 128 = register.toNat
  · rw [if_pos located]
    by_cases same : place % 128 / 8 = index % 128 / 8
    · simp only [same, Vector.getElem_set_self]
      rw [getLsbD_selected _ _ within below]
      by_cases here : place % 8 = index % 128 % 8
      · rw [if_pos here, if_pos (by omega)]
      · rw [if_neg here, if_neg (by omega), bit_eq_getElem bytes located]
        simp only [maskByte, same]
    · have apart : place ≠ 128 * register.toNat + index % 128 := by
        rintro rfl
        omega
      rw [if_neg apart, bit_eq_getElem bytes located,
        Vector.getElem_set_ne _ _ (Ne.symm same)]
  · rw [if_neg located, if_neg (by omega)]

/-! ### Agreement -/

open RegisterStore

theorem laid : store.Laid bit where
  read bytes view inside := by
    cases view with
    | word register lane =>
        exact ⟨_, rfl, bytes.load_spans (spans_word register lane)⟩
    | whole register =>
        refine ⟨bytes.readRegister register, rfl, shows_whole ?_⟩
        intro lane below
        rw [readRegister, Vector.getElem_ofFn]
        exact bytes.load_spans (spans_word register lane)
    | element register width index =>
        obtain ⟨run, found, spans⟩ := spans_element inside
        refine ⟨bytes.load run, ?_, bytes.load_spans spans⟩
        simp only [RegisterStore.read, store, readElement, found]
    | maskBit register index =>
        exact ⟨_, rfl,
          shows_maskBit (bytes.readMaskBit_eq_bit register index)⟩
  write bytes view value inside := by
    cases view with
    | word register lane =>
        exact ⟨_, rfl, bit_writeWord bytes register lane value⟩
    | whole register =>
        exact ⟨_, rfl, bit_writeWords bit_writeWord bytes register value⟩
    | element register width index =>
        obtain ⟨run, found, spans⟩ := spans_element inside
        refine ⟨bytes.put run value, ?_, bytes.put_word spans value fun _ => rfl⟩
        simp only [RegisterStore.write, store, writeElement, found]
    | maskBit register index =>
        exact ⟨_, rfl,
          replaced_maskBit (bytes.bit_writeMaskBit register index value)⟩
  readOutside bytes view outside := by
    obtain ⟨register, width, index, rfl⟩ := view.exists_eq_element outside
    simp only [RegisterStore.read, store, readElement,
      element?_eq_none outside]
  writeOutside bytes view value outside := by
    obtain ⟨register, width, index, rfl⟩ := view.exists_eq_element outside
    simp only [RegisterStore.write, store, writeElement,
      element?_eq_none outside]

theorem bit_zeroed : zeroed.bit = VRegFile.zeroed.bit := by
  funext place
  have words : VRegFile.zeroed.bit place = false := by
    by_cases inside : place / 32 < 128 <;>
      simp [VRegFile.bit, VRegFile.zeroed, inside]
  have bytes : zeroed.bit place = false := by
    by_cases inside : place / 128 < 32 <;> simp [bit, zeroed, inside]
  rw [words, bytes]

end RegisterBytes

/-- Words, registers, elements and mask bits are views of one store, whether the
registers are kept in words or in bytes, and after any row of writes the two are
read alike.  An element whose width is given as a number of bits is the same
element. -/
theorem register_views_consistent :
    VRegFile.store.Consistent ∧ RegisterBytes.store.Consistent ∧
      (∀ writes view,
        RegisterBytes.store.read
            (RegisterBytes.store.writeAll RegisterBytes.zeroed writes) view =
          VRegFile.store.read
            (VRegFile.store.writeAll VRegFile.zeroed writes) view) ∧
      ∀ (file : VRegFile) (register : VReg) (width : ElementWidth) (index : Nat),
        file.readStrided register (.ofBits width.bits) index =
            file.readElement register width index ∧
          ∀ value, file.writeStrided register (.ofBits width.bits) index value =
            file.writeElement register width index value := by
  refine ⟨VRegFile.laid.consistent, RegisterBytes.laid.consistent, ?_, ?_⟩
  · intro writes view
    have same := RegisterBytes.laid.bit_writeAll_eq VRegFile.laid
      RegisterBytes.bit_zeroed writes
    exact RegisterBytes.laid.read_eq VRegFile.laid same view
  · intro file register width index
    rw [ElementLayout.ofBits_bits]
    exact ⟨VRegFile.readStrided_packed file register width index,
      VRegFile.writeStrided_packed file register width index⟩

-- Element 9 of a group is the upper half of a word in the next register.
example : (RegisterBytes.zeroed.writeElement 4 .e16 9 0x1beef).2.readWord 5 0 =
    0xbeef0000 := by
  decide

end VectorBench
