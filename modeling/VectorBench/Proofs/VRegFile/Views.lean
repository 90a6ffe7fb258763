import VectorBench.Proofs.Datapath.Lanes
import VectorBench.Proofs.VRegFile.Bits

/-!
# Views of the vector registers

Words, whole registers, elements and mask bits are four ways to look at the
same bits.  Where each of them reads and writes its own run of bits, what is
written through one is seen through all, and nothing else changes.
-/

namespace VectorBench

/-- A part of the vector registers that is read and written at once. -/
inductive RegisterView where
  | word (register : VReg) (lane : Nat)
  | whole (register : VReg)
  | element (register : VReg) (width : ElementWidth) (index : Nat)
  | maskBit (register : VReg) (index : Nat)

namespace RegisterView

/-- What is read and written through a view. -/
abbrev Value : RegisterView → Type
  | word _ _ => Word
  | whole _ => VectorWords
  | element _ _ _ => Word
  | maskBit _ _ => Bool

/-- Bit `offset` of a value; a register counts its bits from lane 0 on. -/
def bitOf : (view : RegisterView) → view.Value → Nat → Bool
  | word _ _, (value : Word), offset => value.getLsbD offset
  | whole _, (words : VectorWords), offset =>
      (words[offset / 32]?.getD 0).getLsbD (offset % 32)
  | element _ _ _, (value : Word), offset => value.getLsbD offset
  | maskBit _ _, value, offset => decide (offset = 0) && value

/-- The place of the first bit of a view. -/
def start : RegisterView → Nat
  | word register lane => 128 * register.toNat + 32 * (lane % 4)
  | whole register => 128 * register.toNat
  | element register width index => VRegFile.elementPlace register width index
  | maskBit register index => 128 * register.toNat + index % 128

/-- The number of bits of a view. -/
def size : RegisterView → Nat
  | word _ _ => 32
  | whole _ => 128
  | element _ width _ => width.bits
  | maskBit _ _ => 1

/-- A view has a bit at a place. -/
def Covers (view : RegisterView) (place : Nat) : Prop :=
  view.start ≤ place ∧ place < view.start + view.size

instance (view : RegisterView) (place : Nat) : Decidable (view.Covers place) :=
  inferInstanceAs (Decidable (_ ∧ _))

/-- A view lies inside the registers.  Only an element can lie past them. -/
def Inside (view : RegisterView) : Prop :=
  view.start < 4096

theorem inside_word (register : VReg) (lane : Nat) :
    (word register lane).Inside := by
  have below := register.isLt
  simp only [Inside, start]
  omega

theorem inside_whole (register : VReg) : (whole register).Inside := by
  have below := register.isLt
  simp only [Inside, start]
  omega

theorem inside_maskBit (register : VReg) (index : Nat) :
    (maskBit register index).Inside := by
  have below := register.isLt
  simp only [Inside, start]
  omega

theorem exists_eq_element (view : RegisterView) (outside : ¬ view.Inside) :
    ∃ register width index, view = element register width index := by
  cases view with
  | word register lane => exact (outside (inside_word register lane)).elim
  | whole register => exact (outside (inside_whole register)).elim
  | element register width index => exact ⟨register, width, index, rfl⟩
  | maskBit register index =>
      exact (outside (inside_maskBit register index)).elim

theorem bitOf_injective {view : RegisterView} {left right : view.Value}
    (same : ∀ offset, view.bitOf left offset = view.bitOf right offset) :
    left = right := by
  cases view with
  | word register lane =>
      exact BitVec.eq_of_getLsbD_eq fun offset _ => same offset
  | whole register =>
      apply Vector.ext
      intro lane inside
      apply BitVec.eq_of_getLsbD_eq
      intro offset below
      have bits := same (32 * lane + offset)
      simp only [bitOf] at bits
      rwa [show (32 * lane + offset) / 32 = lane by omega,
        show (32 * lane + offset) % 32 = offset by omega,
        Vector.getElem?_eq_getElem inside,
        Vector.getElem?_eq_getElem inside] at bits
  | element register width index =>
      exact BitVec.eq_of_getLsbD_eq fun offset _ => same offset
  | maskBit register index =>
      have first := same 0
      simpa only [bitOf, decide_true, Bool.true_and] using first

end RegisterView

/-- The operations on a store of the vector registers. -/
structure RegisterStore (σ : Type) where
  readWord : σ → VReg → Nat → Word
  readRegister : σ → VReg → VectorWords
  readElement : σ → VReg → ElementWidth → Nat → Except Fault Word
  readMaskBit : σ → VReg → Nat → Bool
  writeWord : σ → VReg → Nat → Word → σ
  writeRegister : σ → VReg → VectorWords → σ
  writeElement :
    σ → VReg → ElementWidth → Nat → Word → Except Fault Unit × σ
  writeMaskBit : σ → VReg → Nat → Bool → σ

namespace RegisterStore

variable {σ τ : Type} {store : RegisterStore σ} {other : RegisterStore τ}
  {bit : σ → Nat → Bool} {otherBit : τ → Nat → Bool}

def read (store : RegisterStore σ) (state : σ) :
    (view : RegisterView) → Except Fault view.Value
  | .word register lane => .ok (store.readWord state register lane)
  | .whole register => .ok (store.readRegister state register)
  | .element register width index =>
      store.readElement state register width index
  | .maskBit register index => .ok (store.readMaskBit state register index)

def write (store : RegisterStore σ) (state : σ) :
    (view : RegisterView) → view.Value → Except Fault Unit × σ
  | .word register lane, value =>
      (.ok (), store.writeWord state register lane value)
  | .whole register, words =>
      (.ok (), store.writeRegister state register words)
  | .element register width index, value =>
      store.writeElement state register width index value
  | .maskBit register index, value =>
      (.ok (), store.writeMaskBit state register index value)

/-- What a row of writes leaves, those that are refused included. -/
def writeAll (store : RegisterStore σ) (state : σ)
    (writes : List (Σ view : RegisterView, view.Value)) : σ :=
  writes.foldl (fun state write => (store.write state write.1 write.2).2) state

/-- The bits of a state after a run of them is replaced. -/
def replaced (view : RegisterView) (value : view.Value)
    (before : Nat → Bool) (place : Nat) : Bool :=
  if view.Covers place then view.bitOf value (place - view.start)
  else before place

theorem replaced_of_covers {view : RegisterView} {value : view.Value}
    {before : Nat → Bool} {place : Nat} (covers : view.Covers place) :
    replaced view value before place =
      view.bitOf value (place - view.start) :=
  if_pos covers

theorem replaced_of_not_covers {view : RegisterView} {value : view.Value}
    {before : Nat → Bool} {place : Nat} (apart : ¬ view.Covers place) :
    replaced view value before place = before place :=
  if_neg apart

/-- The bits of a view make a value, with none above them. -/
def ShowsBits (bits : Nat → Bool) (view : RegisterView) (value : view.Value) :
    Prop :=
  (∀ offset < view.size, view.bitOf value offset = bits (view.start + offset)) ∧
    ∀ offset, view.size ≤ offset → view.bitOf value offset = false

/-- The bits of a store stand in one row, and every view is a run of them. -/
structure Laid (store : RegisterStore σ) (bit : σ → Nat → Bool) : Prop where
  read : ∀ state (view : RegisterView), view.Inside →
    ∃ value, store.read state view = .ok value ∧ ShowsBits (bit state) view value
  write : ∀ state (view : RegisterView) (value : view.Value), view.Inside →
    ∃ after, store.write state view value = (.ok (), after) ∧
      bit after = replaced view value (bit state)
  readOutside : ∀ state (view : RegisterView), ¬ view.Inside →
    store.read state view = .error .illegalRegister
  writeOutside : ∀ state (view : RegisterView) (value : view.Value),
    ¬ view.Inside →
      store.write state view value = (.error .illegalRegister, state)

/-- A register is read word by word. -/
theorem shows_whole {bits : Nat → Bool} {register : VReg} {words : VectorWords}
    (each : ∀ lane (inside : lane < 4),
      ShowsBits bits (.word register lane) words[lane]) :
    ShowsBits bits (.whole register) words := by
  constructor
  · intro offset within
    have lane : offset / 32 < 4 := by
      simp only [RegisterView.size] at within
      omega
    have bits := (each _ lane).1 (offset % 32) (Nat.mod_lt _ (by decide))
    simp only [RegisterView.bitOf, RegisterView.start,
      Vector.getElem?_eq_getElem lane, Option.getD_some] at bits ⊢
    rw [bits]
    congr 1
    omega
  · intro offset beyond
    have none : ¬ offset / 32 < 4 := by
      simp only [RegisterView.size] at beyond
      omega
    simp only [RegisterView.bitOf,
      Vector.getElem?_eq_none (Nat.le_of_not_lt none)]
    simp

/-- A bit of a register is a bit of the word at its place. -/
theorem bitOf_whole {register : VReg} {lane : Fin 4} {place : Nat}
    (words : VectorWords)
    (covers : (RegisterView.word register lane).Covers place) :
    (RegisterView.whole register).bitOf words
        (place - (RegisterView.whole register).start) =
      (RegisterView.word register lane).bitOf (words.get lane)
        (place - (RegisterView.word register lane).start) := by
  simp only [RegisterView.Covers, RegisterView.start, RegisterView.size] at covers
  simp only [RegisterView.bitOf, RegisterView.start]
  rw [show (place - 128 * register.toNat) / 32 = lane by omega,
    show (place - 128 * register.toNat) % 32 =
      place - (128 * register.toNat + 32 * (lane % 4)) by omega,
    Vector.getElem?_eq_getElem lane.isLt, Option.getD_some]
  rfl

theorem covers_whole_iff {register : VReg} {place : Nat} :
    (RegisterView.whole register).Covers place ↔
      ∃ lane : Fin 4, (RegisterView.word register lane).Covers place := by
  simp only [RegisterView.Covers, RegisterView.start, RegisterView.size]
  constructor
  · intro within
    have inside : place / 32 - 4 * register.toNat < 4 := by omega
    refine ⟨⟨_, inside⟩, ?_⟩
    simp only
    omega
  · rintro ⟨lane, covers⟩
    omega

theorem foldl_replaced_of_not_covers {register : VReg} {place : Nat}
    (words : VectorWords) (lanes : List (Fin 4)) (before : Nat → Bool)
    (apart : ∀ lane ∈ lanes, ¬ (RegisterView.word register lane).Covers place) :
    lanes.foldl
        (fun bits (lane : Fin 4) =>
          replaced (.word register lane) (words.get lane) bits) before place =
      before place := by
  induction lanes generalizing before with
  | nil => rfl
  | cons lane lanes ih =>
      have later : ∀ lane ∈ lanes,
          ¬ (RegisterView.word register lane).Covers place :=
        fun other member => apart other (List.mem_cons_of_mem _ member)
      rw [List.foldl_cons, ih _ later,
        replaced_of_not_covers (apart lane List.mem_cons_self)]

theorem foldl_replaced_of_covers {register : VReg} {place : Nat}
    (words : VectorWords) (lanes : List (Fin 4)) (before : Nat → Bool)
    (covers : ∃ lane ∈ lanes, (RegisterView.word register lane).Covers place) :
    lanes.foldl
        (fun bits (lane : Fin 4) =>
          replaced (.word register lane) (words.get lane) bits) before place =
      (RegisterView.whole register).bitOf words
        (place - (RegisterView.whole register).start) := by
  induction lanes generalizing before with
  | nil =>
      obtain ⟨lane, member, -⟩ := covers
      exact (List.not_mem_nil member).elim
  | cons lane lanes ih =>
      rw [List.foldl_cons]
      by_cases later :
          ∃ lane ∈ lanes, (RegisterView.word register lane).Covers place
      · exact ih _ later
      · -- The word that is written here is the last one at the place.
        have here : (RegisterView.word register lane).Covers place := by
          obtain ⟨other, member, covers⟩ := covers
          rcases List.mem_cons.mp member with rfl | member
          · exact covers
          · exact (later ⟨other, member, covers⟩).elim
        have apart : ∀ lane ∈ lanes,
            ¬ (RegisterView.word register lane).Covers place :=
          fun other member covers => later ⟨other, member, covers⟩
        rw [foldl_replaced_of_not_covers words lanes _ apart,
          replaced_of_covers here, bitOf_whole words here]

/-- A register is written word by word. -/
theorem bit_writeWords {writeWord : σ → VReg → Nat → Word → σ}
    (writes : ∀ state register lane value,
      bit (writeWord state register lane value) =
        replaced (.word register lane) value (bit state))
    (state : σ) (register : VReg) (words : VectorWords) :
    bit ((List.finRange 4).foldl
        (fun state (lane : Fin 4) =>
          writeWord state register lane (words.get lane)) state) =
      replaced (.whole register) words (bit state) := by
  have bits : (List.finRange 4).foldl
        (fun bits (lane : Fin 4) =>
          replaced (.word register lane) (words.get lane) bits) (bit state) =
      bit ((List.finRange 4).foldl
        (fun state (lane : Fin 4) =>
          writeWord state register lane (words.get lane)) state) :=
    List.foldl_hom bit
      fun state lane => (writes state register lane (words.get lane)).symm
  rw [← bits]
  funext place
  by_cases within : (RegisterView.whole register).Covers place
  · obtain ⟨lane, covers⟩ := covers_whole_iff.mp within
    rw [replaced_of_covers within, foldl_replaced_of_covers]
    exact ⟨lane, List.mem_finRange lane, covers⟩
  · rw [replaced_of_not_covers within, foldl_replaced_of_not_covers]
    intro lane _ covers
    exact within (covers_whole_iff.mpr ⟨lane, covers⟩)

theorem shows_maskBit {bits : Nat → Bool} {register : VReg} {index : Nat}
    {value : Bool} (same : value = bits (128 * register.toNat + index % 128)) :
    ShowsBits bits (.maskBit register index) value := by
  constructor
  · intro offset within
    obtain rfl : offset = 0 := Nat.lt_one_iff.mp within
    exact same
  · intro offset beyond
    have positive : offset ≠ 0 := Nat.one_le_iff_ne_zero.mp beyond
    simp only [RegisterView.bitOf, positive, decide_false, Bool.false_and]

theorem replaced_maskBit {before after : Nat → Bool} {register : VReg}
    {index : Nat} {value : Bool}
    (bits : ∀ place, after place =
      if place = 128 * register.toNat + index % 128 then value
      else before place) :
    after = replaced (.maskBit register index) value before := by
  funext place
  have covers : (RegisterView.maskBit register index).Covers place ↔
      place = 128 * register.toNat + index % 128 := by
    simp only [RegisterView.Covers, RegisterView.start, RegisterView.size]
    omega
  rw [bits]
  by_cases here : place = 128 * register.toNat + index % 128
  · rw [if_pos here, replaced_of_covers (covers.mpr here), here]
    simp [RegisterView.bitOf, RegisterView.start]
  · rw [if_neg here, replaced_of_not_covers (mt covers.mp here)]

/-- The register in which an element of a group lies. -/
def elementRegister (register : VReg) (width : ElementWidth) (index : Nat) :
    Nat :=
  register.toNat + index / (128 / width.bits)

/-- The number of an element in the register in which it lies. -/
def elementNumber (width : ElementWidth) (index : Nat) : Nat :=
  index % (128 / width.bits)

/-- The views of a store agree.  Elements and mask bits are found in the words,
counted from the low end of each, and a write through any view is seen through
every other one where the two overlap and nowhere else. -/
structure Consistent (store : RegisterStore σ) : Prop where
  register : ∀ state register lane,
    (store.readRegister state register).get
        ⟨lane % 4, Nat.mod_lt _ (by decide)⟩ =
      store.readWord state register lane
  element : ∀ state register width index (target : VReg),
    target.toNat = elementRegister register width index →
      store.readElement state register width index =
        .ok ((width.lane
          (store.readWord state target
            (elementNumber width index / width.lanes))
          (elementNumber width index % width.lanes)).setWidth 32)
  illegal : ∀ state register width index,
    store.readElement state register width index = .error .illegalRegister ↔
      32 ≤ elementRegister register width index
  maskBit : ∀ state register index,
    store.readMaskBit state register index =
      (store.readWord state register (index % 128 / 32)).getLsbD
        (index % 128 % 32)
  written : ∀ state (written view : RegisterView) (value : written.Value),
    written.Inside → view.Inside →
    ∃ after old new,
      store.write state written value = (.ok (), after) ∧
      store.read state view = .ok old ∧ store.read after view = .ok new ∧
      ∀ offset < view.size, view.bitOf new offset =
        if written.Covers (view.start + offset) then
          written.bitOf value (view.start + offset - written.start)
        else view.bitOf old offset
  refused : ∀ state register width index value,
    32 ≤ elementRegister register width index →
      store.writeElement state register width index value =
        (.error .illegalRegister, state)

theorem inside_element_iff {register : VReg} {width : ElementWidth}
    {index : Nat} :
    (RegisterView.element register width index).Inside ↔
      elementRegister register width index < 32 := by
  simp only [RegisterView.Inside, RegisterView.start, VRegFile.elementPlace,
    elementRegister]
  cases width <;> simp only [ElementWidth.bits] <;> omega

/-- The place of an element, by the lane of its word. -/
theorem start_element {register target : VReg} {width : ElementWidth}
    {index : Nat}
    (located : target.toNat = elementRegister register width index) :
    (RegisterView.element register width index).start =
      (RegisterView.word target (elementNumber width index / width.lanes)).start +
        elementNumber width index % width.lanes * width.bits := by
  simp only [RegisterView.start, VRegFile.elementPlace, located,
    elementRegister, elementNumber]
  cases width <;> simp only [ElementWidth.bits, ElementWidth.lanes] <;> omega

namespace Laid

theorem shows (laid : store.Laid bit) {state : σ} {view : RegisterView}
    {value : view.Value} (inside : view.Inside)
    (found : store.read state view = .ok value) :
    ShowsBits (bit state) view value := by
  obtain ⟨read, same, shows⟩ := laid.read state view inside
  obtain rfl := Except.ok.inj (same.symm.trans found)
  exact shows

theorem getLsbD_readWord (laid : store.Laid bit) (state : σ) (register : VReg)
    (lane : Nat) {offset : Nat} (inside : offset < 32) :
    (store.readWord state register lane).getLsbD offset =
      bit state ((RegisterView.word register lane).start + offset) :=
  (laid.shows (RegisterView.inside_word register lane) rfl).1 offset inside

theorem readMaskBit_eq (laid : store.Laid bit) (state : σ) (register : VReg)
    (index : Nat) :
    store.readMaskBit state register index =
      bit state (RegisterView.maskBit register index).start :=
  (laid.shows (RegisterView.inside_maskBit register index) rfl).1 0
    Nat.one_pos

theorem readRegister_eq (laid : store.Laid bit) (state : σ) (register : VReg)
    {lane : Nat} (inside : lane < 4) :
    (store.readRegister state register)[lane] =
      store.readWord state register lane := by
  have shows : ShowsBits (bit state) (.whole register)
      (store.readRegister state register) :=
    laid.shows (RegisterView.inside_whole register) rfl
  apply BitVec.eq_of_getLsbD_eq
  intro offset below
  have within : 32 * lane + offset < (RegisterView.whole register).size := by
    simp only [RegisterView.size]
    omega
  have bits := shows.1 _ within
  simp only [RegisterView.bitOf, RegisterView.start] at bits
  rw [show (32 * lane + offset) / 32 = lane by omega,
    show (32 * lane + offset) % 32 = offset by omega,
    Vector.getElem?_eq_getElem inside, Option.getD_some] at bits
  rw [bits, laid.getLsbD_readWord state register lane below]
  simp only [RegisterView.start, Nat.mod_eq_of_lt inside, Nat.add_assoc]

theorem readElement_eq (laid : store.Laid bit) (state : σ)
    {register target : VReg} {width : ElementWidth} {index : Nat}
    (located : target.toNat = elementRegister register width index) :
    store.readElement state register width index =
      .ok ((width.lane
        (store.readWord state target
          (elementNumber width index / width.lanes))
        (elementNumber width index % width.lanes)).setWidth 32) := by
  have inside : (RegisterView.element register width index).Inside := by
    rw [inside_element_iff, ← located]
    exact target.isLt
  obtain ⟨value, found, lower, upper⟩ := laid.read state _ inside
  have lanes : elementNumber width index % width.lanes < width.lanes := by
    apply Nat.mod_lt
    cases width <;> decide
  have fits := ElementWidth.add_bits_le lanes
  refine found.trans (congrArg Except.ok ?_)
  apply BitVec.eq_of_getLsbD_eq
  intro offset below
  rw [BitVec.getLsbD_setWidth, decide_eq_true below, Bool.true_and]
  by_cases within : offset < width.bits
  · rw [ElementWidth.getLsbD_lane _ within,
      laid.getLsbD_readWord state target _ (by omega), ← Nat.add_assoc,
      ← start_element located]
    exact lower offset within
  · rw [BitVec.getLsbD_of_ge _ _ (Nat.le_of_not_lt within)]
    exact upper offset (Nat.le_of_not_lt within)

/-- Views that are runs of one row agree. -/
theorem consistent (laid : store.Laid bit) : store.Consistent where
  register state register lane := by
    have wrapped : store.readWord state register (lane % 4) =
        store.readWord state register lane := by
      apply BitVec.eq_of_getLsbD_eq
      intro offset below
      rw [laid.getLsbD_readWord state register _ below,
        laid.getLsbD_readWord state register _ below]
      simp only [RegisterView.start, Nat.mod_mod]
    exact (laid.readRegister_eq state register _).trans wrapped
  element state register width index target located :=
    laid.readElement_eq state located
  illegal state register width index := by
    rw [← Nat.not_lt, ← inside_element_iff]
    constructor
    · intro refused inside
      obtain ⟨value, found, -⟩ := laid.read state _ inside
      cases found.symm.trans refused
    · intro outside
      exact laid.readOutside state _ outside
  maskBit state register index := by
    have inside : index % 128 % 32 < 32 := Nat.mod_lt _ (by decide)
    rw [laid.readMaskBit_eq, laid.getLsbD_readWord state register _ inside]
    simp only [RegisterView.start]
    congr 1
    omega
  written state written view value inside inView := by
    obtain ⟨after, wrote, bitsAfter⟩ := laid.write state written value inside
    obtain ⟨old, foundOld, showsOld⟩ := laid.read state view inView
    obtain ⟨new, foundNew, showsNew⟩ := laid.read after view inView
    refine ⟨after, old, new, wrote, foundOld, foundNew, ?_⟩
    intro offset within
    rw [showsNew.1 offset within, showsOld.1 offset within, bitsAfter]
    rfl
  refused state register width index value beyond := by
    have outside := mt inside_element_iff.mp (Nat.not_lt.mpr beyond)
    exact laid.writeOutside state (.element register width index) value outside

variable {state : σ} {otherState : τ}

/-- Stores with the same bits are read alike. -/
theorem read_eq (laid : store.Laid bit) (otherLaid : other.Laid otherBit)
    (same : bit state = otherBit otherState) (view : RegisterView) :
    store.read state view = other.read otherState view := by
  by_cases inside : view.Inside
  · obtain ⟨value, found, shows⟩ := laid.read state view inside
    obtain ⟨value', found', shows'⟩ := otherLaid.read otherState view inside
    rw [found, found', Except.ok.injEq]
    apply RegisterView.bitOf_injective
    intro offset
    by_cases within : offset < view.size
    · rw [shows.1 offset within, shows'.1 offset within, same]
    · rw [shows.2 offset (Nat.le_of_not_lt within),
        shows'.2 offset (Nat.le_of_not_lt within)]
  · rw [laid.readOutside state view inside,
      otherLaid.readOutside otherState view inside]

/-- Stores with the same bits stay the same in one write. -/
theorem bit_write_eq (laid : store.Laid bit) (otherLaid : other.Laid otherBit)
    (same : bit state = otherBit otherState) (view : RegisterView)
    (value : view.Value) :
    bit (store.write state view value).2 =
      otherBit (other.write otherState view value).2 := by
  by_cases inside : view.Inside
  · obtain ⟨after, wrote, bits⟩ := laid.write state view value inside
    obtain ⟨after', wrote', bits'⟩ :=
      otherLaid.write otherState view value inside
    rw [wrote, wrote', bits, bits', same]
  · rw [laid.writeOutside state view value inside,
      otherLaid.writeOutside otherState view value inside]
    exact same

/-- Stores with the same bits stay the same in a row of writes. -/
theorem bit_writeAll_eq (laid : store.Laid bit)
    (otherLaid : other.Laid otherBit)
    (same : bit state = otherBit otherState)
    (writes : List (Σ view : RegisterView, view.Value)) :
    bit (store.writeAll state writes) =
      otherBit (other.writeAll otherState writes) := by
  induction writes generalizing state otherState with
  | nil => exact same
  | cons write writes ih =>
      exact ih (laid.bit_write_eq otherLaid same write.1 write.2)

end Laid

end RegisterStore

namespace VRegFile

def store : RegisterStore VRegFile where
  readWord := readWord
  readRegister := readRegister
  readElement := readElement
  readMaskBit := readMaskBit
  writeWord := writeWord
  writeRegister := writeRegister
  writeElement := writeElement
  writeMaskBit := writeMaskBit

open RegisterStore

theorem shows_readWord (file : VRegFile) (register : VReg) (lane : Nat) :
    ShowsBits file.bit (.word register lane) (file.readWord register lane) := by
  constructor
  · intro offset within
    refine (getLsbD_readWord file register lane within).trans ?_
    simp only [RegisterView.start, place]
    congr 1
    omega
  · intro offset beyond
    exact BitVec.getLsbD_of_ge _ _ beyond

theorem bit_writeWord_eq (file : VRegFile) (register : VReg) (lane : Nat)
    (value : Word) :
    (file.writeWord register lane value).bit =
      replaced (.word register lane) value file.bit :=
  funext (bit_writeWord file register lane value)

theorem laid : store.Laid bit where
  read file view inside := by
    cases view with
    | word register lane => exact ⟨_, rfl, shows_readWord file register lane⟩
    | whole register =>
        refine ⟨file.readRegister register, rfl, shows_whole ?_⟩
        intro lane inside
        rw [getElem_readRegister]
        exact shows_readWord file register lane
    | element register width index =>
        have bounded := width.bits_le
        refine ⟨_, readElement_eq inside, ?_, ?_⟩
        · intro offset within
          have below : offset < 32 := Nat.lt_of_lt_of_le within bounded
          have lower : (file.element register width index).getLsbD offset =
              file.bit (elementPlace register width index + offset) :=
            getLsbD_element inside within
          simp only [RegisterView.bitOf, BitVec.getLsbD_setWidth, below,
            decide_true, Bool.true_and, lower]
          rfl
        · intro offset beyond
          have upper : (file.element register width index).getLsbD offset =
              false := BitVec.getLsbD_of_ge _ _ beyond
          simp only [RegisterView.bitOf, BitVec.getLsbD_setWidth, upper,
            Bool.and_false]
    | maskBit register index =>
        exact ⟨_, rfl, shows_maskBit (readMaskBit_eq_bit file register index)⟩
  write file view value inside := by
    cases view with
    | word register lane =>
        exact ⟨_, rfl, bit_writeWord_eq file register lane value⟩
    | whole register =>
        refine ⟨_, rfl, ?_⟩
        exact bit_writeWords bit_writeWord_eq file register value
    | element register width index =>
        obtain ⟨after, wrote, bits⟩ := bit_writeElement file inside value
        exact ⟨after, wrote, funext bits⟩
    | maskBit register index =>
        exact ⟨_, rfl,
          replaced_maskBit (bit_writeMaskBit file register index value)⟩
  readOutside file view outside := by
    obtain ⟨register, width, index, rfl⟩ := view.exists_eq_element outside
    exact readElement_outside outside
  writeOutside file view value outside := by
    obtain ⟨register, width, index, rfl⟩ := view.exists_eq_element outside
    exact writeElement_outside file outside value

end VRegFile

end VectorBench
