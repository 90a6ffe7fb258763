import VectorBench.Proofs.Text.Bytes
import VectorBench.Proofs.Text.Numeral

/-!
# Reading numerals by bytes

A text can be cut between two characters only, and a byte can be looked at only
where there is one.  A reader that goes by the bytes in front of a text, and
cuts at numbers of bytes, always finds what it looks for, and it reads the same
number as the reader that goes by characters.
-/

namespace VectorBench

/-- What stands behind a number of bytes of a text.  A cut inside a character,
or behind the end of the text, leaves nothing to speak of. -/
def behindBytes? : (count : Nat) → List Char → Option (List Char)
  | 0, text => some text
  | _ + 1, [] => none
  | count + 1, character :: text =>
      let size := (String.utf8EncodeChar character).length
      if size ≤ count + 1 then behindBytes? (count + 1 - size) text else none

theorem behindBytes?_cons (character : Char) (later : Nat)
    (text : List Char) :
    behindBytes? ((String.utf8EncodeChar character).length + later)
        (character :: text) = behindBytes? later text := by
  have positive : 0 < (String.utf8EncodeChar character).length :=
    List.length_pos_iff.mpr String.utf8EncodeChar_ne_nil
  obtain ⟨count, total⟩ :=
    Nat.exists_eq_add_of_lt (Nat.add_pos_left positive later)
  rw [Nat.zero_add] at total
  rw [total]
  simp only [behindBytes?]
  rw [← total, if_pos (Nat.le_add_right _ later), Nat.add_sub_cancel_left]

theorem behindBytes?_append (front rest : List Char) :
    behindBytes? (charBytes front).length (front ++ rest) = some rest := by
  induction front with
  | nil =>
      cases rest with
      | nil => rfl
      | cons character rest => rfl
  | cons character front ih =>
      rw [charBytes_cons, List.length_append, List.cons_append,
        behindBytes?_cons, ih]

theorem exists_append_of_behindBytes? {count : Nat} {text rest : List Char}
    (found : behindBytes? count text = some rest) :
    ∃ front, text = front ++ rest ∧ (charBytes front).length = count := by
  induction text generalizing count with
  | nil =>
      cases count with
      | zero => exact ⟨[], Option.some.inj found, rfl⟩
      | succ count => nomatch found
  | cons character text ih =>
      cases count with
      | zero => exact ⟨[], Option.some.inj found, rfl⟩
      | succ count =>
          simp only [behindBytes?] at found
          split at found
          case isTrue fits =>
            obtain ⟨front, rfl, length⟩ := ih found
            refine ⟨character :: front, rfl, ?_⟩
            rw [charBytes_cons, List.length_append, length]
            exact Nat.add_sub_of_le fits
          case isFalse => nomatch found

/-- Cuts are made between characters. -/
theorem behindBytes?_eq_some_iff {count : Nat} {text rest : List Char} :
    behindBytes? count text = some rest ↔
      ∃ front, text = front ++ rest ∧ (charBytes front).length = count := by
  constructor
  · exact exists_append_of_behindBytes?
  · rintro ⟨front, rfl, rfl⟩
    exact behindBytes?_append front rest

namespace Numeral

variable {base : Nat} {text : List Char}

/-- Takes a sign off a text by its first byte. -/
def signSlice? (text : List Char) : Option (Bool × List Char) :=
  if (charBytes text).head? = some 0x2d then
    (behindBytes? 1 text).map fun unsigned => (true, unsigned)
  else if (charBytes text).head? = some 0x2b then
    (behindBytes? 1 text).map fun unsigned => (false, unsigned)
  else some (false, text)

/-- Whether a byte is a hexadecimal digit. -/
def isHexByte (byte : UInt8) : Bool :=
  (0x30 ≤ byte && byte ≤ 0x39) || (0x41 ≤ byte && byte ≤ 0x46) ||
    (0x61 ≤ byte && byte ≤ 0x66)

/-- Whether bytes start with `0x` in either case and a hexadecimal digit.
Looking at a byte that is not there has no outcome. -/
def hexMarkedBytes? (bytes : List UInt8) : Option Bool :=
  if 2 < bytes.length then do
    let zero ← bytes[0]?
    let mark ← bytes[1]?
    let digit ← bytes[2]?
    return zero = 0x30 && mark ||| 0x20 = 0x78 && isHexByte digit
  else some false

/-- The base that a text selects by its first bytes, and the digits in it. -/
def baseSlice? (text : List Char) : Option (Nat × List Char) := do
  let marked ← hexMarkedBytes? (charBytes text)
  if marked then (behindBytes? 2 text).map fun digits => (16, digits)
  else if (charBytes text).head? = some 0x30 then some (8, text)
  else some (10, text)

/-- Reads a numeral by the bytes in front of it. -/
def readSlices? (text : List Char) : Option Word := do
  let (negative, unsigned) ← signSlice? (text.dropWhile isBlank)
  let (base, digits) ← baseSlice? unsigned
  let value := BitVec.ofNat 32 (magnitude base 0 digits)
  return if negative then -value else value

theorem Signed.signSlice?_eq {negative : Bool} {unsigned : List Char}
    (signed : Signed text negative unsigned) :
    signSlice? text = some (negative, unsigned) := by
  have minus : (charBytes text).head? = some 0x2d ↔ text.head? = some '-' :=
    head?_charBytes_iff (by decide)
  have plus : (charBytes text).head? = some 0x2b ↔ text.head? = some '+' :=
    head?_charBytes_iff (by decide)
  unfold signSlice?
  rw [if_congr minus rfl rfl, if_congr plus rfl rfl]
  cases signed with
  | minus rest =>
      have cut : behindBytes? 1 ('-' :: unsigned) = some unsigned :=
        behindBytes?_eq_some_iff.mpr ⟨['-'], rfl, rfl⟩
      rw [if_pos List.head?_cons, cut]
      rfl
  | plus rest =>
      have cut : behindBytes? 1 ('+' :: unsigned) = some unsigned :=
        behindBytes?_eq_some_iff.mpr ⟨['+'], rfl, rfl⟩
      rw [if_neg (by simp), if_pos List.head?_cons, cut]
      rfl
  | unmarked noMinus noPlus => rw [if_neg noMinus, if_neg noPlus]

theorem marked_iff (mark : UInt8) :
    mark ||| 0x20 = 0x78 ↔ mark = 0x78 ∨ mark = 0x58 := by
  have table : ∀ code < 256, UInt8.ofNat code ||| 0x20 = 0x78 ↔
      UInt8.ofNat code = 0x78 ∨ UInt8.ofNat code = 0x58 := by
    decide +kernel
  simpa using table mark.toNat mark.toNat_lt

theorem isHexByte_ofNat {code : Nat} (ascii : code < 128) :
    isHexByte (UInt8.ofNat code) = isDigit 16 (Char.ofNat code) := by
  revert code
  decide +kernel

theorem toNat_lt_of_isHexByte {byte : UInt8} (digit : isHexByte byte = true) :
    byte.toNat < 128 := by
  simp only [isHexByte, Bool.or_eq_true, Bool.and_eq_true, decide_eq_true_eq,
    UInt8.le_iff_toNat_le] at digit
  have nine : (0x39 : UInt8).toNat = 57 := rfl
  have upper : (0x46 : UInt8).toNat = 70 := rfl
  have lower : (0x66 : UInt8).toNat = 102 := rfl
  omega

theorem DigitOf.toNat_lt {character : Char} {value : Nat}
    (digit : DigitOf 16 character value) : character.toNat < 128 := by
  cases digit with
  | lower small =>
      revert value
      decide
  | upper small =>
      revert value
      decide

theorem HexMarked.exists_bytes {digits : List Char}
    (marked : HexMarked text digits) :
    ∃ mark digit bytes, charBytes text = 0x30 :: mark :: digit :: bytes ∧
      mark ||| 0x20 = 0x78 ∧ isHexByte digit = true := by
  cases marked with
  | @intro mark digit value rest isMark digitOf =>
      have ascii := digitOf.toNat_lt
      have digitByte :
          isHexByte (UInt8.ofNat digit.toNat) = true := by
        rw [isHexByte_ofNat ascii, Char.ofNat_toNat,
          isDigit_iff (Nat.le_refl 16)]
        exact ⟨value, digitOf⟩
      have bytes : charBytes ('0' :: mark :: digit :: rest) =
          0x30 :: UInt8.ofNat mark.toNat :: UInt8.ofNat digit.toNat ::
            charBytes rest := by
        rw [charBytes_cons_of_lt (by decide),
          charBytes_cons_of_lt (by rcases isMark with rfl | rfl <;> decide),
          charBytes_cons_of_lt ascii]
        rfl
      refine ⟨_, _, _, bytes, (marked_iff _).mpr ?_, digitByte⟩
      rcases isMark with rfl | rfl
      · exact .inl rfl
      · exact .inr rfl

theorem exists_hexMarked {mark digit : UInt8} {bytes : List UInt8}
    (starts : charBytes text = 0x30 :: mark :: digit :: bytes)
    (isMark : mark ||| 0x20 = 0x78) (digitByte : isHexByte digit = true) :
    ∃ digits, HexMarked text digits := by
  have ascii := toNat_lt_of_isHexByte digitByte
  rw [marked_iff] at isMark
  obtain ⟨marked, rfl, markStarts⟩ :=
    eq_cons_of_charBytes_eq_cons (by decide) starts
  obtain ⟨digits, rfl, digitStarts⟩ := eq_cons_of_charBytes_eq_cons
    (by rcases isMark with rfl | rfl <;> decide) markStarts.symm
  obtain ⟨rest, rfl, -⟩ :=
    eq_cons_of_charBytes_eq_cons ascii digitStarts.symm
  refine ⟨_, hexMarked_iff.mpr ⟨⟨?_, ?_⟩, rfl⟩⟩
  · rcases isMark with rfl | rfl
    · exact .inl rfl
    · exact .inr rfl
  · rw [← isHexByte_ofNat ascii, UInt8.ofNat_toNat]
    exact digitByte

/-- The bytes in front of a text always tell whether it is marked. -/
theorem hexMarkedBytes?_charBytes (text : List Char) :
    ∃ marked, hexMarkedBytes? (charBytes text) = some marked ∧
      (marked = true ↔ ∃ digits, HexMarked text digits) := by
  unfold hexMarkedBytes?
  split
  case isTrue long =>
    obtain ⟨zero, mark, digit, bytes, starts⟩ :
        ∃ zero mark digit bytes,
          charBytes text = zero :: mark :: digit :: bytes := by
      generalize charBytes text = listed at long ⊢
      rcases listed with _ | ⟨zero, _ | ⟨mark, _ | ⟨digit, bytes⟩⟩⟩
      · simp at long
      · simp at long
      · simp at long
      · exact ⟨zero, mark, digit, bytes, rfl⟩
    rw [starts]
    refine ⟨_, rfl, ?_⟩
    simp only [Bool.and_eq_true, decide_eq_true_eq]
    constructor
    · rintro ⟨⟨rfl, isMark⟩, digitByte⟩
      exact exists_hexMarked starts isMark digitByte
    · rintro ⟨digits, marked⟩
      obtain ⟨_, _, _, same, isMark, digitByte⟩ := marked.exists_bytes
      rw [starts] at same
      simp only [List.cons.injEq] at same
      obtain ⟨rfl, rfl, rfl, -⟩ := same
      exact ⟨⟨rfl, isMark⟩, digitByte⟩
  case isFalse short =>
    refine ⟨false, rfl, ?_⟩
    simp only [Bool.false_eq_true, false_iff]
    rintro ⟨digits, marked⟩
    obtain ⟨_, _, _, bytes, -⟩ := marked.exists_bytes
    apply short
    rw [bytes]
    simp

theorem HexMarked.behindBytes? {digits : List Char}
    (marked : HexMarked text digits) :
    behindBytes? 2 text = some digits := by
  cases marked with
  | @intro mark digit value rest isMark digitOf =>
      refine behindBytes?_eq_some_iff.mpr ⟨['0', mark], rfl, ?_⟩
      rcases isMark with rfl | rfl <;> rfl

theorem Based.baseSlice?_eq {digits : List Char}
    (based : Based text base digits) :
    baseSlice? text = some (base, digits) := by
  obtain ⟨marked, found, marks⟩ := hexMarkedBytes?_charBytes text
  have zero : (charBytes text).head? = some 0x30 ↔ text.head? = some '0' :=
    head?_charBytes_iff (by decide)
  unfold baseSlice?
  rw [found, Option.bind_eq_bind, Option.bind_some, if_congr zero rfl rfl]
  cases based with
  | hexadecimal hexMarked =>
      rw [if_pos (marks.mpr ⟨digits, hexMarked⟩), hexMarked.behindBytes?]
      rfl
  | octal starts unmarked =>
      rw [if_neg (mt marks.mp (not_exists.mpr unmarked)), if_pos starts]
  | decimal starts =>
      have unmarked : ¬ ∃ digits, HexMarked text digits := by
        rintro ⟨digits, hexMarked⟩
        cases hexMarked
        exact starts rfl
      rw [if_neg (mt marks.mp unmarked), if_neg starts]

theorem readSlices?_eq (text : List Char) :
    readSlices? text = some (readChars text) := by
  rw [readSlices?, (signed_splitSign _).signSlice?_eq]
  dsimp only [Option.bind_eq_bind, Option.bind_some]
  rw [(based_splitBase _).baseSlice?_eq]
  rfl

/-- Reading goes by the rules of numerals, clamps what does not fit a word and
never looks for a byte or a place between characters that is not there. -/
theorem read_denoted (text : String) :
    readSlices? text.toList = some (read text) ∧
      ∀ number, (read text).toNat = number ↔ Denotes text.toList number :=
  ⟨readSlices?_eq text.toList, fun _ => denotes_iff.symm⟩

end Numeral

end VectorBench
