import Mathlib.Data.List.TakeWhile
import VectorBench.Console

/-!
# The bytes of a text

A text is stored as the UTF-8 bytes of its characters.  A character below 128
is one byte, its own number, and every other character starts with a byte that
is not.
-/

namespace VectorBench

/-- The bytes of some characters. -/
def charBytes (text : List Char) : List UInt8 :=
  text.flatMap String.utf8EncodeChar

theorem charBytes_cons (character : Char) (text : List Char) :
    charBytes (character :: text) =
      String.utf8EncodeChar character ++ charBytes text :=
  List.flatMap_cons

theorem charBytes_append (front back : List Char) :
    charBytes (front ++ back) = charBytes front ++ charBytes back :=
  List.flatMap_append

/-- Listing the bytes of an array goes on from the bytes already listed. -/
theorem listed_bytes {bytes : ByteArray} {place : Nat} {listed : List UInt8}
    (invariant : listed.reverse = bytes.data.toList.take place) :
    ByteArray.toList.loop bytes place listed = bytes.data.toList := by
  fun_induction ByteArray.toList.loop bytes place listed with
  | case1 place listed inside ih =>
      apply ih
      rw [List.reverse_cons, invariant, List.take_add_one,
        List.getElem?_eq_getElem (by simpa using inside)]
      simp [ByteArray.get!, inside]
  | case2 place listed outside =>
      rw [invariant]
      apply List.take_of_length_le
      simpa using outside

theorem textBytes_eq (text : String) :
    textBytes text = charBytes text.toList := by
  calc
    textBytes text = text.toUTF8.data.toList := listed_bytes rfl
    _ = text.toList.utf8Encode.data.toList := by
      rw [String.utf8Encode_toList, String.toUTF8_eq_toByteArray]
    _ = charBytes text.toList := List.toList_data_toByteArray

theorem textBytes_append (front back : String) :
    textBytes (front ++ back) = textBytes front ++ textBytes back := by
  rw [textBytes_eq, textBytes_eq, textBytes_eq, String.toList_append,
    charBytes_append]

/-! ### ASCII -/

theorem utf8EncodeChar_of_lt {character : Char}
    (ascii : character.toNat < 128) :
    String.utf8EncodeChar character = [UInt8.ofNat character.toNat] :=
  if_pos (Nat.le_of_lt_succ ascii)

theorem le_of_utf8EncodeChar_eq_cons {character : Char} {byte : UInt8}
    {bytes : List UInt8} (longer : 128 ≤ character.toNat)
    (starts : String.utf8EncodeChar character = byte :: bytes) :
    128 ≤ byte.toNat := by
  have notSingle : ¬ character.toNat ≤ 127 := by omega
  unfold String.utf8EncodeChar at starts
  simp only [Char.toNat] at notSingle
  simp only [notSingle, if_false] at starts
  split at starts
  case isTrue =>
    obtain ⟨rfl, -⟩ := List.cons.inj starts
    rw [UInt8.toNat_ofNat']
    omega
  case isFalse =>
    split at starts
    all_goals
      obtain ⟨rfl, -⟩ := List.cons.inj starts
      rw [UInt8.toNat_ofNat']
      omega

/-- A byte below 128 at the front of a text is a character of its own. -/
theorem eq_cons_of_charBytes_eq_cons {text : List Char} {byte : UInt8}
    {bytes : List UInt8} (ascii : byte.toNat < 128)
    (starts : charBytes text = byte :: bytes) :
    ∃ rest, text = Char.ofNat byte.toNat :: rest ∧
      bytes = charBytes rest := by
  cases text with
  | nil => nomatch starts
  | cons character text =>
      rw [charBytes_cons] at starts
      by_cases below : character.toNat < 128
      · rw [utf8EncodeChar_of_lt below, List.singleton_append,
          List.cons.injEq] at starts
        obtain ⟨rfl, rfl⟩ := starts
        refine ⟨text, ?_, rfl⟩
        rw [UInt8.toNat_ofNat', Nat.mod_eq_of_lt (by omega), Char.ofNat_toNat]
      · exfalso
        obtain ⟨first, later, encoded⟩ :=
          List.exists_cons_of_ne_nil (String.utf8EncodeChar_ne_nil (c := character))
        rw [encoded, List.cons_append, List.cons.injEq] at starts
        have high := le_of_utf8EncodeChar_eq_cons (Nat.le_of_not_lt below) encoded
        rw [starts.1] at high
        exact Nat.not_lt_of_le high ascii

theorem charBytes_cons_of_lt {character : Char}
    (ascii : character.toNat < 128) (text : List Char) :
    charBytes (character :: text) =
      UInt8.ofNat character.toNat :: charBytes text := by
  rw [charBytes_cons, utf8EncodeChar_of_lt ascii, List.singleton_append]

theorem toNat_ofNat_of_lt {code : Nat} (ascii : code < 128) :
    (Char.ofNat code).toNat = code := by
  have valid : code.isValidChar := Or.inl (by omega)
  rw [Char.ofNat, dif_pos valid]
  rfl

theorem head?_charBytes_iff {text : List Char} {byte : UInt8}
    (ascii : byte.toNat < 128) :
    (charBytes text).head? = some byte ↔
      text.head? = some (Char.ofNat byte.toNat) := by
  constructor
  · intro first
    obtain ⟨bytes, starts⟩ := List.head?_eq_some_iff.mp first
    obtain ⟨rest, rfl, -⟩ := eq_cons_of_charBytes_eq_cons ascii starts
    rfl
  · intro first
    obtain ⟨rest, rfl⟩ := List.head?_eq_some_iff.mp first
    have code := toNat_ofNat_of_lt ascii
    rw [charBytes_cons_of_lt (by omega), code, UInt8.ofNat_toNat]
    rfl

theorem charBytes_ascii {text : List Char}
    (ascii : ∀ character ∈ text, character.toNat < 128) :
    charBytes text = text.map fun character => UInt8.ofNat character.toNat := by
  induction text with
  | nil => rfl
  | cons character text ih =>
      rw [charBytes_cons_of_lt (ascii character List.mem_cons_self),
        ih fun later member => ascii later (List.mem_cons_of_mem _ member)]
      rfl

/-- The text of ASCII bytes has these bytes. -/
theorem charBytes_map_ofNat {bytes : List UInt8}
    (ascii : ∀ byte ∈ bytes, byte.toNat < 128) :
    charBytes (bytes.map fun byte => Char.ofNat byte.toNat) = bytes := by
  induction bytes with
  | nil => rfl
  | cons byte bytes ih =>
      have code := toNat_ofNat_of_lt (ascii byte List.mem_cons_self)
      have later := ih fun other member =>
        ascii other (List.mem_cons_of_mem _ member)
      rw [List.map_cons,
        charBytes_cons_of_lt (by rw [code]; exact ascii byte List.mem_cons_self),
        code, UInt8.ofNat_toNat, later]

theorem toNat_lt_of_mem_takeWhile {bytes : List UInt8} {byte : UInt8}
    (member : byte ∈ bytes.takeWhile (· < 128)) : byte.toNat < 128 := by
  have small : decide (byte < 128) = true :=
    List.mem_takeWhile_imp (p := fun byte : UInt8 => byte < 128) member
  exact UInt8.lt_iff_toNat_lt.mp (of_decide_eq_true small)

theorem textBytes_asciiText (bytes : List UInt8) :
    textBytes (asciiText bytes) = bytes.takeWhile (· < 128) := by
  rw [textBytes_eq, asciiText, String.toList_ofList]
  exact charBytes_map_ofNat fun _ => toNat_lt_of_mem_takeWhile

theorem asciiText_textBytes {text : String}
    (ascii : ∀ character ∈ text.toList, character.toNat < 128) :
    asciiText (textBytes text) = text := by
  have code : ∀ character ∈ text.toList,
      (UInt8.ofNat character.toNat).toNat = character.toNat := by
    intro character member
    have small := ascii character member
    rw [UInt8.toNat_ofNat', Nat.mod_eq_of_lt (by omega)]
  have bytes := charBytes_ascii ascii
  have small : ∀ byte ∈ charBytes text.toList, decide (byte < 128) = true := by
    rw [bytes]
    intro byte member
    obtain ⟨character, inText, rfl⟩ := List.mem_map.mp member
    rw [decide_eq_true_eq, UInt8.lt_iff_toNat_lt, code character inText]
    exact ascii character inText
  have back : text.toList.map (fun character =>
      Char.ofNat (UInt8.ofNat character.toNat).toNat) = text.toList := by
    calc
      _ = text.toList.map id := by
        apply List.map_congr_left
        intro character member
        rw [code character member, Char.ofNat_toNat, id]
      _ = text.toList := List.map_id _
  rw [asciiText, textBytes_eq, List.takeWhile_eq_self_iff.mpr small, bytes,
    List.map_map]
  exact (congrArg String.ofList back).trans String.ofList_toList

end VectorBench
