import Mathlib.Data.Nat.Digits.Defs
import VectorBench.Text.Numeral

/-!
# What a numeral denotes

`Denotes` gives the number of a text by rules: blanks, a sign, a base that the
text selects, and the longest run of digits of that base.  Reading finds
exactly this number.
-/

namespace VectorBench.Numeral

variable {base : Nat} {text : List Char}

/-- A character is a digit of a base up to sixteen, with its value.  Letters
count in both cases. -/
inductive DigitOf (base : Nat) : Char → Nat → Prop where
  | lower {value : Nat} : value < base → DigitOf base (Nat.digitChar value) value
  | upper {value : Nat} :
      value < base → DigitOf base (Nat.digitChar value).toUpper value

/-- A text takes a sign off: whether it is a minus sign, and what follows. -/
inductive Signed : List Char → Bool → List Char → Prop where
  | minus (text : List Char) : Signed ('-' :: text) true text
  | plus (text : List Char) : Signed ('+' :: text) false text
  | unmarked {text : List Char} :
      text.head? ≠ some '-' → text.head? ≠ some '+' → Signed text false text

/-- A text starts with `0x` and a hexadecimal digit, and its digits start with
that one. -/
inductive HexMarked : List Char → List Char → Prop where
  | intro {mark digit : Char} {value : Nat} {text : List Char} :
      mark = 'x' ∨ mark = 'X' → DigitOf 16 digit value →
      HexMarked ('0' :: mark :: digit :: text) (digit :: text)

/-- The base that a text selects, and where its digits start. -/
inductive Based : List Char → Nat → List Char → Prop where
  | hexadecimal {text digits : List Char} :
      HexMarked text digits → Based text 16 digits
  | octal {text : List Char} :
      text.head? = some '0' → (∀ digits, ¬ HexMarked text digits) →
      Based text 8 text
  | decimal {text : List Char} : text.head? ≠ some '0' → Based text 10 text

/-- The longest run of digits at the front of a text. -/
inductive Leading (base : Nat) : List Char → List Nat → Prop where
  | done {text : List Char} :
      (∀ character value, text.head? = some character →
        ¬ DigitOf base character value) →
      Leading base text []
  | digit {character : Char} {value : Nat} {text : List Char}
      {values : List Nat} :
      DigitOf base character value → Leading base text values →
      Leading base (character :: text) (value :: values)

/-- A magnitude clamped to a word, negated modulo `2 ^ 32` behind a minus
sign. -/
def clamped (negative : Bool) (magnitude : Nat) : Nat :=
  let kept := min (2 ^ 32 - 1) magnitude
  if negative then (2 ^ 32 - kept) % 2 ^ 32 else kept

/-- The number that a text denotes. -/
inductive Denotes : List Char → Nat → Prop where
  | intro {blanks signed unsigned digits : List Char} {negative : Bool}
      {base : Nat} {values : List Nat} :
      (∀ character ∈ blanks, isBlank character = true) →
      (∀ character, signed.head? = some character →
        isBlank character = false) →
      Signed signed negative unsigned →
      Based unsigned base digits →
      Leading base digits values →
      Denotes (blanks ++ signed)
        (clamped negative (Nat.ofDigits base values.reverse))

/-! ### Digits -/

theorem digitValue?_eq_filter (small : base ≤ 16) (character : Char) :
    digitValue? base character =
      (digitValue? 16 character).filter (· < base) := by
  have both : ∀ value : Nat, (value < 16 ∧ value < base) = (value < base) := by
    intro value
    apply propext
    omega
  simp only [digitValue?, Option.filter_filter, ← Bool.decide_and, both]

theorem digitValue?_digitChar {value : Nat} (small : value < 16) :
    digitValue? 16 (Nat.digitChar value) = some value ∧
      digitValue? 16 (Nat.digitChar value).toUpper = some value := by
  revert value
  decide

theorem toNat_digitChar_of_letter {value : Nat} (letter : 10 ≤ value)
    (small : value < 16) :
    (Nat.digitChar value).toNat = value + 87 ∧
      (Nat.digitChar value).toUpper.toNat = value + 55 := by
  revert value
  decide

theorem le_iff_toNat_le {first second : Char} :
    first ≤ second ↔ first.toNat ≤ second.toNat :=
  Char.le_def.trans UInt32.le_iff_toNat_le

theorem eq_digitChar_of_digitValue? {character : Char} {value : Nat}
    (found : digitValue? 16 character = some value) :
    character = Nat.digitChar value ∨
      character = (Nat.digitChar value).toUpper := by
  obtain ⟨read, fits⟩ := Option.filter_eq_some_iff.mp found
  have small : value < 16 := of_decide_eq_true fits
  have zero : '0'.toNat = 48 := rfl
  have nine : '9'.toNat = 57 := rfl
  have a : 'a'.toNat = 97 := rfl
  have upperA : 'A'.toNat = 65 := rfl
  simp only [le_iff_toNat_le, zero, nine, a, upperA] at read
  split at read
  case isTrue decimal =>
    obtain rfl := Option.some.inj read
    left
    apply Char.toNat_inj.mp
    rw [Nat.toNat_digitChar_of_lt_ten (by omega)]
    omega
  case isFalse =>
    split at read
    case isTrue lower =>
      obtain rfl := Option.some.inj read
      left
      apply Char.toNat_inj.mp
      rw [(toNat_digitChar_of_letter (by omega) small).1]
      omega
    case isFalse =>
      split at read
      case isTrue upper =>
        obtain rfl := Option.some.inj read
        right
        apply Char.toNat_inj.mp
        rw [(toNat_digitChar_of_letter (by omega) small).2]
        omega
      case isFalse => nomatch read

theorem digitValue?_eq_some_iff (small : base ≤ 16) {character : Char}
    {value : Nat} :
    digitValue? base character = some value ↔ DigitOf base character value := by
  rw [digitValue?_eq_filter small, Option.filter_eq_some_iff,
    decide_eq_true_eq]
  constructor
  · rintro ⟨found, fits⟩
    rcases eq_digitChar_of_digitValue? found with rfl | rfl
    · exact .lower fits
    · exact .upper fits
  · intro digit
    cases digit with
    | lower fits =>
        exact ⟨(digitValue?_digitChar (by omega)).1, fits⟩
    | upper fits =>
        exact ⟨(digitValue?_digitChar (by omega)).2, fits⟩

theorem isDigit_iff (small : base ≤ 16) {character : Char} :
    isDigit base character = true ↔ ∃ value, DigitOf base character value := by
  simp only [isDigit, Option.isSome_iff_exists, digitValue?_eq_some_iff small]

theorem digitValue?_eq_none_iff (small : base ≤ 16) {character : Char} :
    digitValue? base character = none ↔
      ∀ value, ¬ DigitOf base character value := by
  simp only [Option.eq_none_iff_forall_ne_some, ne_eq,
    digitValue?_eq_some_iff small]

/-! ### Sign and base -/

theorem signed_splitSign (text : List Char) :
    Signed text (splitSign text).1 (splitSign text).2 := by
  unfold splitSign
  split
  case h_1 rest => exact .minus rest
  case h_2 rest => exact .plus rest
  case h_3 noMinus noPlus =>
    apply Signed.unmarked
    · intro minus
      obtain ⟨rest, rfl⟩ := List.head?_eq_some_iff.mp minus
      exact noMinus rest rfl
    · intro plus
      obtain ⟨rest, rfl⟩ := List.head?_eq_some_iff.mp plus
      exact noPlus rest rfl

theorem Signed.splitSign_eq {negative : Bool} {unsigned : List Char}
    (signed : Signed text negative unsigned) :
    splitSign text = (negative, unsigned) := by
  cases signed with
  | minus => rfl
  | plus => rfl
  | unmarked noMinus noPlus =>
      unfold splitSign
      split
      case h_1 => exact absurd rfl noMinus
      case h_2 => exact absurd rfl noPlus
      case h_3 => rfl

theorem hexMarked_iff {mark digit : Char} {digits : List Char} :
    HexMarked ('0' :: mark :: digit :: text) digits ↔
      ((mark = 'x' ∨ mark = 'X') ∧ isDigit 16 digit = true) ∧
        digits = digit :: text := by
  rw [isDigit_iff (Nat.le_refl 16)]
  constructor
  · intro marked
    cases marked with
    | intro mark digit => exact ⟨⟨mark, _, digit⟩, rfl⟩
  · rintro ⟨⟨mark, _, digit⟩, rfl⟩
    exact .intro mark digit

theorem based_splitBase (text : List Char) :
    Based text (splitBase text).1 (splitBase text).2 := by
  unfold splitBase
  split
  case h_1 mark digit rest =>
    split
    case isTrue marked => exact .hexadecimal (hexMarked_iff.mpr ⟨marked, rfl⟩)
    case isFalse unmarked =>
      apply Based.octal rfl
      intro digits marked
      exact unmarked (hexMarked_iff.mp marked).1
  case h_2 rest short =>
    apply Based.octal rfl
    intro digits marked
    cases marked with
    | intro => exact short _ _ _ rfl
  case h_3 long other =>
    apply Based.decimal
    intro zero
    obtain ⟨rest, rfl⟩ := List.head?_eq_some_iff.mp zero
    exact other rest rfl

theorem Based.splitBase_eq {digits : List Char}
    (based : Based text base digits) : splitBase text = (base, digits) := by
  cases based with
  | hexadecimal marked =>
      cases marked with
      | intro mark digit =>
          exact if_pos ⟨mark, (isDigit_iff (Nat.le_refl 16)).mpr ⟨_, digit⟩⟩
  | octal zero unmarked =>
      obtain ⟨rest, rfl⟩ := List.head?_eq_some_iff.mp zero
      rcases rest with _ | ⟨mark, _ | ⟨digit, rest⟩⟩
      · rfl
      · rfl
      · apply if_neg
        intro marked
        exact unmarked _ (hexMarked_iff.mpr ⟨marked, rfl⟩)
  | decimal nonzero =>
      unfold splitBase
      split
      case h_1 => exact absurd rfl nonzero
      case h_2 => exact absurd rfl nonzero
      case h_3 => rfl

theorem Based.bounds {digits : List Char} (based : Based text base digits) :
    1 ≤ base ∧ base ≤ 16 := by
  cases based <;> decide

/-! ### Magnitude -/

/-- Clamping after every digit clamps the number that all digits make. -/
theorem Leading.magnitude_eq {values : List Nat} {start : Nat}
    (leading : Leading base text values) (positive : 1 ≤ base)
    (small : base ≤ 16) :
    magnitude base (min maxWord start) text =
      min maxWord (start * base ^ values.length +
        Nat.ofDigits base values.reverse) := by
  induction leading generalizing start with
  | @done text stops =>
      rw [List.length_nil, Nat.pow_zero, Nat.mul_one, List.reverse_nil,
        Nat.ofDigits_nil, Nat.add_zero]
      cases text with
      | nil => rfl
      | cons character text =>
          have none := (digitValue?_eq_none_iff small).mpr
            fun value => stops character value rfl
          simp only [magnitude, none]
  | @digit character value text values digit _ ih =>
      have found := (digitValue?_eq_some_iff small).mpr digit
      have kept : min maxWord (min maxWord start * base + value) =
          min maxWord (start * base + value) := by
        have grows := Nat.le_mul_of_pos_right maxWord positive
        rcases Nat.le_total start maxWord with below | above
        · rw [Nat.min_eq_right below]
        · have more := Nat.mul_le_mul_right base above
          rw [Nat.min_eq_left above]
          omega
      simp only [magnitude, found]
      rw [kept, ih, List.reverse_cons, Nat.ofDigits_append,
        Nat.ofDigits_singleton, List.length_reverse, List.length_cons]
      congr 1
      ring

theorem exists_leading (small : base ≤ 16) (text : List Char) :
    ∃ values, Leading base text values := by
  induction text with
  | nil => exact ⟨[], .done fun _ _ nothing => nomatch nothing⟩
  | cons character text ih =>
      cases found : digitValue? base character with
      | some value =>
          obtain ⟨values, leading⟩ := ih
          have digit := (digitValue?_eq_some_iff small).mp found
          exact ⟨value :: values, .digit digit leading⟩
      | none =>
          refine ⟨[], .done ?_⟩
          rintro other value same digit
          obtain rfl := Option.some.inj same
          exact (digitValue?_eq_none_iff small).mp found value digit

/-! ### Reading -/

theorem toNat_signed (negative : Bool) (magnitude : Nat) :
    (let value := BitVec.ofNat 32 (min maxWord magnitude)
      if negative then -value else value).toNat =
      clamped negative magnitude := by
  have fits : min maxWord magnitude < 2 ^ 32 :=
    Nat.lt_of_le_of_lt (Nat.min_le_left _ _) (by decide)
  have toNat : (BitVec.ofNat 32 (min maxWord magnitude)).toNat =
      min maxWord magnitude := by
    rw [BitVec.toNat_ofNat, Nat.mod_eq_of_lt fits]
  cases negative with
  | true =>
      dsimp only
      rw [if_pos rfl, BitVec.toNat_neg, toNat]
      rfl
  | false => exact toNat

theorem dropWhile_isBlank_eq_self {text : List Char}
    (unblank : ∀ character, text.head? = some character →
      isBlank character = false) :
    text.dropWhile isBlank = text := by
  cases text with
  | nil => rfl
  | cons character text =>
      exact List.dropWhile_cons_of_neg
        (Bool.eq_false_iff.mp (unblank character rfl))

theorem exists_denotes (text : List Char) :
    ∃ number, Denotes text number := by
  have blank : ∀ character ∈ text.takeWhile isBlank,
      isBlank character = true :=
    List.all_eq_true.mp List.all_takeWhile
  have unblank : ∀ character,
      (text.dropWhile isBlank).head? = some character →
        isBlank character = false := by
    intro character first
    have starts := List.head?_dropWhile_not isBlank text
    rwa [first] at starts
  have signed := signed_splitSign (text.dropWhile isBlank)
  have based := based_splitBase (splitSign (text.dropWhile isBlank)).2
  obtain ⟨values, leading⟩ := exists_leading based.bounds.2 _
  have denoted := Denotes.intro blank unblank signed based leading
  rw [List.takeWhile_append_dropWhile] at denoted
  exact ⟨_, denoted⟩

theorem Denotes.toNat_readChars {number : Nat}
    (denotes : Denotes text number) : (readChars text).toNat = number := by
  cases denotes with
  | @intro blanks signed unsigned digits negative base values blank unblank
      sign based leading =>
      have skipped : (blanks ++ signed).dropWhile isBlank = signed := by
        rw [List.dropWhile_append_of_pos blank,
          dropWhile_isBlank_eq_self unblank]
      have value : magnitude base (min maxWord 0) digits = _ :=
        leading.magnitude_eq based.bounds.1 based.bounds.2
      rw [Nat.zero_mul, Nat.zero_add] at value
      rw [readChars, skipped, sign.splitSign_eq]
      dsimp only
      rw [based.splitBase_eq, ← toNat_signed, ← value]
      rfl

/-- A text denotes one number, the one that is read. -/
theorem denotes_iff {number : Nat} :
    Denotes text number ↔ (readChars text).toNat = number := by
  constructor
  · exact Denotes.toNat_readChars
  · rintro rfl
    obtain ⟨number, denotes⟩ := exists_denotes text
    rwa [denotes.toNat_readChars]

end VectorBench.Numeral
