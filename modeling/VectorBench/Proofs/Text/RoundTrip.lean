import Mathlib.Data.List.Basic
import VectorBench.Proofs.Text.Numeral
import VectorBench.Text.Hex

/-!
# Written numbers read back

`Spells` says that a text is made of the digits of a number in some base.  The
numerals that are written spell their numbers, and a text that spells a number
behind the mark of its base denotes it.
-/

namespace VectorBench.Numeral

variable {base number value : Nat} {text unsigned rest : List Char}

/-- A text consists of lower-case digits, the most significant first, that make
a number. -/
def Spells (base : Nat) (text : List Char) (number : Nat) : Prop :=
  ∃ values : List Nat, text = values.map Nat.digitChar ∧
    (∀ value ∈ values, value < base) ∧
    Nat.ofDigits base values.reverse = number

/-- The digits at the front of a text make a number. -/
def Begins (base : Nat) (text : List Char) (number : Nat) : Prop :=
  ∃ values, Leading base text values ∧
    Nat.ofDigits base values.reverse = number

/-- A character that is no blank, no sign, and no part of the mark of a base
behind the zero. -/
def Unmarked (character : Char) : Prop :=
  isBlank character = false ∧ character ∉ ['-', '+', 'x', 'X']

instance : DecidablePred Unmarked :=
  fun _ => inferInstanceAs (Decidable (_ ∧ _))

theorem unmarked_digitChar : ∀ value < 16, Unmarked (Nat.digitChar value) := by
  decide

/-! ### Writing -/

theorem Spells.nil : Spells base [] 0 :=
  ⟨[], rfl, fun _ member => (List.not_mem_nil member).elim, rfl⟩

theorem Spells.push (spells : Spells base text number) (small : value < base) :
    Spells base (text ++ [Nat.digitChar value]) (base * number + value) := by
  obtain ⟨values, rfl, below, rfl⟩ := spells
  refine ⟨values ++ [value], ?_, ?_, ?_⟩
  · rw [List.map_append, List.map_singleton]
  · intro other member
    rcases List.mem_append.mp member with member | member
    · exact below other member
    · rwa [List.mem_singleton.mp member]
  · rw [List.reverse_append, List.reverse_singleton, List.singleton_append,
      Nat.ofDigits_cons, Nat.add_comm]

theorem Spells.digit (small : value < base) :
    Spells base [Nat.digitChar value] value := by
  have pushed := Spells.nil.push small
  rwa [List.nil_append, Nat.mul_zero, Nat.zero_add] at pushed

theorem spells_digits (large : 2 ≤ base) (number : Nat) :
    Spells base (digits base number) number := by
  fun_induction digits base number with
  | case1 number short =>
      exact .digit (short.resolve_left (Nat.not_lt.mpr large))
  | case2 number long ih =>
      have last : number % base < base := Nat.mod_lt _ (by omega)
      have pushed := ih.push last
      rwa [Nat.div_add_mod] at pushed

/-- Numerals are written as the standard library writes them. -/
theorem digits_eq_toDigits (large : 2 ≤ base) (number : Nat) :
    digits base number = Nat.toDigits base number := by
  fun_induction digits base number with
  | case1 number short =>
      exact (Nat.toDigits_of_lt_base
        (short.resolve_left (Nat.not_lt.mpr large))).symm
  | case2 number long ih =>
      rw [Nat.toDigits_of_base_le large (by omega), ih]

theorem decimal_eq_toString (number : Nat) :
    decimal number = toString number := by
  rw [decimal, digits_eq_toDigits (by decide), Nat.toString_eq_ofList_toDigits]

theorem digits_ne_nil (base number : Nat) : digits base number ≠ [] := by
  fun_cases digits base number with
  | case1 => exact List.cons_ne_nil _ _
  | case2 => exact List.append_ne_nil_of_right_ne_nil _ (List.cons_ne_nil _ _)

theorem digits_zero : digits 10 0 = ['0'] := by
  rw [digits, if_pos (Or.inr (by decide))]
  rfl

/-- Only zero is written with a zero in front. -/
theorem head?_digits_ne_zero (large : 2 ≤ base) (small : base ≤ 16)
    (positive : 0 < number) : (digits base number).head? ≠ some '0' := by
  have nonzero : ∀ value < 16, 0 < value →
      some (Nat.digitChar value) ≠ some '0' := by
    decide
  fun_induction digits base number with
  | case1 number short =>
      exact nonzero number (by omega) positive
  | case2 number long ih =>
      rw [List.head?_append_of_ne_nil _ (digits_ne_nil base _)]
      exact ih (Nat.div_pos (by omega) (by omega))

/-! ### Reading -/

/-- Digits are read up to their end where no digit follows them. -/
theorem leading_map {values : List Nat}
    (below : ∀ value ∈ values, value < base) (ends : Leading base rest []) :
    Leading base (values.map Nat.digitChar ++ rest) values := by
  induction values with
  | nil => exact ends
  | cons value values ih =>
      have first : value < base := below value List.mem_cons_self
      exact .digit (.lower first)
        (ih fun other member => below other (List.mem_cons_of_mem _ member))

theorem Spells.begins_append (spells : Spells base text number)
    (ends : Leading base rest []) : Begins base (text ++ rest) number := by
  obtain ⟨values, rfl, below, makes⟩ := spells
  exact ⟨values, leading_map below ends, makes⟩

theorem Spells.begins (spells : Spells base text number) :
    Begins base text number := by
  have ends : Leading base [] [] := .done fun _ _ nothing => nomatch nothing
  have alone := spells.begins_append ends
  rwa [List.append_nil] at alone

theorem Begins.toNat_readChars {signed : List Char} {negative : Bool}
    (begins : Begins base text number)
    (unblank : ∀ character, signed.head? = some character →
      isBlank character = false)
    (sign : Signed signed negative unsigned) (based : Based unsigned base text) :
    (readChars signed).toNat = clamped negative number := by
  obtain ⟨values, leading, rfl⟩ := begins
  have none : ∀ character ∈ ([] : List Char), isBlank character = true :=
    fun _ member => (List.not_mem_nil member).elim
  exact (Denotes.intro none unblank sign based leading).toNat_readChars

theorem clamped_false (word : Word) : clamped false word.toNat = word.toNat :=
  Nat.min_eq_right (Nat.le_sub_one_of_lt word.isLt)

theorem clamped_true (word : Word) :
    clamped true word.toNat = (2 ^ 32 - word.toNat) % 2 ^ 32 := by
  have kept := clamped_false word
  rw [clamped, if_neg Bool.false_ne_true] at kept
  rw [clamped, if_pos rfl, kept]

/-- A word that is written without a sign is read back. -/
theorem Begins.readChars_eq {word : Word} (begins : Begins base text word.toNat)
    (unmarked : ∀ character, unsigned.head? = some character →
      Unmarked character)
    (based : Based unsigned base text) : readChars unsigned = word := by
  have sign : Signed unsigned false unsigned :=
    .unmarked (fun head => (unmarked _ head).2 (by decide))
      (fun head => (unmarked _ head).2 (by decide))
  apply BitVec.eq_of_toNat_eq
  rw [begins.toNat_readChars (fun _ head => (unmarked _ head).1) sign based,
    clamped_false]

theorem Begins.toNat_readChars_minus {word : Word}
    (begins : Begins base text word.toNat) (based : Based unsigned base text) :
    (readChars ('-' :: unsigned)).toNat = (2 ^ 32 - word.toNat) % 2 ^ 32 := by
  have unblank : ∀ character, ('-' :: unsigned).head? = some character →
      isBlank character = false := by
    rintro character ⟨⟩
    decide
  rw [begins.toNat_readChars unblank (.minus unsigned) based, clamped_true]

theorem unmarked_zero : ∀ character, ('0' :: text).head? = some character →
    Unmarked character := by
  rintro character ⟨⟩
  decide

/-! ### Bases -/

theorem Spells.zero_cons (spells : Spells base text number)
    (positive : 0 < base) : Spells base ('0' :: text) number := by
  obtain ⟨values, rfl, below, rfl⟩ := spells
  refine ⟨0 :: values, rfl, ?_, ?_⟩
  · intro value member
    rcases List.mem_cons.mp member with rfl | member
    · exact positive
    · exact below value member
  · rw [List.reverse_cons, Nat.ofDigits_append, Nat.ofDigits_singleton,
      Nat.mul_zero, Nat.add_zero]

theorem Spells.unmarked (spells : Spells base text number)
    (small : base ≤ 16) : ∀ character ∈ text, Unmarked character := by
  obtain ⟨values, rfl, below, -⟩ := spells
  intro character member
  obtain ⟨value, inside, rfl⟩ := List.mem_map.mp member
  exact unmarked_digitChar value (Nat.lt_of_lt_of_le (below value inside) small)

theorem not_hexMarked {first : Char} {digits : List Char}
    (unmarked : ∀ character ∈ text, Unmarked character) :
    ¬ HexMarked (first :: text) digits := by
  intro marked
  cases marked with
  | intro mark digit =>
      apply (unmarked _ List.mem_cons_self).2
      rcases mark with rfl | rfl <;> decide

/-- The decimal digits of zero are read in base eight. -/
theorem exists_based_decimal (number : Nat) :
    ∃ base, Based (digits 10 number) base (digits 10 number) ∧
      Spells base (digits 10 number) number := by
  rcases Nat.eq_zero_or_pos number with rfl | positive
  · have zero : Spells 8 [Nat.digitChar 0] 0 := .digit (by decide)
    rw [digits_zero]
    exact ⟨8, .octal rfl (fun _ marked => nomatch marked), zero⟩
  · have decimal : (digits 10 number).head? ≠ some '0' :=
      head?_digits_ne_zero (by decide) (by decide) positive
    exact ⟨10, .decimal decimal, spells_digits (by decide) number⟩

theorem based_zero_octal (number : Nat) :
    Based ('0' :: digits 8 number) 8 ('0' :: digits 8 number) ∧
      Spells 8 ('0' :: digits 8 number) number := by
  have spells : Spells 8 (digits 8 number) number :=
    spells_digits (by decide) number
  have unmarked := spells.unmarked (by decide)
  exact ⟨.octal rfl fun _ => not_hexMarked unmarked,
    spells.zero_cons (by decide)⟩

/-! ### Hexadecimal words -/

theorem digit_eq_digitChar :
    ∀ value : BitVec 4, Hex.digit value = Nat.digitChar value.toNat := by
  decide

theorem spells_hex (word : Word) : Spells 16 (Hex.digits word) word.toNat := by
  refine ⟨[7, 6, 5, 4, 3, 2, 1, 0].map fun place =>
    (word.extractLsb' (4 * place) 4).toNat, ?_, ?_, ?_⟩
  · simp only [Hex.digits, List.map_cons, List.map_nil, digit_eq_digitChar]
  · intro value member
    obtain ⟨place, -, rfl⟩ := List.mem_map.mp member
    exact (word.extractLsb' (4 * place) 4).isLt
  · simp only [List.map_cons, List.map_nil, List.reverse_cons, List.reverse_nil,
      List.nil_append, List.cons_append, Nat.ofDigits_cons, Nat.ofDigits_nil,
      BitVec.extractLsb'_toNat, Nat.shiftRight_eq_div_pow]
    -- Eight digits of four bits make up the word.
    have fits := word.isLt
    omega

theorem based_hex (word : Word) (rest : List Char) :
    Based ('0' :: 'x' :: (Hex.digits word ++ rest)) 16
      (Hex.digits word ++ rest) := by
  have first : DigitOf 16 (Hex.digit (word.extractLsb' 28 4))
      (word.extractLsb' 28 4).toNat := by
    rw [digit_eq_digitChar]
    exact .lower (word.extractLsb' 28 4).isLt
  exact .hexadecimal (.intro (.inl rfl) first)

/-- A word is read back from its marked digits where no digit follows them. -/
theorem readChars_marked (word : Word) (ends : Leading 16 rest []) :
    readChars ('0' :: 'x' :: (Hex.digits word ++ rest)) = word := by
  have begins := (spells_hex word).begins_append ends
  exact begins.readChars_eq unmarked_zero (based_hex word rest)

theorem toList_marked (word : Word) :
    (Hex.marked word).toList = '0' :: 'x' :: Hex.digits word := by
  have mark : "0x".toList = ['0', 'x'] := by decide
  rw [Hex.marked, String.toList_append, mark, Hex.text, String.toList_ofList,
    List.cons_append, List.cons_append, List.nil_append]

theorem mem_hexDigits : ∀ value : BitVec 4,
    Hex.digit value ∈ "0123456789abcdef".toList := by
  decide

/-! ### Words -/

/-- The texts of a word, and what is read from them.  Its decimal and octal
digits are those of the standard library, which are also what is written. -/
structure ReadsBack (word : Word) : Prop where
  length_hex : (Hex.text word).length = 8
  hex_digits : ∀ character ∈ (Hex.text word).toList,
    character ∈ "0123456789abcdef".toList
  hex : read ("0x" ++ Hex.text word) = word
  written : decimal word.toNat = toString word.toNat
  decimal : read (toString word.toNat) = word
  negated : (read ("-" ++ toString word.toNat)).toNat =
    (2 ^ 32 - word.toNat) % 2 ^ 32
  octal : read ("0" ++ String.ofList (Nat.toDigits 8 word.toNat)) = word

theorem readsBack (word : Word) : ReadsBack word where
  length_hex := by rw [Hex.text, String.length_ofList, Hex.length_digits]
  hex_digits := by
    intro character member
    rw [Hex.text, String.toList_ofList] at member
    obtain ⟨place, -, rfl⟩ := List.mem_map.mp member
    exact mem_hexDigits _
  hex := by
    have based := based_hex word []
    rw [List.append_nil] at based
    rw [← Hex.marked, read, toList_marked]
    exact (spells_hex word).begins.readChars_eq unmarked_zero based
  written := decimal_eq_toString word.toNat
  decimal := by
    obtain ⟨base, based, spells⟩ := exists_based_decimal word.toNat
    have unmarked := spells.unmarked based.bounds.2
    rw [← decimal_eq_toString, read, Numeral.decimal, String.toList_ofList]
    exact spells.begins.readChars_eq
      (fun character head => unmarked character (List.mem_of_head? head)) based
  negated := by
    obtain ⟨base, based, spells⟩ := exists_based_decimal word.toNat
    have minus : "-".toList = ['-'] := by decide
    rw [← decimal_eq_toString, read, Numeral.decimal, String.toList_append,
      minus, String.toList_ofList, List.singleton_append]
    exact spells.begins.toNat_readChars_minus based
  octal := by
    obtain ⟨based, spells⟩ := based_zero_octal word.toNat
    have zero : "0".toList = ['0'] := by decide
    rw [← digits_eq_toDigits (by decide), read, String.toList_append, zero,
      String.toList_ofList, List.singleton_append]
    exact spells.begins.readChars_eq unmarked_zero based

end VectorBench.Numeral
