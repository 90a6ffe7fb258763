import VectorBench.Proofs.Text.RoundTrip
import VectorBench.Text.FixedPoint

/-!
# The notation of fixed point numbers

A number with at most 999 thousandths has one notation: the digits that are
taken off its fraction one by one are those of the padded numeral, and the
number can be told from its text.
-/

namespace VectorBench

namespace Numeral

variable {base first second : Nat} {text : List Char}

/-- The last digits of a number, zeros included. -/
def lastDigits : Nat → Nat → List Char
  | 0, _ => []
  | width + 1, value =>
      lastDigits width (value / 10) ++ [Nat.digitChar (value % 10)]

theorem length_lastDigits (width value : Nat) :
    (lastDigits width value).length = width := by
  induction width generalizing value with
  | zero => rfl
  | succ width ih =>
      rw [lastDigits, List.length_append, ih, List.length_singleton]

theorem lastDigits_zero (width : Nat) :
    lastDigits width 0 = List.replicate width '0' := by
  induction width with
  | zero => rfl
  | succ width ih =>
      rw [lastDigits, Nat.zero_div, ih, List.replicate_succ']
      rfl

/-- A numeral that is padded to a width is as many last digits. -/
theorem padded_digits {width value : Nat} (fits : value < 10 ^ (width + 1)) :
    List.replicate (width + 1 - (digits 10 value).length) '0' ++
        digits 10 value =
      lastDigits (width + 1) value := by
  induction width generalizing value with
  | zero =>
      have small : value < 10 := fits
      rw [digits, if_pos (.inr small), lastDigits, lastDigits,
        Nat.mod_eq_of_lt small]
      rfl
  | succ width ih =>
      rw [lastDigits]
      by_cases small : value < 10
      · rw [digits, if_pos (.inr small), Nat.div_eq_of_lt small,
          Nat.mod_eq_of_lt small, lastDigits_zero]
        rfl
      · have shorter : value / 10 < 10 ^ (width + 1) :=
          Nat.div_lt_of_lt_mul (by rwa [← Nat.pow_succ'])
        rw [digits, if_neg (by omega), ← ih shorter, List.length_append,
          List.length_singleton, Nat.add_sub_add_right, List.append_assoc]

theorem spells_lastDigits {width value : Nat} (fits : value < 10 ^ width) :
    Spells 10 (lastDigits width value) value := by
  induction width generalizing value with
  | zero =>
      obtain rfl : value = 0 := Nat.lt_one_iff.mp fits
      exact .nil
  | succ width ih =>
      have shorter : value / 10 < 10 ^ width :=
        Nat.div_lt_of_lt_mul (by rwa [← Nat.pow_succ'])
      have pushed := (ih shorter).push (Nat.mod_lt value (by decide))
      rwa [Nat.div_add_mod] at pushed

theorem digitValues_map {values : List Nat} (small : base ≤ 16)
    (below : ∀ value ∈ values, value < base) :
    (values.map Nat.digitChar).map (digitValue? 16) = values.map some := by
  rw [List.map_map]
  apply List.map_congr_left
  intro value member
  exact (digitValue?_digitChar
    (Nat.lt_of_lt_of_le (below value member) small)).1

/-- A text spells one number. -/
theorem Spells.unique (small : base ≤ 16) (left : Spells base text first)
    (right : Spells base text second) : first = second := by
  obtain ⟨values, rfl, below, rfl⟩ := left
  obtain ⟨others, same, othersBelow, rfl⟩ := right
  have read := digitValues_map small below
  rw [same, digitValues_map small othersBelow] at read
  obtain rfl : others = values :=
    List.map_injective_iff.mpr (Option.some_injective Nat) read
  rfl

end Numeral

namespace FixedPoint

open Numeral

variable {number other : FixedPoint} {text : List Char}

/-- A sign, the whole part without leading zeros, a point, and the thousandths
in three digits. -/
inductive Notated (number : FixedPoint) : List Char → Prop where
  | intro {whole fraction : List Char} :
      whole ≠ [] → (whole.head? = some '0' → whole = ['0']) →
      Spells 10 whole number.whole.toNat →
      fraction.length = 3 → Spells 10 fraction number.fraction.toNat →
      Notated number
        ((if number.negative then '-' else ' ') :: (whole ++ '.' :: fraction))

/-- A text is the notation of one number. -/
theorem Notated.unique (left : Notated number text)
    (right : Notated other text) : number = other := by
  cases left with
  | @intro whole fraction _ _ wholeSpells threeDigits fractionSpells =>
      generalize same : _ :: _ = text at right
      cases right with
      | @intro otherWhole otherFraction _ _ otherWholeSpells otherThreeDigits
          otherFractionSpells =>
          obtain ⟨signs, rest⟩ := List.cons.inj same
          have negatives : number.negative = other.negative := by
            revert signs
            cases number.negative <;> cases other.negative <;> decide
          have lengths : ('.' :: fraction).length =
              ('.' :: otherFraction).length := by
            rw [List.length_cons, List.length_cons, threeDigits,
              otherThreeDigits]
          obtain ⟨rfl, points⟩ := List.append_inj' rest lengths
          obtain ⟨-, rfl⟩ := List.cons.inj points
          have wholes : number.whole = other.whole :=
            BitVec.eq_of_toNat_eq
              (wholeSpells.unique (by decide) otherWholeSpells)
          have fractions : number.fraction = other.fraction :=
            BitVec.eq_of_toNat_eq
              (fractionSpells.unique (by decide) otherFractionSpells)
          cases number
          cases other
          rw [FixedPoint.mk.injEq]
          exact ⟨negatives, wholes, fractions⟩

theorem fractionDigits_eq (number : FixedPoint) :
    number.fractionDigits = lastDigits 3 number.fraction.toNat := by
  simp only [fractionDigits, List.map_cons, List.map_nil, lastDigits,
    List.nil_append, List.cons_append, Nat.div_div_eq_div_mul, Nat.div_one]

theorem toNat_lt_of_capped (capped : number.fraction ≤ 999) :
    number.fraction.toNat < 10 ^ 3 :=
  Nat.lt_succ_of_le (BitVec.le_def.mp capped)

theorem text_eq_paddedText (capped : number.fraction ≤ 999) :
    number.text = number.paddedText := by
  rw [FixedPoint.text, paddedText, padded, fractionDigits_eq,
    padded_digits (toNat_lt_of_capped capped)]

theorem toList_sign (number : FixedPoint) :
    number.sign.toList = [if number.negative then '-' else ' '] := by
  unfold sign
  cases number.negative <;> decide

theorem notated_text (capped : number.fraction ≤ 999) :
    number.Notated number.text.toList := by
  have characters : number.text.toList =
      (if number.negative then '-' else ' ') ::
        (digits 10 number.whole.toNat ++
          '.' :: lastDigits 3 number.fraction.toNat) := by
    rw [FixedPoint.text, fractionDigits_eq, String.toList_append,
      String.toList_append, String.toList_append, toList_sign, decimal,
      String.toList_ofList, String.toList_ofList, String.toList_ofList,
      List.append_assoc, List.append_assoc]
    rfl
  have leading : (digits 10 number.whole.toNat).head? = some '0' →
      digits 10 number.whole.toNat = ['0'] := by
    intro zero
    rcases Nat.eq_zero_or_pos number.whole.toNat with none | positive
    · rw [none, digits_zero]
    · exact (head?_digits_ne_zero (by decide) (by decide) positive zero).elim
  rw [characters]
  exact .intro (digits_ne_nil 10 _) leading (spells_digits (by decide) _)
    (length_lastDigits 3 _) (spells_lastDigits (toNat_lt_of_capped capped))

theorem ite_le_cap (word : Word) : (if word ≤ 999 then word else 999) ≤ 999 := by
  split
  · assumption
  · decide

theorem fraction_ofFloat_le (value : Float32) :
    (ofFloat value).fraction ≤ 999 :=
  ite_le_cap _

end FixedPoint

/-- A float is split into at most 999 thousandths, and with no more than those
the two texts of a number are the same, its notation, and of no other number. -/
theorem fixedPoint_texts_agree :
    (∀ value : Float32, (FixedPoint.ofFloat value).fraction ≤ 999) ∧
      ∀ number : FixedPoint, number.fraction ≤ 999 →
        number.text = number.paddedText ∧
          number.Notated number.text.toList ∧
          ∀ other : FixedPoint, other.fraction ≤ 999 →
            (number.text = other.text ↔ number = other) := by
  refine ⟨FixedPoint.fraction_ofFloat_le, ?_⟩
  intro number capped
  have notated := FixedPoint.notated_text capped
  refine ⟨FixedPoint.text_eq_paddedText capped, notated, ?_⟩
  intro other otherCapped
  constructor
  · intro same
    rw [same] at notated
    exact notated.unique (FixedPoint.notated_text otherCapped)
  · rintro rfl
    rfl

theorem fixedPoint_texts_agree_smallFraction :
    let number : FixedPoint :=
      { negative := true, whole := 0xffffffff, fraction := 7 }
    let other : FixedPoint := { number with fraction := 70 }
    (number.fraction ≤ 999 ∧ other.fraction ≤ 999) ∧
      number.text = "-4294967295.007" ∧
      number.paddedText = "-4294967295.007" ∧
      number.Notated "-4294967295.007".toList ∧ number.text ≠ other.text := by
  intro number other
  have capped : number.fraction ≤ 999 ∧ other.fraction ≤ 999 := by decide
  have shown : number.text = "-4294967295.007" := by
    rw [FixedPoint.text, Numeral.decimal_eq_toString]
    decide
  obtain ⟨same, notated, told⟩ := fixedPoint_texts_agree.2 number capped.1
  refine ⟨capped, shown, same ▸ shown, shown ▸ notated, ?_⟩
  rw [ne_eq, told other capped.2]
  decide

end VectorBench
