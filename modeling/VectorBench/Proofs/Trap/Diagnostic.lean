import VectorBench.Proofs.Text.RoundTrip
import VectorBench.Trap.Handler

/-!
# The line about a fatal trap

A line of labels and marked words is read back word by word, as long as no
label takes part in a mark or goes on with the digits in front of it.  The line
about a fatal trap is one, so it tells the four words in it.
-/

namespace VectorBench

/-- The numbers of a text that `0x` marks, in order. -/
def markedNumbers : List Char → List Word
  | [] => []
  | character :: text =>
      if character = '0' ∧ text.head? = some 'x' then
        Numeral.readChars (character :: text) :: markedNumbers text
      else markedNumbers text

/-- Words behind their labels, on one line. -/
def labelledLine : List (String × Word) → List Char
  | [] => ['\n']
  | (label, word) :: fields =>
      label.toList ++ '0' :: 'x' :: (Hex.digits word ++ labelledLine fields)

/-- A text that may stand between marked words. -/
structure IsLabel (label : String) : Prop where
  unmarked : 'x' ∉ label.toList
  apart : label.toList.head?.map (Numeral.isDigit 16) = some false

/-- What follows a text goes on with none of its digits and makes no mark of
its last character. -/
structure Boundary (rest : List Char) : Prop where
  ends : Numeral.Leading 16 rest []
  unmarked : rest.head? ≠ some 'x'

theorem Boundary.cons {first : Char} (rest : List Char)
    (apart : Numeral.isDigit 16 first = false) (unmarked : first ≠ 'x') :
    Boundary (first :: rest) where
  ends := by
    refine .done ?_
    rintro character value ⟨⟩ digit
    have found := (Numeral.isDigit_iff (Nat.le_refl 16)).mpr ⟨value, digit⟩
    exact Bool.false_ne_true (apart.symm.trans found)
  unmarked := fun head => unmarked (Option.some.inj head)

variable {fields : List (String × Word)}

theorem boundary_labelledLine (labels : ∀ field ∈ fields, IsLabel field.1) :
    Boundary (labelledLine fields) := by
  cases fields with
  | nil => exact .cons [] (by decide) (by decide)
  | cons field fields =>
      have isLabel := labels field List.mem_cons_self
      obtain ⟨first, head, apart⟩ := Option.map_eq_some_iff.mp isLabel.apart
      obtain ⟨rest, characters⟩ := List.head?_eq_some_iff.mp head
      have unmarked : first ≠ 'x' := by
        rintro rfl
        exact isLabel.unmarked (List.mem_of_head? head)
      rw [labelledLine, characters, List.cons_append]
      exact .cons _ apart unmarked

theorem markedNumbers_append {front rest : List Char}
    (unmarked : 'x' ∉ front) (first : rest.head? ≠ some 'x') :
    markedNumbers (front ++ rest) = markedNumbers rest := by
  induction front with
  | nil => rfl
  | cons character front ih =>
      have later : 'x' ∉ front :=
        fun member => unmarked (List.mem_cons_of_mem _ member)
      -- A zero at the end of the front would make a mark with the rest.
      have next : (front ++ rest).head? ≠ some 'x' := by
        cases front with
        | nil => exact first
        | cons other front =>
            intro head
            exact later (List.mem_of_head? head)
      rw [List.cons_append, markedNumbers, if_neg fun mark => next mark.2,
        ih later]

theorem markedNumbers_marked (word : Word) {rest : List Char}
    (boundary : Boundary rest) :
    markedNumbers ('0' :: 'x' :: (Hex.digits word ++ rest)) =
      word :: markedNumbers rest := by
  have digits : 'x' ∉ Hex.digits word := by
    intro member
    have unmarked := (Numeral.spells_hex word).unmarked (Nat.le_refl 16)
    exact (unmarked 'x' member).2 (by decide)
  have behind : markedNumbers ('x' :: (Hex.digits word ++ rest)) =
      markedNumbers rest := by
    rw [markedNumbers, if_neg fun mark => absurd mark.1 (by decide),
      markedNumbers_append digits boundary.unmarked]
  rw [markedNumbers, if_pos ⟨rfl, rfl⟩, behind,
    Numeral.readChars_marked word boundary.ends]

theorem markedNumbers_labelledLine
    (labels : ∀ field ∈ fields, IsLabel field.1) :
    markedNumbers (labelledLine fields) = fields.map Prod.snd := by
  induction fields with
  | nil => rfl
  | cons field fields ih =>
      have others : ∀ field ∈ fields, IsLabel field.1 :=
        fun other member => labels other (List.mem_cons_of_mem _ member)
      have isLabel := labels field List.mem_cons_self
      rw [labelledLine, markedNumbers_append isLabel.unmarked (by simp),
        markedNumbers_marked _ (boundary_labelledLine others), ih others,
        List.map_cons]

/-- The fields of the line about a fatal trap. -/
def trapFields (code : FaultCode) (mcause mtval : Word)
    (context : TrapContext) : List (String × Word) :=
  [("rvvLite trap error ", code.value), (" mcause=", mcause),
    (" mepc=", context.pc), (" mtval=", mtval)]

theorem isLabel_trapFields {code : FaultCode} {mcause mtval : Word}
    {context : TrapContext} :
    ∀ field ∈ trapFields code mcause mtval context, IsLabel field.1 := by
  simp only [trapFields, List.forall_mem_cons]
  exact ⟨⟨by decide, by decide⟩, ⟨by decide, by decide⟩,
    ⟨by decide, by decide⟩, ⟨by decide, by decide⟩,
    fun _ member => (List.not_mem_nil member).elim⟩

theorem toList_trapDiagnostic (code : FaultCode) (mcause mtval : Word)
    (context : TrapContext) :
    (trapDiagnostic code mcause mtval context).toList =
      labelledLine (trapFields code mcause mtval context) := by
  have ending : "\n".toList = ['\n'] := by decide
  unfold trapDiagnostic
  simp only [String.toList_append, Numeral.toList_marked, trapFields,
    labelledLine, List.append_assoc, List.cons_append, ending]

/-- The numbers are read off the line in the order in which they are written. -/
theorem markedNumbers_trapDiagnostic (code : FaultCode) (mcause mtval : Word)
    (context : TrapContext) :
    markedNumbers (trapDiagnostic code mcause mtval context).toList =
      [code.value, mcause, context.pc, mtval] := by
  rw [toList_trapDiagnostic, markedNumbers_labelledLine isLabel_trapFields]
  rfl

theorem trapDiagnostic_eq_iff {code other : FaultCode}
    {mcause mtval otherCause otherValue : Word}
    {context otherContext : TrapContext} :
    trapDiagnostic code mcause mtval context =
        trapDiagnostic other otherCause otherValue otherContext ↔
      code = other ∧ mcause = otherCause ∧ context.pc = otherContext.pc ∧
        mtval = otherValue := by
  constructor
  · intro same
    have numbers := congrArg (fun line => markedNumbers line.toList) same
    simp only [markedNumbers_trapDiagnostic, List.cons.injEq, and_true]
      at numbers
    obtain ⟨codes, causes, places, values⟩ := numbers
    refine ⟨?_, causes, places, values⟩
    cases code
    cases other
    rw [FaultCode.mk.injEq]
    exact codes
  · rintro ⟨rfl, rfl, place, rfl⟩
    unfold trapDiagnostic
    rw [place]

/-- Every word is read back from its hexadecimal digits, with and without a sign
from its decimal digits, and from its octal digits.  The line about a fatal trap
tells the fault code, the cause, the address and the trap value. -/
theorem printed_numbers_read_back :
    (∀ word : Word, Numeral.ReadsBack word) ∧
      ∀ (code other : FaultCode) (mcause otherCause mtval otherValue : Word)
        (context otherContext : TrapContext),
        markedNumbers (trapDiagnostic code mcause mtval context).toList =
            [code.value, mcause, context.pc, mtval] ∧
          (trapDiagnostic code mcause mtval context =
              trapDiagnostic other otherCause otherValue otherContext ↔
            code = other ∧ mcause = otherCause ∧
              context.pc = otherContext.pc ∧ mtval = otherValue) := by
  refine ⟨Numeral.readsBack, ?_⟩
  intro code other mcause otherCause mtval otherValue context otherContext
  exact ⟨markedNumbers_trapDiagnostic code mcause mtval context,
    trapDiagnostic_eq_iff⟩

end VectorBench
