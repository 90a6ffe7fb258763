import Mathlib.Data.List.Basic
import VectorBench.Suite.Operations

/-!
# Lines of a report

Suites write their reports line by line and mark the lines on results that are
not as expected.  Numbers bring neither line feeds nor exclamation marks into a
line, so the marked lines of a whole text are those that were written as such.
-/

namespace VectorBench

/-! ### Plain text -/

/-- Neither a line feed nor an exclamation mark. -/
def PlainCharacter (character : Char) : Prop :=
  character ≠ '\n' ∧ character ≠ '!'

instance : DecidablePred PlainCharacter :=
  fun _ => inferInstanceAs (Decidable (_ ∧ _))

def PlainText (text : String) : Prop :=
  ∀ character ∈ text.toList, PlainCharacter character

instance : DecidablePred PlainText :=
  fun text => List.decidableBAll PlainCharacter text.toList

theorem Hex.plainCharacter_digit : ∀ value : BitVec 4,
    PlainCharacter (digit value) := by
  decide

theorem Numeral.plainCharacter_digitChar :
    ∀ value < 10, PlainCharacter (Nat.digitChar value) := by
  decide

theorem Numeral.plainCharacter_digits (value : Nat) :
    ∀ character ∈ digits 10 value, PlainCharacter character := by
  fun_induction digits 10 value with
  | case1 value small =>
      intro character member
      rw [List.mem_singleton.mp member]
      exact plainCharacter_digitChar value (by omega)
  | case2 value large ih =>
      intro character member
      rcases List.mem_append.mp member with member | member
      · exact ih character member
      · rw [List.mem_singleton.mp member]
        exact plainCharacter_digitChar _ (Nat.mod_lt _ (by decide))

namespace PlainText

variable {left right : String}

@[simp] theorem append_iff :
    PlainText (left ++ right) ↔ PlainText left ∧ PlainText right := by
  simp only [PlainText, String.toList_append, List.mem_append, or_imp,
    forall_and]

@[simp] theorem decimal (value : Nat) : PlainText (Numeral.decimal value) := by
  intro character member
  rw [Numeral.decimal, String.toList_ofList] at member
  exact Numeral.plainCharacter_digits value character member

@[simp] theorem hexText (word : Word) : PlainText (Hex.text word) := by
  intro character member
  rw [Hex.text, String.toList_ofList] at member
  obtain ⟨place, -, rfl⟩ := List.mem_map.mp member
  exact Hex.plainCharacter_digit _

@[simp] theorem hexMarked (word : Word) : PlainText (Hex.marked word) :=
  append_iff.mpr ⟨by decide, hexText word⟩

@[simp] theorem operandsText (operands : Word × Word) :
    PlainText (operandsText operands) := by
  have comma : PlainText ", " := by decide
  simp [VectorBench.operandsText, comma]

theorem join {texts : List String} (plain : ∀ text ∈ texts, PlainText text) :
    PlainText (String.join texts) := by
  intro character member
  rw [String.toList_join] at member
  obtain ⟨text, listed, inside⟩ := List.mem_flatMap.mp member
  exact plain text listed character inside

theorem not_mem_lineFeed (plain : PlainText left) : '\n' ∉ left.toList :=
  fun member => (plain '\n' member).1 rfl

end PlainText

/-! ### Marked lines -/

/-- What marks a line on a result that is not as expected. -/
def mismatchMark : String := " <<=== MISMATCH!"

/-- Whether a line, without its line feed, ends in the mark. -/
def endsInMark (line : List Char) : Bool :=
  mismatchMark.toList.isSuffixOf line

/-- The marked lines of a text, each with its line feed. -/
def mismatchLines (text : String) : List String :=
  ((text.toList.splitOn '\n').filter endsInMark).map fun line =>
    String.ofList line ++ "\n"

/-- A text is one line of a report, and marked or not. -/
inductive ReportLine : (marked : Bool) → String → Prop where
  | plain (body : String) : PlainText body → ReportLine false (body ++ "\n")
  | marked (body : String) : PlainText body →
      ReportLine true (body ++ " <<=== MISMATCH!\n")

theorem mismatchLines_line_append {body : String} (whole : '\n' ∉ body.toList)
    (rest : String) :
    mismatchLines (body ++ "\n" ++ rest) =
      (if endsInMark body.toList then [body ++ "\n"] else []) ++
        mismatchLines rest := by
  have split : (body ++ "\n" ++ rest).toList.splitOn '\n' =
      body.toList :: rest.toList.splitOn '\n' := by
    have pieces : (body ++ "\n" ++ rest).toList =
        body.toList ++ '\n' :: rest.toList := by
      simp only [String.toList_append, List.append_assoc]
      rfl
    rw [pieces, List.splitOn_append_cons_self_of_not_mem whole]
  unfold mismatchLines
  rw [split, List.filter_cons]
  split
  case isTrue => simp only [List.map_cons, String.ofList_toList,
    List.singleton_append]
  case isFalse => rw [List.nil_append]

theorem endsInMark_of_plain {body : String} (plain : PlainText body) :
    endsInMark body.toList = false := by
  apply Bool.eq_false_iff.mpr
  intro ends
  have suffix : mismatchMark.toList <:+ body.toList :=
    List.isSuffixOf_iff_suffix.mp ends
  have exclaims : '!' ∈ body.toList := suffix.subset (by decide)
  exact (plain '!' exclaims).2 rfl

theorem endsInMark_append_mark (body : String) :
    endsInMark (body ++ mismatchMark).toList = true := by
  apply List.isSuffixOf_iff_suffix.mpr
  rw [String.toList_append]
  exact List.suffix_append _ _

namespace ReportLine

variable {marked : Bool} {line : String}

theorem mismatchLines_append (written : ReportLine marked line)
    (rest : String) :
    mismatchLines (line ++ rest) =
      (if marked then [line] else []) ++ mismatchLines rest := by
  cases written with
  | plain body plain =>
      rw [mismatchLines_line_append plain.not_mem_lineFeed,
        endsInMark_of_plain plain]
  | marked body plain =>
      have ended : body ++ " <<=== MISMATCH!\n" =
          body ++ mismatchMark ++ "\n" := by
        rw [String.append_assoc]
        rfl
      have whole : '\n' ∉ (body ++ mismatchMark).toList := by
        rw [String.toList_append, List.mem_append, not_or]
        exact ⟨plain.not_mem_lineFeed, by decide⟩
      rw [ended, mismatchLines_line_append whole, endsInMark_append_mark]

end ReportLine

/-- Of a text that is written line by line, the marked lines are those that
were written as such. -/
theorem mismatchLines_join_append {α : Type} (marked : α → Bool)
    (line : α → String) {items : List α}
    (written : ∀ item ∈ items, ReportLine (marked item) (line item))
    (rest : String) :
    mismatchLines (String.join (items.map line) ++ rest) =
      (items.filter marked).map line ++ mismatchLines rest := by
  induction items with
  | nil =>
      rw [List.map_nil, String.join_nil, String.empty_append]
      rfl
  | cons item items ih =>
      have first := written item List.mem_cons_self
      have others := ih fun item member =>
        written item (List.mem_cons_of_mem _ member)
      rw [List.map_cons, String.join_cons, String.append_assoc,
        first.mismatchLines_append, others, List.filter_cons]
      split <;> rfl

theorem mismatchLines_plain_append {lines : List String}
    (plain : ∀ line ∈ lines, ReportLine false line) (rest : String) :
    mismatchLines (String.join lines ++ rest) = mismatchLines rest := by
  have written := mismatchLines_join_append (fun _line => false) id plain rest
  have unmarked : lines.filter (fun _line => false) = [] :=
    List.filter_eq_nil_iff.mpr fun _line _member => Bool.false_ne_true
  rwa [List.map_id, unmarked, List.map_nil, List.nil_append] at written

theorem mismatchLines_plain {lines : List String}
    (plain : ∀ line ∈ lines, ReportLine false line) :
    mismatchLines (String.join lines) = [] := by
  have alone := mismatchLines_plain_append plain ""
  rwa [String.append_empty] at alone

/-! ### Lines of the suites -/

namespace ReportLine

theorem of_append {first last : String} (plainFirst : PlainText first)
    (plainLast : PlainText last) :
    ReportLine false (first ++ (last ++ "\n")) := by
  rw [← String.append_assoc]
  exact .plain _ (PlainText.append_iff.mpr ⟨plainFirst, plainLast⟩)

theorem of_literal {text : String}
    (plain : PlainText (String.ofList text.toList.dropLast))
    (ended : text.toList.getLast? = some '\n') : ReportLine false text := by
  have whole : text = String.ofList text.toList.dropLast ++ "\n" := by
    apply String.toList_inj.mp
    rw [String.toList_append, String.toList_ofList]
    exact (List.dropLast_append_getLast? '\n' ended).symm
  rw [whole]
  exact .plain _ plain

theorem decimal {label rest : String} (plainLabel : PlainText label)
    (plainRest : PlainText rest) (value : Nat) :
    ReportLine false (label ++ Numeral.decimal value ++ (rest ++ "\n")) :=
  of_append (PlainText.append_iff.mpr ⟨plainLabel, PlainText.decimal value⟩)
    plainRest

theorem modelMismatchLine (mismatch : Mismatch (Word × Word) FirstThree) :
    ReportLine true (modelMismatchLine mismatch) := by
  have colon : PlainText ": " := by decide
  have between : PlainText ":" := by decide
  have comma : PlainText ", " := by decide
  apply ReportLine.marked
  simp [colon, between, comma]

theorem vectorLine (width : ElementWidth) (operation : Operation)
    (got expected : VectorWords) :
    ReportLine (got != expected)
      (vectorLine width operation got expected) := by
  have name : PlainText "rvv_opvv" := by decide
  have dot : PlainText ".e" := by decide
  have registers : PlainText "(v1, v2, v3) =" := by decide
  have words : PlainText
      (String.join (got.toList.map fun word => " " ++ Hex.text word)) := by
    apply PlainText.join
    intro text member
    obtain ⟨word, -, rfl⟩ := List.mem_map.mp member
    exact PlainText.append_iff.mpr ⟨by decide, PlainText.hexText word⟩
  unfold VectorBench.vectorLine
  by_cases same : got = expected
  · rw [if_pos same, bne_eq_false_iff_eq.mpr same]
    apply ReportLine.plain
    simp [name, dot, registers, words]
  · rw [if_neg same, bne_iff_ne.mpr same]
    apply ReportLine.marked
    simp [name, dot, registers, words]

end ReportLine

end VectorBench
