/-!
# Filled paragraphs

Words are put on lines of a limited width, each line taking as many as fit.  Filling keeps all words
and their order.
-/

namespace VectorBench.Paragraph

def lineWidth (words : List String) : Nat :=
  (words.map String.length).foldr (· + ·) 0 + (words.length - 1)

/-- Puts words behind those already on a line.  A word that does not fit starts the next line; on a
line of its own a word may be too long. -/
def fillFrom (width : Nat) (line : List String) : List String → List (List String)
  | [] => [line]
  | word :: words =>
      if line = [] ∨ lineWidth (line ++ [word]) ≤ width then fillFrom width (line ++ [word]) words
      else line :: fillFrom width [word] words

def lines (width : Nat) (text : String) : List String :=
  (fillFrom width [] (text.splitOn " ")).map (String.intercalate " ")

theorem flatten_fillFrom (width : Nat) (line words : List String) :
    (fillFrom width line words).flatten = line ++ words := by
  induction words generalizing line with
  | nil => simp [fillFrom]
  | cons word words induction =>
      rw [fillFrom]
      split
      · rw [induction, List.append_assoc, List.singleton_append]
      · rw [List.flatten_cons, induction, List.singleton_append]

end VectorBench.Paragraph
