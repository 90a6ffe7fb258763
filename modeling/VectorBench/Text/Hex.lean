import VectorBench.Word

/-!
# Hexadecimal words

A word is written as exactly eight lower-case hexadecimal digits, the most significant first.
-/

namespace VectorBench.Hex

def digit (value : BitVec 4) : Char :=
  if value < 10 then Char.ofNat ('0'.toNat + value.toNat)
  else Char.ofNat ('a'.toNat + (value.toNat - 10))

/-- The eight hexadecimal digits of a word, the most significant first. -/
def digits (word : Word) : List Char :=
  [7, 6, 5, 4, 3, 2, 1, 0].map fun place => digit (word.extractLsb' (4 * place) 4)

def text (word : Word) : String :=
  String.ofList (digits word)

def marked (word : Word) : String :=
  "0x" ++ text word

theorem length_digits (word : Word) : (digits word).length = 8 := by
  simp [digits]

end VectorBench.Hex
