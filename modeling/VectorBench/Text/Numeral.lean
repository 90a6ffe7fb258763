import VectorBench.Text.Blank
import VectorBench.Word

/-!
# Numerals

Numbers are written with their digits in some base.  They are read with a rule that takes the base
from the text: `0x` before a hexadecimal digit selects sixteen, another leading zero eight, anything
else ten.  Reading stops at the first character that is no digit of the base, never fails, and
clamps what does not fit a word.
-/

namespace VectorBench.Numeral

def digits (base value : Nat) : List Char :=
  if base < 2 ∨ value < base then [Nat.digitChar value]
  else digits base (value / base) ++ [Nat.digitChar (value % base)]
termination_by value
decreasing_by exact Nat.div_lt_self (by omega) (by omega)

def decimal (value : Nat) : String :=
  String.ofList (digits 10 value)

def integer (value : Int) : String :=
  if value < 0 then "-" ++ decimal value.natAbs else decimal value.natAbs

def padded (width value : Nat) : String :=
  let written := digits 10 value
  String.ofList (List.replicate (width - written.length) '0' ++ written)

def digitValue? (base : Nat) (character : Char) : Option Nat :=
  let value :=
    if '0' ≤ character ∧ character ≤ '9' then some (character.toNat - '0'.toNat)
    else if 'a' ≤ character ∧ character ≤ 'z' then some (character.toNat - 'a'.toNat + 10)
    else if 'A' ≤ character ∧ character ≤ 'Z' then some (character.toNat - 'A'.toNat + 10)
    else none
  value.filter (· < base)

def isDigit (base : Nat) (character : Char) : Bool :=
  (digitValue? base character).isSome

def maxWord : Nat := 0xffffffff

/-- Reads digits up to the first character that is none, clamping at the largest word. -/
def magnitude (base : Nat) (value : Nat) : List Char → Nat
  | [] => value
  | character :: text =>
      match digitValue? base character with
      | some digit => magnitude base (min maxWord (value * base + digit)) text
      | none => value

def splitSign : List Char → Bool × List Char
  | '-' :: text => (true, text)
  | '+' :: text => (false, text)
  | text => (false, text)

/-- The base that a text without a sign selects, and the digits in it. -/
def splitBase : List Char → Nat × List Char
  | '0' :: mark :: digit :: text =>
      if (mark = 'x' ∨ mark = 'X') ∧ isDigit 16 digit then (16, digit :: text)
      else (8, '0' :: mark :: digit :: text)
  | '0' :: text => (8, '0' :: text)
  | text => (10, text)

/-- Reads a numeral behind leading blanks.  A minus sign negates modulo `2 ^ 32`. -/
def readChars (text : List Char) : Word :=
  let (negative, unsigned) := splitSign (text.dropWhile isBlank)
  let (base, digits) := splitBase unsigned
  let value := BitVec.ofNat 32 (magnitude base 0 digits)
  if negative then -value else value

def read (text : String) : Word :=
  readChars text.toList

end VectorBench.Numeral
