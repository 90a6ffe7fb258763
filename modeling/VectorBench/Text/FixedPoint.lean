import VectorBench.Text.Numeral

/-!
# Fixed point numbers

A float split into a sign, an integer part and a fraction in thousandths, cut and not rounded.  It
is written with a minus sign or a blank in front.
-/

namespace VectorBench

structure FixedPoint where
  negative : Bool
  whole : Word
  fraction : Word
deriving DecidableEq, Repr

namespace FixedPoint

/-- Splits a float.  What does not fit is clamped, and what is not a number counts as zero. -/
def ofFloat (value : Float32) : FixedPoint :=
  let negative := value < 0
  let magnitude := if negative then -value else value
  let whole := magnitude.toUInt32
  let fraction := ((magnitude - whole.toFloat32) * 1000).toUInt32
  { negative := negative
    whole := whole.toBitVec
    fraction := if fraction.toBitVec ≤ 999 then fraction.toBitVec else 999 }

def sign (number : FixedPoint) : String :=
  if number.negative then "-" else " "

/-- The three digits of the fraction, whatever is above them dropped. -/
def fractionDigits (number : FixedPoint) : List Char :=
  [100, 10, 1].map fun unit => Nat.digitChar (number.fraction.toNat / unit % 10)

def text (number : FixedPoint) : String :=
  number.sign ++ Numeral.decimal number.whole.toNat ++ "." ++ String.ofList number.fractionDigits

/-- The number with its whole fraction behind the point, at least three digits wide. -/
def paddedText (number : FixedPoint) : String :=
  number.sign ++ Numeral.decimal number.whole.toNat ++ "." ++
    Numeral.padded 3 number.fraction.toNat

def line (name : String) (value : Float32) : String :=
  name ++ ": " ++ (ofFloat value).text ++ "\n"

end FixedPoint

end VectorBench
