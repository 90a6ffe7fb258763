import VectorBench.Text.Numeral

/-!
# Rounded decimals

A single precision float is written with a fixed number of places.  Its exact value is rounded to
the nearest such decimal, and a value half way between two goes to the even one.
-/

namespace VectorBench.RoundedDecimal

/-- The quotient of two numbers, rounded to the nearest, half way cases to the even one. -/
def divideToEven (dividend divisor : Nat) : Nat :=
  let quotient := dividend / divisor
  let twice := 2 * (dividend % divisor)
  if divisor < twice ∨ (twice = divisor ∧ quotient % 2 = 1) then quotient + 1 else quotient

/-- A finite float, as a multiple of a power of two. -/
structure Scaled where
  mantissa : Nat
  exponent : Int
deriving DecidableEq, Repr

def Scaled.ofBits (bits : BitVec 32) : Scaled :=
  let exponent := (bits.extractLsb' 23 8).toNat
  let fraction := (bits.extractLsb' 0 23).toNat
  if exponent = 0 then { mantissa := fraction, exponent := -149 }
  else { mantissa := fraction + 0x800000, exponent := (exponent : Int) - 150 }

/-- The magnitude in units of `10 ^ (-places)`, rounded. -/
def Scaled.units (scaled : Scaled) (places : Nat) : Nat :=
  match scaled.exponent with
  | .ofNat power => scaled.mantissa * Nat.pow 2 power * Nat.pow 10 places
  | .negSucc power => divideToEven (scaled.mantissa * Nat.pow 10 places) (Nat.pow 2 (power + 1))

def unitsText (places units : Nat) : String :=
  Numeral.decimal (units / Nat.pow 10 places) ++ "." ++
    Numeral.padded places (units % Nat.pow 10 places)

def text (places : Nat) (value : Float32) : String :=
  let bits := value.toBits.toBitVec
  let sign := if bits.getLsbD 31 then "-" else ""
  if bits.extractLsb' 23 8 = BitVec.allOnes 8 then
    if bits.extractLsb' 0 23 = 0 then sign ++ "inf" else "NaN"
  else sign ++ unitsText places ((Scaled.ofBits bits).units places)

end VectorBench.RoundedDecimal
