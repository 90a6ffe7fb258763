import VectorBench.Clock
import VectorBench.Text.RoundedDecimal

/-!
# Comparison reports

A report counts the inputs on which a device was compared with a reference, and keeps one record
for every input on which the two differ, in input order.
-/

namespace VectorBench

structure Mismatch (ι τ : Type) where
  index : Nat
  input : ι
  /-- The result of the device. -/
  got : τ
  /-- The result of the reference. -/
  expected : τ
deriving DecidableEq, Repr

structure Progress where
  compared : Nat
  errors : Nat
deriving DecidableEq, Repr

structure Report (ι τ : Type) where
  compared : Nat
  errors : Nat
  /-- One record for each such input, in input order. -/
  mismatches : Array (Mismatch ι τ)
  scalarSpan : Option CycleSpan
  vectorSpan : Option CycleSpan
deriving DecidableEq, Repr

namespace Report

variable {ι τ : Type}

def empty : Report ι τ where
  compared := 0
  errors := 0
  mismatches := #[]
  scalarSpan := none
  vectorSpan := none

def record [BEq τ] (report : Report ι τ) (input : ι) (got expected : τ) : Report ι τ :=
  if got == expected then { report with compared := report.compared + 1 }
  else
    { report with
      compared := report.compared + 1
      errors := report.errors + 1
      mismatches := report.mismatches.push { index := report.compared, input, got, expected } }

def progress (report : Report ι τ) : Progress where
  compared := report.compared
  errors := report.errors

def passed (report : Report ι τ) : Bool :=
  report.errors = 0

/-- The cycles of the reference over those of the device, in single precision.  There is no such
number without timings, or when the device took no cycles. -/
def speedup? (report : Report ι τ) : Option Float32 :=
  match report.scalarSpan, report.vectorSpan with
  | some scalar, some vector =>
      if vector.elapsed = 0 then none
      else
        some ((UInt64.ofNat scalar.elapsed).toFloat32 / (UInt64.ofNat vector.elapsed).toFloat32)
  | _, _ => none

def spanLine (label : String) (span : CycleSpan) : String :=
  label ++ ": " ++ Numeral.decimal span.elapsed ++ "\n"

def summary (report : Report ι τ) : String :=
  "compared: " ++ Numeral.decimal report.compared ++ "\n" ++
    "errors: " ++ Numeral.decimal report.errors ++ "\n" ++
    (report.scalarSpan.map (spanLine "scalar cycles")).getD "" ++
    (report.vectorSpan.map (spanLine "vector cycles")).getD "" ++
    (report.speedup?.map fun speedup =>
      "speedup: " ++ RoundedDecimal.text 3 speedup ++ "\n").getD ""

end Report

end VectorBench
