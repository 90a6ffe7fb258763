import VectorBench.Hart.Config
import VectorBench.Suite.Name
import VectorBench.Text.Numeral

/-!
# Options

What the command line selects: a suite, the machine it runs on, and its parameters.
-/

namespace VectorBench

inductive BindingMode where
  | hardware
  | software
deriving DecidableEq, Repr

def BindingMode.name : BindingMode → String
  | .hardware => "hw"
  | .software => "sw"

structure Options where
  suite : Suite
  mode : BindingMode
  hwOps : OperationSet
  fault : Option Word
  /-- Comparisons between two progress lines. -/
  progress : Nat
  seed : Nat
  size : Nat
deriving DecidableEq, Repr

inductive HelpTopic where
  | program
  | suite (suite : Suite)
  | helpCommand
deriving DecidableEq, Repr

inductive UsageError where
  | helpRequested (topic : HelpTopic)
  | nothingGiven
  | missingSuite
  /-- A word is neither an option nor a suite, or there is no room for it. -/
  | unknownArgument
  | unknownSuite
  | unneededValue
  | missingValue
  | impossibleValue
  | invalidNumber
  | repeatedOption
deriving DecidableEq, Repr

inductive CommandError where
  | usage (error : UsageError)
  /-- The faulty operation is not an operation code. -/
  | faultOutOfRange (operation : Word)
deriving DecidableEq, Repr

def faultOutOfRangeMessage (operation : Word) : String :=
  "Fault operation " ++ Numeral.decimal operation.toNat ++ " is not a funct3 value"

inductive OptionName where
  | mode
  | hwOps
  | fault
  | progress
  | seed
  | size
deriving DecidableEq, Repr

namespace OptionName

def every : List OptionName := [.mode, .hwOps, .fault, .progress, .seed, .size]

def text : OptionName → String
  | .mode => "mode"
  | .hwOps => "hw-ops"
  | .fault => "fault"
  | .progress => "progress"
  | .seed => "seed"
  | .size => "size"

def ofText? (text : String) : Option OptionName :=
  every.find? (·.text = text)

end OptionName

/-- A plain count: decimal digits, with an optional plus sign. -/
def readCount? (text : String) : Option Nat :=
  let digits :=
    match text.toList with
    | '+' :: digits => digits
    | digits => digits
  if digits.isEmpty then none
  else
    (digits.mapM (Numeral.digitValue? 10)).map fun values =>
      values.foldl (fun count digit => count * 10 + digit) 0

/-- A seed: a count of at most 64 bits. -/
def readSeed? (text : String) : Option Nat :=
  (readCount? text).filter (· ≤ 0xffffffffffffffff)

/-- A matrix size: a count from 1 to 256. -/
def readSize? (text : String) : Option Nat :=
  (readCount? text).filter fun size => 1 ≤ size && size ≤ 256

def OptionName.objection? (name : OptionName) (value : String) : Option UsageError :=
  match name with
  | .mode => if value = "hw" ∨ value = "sw" then none else some .impossibleValue
  | .seed => if (readSeed? value).isSome then none else some .invalidNumber
  | .size => if (readSize? value).isSome then none else some .invalidNumber
  | .hwOps | .fault | .progress => none

end VectorBench
