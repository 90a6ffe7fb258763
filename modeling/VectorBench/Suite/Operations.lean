import VectorBench.Comparison.Basic
import VectorBench.Datapath
import VectorBench.Suite.Bench
import VectorBench.Sweep.PairSweep

/-!
# Operation suites

Suites on the operations of a machine: a table of results, comparisons with the software model and
with scalar arithmetic, operands from the console, and operations on vector registers.  A suite
passes when every result is as expected; a fault of the machine ends it.
-/

namespace VectorBench

variable {σ : Type} [VectorOps σ]

def fixedRow (operands : Word × Word) (bench : Bench σ) : Except Fault Unit × Bench σ :=
  match firstThree operands bench with
  | (.error fault, bench) => (.error fault, bench)
  | (.ok results, bench) =>
      (.ok (), bench.say (operandsText operands ++ ": " ++ Hex.marked results.op0 ++ ", " ++
        Hex.marked results.op1 ++ ", " ++ Hex.marked results.op2 ++ "\n"))

def fixedSuite (bench : Bench σ) : Except Fault Bool × Bench σ :=
  let bench := bench.sayAll
    ["RVV-Lite TEST for op0, 1 and 2:\n",
      "arg0        arg1        op0         op1         op2\n"]
  match forEach fixedRow fixedInputs bench with
  | (.error fault, bench) => (.error fault, bench)
  | (.ok (), bench) => (.ok true, bench)

def comparedOperands : PairSweep :=
  PairSweep.ofRanges (StepRange.ofBounds 0 0xff000000 0x710005)
    (StepRange.ofBounds 0 0xff000000 0xb100233)

def modelFirstThree (operands : Word × Word) : FirstThree where
  op0 := Datapath.model 0 0 operands.1 operands.2
  op1 := Datapath.model 1 0 operands.1 operands.2
  op2 := Datapath.model 2 0 operands.1 operands.2

def modelMismatchLine (mismatch : Mismatch (Word × Word) FirstThree) : String :=
  let versus (got expected : Word) : String := Hex.marked got ++ ":" ++ Hex.marked expected
  operandsText mismatch.input ++ ": " ++ versus mismatch.got.op0 mismatch.expected.op0 ++ ", " ++
    versus mismatch.got.op1 mismatch.expected.op1 ++ ", " ++
    versus mismatch.got.op2 mismatch.expected.op2 ++ " <<=== MISMATCH!\n"

def sayProgress (progress : Progress) (bench : Bench σ) : Bench σ :=
  bench.say ("Ran " ++ Numeral.decimal progress.compared ++ " comparisons....\n")

def modelReportLines (report : Report (Word × Word) FirstThree) : List String :=
  (if report.mismatches.isEmpty then []
    else ["arg0        arg1            fn0                     fn1                     fn2\n"]) ++
    report.mismatches.toList.map modelMismatchLine ++
    ["Ran " ++ Numeral.decimal report.compared ++ " comparisons.\n",
      "errors: " ++ Numeral.decimal report.errors ++ "\n"]

def compareSuite (progress : Nat) (bench : Bench σ) : Except Fault Bool × Bench σ :=
  let bench := bench.say "RVV-Lite COMPARE TEST for op0, 1, and 2:\n"
  match compareStreaming progress (fun operands bench => (modelFirstThree operands, bench))
      firstThree sayProgress comparedOperands.toList bench with
  | (.error fault, bench) => (.error fault, bench)
  | (.ok report, bench) => (.ok report.passed, bench.sayAll (modelReportLines report))

def scalarOpCycles : Nat := 1

def compareWithScalar [Clocked σ] (funct3 : Word) (state : σ) :
    Except Fault (Report (Word × Word) Word) × σ :=
  compareTimed
    (fun (a, b) state => (scalarReference funct3 a b, Clocked.advance scalarOpCycles state))
    (fun (a, b) => VectorOps.scalarOp funct3 0 a b) fixedInputs state

def scalarMismatchLine (mismatch : Mismatch (Word × Word) Word) : String :=
  "  " ++ operandsText mismatch.input ++ ": got " ++ Hex.marked mismatch.got ++ ", expected " ++
    Hex.marked mismatch.expected ++ "\n"

def scalarReportLines (funct3 : Word) (report : Report (Word × Word) Word) : List String :=
  ["op" ++ Numeral.decimal funct3.toNat ++ ":\n", report.summary] ++
    report.mismatches.toList.map scalarMismatchLine

def equivalenceOver [Clocked σ] : (codes : List Word) → Bench σ → Except Fault Bool × Bench σ
  | [], bench => (.ok true, bench)
  | funct3 :: codes, bench =>
      match compareWithScalar funct3 bench with
      | (.error fault, bench) => (.error fault, bench)
      | (.ok report, bench) =>
          match equivalenceOver codes (bench.sayAll (scalarReportLines funct3 report)) with
          | (.error fault, bench) => (.error fault, bench)
          | (.ok passed, bench) => (.ok (report.passed && passed), bench)

def equivalenceSuite [Clocked σ] (bench : Bench σ) : Except Fault Bool × Bench σ :=
  equivalenceOver [0, 1, 2] bench

def interactiveLine (funct3 a b result : Word) : String :=
  "rvv_op" ++ Numeral.decimal funct3.toNat ++ "(" ++ Hex.text a ++ ", " ++ Hex.text b ++ ") = " ++
    Hex.text result ++ " (hex), " ++ Numeral.integer result.toInt ++ " (signed), " ++
    Numeral.decimal result.toNat ++ " (unsigned)\n"

def operationCodes : List Word :=
  Operation.all.map Operation.funct3

def interactiveSuite (bench : Bench σ) : Except Fault Bool × Bench σ :=
  let bench := bench.say "RVV-Lite Interactive Test:\n"
  let (a, bench) := bench.ask "  First operand value  "
  let (b, bench) := bench.ask "  Second operand value "
  let row (funct3 : Word) (bench : Bench σ) : Except Fault Unit × Bench σ :=
    match VectorOps.scalarOp funct3 0 a b bench with
    | (.error fault, bench) => (.error fault, bench)
    | (.ok result, bench) => (.ok (), bench.say (interactiveLine funct3 a b result))
  match forEach row operationCodes bench with
  | (.error fault, bench) => (.error fault, bench)
  | (.ok (), bench) => (.ok true, bench)

def seedVs1 : VectorWords := #v[0x00010002, 0x80000001, 0xfffffffe, 0x12345678]

def seedVs2 : VectorWords := #v[0x00030004, 0x7fffffff, 0x00000003, 0x0f0f0f0f]

/-- Every supported operation at every element width, the widest elements first. -/
def vectorCases : List (ElementWidth × Operation) :=
  [ElementWidth.e32, .e16, .e8].flatMap fun width => Operation.all.map fun operation =>
    (width, operation)

def vectorLine (width : ElementWidth) (operation : Operation) (got expected : VectorWords) :
    String :=
  "rvv_opvv" ++ Numeral.decimal operation.funct3.toNat ++ ".e" ++ Numeral.decimal width.bits ++
    "(v1, v2, v3) =" ++ String.join (got.toList.map fun word => " " ++ Hex.text word) ++
    (if got = expected then "\n" else " <<=== MISMATCH!\n")

/-- Runs operations on the seeded vector registers, and says whether all went as the software model
has it. -/
def vectorCasesOver :
    List (ElementWidth × Operation) → Bench σ → Except Fault Bool × Bench σ
  | [], bench => (.ok true, bench)
  | (width, operation) :: cases, bench =>
      match VectorOps.vectorVector operation.funct3 width.funct7 1 2 3 bench with
      | (.error fault, bench) => (.error fault, bench)
      | (.ok got, bench) =>
          let expected := Datapath.model.onVectors operation.funct3 width.funct7 seedVs1 seedVs2
          match vectorCasesOver cases (bench.say (vectorLine width operation got expected)) with
          | (.error fault, bench) => (.error fault, bench)
          | (.ok passed, bench) => (.ok (got = expected && passed), bench)

def opvvSuite (bench : Bench σ) : Except Fault Bool × Bench σ :=
  let bench := bench.say "RVV-Lite OPVV Test:\n"
  let bench := VectorOps.writeRegister 1 seedVs1 bench
  let bench := VectorOps.writeRegister 2 seedVs2 bench
  vectorCasesOver vectorCases bench

end VectorBench
