import VectorBench.Comparison.Basic
import VectorBench.Matrix.Kernels
import VectorBench.Suite.Bench
import VectorBench.Text.FixedPoint

/-!
# Vector unit suites

Suites on the software vector unit itself: a vector sum, a masked sum and the two matrix kernels.
-/

namespace VectorBench

variable {σ : Type}

def vectorAdd (a b : List (BitVec 16)) : Except Fault (List (BitVec 16)) :=
  let (_, unit) := VectorUnit.initial.vsetvl a.length (some .e16) (some .m2)
  match unit.runAll [(·.vle .e16 0 a), (·.vle .e16 2 b), (·.vadd 4 0 2)] with
  | (.error fault, _) => .error fault
  | (.ok (), unit) => unit.vse .e16 4 (List.replicate a.length 0)

/-- Compares elements from the vector unit with the expected ones, by place. -/
def compareElements {τ : Type} [DecidableEq τ] (got expected : List τ) :
    Except Fault (Report Nat τ) :=
  (compareBatch (fun _ clock => (expected, clock)) (fun _ clock => (.ok got, clock))
    (List.range expected.length) Clock.zero).1

def addFirst : List (BitVec 16) := [0, 1, 2, 3, 4, 5, 6, 7]

def addSecond : List (BitVec 16) := [1, 2, 3, 4, 5, 6, 7, 8]

def addLine (got expected : BitVec 16) : String :=
  "Got " ++ Numeral.decimal got.toNat ++ ", expected " ++ Numeral.decimal expected.toNat ++ "\n"

def addSuite (bench : Bench σ) : Except Fault Bool × Bench σ :=
  let expected := List.zipWith (· + ·) addFirst addSecond
  match vectorAdd addFirst addSecond with
  | .error fault => (.error fault, bench)
  | .ok got =>
      match compareElements got expected with
      | .error fault => (.error fault, bench)
      | .ok report =>
          (.ok report.passed, bench.sayAll
            (List.zipWith addLine got expected ++
              ["errors: " ++ Numeral.decimal report.errors ++ "\n", "Finished ADD test\n"]))

def maskElements : Nat := 8

/-- The constant that is added, and above which elements are masked off. -/
def maskConstant : Word := 2

/-- Adds a constant to the element numbers, and leaves zero where the number is above it. -/
def maskedAdd : Except Fault (List Word) :=
  let (_, unit) := VectorUnit.initial.vsetvl maskElements (some .e32) (some .m4)
  let operations : List (VectorUnit → Except Fault Unit × VectorUnit) :=
    [(·.vmoveScalar 4 maskConstant), (·.vid 8), (·.vmoveScalar 12 0), (·.vmsgt 1 8 4),
      (·.vmseq 2 4 4), (·.vmxor 3 1 2), (·.vaddMasked 16 3 12 4 8)]
  match unit.runAll operations with
  | (.error fault, _) => .error fault
  | (.ok (), unit) => unit.vse .e32 16 (List.replicate maskElements 0)

def maskExpected : List Word :=
  (List.range maskElements).map fun index =>
    let element := BitVec.ofNat 32 index
    if maskConstant.slt element then 0 else maskConstant + element

def maskLine (index : Nat) (got : Word) : String :=
  "result[" ++ Numeral.decimal index ++ "] = " ++ Numeral.integer got.toInt ++ "\n"

def maskSuite (bench : Bench σ) : Except Fault Bool × Bench σ :=
  match maskedAdd with
  | .error fault => (.error fault, bench)
  | .ok got =>
      match compareElements got maskExpected with
      | .error fault => (.error fault, bench)
      | .ok report =>
          (.ok report.passed, bench.sayAll
            (List.zipWith maskLine (List.range got.length) got ++
              ["errors: " ++ Numeral.decimal report.errors ++ "\n", "Finished MASK test\n"]))

def compareKernels [Clocked σ] {size : Nat} (a b : SquareMatrix size) (state : σ) :
    Except Fault (Report Nat Word) × σ :=
  compareBatch
    (fun _ state =>
      let (rows, cycles) := scalarProduct a b
      (rows.flatten, Clocked.advance cycles state))
    (fun _ state =>
      let (result, cycles) := vectorProduct a b
      (result.map List.flatten, Clocked.advance cycles state))
    (List.range (size * size)) state

def kernelMismatchLine (size : Nat) (mismatch : Mismatch Nat Word) : String :=
  "C[" ++ Numeral.decimal (mismatch.input / size) ++ "][" ++
    Numeral.decimal (mismatch.input % size) ++ "] = " ++ Numeral.integer mismatch.got.toInt ++
    ", expected " ++ Numeral.integer mismatch.expected.toInt ++ "\n"

def kernelReportLines (size : Nat) (report : Report Nat Word) : List String :=
  (if report.passed then ["Correct values from the matrix multiplication.\n"] else []) ++
    report.mismatches.toList.map (kernelMismatchLine size) ++ [report.summary] ++
    (report.speedup?.map fun speedup =>
      "Speedup: " ++ (FixedPoint.ofFloat speedup).text ++ "\n").toList

def mmSuite [Clocked σ] (source : RandomSource) (size seed : Nat) (bench : Bench σ) :
    Except Fault Bool × Bench σ :=
  let bench := bench.say "performing integer matrix multiplication...\n"
  let (a, state) := source.matrix size (source.ofSeed seed)
  let (b, _) := source.matrix size state
  match compareKernels a b bench with
  | (.error fault, bench) => (.error fault, bench)
  | (.ok report, bench) => (.ok report.passed, bench.sayAll (kernelReportLines size report))

end VectorBench
