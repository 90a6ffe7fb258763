import VectorBench.Matrix.Basic
import VectorBench.VectorUnit.Arithmetic

/-!
# Matrix product kernels

Two ways to multiply matrices, each with the cycles it costs.  Both build a row of the product by
adding multiples of the rows of the second matrix; one does so entry by entry, the other in strips
of as many entries as the vector unit takes at once.  Rows are lists of their own here;
`kernelsInPlace_eq` is about the same kernels on entries that all stand in one list.
-/

namespace VectorBench

def scalarMacCycles : Nat := 4

def vectorInstructionCycles : Nat := 1

def stripInstructions : Nat := 6

/-- Adds multiples of the rows of a matrix to a row, one multiple for each entry of `factors`: the
sum and its cycles. -/
def scalarRow (factors : List Word) (rows : List (List Word)) (row : List Word) : List Word × Nat :=
  (factors.zip rows).foldl
    (fun (row, cycles) (factor, source) =>
      (List.zipWith (fun entry term => Word.plus entry (Word.times factor term)) row source,
        cycles + row.length * scalarMacCycles))
    (row, 0)

def scalarProduct {size : Nat} (a b : SquareMatrix size) : List (List Word) × Nat :=
  let results := a.rowLists.map fun factors =>
    scalarRow factors b.rowLists (List.replicate size 0)
  (results.map (·.1), (results.map (·.2)).foldr (· + ·) 0)

structure VectorRun where
  unit : VectorUnit
  cycles : Nat

namespace VectorUnit

def runAll : List (VectorUnit → Except Fault Unit × VectorUnit) → VectorUnit →
    Except Fault Unit × VectorUnit
  | [], unit => (.ok (), unit)
  | operation :: operations, unit =>
      match operation unit with
      | (.ok (), unit) => runAll operations unit
      | (.error fault, unit) => (.error fault, unit)

/-- Adds `factor` times the first entries of `source` to those of `row`, as many as the vector
length: the row afterwards. -/
def accumulateStrip (factor : Word) (source row : List Word) (unit : VectorUnit) :
    Except Fault (List Word) × VectorUnit :=
  let operations : List (VectorUnit → Except Fault Unit × VectorUnit) :=
    [(·.vle .e32 0 source), (·.vle .e32 4 row), (·.vmulScalar 8 0 factor), (·.vadd 4 4 8)]
  match runAll operations unit with
  | (.ok (), unit) => (unit.vse .e32 4 row, unit)
  | (.error fault, unit) => (.error fault, unit)

theorem vsetvl_some {unit configured : VectorUnit} {avl vl : Nat} {sew : ElementWidth} {lmul : Lmul}
    (accepted : unit.vsetvl avl (some sew) (some lmul) = (.ok vl, configured)) :
    vl = min avl (vlmax sew lmul) := by
  simp only [vsetvl, Prod.mk.injEq, Except.ok.injEq] at accepted
  exact accepted.1.symm

end VectorUnit

def accumulateRow (factor : Word) (source row : List Word) (run : VectorRun) :
    Except Fault (List Word) × VectorRun :=
  if row = [] then (.ok [], run)
  else
    match _configured : run.unit.vsetvl row.length (some .e32) (some .m4) with
    | (.error fault, unit) => (.error fault, { run with unit })
    | (.ok vl, unit) =>
        match unit.accumulateStrip factor source row with
        | (.error fault, unit) => (.error fault, { run with unit })
        | (.ok stored, unit) =>
            let cycles := run.cycles + stripInstructions * vectorInstructionCycles
            match accumulateRow factor (source.drop vl) (row.drop vl) { unit, cycles } with
            | (.error fault, run) => (.error fault, run)
            | (.ok rest, run) => (.ok (stored.take vl ++ rest), run)
termination_by row.length
decreasing_by
  have positive := vlmax_pos .e32 .m4
  have nonempty : 0 < row.length := List.length_pos_iff.2 ‹_›
  rw [VectorUnit.vsetvl_some _configured, List.length_drop]
  omega

def vectorRow : (terms : List (Word × List Word)) → (row : List Word) → VectorRun →
    Except Fault (List Word) × VectorRun
  | [], row, run => (.ok row, run)
  | (factor, source) :: terms, row, run =>
      match accumulateRow factor source row run with
      | (.error fault, run) => (.error fault, run)
      | (.ok row, run) => vectorRow terms row run

def vectorRows (size : Nat) (rows : List (List Word)) : (factors : List (List Word)) → VectorRun →
    Except Fault (List (List Word)) × VectorRun
  | [], run => (.ok [], run)
  | factors :: further, run =>
      match vectorRow (factors.zip rows) (List.replicate size 0) run with
      | (.error fault, run) => (.error fault, run)
      | (.ok row, run) =>
          match vectorRows size rows further run with
          | (.error fault, run) => (.error fault, run)
          | (.ok others, run) => (.ok (row :: others), run)

def vectorProduct {size : Nat} (a b : SquareMatrix size) : Except Fault (List (List Word)) × Nat :=
  let (result, run) :=
    vectorRows size b.rowLists a.rowLists { unit := VectorUnit.initial, cycles := 0 }
  (result, run.cycles)

end VectorBench
