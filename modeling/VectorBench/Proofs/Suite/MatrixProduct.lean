import VectorBench.Proofs.Matrix.InPlace
import VectorBench.Suite.Scenarios

/-!
# Matrix products of random entries

The suite on matrix products draws its entries at random and passes whatever is
drawn: both kernels compute the same product.  Their cycles depend on the size
alone, so the whole report is the same for every source and seed.
-/

namespace VectorBench

open SquareMatrix

variable {σ ι τ : Type} {size : Nat}

/-! ### Equal tables -/

section Tables

variable [BEq τ] [ReflBEq τ]

theorem Report.record_same (report : Report ι τ) (input : ι) (answer : τ) :
    report.record input answer answer =
      { report with compared := report.compared + 1 } := by
  rw [Report.record, if_pos (BEq.refl answer)]

/-- A table compared with itself counts its inputs and nothing else. -/
theorem Report.foldl_record_same (report : Report ι τ) {inputs : List ι}
    {answers : List τ} (lengths : answers.length = inputs.length) :
    (inputs.zip (answers.zip answers)).foldl
        (fun report (input, got, expected) => report.record input got expected)
        report =
      { report with compared := report.compared + inputs.length } := by
  induction inputs generalizing report answers with
  | nil => rfl
  | cons input inputs ih =>
      obtain ⟨answer, answers, rfl⟩ :=
        List.exists_cons_of_length_eq_add_one lengths
      have later := ih (report.record input answer answer)
        (Nat.succ.inj lengths)
      rw [Report.record_same] at later
      simp only [List.zip_cons_cons, List.foldl_cons, Report.record_same, later,
        List.length_cons, Nat.add_assoc, Nat.add_comm 1]

theorem Report.ofTables_same {inputs : List ι} {answers : List τ}
    (lengths : answers.length = inputs.length) :
    Report.ofTables inputs answers answers =
      { (Report.empty : Report ι τ) with compared := inputs.length } := by
  rw [Report.ofTables, Report.foldl_record_same _ lengths]
  exact congrArg (fun compared => { Report.empty with compared })
    (Nat.zero_add inputs.length)

end Tables

/-! ### Kernels side by side -/

theorem length_flatten_rowLists (matrix : SquareMatrix size) :
    matrix.rowLists.flatten.length = size * size := by
  have each : ∀ row ∈ matrix.rowLists, row.length = size :=
    fun _row member => length_of_mem_rowLists member
  rw [List.length_flatten, List.map_congr_left each, List.map_const',
    List.sum_replicate, length_rowLists, smul_eq_mul]

section Kernels

variable [Clocked σ]

/-- The state that the scalar kernel leaves. -/
def scalarRan (size : Nat) (state : σ) : σ :=
  Clocked.advance (4 * size ^ 3) state

/-- The state that the vector kernel leaves. -/
def vectorRan (size : Nat) (state : σ) : σ :=
  Clocked.advance (6 * size ^ 2 * (size ⌈/⌉ 16)) state

/-- No entry differs, and each kernel takes its cycles. -/
def kernelReport (size : Nat) (state : σ) : Report Nat Word where
  compared := size * size
  errors := 0
  mismatches := #[]
  scalarSpan := some
    { start := (Clocked.clock state).now
      stop := (Clocked.clock (scalarRan size state)).now }
  vectorSpan := some
    { start := (Clocked.clock (scalarRan size state)).now
      stop := (Clocked.clock (vectorRan size (scalarRan size state))).now }

theorem compareKernels_eq (a b : SquareMatrix size) (state : σ) :
    compareKernels a b state =
      (.ok (kernelReport size state), vectorRan size (scalarRan size state)) := by
  have lengths : (a.product b).rowLists.flatten.length =
      (List.range (size * size)).length := by
    rw [length_flatten_rowLists, List.length_range]
  simp only [compareKernels, compareBatch, CycleSpan.measure,
    scalarProduct_fst, vectorProduct_fst, scalarProduct_snd, vectorProduct_snd,
    Except.map, lengths, ne_eq, not_true_eq_false, or_self, if_false,
    Report.ofTables_same lengths, List.length_range]
  rfl

end Kernels

/-- On a clock, the comparison is that of the kernels in place. -/
theorem compareKernels_inPlace (a b : Vector Word (size * size))
    (clock : Clock) :
    compareKernels (ofRowMajor size a.toArray) (ofRowMajor size b.toArray)
        clock =
      compareBatch (fun _ => scalarProductInPlace a b)
        (fun _ => vectorProductInPlace a b) (List.range (size * size))
        clock := by
  have kernels := kernelsInPlace_eq a b
  have scalar : scalarProductInPlace a b = _ :=
    funext fun clock => (kernels clock).1
  have vector : vectorProductInPlace a b = _ :=
    funext fun clock => (kernels clock).2
  rw [scalar, vector]
  rfl

/-- The suite on matrix products passes whatever entries are drawn, and its
report depends on the size and on the clock alone. -/
theorem mmSuite_passes [Clocked σ] (source : RandomSource) (size seed : Nat)
    (bench : Bench σ) :
    let started := bench.say "performing integer matrix multiplication...\n"
    mmSuite source size seed bench =
      (.ok true, (vectorRan size (scalarRan size started)).sayAll
        (kernelReportLines size (kernelReport size started))) := by
  intro started
  simp only [mmSuite, compareKernels_eq]
  rfl

end VectorBench
