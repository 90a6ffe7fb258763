import Mathlib.Algebra.Order.Floor.Div
import Mathlib.GroupTheory.GroupAction.Ring
import Mathlib.Tactic.Ring
import VectorBench.Clock
import VectorBench.Proofs.Matrix.Product

/-!
# Cycles of the matrix kernels

Each kernel on a clock of its own: the scalar kernel moves the clock at every
entry, the vector kernel at every strip.  A clock that stops at its largest
count shows the same in the end as if all cycles were counted at once.
-/

namespace VectorBench

variable {size : Nat}

/-! ### Kernels on a clock -/

/-- Adds a multiple of a row to another one.  Every entry moves the clock. -/
def accumulateEntriesOn (factor : Word) :
    (source row : List Word) → Clock → List Word × Clock
  | term :: source, entry :: row, clock =>
      let sum := Word.plus entry (Word.times factor term)
      let (sums, clock) := accumulateEntriesOn factor source row
        (clock.advance scalarMacCycles)
      (sum :: sums, clock)
  | _, _, clock => ([], clock)

/-- The row of a product, term by term. -/
def scalarRowOn :
    (terms : List (Word × List Word)) → (row : List Word) → Clock →
      List Word × Clock
  | [], row, clock => (row, clock)
  | (factor, source) :: terms, row, clock =>
      let (row, clock) := accumulateEntriesOn factor source row clock
      scalarRowOn terms row clock

def scalarRowsOn (size : Nat) (rows : List (List Word)) :
    (factors : List (List Word)) → Clock → List (List Word) × Clock
  | [], clock => ([], clock)
  | factors :: further, clock =>
      let (row, clock) :=
        scalarRowOn (factors.zip rows) (List.replicate size 0) clock
      let (others, clock) := scalarRowsOn size rows further clock
      (row :: others, clock)

/-- The product of two matrices, entry by entry on a clock. -/
def scalarProductOn (a b : SquareMatrix size) (clock : Clock) :
    List (List Word) × Clock :=
  scalarRowsOn size b.rowLists a.rowLists clock

/-- Adds a multiple of a row to another one.  Every strip moves the clock. -/
def accumulateRowOn (factor : Word) (source row : List Word)
    (unit : VectorUnit) (clock : Clock) :
    Except Fault (List Word) × VectorUnit × Clock :=
  if row = [] then (.ok [], unit, clock)
  else
    match _configured : unit.vsetvl row.length (some .e32) (some .m4) with
    | (.error fault, unit) => (.error fault, unit, clock)
    | (.ok vl, unit) =>
        match unit.accumulateStrip factor source row with
        | (.error fault, unit) => (.error fault, unit, clock)
        | (.ok stored, unit) =>
            match accumulateRowOn factor (source.drop vl) (row.drop vl) unit
                (clock.advance (stripInstructions * vectorInstructionCycles)) with
            | (.error fault, unit, clock) => (.error fault, unit, clock)
            | (.ok rest, unit, clock) =>
                (.ok (stored.take vl ++ rest), unit, clock)
termination_by row.length
decreasing_by
  have positive := vlmax_pos .e32 .m4
  have nonempty : 0 < row.length := List.length_pos_iff.2 ‹_›
  rw [VectorUnit.vsetvl_some _configured, List.length_drop]
  omega

/-- The row of a product, term by term, up to the first fault. -/
def vectorRowOn :
    (terms : List (Word × List Word)) → (row : List Word) → VectorUnit →
      Clock → Except Fault (List Word) × VectorUnit × Clock
  | [], row, unit, clock => (.ok row, unit, clock)
  | (factor, source) :: terms, row, unit, clock =>
      match accumulateRowOn factor source row unit clock with
      | (.error fault, unit, clock) => (.error fault, unit, clock)
      | (.ok row, unit, clock) => vectorRowOn terms row unit clock

def vectorRowsOn (size : Nat) (rows : List (List Word)) :
    (factors : List (List Word)) → VectorUnit → Clock →
      Except Fault (List (List Word)) × VectorUnit × Clock
  | [], unit, clock => (.ok [], unit, clock)
  | factors :: further, unit, clock =>
      match vectorRowOn (factors.zip rows) (List.replicate size 0) unit clock
          with
      | (.error fault, unit, clock) => (.error fault, unit, clock)
      | (.ok row, unit, clock) =>
          match vectorRowsOn size rows further unit clock with
          | (.error fault, unit, clock) => (.error fault, unit, clock)
          | (.ok others, unit, clock) => (.ok (row :: others), unit, clock)

/-- The product of two matrices in strips, on a clock. -/
def vectorProductOn (a b : SquareMatrix size) (clock : Clock) :
    Except Fault (List (List Word)) × Clock :=
  let (result, _, clock) :=
    vectorRowsOn size b.rowLists a.rowLists VectorUnit.initial clock
  (result, clock)

/-! ### The scalar kernel -/

section Scalar

variable {terms : List (Word × List Word)} {row : List Word}

theorem accumulateEntriesOn_eq (factor : Word) {source row : List Word}
    (covered : row.length ≤ source.length) (clock : Clock) :
    accumulateEntriesOn factor source row clock =
      (addMultiple factor source row,
        clock.advance (row.length * scalarMacCycles)) := by
  induction row generalizing source clock with
  | nil =>
      rw [List.length_nil, Nat.zero_mul, Clock.advance_zero]
      cases source <;> rfl
  | cons entry row ih =>
      cases source with
      | nil => simp at covered
      | cons term source =>
          have coversRest : row.length ≤ source.length := by
            simpa using covered
          simp only [accumulateEntriesOn, ih coversRest, Clock.advance_advance,
            List.length_cons, Nat.succ_mul, Nat.add_comm scalarMacCycles]
          rfl

theorem scalarRowOn_eq
    (covered : ∀ term ∈ terms, row.length ≤ term.2.length) (clock : Clock) :
    scalarRowOn terms row clock =
      (addMultiples terms row,
        clock.advance (terms.length * (row.length * scalarMacCycles))) := by
  induction terms generalizing row clock with
  | nil =>
      rw [List.length_nil, Nat.zero_mul, Clock.advance_zero]
      rfl
  | cons term terms ih =>
      have coversFirst := covered term List.mem_cons_self
      simp only [scalarRowOn, accumulateEntriesOn_eq term.1 coversFirst,
        ih (covers_addMultiple covered), length_addMultiple term.1 coversFirst,
        Clock.advance_advance, List.length_cons, Nat.succ_mul,
        Nat.add_comm (row.length * scalarMacCycles)]
      rfl

/-- The scalar kernel counts the cycles of a row as the clock does. -/
theorem scalarRow_snd {factors : List Word} {rows : List (List Word)}
    (covered : ∀ term ∈ factors.zip rows, row.length ≤ term.2.length) :
    (scalarRow factors rows row).2 =
      (factors.zip rows).length * (row.length * scalarMacCycles) := by
  unfold scalarRow
  generalize factors.zip rows = terms at covered
  rw [← Nat.zero_add (terms.length * _)]
  generalize 0 = cycles
  induction terms generalizing row cycles with
  | nil => simp
  | cons term terms ih =>
      have coversFirst := covered term List.mem_cons_self
      have counted := ih (covers_addMultiple covered)
        (cycles + row.length * scalarMacCycles)
      rw [length_addMultiple term.1 coversFirst] at counted
      rw [List.length_cons, Nat.succ_mul]
      exact counted.trans (by omega)

theorem scalarRowsOn_eq {rows : List (List Word)} {factors : List (List Word)}
    (covered : ∀ source ∈ rows, size ≤ source.length)
    (lengths : ∀ row ∈ factors, (row.zip rows).length = size)
    (clock : Clock) :
    scalarRowsOn size rows factors clock =
      (factors.map fun row =>
          addMultiples (row.zip rows) (List.replicate size 0),
        clock.advance
          (factors.length * (size * (size * scalarMacCycles)))) := by
  induction factors generalizing clock with
  | nil =>
      rw [List.length_nil, Nat.zero_mul, Clock.advance_zero]
      rfl
  | cons row factors ih =>
      have coversTerms := covers_zip row covered
      have lengthsRest : ∀ row ∈ factors, (row.zip rows).length = size :=
        fun row member => lengths row (List.mem_cons_of_mem _ member)
      simp only [scalarRowsOn, scalarRowOn_eq coversTerms, ih lengthsRest,
        lengths row List.mem_cons_self, List.length_replicate,
        Clock.advance_advance, List.map_cons, List.length_cons, Nat.succ_mul,
        Nat.add_comm (size * (size * scalarMacCycles))]

end Scalar

/-! ### The vector kernel -/

section Vector

variable {factor : Word} {source row : List Word}

/-- What a clock shows that stood at `clock` when a run began. -/
def VectorRun.shownOn (clock : Clock) (run : VectorRun) :
    VectorUnit × Clock :=
  (run.unit, clock.advance run.cycles)

theorem accumulateRowOn_strip {vl : Nat} {unit next : VectorUnit}
    (nonempty : row ≠ [])
    (configured : unit.vsetvl row.length (some .e32) (some .m4) =
      (.ok vl, next)) (clock : Clock) :
    accumulateRowOn factor source row unit clock =
      match next.accumulateStrip factor source row with
      | (.error fault, unit) => (.error fault, unit, clock)
      | (.ok stored, unit) =>
          match accumulateRowOn factor (source.drop vl) (row.drop vl) unit
              (clock.advance (stripInstructions * vectorInstructionCycles)) with
          | (.error fault, unit, clock) => (.error fault, unit, clock)
          | (.ok rest, unit, clock) =>
              (.ok (stored.take vl ++ rest), unit, clock) := by
  rw [accumulateRowOn, if_neg nonempty]
  split
  case h_1 refused => cases configured.symm.trans refused
  case h_2 accepted =>
    cases configured.symm.trans accepted
    rfl

/-- The strips of a row on a clock, and counted first. -/
theorem accumulateRowOn_eq (factor : Word) (source row : List Word)
    (run : VectorRun) (clock : Clock) :
    accumulateRowOn factor source row run.unit (clock.advance run.cycles) =
      Prod.map id (VectorRun.shownOn clock)
        (accumulateRow factor source row run) := by
  fun_induction accumulateRow factor source row run with
  | case1 source run =>
      rw [accumulateRowOn, if_pos rfl]
      rfl
  | case2 source row run nonempty fault unit configured => cases configured
  | case3 source row run nonempty vl next configured fault unit failed =>
      rw [accumulateRowOn_strip nonempty configured, failed]
      rfl
  | case4 source row run nonempty vl next configured stored unit ran cycles
      fault after further ih =>
      rw [further, ← Clock.advance_advance] at ih
      rw [accumulateRowOn_strip nonempty configured, ran]
      simp only [ih]
      rfl
  | case5 source row run nonempty vl next configured stored unit ran cycles
      rest after further ih =>
      rw [further, ← Clock.advance_advance] at ih
      rw [accumulateRowOn_strip nonempty configured, ran]
      simp only [ih]
      rfl

theorem vectorRowOn_eq (terms : List (Word × List Word)) (row : List Word)
    (run : VectorRun) (clock : Clock) :
    vectorRowOn terms row run.unit (clock.advance run.cycles) =
      Prod.map id (VectorRun.shownOn clock) (vectorRow terms row run) := by
  induction terms generalizing row run with
  | nil => rfl
  | cons term terms ih =>
      rw [vectorRowOn, accumulateRowOn_eq, vectorRow]
      rcases accumulateRow term.1 term.2 row run with ⟨_ | sums, next⟩
      · rfl
      · exact ih sums next

theorem vectorRowsOn_eq (size : Nat) (rows factors : List (List Word))
    (run : VectorRun) (clock : Clock) :
    vectorRowsOn size rows factors run.unit (clock.advance run.cycles) =
      Prod.map id (VectorRun.shownOn clock)
        (vectorRows size rows factors run) := by
  induction factors generalizing run with
  | nil => rfl
  | cons row factors ih =>
      rw [vectorRowsOn, vectorRowOn_eq, vectorRows]
      rcases vectorRow (row.zip rows) (List.replicate size 0) run
        with ⟨_ | sums, next⟩
      · rfl
      · simp only [Prod.map, VectorRun.shownOn, id, ih next]
        rcases vectorRows size rows factors next with ⟨_ | others, after⟩
        · rfl
        · rfl

/-! ### Strips -/

/-- One strip less is left behind the first one. -/
theorem ceilDiv_strips {length : Nat} (positive : 0 < length) :
    (length - min length (vlmax .e32 .m4)) ⌈/⌉ 16 + 1 = length ⌈/⌉ 16 := by
  have capacity : vlmax .e32 .m4 = 16 := rfl
  rw [Nat.ceilDiv_eq_add_pred_div, Nat.ceilDiv_eq_add_pred_div, capacity]
  omega

/-- A row that succeeds costs as much as its strips. -/
theorem cycles_accumulateRow (factor : Word) (source row : List Word)
    (run : VectorRun) {after : VectorRun} :
    ∀ {sums : List Word},
      accumulateRow factor source row run = (.ok sums, after) →
      after.cycles = run.cycles + row.length ⌈/⌉ 16 * 6 := by
  fun_induction accumulateRow factor source row run with
  | case1 source run =>
      intro sums ran
      cases ran
      rw [List.length_nil, zero_ceilDiv, Nat.zero_mul, Nat.add_zero]
  | case2 => exact fun ran => nomatch ran
  | case3 => exact fun ran => nomatch ran
  | case4 => exact fun ran => nomatch ran
  | case5 source row run nonempty vl next configured stored unit stores cycles
      rest later further =>
      rename_i ih
      intro sums ran
      cases ran
      have strips := ceilDiv_strips (List.length_pos_iff.mpr nonempty)
      have counted := ih further
      rw [VectorUnit.vsetvl_some configured, List.length_drop] at counted
      calc
        after.cycles = run.cycles + 6 + (row.length -
            min row.length (vlmax .e32 .m4)) ⌈/⌉ 16 * 6 := counted
        _ = run.cycles + row.length ⌈/⌉ 16 * 6 := by
          rw [← strips]
          omega

theorem cycles_vectorRow {terms : List (Word × List Word)} {sums : List Word}
    {run after : VectorRun}
    (covered : ∀ term ∈ terms, row.length ≤ term.2.length)
    (ran : vectorRow terms row run = (.ok sums, after)) :
    after.cycles =
      run.cycles + terms.length * (row.length ⌈/⌉ 16 * 6) := by
  induction terms generalizing row run with
  | nil =>
      cases ran
      rw [List.length_nil, Nat.zero_mul, Nat.add_zero]
  | cons term terms ih =>
      have coversFirst := covered term List.mem_cons_self
      obtain ⟨next, first⟩ := accumulateRow_eq term.1 run coversFirst
      rw [vectorRow, first] at ran
      have counted := ih (covers_addMultiple covered) ran
      rw [length_addMultiple term.1 coversFirst,
        cycles_accumulateRow _ _ _ _ first] at counted
      rw [counted, List.length_cons, Nat.succ_mul]
      omega

theorem cycles_vectorRows {rows factors : List (List Word)}
    {sums : List (List Word)} {run after : VectorRun}
    (covered : ∀ source ∈ rows, size ≤ source.length)
    (lengths : ∀ row ∈ factors, (row.zip rows).length = size)
    (ran : vectorRows size rows factors run = (.ok sums, after)) :
    after.cycles =
      run.cycles + factors.length * (size * (size ⌈/⌉ 16 * 6)) := by
  induction factors generalizing sums run with
  | nil =>
      cases ran
      rw [List.length_nil, Nat.zero_mul, Nat.add_zero]
  | cons row factors ih =>
      have coversTerms := covers_zip row covered
      obtain ⟨next, first⟩ := vectorRow_eq run coversTerms
      obtain ⟨last, rest⟩ := vectorRows_eq factors next covered
      rw [vectorRows, first] at ran
      simp only [rest] at ran
      cases ran
      have counted := ih (fun row member =>
        lengths row (List.mem_cons_of_mem _ member)) rest
      rw [cycles_vectorRow coversTerms first, lengths row List.mem_cons_self,
        List.length_replicate] at counted
      rw [counted, List.length_cons, Nat.succ_mul]
      omega

end Vector

/-! ### Whole matrices -/

namespace SquareMatrix

theorem length_rowLists (matrix : SquareMatrix size) :
    matrix.rowLists.length = size := by
  rw [rowLists, List.length_map, Vector.length_toList]

theorem covers_rowLists (matrix : SquareMatrix size) :
    ∀ row ∈ matrix.rowLists, size ≤ row.length :=
  fun _row member => (length_of_mem_rowLists member).ge

theorem length_zip_rowLists (a b : SquareMatrix size) :
    ∀ row ∈ a.rowLists, (row.zip b.rowLists).length = size := by
  intro row member
  rw [List.length_zip, length_of_mem_rowLists member, length_rowLists,
    Nat.min_self]

theorem scalarProduct_snd (a b : SquareMatrix size) :
    (scalarProduct a b).2 = 4 * size ^ 3 := by
  have each : ∀ row ∈ a.rowLists,
      (scalarRow row b.rowLists (List.replicate size 0)).2 =
        size * (size * 4) := by
    intro row member
    rw [scalarRow_snd (covers_zip row (covers_rowLists b)),
      length_zip_rowLists a b row member, List.length_replicate]
    rfl
  have total : (scalarProduct a b).2 =
      (a.rowLists.map fun row =>
        (scalarRow row b.rowLists (List.replicate size 0)).2).sum :=
    congrArg List.sum List.map_map
  rw [total, List.map_congr_left each, List.map_const', List.sum_replicate,
    length_rowLists, smul_eq_mul]
  ring

theorem vectorProduct_snd (a b : SquareMatrix size) :
    (vectorProduct a b).2 = 6 * size ^ 2 * (size ⌈/⌉ 16) := by
  obtain ⟨after, ran⟩ := vectorRows_eq a.rowLists
    { unit := VectorUnit.initial, cycles := 0 } (covers_rowLists b)
  have counted := cycles_vectorRows (covers_rowLists b)
    (length_zip_rowLists a b) ran
  rw [vectorProduct, ran]
  refine counted.trans ?_
  rw [length_rowLists]
  ring

/-- The scalar kernel with the clock it moves, and with its cycles counted at
once. -/
theorem scalarProductOn_eq (a b : SquareMatrix size) (clock : Clock) :
    scalarProductOn a b clock =
      ((scalarProduct a b).1, clock.advance (scalarProduct a b).2) := by
  have cycles : a.rowLists.length * (size * (size * scalarMacCycles)) =
      (scalarProduct a b).2 := by
    rw [scalarProduct_snd, length_rowLists, scalarMacCycles]
    ring
  rw [scalarProductOn, scalarRowsOn_eq (covers_rowLists b)
    (length_zip_rowLists a b), cycles, scalarProduct_fst, rowLists_product]

theorem vectorProductOn_eq (a b : SquareMatrix size) (clock : Clock) :
    vectorProductOn a b clock =
      ((vectorProduct a b).1, clock.advance (vectorProduct a b).2) := by
  have began : clock.advance 0 = clock := Clock.advance_zero clock
  have ran := vectorRowsOn_eq size b.rowLists a.rowLists
    { unit := VectorUnit.initial, cycles := 0 } clock
  rw [began] at ran
  rw [vectorProductOn, ran]
  rfl

/-- Both kernels compute on a clock what they compute without one, and they
move it by a fixed number of cycles for the size, up to its largest count. -/
theorem kernels_charge (a b : SquareMatrix size) (clock : Clock) :
    scalarProductOn a b clock =
      ((scalarProduct a b).1, clock.advance (scalarProduct a b).2) ∧
    vectorProductOn a b clock =
      ((vectorProduct a b).1, clock.advance (vectorProduct a b).2) ∧
    (scalarProductOn a b clock).2.now =
      min (2 ^ 64 - 1) (clock.now + 4 * size ^ 3) ∧
    (vectorProductOn a b clock).2.now =
      min (2 ^ 64 - 1) (clock.now + 6 * size ^ 2 * (size ⌈/⌉ 16)) := by
  refine ⟨scalarProductOn_eq a b clock, vectorProductOn_eq a b clock, ?_, ?_⟩
  · rw [scalarProductOn_eq, scalarProduct_snd]
    rfl
  · rw [vectorProductOn_eq, vectorProduct_snd]
    rfl

end SquareMatrix

end VectorBench
