import Mathlib.Algebra.BigOperators.Fin
import VectorBench.Proofs.Matrix.Strips

/-!
# Matrix products

Both kernels add multiples of the rows of the second matrix to a row of zeros,
and the entries that come out are those of the product, modulo two to the
power of the word size.
-/

namespace VectorBench

/-- A row plus multiples of other rows, one after the other. -/
def addMultiples (terms : List (Word × List Word)) (row : List Word) :
    List Word :=
  terms.foldl (fun row term => addMultiple term.1 term.2 row) row

variable {terms : List (Word × List Word)} {row : List Word}

theorem covers_addMultiple {term : Word × List Word}
    (covered : ∀ other ∈ term :: terms, row.length ≤ other.2.length) :
    ∀ other ∈ terms,
      (addMultiple term.1 term.2 row).length ≤ other.2.length := by
  intro other member
  rw [length_addMultiple term.1 (covered term List.mem_cons_self)]
  exact covered other (List.mem_cons_of_mem _ member)

theorem length_addMultiples
    (covered : ∀ term ∈ terms, row.length ≤ term.2.length) :
    (addMultiples terms row).length = row.length := by
  induction terms generalizing row with
  | nil => rfl
  | cons term terms ih =>
      calc
        (addMultiples (term :: terms) row).length =
            (addMultiple term.1 term.2 row).length :=
          ih (covers_addMultiple covered)
        _ = row.length :=
          length_addMultiple term.1 (covered term List.mem_cons_self)

theorem covers_zeros {size : Nat}
    (covered : ∀ term ∈ terms, size ≤ term.2.length) :
    ∀ term ∈ terms,
      (List.replicate size (0 : Word)).length ≤ term.2.length := by
  rwa [List.length_replicate]

theorem covers_zip {size : Nat} (factors : List Word) {rows : List (List Word)}
    (covered : ∀ source ∈ rows, size ≤ source.length) :
    ∀ term ∈ factors.zip rows,
      (List.replicate size (0 : Word)).length ≤ term.2.length :=
  covers_zeros fun term member => covered term.2 (List.of_mem_zip member).2

theorem length_addMultiples_zeros {size : Nat}
    (covered : ∀ term ∈ terms, size ≤ term.2.length) :
    (addMultiples terms (List.replicate size 0)).length = size := by
  rw [length_addMultiples (covers_zeros covered), List.length_replicate]

theorem getElem?_addMultiple (factor : Word) {source row : List Word}
    {index : Nat} {term entry : Word} (atSource : source[index]? = some term)
    (atRow : row[index]? = some entry) :
    (addMultiple factor source row)[index]? = some (entry + factor * term) := by
  rw [addMultiple, List.getElem?_zipWith_eq_some]
  exact ⟨entry, term, atRow, atSource, rfl⟩

/-- An entry of the sum is the sum of the entries. -/
theorem getElem?_addMultiples {index : Nat} {entry : Word}
    (covered : ∀ term ∈ terms, row.length ≤ term.2.length)
    (atRow : row[index]? = some entry) :
    (addMultiples terms row)[index]? =
      some (entry +
        Word.sum (terms.map fun term => term.1 * term.2.getD index 0)) := by
  induction terms generalizing row entry with
  | nil => simpa [addMultiples] using atRow
  | cons term terms ih =>
      have inside : index < row.length := (List.getElem?_eq_some_iff.mp atRow).1
      have coversFirst := covered term List.mem_cons_self
      have atSource : term.2[index]? = some (term.2.getD index 0) := by
        have bounded := Nat.lt_of_lt_of_le inside coversFirst
        simp [List.getD_eq_getElem?_getD, bounded]
      calc
        (addMultiples (term :: terms) row)[index]? =
            (addMultiples terms (addMultiple term.1 term.2 row))[index]? := rfl
        _ = some (entry + term.1 * term.2.getD index 0 +
              Word.sum
                (terms.map fun term => term.1 * term.2.getD index 0)) :=
          ih (covers_addMultiple covered)
            (getElem?_addMultiple term.1 atSource atRow)
        _ = _ := by
          rw [List.map_cons, Word.sum_cons, BitVec.add_assoc]

theorem scalarRow_fst (factors : List Word) (rows : List (List Word))
    (row : List Word) :
    (scalarRow factors rows row).1 = addMultiples (factors.zip rows) row := by
  unfold scalarRow
  generalize factors.zip rows = terms
  generalize 0 = cycles
  induction terms generalizing row cycles with
  | nil => rfl
  | cons term terms ih => exact ih _ _

theorem vectorRow_eq (run : VectorRun)
    (covered : ∀ term ∈ terms, row.length ≤ term.2.length) :
    ∃ after, vectorRow terms row run = (.ok (addMultiples terms row), after) := by
  induction terms generalizing row run with
  | nil => exact ⟨run, rfl⟩
  | cons term terms ih =>
      have coversFirst := covered term List.mem_cons_self
      obtain ⟨next, first⟩ := accumulateRow_eq term.1 run coversFirst
      obtain ⟨after, rest⟩ := ih next (covers_addMultiple covered)
      refine ⟨after, ?_⟩
      simp only [vectorRow, first, rest]
      rfl

theorem vectorRows_eq {size : Nat} {rows : List (List Word)}
    (factors : List (List Word)) (run : VectorRun)
    (covered : ∀ source ∈ rows, size ≤ source.length) :
    ∃ after, vectorRows size rows factors run =
      (.ok (factors.map fun factors =>
        addMultiples (factors.zip rows) (List.replicate size 0)), after) := by
  induction factors generalizing run with
  | nil => exact ⟨run, rfl⟩
  | cons factors further ih =>
      have coversTerms := covers_zip factors covered
      obtain ⟨next, first⟩ := vectorRow_eq run coversTerms
      obtain ⟨after, rest⟩ := ih next
      refine ⟨after, ?_⟩
      simp only [vectorRows, first, rest, List.map_cons]

namespace SquareMatrix

variable {size : Nat}

theorem toList_eq_map_finRange {α : Type} (entries : Vector α size) :
    entries.toList =
      (List.finRange size).map fun index => entries.get index := by
  apply List.ext_getElem
  · simp
  · intro index _inside _inside
    rw [Vector.getElem_toList, List.getElem_map, List.getElem_finRange]
    rfl

theorem rowLists_eq (matrix : SquareMatrix size) :
    matrix.rowLists =
      (List.finRange size).map fun row => (matrix.rows.get row).toList := by
  rw [rowLists, toList_eq_map_finRange, List.map_map]
  rfl

theorem length_of_mem_rowLists {matrix : SquareMatrix size} {row : List Word}
    (member : row ∈ matrix.rowLists) : row.length = size := by
  rw [rowLists_eq, List.mem_map] at member
  obtain ⟨index, _member, rfl⟩ := member
  exact Vector.length_toList

theorem getElem?_row (matrix : SquareMatrix size) (row column : Fin size) :
    (matrix.rows.get row).toList[column.val]? =
      some (matrix.entry row column) := by
  have inside : column.val < (matrix.rows.get row).toList.length := by
    rw [Vector.length_toList]
    exact column.isLt
  rw [List.getElem?_eq_getElem inside, Vector.getElem_toList]
  rfl

theorem entry_product (a b : SquareMatrix size) (row column : Fin size) :
    (a.product b).entry row column =
      Word.sum ((List.finRange size).map fun inner =>
        a.entry row inner * b.entry inner column) := by
  rw [product, entry_ofEntries]

theorem row_zip_rowLists (a b : SquareMatrix size) (row : Fin size) :
    (a.rows.get row).toList.zip b.rowLists =
      (List.finRange size).map fun inner =>
        (a.entry row inner, (b.rows.get inner).toList) := by
  rw [rowLists_eq, toList_eq_map_finRange, List.zip_map']
  rfl

/-- Multiples of rows that are at least as long make up a row of the product if
their entries are the products it sums. -/
theorem addMultiples_eq_row (a b : SquareMatrix size) (row : Fin size)
    (covered : ∀ term ∈ terms, size ≤ term.2.length)
    (products : ∀ column : Fin size,
      (terms.map fun term => term.1 * term.2.getD column 0) =
        (List.finRange size).map fun inner =>
          a.entry row inner * b.entry inner column) :
    addMultiples terms (List.replicate size 0) =
      ((a.product b).rows.get row).toList := by
  apply List.ext_getElem?
  intro index
  by_cases inside : index < size
  · have zero : (List.replicate size (0 : Word))[index]? = some 0 := by
      rw [List.getElem?_replicate, if_pos inside]
    rw [getElem?_addMultiples (covers_zeros covered) zero, products ⟨index, inside⟩,
      ← entry_product]
    exact (congrArg some (BitVec.zero_add _)).trans
      (getElem?_row (a.product b) row ⟨index, inside⟩).symm
  · have beyond := Nat.le_of_not_lt inside
    rw [List.getElem?_eq_none, List.getElem?_eq_none]
    · rwa [Vector.length_toList]
    · rwa [length_addMultiples_zeros covered]

/-- Multiples of the rows of the second matrix make up a row of the product. -/
theorem addMultiples_rowLists (a b : SquareMatrix size) (row : Fin size) :
    addMultiples ((a.rows.get row).toList.zip b.rowLists)
        (List.replicate size 0) =
      ((a.product b).rows.get row).toList := by
  apply addMultiples_eq_row
  · intro term member
    exact (length_of_mem_rowLists (List.of_mem_zip member).2).ge
  · intro column
    rw [row_zip_rowLists, List.map_map]
    apply List.map_congr_left
    intro inner _member
    have found := getElem?_row b inner column
    rw [Function.comp_apply, List.getD_eq_getElem?_getD, found]
    rfl

/-- The rows of the product, as the kernels build them. -/
theorem rowLists_product (a b : SquareMatrix size) :
    (a.product b).rowLists =
      a.rowLists.map fun factors =>
        addMultiples (factors.zip b.rowLists) (List.replicate size 0) := by
  rw [rowLists_eq, rowLists_eq a, List.map_map]
  apply List.map_congr_left
  intro row _member
  exact (addMultiples_rowLists a b row).symm

theorem scalarProduct_fst (a b : SquareMatrix size) :
    (scalarProduct a b).1 = (a.product b).rowLists := by
  rw [rowLists_product, scalarProduct, List.map_map]
  apply List.map_congr_left
  intro factors _member
  exact scalarRow_fst factors b.rowLists _

theorem vectorProduct_fst (a b : SquareMatrix size) :
    (vectorProduct a b).1 = .ok (a.product b).rowLists := by
  obtain ⟨after, ran⟩ := vectorRows_eq a.rowLists
    { unit := VectorUnit.initial, cycles := 0 }
    (fun _source member => (length_of_mem_rowLists member).ge)
  rw [rowLists_product, vectorProduct, ran]

/-- Arithmetic on words is arithmetic on the integers they stand for. -/
theorem sum_products_eq_ofInt {α : Type} (left right : α → Word)
    (indices : List α) :
    Word.sum (indices.map fun index => left index * right index) =
      BitVec.ofInt 32
        (indices.map fun index =>
          (left index).toInt * (right index).toInt).sum := by
  induction indices with
  | nil => rfl
  | cons index indices ih =>
      rw [List.map_cons, List.map_cons, Word.sum_cons, List.sum_cons, ih,
        BitVec.ofInt_add, BitVec.ofInt_mul, BitVec.ofInt_toInt,
        BitVec.ofInt_toInt]

theorem toInt_entry_product (a b : SquareMatrix size) (row column : Fin size) :
    ((a.product b).entry row column).toInt =
      Int.bmod
        (∑ inner, (a.entry row inner).toInt * (b.entry inner column).toInt)
        (2 ^ 32) := by
  rw [entry_product, sum_products_eq_ofInt, BitVec.toInt_ofInt, Fin.sum_univ_def]

/-- The place of an entry in a list of all entries, row by row. -/
def place (row column : Fin size) : Fin (size * size) where
  val := row * size + column
  isLt := by
    calc
      row * size + column < row * size + size :=
        Nat.add_lt_add_left column.isLt _
      _ = (row + 1) * size := (Nat.succ_mul row size).symm
      _ ≤ size * size := Nat.mul_le_mul_right size row.isLt

theorem entry_ofRowMajor (entries : Vector Word (size * size))
    (row column : Fin size) :
    (ofRowMajor size entries.toArray).entry row column =
      entries.get (place row column) := by
  have inside : row * size + column < entries.toArray.size := by
    rw [Vector.size_toArray]
    exact (place row column).isLt
  rw [ofRowMajor, entry_ofEntries, Array.getD, dif_pos inside]
  rfl

/-- Both kernels give the product of any two matrices, listed row by row. -/
theorem kernels_eq_product (size : Nat) (a b : Vector Word (size * size)) :
    let left := ofRowMajor size a.toArray
    let right := ofRowMajor size b.toArray
    (vectorProduct left right).1 = .ok (left.product right).rowLists ∧
    (scalarProduct left right).1 = (left.product right).rowLists ∧
    ∀ row column : Fin size,
      ((left.product right).entry row column).toInt =
        Int.bmod
          (∑ inner : Fin size, (a.get (place row inner)).toInt *
            (b.get (place inner column)).toInt)
          (2 ^ 32) := by
  intro left right
  refine ⟨vectorProduct_fst left right, scalarProduct_fst left right, ?_⟩
  intro row column
  simp only [toInt_entry_product, left, right, entry_ofRowMajor]

end SquareMatrix

end VectorBench
