import VectorBench.Word

/-!
# Square matrices of words

Matrices with wrapping 32-bit entries, their product, and matrices drawn from a random source.
-/

namespace VectorBench

structure SquareMatrix (size : Nat) where
  rows : Vector (Vector Word size) size
deriving DecidableEq

namespace SquareMatrix

variable {size : Nat}

def ofEntries (entry : Fin size → Fin size → Word) : SquareMatrix size where
  rows := Vector.ofFn fun row => Vector.ofFn fun column => entry row column

/-- The matrix whose entries are listed row by row; missing ones are zero. -/
def ofRowMajor (size : Nat) (entries : Array Word) : SquareMatrix size :=
  ofEntries fun row column => entries.getD (row * size + column) 0

def entry (matrix : SquareMatrix size) (row column : Fin size) : Word :=
  matrix.rows[row][column]

def rowLists (matrix : SquareMatrix size) : List (List Word) :=
  matrix.rows.toList.map Vector.toList

def product (a b : SquareMatrix size) : SquareMatrix size :=
  ofEntries fun row column =>
    Word.sum ((List.finRange size).map fun inner => a.entry row inner * b.entry inner column)

theorem entry_ofEntries (entry : Fin size → Fin size → Word) (row column : Fin size) :
    (ofEntries entry).entry row column = entry row column := by
  simp [ofEntries, SquareMatrix.entry]

end SquareMatrix

/-- A generator of random matrix entries: every state gives one entry, from zero to four, and the
state after it. -/
structure RandomSource where
  State : Type
  ofSeed : Nat → State
  entry : State → Fin 5 × State

namespace RandomSource

/-- The next `count` entries behind those in `drawn`. -/
def draw (source : RandomSource) :
    (count : Nat) → Array Word → source.State → Array Word × source.State
  | 0, drawn, state => (drawn, state)
  | count + 1, drawn, state =>
      let (entry, state) := source.entry state
      draw source count (drawn.push (BitVec.ofNat 32 entry)) state

def matrix (source : RandomSource) (size : Nat) (state : source.State) :
    SquareMatrix size × source.State :=
  let (entries, state) := source.draw (size * size) #[] state
  (SquareMatrix.ofRowMajor size entries, state)

end RandomSource

end VectorBench
