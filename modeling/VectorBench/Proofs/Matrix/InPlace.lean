import Mathlib.Data.List.FinRange
import VectorBench.Proofs.Matrix.Charges
import VectorBench.Suite.Bench

/-!
# Matrix kernels in place

The kernels on matrices whose entries stand row by row in one list.  A row of
the product grows where it stands: a strip is loaded from slices that run on to
the end of the lists and stored over the beginning of one.  What comes out is
what the kernels on separate rows compute, entry for entry and cycle for cycle.
-/

namespace VectorBench

open SquareMatrix

variable {size : Nat}

/-! ### The kernels -/

/-- Adds the product of two entries to an entry of the product. -/
def addEntryInPlace (a b : Vector Word (size * size))
    (row inner column : Fin size) (state : List Word × Clock) :
    List Word × Clock :=
  let (entries, clock) := state
  let sum := Word.plus (entries.getD (place row column).val 0)
    (Word.times (a.get (place row inner)) (b.get (place inner column)))
  (entries.set (place row column).val sum, clock.advance scalarMacCycles)

def addRowInPlace (a b : Vector Word (size * size)) (row inner : Fin size)
    (state : List Word × Clock) : List Word × Clock :=
  (List.finRange size).foldl
    (fun state column => addEntryInPlace a b row inner column state) state

def scalarProductInPlace (a b : Vector Word (size * size)) (clock : Clock) :
    List Word × Clock :=
  (List.finRange size).foldl
    (fun state row =>
      (List.finRange size).foldl
        (fun state inner => addRowInPlace a b row inner state) state)
    (List.replicate (size * size) 0, clock)

/-- The entries of the product so far, and what computes them. -/
structure InPlaceRun where
  entries : List Word
  unit : VectorUnit
  clock : Clock

/-- Adds a multiple of a row from a column on, strip by strip. -/
def addStripsInPlace (a b : Vector Word (size * size)) (row inner : Fin size)
    (column : Nat) (run : InPlaceRun) : Except Fault Unit × InPlaceRun :=
  if column < size then
    match _configured :
        run.unit.vsetvl (size - column) (some .e32) (some .m4) with
    | (.error fault, unit) => (.error fault, { run with unit })
    | (.ok vl, unit) =>
        match unit.accumulateStrip (a.get (place row inner))
            (b.toList.drop (inner * size + column))
            (run.entries.drop (row * size + column)) with
        | (.error fault, unit) => (.error fault, { run with unit })
        | (.ok stored, unit) =>
            addStripsInPlace a b row inner (column + vl)
              { entries := run.entries.take (row * size + column) ++ stored
                unit
                clock := run.clock.advance
                  (stripInstructions * vectorInstructionCycles) }
  else (.ok (), run)
termination_by size - column
decreasing_by
  have positive := vlmax_pos .e32 .m4
  rw [VectorUnit.vsetvl_some _configured]
  omega

def vectorProductInPlace (a b : Vector Word (size * size)) (clock : Clock) :
    Except Fault (List Word) × Clock :=
  let (result, run) :=
    forEach
      (fun row => forEach (fun inner => addStripsInPlace a b row inner 0)
        (List.finRange size))
      (List.finRange size)
      { entries := List.replicate (size * size) 0
        unit := VectorUnit.initial
        clock }
  (result.map fun () => run.entries, run.clock)

/-! ### Rows that grow where they stand -/

theorem map_val_finRange (count : Nat) :
    (List.finRange count).map Fin.val =
      List.range' 0 (List.finRange count).length := by
  rw [List.length_finRange, ← List.range_eq_range']
  exact List.map_coe_finRange_eq_range

section Turns

variable {σ : Type} {entries : σ → List Word} {clock : σ → Clock}
  {a b : Vector Word (size * size)} {cost : Nat}
  {turn : Fin size → Fin size → σ → Except Fault Unit × σ}

/-- A factor, and the entries of the second matrix from a row on. -/
def termInPlace (a b : Vector Word (size * size)) (row inner : Fin size) :
    Word × List Word :=
  (a.get (place row inner), b.toList.drop (inner * size))

/-- A turn adds a multiple of a row to the place of a row of the product, leaves
all other places alone, and costs the same whatever it adds. -/
def AddsInPlace (entries : σ → List Word) (clock : σ → Clock)
    (a b : Vector Word (size * size)) (cost : Nat)
    (turn : Fin size → Fin size → σ → Except Fault Unit × σ) : Prop :=
  ∀ (row inner : Fin size) (state : σ) (front current back : List Word),
    entries state = front ++ current ++ back →
    front.length = row * size → current.length = size →
    ∃ after, turn row inner state = (.ok (), after) ∧
      entries after = front ++ addMultiple (a.get (place row inner))
        (b.toList.drop (inner * size)) current ++ back ∧
      clock after = (clock state).advance cost

theorem covers_slice (b : Vector Word (size * size)) (inner : Fin size) :
    size ≤ (b.toList.drop (inner * size)).length := by
  have inside : (inner + 1) * size ≤ size * size :=
    Nat.mul_le_mul_right size inner.isLt
  rw [Nat.succ_mul] at inside
  rw [List.length_drop, Vector.length_toList]
  omega

theorem covers_termsInPlace (a b : Vector Word (size * size)) (row : Fin size)
    (inners : List (Fin size)) :
    ∀ term ∈ inners.map (termInPlace a b row), size ≤ term.2.length := by
  intro term member
  obtain ⟨inner, _member, rfl⟩ := List.mem_map.mp member
  exact covers_slice b inner

theorem AddsInPlace.forEach_inner
    (adds : AddsInPlace entries clock a b cost turn) (row : Fin size)
    {inners : List (Fin size)} {state : σ} {front current back : List Word}
    (stands : entries state = front ++ current ++ back)
    (before : front.length = row * size) (whole : current.length = size) :
    ∃ after, forEach (turn row) inners state = (.ok (), after) ∧
      entries after = front ++
        addMultiples (inners.map (termInPlace a b row)) current ++ back ∧
      clock after = (clock state).advance (inners.length * cost) := by
  induction inners generalizing state current with
  | nil =>
      refine ⟨state, rfl, stands, ?_⟩
      rw [List.length_nil, Nat.zero_mul, Clock.advance_zero]
  | cons inner inners ih =>
      obtain ⟨next, turned, nextStands, nextClock⟩ :=
        adds row inner state front current back stands before whole
      have nextWhole : (addMultiple (a.get (place row inner))
          (b.toList.drop (inner * size)) current).length = size := by
        rw [length_addMultiple _ (whole.symm ▸ covers_slice b inner), whole]
      obtain ⟨after, ran, afterStands, afterClock⟩ := ih nextStands nextWhole
      refine ⟨after, ?_, afterStands, ?_⟩
      · rw [forEach, turned]
        exact ran
      · rw [afterClock, nextClock, Clock.advance_advance, List.length_cons,
          Nat.succ_mul, Nat.add_comm cost]

/-- Rows that follow each other are filled one after the other. -/
theorem AddsInPlace.forEach_rows
    (adds : AddsInPlace entries clock a b cost turn) {rows : List (Fin size)}
    {start : Nat} (ordered : rows.map Fin.val = List.range' start rows.length)
    {state : σ} {front : List Word}
    (stands : entries state =
      front ++ List.replicate (rows.length * size) 0)
    (before : front.length = start * size) :
    ∃ after,
      forEach (fun row => forEach (turn row) (List.finRange size)) rows state =
        (.ok (), after) ∧
      entries after = front ++ (rows.map fun row =>
        addMultiples ((List.finRange size).map (termInPlace a b row))
          (List.replicate size 0)).flatten ∧
      clock after = (clock state).advance (rows.length * (size * cost)) := by
  induction rows generalizing start state front with
  | nil =>
      refine ⟨state, rfl, ?_, ?_⟩
      · simpa using stands
      · rw [List.length_nil, Nat.zero_mul, Clock.advance_zero]
  | cons row rows ih =>
      rw [List.map_cons, List.length_cons, List.range'_succ,
        List.cons.injEq] at ordered
      obtain ⟨rfl, orderedRest⟩ := ordered
      rw [List.length_cons, Nat.succ_mul, Nat.add_comm,
        ← List.replicate_append_replicate, ← List.append_assoc] at stands
      obtain ⟨next, filled, nextStands, nextClock⟩ :=
        adds.forEach_inner row stands before List.length_replicate
      have lengthRow : (addMultiples
          ((List.finRange size).map (termInPlace a b row))
          (List.replicate size 0)).length = size :=
        length_addMultiples_zeros (covers_termsInPlace a b row _)
      have nextBefore : (front ++ addMultiples
          ((List.finRange size).map (termInPlace a b row))
          (List.replicate size 0)).length = (row.val + 1) * size := by
        rw [List.length_append, before, lengthRow, Nat.succ_mul]
      obtain ⟨after, ran, afterStands, afterClock⟩ :=
        ih orderedRest nextStands nextBefore
      refine ⟨after, ?_, ?_, ?_⟩
      · rw [forEach, filled]
        exact ran
      · rw [afterStands, List.map_cons, List.flatten_cons, List.append_assoc]
      · rw [afterClock, nextClock, Clock.advance_advance, List.length_finRange,
          List.length_cons, Nat.succ_mul, Nat.add_comm (size * cost)]

/-- The slices from the rows on make up the rows of the product. -/
theorem addMultiples_termsInPlace (a b : Vector Word (size * size))
    (row : Fin size) :
    addMultiples ((List.finRange size).map (termInPlace a b row))
        (List.replicate size 0) =
      (((ofRowMajor size a.toArray).product
        (ofRowMajor size b.toArray)).rows.get row).toList := by
  apply addMultiples_eq_row
  · exact covers_termsInPlace a b row _
  · intro column
    rw [List.map_map]
    apply List.map_congr_left
    intro inner _member
    have entry : (b.toList.drop (inner * size)).getD column 0 =
        b.get (place inner column) := by
      rw [List.getD_eq_getElem?_getD, List.getElem?_drop,
        List.getElem?_eq_getElem (by
          rw [Vector.length_toList]
          exact (place inner column).isLt)]
      exact Vector.getElem_toList _
    rw [Function.comp_apply, termInPlace, entry, entry_ofRowMajor,
      entry_ofRowMajor]

/-- Turns on all rows leave the product and cost the same each. -/
theorem AddsInPlace.forEach_product
    (adds : AddsInPlace entries clock a b cost turn) {state : σ}
    (zeros : entries state = List.replicate (size * size) 0) :
    ∃ after,
      forEach (fun row => forEach (turn row) (List.finRange size))
          (List.finRange size) state = (.ok (), after) ∧
      entries after = ((ofRowMajor size a.toArray).product
        (ofRowMajor size b.toArray)).rowLists.flatten ∧
      clock after = (clock state).advance (size * (size * cost)) := by
  have stands : entries state =
      [] ++ List.replicate ((List.finRange size).length * size) 0 := by
    rw [List.length_finRange, List.nil_append]
    exact zeros
  obtain ⟨after, ran, afterStands, afterClock⟩ :=
    adds.forEach_rows (map_val_finRange size) stands (Nat.zero_mul size).symm
  refine ⟨after, ran, ?_, ?_⟩
  · rw [afterStands, List.nil_append, rowLists_eq]
    exact congrArg List.flatten
      (List.map_congr_left fun row _member => addMultiples_termsInPlace a b row)
  · rw [afterClock, List.length_finRange]

end Turns

/-! ### The scalar kernel -/

theorem forEach_ok {σ α : Type} (action : α → σ → σ) (items : List α) :
    forEach (fun item state => (.ok (), action item state)) items =
      fun state =>
        (.ok (), items.foldl (fun state item => action item state) state) := by
  funext state
  induction items generalizing state with
  | nil => rfl
  | cons item items ih => exact ih (action item state)

/-- Entries that follow each other grow one after the other. -/
theorem foldl_addEntryInPlace (a b : Vector Word (size * size))
    (row inner : Fin size) {columns : List (Fin size)} {start : Nat}
    (ordered : columns.map Fin.val = List.range' start columns.length)
    {front current : List Word} (back : List Word)
    (before : front.length = row * size + start)
    (asLong : current.length = columns.length) (clock : Clock) :
    columns.foldl
        (fun state column => addEntryInPlace a b row inner column state)
        (front ++ current ++ back, clock) =
      (front ++ addMultiple (a.get (place row inner))
          (b.toList.drop (inner * size + start)) current ++ back,
        clock.advance (columns.length * scalarMacCycles)) := by
  induction columns generalizing start front current clock with
  | nil =>
      obtain rfl := List.length_eq_zero_iff.mp asLong
      rw [List.length_nil, Nat.zero_mul, Clock.advance_zero]
      rfl
  | cons column columns ih =>
      obtain ⟨entry, current, rfl⟩ :=
        List.exists_cons_of_length_eq_add_one asLong
      rw [List.map_cons, List.length_cons, List.range'_succ,
        List.cons.injEq] at ordered
      obtain ⟨rfl, orderedRest⟩ := ordered
      have here : (place row column).val = front.length := before.symm
      have slice : b.toList.drop (inner * size + column) =
          b.get (place inner column) ::
            b.toList.drop (inner * size + (column + 1)) :=
        List.drop_eq_getElem_cons (by
          rw [Vector.length_toList]
          exact (place inner column).isLt)
      have added : addEntryInPlace a b row inner column
          (front ++ entry :: current ++ back, clock) =
          (front ++ [entry + a.get (place row inner) *
            b.get (place inner column)] ++ current ++ back,
            clock.advance scalarMacCycles) := by
        simp [addEntryInPlace, here]
      rw [List.foldl_cons, added,
        ih orderedRest (by simp [before, Nat.add_assoc])
          (Nat.succ.inj asLong), slice, Clock.advance_advance,
        List.length_cons, Nat.succ_mul, Nat.add_comm scalarMacCycles]
      simp [addMultiple]

theorem addRowInPlace_adds (a b : Vector Word (size * size)) :
    AddsInPlace Prod.fst Prod.snd a b (size * scalarMacCycles)
      fun row inner state => (.ok (), addRowInPlace a b row inner state) := by
  rintro row inner ⟨entries, clock⟩ front current back rfl before whole
  have added := foldl_addEntryInPlace a b row inner (map_val_finRange size)
    back before (by rw [whole, List.length_finRange]) clock
  rw [List.length_finRange] at added
  refine ⟨_, rfl, ?_, ?_⟩
  · exact congrArg Prod.fst added
  · exact congrArg Prod.snd added

/-! ### The vector kernel -/

theorem covers_slice_from (b : Vector Word (size * size)) (inner : Fin size)
    {column count : Nat} (left : column + count = size) :
    count ≤ (b.toList.drop (inner * size + column)).length := by
  have covered := covers_slice b inner
  rw [← List.drop_drop, List.length_drop]
  omega

/-- A strip of a row reaches no entry behind the row. -/
theorem strip_append (factor : Word) (source : List Word) {vl : Nat}
    {current : List Word} (back : List Word) (inRow : vl ≤ current.length) :
    (addMultiple factor source (current ++ back)).take vl ++
        (current ++ back).drop vl =
      (addMultiple factor source current).take vl ++ current.drop vl ++
        back := by
  rw [addMultiple, addMultiple, List.take_zipWith, List.take_zipWith,
    List.take_append_of_le_length inRow, List.drop_append_of_le_length inRow,
    List.append_assoc]

section Strip

variable (a b : Vector Word (size * size)) {row : Fin size} (inner : Fin size)
  {column : Nat} {run : InPlaceRun} {front current back : List Word}

theorem addStripsInPlace_finished (finished : ¬ column < size)
    (run : InPlaceRun) :
    addStripsInPlace a b row inner column run = (.ok (), run) := by
  rw [addStripsInPlace, if_neg finished]

/-- While entries of a row remain, a strip of them grows where it stands and the
rest of the list stays. -/
theorem addStripsInPlace_strip
    (stands : run.entries = front ++ current ++ back)
    (before : front.length = row * size + column)
    (left : column + current.length = size) (remains : 0 < current.length) :
    ∃ vl next, 0 < vl ∧ vl ≤ current.length ∧
      (current.length - vl) ⌈/⌉ 16 + 1 = current.length ⌈/⌉ 16 ∧
      addStripsInPlace a b row inner column run =
        addStripsInPlace a b row inner (column + vl) next ∧
      next.entries = front ++ (addMultiple (a.get (place row inner))
        (b.toList.drop (inner * size + column)) current).take vl ++
          current.drop vl ++ back ∧
      next.clock = run.clock.advance
        (stripInstructions * vectorInstructionCycles) := by
  have inRow : min current.length (vlmax .e32 .m4) ≤ current.length :=
    Nat.min_le_left _ _
  have inSource := Nat.le_trans inRow (covers_slice_from b inner left)
  have inEntries :
      min current.length (vlmax .e32 .m4) ≤ (current ++ back).length := by
    rw [List.length_append]
    exact Nat.le_add_right_of_le inRow
  obtain ⟨unit, ran⟩ :=
    VectorUnit.accumulateStrip_stripUnit run.unit.vregs
      (Nat.min_le_right current.length (vlmax .e32 .m4))
      (a.get (place row inner)) inSource inEntries
  rw [strip_append _ _ back inRow] at ran
  have slice : run.entries.drop (row * size + column) = current ++ back := by
    rw [stands, List.append_assoc, List.drop_left' before]
  have remaining : size - column = current.length := by omega
  have unfinished : column < size := by omega
  refine ⟨min current.length (vlmax .e32 .m4),
    { entries := run.entries.take (row * size + column) ++
        ((addMultiple (a.get (place row inner))
            (b.toList.drop (inner * size + column)) current).take
              (min current.length (vlmax .e32 .m4)) ++
          current.drop (min current.length (vlmax .e32 .m4)) ++ back)
      unit
      clock := run.clock.advance (stripInstructions * vectorInstructionCycles) },
    Nat.lt_min.mpr ⟨remains, vlmax_pos .e32 .m4⟩, inRow,
    ceilDiv_strips remains, ?_, ?_, rfl⟩
  · rw [addStripsInPlace, if_pos unfinished]
    split
    case h_1 configured => cases configured
    case h_2 configured =>
      cases configured
      unfold VectorUnit.stripUnit at ran
      simp only [slice, remaining, ran]
  · rw [stands, List.append_assoc front current, List.take_left' before]
    simp only [List.append_assoc]

/-- The strips that are left complete the multiple of a row. -/
theorem addStripsInPlace_eq
    (stands : run.entries = front ++ current ++ back)
    (before : front.length = row * size + column)
    (left : column + current.length = size) :
    ∃ after, addStripsInPlace a b row inner column run = (.ok (), after) ∧
      after.entries = front ++ addMultiple (a.get (place row inner))
        (b.toList.drop (inner * size + column)) current ++ back ∧
      after.clock = run.clock.advance (current.length ⌈/⌉ 16 * 6) := by
  -- Every strip takes at least one entry, so fewer are left after it.
  induction length : current.length using Nat.strongRecOn
      generalizing column run front current with
  | _ count ih =>
      by_cases remains : 0 < current.length
      · obtain ⟨vl, next, positive, inside, strips, strip, nextStands,
            nextClock⟩ :=
          addStripsInPlace_strip a b inner stands before left remains
        have whole := covers_slice_from b inner left
        have nextBefore : (front ++ (addMultiple (a.get (place row inner))
            (b.toList.drop (inner * size + column)) current).take vl).length =
              row * size + (column + vl) := by
          rw [List.length_append, List.length_take,
            length_addMultiple _ whole, Nat.min_eq_left inside, before,
            Nat.add_assoc]
        have further : b.toList.drop (inner * size + (column + vl)) =
            (b.toList.drop (inner * size + column)).drop vl := by
          rw [List.drop_drop, Nat.add_assoc]
        have nextLength : (current.drop vl).length = count - vl := by
          rw [List.length_drop, length]
        obtain ⟨after, ran, entries, clock⟩ :=
          ih (count - vl) (by omega) nextStands nextBefore (by omega) nextLength
        refine ⟨after, strip.trans ran, ?_, ?_⟩
        · rw [entries, further, ← drop_addMultiple, List.append_assoc front,
            List.take_append_drop]
        · rw [length] at strips
          rw [clock, nextClock, Clock.advance_advance, ← strips, Nat.succ_mul,
            Nat.add_comm]
          rfl
      · obtain rfl : current = [] := List.eq_nil_of_length_eq_zero (by omega)
        have finished : ¬ column < size := by simpa using left.ge
        refine ⟨run, addStripsInPlace_finished a b inner finished run, ?_, ?_⟩
        · simpa [addMultiple] using stands
        · rw [← length, List.length_nil, zero_ceilDiv, Nat.zero_mul,
            Clock.advance_zero]

end Strip

theorem addStripsInPlace_adds (a b : Vector Word (size * size)) :
    AddsInPlace InPlaceRun.entries InPlaceRun.clock a b (size ⌈/⌉ 16 * 6)
      fun row inner => addStripsInPlace a b row inner 0 := by
  intro row inner run front current back stands before whole
  obtain ⟨after, ran, entries, clock⟩ :=
    addStripsInPlace_eq a b inner stands before ((Nat.zero_add _).trans whole)
  rw [whole] at clock
  exact ⟨after, ran, entries, clock⟩

/-- The kernels in place compute the entries that the kernels on rows do, and
move the clock by their cycles. -/
theorem kernelsInPlace_eq (a b : Vector Word (size * size)) (clock : Clock) :
    let left := ofRowMajor size a.toArray
    let right := ofRowMajor size b.toArray
    scalarProductInPlace a b clock =
      ((scalarProduct left right).1.flatten,
        clock.advance (scalarProduct left right).2) ∧
    vectorProductInPlace a b clock =
      ((vectorProduct left right).1.map List.flatten,
        clock.advance (vectorProduct left right).2) := by
  intro left right
  constructor
  · obtain ⟨after, ran, entries, ticks⟩ :=
      (addRowInPlace_adds a b).forEach_product
        (rfl : (List.replicate (size * size) (0 : Word), clock).1 = _)
    have folded : scalarProductInPlace a b clock = after := by
      simp only [forEach_ok, Prod.mk.injEq] at ran
      exact ran.2
    rw [folded, scalarProduct_fst, scalarProduct_snd]
    refine Prod.ext entries (ticks.trans ?_)
    congr 1
    rw [scalarMacCycles]
    ring
  · obtain ⟨after, ran, entries, ticks⟩ :=
      (addStripsInPlace_adds a b).forEach_product
        (rfl : (InPlaceRun.mk (List.replicate (size * size) 0)
          VectorUnit.initial clock).entries = _)
    rw [vectorProductInPlace, ran, vectorProduct_fst, vectorProduct_snd]
    refine Prod.ext (congrArg Except.ok entries) (ticks.trans ?_)
    congr 1
    ring

end VectorBench
