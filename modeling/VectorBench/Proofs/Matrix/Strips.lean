import VectorBench.Proofs.VectorUnit.Memory
import VectorBench.Proofs.VectorUnit.Sequences

/-!
# Strips of a row

A strip of a row goes through groups of four registers, and the strips one
after the other give the whole row: its entries plus multiples of the entries
of another row.
-/

namespace VectorBench

open VRegFile

/-- A row plus a multiple of another one. -/
def addMultiple (factor : Word) (source row : List Word) : List Word :=
  List.zipWith (fun entry term => Word.plus entry (Word.times factor term))
    row source

theorem drop_addMultiple (factor : Word) (source row : List Word)
    (count : Nat) :
    (addMultiple factor source row).drop count =
      addMultiple factor (source.drop count) (row.drop count) :=
  List.drop_zipWith

theorem length_addMultiple (factor : Word) {source row : List Word}
    (covered : row.length ≤ source.length) :
    (addMultiple factor source row).length = row.length := by
  rw [addMultiple, List.length_zipWith, Nat.min_eq_left covered]

/-- Word `index` of the group that starts at a register. -/
def VRegFile.entry (file : VRegFile) (register : VReg) (index : Nat) : Word :=
  file.element register .e32 index

namespace VectorUnit

variable {vregs : VRegFile} {vl : Nat} {fits : vl ≤ vlmax .e32 .m4}

/-- A unit that works on strips of words in groups of four registers. -/
def stripUnit (vregs : VRegFile) (vl : Nat) (fits : vl ≤ vlmax .e32 .m4) :
    VectorUnit :=
  { vregs, vl, sew := .e32, lmul := .m4, vl_le := fits }

theorem stripUnit_startsGroup (registers : List VReg)
    (starts : ∀ register ∈ registers,
      register.toNat % 4 = 0 ∧ register.toNat + 4 ≤ 32) :
    ∀ register ∈ registers, (stripUnit vregs vl fits).startsGroup register :=
  fun register member => startsGroup_iff.mpr (starts register member)

/-- An operation on strips computes its entries and leaves the other two
groups alone. -/
theorem stripUnit_run {op : ElementOp}
    (accepts : op.Accepts (stripUnit vregs vl fits))
    (guaranteed : op.Guaranteed (stripUnit vregs vl fits)) :
    ∃ file, op.run (stripUnit vregs vl fits) =
        (.ok (), stripUnit file vl fits) ∧
      (∀ index, index < vl →
        file.entry op.destination index =
          op.value (stripUnit vregs vl fits) index) ∧
      ∀ register ∈ [(0 : VReg), 4, 8], register ≠ op.destination →
        ∀ index, index < vl →
          file.entry register index = vregs.entry register index := by
  obtain ⟨file, ran, pointwise⟩ := run_setVregs accepts guaranteed
  refine ⟨file, ran, pointwise.elements, ?_⟩
  intro register member distinct index below
  exact pointwise.element_of_ne (accepts.1 _ op.destination_mem_groups)
    (stripUnit_startsGroup [0, 4, 8] (by decide) register member) distinct
    (Nat.lt_of_lt_of_le below fits)

/-- Two loads, a product and a sum leave a strip in the group `v4`. -/
theorem strip_operations (vregs : VRegFile) (fits : vl ≤ vlmax .e32 .m4)
    (factor : Word) {source row : List Word}
    (fromSource : vl ≤ source.length) (fromRow : vl ≤ row.length) :
    ∃ file,
      runAll [(·.vle .e32 0 source), (·.vle .e32 4 row),
          (·.vmulScalar 8 0 factor), (·.vadd 4 4 8)]
        (stripUnit vregs vl fits) = (.ok (), stripUnit file vl fits) ∧
      ∀ index, index < vl → file.entry 4 index =
        row.getD index 0 + factor * source.getD index 0 := by
  have loadsSource (file : VRegFile) :
      (ElementOp.load .e32 0 source).Accepts (stripUnit file vl fits) :=
    ⟨stripUnit_startsGroup [0] (by decide), rfl, fromSource⟩
  have loadsRow (file : VRegFile) :
      (ElementOp.load .e32 4 row).Accepts (stripUnit file vl fits) :=
    ⟨stripUnit_startsGroup [4] (by decide), rfl, fromRow⟩
  have multiplies (file : VRegFile) :
      (ElementOp.mulScalar 8 0 factor).Accepts (stripUnit file vl fits) :=
    ⟨stripUnit_startsGroup [8, 0] (by decide), trivial⟩
  have adds (file : VRegFile) :
      (ElementOp.add 4 4 8).Accepts (stripUnit file vl fits) :=
    ⟨stripUnit_startsGroup [4, 4, 8] (by decide), trivial⟩
  obtain ⟨first, ranFirst, atFirst, _others⟩ :=
    stripUnit_run (loadsSource vregs) trivial
  obtain ⟨second, ranSecond, atSecond, keptSecond⟩ :=
    stripUnit_run (loadsRow first) trivial
  obtain ⟨third, ranThird, atThird, keptThird⟩ :=
    stripUnit_run (multiplies second) trivial
  obtain ⟨fourth, ranFourth, atFourth, _others⟩ :=
    stripUnit_run (adds third) trivial
  refine ⟨fourth, ?_, ?_⟩
  · simp only [ElementOp.run] at ranFirst ranSecond ranThird ranFourth
    simp only [runAll, ranFirst, ranSecond, ranThird, ranFourth]
  · intro index below
    have term : second.entry 0 index = source.getD index 0 :=
      calc
        second.entry 0 index = first.entry 0 index :=
          keptSecond 0 (by decide) (by decide : (0 : VReg) ≠ 4) index below
        _ = (source.getD index 0).setWidth 32 := atFirst index below
        _ = source.getD index 0 := BitVec.setWidth_eq _
    have entry : third.entry 4 index = row.getD index 0 :=
      calc
        third.entry 4 index = second.entry 4 index :=
          keptThird 4 (by decide) (by decide : (4 : VReg) ≠ 8) index below
        _ = (row.getD index 0).setWidth 32 := atSecond index below
        _ = row.getD index 0 := BitVec.setWidth_eq _
    have product : third.entry 8 index = factor * source.getD index 0 :=
      calc
        third.entry 8 index = second.entry 0 index * factor.setWidth 32 :=
          atThird index below
        _ = factor * source.getD index 0 := by
          rw [term, BitVec.setWidth_eq, BitVec.mul_comm]
    calc
      fourth.entry 4 index = third.entry 4 index + third.entry 8 index :=
        atFourth index below
      _ = row.getD index 0 + factor * source.getD index 0 := by
        rw [entry, product]

/-- A strip stores its entries and leaves those behind it alone. -/
theorem accumulateStrip_stripUnit (vregs : VRegFile)
    (fits : vl ≤ vlmax .e32 .m4) (factor : Word) {source row : List Word}
    (fromSource : vl ≤ source.length) (fromRow : vl ≤ row.length) :
    ∃ after, (stripUnit vregs vl fits).accumulateStrip factor source row =
      (.ok ((addMultiple factor source row).take vl ++ row.drop vl), after) := by
  obtain ⟨file, ran, entries⟩ :=
    strip_operations vregs fits factor fromSource fromRow
  have stores : (stripUnit file vl fits).StoreAccepts .e32 4 row :=
    ⟨rfl, stripUnit_startsGroup [4] (by decide) 4 (by decide), fromRow⟩
  obtain ⟨stored, wrote⟩ :
      ∃ stored : List Word,
        (stripUnit file vl fits).vse .e32 4 row = .ok stored :=
    vse_ok_iff.mpr stores
  obtain ⟨_length, inside, outside⟩ := vse_elements wrote
  have taken : ((addMultiple factor source row).take vl).length = vl := by
    rw [List.length_take, addMultiple, List.length_zipWith]
    omega
  have composed : stored =
      (addMultiple factor source row).take vl ++ row.drop vl := by
    apply List.ext_getElem?
    intro index
    by_cases below : index < vl
    · have inSource : index < source.length :=
        Nat.lt_of_lt_of_le below fromSource
      have inRow : index < row.length := Nat.lt_of_lt_of_le below fromRow
      have computed : stored[index]? = some (file.entry 4 index) :=
        (inside index below).trans (congrArg some (BitVec.setWidth_eq _))
      rw [List.getElem?_append_left (by rwa [taken]),
        List.getElem?_take_of_lt below, computed, entries index below,
        addMultiple,
        List.getElem?_zipWith_eq_some.mpr
          ⟨row[index], source[index], List.getElem?_eq_getElem inRow,
            List.getElem?_eq_getElem inSource, rfl⟩]
      simp [List.getD_eq_getElem?_getD, inSource, inRow]
    · have above := Nat.le_of_not_lt below
      rw [List.getElem?_append_right (by rwa [taken]), taken,
        List.getElem?_drop, Nat.add_sub_cancel' above]
      exact outside index above
  refine ⟨stripUnit file vl fits, ?_⟩
  simp only [accumulateStrip, ran]
  exact congrArg (·, stripUnit file vl fits)
    (wrote.trans (congrArg Except.ok composed))

end VectorUnit

theorem accumulateRow_nil (factor : Word) (source : List Word)
    (run : VectorRun) : accumulateRow factor source [] run = (.ok [], run) := by
  rw [accumulateRow, if_pos rfl]

/-- The first strip of a row and then the rest of it. -/
theorem accumulateRow_strip (factor : Word) {source row : List Word}
    (run : VectorRun) (nonempty : row ≠ [])
    (covered : row.length ≤ source.length) :
    ∃ vl next, 0 < vl ∧ ∀ rest after,
      accumulateRow factor (source.drop vl) (row.drop vl) next =
        (.ok rest, after) →
      accumulateRow factor source row run =
        (.ok ((addMultiple factor source row).take vl ++ rest), after) := by
  have fromRow : min row.length (vlmax .e32 .m4) ≤ row.length :=
    Nat.min_le_left _ _
  obtain ⟨unit, ran⟩ :=
    VectorUnit.accumulateStrip_stripUnit run.unit.vregs
      (Nat.min_le_right row.length (vlmax .e32 .m4)) factor
      (Nat.le_trans fromRow covered) fromRow
  have taken : ((addMultiple factor source row).take
      (min row.length (vlmax .e32 .m4))).length =
        min row.length (vlmax .e32 .m4) := by
    rw [List.length_take, length_addMultiple factor covered,
      Nat.min_eq_left fromRow]
  refine ⟨min row.length (vlmax .e32 .m4),
    { unit, cycles := run.cycles + stripInstructions * vectorInstructionCycles },
    ?_, ?_⟩
  · exact Nat.lt_min.mpr
      ⟨List.length_pos_iff.mpr nonempty, vlmax_pos .e32 .m4⟩
  · intro rest after further
    rw [accumulateRow, if_neg nonempty]
    split
    case h_1 configured => cases configured
    case h_2 configured =>
      cases configured
      unfold VectorUnit.stripUnit at ran
      simp only [ran, further, List.take_left' taken]

/-- The strips of a row add up to the whole of it. -/
theorem accumulateRow_eq (factor : Word) {source row : List Word}
    (run : VectorRun) (covered : row.length ≤ source.length) :
    ∃ after, accumulateRow factor source row run =
      (.ok (addMultiple factor source row), after) := by
  -- Every strip takes at least one entry, so the rows get shorter.
  induction remaining : row.length using Nat.strongRecOn
      generalizing source row run with
  | _ count ih =>
      by_cases finished : row = []
      · subst finished
        exact ⟨run, accumulateRow_nil factor source run⟩
      · obtain ⟨vl, next, positive, strip⟩ :=
          accumulateRow_strip factor run finished covered
        have nonempty := List.length_pos_iff.mpr finished
        have shorter : (row.drop vl).length < count := by
          rw [List.length_drop]
          omega
        have coversRest : (row.drop vl).length ≤ (source.drop vl).length := by
          rw [List.length_drop, List.length_drop]
          omega
        obtain ⟨after, rest⟩ :=
          ih (row.drop vl).length shorter next coversRest rfl
        refine ⟨after, ?_⟩
        rw [strip _ _ rest, ← drop_addMultiple, List.take_append_drop]

end VectorBench
