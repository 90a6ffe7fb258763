import VectorBench.Proofs.VRegFile.Bits
import VectorBench.VectorUnit.Arithmetic

/-!
# Loops over the elements of a group

A loop writes each element before it computes the next one.  After `count`
elements the group holds the values computed so far and the rest of the file
is as it was, provided that a step reads the same values from that file as
from the one the loop started with.
-/

namespace VectorBench

namespace VRegFile

variable {register : VReg} {width : ElementWidth}

/-- The first `count` elements of a group hold given values, and the file is
otherwise the one before. -/
structure Filled (register : VReg) (width : ElementWidth) (value : Nat → Word)
    (count : Nat) (before after : VRegFile) : Prop where
  elements : ∀ index, index < count →
    after.element register width index = (value index).setWidth width.bits
  others : SameOutside (elementPlace register width 0)
    (elementPlace register width count) after before

namespace Filled

variable {value : Nat → Word} {count : Nat} {before current : VRegFile}

theorem zero (register : VReg) (width : ElementWidth) (value : Nat → Word)
    (file : VRegFile) : Filled register width value 0 file file where
  elements := fun _index impossible => absurd impossible (Nat.not_lt_zero _)
  others := SameOutside.refl _ _ file

/-- Writing the next element extends what a group holds. -/
theorem succ (filled : Filled register width value count before current)
    (inside : ∀ index, index ≤ count → Contains register width index) :
    ∃ after,
      current.writeElement register width count (value count) = (.ok (), after) ∧
      Filled register width value (count + 1) before after := by
  obtain ⟨after, wrote, new, outside⟩ :=
    writeElement_eq current (inside count (Nat.le_refl _)) (value count)
  refine ⟨after, wrote, ?_, ?_⟩
  · intro index below
    rcases Nat.lt_succ_iff_lt_or_eq.mp below with earlier | rfl
    · have kept : after.element register width index =
          current.element register width index := by
        apply outside.element (inside index (Nat.le_of_lt earlier))
        left
        rw [← elementPlace_succ]
        exact elementPlace_mono register width earlier
      rw [kept, filled.elements index earlier]
    · exact new
  · have wider := outside.mono
      (elementPlace_mono register width (Nat.zero_le count)) (Nat.le_refl _)
    exact wider.trans (filled.others.mono (Nat.le_refl _)
      (elementPlace_mono register width (Nat.le_succ count)))

end Filled

theorem computeElements_filled
    {element : VRegFile → Nat → Except Fault Word} {value : Nat → Word}
    {before : VRegFile} {count index : Nat} {current : VRegFile}
    (inside : ∀ i, i < index + count → Contains register width i)
    (computes : ∀ i file, i < index + count →
      Filled register width value i before file →
      element file i = .ok (value i))
    (filled : Filled register width value index before current) :
    ∃ after,
      computeElements register width element count index current =
        (.ok (), after) ∧
      Filled register width value (index + count) before after := by
  induction count generalizing index current with
  | zero => exact ⟨current, rfl, filled⟩
  | succ count ih =>
      obtain ⟨next, wrote, further⟩ :=
        filled.succ (fun i below => inside i (by omega))
      have shifted : index + (count + 1) = index + 1 + count := by omega
      rw [shifted] at inside computes ⊢
      obtain ⟨after, ran, done⟩ := ih inside computes further
      refine ⟨after, ?_, done⟩
      rw [computeElements, computes index current (by omega) filled]
      simp only [wrote, ran]

/-- A loop whose steps compute given values leaves them in the group. -/
theorem computeElements_eq
    {element : VRegFile → Nat → Except Fault Word} {value : Nat → Word}
    {count : Nat} {file : VRegFile}
    (inside : ∀ index, index < count → Contains register width index)
    (computes : ∀ index current, index < count →
      Filled register width value index file current →
      element current index = .ok (value index)) :
    ∃ after,
      computeElements register width element count 0 file = (.ok (), after) ∧
      Filled register width value count file after := by
  have start := Filled.zero register width value file
  rw [← Nat.zero_add count] at inside computes
  have steps := computeElements_filled inside computes start
  rwa [Nat.zero_add] at steps

/-- A loop over a group inside the file can only stop at a step that computes
no value, and has then changed nothing from that element on. -/
theorem computeElements_stopped
    {element : VRegFile → Nat → Except Fault Word}
    {count index : Nat} {before after : VRegFile} {fault : Fault}
    (inside : ∀ i, i < index + count → Contains register width i)
    (stopped : computeElements register width element count index before =
      (.error fault, after)) :
    ∃ stop, index ≤ stop ∧ stop < index + count ∧
      element after stop = .error fault ∧
      SameOutside (elementPlace register width index)
        (elementPlace register width stop) after before := by
  induction count generalizing index before with
  | zero =>
      rw [computeElements] at stopped
      cases stopped
  | succ count ih =>
      cases computed : element before index with
      | error reason =>
          simp only [computeElements, computed, Prod.mk.injEq,
            Except.error.injEq] at stopped
          obtain ⟨rfl, rfl⟩ := stopped
          exact ⟨index, Nat.le_refl _, by omega, computed,
            SameOutside.refl _ _ before⟩
      | ok value =>
          obtain ⟨next, wrote, _new, outside⟩ :=
            writeElement_eq before (inside index (by omega)) value
          simp only [computeElements, computed, wrote] at stopped
          obtain ⟨stop, above, below, reason, same⟩ :=
            ih (fun i below => inside i (by omega)) stopped
          refine ⟨stop, by omega, by omega, reason, ?_⟩
          have later : SameOutside (elementPlace register width index)
              (elementPlace register width stop) after next :=
            same.mono (elementPlace_mono register width (Nat.le_succ index))
              (Nat.le_refl _)
          exact later.trans (outside.mono (Nat.le_refl _)
            (elementPlace_mono register width above))

/-- A loop over mask bits that can all be computed runs to its end. -/
theorem computeMask_ok {bit : VRegFile → Nat → Except Fault Bool}
    {count index : Nat}
    (computes : ∀ i, i < index + count → ∀ file,
      ∃ value, bit file i = .ok value) (file : VRegFile) :
    (computeMask register bit count index file).1 = .ok () := by
  induction count generalizing index file with
  | zero => rfl
  | succ count ih =>
      obtain ⟨value, computed⟩ := computes index (by omega) file
      simp only [computeMask, computed]
      exact ih (fun i below => computes i (by omega)) _

theorem writeElements_eq_computeElements (value : Nat → Word)
    {elements : List Word} {index : Nat}
    (listed : ∀ offset (below : offset < elements.length),
      value (index + offset) = elements[offset]) (file : VRegFile) :
    writeElements register width elements index file =
      computeElements register width (fun _ i => .ok (value i))
        elements.length index file := by
  induction elements generalizing index file with
  | nil => rfl
  | cons element elements ih =>
      have first : value index = element := listed 0 (Nat.zero_lt_succ _)
      have later : ∀ offset (below : offset < elements.length),
          value (index + 1 + offset) = elements[offset] := by
        intro offset below
        have here := listed (offset + 1) (Nat.succ_lt_succ below)
        rwa [← Nat.add_assoc, Nat.add_right_comm] at here
      simp only [writeElements, List.length_cons, computeElements, first,
        ih later]

theorem storeElements_eq {file : VRegFile} {bits : Nat}
    {places : List (BitVec bits)} {index : Nat}
    (inside : ∀ i, i < index + places.length → Contains register width i) :
    file.storeElements register width places index =
      (.ok (), (List.range' index places.length).map fun i =>
        ((file.element register width i).setWidth 32).setWidth bits) := by
  induction places generalizing index with
  | nil => rfl
  | cons place places ih =>
      rw [List.length_cons] at inside
      have first : file.readElement register width index =
          .ok ((file.element register width index).setWidth 32) :=
        readElement_eq (inside index (by omega))
      have rest : file.storeElements register width places (index + 1) = _ :=
        ih (fun i below => inside i (by omega))
      simp only [storeElements, first, rest, List.length_cons,
        List.range'_succ, List.map_cons]

end VRegFile

end VectorBench
