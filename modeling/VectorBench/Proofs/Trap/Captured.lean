import VectorBench.Proofs.Trap.Dispatch

/-!
# Registers in a captured context

A context that a register file was captured in answers reads and writes as the
file does, and restoring it gives the file that they would have left, whatever
is put in the saved place of `x0` meanwhile.  A register file without a fixed
`x0`, in which only the accesses are checked, behaves as the file with one.
-/

namespace VectorBench

/-- Something whose registers are read and written by number. -/
structure RegisterPort (σ : Type) where
  read : σ → Word → Except Fault Word
  write : σ → Word → Word → Except Fault σ

inductive RegisterAccess where
  | read (number : Word)
  | write (number value : Word)

inductive AccessAnswer where
  | value (result : Except Fault Word)
  | done (result : Except Fault Unit)

namespace RegisterPort

variable {σ τ : Type} {port : RegisterPort σ} {other : RegisterPort τ}
  {view : σ → τ}

/-- Carries out one access.  A refused write changes nothing. -/
def perform (port : RegisterPort σ) (state : σ) :
    RegisterAccess → AccessAnswer × σ
  | .read number => (.value (port.read state number), state)
  | .write number value =>
      match port.write state number value with
      | .ok after => (.done (.ok ()), after)
      | .error fault => (.done (.error fault), state)

def performAll (port : RegisterPort σ) (state : σ) :
    List RegisterAccess → List AccessAnswer × σ
  | [] => ([], state)
  | access :: accesses =>
      let (answer, state) := port.perform state access
      let (answers, state) := port.performAll state accesses
      (answer :: answers, state)

/-- Accesses to the states of a port are accesses to what a view shows of them,
through the other port. -/
structure Shows (port : RegisterPort σ) (view : σ → τ)
    (other : RegisterPort τ) : Prop where
  read : ∀ state number, other.read (view state) number = port.read state number
  write : ∀ state number value,
    other.write (view state) number value =
      (port.write state number value).map view

theorem Shows.perform (shows : port.Shows view other) (state : σ)
    (access : RegisterAccess) :
    other.perform (view state) access =
      (port.perform state access).map id view := by
  cases access with
  | read number => simp only [RegisterPort.perform, shows.read]; rfl
  | write number value =>
      simp only [RegisterPort.perform, shows.write]
      cases port.write state number value <;> rfl

theorem Shows.performAll (shows : port.Shows view other) (state : σ)
    (accesses : List RegisterAccess) :
    other.performAll (view state) accesses =
      (port.performAll state accesses).map id view := by
  induction accesses generalizing state with
  | nil => rfl
  | cons access accesses ih =>
      simp only [RegisterPort.performAll, shows.perform, Prod.map_fst,
        Prod.map_snd, ih]
      rfl

end RegisterPort

/-- The ways a number names a register, or names none. -/
inductive RegisterNumber (number : Word) : Prop where
  | zero : number = 0 → registerOfNumber number = .ok 0 → RegisterNumber number
  | positive (register : XReg) :
      number ≠ 0 → 1 ≤ number ∧ number ≤ 31 →
      register.toNat = number.toNat → registerOfNumber number = .ok register →
      RegisterNumber number
  | outside :
      number ≠ 0 → ¬ (1 ≤ number ∧ number ≤ 31) →
      registerOfNumber number = .error .illegalRegister →
      RegisterNumber number

theorem registerNumber (number : Word) : RegisterNumber number := by
  have limit : number ≤ 31 ↔ number < 32 := by
    rw [BitVec.le_def, BitVec.lt_def]
    exact Nat.lt_succ_iff.symm
  by_cases zero : number = 0
  · subst zero
    exact .zero rfl rfl
  · have positive : 1 ≤ number := by
      rw [BitVec.le_def]
      exact Nat.pos_of_ne_zero fun none => zero (BitVec.eq_of_toNat_eq none)
    by_cases inside : number < 32
    · refine .positive (number.setWidth 5) zero ⟨positive, limit.mpr inside⟩ ?_ ?_
      · rw [BitVec.toNat_setWidth]
        exact Nat.mod_eq_of_lt (BitVec.lt_def.mp inside)
      · rw [registerOfNumber, registerOfNumber?, if_pos inside]
    · refine .outside zero (fun range => inside (limit.mp range.2)) ?_
      rw [registerOfNumber, registerOfNumber?, if_neg inside]

/-! ### A file without a fixed register -/

/-- Thirty-two words, of which the first may be any.  Every access is checked. -/
structure CheckedRegisters where
  words : Vector Word 32

namespace CheckedRegisters

theorem toNat_lt {number : Word} (inside : 1 ≤ number ∧ number ≤ 31) :
    number.toNat < 32 :=
  Nat.lt_succ_of_le (BitVec.le_def.mp inside.2)

def zeroed : CheckedRegisters where
  words := Vector.replicate 32 0

/-- Register 0 reads as zero and the registers from 1 to 31 as their words. -/
def read (registers : CheckedRegisters) (number : Word) : Except Fault Word :=
  if number = 0 then .ok 0
  else if inside : 1 ≤ number ∧ number ≤ 31 then
    .ok (registers.words.get ⟨number.toNat, toNat_lt inside⟩)
  else .error .illegalRegister

/-- What is written to register 0 is dropped. -/
def write (registers : CheckedRegisters) (number value : Word) :
    Except Fault CheckedRegisters :=
  if number = 0 then .ok registers
  else if inside : 1 ≤ number ∧ number ≤ 31 then
    .ok { words := registers.words.set number.toNat value (toNat_lt inside) }
  else .error .illegalRegister

/-- Overwrites all words, and then the first with zero. -/
def restore (_registers : CheckedRegisters) (snapshot : Vector Word 32) :
    CheckedRegisters where
  words := snapshot.set 0 0 (Nat.zero_lt_succ 31)

/-- Restores a context, and the address to go on at. -/
def restoreFrom (registers : CheckedRegisters) (context : TrapContext) :
    Word × CheckedRegisters :=
  (context.pc, registers.restore context.regs)

def port : RegisterPort CheckedRegisters where
  read := read
  write := write

end CheckedRegisters

namespace XRegFile

def port : RegisterPort XRegFile where
  read := read
  write := write

/-- The words of a file, as registers of which nothing is fixed. -/
def unfixed (file : XRegFile) : CheckedRegisters where
  words := file.regs

theorem read_unfixed (file : XRegFile) (number : Word) :
    file.unfixed.read number = file.read number := by
  cases registerNumber number with
  | zero zero named =>
      rw [CheckedRegisters.read, if_pos zero, read, named]
      exact congrArg Except.ok file.get_zero.symm
  | positive register nonzero inside same named =>
      rw [CheckedRegisters.read, if_neg nonzero, dif_pos inside, read, named]
      simp only [Except.map, get, same]
      rfl
  | outside nonzero outside named =>
      rw [CheckedRegisters.read, if_neg nonzero, dif_neg outside, read, named]
      rfl

theorem unfixed_set (file : XRegFile) {register : XReg} (value : Word)
    (nonzero : register ≠ 0) :
    (file.set register value).unfixed =
      { words := file.regs.set register.toNat value register.isLt } := by
  rw [set, dif_neg nonzero]
  rfl

theorem write_unfixed (file : XRegFile) (number value : Word) :
    file.unfixed.write number value =
      (file.write number value).map unfixed := by
  cases registerNumber number with
  | zero zero named =>
      rw [CheckedRegisters.write, if_pos zero, write, named]
      exact congrArg Except.ok (congrArg unfixed (file.set_zero value).symm)
  | positive register nonzero inside same named =>
      have other : register ≠ 0 := by
        rintro rfl
        exact nonzero (BitVec.eq_of_toNat_eq same.symm)
      rw [CheckedRegisters.write, if_neg nonzero, dif_pos inside, write, named]
      simp only [Except.map, unfixed_set file value other, same]
      rfl
  | outside nonzero outside named =>
      rw [CheckedRegisters.write, if_neg nonzero, dif_neg outside, write, named]
      rfl

theorem shows_unfixed : port.Shows unfixed CheckedRegisters.port where
  read := read_unfixed
  write := write_unfixed

end XRegFile

/-! ### Files that can be reached -/

inductive FileChange where
  | reset
  | write (number value : Word)
  | restore (snapshot : Vector Word 32)

namespace FileChange

def onFile (file : XRegFile) : FileChange → XRegFile
  | .reset => XRegFile.zeroed
  | .write number value => (XRegFile.port.perform file (.write number value)).2
  | .restore snapshot => XRegFile.ofSnapshot snapshot

def onChecked (registers : CheckedRegisters) : FileChange → CheckedRegisters
  | .reset => CheckedRegisters.zeroed
  | .write number value =>
      (CheckedRegisters.port.perform registers (.write number value)).2
  | .restore snapshot => registers.restore snapshot

def fileAfter (changes : List FileChange) : XRegFile :=
  changes.foldl onFile XRegFile.zeroed

def checkedAfter (changes : List FileChange) : CheckedRegisters :=
  changes.foldl onChecked CheckedRegisters.zeroed

theorem onChecked_unfixed (file : XRegFile) (change : FileChange) :
    change.onChecked file.unfixed = (change.onFile file).unfixed := by
  cases change with
  | reset => rfl
  | write number value =>
      exact congrArg Prod.snd
        (XRegFile.shows_unfixed.perform file (.write number value))
  | restore snapshot => rfl

theorem checkedAfter_eq (changes : List FileChange) :
    checkedAfter changes = (fileAfter changes).unfixed := by
  have run : changes.foldl onChecked XRegFile.zeroed.unfixed =
      (changes.foldl onFile XRegFile.zeroed).unfixed :=
    List.foldl_hom XRegFile.unfixed onChecked_unfixed
  exact run

end FileChange

/-! ### Contexts -/

namespace TrapContext

def port : RegisterPort TrapContext where
  read := read
  write := write

theorem get_restored (context : TrapContext) (register : XReg) :
    context.restored.get register = context.get register := by
  by_cases zero : register = 0
  · rw [zero, XRegFile.get_zero, get, if_pos rfl]
  · have positive : 0 ≠ register.toNat := fun none =>
      zero (BitVec.eq_of_toNat_eq none.symm)
    rw [get, if_neg zero]
    exact Vector.getElem_set_ne (by decide) register.isLt positive

theorem restored_overwrite_zero (context : TrapContext) (value : Word) :
    (context.overwrite 0 value).restored = context.restored := by
  -- Restoring puts zero in the place anyway.
  simp [overwrite, restored, XRegFile.ofSnapshot]

theorem shows_restored : port.Shows restored XRegFile.port where
  read context number := by
    change (registerOfNumber number).map context.restored.get =
      (registerOfNumber number).map context.get
    rw [funext context.get_restored]
  write context number value := by
    change (registerOfNumber number).map _ =
      ((registerOfNumber number).map _).map restored
    cases registerOfNumber number with
    | error fault => rfl
    | ok register =>
        exact congrArg Except.ok (context.restored_set register value).symm

end TrapContext

/-- What is done to a context between its capture and its restoration. -/
inductive ContextStep where
  | perform (access : RegisterAccess)
  /-- Puts a word in the saved place of `x0`. -/
  | overwriteZero (value : Word)

namespace ContextStep

/-- The answers to the accesses among some steps, and the context after all. -/
def run (context : TrapContext) :
    List ContextStep → List AccessAnswer × TrapContext
  | [] => ([], context)
  | .perform access :: steps =>
      let (answer, context) := TrapContext.port.perform context access
      let (answers, context) := run context steps
      (answer :: answers, context)
  | .overwriteZero value :: steps => run (context.overwrite 0 value) steps

def accesses : List ContextStep → List RegisterAccess
  | [] => []
  | .perform access :: steps => access :: accesses steps
  | .overwriteZero _ :: steps => accesses steps

/-- A context answers as the file that it would restore, and goes on restoring
what that file becomes. -/
theorem run_restored (context : TrapContext) (steps : List ContextStep) :
    XRegFile.port.performAll context.restored (accesses steps) =
      (run context steps).map id TrapContext.restored := by
  induction steps generalizing context with
  | nil => rfl
  | cons step steps ih =>
      cases step with
      | perform access =>
          simp only [accesses, run, RegisterPort.performAll,
            TrapContext.shows_restored.perform, Prod.map_fst, Prod.map_snd, ih]
          rfl
      | overwriteZero value =>
          rw [accesses, run, ← ih, TrapContext.restored_overwrite_zero]

end ContextStep

namespace TrapContext

theorem pc_write {context after : TrapContext} {number value : Word}
    (written : context.write number value = .ok after) :
    after.pc = context.pc := by
  unfold write at written
  cases named : registerOfNumber number with
  | error fault =>
      rw [named] at written
      cases written
  | ok register =>
      rw [named] at written
      cases written
      exact pc_set context register value

theorem pc_perform (context : TrapContext) (access : RegisterAccess) :
    (port.perform context access).2.pc = context.pc := by
  cases access with
  | read number => rfl
  | write number value =>
      simp only [RegisterPort.perform, port]
      cases written : context.write number value with
      | error fault => rfl
      | ok after => exact pc_write written

theorem pc_run (context : TrapContext) (steps : List ContextStep) :
    (ContextStep.run context steps).2.pc = context.pc := by
  induction steps generalizing context with
  | nil => rfl
  | cons step steps ih =>
      cases step with
      | perform access => exact (ih _).trans (pc_perform context access)
      | overwriteZero value => exact ih _

end TrapContext

/-- A context behaves as the register file that it was captured from: for every
file that can be reached, accesses get the same answers from the context, from
the file and from the registers in which nothing is fixed, and lead to the same
file, whatever is put in the saved place of `x0` meanwhile.  The program counter
comes back with the file, and `x0` is zero in every file that can be reached. -/
theorem captured_context_transparent (changes : List FileChange) (pc : Word)
    (steps : List ContextStep) (target : CheckedRegisters) :
    let file := FileChange.fileAfter changes
    let registers := FileChange.checkedAfter changes
    let direct := CheckedRegisters.port.performAll registers
      (ContextStep.accesses steps)
    let captured := ContextStep.run (TrapContext.capture file pc) steps
    (registers.words = file.regs ∧ registers.words.get 0 = 0 ∧
      registers.read 0 = .ok 0) ∧
    captured.1 = direct.1 ∧ target.restoreFrom captured.2 = (pc, direct.2) ∧
    XRegFile.port.performAll file (ContextStep.accesses steps) =
      captured.map id TrapContext.restored := by
  intro file registers direct captured
  have same : registers = file.unfixed := FileChange.checkedAfter_eq changes
  have onFile : XRegFile.port.performAll file (ContextStep.accesses steps) =
      captured.map id TrapContext.restored := by
    have run := ContextStep.run_restored (.capture file pc) steps
    rwa [TrapContext.restored_capture] at run
  have onRegisters : direct =
      captured.map id (XRegFile.unfixed ∘ TrapContext.restored) := by
    calc
      direct = (XRegFile.port.performAll file
          (ContextStep.accesses steps)).map id XRegFile.unfixed := by
        rw [← XRegFile.shows_unfixed.performAll, ← same]
      _ = captured.map id (XRegFile.unfixed ∘ TrapContext.restored) := by
        rw [onFile, Prod.map_map, Function.comp_id]
  refine ⟨⟨?words, ?zero, rfl⟩, ?answers, ?restored, onFile⟩
  case words => rw [same]; rfl
  case zero =>
    rw [same]
    exact file.zero_eq
  case answers => rw [onRegisters]; rfl
  case restored =>
    rw [onRegisters]
    exact congrArg (·, _) (TrapContext.pc_run (.capture file pc) steps)

end VectorBench
