import VectorBench.Proofs.Trap.Dispatch
import VectorBench.Trap.Handler

/-!
# What handling a trap can change

From an idle dispatcher a trap changes the register that its instruction
names, or it changes nothing.  While another trap is being handled it is
refused, and the dispatcher becomes idle; an instruction that sets the stack
pointer is refused before the dispatcher sees it.
-/

namespace VectorBench

namespace Word

variable {word : Word}

/-- The word of an instruction on general purpose registers. -/
def IsScalar (word : Word) : Prop :=
  word.extractLsb' 0 7 ∈ ([0x0b, 0x2b, 0x5b] : List (BitVec 7))

/-- The word of an instruction on vector registers. -/
def IsVector (word : Word) : Prop :=
  word.extractLsb' 0 7 = 0x7b

/-- The word of an instruction whose result goes to the stack pointer. -/
def SetsStackPointer (word : Word) : Prop :=
  word.IsScalar ∧ word.extractLsb' 7 5 = 2

instance (word : Word) : Decidable word.IsScalar :=
  inferInstanceAs (Decidable (_ ∈ _))

instance (word : Word) : Decidable word.SetsStackPointer :=
  inferInstanceAs (Decidable (_ ∧ _))

theorem isVector_iff :
    word.IsVector ↔ (InstructionFields.ofWord word).class? = some .vector := by
  constructor
  · intro opcode
    change OpcodeClass.ofBits? (word.extractLsb' 0 7) = some .vector
    rw [opcode]
    rfl
  · intro selected
    exact OpcodeClass.eq_bits_of_ofBits? selected

theorem isScalar_iff :
    word.IsScalar ↔ ∃ kind, kind ≠ .vector ∧
      (InstructionFields.ofWord word).class? = some kind := by
  constructor
  · intro listed
    change ∃ kind, kind ≠ OpcodeClass.vector ∧
      OpcodeClass.ofBits? (word.extractLsb' 0 7) = some kind
    simp only [IsScalar, List.mem_cons, List.not_mem_nil, or_false] at listed
    rcases listed with opcode | opcode | opcode
    · exact ⟨.load, by decide, by rw [opcode]; rfl⟩
    · exact ⟨.store, by decide, by rw [opcode]; rfl⟩
    · exact ⟨.scalar, by decide, by rw [opcode]; rfl⟩
  · rintro ⟨kind, scalar, selected⟩
    have opcode : word.extractLsb' 0 7 = kind.bits :=
      OpcodeClass.eq_bits_of_ofBits? selected
    rw [IsScalar, opcode]
    cases kind with
    | vector => contradiction
    | load | store | scalar => decide

end Word

namespace TrapContext

theorem saved_set (context : TrapContext) (register : XReg) (value : Word) :
    (context.set register value).saved =
      if register = 0 then context.saved
      else Function.update context.saved register value := by
  by_cases zero : register = 0
  · rw [set, if_pos zero, if_pos zero]
  · rw [set, if_neg zero, if_neg zero]
    funext read
    by_cases same : read = register
    · subst same
      rw [Function.update_self]
      exact Vector.getElem_set_self _
    · have apart : register.toNat ≠ read.toNat :=
        fun toNat_eq => same (BitVec.eq_of_toNat_eq toNat_eq.symm)
      rw [Function.update_of_ne same]
      exact Vector.getElem_set_ne register.isLt read.isLt apart

end TrapContext

variable {σ : Type} {service : σ → Word × σ} {fetch : Word → σ → Word × σ}
  {mcause mtval word : Word} {before after : TrapState σ} {fetched : σ}
  {result : Except Fault TrapOutcome}

/-- The instruction of a trap, and the surroundings once it is known.  The
instruction memory is asked for it exactly where an illegal instruction trap
comes without one, and then once and with the saved program counter. -/
def trappedWord (fetch : Word → σ → Word × σ) (mcause mtval : Word)
    (before : TrapState σ) : Word × σ :=
  if mcause = 2 ∧ mtval = 0 then
    fetch before.context.pc before.surroundings
  else (mtval, before.surroundings)

theorem TrapInfo.isIllegalInstruction_iff :
    ({ mcause, mtval } : TrapInfo).isIllegalInstruction = true ↔ mcause = 2 :=
  decide_eq_true_iff

theorem completeInfo_eq
    (known : trappedWord fetch mcause mtval before = (word, fetched)) :
    completeInfo fetch { mcause, mtval } before =
      ({ mcause, mtval := word }, { before with surroundings := fetched }) := by
  have asks :
      (({ mcause, mtval } : TrapInfo).isIllegalInstruction &&
        decide (mtval = 0)) = true ↔ mcause = 2 ∧ mtval = 0 := by
    rw [Bool.and_eq_true, TrapInfo.isIllegalInstruction_iff, decide_eq_true_iff]
  unfold trappedWord at known
  by_cases missing : mcause = 2 ∧ mtval = 0
  · rw [if_pos missing] at known
    rw [completeInfo, if_pos (asks.mpr missing), known]
  · rw [if_neg missing] at known
    cases known
    exact if_neg (fun asked => missing (asks.mp asked))

theorem scalarDestination?_resolved (context : TrapContext) (word : Word)
    (kind : OpcodeClass) :
    (DecodedInstruction.resolved context word kind).scalarDestination? =
      if kind = .vector then none else some (InstructionFields.ofWord word).rd := by
  cases kind <;> rfl

theorem writesStackPointer_iff {context : TrapContext} :
    writesStackPointer { mcause, mtval := word } context = true ↔
      mcause = 2 ∧ word.SetsStackPointer := by
  rw [writesStackPointer, Bool.and_eq_true, TrapInfo.isIllegalInstruction_iff,
    Word.SetsStackPointer, Word.isScalar_iff]
  apply and_congr_right
  intro _illegal
  cases selected : (InstructionFields.ofWord word).class? with
  | none => simp [decode_unsupported selected]
  | some kind =>
      rw [decode_of_class selected]
      simp only [scalarDestination?_resolved, decide_eq_true_eq,
        Option.some.injEq, exists_eq_right']
      by_cases vector : kind = .vector
      · simp [vector]
      · simp only [vector, if_false, Option.some.injEq, ne_eq,
          not_false_eq_true, true_and]
        rfl

/-- An instruction that sets the stack pointer is refused, and any other trap
goes to the dispatcher. -/
theorem handleTrap_eq
    (known : trappedWord fetch mcause mtval before = (word, fetched)) :
    handleTrap service fetch mcause mtval before =
      if mcause = 2 ∧ word.SetsStackPointer then
        (.error .illegalRegister, { before with surroundings := fetched })
      else
        dispatch service { mcause, mtval := word }
          { before with surroundings := fetched } := by
  rw [handleTrap, completeInfo_eq known]
  by_cases sets : mcause = 2 ∧ word.SetsStackPointer
  · rw [if_pos sets]
    exact if_pos (writesStackPointer_iff.mpr sets)
  · rw [if_neg sets]
    exact if_neg (fun refused => sets (writesStackPointer_iff.mp refused))

/-- A trap during a trap is refused as nested and leaves the dispatcher idle,
unless its instruction sets the stack pointer: that is refused for its register,
and the dispatcher goes on handling. -/
theorem handleTrap_handling
    (handling : before.dispatcher.state = .handling)
    (known : trappedWord fetch mcause mtval before = (word, fetched)) :
    handleTrap service fetch mcause mtval before =
      if mcause = 2 ∧ word.SetsStackPointer then
        (.error .illegalRegister, { before with surroundings := fetched })
      else
        (.error .nestedTrap,
          { before with
            dispatcher := { before.dispatcher with state := .idle }
            surroundings := fetched }) := by
  have refused : dispatch service { mcause, mtval := word }
      { before with surroundings := fetched } =
        (.error .nestedTrap,
          { before with
            dispatcher := { before.dispatcher with state := .idle }
            surroundings := fetched }) := by
    simp only [dispatch, Dispatcher.enter, handling]
  rw [handleTrap_eq known, refused]

/-- What the surroundings of a trap remember: the addresses that were fetched
from, and how often interrupts were served. -/
structure CallRecord where
  fetches : List Word
  services : Nat
deriving DecidableEq

namespace CallRecord

def none : CallRecord where
  fetches := []
  services := 0

def serve (record : CallRecord) : Word × CallRecord :=
  (0, { record with services := record.services + 1 })

/-- Every address holds `word`. -/
def load (word address : Word) (record : CallRecord) : Word × CallRecord :=
  (word, { record with fetches := record.fetches ++ [address] })

end CallRecord

/-- A core that trapped on the last instruction of memory: its registers hold
the numbers from 100 on, the slot of `x0` among them. -/
def trappedAtEnd (state : DispatchState) : TrapState CallRecord where
  dispatcher := { Dispatcher.initial Datapath.model with state }
  context := { regs := Vector.ofFn fun place => 100 + place.val, pc := 0xfffffffc }
  surroundings := .none

/-- A nested addition into `x10`, and one into `x2` that has to be fetched. -/
theorem handleTrap_handling_addition :
    (handleTrap CallRecord.serve (CallRecord.load 0) 2 0x00b0055b
        (trappedAtEnd .handling)).1 = .error .nestedTrap ∧
      (handleTrap CallRecord.serve (CallRecord.load 0x00b0015b) 2 0
        (trappedAtEnd .handling)).1 = .error .illegalRegister := by
  constructor
  · rw [handleTrap_handling rfl rfl]
    rfl
  · rw [handleTrap_handling rfl rfl]
    rfl

/-- Not every trap during a trap is reported as nested and ends the handling. -/
theorem not_every_nested_trap_reported :
    ¬ ∀ (before : TrapState CallRecord) (mcause mtval : Word),
      before.dispatcher.state = .handling →
      (handleTrap CallRecord.serve (CallRecord.load 0) mcause mtval
          before).1 = .error .nestedTrap ∧
        (handleTrap CallRecord.serve (CallRecord.load 0) mcause mtval
          before).2.dispatcher.state = .idle := by
  intro reported
  have nested := (reported (trappedAtEnd .handling) 2 0x00b0015b rfl).2
  have stays :
      (handleTrap CallRecord.serve (CallRecord.load 0) 2 0x00b0015b
        (trappedAtEnd .handling)).2.dispatcher.state = .handling := rfl
  rw [stays] at nested
  cases nested

/-- An instruction was carried out: the saved program counter is past it, and
it is counted. -/
structure Retired (before after : TrapState σ) : Prop where
  pc : after.context.pc = before.context.pc + 4
  count : after.dispatcher.emulated = before.dispatcher.emulated + 1
  emulator : after.dispatcher.emulator = before.dispatcher.emulator

/-- The endings of an illegal instruction trap, and what each leaves in the
registers. -/
inductive InstructionEnding (word : Word) (before after : TrapState σ) :
    Except Fault TrapOutcome → Prop where
  | scalar {instruction : DecodedInstruction} :
      word.IsScalar → word.extractLsb' 7 5 ≠ 2 →
      decode word before.context = .ok instruction →
      Retired before after →
      after.context.saved =
        (if word.extractLsb' 7 5 = 0 then before.context.saved
          else Function.update before.context.saved (word.extractLsb' 7 5)
            (before.dispatcher.emulator.scalarResult word
              before.context.get)) →
      after.dispatcher.vregs = before.dispatcher.vregs →
      InstructionEnding word before after
        (.ok (.emulated instruction (.word
          (before.dispatcher.emulator.scalarResult word before.context.get))))
  | vector {instruction : DecodedInstruction} :
      word.IsVector →
      decode word before.context = .ok instruction →
      Retired before after →
      after.dispatcher.vregs.readRegister =
        Function.update before.dispatcher.vregs.readRegister
          (word.extractLsb' 7 5)
          (before.dispatcher.emulator.vectorResult word
            before.dispatcher.vregs.readRegister) →
      after.context.saved = before.context.saved →
      InstructionEnding word before after
        (.ok (.emulated instruction (.vector
          (before.dispatcher.emulator.vectorResult word
            before.dispatcher.vregs.readRegister))))
  | unsupported :
      ¬ word.IsScalar → ¬ word.IsVector →
      after.dispatcher = before.dispatcher → after.context = before.context →
      InstructionEnding word before after (.error .unsupportedOpcode)
  | stackPointer :
      word.SetsStackPointer →
      after.dispatcher = before.dispatcher → after.context = before.context →
      InstructionEnding word before after (.error .illegalRegister)

namespace InstructionEnding

/-- No instruction changes the saved stack pointer. -/
theorem saved_sp (ending : InstructionEnding word before after result) :
    after.context.saved XReg.sp = before.context.saved XReg.sp := by
  cases ending with
  | scalar _scalar other _decoded _retired saved _vregs =>
      rw [saved]
      split
      case isTrue => rfl
      case isFalse => exact Function.update_of_ne (Ne.symm other) _ _
  | vector _vector _decoded _retired _vregs saved => rw [saved]
  | unsupported _scalar _vector _dispatcher context
  | stackPointer _sets _dispatcher context => rw [context]

end InstructionEnding

theorem handleTrap_instruction
    (idle : before.dispatcher.state = .idle)
    (known : trappedWord fetch 2 mtval before = (word, fetched)) :
    ∃ result after, handleTrap service fetch 2 mtval before = (result, after) ∧
      after.dispatcher.state = .idle ∧ after.surroundings = fetched ∧
      InstructionEnding word before after result := by
  have illegal :
      ({ mcause := 2, mtval := word } : TrapInfo).isIllegalInstruction = true :=
    TrapInfo.isIllegalInstruction_iff.mpr rfl
  rw [handleTrap_eq known]
  by_cases sets : word.SetsStackPointer
  · rw [if_pos ⟨rfl, sets⟩]
    exact ⟨_, _, rfl, idle, rfl, .stackPointer sets rfl rfl⟩
  rw [if_neg (fun refused => sets refused.2)]
  cases (InstructionFields.ofWord word).classCases with
  | unsupported selected =>
      rw [dispatch_unsupported service _
        { before with surroundings := fetched } idle illegal selected]
      refine ⟨_, _, rfl, idle, rfl, .unsupported ?_ ?_ rfl rfl⟩
      · intro listed
        obtain ⟨kind, _scalar, some_kind⟩ := Word.isScalar_iff.mp listed
        rw [selected] at some_kind
        cases some_kind
      · intro opcode
        rw [Word.isVector_iff, selected] at opcode
        cases opcode
  | vector selected =>
      rw [dispatch_vector service _
        { before with surroundings := fetched } idle illegal selected]
      refine ⟨_, _, rfl, idle, rfl, .vector (Word.isVector_iff.mpr selected)
        (decode_of_class selected) ⟨rfl, rfl, rfl⟩ ?_ rfl⟩
      exact VRegFile.readRegister_writeRegister _ _ _
  | scalar kind scalar selected =>
      have listed : word.IsScalar :=
        Word.isScalar_iff.mpr ⟨kind, scalar, selected⟩
      rw [dispatch_scalar service _
        { before with surroundings := fetched } idle illegal selected scalar]
      refine ⟨_, _, rfl, idle, rfl, .scalar listed
        (fun destination => sets ⟨listed, destination⟩)
        (decode_of_class selected) ⟨?_, rfl, rfl⟩ ?_ rfl⟩
      · exact congrArg (· + 4) (TrapContext.pc_set _ _ _)
      · exact TrapContext.saved_set _ _ _

/-- What a trap does to an idle dispatcher, the interrupted context and the
surroundings.  As the surroundings may keep account of the calls, the equations
on them say which of the interrupt service and the instruction memory is called,
how often and with what. -/
theorem handleTrap_idle
    (idle : before.dispatcher.state = .idle)
    (known : trappedWord fetch mcause mtval before = (word, fetched))
    (handled : handleTrap service fetch mcause mtval before = (result, after)) :
    after.dispatcher.state = .idle ∧
    after.context.saved XReg.sp = before.context.saved XReg.sp ∧
    (mcause ≠ 2 →
      result = .ok (.interrupt (service before.surroundings).1) ∧
      after =
        { before with surroundings := (service before.surroundings).2 }) ∧
    (mcause = 2 →
      after.surroundings = fetched ∧
      InstructionEnding word before after result) := by
  by_cases illegal : mcause = 2
  · subst illegal
    obtain ⟨_, _, ran, state, surroundings, ending⟩ :=
      handleTrap_instruction idle known
    rw [handled] at ran
    cases ran
    exact ⟨state, ending.saved_sp, fun other => absurd rfl other,
      fun _ => ⟨surroundings, ending⟩⟩
  · have legal :
        ({ mcause, mtval := word } : TrapInfo).isIllegalInstruction = false :=
      Bool.eq_false_iff.mpr
        (fun marked => illegal (TrapInfo.isIllegalInstruction_iff.mp marked))
    have unasked : fetched = before.surroundings := by
      rw [trappedWord, if_neg (fun asked => illegal asked.1)] at known
      exact (Prod.mk.inj known).2.symm
    subst unasked
    rw [handleTrap_eq known, if_neg (fun refused => illegal refused.1),
      dispatch_interrupt service _ _ idle legal] at handled
    cases handled
    exact ⟨idle, rfl, fun _ => ⟨rfl, rfl⟩, fun cause => absurd cause illegal⟩

/-- An addition of `x0` and `x11` into `x10` that has to be fetched. -/
def fetchedAddition : Except Fault TrapOutcome × TrapState CallRecord :=
  handleTrap CallRecord.serve (CallRecord.load 0x00b0055b) 2 0
    (trappedAtEnd .idle)

def servedInterrupt : Except Fault TrapOutcome × TrapState CallRecord :=
  handleTrap CallRecord.serve (CallRecord.load 0x00b0055b) 11 0
    (trappedAtEnd .idle)

theorem handleTrap_idle_addition :
    fetchedAddition.2.dispatcher.state = .idle ∧
    fetchedAddition.2.surroundings =
      { fetches := [0xfffffffc], services := 0 } ∧
    InstructionEnding 0x00b0055b (trappedAtEnd .idle) fetchedAddition.2
      fetchedAddition.1 ∧
    fetchedAddition.2.context.saved 10 = 111 ∧
    servedInterrupt.2 =
      { trappedAtEnd .idle with
        surroundings := { fetches := [], services := 1 } } := by
  have idle : (trappedAtEnd .idle).dispatcher.state = .idle := rfl
  have added : handleTrap CallRecord.serve (CallRecord.load 0x00b0055b) 2 0
      (trappedAtEnd .idle) = (fetchedAddition.1, fetchedAddition.2) := rfl
  have served : handleTrap CallRecord.serve (CallRecord.load 0x00b0055b) 11 0
      (trappedAtEnd .idle) = (servedInterrupt.1, servedInterrupt.2) := rfl
  obtain ⟨state, _sp, _interrupt, instruction⟩ :=
    handleTrap_idle idle rfl added
  obtain ⟨surroundings, ending⟩ := instruction rfl
  obtain ⟨_state, _sp, interrupt, _instruction⟩ :=
    handleTrap_idle idle rfl served
  exact ⟨state, surroundings, ending, rfl, (interrupt (by decide)).2⟩

end VectorBench
