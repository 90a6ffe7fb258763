import Mathlib.Logic.Function.Basic
import VectorBench.Datapath
import VectorBench.Instruction

/-!
# A plain core

The instruction set without traps, interrupts, cycles or a choice of who
carries an instruction out: a word is refused, or its result goes to one
register and the program counter moves on.
-/

namespace VectorBench

namespace Datapath

/-- What a datapath computes for the two general purpose source registers of a
word. -/
def scalarResult (datapath : Datapath) (word : Word) (xregs : XReg → Word) :
    Word :=
  let fields := InstructionFields.ofWord word
  datapath fields.operationCode fields.variantCode
    (xregs fields.rs1) (xregs fields.rs2)

/-- What a datapath computes for the two vector source registers of a word. -/
def vectorResult (datapath : Datapath) (word : Word)
    (vregs : VReg → VectorWords) : VectorWords :=
  let fields := InstructionFields.ofWord word
  datapath.onVectors fields.operationCode fields.variantCode
    (vregs fields.rs1) (vregs fields.rs2)

end Datapath

/-- The registers that a word works on: none, vector registers or general
purpose registers. -/
inductive InstructionFields.ClassCases (fields : InstructionFields) : Prop where
  | unsupported (selected : fields.class? = none)
  | vector (selected : fields.class? = some .vector)
  | scalar (kind : OpcodeClass) (scalar : kind ≠ .vector)
      (selected : fields.class? = some kind)

theorem InstructionFields.classCases (fields : InstructionFields) :
    fields.ClassCases := by
  cases selected : fields.class? with
  | none => exact .unsupported selected
  | some kind =>
      by_cases vector : kind = .vector
      · exact .vector (selected.trans (congrArg some vector))
      · exact .scalar kind vector selected

/-- What instructions can read and write. -/
structure PlainCore where
  xregs : XReg → Word
  vregs : VReg → VectorWords
  pc : Word

namespace PlainCore

/-- `x0` drops what is written to it. -/
def setX (core : PlainCore) (register : XReg) (value : Word) : PlainCore :=
  if register = 0 then core
  else { core with xregs := Function.update core.xregs register value }

def setV (core : PlainCore) (register : VReg) (words : VectorWords) : PlainCore :=
  { core with vregs := Function.update core.vregs register words }

def advance (core : PlainCore) : PlainCore :=
  { core with pc := core.pc + 4 }

/-- Carries out one word, with results computed by a datapath. -/
def step (datapath : Datapath) (core : PlainCore) (word : Word) :
    Except Fault PlainCore :=
  let rd := word.extractLsb' 7 5
  let funct3 := (word.extractLsb' 12 3).setWidth 32
  let rs1 := word.extractLsb' 15 5
  let rs2 := word.extractLsb' 20 5
  let funct7 := (word.extractLsb' 25 7).setWidth 32
  if word.extractLsb' 0 7 = 0x7b then
    let words : VectorWords := Vector.ofFn fun lane =>
      datapath funct3 funct7 (core.vregs rs1)[lane] (core.vregs rs2)[lane]
    .ok (core.setV rd words).advance
  else if word.extractLsb' 0 7 ∈ ([0x0b, 0x2b, 0x5b] : List (BitVec 7)) then
    let value := datapath funct3 funct7 (core.xregs rs1) (core.xregs rs2)
    .ok (core.setX rd value).advance
  else .error .unsupportedOpcode

/-- Carries out words in order, up to the first that is refused. -/
def run (datapath : Datapath) (core : PlainCore) :
    List Word → Except Fault Unit × PlainCore
  | [] => (.ok (), core)
  | word :: program =>
      match core.step datapath word with
      | .ok next => run datapath next program
      | .error fault => (.error fault, core)

theorem vregs_setX (core : PlainCore) (register : XReg) (value : Word) :
    (core.setX register value).vregs = core.vregs := by
  unfold setX
  split <;> rfl

theorem pc_setX (core : PlainCore) (register : XReg) (value : Word) :
    (core.setX register value).pc = core.pc := by
  unfold setX
  split <;> rfl

theorem xregs_setX_same {register : XReg} (core : PlainCore) (value : Word)
    (nonzero : register ≠ 0) :
    (core.setX register value).xregs register = value := by
  unfold setX
  rw [if_neg nonzero]
  exact Function.update_self _ _ _

theorem xregs_setX_of_ne {written read : XReg} (core : PlainCore) (value : Word)
    (distinct : read ≠ written) :
    (core.setX written value).xregs read = core.xregs read := by
  unfold setX
  split
  · rfl
  · exact Function.update_of_ne distinct _ _

theorem step_vector (datapath : Datapath) (core : PlainCore) {word : Word}
    (selected : (InstructionFields.ofWord word).class? = some .vector) :
    core.step datapath word =
      .ok (core.setV (InstructionFields.ofWord word).rd
        (datapath.vectorResult word core.vregs)).advance := by
  have opcode : word.extractLsb' 0 7 = 0x7b :=
    OpcodeClass.eq_bits_of_ofBits? selected
  have lanes :
      datapath.vectorResult word core.vregs =
        Vector.ofFn fun lane : Fin 4 =>
          datapath (InstructionFields.ofWord word).operationCode
            (InstructionFields.ofWord word).variantCode
            (core.vregs (InstructionFields.ofWord word).rs1)[lane]
            (core.vregs (InstructionFields.ofWord word).rs2)[lane] := by
    apply Vector.ext
    intro lane inside
    simp [Datapath.vectorResult, Datapath.onVectors]
  rw [lanes]
  exact if_pos opcode

theorem step_scalar (datapath : Datapath) (core : PlainCore) {word : Word}
    {kind : OpcodeClass}
    (selected : (InstructionFields.ofWord word).class? = some kind)
    (scalar : kind ≠ .vector) :
    core.step datapath word =
      .ok (core.setX (InstructionFields.ofWord word).rd
        (datapath.scalarResult word core.xregs)).advance := by
  have opcode : word.extractLsb' 0 7 = kind.bits :=
    OpcodeClass.eq_bits_of_ofBits? selected
  have notVector : word.extractLsb' 0 7 ≠ 0x7b := by
    rw [opcode]
    cases kind <;> first | decide | contradiction
  have listed : word.extractLsb' 0 7 ∈ ([0x0b, 0x2b, 0x5b] : List (BitVec 7)) := by
    rw [opcode]
    cases kind <;> first | decide | contradiction
  unfold step
  rw [if_neg notVector, if_pos listed]
  rfl

theorem step_unsupported
    {datapath : Datapath} {core : PlainCore} {word : Word}
    (selected : (InstructionFields.ofWord word).class? = none) :
    core.step datapath word = .error .unsupportedOpcode := by
  have absent : ∀ kind ∈ OpcodeClass.all, ¬ kind.bits = word.extractLsb' 0 7 := by
    intro kind member same
    have unmatched := List.find?_eq_none.mp selected kind member
    exact unmatched (decide_eq_true same)
  have notVector : word.extractLsb' 0 7 ≠ 0x7b :=
    fun opcode => absent .vector (by decide) opcode.symm
  have notListed :
      word.extractLsb' 0 7 ∉ ([0x0b, 0x2b, 0x5b] : List (BitVec 7)) := by
    intro listed
    simp only [List.mem_cons, List.not_mem_nil, or_false] at listed
    rcases listed with load | store | scalar
    · exact absent .load (by decide) load.symm
    · exact absent .store (by decide) store.symm
    · exact absent .scalar (by decide) scalar.symm
  unfold step
  rw [if_neg notVector, if_neg notListed]

end PlainCore

end VectorBench
