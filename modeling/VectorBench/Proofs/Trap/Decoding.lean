import Mathlib.Algebra.Group.Nat.Defs
import VectorBench.Proofs.Instruction.Encoding
import VectorBench.Proofs.Trap.Dispatch

/-!
# Decoding undoes encoding

A word decodes exactly where its low seven bits name an opcode class, and then
it can be encoded again from what it decodes to.  No word names a register that
does not exist: a decoder that checks every register number decodes alike.
-/

namespace VectorBench

/-- Some bits of a word as a number. -/
def Word.fieldNumber (word : Word) (start width : Nat) : Word :=
  BitVec.ofNat 32 (word.toNat / 2 ^ start % 2 ^ width)

theorem toNat_field (word : Word) (start width : Nat) :
    (word.extractLsb' start width).toNat =
      word.toNat / 2 ^ start % 2 ^ width := by
  rw [BitVec.extractLsb'_toNat, Nat.shiftRight_eq_div_pow]

theorem fieldNumber_eq_setWidth (word : Word) (start width : Nat) :
    word.fieldNumber start width =
      (word.extractLsb' start width).setWidth 32 := by
  apply BitVec.eq_of_toNat_eq
  rw [Word.fieldNumber, BitVec.toNat_ofNat, BitVec.toNat_setWidth, toNat_field]

/-- The numbers that an instruction is encoded from. -/
structure FieldNumbers where
  opcode : OpcodeClass
  funct3 : Word
  funct7 : Word
  rd : Word
  rs1 : Word
  rs2 : Word
deriving DecidableEq

namespace FieldNumbers

def encode (numbers : FieldNumbers) : Word :=
  VectorBench.encode numbers.opcode numbers.funct3 numbers.funct7 numbers.rd
    numbers.rs1 numbers.rs2

/-- Every number fits its field. -/
def InRange (numbers : FieldNumbers) : Prop :=
  numbers.funct3 < 8 ∧ numbers.funct7 < 128 ∧ numbers.rd < 32 ∧
    numbers.rs1 < 32 ∧ numbers.rs2 < 32

instance : DecidablePred InRange :=
  fun _ => inferInstanceAs (Decidable (_ ∧ _))

/-- The numbers modulo what their fields hold. -/
def cut (numbers : FieldNumbers) : FieldNumbers where
  opcode := numbers.opcode
  funct3 := numbers.funct3 % 8
  funct7 := numbers.funct7 % 128
  rd := numbers.rd % 32
  rs1 := numbers.rs1 % 32
  rs2 := numbers.rs2 % 32

theorem cut_eq_self {numbers : FieldNumbers} (fits : numbers.InRange) :
    numbers.cut = numbers := by
  obtain ⟨funct3, funct7, rd, rs1, rs2⟩ := fits
  simp only [cut, BitVec.umod_eq_of_lt funct3, BitVec.umod_eq_of_lt funct7,
    BitVec.umod_eq_of_lt rd, BitVec.umod_eq_of_lt rs1,
    BitVec.umod_eq_of_lt rs2]

/-- A word of zeros in which the fields are set one after the other. -/
def setInTurn (numbers : FieldNumbers) : Word :=
  let word := replaceBits (0 : Word) 0 numbers.opcode.bits
  let word := replaceBits word 7 (numbers.rd.setWidth 5)
  let word := replaceBits word 12 (numbers.funct3.setWidth 3)
  let word := replaceBits word 15 (numbers.rs1.setWidth 5)
  let word := replaceBits word 20 (numbers.rs2.setWidth 5)
  replaceBits word 25 (numbers.funct7.setWidth 7)

theorem encode_eq_setInTurn (numbers : FieldNumbers) :
    numbers.encode = numbers.setInTurn := by
  apply BitVec.eq_of_getLsbD_eq
  intro place inside
  simp only [setInTurn, getLsbD_replaceBits _ _ _ inside, encode,
    VectorBench.encode, InstructionFields.toWord, InstructionFields.ofNumbers,
    BitVec.getLsbD_append]
  grind

theorem ofWord_encode (numbers : FieldNumbers) :
    InstructionFields.ofWord numbers.encode =
      InstructionFields.ofNumbers numbers.opcode numbers.funct3 numbers.funct7
        numbers.rd numbers.rs1 numbers.rs2 :=
  InstructionFields.ofWord_toWord _

theorem class?_encode (numbers : FieldNumbers) :
    (InstructionFields.ofWord numbers.encode).class? = some numbers.opcode := by
  rw [ofWord_encode]
  exact OpcodeClass.ofBits?_bits numbers.opcode

end FieldNumbers

namespace DecodedInstruction

variable {instruction : DecodedInstruction} {word : Word}
  {context : TrapContext} {kind : OpcodeClass}

/-- The numbers that an instruction was decoded from. -/
def numbers (instruction : DecodedInstruction) : FieldNumbers where
  opcode := instruction.opcode
  funct3 := instruction.fields.operationCode
  funct7 := instruction.fields.variantCode
  rd := instruction.fields.rd.setWidth 32
  rs1 := instruction.fields.rs1.setWidth 32
  rs2 := instruction.fields.rs2.setWidth 32

/-- An instruction holds what stands in the fields of a word.  Scalar operands
are the values that a context has for the source registers, with zero for `x0`
whatever is saved in its place. -/
structure Reads (instruction : DecodedInstruction) (word : Word)
    (context : TrapContext) : Prop where
  opcode : instruction.opcode.bits.toNat = word.toNat % 128
  funct3 : instruction.numbers.funct3 = word.fieldNumber 12 3
  funct7 : instruction.numbers.funct7 = word.fieldNumber 25 7
  rd : instruction.numbers.rd = word.fieldNumber 7 5
  rs1 : instruction.numbers.rs1 = word.fieldNumber 15 5
  rs2 : instruction.numbers.rs2 = word.fieldNumber 20 5
  vector : instruction.opcode = .vector →
    instruction.operands = .vector instruction.fields.rs1
      instruction.fields.rs2 instruction.fields.rd
  scalar : instruction.opcode ≠ .vector →
    instruction.operands = .scalar
      (if instruction.fields.rs1 = 0 then 0
        else context.saved instruction.fields.rs1)
      (if instruction.fields.rs2 = 0 then 0
        else context.saved instruction.fields.rs2)
      instruction.fields.rd

theorem reads_resolved
    (selected : (InstructionFields.ofWord word).class? = some kind) :
    (resolved context word kind).Reads word context where
  opcode := by
    have opcode : word.extractLsb' 0 7 = kind.bits :=
      OpcodeClass.eq_bits_of_ofBits? selected
    simp [resolved, ← opcode]
  funct3 := (fieldNumber_eq_setWidth word 12 3).symm
  funct7 := (fieldNumber_eq_setWidth word 25 7).symm
  rd := (fieldNumber_eq_setWidth word 7 5).symm
  rs1 := (fieldNumber_eq_setWidth word 15 5).symm
  rs2 := (fieldNumber_eq_setWidth word 20 5).symm
  vector := by
    intro vector
    have same : kind = .vector := vector
    subst same
    rfl
  scalar := Operands.resolve_scalar

theorem encode_resolved
    (selected : (InstructionFields.ofWord word).class? = some kind) :
    (resolved context word kind).encode = word := by
  have opcode : kind.bits = (InstructionFields.ofWord word).opcode :=
    (OpcodeClass.eq_bits_of_ofBits? selected).symm
  rw [encode, resolved, opcode]
  exact InstructionFields.toWord_ofWord word

theorem numbers_resolved_encode (numbers : FieldNumbers) :
    (resolved context numbers.encode numbers.opcode).numbers = numbers.cut := by
  have remainder : ∀ (number : Word) (width : Nat), width < 32 →
      (number.setWidth width).setWidth 32 = number % BitVec.ofNat 32 (2 ^ width) := by
    intro number width narrow
    have small : 2 ^ width < 2 ^ 32 := Nat.pow_lt_pow_right (by decide) narrow
    apply BitVec.eq_of_toNat_eq
    rw [BitVec.toNat_setWidth, BitVec.toNat_setWidth, BitVec.toNat_umod,
      BitVec.toNat_ofNat, Nat.mod_eq_of_lt small, Nat.mod_eq_of_lt]
    exact Nat.lt_trans (Nat.mod_lt _ (Nat.two_pow_pos width)) small
  simp only [DecodedInstruction.numbers, resolved,
    FieldNumbers.ofWord_encode, InstructionFields.ofNumbers,
    InstructionFields.operationCode, InstructionFields.variantCode]
  rw [remainder numbers.funct3 3 (by decide),
    remainder numbers.funct7 7 (by decide), remainder numbers.rd 5 (by decide),
    remainder numbers.rs1 5 (by decide), remainder numbers.rs2 5 (by decide)]
  rfl

end DecodedInstruction

/-- What the low seven bits of the opcode classes are as numbers. -/
def opcodeNumbers : List Nat :=
  [0x0b, 0x2b, 0x5b, 0x7b]

namespace OpcodeClass

theorem ofWord?_setWidth (code : BitVec 7) :
    ofWord? (code.setWidth 32) = ofBits? code := by
  have same : ∀ kind : OpcodeClass,
      kind.bits.setWidth 32 = code.setWidth 32 ↔ kind.bits = code := by
    intro kind
    constructor
    · intro widened
      have narrowed := congrArg (BitVec.setWidth 7) widened
      simpa using narrowed
    · intro bits
      rw [bits]
  simp only [ofWord?, ofBits?, same]

theorem exists_ofBits?_iff {code : BitVec 7} :
    (∃ kind, ofBits? code = some kind) ↔ code.toNat ∈ opcodeNumbers := by
  constructor
  · rintro ⟨kind, selected⟩
    rw [eq_bits_of_ofBits? selected]
    cases kind <;> decide
  · intro listed
    have found : ∀ kind : OpcodeClass, code.toNat = kind.bits.toNat →
        ∃ kind, ofBits? code = some kind := by
      intro kind number
      rw [BitVec.eq_of_toNat_eq number]
      exact ⟨kind, ofBits?_bits kind⟩
    simp only [opcodeNumbers, List.mem_cons, List.not_mem_nil, or_false]
      at listed
    rcases listed with load | store | scalar | vector
    · exact found .load load
    · exact found .store store
    · exact found .scalar scalar
    · exact found .vector vector

end OpcodeClass

theorem registerOfNumber_fieldNumber (word : Word) (start : Nat) :
    registerOfNumber (word.fieldNumber start 5) =
      .ok (word.extractLsb' start 5) := by
  have below : (word.extractLsb' start 5).setWidth 32 < (32 : Word) := by
    have small := (word.extractLsb' start 5).isLt
    have limit : (32 : Word).toNat = 2 ^ 5 := rfl
    rw [BitVec.lt_def, BitVec.toNat_setWidth, limit]
    exact Nat.lt_of_le_of_lt (Nat.mod_le _ _) small
  rw [fieldNumber_eq_setWidth, registerOfNumber, registerOfNumber?,
    if_pos below, BitVec.setWidth_setWidth_of_le _ (by decide),
    BitVec.setWidth_eq]

theorem TrapContext.read_fieldNumber (context : TrapContext) (word : Word)
    (start : Nat) :
    context.read (word.fieldNumber start 5) =
      .ok (context.get (word.extractLsb' start 5)) := by
  rw [read, registerOfNumber_fieldNumber]
  rfl

/-- Decodes a word from the numbers in its fields, and asks of each number that
stands for a register whether there is such a register. -/
def decodeChecked (word : Word) (context : TrapContext) :
    Except Fault DecodedInstruction :=
  match OpcodeClass.ofWord? (word.fieldNumber 0 7) with
  | none => .error .unsupportedOpcode
  | some opcode => do
      let operands ←
        match opcode with
        | .vector => do
            let vs1 ← registerOfNumber (word.fieldNumber 15 5)
            let vs2 ← registerOfNumber (word.fieldNumber 20 5)
            let vd ← registerOfNumber (word.fieldNumber 7 5)
            pure (Operands.vector vs1 vs2 vd)
        | .load | .store | .scalar => do
            let a ← context.read (word.fieldNumber 15 5)
            let b ← context.read (word.fieldNumber 20 5)
            let rd ← registerOfNumber (word.fieldNumber 7 5)
            pure (Operands.scalar a b rd)
      let fields := InstructionFields.ofNumbers opcode
        (word.fieldNumber 12 3) (word.fieldNumber 25 7) (word.fieldNumber 7 5)
        (word.fieldNumber 15 5) (word.fieldNumber 20 5)
      pure { opcode, fields, operands }

/-- No register number of a word is refused. -/
theorem decodeChecked_eq_decode (word : Word) (context : TrapContext) :
    decodeChecked word context = decode word context := by
  have opcodeNumber : OpcodeClass.ofWord? (word.fieldNumber 0 7) =
      (InstructionFields.ofWord word).class? := by
    rw [fieldNumber_eq_setWidth, OpcodeClass.ofWord?_setWidth]
    rfl
  unfold decodeChecked
  rw [opcodeNumber]
  cases selected : (InstructionFields.ofWord word).class? with
  | none => rw [decode_unsupported selected]
  | some kind =>
      have fields : InstructionFields.ofNumbers kind (word.fieldNumber 12 3)
          (word.fieldNumber 25 7) (word.fieldNumber 7 5)
          (word.fieldNumber 15 5) (word.fieldNumber 20 5) =
            InstructionFields.ofWord word := by
        have opcode : word.extractLsb' 0 7 = kind.bits :=
          OpcodeClass.eq_bits_of_ofBits? selected
        simp [InstructionFields.ofNumbers, InstructionFields.ofWord,
          fieldNumber_eq_setWidth, opcode]
      rw [decode_of_class selected]
      cases kind <;>
        simp only [registerOfNumber_fieldNumber, TrapContext.read_fieldNumber,
          fields] <;> rfl

theorem exists_class?_iff (word : Word) :
    (∃ kind, (InstructionFields.ofWord word).class? = some kind) ↔
      word.toNat % 128 ∈ opcodeNumbers := by
  have low : (word.extractLsb' 0 7).toNat = word.toNat % 128 := by
    simp
  rw [← low]
  exact OpcodeClass.exists_ofBits?_iff

section

variable {word : Word} (context : TrapContext)

theorem decode_of_opcodeNumber (listed : word.toNat % 128 ∈ opcodeNumbers) :
    ∃ instruction, decode word context = .ok instruction ∧
      instruction.encode = word ∧ instruction.Reads word context := by
  obtain ⟨kind, selected⟩ := (exists_class?_iff word).mpr listed
  exact ⟨_, decode_of_class selected,
    DecodedInstruction.encode_resolved selected,
    DecodedInstruction.reads_resolved selected⟩

theorem decode_of_not_opcodeNumber
    (unlisted : word.toNat % 128 ∉ opcodeNumbers) :
    decode word context = .error .unsupportedOpcode := by
  apply decode_unsupported
  cases selected : (InstructionFields.ofWord word).class? with
  | none => rfl
  | some kind =>
      exact absurd ((exists_class?_iff word).mp ⟨kind, selected⟩) unlisted

end

theorem decode_encode (numbers : FieldNumbers) (context : TrapContext) :
    ∃ instruction, decode numbers.encode context = .ok instruction ∧
      instruction.numbers = numbers.cut :=
  ⟨_, decode_of_class numbers.class?_encode,
    DecodedInstruction.numbers_resolved_encode numbers⟩

theorem FieldNumbers.cut_eq_of_encode_eq {numbers others : FieldNumbers}
    (same : numbers.encode = others.encode) : numbers.cut = others.cut := by
  obtain ⟨instruction, decoded, cut⟩ := decode_encode numbers (.zeroed 0)
  obtain ⟨instruction', decoded', cut'⟩ := decode_encode others (.zeroed 0)
  rw [same, decoded'] at decoded
  rw [← cut, ← cut', Except.ok.inj decoded]

theorem FieldNumbers.encode_injective {numbers others : FieldNumbers}
    (fits : numbers.InRange) (fits' : others.InRange)
    (same : numbers.encode = others.encode) : numbers = others := by
  rw [← cut_eq_self fits, ← cut_eq_self fits']
  exact cut_eq_of_encode_eq same

/-- Decoding and encoding are inverse to each other, for every word and every
context in one direction and for every class and all numbers in the other. -/
theorem decode_inverse_encode :
    (∀ (word : Word) (context : TrapContext),
      decodeChecked word context = decode word context ∧
      (word.toNat % 128 ∈ opcodeNumbers →
        ∃ instruction, decode word context = .ok instruction ∧
          instruction.encode = word ∧ instruction.Reads word context) ∧
      (word.toNat % 128 ∉ opcodeNumbers →
        decode word context = .error .unsupportedOpcode)) ∧
    (∀ (numbers : FieldNumbers) (context : TrapContext),
      numbers.encode = numbers.setInTurn ∧
      ∃ instruction, decode numbers.encode context = .ok instruction ∧
        instruction.numbers = numbers.cut) ∧
    ∀ numbers others : FieldNumbers, numbers.InRange → others.InRange →
      numbers.encode = others.encode → numbers = others := by
  refine ⟨?words, ?numbers, ?distinct⟩
  case words =>
    intro word context
    exact ⟨decodeChecked_eq_decode word context,
      decode_of_opcodeNumber context, decode_of_not_opcodeNumber context⟩
  case numbers =>
    intro numbers context
    exact ⟨numbers.encode_eq_setInTurn, decode_encode numbers context⟩
  case distinct =>
    intro numbers others
    exact FieldNumbers.encode_injective

/-- The first source of the word is `x0`, in whose place 9 is saved. -/
theorem decode_inverse_encode_zeroSource :
    let context := (TrapContext.zeroed 0).overwrite 0 9 |>.overwrite 11 5
    let numbers : FieldNumbers :=
      { opcode := .scalar, funct3 := 7, funct7 := 85, rd := 10, rs1 := 0,
        rs2 := 11 }
    (∃ instruction, decode numbers.encode context = .ok instruction ∧
      instruction.encode = numbers.encode ∧
      instruction.operands = .scalar 0 5 10) ∧
    decode 0x33 context = .error .unsupportedOpcode ∧
    numbers.encode ≠ { numbers with rs1 := 1 }.encode := by
  intro context numbers
  obtain ⟨words, -, distinct⟩ := decode_inverse_encode
  obtain ⟨instruction, decoded, encoded, -⟩ :=
    (words numbers.encode context).2.1 (by decide)
  refine ⟨⟨instruction, decoded, encoded, ?operands⟩,
    (words 0x33 context).2.2 (by decide), ?apart⟩
  case operands =>
    have found : decode numbers.encode context =
        .ok (.resolved context numbers.encode .scalar) :=
      decode_of_class numbers.class?_encode
    rw [found] at decoded
    rw [← Except.ok.inj decoded]
    decide
  case apart =>
    intro same
    exact absurd (distinct numbers _ (by decide) (by decide) same) (by decide)

end VectorBench
