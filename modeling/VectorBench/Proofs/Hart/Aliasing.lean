import VectorBench.Proofs.Binding.FailedCalls

/-!
# Coinciding registers

The registers of a word that comes with operands may coincide, and any of them
may be `x0`.  Its operands are what the source registers hold once both are
loaded, the second one last, and the result goes to the destination after that.
-/

namespace VectorBench

namespace InstructionFields

/-- What the first source register holds once both operands are loaded. -/
def firstOperand (fields : InstructionFields) (a b : Word) : Word :=
  if fields.rs1 = 0 then 0 else if fields.rs1 = fields.rs2 then b else a

/-- What the second source register holds once both operands are loaded. -/
def secondOperand (fields : InstructionFields) (b : Word) : Word :=
  if fields.rs2 = 0 then 0 else b

end InstructionFields

namespace Hart

variable {H : Type} {hart after : Hart H} {word : Word} {kind : OpcodeClass}

/-- What the destination of a word holds once its result is written. -/
def resultOf (hart : Hart H) (word a b : Word) : Word :=
  let fields := InstructionFields.ofWord word
  let datapath :=
    if hart.config.implements word then hart.datapath else Datapath.model
  if fields.rd = 0 then 0
  else datapath fields.operationCode fields.variantCode
    (fields.firstOperand a b) (fields.secondOperand b)

/-- A word was carried out on two operands: its destination holds the result,
and nothing but its own registers and the program counter has changed. -/
structure CarriedOut (before after : Hart H) (fields : InstructionFields)
    (a b result : Word) : Prop where
  destination : after.xregs.get fields.rd = result
  first : fields.rs1 ≠ fields.rd →
    after.xregs.get fields.rs1 = fields.firstOperand a b
  second : fields.rs2 ≠ fields.rd →
    after.xregs.get fields.rs2 = fields.secondOperand b
  others : ∀ register, register ≠ fields.rd → register ≠ fields.rs1 →
    register ≠ fields.rs2 →
    after.xregs.get register = before.xregs.get register
  vregs : after.vregs = before.vregs
  pc : after.pc = before.pc + 4

theorem datapathOf_eq_ite (ready : hart.Ready) (word : Word) :
    hart.datapathOf word =
      if hart.config.implements word then hart.datapath
      else Datapath.model := by
  unfold datapathOf
  rw [ready.emulator]

theorem xregs_load_rs1 (hart : Hart H) (word a b : Word) :
    (hart.core.load word a b).xregs (InstructionFields.ofWord word).rs1 =
      (InstructionFields.ofWord word).firstOperand a b := by
  have loads := loadsOnly_loaded hart word a b
  rw [← core_loaded]
  unfold InstructionFields.firstOperand
  by_cases same : (InstructionFields.ofWord word).rs1 =
      (InstructionFields.ofWord word).rs2
  · rw [if_pos same, same]
    exact loads.second
  · rw [if_neg same]
    exact loads.first same

theorem xregs_load_rs2 (hart : Hart H) (word a b : Word) :
    (hart.core.load word a b).xregs (InstructionFields.ofWord word).rs2 =
      (InstructionFields.ofWord word).secondOperand b := by
  rw [← core_loaded]
  exact (loadsOnly_loaded hart word a b).second

theorem xregs_load_of_ne (hart : Hart H) (word a b : Word) {register : XReg}
    (notFirst : register ≠ (InstructionFields.ofWord word).rs1)
    (notSecond : register ≠ (InstructionFields.ofWord word).rs2) :
    (hart.core.load word a b).xregs register = hart.xregs.get register := by
  rw [← core_loaded]
  exact (loadsOnly_loaded hart word a b).others register notFirst notSecond

theorem scalarResult_load (datapath : Datapath) (hart : Hart H)
    (word a b : Word) :
    datapath.scalarResult word (hart.core.load word a b).xregs =
      datapath (InstructionFields.ofWord word).operationCode
        (InstructionFields.ofWord word).variantCode
        ((InstructionFields.ofWord word).firstOperand a b)
        ((InstructionFields.ofWord word).secondOperand b) := by
  simp only [Datapath.scalarResult, xregs_load_rs1, xregs_load_rs2]

/-- A hart answers a word on two operands with what its destination then holds,
whichever of its registers coincide or are `x0`. -/
theorem emit_resolves_aliasing (ready : hart.Ready)
    (selected : (InstructionFields.ofWord word).class? = some kind)
    (scalar : kind ≠ .vector) (a b : Word) :
    ∃ after,
      hart.emit word a b = (.ok (hart.resultOf word a b), after) ∧
      hart.CarriedOut after (InstructionFields.ofWord word) a b
        (hart.resultOf word a b) := by
  obtain ⟨core, after, core_eq, emitted, follows⟩ :=
    emit_scalar ready a b selected scalar
  rw [scalarResult_load, datapathOf_eq_ite ready] at core_eq
  have xregs : after.xregs.get = core.xregs :=
    congrArg PlainCore.xregs follows.core_eq
  -- Registers other than the destination hold what was loaded.
  have loaded : ∀ register, register ≠ (InstructionFields.ofWord word).rd →
      after.xregs.get register = (hart.core.load word a b).xregs register := by
    intro register notDestination
    rw [xregs, core_eq]
    exact PlainCore.xregs_setX_of_ne _ _ notDestination
  have destination : after.xregs.get (InstructionFields.ofWord word).rd =
      hart.resultOf word a b := by
    unfold resultOf
    by_cases zero : (InstructionFields.ofWord word).rd = 0
    · rw [if_pos zero, zero, XRegFile.get_zero]
    · rw [if_neg zero, xregs, core_eq]
      exact PlainCore.xregs_setX_same _ _ zero
  refine ⟨after, ?_, destination, ?_, ?_, ?_, ?_, ?_⟩
  · rw [emitted, ← xregs, destination]
  · intro kept
    rw [loaded _ kept, xregs_load_rs1]
  · intro kept
    rw [loaded _ kept, xregs_load_rs2]
  · intro register notDestination notFirst notSecond
    rw [loaded _ notDestination, xregs_load_of_ne _ _ _ _ notFirst notSecond]
  · have vregs : after.vregs.readRegister = core.vregs :=
      congrArg PlainCore.vregs follows.core_eq
    apply VRegFile.eq_of_readRegister_eq
    rw [vregs, core_eq]
    exact (PlainCore.vregs_setX _ _ _).trans (PlainCore.vregs_load _ _ _ _)
  · have pc : after.pc = core.pc := congrArg PlainCore.pc follows.core_eq
    have moved : core.pc = hart.core.pc + 4 := by
      rw [core_eq]
      unfold PlainCore.advance
      rw [PlainCore.pc_setX, PlainCore.pc_load]
    exact pc.trans moved

/-- A product of `x5` with itself into `x5`, which traps after an interrupt. -/
theorem emit_resolves_aliasing_square :
    withPendingLine.Ready ∧ withPendingLine.takesInterrupt = true ∧
    (InstructionFields.ofWord 0x0052f2db).class? = some .scalar ∧
    withPendingLine.config.implements 0x0052f2db = false ∧
    ∃ after,
      withPendingLine.emit 0x0052f2db 3 7 = (.ok 49, after) ∧
      withPendingLine.CarriedOut after (InstructionFields.ofWord 0x0052f2db)
        3 7 49 := by
  have ready : withPendingLine.Ready := ⟨rfl, rfl, rfl⟩
  have selected :
      (InstructionFields.ofWord 0x0052f2db).class? = some .scalar := rfl
  have scalar : OpcodeClass.scalar ≠ .vector := by decide
  have square : withPendingLine.resultOf 0x0052f2db 3 7 = 49 := by decide
  have resolved := emit_resolves_aliasing ready selected scalar 3 7
  rw [square] at resolved
  exact ⟨ready, by decide, selected, by decide, resolved⟩

end Hart

end VectorBench
