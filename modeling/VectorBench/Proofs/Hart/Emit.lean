import VectorBench.Proofs.Hart.Step

/-!
# Single words given to a hart

A word that comes with operands finds them in its source registers, and what
it leaves in its destination is the answer.
-/

namespace VectorBench

namespace PlainCore

/-- The operands in their source registers; the second one wins where both
name one register. -/
def load (core : PlainCore) (word a b : Word) : PlainCore :=
  (core.setX (InstructionFields.ofWord word).rs1 a).setX
    (InstructionFields.ofWord word).rs2 b

theorem vregs_load (core : PlainCore) (word a b : Word) :
    (core.load word a b).vregs = core.vregs := by
  unfold load
  rw [vregs_setX, vregs_setX]

theorem pc_load (core : PlainCore) (word a b : Word) :
    (core.load word a b).pc = core.pc := by
  unfold load
  rw [pc_setX, pc_setX]

end PlainCore

namespace Hart

variable {H : Type} {hart : Hart H} {word : Word} {kind : OpcodeClass}

/-- A hart with the operands of a word in its source registers. -/
def loaded (hart : Hart H) (word a b : Word) : Hart H :=
  { hart with
    xregs := (hart.xregs.set (InstructionFields.ofWord word).rs1 a).set
      (InstructionFields.ofWord word).rs2 b }

theorem core_loaded (hart : Hart H) (word a b : Word) :
    (hart.loaded word a b).core = hart.core.load word a b := by
  unfold PlainCore.load
  rw [← core_setX, ← core_setX]
  rfl

theorem Ready.loaded (ready : hart.Ready) (word a b : Word) :
    (hart.loaded word a b).Ready :=
  ⟨ready.live, ready.idle, ready.emulator⟩

theorem emit_snd (hart : Hart H) (word a b : Word) :
    (hart.emit word a b).2 = ((hart.loaded word a b).execute word).2 := by
  cases executed : (hart.loaded word a b).execute word with
  | mk answer after =>
      unfold loaded at executed
      cases answer <;> simp only [emit, executed]

theorem emitVector_snd (hart : Hart H) (word : Word) :
    (hart.emitVector word).2 = (hart.execute word).2 := by
  cases executed : hart.execute word with
  | mk answer after => cases answer <;> simp only [emitVector, executed]

theorem emit_scalar (ready : hart.Ready) (a b : Word)
    (selected : (InstructionFields.ofWord word).class? = some kind)
    (scalar : kind ≠ .vector) :
    ∃ core after,
      core = ((hart.core.load word a b).setX (InstructionFields.ofWord word).rd
        ((hart.datapathOf word).scalarResult word
          (hart.core.load word a b).xregs)).advance ∧
      hart.emit word a b =
        (.ok (core.xregs (InstructionFields.ofWord word).rd), after) ∧
      Follows hart after core := by
  have stepped := PlainCore.step_scalar ((hart.loaded word a b).datapathOf word)
    (hart.loaded word a b).core selected scalar
  obtain ⟨action, after, executed, follows⟩ :=
    execute_ok (ready.loaded word a b) stepped
  rw [core_loaded] at follows
  refine ⟨_, after, rfl, ?_, follows.core_eq, follows.ready, follows.datapath,
    follows.config⟩
  unfold loaded at executed
  simp only [emit, executed, Prod.mk.injEq, Except.ok.injEq, and_true]
  exact congrFun (congrArg PlainCore.xregs follows.core_eq) _

theorem emitVector_vector (ready : hart.Ready)
    (selected : (InstructionFields.ofWord word).class? = some .vector) :
    ∃ after,
      hart.emitVector word =
        (.ok ((hart.datapathOf word).vectorResult word
          hart.vregs.readRegister), after) ∧
      Follows hart after
        (hart.core.setV (InstructionFields.ofWord word).rd
          ((hart.datapathOf word).vectorResult word
            hart.vregs.readRegister)).advance := by
  have stepped := PlainCore.step_vector (hart.datapathOf word) hart.core selected
  obtain ⟨action, after, executed, follows⟩ := execute_ok ready stepped
  refine ⟨after, ?_, follows⟩
  have written : after.vregs.readRegister =
      Function.update hart.vregs.readRegister (InstructionFields.ofWord word).rd
        ((hart.datapathOf word).vectorResult word hart.vregs.readRegister) :=
    congrArg PlainCore.vregs follows.core_eq
  simp only [emitVector, executed, written, Function.update_self]

end Hart

end VectorBench
