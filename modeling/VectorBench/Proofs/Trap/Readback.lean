import Mathlib.Algebra.Group.Nat.Defs
import VectorBench.Proofs.Trap.Handler

/-!
# Reading an emulated vector back

A caller reads the count of emulated instructions, lets traps happen, and asks
for a vector register.  As the result of a trap tells what the trap did to the
count and to the registers, the count has moved exactly if an instruction was
emulated, also where it wraps on the way.
-/

namespace VectorBench

variable {σ : Type}

/-- The vector register that receives the result, if one does. -/
def DecodedInstruction.vectorDestination? (instruction : DecodedInstruction) :
    Option VReg :=
  match instruction.operands with
  | .scalar _ _ _ => none
  | .vector _ _ vd => some vd

abbrev TrapResult := Except Fault TrapOutcome

namespace TrapResult

def emulated : TrapResult → Bool
  | .ok (.emulated _ _) => true
  | .ok (.interrupt _) | .error _ => false

/-- The words that an emulated instruction put in a vector register. -/
def vectorFor? (vd : VReg) : TrapResult → Option VectorWords
  | .ok (.emulated instruction (.vector words)) =>
      if instruction.vectorDestination? = some vd then some words else none
  | .ok (.emulated _ (.word _)) | .ok (.interrupt _) | .error _ => none

theorem emulated_eq_true_iff {result : TrapResult} :
    result.emulated = true ↔
      ∃ instruction outcome, result = .ok (.emulated instruction outcome) := by
  cases result with
  | error fault => simp [emulated]
  | ok outcome =>
      cases outcome <;> simp [emulated]

end TrapResult

/-! ### One trap -/

namespace Dispatcher

variable {before after : Dispatcher}

/-- The result of a trap tells what the trap did: an emulated instruction is
counted and its result stored, and nothing else changes count or registers. -/
structure Told (before after : Dispatcher) (result : TrapResult) : Prop where
  count : after.emulated =
    before.emulated + BitVec.ofNat 32 result.emulated.toNat
  register : ∀ vd, after.vregs.readRegister vd =
    (result.vectorFor? vd).getD (before.vregs.readRegister vd)

/-- Nothing is emulated, and nothing about it is reported. -/
theorem told_unchanged {result : TrapResult}
    (count : after.emulated = before.emulated) (vregs : after.vregs = before.vregs)
    (unemulated : result.emulated = false) : before.Told after result where
  count := by rw [unemulated, count]; simp
  register vd := by
    have unreported : result.vectorFor? vd = none := by
      unfold TrapResult.vectorFor?
      split
      · nomatch unemulated
      all_goals rfl
    rw [unreported, vregs]
    rfl

end Dispatcher

section

variable {service : σ → Word × σ} {fetch : Word → σ → Word × σ}
  {info : TrapInfo} {mcause mtval : Word}

theorem told_instruction {state : TrapState σ}
    (idle : state.dispatcher.state = .idle)
    (illegal : info.isIllegalInstruction = true) :
    state.dispatcher.Told (dispatch service info state).2.dispatcher
      (dispatch service info state).1 := by
  cases (InstructionFields.ofWord info.mtval).classCases with
  | unsupported selected =>
      rw [dispatch_unsupported service info state idle illegal selected]
      exact Dispatcher.told_unchanged rfl rfl rfl
  | scalar kind scalar selected =>
      rw [dispatch_scalar service info state idle illegal selected scalar]
      exact ⟨rfl, fun _ => rfl⟩
  | vector selected =>
      rw [dispatch_vector service info state idle illegal selected]
      refine ⟨rfl, fun vd => ?_⟩
      change (VRegFile.writeRegister _ _ _).readRegister vd =
        Option.getD (if some (InstructionFields.ofWord info.mtval).rd = some vd
          then some _ else none) _
      rw [VRegFile.readRegister_writeRegister]
      by_cases named : (InstructionFields.ofWord info.mtval).rd = vd
      · rw [named, Function.update_self, if_pos rfl]
        rfl
      · rw [Function.update_of_ne (Ne.symm named),
          if_neg (fun same => named (Option.some.inj same))]
        rfl

theorem told_dispatch (state : TrapState σ) :
    state.dispatcher.Told (dispatch service info state).2.dispatcher
      (dispatch service info state).1 := by
  cases busy : state.dispatcher.state with
  | handling =>
      simp only [dispatch, Dispatcher.enter, busy]
      exact Dispatcher.told_unchanged rfl rfl rfl
  | idle =>
      cases illegal : info.isIllegalInstruction with
      | true => exact told_instruction busy illegal
      | false =>
          rw [dispatch_interrupt service info state busy illegal]
          exact Dispatcher.told_unchanged rfl rfl rfl

theorem told_handleTrap (state : TrapState σ) :
    state.dispatcher.Told
      (handleTrap service fetch mcause mtval state).2.dispatcher
      (handleTrap service fetch mcause mtval state).1 := by
  cases known : trappedWord fetch mcause mtval state with
  | mk word fetched =>
      rw [handleTrap_eq known]
      split
      case isTrue => exact Dispatcher.told_unchanged rfl rfl rfl
      case isFalse => exact told_dispatch { state with surroundings := fetched }

end

/-! ### Traps one after the other -/

/-- What happens to a dispatcher.  A trap brings the code that it interrupts,
and the interrupt service and instruction memory that are there to be called.
It comes through the trap handler or straight to the dispatcher, and it is a
nested one if the dispatcher was entered before. -/
inductive DispatcherEvent (σ : Type) where
  | enter
  | exit
  | handled (service : σ → Word × σ) (fetch : Word → σ → Word × σ)
      (mcause mtval : Word) (context : TrapContext) (surroundings : σ)
  | dispatched (service : σ → Word × σ) (info : TrapInfo)
      (context : TrapContext) (surroundings : σ)

namespace DispatcherEvent

def isTrap : DispatcherEvent σ → Bool
  | .enter | .exit => false
  | .handled _ _ _ _ _ _ | .dispatched _ _ _ _ => true

/-- The result of an event that is a trap, and the dispatcher after it. -/
def happen (dispatcher : Dispatcher) :
    DispatcherEvent σ → Option TrapResult × Dispatcher
  | .enter => (none, dispatcher.enter.2)
  | .exit => (none, dispatcher.exit)
  | .handled service fetch mcause mtval context surroundings =>
      (handleTrap service fetch mcause mtval
        { dispatcher, context, surroundings }).map some (·.dispatcher)
  | .dispatched service info context surroundings =>
      (dispatch service info { dispatcher, context, surroundings }).map some
        (·.dispatcher)

/-- The results of the traps among some events, and the dispatcher after all. -/
def run (dispatcher : Dispatcher) :
    List (DispatcherEvent σ) → List TrapResult × Dispatcher
  | [] => ([], dispatcher)
  | event :: events =>
      let (result?, dispatcher) := event.happen dispatcher
      let (results, dispatcher) := run dispatcher events
      (result?.toList ++ results, dispatcher)

end DispatcherEvent

namespace Dispatcher

variable {before after : Dispatcher}

theorem enter_snd (dispatcher : Dispatcher) :
    dispatcher.enter.2.emulated = dispatcher.emulated ∧
      dispatcher.enter.2.vregs = dispatcher.vregs := by
  unfold enter
  split <;> exact ⟨rfl, rfl⟩

/-- What a register holds after some results, if it held `words` before: the
words of the last result that was put in it. -/
def lastVector (vd : VReg) (words : VectorWords) (results : List TrapResult) :
    VectorWords :=
  (results.filterMap (TrapResult.vectorFor? vd)).getLastD words

/-- The results of some traps tell what the traps did. -/
structure ToldAll (before after : Dispatcher) (results : List TrapResult) :
    Prop where
  count : after.emulated =
    before.emulated + BitVec.ofNat 32 (results.countP (·.emulated))
  register : ∀ vd, after.vregs.readRegister vd =
    lastVector vd (before.vregs.readRegister vd) results

theorem lastVector_cons (vd : VReg) (words : VectorWords) (result : TrapResult)
    (results : List TrapResult) :
    lastVector vd words (result :: results) =
      lastVector vd ((result.vectorFor? vd).getD words) results := by
  unfold lastVector
  rw [List.filterMap_cons]
  cases result.vectorFor? vd with
  | none => rfl
  | some stored => exact List.getLastD_cons

theorem ToldAll.cons {middle : Dispatcher} {result : TrapResult}
    {results : List TrapResult} (first : before.Told middle result)
    (rest : middle.ToldAll after results) :
    before.ToldAll after (result :: results) where
  count := by
    rw [rest.count, first.count, List.countP_cons, BitVec.add_assoc,
      ← BitVec.ofNat_add, Nat.add_comm]
    cases result.emulated <;> rfl
  register vd := by rw [rest.register, first.register, lastVector_cons]

theorem toldAll_run (dispatcher : Dispatcher)
    (events : List (DispatcherEvent σ)) :
    dispatcher.ToldAll (DispatcherEvent.run dispatcher events).2
      (DispatcherEvent.run dispatcher events).1 := by
  induction events generalizing dispatcher with
  | nil => exact ⟨by simp [DispatcherEvent.run], fun _ => rfl⟩
  | cons event events ih =>
      -- Entering and leaving have no result, and keep count and registers.
      cases event with
      | enter =>
          obtain ⟨count, vregs⟩ := dispatcher.enter_snd
          have rest := ih dispatcher.enter.2
          exact ⟨by rw [← count]; exact rest.count,
            by rw [← vregs]; exact rest.register⟩
      | exit =>
          have rest := ih dispatcher.exit
          exact ⟨rest.count, rest.register⟩
      | handled service fetch mcause mtval context surroundings =>
          exact ToldAll.cons
            (told_handleTrap { dispatcher, context, surroundings }) (ih _)
      | dispatched service info context surroundings =>
          exact ToldAll.cons
            (told_dispatch { dispatcher, context, surroundings }) (ih _)

theorem length_results (dispatcher : Dispatcher)
    (events : List (DispatcherEvent σ)) :
    (DispatcherEvent.run dispatcher events).1.length =
      events.countP DispatcherEvent.isTrap := by
  induction events generalizing dispatcher with
  | nil => rfl
  | cons event events ih =>
      cases event <;>
        simp [DispatcherEvent.run, DispatcherEvent.happen,
          DispatcherEvent.isTrap, List.countP_cons, ih]

theorem add_ofNat_eq_self_iff {word : Word} {count : Nat}
    (few : count < 2 ^ 32) : word + BitVec.ofNat 32 count = word ↔ count = 0 := by
  constructor
  · intro same
    have zero : BitVec.ofNat 32 count = 0 := by
      simpa using same
    have number := congrArg BitVec.toNat zero
    rwa [BitVec.toNat_ofNat, Nat.mod_eq_of_lt few] at number
  · rintro rfl
    exact BitVec.add_zero word

/-- Fewer traps than the count has values move it exactly if one of them was
emulated. -/
theorem ToldAll.count_eq_iff {results : List TrapResult}
    (told : before.ToldAll after results) (few : results.length < 2 ^ 32) :
    after.emulated = before.emulated ↔
      ¬ ∃ instruction outcome,
        .ok (.emulated instruction outcome) ∈ results := by
  have counted : results.countP (·.emulated) < 2 ^ 32 :=
    Nat.lt_of_le_of_lt List.countP_le_length few
  rw [told.count, add_ofNat_eq_self_iff counted, List.countP_eq_zero]
  constructor
  · rintro none ⟨instruction, outcome, member⟩
    exact none _ member rfl
  · intro none result member emulated
    obtain ⟨instruction, outcome, rfl⟩ :=
      TrapResult.emulated_eq_true_iff.mp emulated
    exact none ⟨instruction, outcome, member⟩

end Dispatcher

/-- A vector register is read back exactly if one of the traps since the count
was read was emulated, and then with the last result that was put in it. -/
theorem emulatedVector_after_traps (dispatcher : Dispatcher)
    (events : List (DispatcherEvent σ)) (vd : VReg)
    (few : events.countP DispatcherEvent.isTrap < 2 ^ 32) :
    let results := (DispatcherEvent.run dispatcher events).1
    let after := (DispatcherEvent.run dispatcher events).2
    let contents := Dispatcher.lastVector vd
      (dispatcher.vregs.readRegister vd) results
    after.vregs.readRegister vd = contents ∧
    ((∃ instruction outcome, .ok (.emulated instruction outcome) ∈ results) →
      emulatedVector after dispatcher.emulated vd = .ok contents) ∧
    ((¬ ∃ instruction outcome, .ok (.emulated instruction outcome) ∈ results) →
      emulatedVector after dispatcher.emulated vd =
        .error .unsupportedOpcode) := by
  intro results after contents
  have told : dispatcher.ToldAll after results :=
    dispatcher.toldAll_run events
  have moved := told.count_eq_iff (by rwa [Dispatcher.length_results])
  refine ⟨told.register vd, fun emulated => ?_, fun unemulated => ?_⟩
  · rw [emulatedVector, if_neg (fun same => moved.mp same emulated),
      told.register vd]
  · rw [emulatedVector, if_pos (moved.mpr unemulated)]

/-- A dispatcher whose count wraps with the next emulated instruction. -/
def aboutToWrap : Dispatcher :=
  { Dispatcher.initial Datapath.model with
    vregs := (VRegFile.zeroed.writeRegister 1 #v[1, 2, 3, 4]).writeRegister 2
      #v[5, 6, 7, 8]
    emulated := 0xffffffff }

/-- A nested trap, an addition of `v1` and `v2` into `v3` that has to be
fetched, and traps that do not emulate: one on an addition into `x2`, an
interrupt and one on a word of no class. -/
def mixedTraps : List (DispatcherEvent CallRecord) :=
  let context := TrapContext.zeroed 0
  let serve := CallRecord.serve
  [.enter, .dispatched serve (.illegalInstruction 0x002081fb) context .none,
    .handled serve (CallRecord.load 0x002081fb) 2 0 context .none,
    .handled serve (CallRecord.load 0) 2 0x00b0015b context .none,
    .dispatched serve (.interrupt 11) context .none,
    .dispatched serve (.illegalInstruction 0x33) context .none]

theorem emulatedVector_after_traps_wrapped :
    mixedTraps.countP DispatcherEvent.isTrap < 2 ^ 32 ∧
    emulatedVector (DispatcherEvent.run aboutToWrap mixedTraps).2 0xffffffff 3 =
      .ok #v[6, 8, 10, 12] ∧
    emulatedVector (DispatcherEvent.run aboutToWrap (mixedTraps.drop 3)).2
      0xffffffff 3 = .error .unsupportedOpcode := by
  have few : mixedTraps.countP DispatcherEvent.isTrap < 2 ^ 32 := by decide
  obtain ⟨-, read, -⟩ := emulatedVector_after_traps aboutToWrap mixedTraps 3 few
  obtain ⟨-, -, refused⟩ :=
    emulatedVector_after_traps aboutToWrap (mixedTraps.drop 3) 3 (by decide)
  refine ⟨few, (read ⟨_, _, .tail _ (.head _)⟩).trans ?words, refused ?none⟩
  case words => exact congrArg Except.ok (by decide +kernel)
  case none =>
    rintro ⟨instruction, outcome, member⟩
    have unemulated : ∀ result ∈
        (DispatcherEvent.run aboutToWrap (mixedTraps.drop 3)).1,
        TrapResult.emulated result = false := by decide
    nomatch unemulated _ member

end VectorBench
