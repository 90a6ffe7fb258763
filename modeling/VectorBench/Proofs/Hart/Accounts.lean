import Mathlib.Algebra.Group.Nat.Defs
import VectorBench.Proofs.Hart.FatalTraps

/-!
# Accounts of a run

Every instruction that a hart attempts ends in the datapath, in emulation or in
a fatal trap, and it may find an interrupt due.  How often each of these
happened says what a run adds to the clock and to the count of emulated
instructions, also where the clock saturates on the way.
-/

namespace VectorBench

variable {H : Type}

/-- How an attempt to carry out an instruction ends. -/
abbrev Ending := Except Fault StepAction

namespace Ending

def inDatapath : Ending → Bool
  | .ok .hardware => true
  | _ => false

def emulated : Ending → Bool
  | .ok (.trap (.emulated _ _)) => true
  | _ => false

def fatal : Ending → Bool
  | .error _ => true
  | .ok _ => false

/-- The cycles that go with an ending. -/
def cycles (ending : Ending) (config : HartConfig) : Nat :=
  config.opCycles * ending.inDatapath.toNat +
    config.trapCycles * (ending.emulated.toNat + ending.fatal.toNat)

theorem cycles_hardware (config : HartConfig) :
    cycles (.ok .hardware) config = config.opCycles := by
  simp [cycles, inDatapath, emulated, fatal]

theorem cycles_emulated (config : HartConfig) (instruction : DecodedInstruction)
    (result : OperationResult) :
    cycles (.ok (.trap (.emulated instruction result))) config =
      config.trapCycles := by
  simp [cycles, inDatapath, emulated, fatal]

theorem cycles_error (config : HartConfig) (fault : Fault) :
    cycles (.error fault) config = config.trapCycles := by
  simp [cycles, inDatapath, emulated, fatal]

end Ending

/-- What shows of one attempt to carry out an instruction. -/
structure Attempt where
  word : Word
  /-- Interrupts were taken, and a line was pending and enabled. -/
  foundInterrupt : Bool
  ending : Ending

/-- How often each thing that costs cycles happened. -/
structure Tally where
  inDatapath : Nat
  emulated : Nat
  fatal : Nat
  interrupts : Nat
deriving DecidableEq, Repr

namespace Tally

def ofAttempts (attempts : List Attempt) : Tally where
  inDatapath := attempts.countP (·.ending.inDatapath)
  emulated := attempts.countP (·.ending.emulated)
  fatal := attempts.countP (·.ending.fatal)
  interrupts := attempts.countP (·.foundInterrupt)

def cycles (tally : Tally) (config : HartConfig) : Nat :=
  config.opCycles * tally.inDatapath +
    config.trapCycles * (tally.emulated + tally.fatal + tally.interrupts)

theorem ofAttempts_singleton (attempt : Attempt) :
    ofAttempts [attempt] =
      { inDatapath := attempt.ending.inDatapath.toNat
        emulated := attempt.ending.emulated.toNat
        fatal := attempt.ending.fatal.toNat
        interrupts := attempt.foundInterrupt.toNat } := by
  have count : ∀ holds : Attempt → Bool,
      [attempt].countP holds = (holds attempt).toNat := by
    intro holds
    rw [List.countP_singleton]
    cases holds attempt <;> rfl
  simp only [ofAttempts, count]

theorem cycles_singleton (attempt : Attempt) (config : HartConfig) :
    (ofAttempts [attempt]).cycles config =
      config.trapCycles * attempt.foundInterrupt.toNat +
        attempt.ending.cycles config := by
  rw [ofAttempts_singleton]
  simp only [cycles, Ending.cycles, Nat.mul_add]
  omega

theorem cycles_append (config : HartConfig) (earlier later : List Attempt) :
    (ofAttempts (earlier ++ later)).cycles config =
      (ofAttempts earlier).cycles config + (ofAttempts later).cycles config := by
  simp only [cycles, ofAttempts, List.countP_append, Nat.mul_add]
  omega

end Tally

namespace Hart

variable {hart before middle after : Hart H} {word : Word}

/-- The attempts of a run, up to the first that fails. -/
def attempts (hart : Hart H) : List (HartEvent H) → List Attempt
  | [] => []
  | .control control :: events => (control.apply hart).attempts events
  | .instruction word :: events =>
      { word, foundInterrupt := hart.takesInterrupt
        ending := (hart.execute word).1 } ::
        match hart.execute word with
        | (.ok _, next) => next.attempts events
        | (.error _, _) => []

/-- The clock and the count moved on by given amounts, and the hart is ready to
spend more. -/
structure Spends (before after : Hart H) (cycles emulated : Nat) : Prop where
  clock : after.clock = before.clock.advance cycles
  emulated : after.dispatcher.emulated =
    before.dispatcher.emulated + BitVec.ofNat 32 emulated
  config : after.config = before.config
  idle : after.dispatcher.state = .idle

theorem Spends.refl (idle : hart.dispatcher.state = .idle) :
    hart.Spends hart 0 0 where
  clock := hart.clock.advance_zero.symm
  emulated := (BitVec.add_zero _).symm
  config := rfl
  idle := idle

theorem Spends.trans {firstCycles firstCount secondCycles secondCount : Nat}
    (first : before.Spends middle firstCycles firstCount)
    (second : middle.Spends after secondCycles secondCount) :
    before.Spends after (firstCycles + secondCycles)
      (firstCount + secondCount) where
  clock := by rw [second.clock, first.clock, Clock.advance_advance]
  emulated := by
    rw [second.emulated, first.emulated, BitVec.ofNat_add, BitVec.add_assoc]
  config := second.config.trans first.config
  idle := second.idle

/-- What an attempt does to a hart with its ending, and that it has only one. -/
structure EndsWith (before after : Hart H) (word : Word) (ending : Ending) :
    Prop where
  spends : before.Spends after (ending.cycles before.config)
    ending.emulated.toNat
  implemented : ending.inDatapath = before.config.implements word
  once : ending.inDatapath.toNat + ending.emulated.toNat +
    ending.fatal.toNat = 1
  halted : ending.fatal = false → after.halted = before.halted

theorem endsWith_hardware {ending : Ending} (answer : ending = .ok .hardware)
    (implemented : before.config.implements word = true)
    (spends : before.Spends after before.config.opCycles 0)
    (halted : after.halted = before.halted) :
    before.EndsWith after word ending := by
  subst answer
  refine ⟨?_, implemented.symm, rfl, fun _ => halted⟩
  rw [Ending.cycles_hardware]
  exact spends

theorem endsWith_emulated {ending : Ending} {instruction : DecodedInstruction}
    {result : OperationResult}
    (answer : ending = .ok (.trap (.emulated instruction result)))
    (unimplemented : before.config.implements word = false)
    (spends : before.Spends after before.config.trapCycles 1)
    (halted : after.halted = before.halted) :
    before.EndsWith after word ending := by
  subst answer
  refine ⟨?_, unimplemented.symm, rfl, fun _ => halted⟩
  rw [Ending.cycles_emulated]
  exact spends

theorem endsWith_error {ending : Ending} {fault : Fault}
    (answer : ending = .error fault)
    (unimplemented : before.config.implements word = false)
    (spends : before.Spends after before.config.trapCycles 0) :
    before.EndsWith after word ending := by
  subst answer
  refine ⟨?_, unimplemented.symm, rfl, fun live => Bool.noConfusion live⟩
  rw [Ending.cycles_error]
  exact spends

theorem endsWith_step (idle : hart.dispatcher.state = .idle) (word : Word) :
    hart.EndsWith (hart.step word).2 word (hart.step word).1 := by
  cases implemented : hart.config.implements word with
  | true =>
      obtain ⟨xregs, vregs, ran⟩ := exists_runDatapath_eq hart word
      rw [step_implemented implemented, ran]
      exact endsWith_hardware rfl implemented
        ⟨rfl, (BitVec.add_zero _).symm, rfl, idle⟩ rfl
  | false =>
      rw [step_unimplemented implemented]
      cases (InstructionFields.ofWord word).classCases with
      | unsupported selected =>
          rw [trap_unsupported idle selected]
          exact endsWith_error rfl implemented
            ⟨rfl, (BitVec.add_zero _).symm, rfl, idle⟩
      | vector selected =>
          rw [trap_vector idle selected]
          exact endsWith_emulated rfl implemented ⟨rfl, rfl, rfl, idle⟩ rfl
      | scalar kind scalar selected =>
          rw [trap_scalar idle selected scalar]
          exact endsWith_emulated rfl implemented ⟨rfl, rfl, rfl, idle⟩ rfl

theorem spends_interrupted (idle : hart.dispatcher.state = .idle) :
    hart.Spends hart.interrupted
      (hart.config.trapCycles * hart.takesInterrupt.toNat) 0 := by
  unfold interrupted
  cases hart.takesInterrupt with
  | false => exact .refl idle
  | true =>
      rw [Bool.toNat_true, Nat.mul_one]
      exact ⟨rfl, (BitVec.add_zero _).symm, rfl, idle⟩

/-- What some attempts did to the clock and to the count, by their tally. -/
structure Accounts (before after : Hart H) (attempts : List Attempt) :
    Prop where
  spends : before.Spends after
    ((Tally.ofAttempts attempts).cycles before.config)
    (Tally.ofAttempts attempts).emulated
  implemented : ∀ attempt ∈ attempts,
    attempt.ending.inDatapath = before.config.implements attempt.word
  endings :
    (Tally.ofAttempts attempts).inDatapath +
      (Tally.ofAttempts attempts).emulated +
      (Tally.ofAttempts attempts).fatal = attempts.length

theorem Accounts.nil (spends : before.Spends after 0 0) :
    before.Accounts after [] where
  spends := spends
  implemented _ member := (List.not_mem_nil member).elim
  endings := rfl

theorem Accounts.append {earlier later : List Attempt}
    (first : before.Accounts middle earlier)
    (second : middle.Accounts after later) :
    before.Accounts after (earlier ++ later) where
  spends := by
    have both := first.spends.trans second.spends
    rw [first.spends.config, ← Tally.cycles_append] at both
    simpa only [Tally.ofAttempts, List.countP_append] using both
  implemented := by
    intro attempt member
    rcases List.mem_append.mp member with former | latter
    · exact first.implemented attempt former
    · rw [second.implemented attempt latter, first.spends.config]
  endings := by
    have firstEndings := first.endings
    have secondEndings := second.endings
    simp only [Tally.ofAttempts, List.countP_append, List.length_append] at *
    omega

theorem accounts_control (idle : hart.dispatcher.state = .idle)
    (control : InterruptControl H) :
    hart.Accounts (control.apply hart) [] := by
  apply Accounts.nil
  cases control <;>
    exact ⟨hart.clock.advance_zero.symm, (BitVec.add_zero _).symm, rfl, idle⟩

theorem accounts_execute (live : hart.halted = false)
    (idle : hart.dispatcher.state = .idle) (word : Word) :
    hart.Accounts (hart.execute word).2
      [{ word, foundInterrupt := hart.takesInterrupt
         ending := (hart.execute word).1 }] := by
  have interrupt := spends_interrupted idle
  have ended := endsWith_step interrupt.idle word
  rw [← execute_eq_step live idle] at ended
  refine ⟨?_, ?_, ?_⟩
  · have both := interrupt.trans ended.spends
    rw [interrupt.config, Nat.zero_add] at both
    rw [Tally.cycles_singleton, Tally.ofAttempts_singleton]
    exact both
  · intro attempt member
    rw [List.mem_singleton.mp member, ended.implemented, interrupt.config]
  · rw [Tally.ofAttempts_singleton]
    exact ended.once

theorem live_of_execute_ok {action : StepAction} (live : hart.halted = false)
    (idle : hart.dispatcher.state = .idle)
    (executed : hart.execute word = (.ok action, after)) :
    after.halted = false := by
  have ended := endsWith_step (spends_interrupted idle).idle word
  rw [← execute_eq_step live idle, executed] at ended
  rw [ended.halted rfl, interrupted_halted, live]

/-- A run does to the clock and to the count what its attempts account for. -/
theorem accounts_runEvents (live : hart.halted = false)
    (idle : hart.dispatcher.state = .idle) (events : List (HartEvent H)) :
    hart.Accounts (hart.runEvents events).2 (hart.attempts events) := by
  induction events generalizing hart with
  | nil => exact .nil (.refl idle)
  | cons event events induction =>
      cases event with
      | control control =>
          have first := accounts_control idle control
          have live_control : (control.apply hart).halted = false := by
            cases control <;> exact live
          exact first.append (induction live_control first.spends.idle)
      | instruction word =>
          have first := accounts_execute live idle word
          cases executed : hart.execute word with
          | mk ending after =>
              rw [executed] at first
              simp only [runEvents, attempts, executed]
              cases ending with
              | error fault => exact first
              | ok action =>
                  exact first.append (induction
                    (live_of_execute_ok live idle executed) first.spends.idle)

/-- Only the last attempt of a run can be fatal, and then the run fails. -/
theorem fatal_attempts (hart : Hart H) (events : List (HartEvent H)) :
    (Tally.ofAttempts (hart.attempts events)).fatal =
      match (hart.runEvents events).1 with
      | .ok () => 0
      | .error _ => 1 := by
  induction events generalizing hart with
  | nil => rfl
  | cons event events induction =>
      cases event with
      | control control => exact induction (control.apply hart)
      | instruction word =>
          simp only [runEvents, attempts]
          cases executed : hart.execute word with
          | mk ending after =>
              cases ending with
              | error fault => rfl
              | ok action =>
                  rw [← induction after]
                  simp only [Tally.ofAttempts, List.countP_cons, Ending.fatal,
                    Bool.false_eq_true, if_false, Nat.add_zero]

theorem attempts_append (hart : Hart H) (earlier later : List (HartEvent H)) :
    hart.attempts earlier <+: hart.attempts (earlier ++ later) := by
  induction earlier generalizing hart with
  | nil => exact List.nil_prefix
  | cons event earlier induction =>
      cases event with
      | control control => exact induction (control.apply hart)
      | instruction word =>
          simp only [List.cons_append, attempts, List.prefix_cons_inj]
          cases executed : hart.execute word with
          | mk ending after =>
              cases ending with
              | error fault => exact List.prefix_rfl
              | ok action => exact induction after

theorem now_runEvents_le (live : hart.halted = false)
    (idle : hart.dispatcher.state = .idle)
    (earlier later : List (HartEvent H)) :
    (hart.runEvents earlier).2.clock.now ≤
      (hart.runEvents (earlier ++ later)).2.clock.now := by
  obtain ⟨rest, whole⟩ := attempts_append hart earlier later
  rw [(accounts_runEvents live idle earlier).spends.clock,
    (accounts_runEvents live idle (earlier ++ later)).spends.clock, ← whole,
    Tally.cycles_append]
  exact hart.clock.now_advance_le (Nat.le_add_right _ _)

/-- The clock and the count of emulated instructions are exact after every run,
whatever is done to the interrupts between its instructions: every attempt is
charged once for its ending and once more for an interrupt that it found, and
the clock never goes back. -/
theorem cycles_accounted (live : hart.halted = false)
    (idle : hart.dispatcher.state = .idle) (events : List (HartEvent H)) :
    let attempts := hart.attempts events
    let tally := Tally.ofAttempts attempts
    let final := (hart.runEvents events).2
    final.clock.now =
        min (2 ^ 64 - 1)
          (hart.clock.now + (hart.config.opCycles * tally.inDatapath +
            hart.config.trapCycles *
              (tally.emulated + tally.fatal + tally.interrupts))) ∧
      final.dispatcher.emulated =
        hart.dispatcher.emulated + BitVec.ofNat 32 tally.emulated ∧
      (∀ attempt ∈ attempts,
        attempt.ending.inDatapath = hart.config.implements attempt.word) ∧
      tally.inDatapath + tally.emulated + tally.fatal = attempts.length ∧
      (tally.fatal = match (hart.runEvents events).1 with
        | .ok () => 0
        | .error _ => 1) ∧
      ∀ earlier later, events = earlier ++ later →
        (hart.runEvents earlier).2.clock.now ≤ final.clock.now := by
  intro attempts tally final
  have accounts := accounts_runEvents live idle events
  refine ⟨?_, accounts.spends.emulated, accounts.implemented,
    accounts.endings, fatal_attempts hart events, ?_⟩
  · exact congrArg Clock.now accounts.spends.clock
  · rintro earlier later rfl
    exact now_runEvents_le live idle earlier later

/-- An addition in the datapath after an interrupt, a trapped product, a raised
line, a word of no vector class that finds the line pending, and an addition
that is never reached. -/
def chargedEvents : List (HartEvent Unit) :=
  [.instruction 0x00b5055b, .instruction 0x00b5755b, .control (.raise 3),
    .instruction 0x000010b7, .instruction 0x00b5055b]

theorem cycles_accounted_interrupted :
    withPendingLine.halted = false ∧
    withPendingLine.dispatcher.state = .idle ∧
    Tally.ofAttempts (withPendingLine.attempts chargedEvents) =
      { inDatapath := 1, emulated := 1, fatal := 1, interrupts := 2 } ∧
    (withPendingLine.runEvents chargedEvents).2.clock.now =
      min (2 ^ 64 - 1) (0 + (1 * 1 + 40 * (1 + 1 + 2))) ∧
    (withPendingLine.runEvents chargedEvents).2.dispatcher.emulated =
      0 + BitVec.ofNat 32 1 := by
  have tally : Tally.ofAttempts (withPendingLine.attempts chargedEvents) =
      { inDatapath := 1, emulated := 1, fatal := 1, interrupts := 2 } := by
    decide
  obtain ⟨clock, count, -⟩ := cycles_accounted
    (rfl : withPendingLine.halted = false)
    (rfl : withPendingLine.dispatcher.state = .idle) chargedEvents
  rw [tally] at clock count
  exact ⟨rfl, rfl, tally, clock, count⟩

end Hart

end VectorBench
