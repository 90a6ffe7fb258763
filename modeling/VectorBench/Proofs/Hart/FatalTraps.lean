import VectorBench.Proofs.Hart.Refinement

/-!
# Fatal traps

An instruction that fails leaves every register, the program counter and the
count of emulated instructions as they were, also where an interrupt was served
first, and it halts the hart.  A halted hart refuses every instruction and does
not change at all until it is reset.
-/

namespace VectorBench

namespace Hart

variable {H : Type} {hart after : Hart H} {word : Word} {fault : Fault}

/-- Nothing that an instruction writes has changed. -/
structure Untouched (before after : Hart H) : Prop where
  xregs : after.xregs = before.xregs
  vregs : after.vregs = before.vregs
  pc : after.pc = before.pc
  emulated : after.dispatcher.emulated = before.dispatcher.emulated

theorem Untouched.refl (hart : Hart H) : hart.Untouched hart :=
  ⟨rfl, rfl, rfl, rfl⟩

theorem Untouched.trans {first second third : Hart H}
    (earlier : first.Untouched second) (later : second.Untouched third) :
    first.Untouched third where
  xregs := later.xregs.trans earlier.xregs
  vregs := later.vregs.trans earlier.vregs
  pc := later.pc.trans earlier.pc
  emulated := later.emulated.trans earlier.emulated

/-- A trap that could not be handled, and what it leaves behind. -/
structure FatalTrap (before after : Hart H) (fault : Fault) : Prop where
  untouched : before.Untouched after
  halted : after.halted = true
  cause : fault = .nestedTrap ∨ fault = .unsupportedOpcode

theorem trap_error {info : TrapInfo}
    (failed : hart.trap info = (.error fault, after)) :
    hart.FatalTrap after fault := by
  cases handled : dispatch InterruptController.service info hart.trapState with
  | mk result state =>
      unfold trapState at handled
      cases result with
      | ok outcome =>
          simp only [trap, handled] at failed
          cases failed
      | error refusal =>
          obtain ⟨state_eq, cause⟩ := dispatch_error handled
          simp only [trap, handled] at failed
          cases failed
          rw [state_eq]
          exact ⟨⟨rfl, rfl, rfl, rfl⟩, rfl, cause⟩

theorem trap_handling (busy : hart.dispatcher.state = .handling)
    (info : TrapInfo) : (hart.trap info).1 = .error .nestedTrap := by
  simp only [trap, dispatch, Dispatcher.enter, busy]

theorem step_error (failed : hart.step word = (.error fault, after)) :
    hart.FatalTrap after fault := by
  unfold step at failed
  split at failed
  case isTrue => cases failed
  case isFalse =>
    cases trapped : hart.trap (TrapInfo.illegalInstruction word) with
    | mk result stopped =>
        rw [trapped] at failed
        cases result with
        | ok outcome => cases failed
        | error refusal =>
            cases failed
            exact trap_error trapped

theorem untouched_interrupted (hart : Hart H) :
    hart.Untouched hart.interrupted := by
  unfold interrupted
  split <;> exact ⟨rfl, rfl, rfl, rfl⟩

theorem execute_error_live (live : hart.halted = false)
    (failed : hart.execute word = (.error fault, after)) :
    hart.FatalTrap after fault := by
  cases busy : hart.dispatcher.state with
  | idle =>
      -- An interrupt was served without a fault, so the instruction failed.
      rw [execute_eq_step live busy] at failed
      have stopped := step_error failed
      exact ⟨(untouched_interrupted hart).trans stopped.untouched,
        stopped.halted, stopped.cause⟩
  | handling =>
      unfold execute at failed
      rw [if_neg (by simp [live])] at failed
      split at failed
      case isFalse => exact step_error failed
      case isTrue =>
        -- A busy dispatcher refuses the interrupt, and no line is served.
        have refused := trap_handling busy (.interrupt externalInterrupt)
        cases trapped : hart.trap (.interrupt externalInterrupt) with
        | mk result stopped =>
            rw [trapped] at failed refused
            cases refused
            cases failed
            exact trap_error trapped

theorem execute_halted (halted : hart.halted = true) (word : Word) :
    hart.execute word = (.error .hartHalted, hart) := by
  unfold execute
  rw [if_pos halted]

theorem execute_error_untouched
    (failed : hart.execute word = (.error fault, after)) :
    hart.Untouched after ∧ after.halted = true := by
  cases halted : hart.halted with
  | false =>
      have stopped := execute_error_live halted failed
      exact ⟨stopped.untouched, stopped.halted⟩
  | true =>
      rw [execute_halted halted] at failed
      cases failed
      exact ⟨.refl hart, halted⟩

theorem execute_hartHalted_iff :
    (hart.execute word).1 = .error .hartHalted ↔ hart.halted = true := by
  constructor
  · intro refused
    by_contra live
    have failed : hart.execute word =
        (.error .hartHalted, (hart.execute word).2) := Prod.ext refused rfl
    have stopped := execute_error_live (Bool.eq_false_iff.mpr live) failed
    rcases stopped.cause with nested | unsupported
    · cases nested
    · cases unsupported
  · intro halted
    rw [execute_halted halted]

/-- A run fails at the first word that fails; the words before it were carried
out. -/
theorem run_error {program : List Word}
    (failed : hart.run program = (.error fault, after)) :
    ∃ applied word rest middle,
      program = applied ++ word :: rest ∧
      hart.run applied = (.ok (), middle) ∧
      middle.execute word = (.error fault, after) := by
  induction program generalizing hart with
  | nil => cases failed
  | cons word program induction =>
      simp only [run] at failed
      cases executed : hart.execute word with
      | mk result next =>
          rw [executed] at failed
          cases result with
          | error refusal =>
              cases failed
              exact ⟨[], word, program, hart, rfl, rfl, executed⟩
          | ok action =>
              obtain ⟨applied, failing, rest, middle, split, ran, stopped⟩ :=
                induction failed
              refine ⟨word :: applied, failing, rest, middle, ?_, ?_, stopped⟩
              · rw [split, List.cons_append]
              · simp only [run, executed, ran]

end Hart

/-- A call that gives a hart at least one word. -/
inductive HartCall where
  | execute (word : Word)
  | run (word : Word) (program : List Word)

namespace HartCall

variable {H : Type} {hart : Hart H}

/-- What a call answers, apart from how an instruction was carried out. -/
def perform (hart : Hart H) : HartCall → Except Fault Unit × Hart H
  | .execute word => (hart.execute word).map (Except.map fun _ => ()) id
  | .run word program => hart.run (word :: program)

/-- The answers of calls one after the other, and the hart after them. -/
def performAll (hart : Hart H) :
    List HartCall → List (Except Fault Unit) × Hart H
  | [] => ([], hart)
  | call :: calls =>
      let (answer, hart) := call.perform hart
      let (answers, hart) := performAll hart calls
      (answer :: answers, hart)

theorem perform_halted (halted : hart.halted = true) (call : HartCall) :
    call.perform hart = (.error .hartHalted, hart) := by
  cases call with
  | execute word =>
      simp only [perform, Hart.execute_halted halted, Prod.map, Except.map, id]
  | run word program =>
      simp only [perform, Hart.run, Hart.execute_halted halted]

theorem performAll_halted (halted : hart.halted = true)
    (calls : List HartCall) :
    performAll hart calls =
      (List.replicate calls.length (.error .hartHalted), hart) := by
  induction calls with
  | nil => rfl
  | cons call calls induction =>
      simp only [performAll, perform_halted halted, induction,
        List.length_cons, List.replicate_succ]

end HartCall

namespace Hart

variable {H : Type}

/-- A failing instruction leaves its hart halted and otherwise as a program
sees it; a halted hart refuses every call and stays as it is; after a reset it
goes on; and a run that fails has applied the words before the failing one. -/
theorem fatal_traps_precise (hart : Hart H) :
    (∀ word fault after, hart.execute word = (.error fault, after) →
      hart.Untouched after ∧ after.halted = true) ∧
    (hart.halted = true → ∀ calls : List HartCall,
      HartCall.performAll hart calls =
        (List.replicate calls.length (.error .hartHalted), hart)) ∧
    (∀ word, (hart.reset.execute word).1 ≠ .error .hartHalted) ∧
    ∀ program fault after, hart.run program = (.error fault, after) →
      ∃ applied word rest middle,
        program = applied ++ word :: rest ∧
        hart.run applied = (.ok (), middle) ∧
        middle.execute word = (.error fault, after) ∧
        middle.Untouched after := by
  refine ⟨fun _ _ _ => execute_error_untouched, HartCall.performAll_halted,
    ?_, ?_⟩
  · intro word refused
    exact absurd (execute_hartHalted_iff.mp refused) Bool.false_ne_true
  · intro program fault after failed
    obtain ⟨applied, word, rest, middle, split, ran, stopped⟩ :=
      run_error failed
    exact ⟨applied, word, rest, middle, split, ran, stopped,
      (execute_error_untouched stopped).1⟩

/-- An addition into `x10`, a word of no vector class, and the addition
again. -/
def brokenProgram : List Word :=
  [0x00b5055b, 0x000010b7, 0x00b5055b]

/-- A hart that serves an interrupt and then meets a word of no vector class. -/
def stoppedHart : Hart Unit :=
  (withPendingLine.execute 0x000010b7).2

theorem fatal_traps_precise_interrupted :
    stoppedHart.interrupts.calls = [{ handler := (), line := 3 }] ∧
    withPendingLine.Untouched stoppedHart ∧ stoppedHart.halted = true ∧
    HartCall.performAll stoppedHart
        [.execute 0x00b5055b, .run 0x00b5055b [0x000010b7]] =
      ([.error .hartHalted, .error .hartHalted], stoppedHart) ∧
    (stoppedHart.reset.execute 0x00b5055b).1 ≠ .error .hartHalted ∧
    ∃ applied word rest middle,
      brokenProgram = applied ++ word :: rest ∧
      withPendingLine.run applied = (.ok (), middle) ∧
      middle.execute word =
        (.error .unsupportedOpcode, (withPendingLine.run brokenProgram).2) ∧
      middle.Untouched (withPendingLine.run brokenProgram).2 := by
  obtain ⟨precise, _, _, partly⟩ := fatal_traps_precise withPendingLine
  obtain ⟨_, final, restarted, _⟩ := fatal_traps_precise stoppedHart
  have stopped : withPendingLine.execute 0x000010b7 =
      (.error .unsupportedOpcode, stoppedHart) := rfl
  have broken : withPendingLine.run brokenProgram =
      (.error .unsupportedOpcode, (withPendingLine.run brokenProgram).2) := rfl
  obtain ⟨untouched, halted⟩ := precise _ _ _ stopped
  exact ⟨by decide, untouched, halted, final halted _, restarted _,
    partly _ _ _ broken⟩

end Hart

end VectorBench
