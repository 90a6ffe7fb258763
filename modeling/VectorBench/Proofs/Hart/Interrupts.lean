import VectorBench.Proofs.Hart.FatalTraps
import VectorBench.Proofs.Interrupt.Service

/-!
# Interrupts over a run

A raised line stays pending until its handler is called.  The call comes with
the first instruction that finds the line enabled and handled and interrupts
taken, before the instruction takes effect, and there is no second call unless
the line is raised again.
-/

namespace VectorBench

variable {H : Type}

namespace HartEvent

/-- A hart after one event.  Events go on when an instruction fails. -/
def happen (hart : Hart H) : HartEvent H → Hart H
  | .instruction word => (hart.execute word).2
  | .control change => change.apply hart

/-- An event that makes a line pending. -/
def Raises (event : HartEvent H) (line : InterruptLine) : Prop :=
  ∃ number, event = .control (.raise number) ∧
    InterruptLine.ofNumber number = line

end HartEvent

namespace Hart

variable {hart : Hart H} {event : HartEvent H} {line : InterruptLine}

/-- A hart after some events. -/
def after (hart : Hart H) (events : List (HartEvent H)) : Hart H :=
  events.foldl HartEvent.happen hart

/-- A raised line that has not been served. -/
def Pending (hart : Hart H) (line : InterruptLine) : Prop :=
  hart.interrupts.pending.getLsbD line = true

/-- The handler calls that some events lead to, the earliest first. -/
def callsDuring (hart : Hart H) (events : List (HartEvent H)) :
    List (HandlerCall H) :=
  (hart.after events).interrupts.calls.drop hart.interrupts.calls.length

/-- Some events lead to a call of the handler of a line. -/
def Calls (hart : Hart H) (events : List (HartEvent H))
    (line : InterruptLine) : Prop :=
  ∃ call ∈ hart.callsDuring events, call.line = line

/-- The next instruction serves a line if it is pending. -/
structure CanServe (hart : Hart H) (line : InterruptLine) : Prop where
  live : hart.halted = false
  taken : hart.interruptsEnabled = true
  enabled : hart.interrupts.mask.getLsbD line = true
  handled : (hart.interrupts.handlers.get line).isSome = true

/-- No instruction among some events finds that it can serve a line. -/
def NoChance (hart : Hart H) (events : List (HartEvent H))
    (line : InterruptLine) : Prop :=
  ∀ before word rest, events = before ++ .instruction word :: rest →
    ¬ (hart.after before).CanServe line

/-- An instruction first serves all lines that it has to, while nothing that
instructions write has changed, and then is carried out without regard to
interrupts. -/
def ServesFirst (hart : Hart H) (word : Word) : Prop :=
  ∃ made served, hart.interrupts.Serves served.interrupts made ∧
    hart.Untouched served ∧ hart.execute word = served.step word ∧
    (hart.execute word).2.interrupts = served.interrupts

/-- A hart on which nothing has happened to the interrupts or to the
dispatcher. -/
structure Undisturbed (before after : Hart H) : Prop where
  interrupts : after.interrupts = before.interrupts
  idle : after.dispatcher.state = .idle

theorem step_undisturbed (idle : hart.dispatcher.state = .idle) (word : Word) :
    hart.Undisturbed (hart.step word).2 := by
  unfold step
  split
  case isTrue =>
    have ran : hart.Undisturbed (hart.runDatapath word) := by
      simp only [runDatapath]
      split <;> exact ⟨rfl, idle⟩
    exact ⟨ran.interrupts, ran.idle⟩
  case isFalse =>
    cases (InstructionFields.ofWord word).classCases with
    | unsupported selected =>
        rw [trap_unsupported idle selected]
        exact ⟨rfl, idle⟩
    | vector selected =>
        rw [trap_vector idle selected]
        exact ⟨rfl, idle⟩
    | scalar kind scalar selected =>
        rw [trap_scalar idle selected scalar]
        exact ⟨rfl, idle⟩

theorem interrupted_serves (taken : hart.interruptsEnabled = true) :
    ∃ made, hart.interrupts.Serves hart.interrupted.interrupts made := by
  unfold interrupted
  split
  case isTrue => exact ⟨_, hart.interrupts.serves_service⟩
  case isFalse quiet =>
    refine ⟨[], InterruptController.serves_quiet ?_⟩
    by_contra firing
    exact quiet (by simp only [takesInterrupt, taken, Bool.true_and,
      decide_eq_true firing])

theorem execute_servesFirst (idle : hart.dispatcher.state = .idle)
    (live : hart.halted = false) (taken : hart.interruptsEnabled = true)
    (word : Word) : hart.ServesFirst word := by
  obtain ⟨made, serves⟩ := interrupted_serves taken
  have idle_served : hart.interrupted.dispatcher.state = .idle := by
    rw [interrupted_dispatcher, idle]
  have executed : hart.execute word = hart.interrupted.step word :=
    execute_eq_step live idle
  refine ⟨made, hart.interrupted, serves, untouched_interrupted hart,
    executed, ?_⟩
  rw [executed]
  exact (step_undisturbed idle_served word).interrupts

theorem execute_serves_nothing (idle : hart.dispatcher.state = .idle)
    (prevented : hart.halted = true ∨ hart.interruptsEnabled = false)
    (word : Word) : (hart.execute word).2.interrupts = hart.interrupts := by
  cases halted : hart.halted with
  | true => rw [execute_halted halted]
  | false =>
      have disabled : hart.interruptsEnabled = false := by
        simpa [halted] using prevented
      have same : hart.interrupted = hart := by
        unfold interrupted takesInterrupt
        simp only [disabled, Bool.false_and, Bool.false_eq_true, if_false]
      rw [execute_eq_step halted idle, same]
      exact (step_undisturbed idle word).interrupts

theorem idle_happen (idle : hart.dispatcher.state = .idle)
    (event : HartEvent H) :
    (event.happen hart).dispatcher.state = .idle := by
  cases event with
  | control change => cases change <;> exact idle
  | instruction word =>
      change (hart.execute word).2.dispatcher.state = .idle
      cases halted : hart.halted with
      | true => rw [execute_halted halted]; exact idle
      | false =>
          rw [execute_eq_step halted idle]
          refine (step_undisturbed ?_ word).idle
          rw [interrupted_dispatcher, idle]

theorem idle_after (idle : hart.dispatcher.state = .idle)
    (events : List (HartEvent H)) :
    (hart.after events).dispatcher.state = .idle := by
  induction events generalizing hart with
  | nil => exact idle
  | cons event events induction => exact induction (idle_happen idle event)

/-- What one event does to the interrupts, if it leads to the handler calls
`made`. -/
structure Account (hart : Hart H) (event : HartEvent H)
    (made : List (HandlerCall H)) : Prop where
  calls : (event.happen hart).interrupts.calls = hart.interrupts.calls ++ made
  pending : ∀ line, (event.happen hart).Pending line ↔
    (hart.Pending line ∧ ∀ call ∈ made, call.line ≠ line) ∨ event.Raises line
  pending_of_called : ∀ call ∈ made, hart.Pending call.line
  canServe_of_called : ∀ call ∈ made, hart.CanServe call.line
  instruction_of_called : ∀ call ∈ made, ∃ word, event = .instruction word

theorem account_nil
    (calls : (event.happen hart).interrupts.calls = hart.interrupts.calls)
    (pending : ∀ line, (event.happen hart).Pending line ↔
      hart.Pending line ∨ event.Raises line) :
    hart.Account event [] where
  calls := by rw [calls, List.append_nil]
  pending line := by
    simp only [pending, List.not_mem_nil, false_imp_iff, implies_true, and_true]
  pending_of_called call member := (List.not_mem_nil member).elim
  canServe_of_called call member := (List.not_mem_nil member).elim
  instruction_of_called call member := (List.not_mem_nil member).elim

/-- Most events change nothing about pending lines and call no handler. -/
theorem account_of_kept
    (pending : (event.happen hart).interrupts.pending = hart.interrupts.pending)
    (calls : (event.happen hart).interrupts.calls = hart.interrupts.calls)
    (raisesNothing : ∀ line, ¬ event.Raises line) :
    hart.Account event [] := by
  refine account_nil calls fun line => ?_
  rw [or_iff_left (raisesNothing line), Pending, pending, Pending]

theorem raises_raise_iff {number : Nat} :
    (HartEvent.control (.raise number) : HartEvent H).Raises line ↔
      InterruptLine.ofNumber number = line := by
  constructor
  · rintro ⟨other, same, rfl⟩
    cases same
    rfl
  · intro same
    exact ⟨number, rfl, same⟩

theorem account_raise (hart : Hart H) (number : Nat) :
    hart.Account (.control (.raise number)) [] := by
  refine account_nil rfl fun line => ?_
  have raised := InterruptController.getLsbD_pending_raise hart.interrupts
    number line
  have own : line.val = number % 32 ↔
      InterruptLine.ofNumber number = line := by
    simp [InterruptLine.ofNumber, Fin.ext_iff, eq_comm]
  rw [raises_raise_iff, ← own]
  unfold Pending
  simp only [HartEvent.happen, InterruptControl.apply, raiseInterrupt, raised,
    Bool.or_eq_true, decide_eq_true_eq]

theorem account_instruction (idle : hart.dispatcher.state = .idle)
    (word : Word) : ∃ made, hart.Account (.instruction word) made := by
  have raisesNothing : ∀ line,
      ¬ (HartEvent.instruction word : HartEvent H).Raises line := by
    rintro line ⟨number, same, _⟩
    cases same
  by_cases serving : hart.halted = false ∧ hart.interruptsEnabled = true
  · obtain ⟨live, taken⟩ := serving
    -- The instruction itself leaves the lines alone, so `served` has the last word.
    obtain ⟨made, served, serves, _, _, left⟩ :=
      execute_servesFirst idle live taken word
    refine ⟨made, ?_, ?_, ?_, ?_, fun _ _ => ⟨word, rfl⟩⟩
    · exact (congrArg InterruptController.calls left).trans serves.calls
    · intro line
      simp only [raisesNothing line, or_false, Pending, HartEvent.happen, left]
      exact serves.pending line
    · intro call member
      exact ((serves.due call).mp member).pending
    · intro call member
      have due := (serves.due call).mp member
      have registered : hart.interrupts.handlers.get call.line =
          some call.handler := due.handler
      exact ⟨live, taken, due.enabled, by rw [registered]; rfl⟩
  · have prevented : hart.halted = true ∨ hart.interruptsEnabled = false := by
      cases halted : hart.halted <;> cases taken : hart.interruptsEnabled <;>
        simp_all
    have kept := execute_serves_nothing idle prevented word
    exact ⟨[], account_of_kept (congrArg InterruptController.pending kept)
      (congrArg InterruptController.calls kept) raisesNothing⟩

theorem exists_account (idle : hart.dispatcher.state = .idle)
    (event : HartEvent H) : ∃ made, hart.Account event made := by
  cases event with
  | instruction word => exact account_instruction idle word
  | control change =>
      cases change with
      | raise number => exact ⟨[], account_raise hart number⟩
      | register _ _ | unregister _ | setMask _ | setEnabled _ =>
          refine ⟨[], account_of_kept rfl rfl ?_⟩
          rintro line ⟨number, same, _⟩
          cases same

/-- The calls during one event are the ones that account for it. -/
theorem account (idle : hart.dispatcher.state = .idle) (event : HartEvent H) :
    hart.Account event (hart.callsDuring [event]) := by
  obtain ⟨made, account⟩ := exists_account idle event
  have same : hart.callsDuring [event] = made := by
    change (event.happen hart).interrupts.calls.drop _ = made
    rw [account.calls, List.drop_left]
  rw [same]
  exact account

theorem calls_after (idle : hart.dispatcher.state = .idle)
    (events : List (HartEvent H)) :
    (hart.after events).interrupts.calls =
      hart.interrupts.calls ++ hart.callsDuring events := by
  have grows : hart.interrupts.calls <+: (hart.after events).interrupts.calls := by
    induction events generalizing hart with
    | nil => exact List.prefix_refl _
    | cons event events induction =>
        have next : hart.interrupts.calls <+:
            (event.happen hart).interrupts.calls := by
          rw [(account idle event).calls]
          exact List.prefix_append _ _
        exact next.trans (induction (idle_happen idle event))
  exact (List.prefix_iff_eq_append.mp grows).symm

theorem callsDuring_cons (idle : hart.dispatcher.state = .idle)
    (event : HartEvent H) (events : List (HartEvent H)) :
    hart.callsDuring (event :: events) =
      hart.callsDuring [event] ++ (event.happen hart).callsDuring events := by
  have whole := calls_after idle (event :: events)
  have rest := calls_after (idle_happen idle event) events
  rw [(account idle event).calls, List.append_assoc] at rest
  exact List.append_cancel_left (whole.symm.trans rest)

theorem calls_cons_iff (idle : hart.dispatcher.state = .idle)
    {events : List (HartEvent H)} :
    hart.Calls (event :: events) line ↔
      hart.Calls [event] line ∨ (event.happen hart).Calls events line := by
  unfold Calls
  rw [callsDuring_cons idle]
  simp only [List.mem_append, or_and_right, exists_or]

/-- A pending line stays pending up to a call of its handler. -/
theorem pending_or_calls (idle : hart.dispatcher.state = .idle)
    (pending : hart.Pending line) (events : List (HartEvent H)) :
    (hart.after events).Pending line ∨ hart.Calls events line := by
  induction events generalizing hart with
  | nil => exact .inl pending
  | cons event events induction =>
      -- Only a call by the event itself can end the wait of the line.
      by_cases called : hart.Calls [event] line
      · exact .inr ((calls_cons_iff idle).mpr (.inl called))
      · have kept : (event.happen hart).Pending line :=
          ((account idle event).pending line).mpr
            (.inl ⟨pending, fun call member same =>
              called ⟨call, member, same⟩⟩)
        rcases induction (idle_happen idle event) kept with later | later
        · exact .inl later
        · exact .inr ((calls_cons_iff idle).mpr (.inr later))

theorem not_calls_of_unraised (idle : hart.dispatcher.state = .idle)
    (absent : ¬ hart.Pending line) {events : List (HartEvent H)}
    (unraised : ∀ event ∈ events, ¬ event.Raises line) :
    ¬ hart.Calls events line ∧ ¬ (hart.after events).Pending line := by
  induction events generalizing hart with
  | nil =>
      refine ⟨?_, absent⟩
      rintro ⟨call, member, _⟩
      simp [callsDuring, after] at member
  | cons event events induction =>
      -- That the line is not pending carries over each event.
      have accounted := account idle event
      have uncalled : ¬ hart.Calls [event] line := by
        rintro ⟨call, member, rfl⟩
        exact absent (accounted.pending_of_called call member)
      have still : ¬ (event.happen hart).Pending line := by
        intro pending
        rcases (accounted.pending line).mp pending with kept | raised
        · exact absent kept.1
        · exact unraised event List.mem_cons_self raised
      obtain ⟨later, final⟩ := induction (idle_happen idle event) still
        (fun other member => unraised other (List.mem_cons_of_mem event member))
      refine ⟨?_, final⟩
      intro called
      rcases (calls_cons_iff idle).mp called with first | second
      · exact uncalled first
      · exact later second

theorem not_calls_of_noChance (idle : hart.dispatcher.state = .idle)
    {events : List (HartEvent H)} (missed : hart.NoChance events line) :
    ¬ hart.Calls events line := by
  induction events generalizing hart with
  | nil =>
      rintro ⟨call, member, _⟩
      simp [callsDuring, after] at member
  | cons event events induction =>
      intro called
      rcases (calls_cons_iff idle).mp called with first | second
      · -- Only instructions call handlers, and this one comes after nothing.
        obtain ⟨call, member, rfl⟩ := first
        have accounted := account idle event
        obtain ⟨word, rfl⟩ := accounted.instruction_of_called call member
        exact missed [] word events rfl
          (accounted.canServe_of_called call member)
      · refine induction (idle_happen idle event) ?_ second
        intro before word rest split
        exact missed (event :: before) word rest (by rw [split, List.cons_append])

theorem mem_callsDuring_of_due (idle : hart.dispatcher.state = .idle)
    (live : hart.halted = false) (taken : hart.interruptsEnabled = true)
    {call : HandlerCall H} (due : hart.interrupts.Due call) (word : Word) :
    call ∈ hart.callsDuring [.instruction word] := by
  obtain ⟨made, served, serves, _, _, left⟩ :=
    execute_servesFirst idle live taken word
  have during : hart.callsDuring [.instruction word] = made := by
    change (hart.execute word).2.interrupts.calls.drop _ = made
    rw [left, serves.calls, List.drop_left]
  rw [during]
  exact (serves.due call).mpr due

theorem not_pending_of_calls (idle : hart.dispatcher.state = .idle)
    (called : hart.Calls [event] line) :
    ¬ (event.happen hart).Pending line := by
  obtain ⟨call, member, same⟩ := called
  have accounted := account idle event
  intro pending
  rcases (accounted.pending line).mp pending with kept | ⟨number, raise, _⟩
  · exact kept.2 call member same
  · -- The same event would have to be an instruction and a raise.
    obtain ⟨word, instruction⟩ := accounted.instruction_of_called call member
    rw [instruction] at raise
    cases raise

theorem exists_handler_called (idle : hart.dispatcher.state = .idle)
    (pending : hart.Pending line) (chance : hart.CanServe line) (word : Word) :
    ∃ handler, hart.interrupts.handlers.get line = some handler ∧
      { handler, line } ∈ hart.callsDuring [.instruction word] := by
  obtain ⟨handler, registered⟩ := Option.isSome_iff_exists.mp chance.handled
  have due : hart.interrupts.Due { handler, line } :=
    ⟨pending, chance.enabled, registered⟩
  exact ⟨handler, registered,
    mem_callsDuring_of_due idle chance.live chance.taken due word⟩

theorem exists_raise_between (idle : hart.dispatcher.state = .idle)
    {first second : HartEvent H} {waiting : List (HartEvent H)}
    (once : hart.Calls [first] line)
    (again : (hart.after (first :: waiting)).Calls [second] line) :
    ∃ event ∈ waiting, event.Raises line := by
  by_contra unraised
  have quiet : ∀ event ∈ waiting, ¬ event.Raises line :=
    fun event member raises => unraised ⟨event, member, raises⟩
  -- The first call takes the line, and only a raise gives it back.
  have absent : ¬ (hart.after (first :: waiting)).Pending line :=
    (not_calls_of_unraised (idle_happen idle first)
      (not_pending_of_calls idle once) quiet).2
  obtain ⟨call, member, rfl⟩ := again
  exact absent ((account (idle_after idle (first :: waiting)) second
    ).pending_of_called call member)

theorem pending_raiseInterrupt (hart : Hart H) (number : Nat) :
    (hart.raiseInterrupt number).Pending (InterruptLine.ofNumber number) :=
  ((account_raise hart number).pending _).mpr
    (.inr (raises_raise_iff.mpr rfl))

/-- No interrupt is lost, served twice or served out of order, whatever is done
to the interrupts of a hart between its instructions: an instruction serves
exactly what it has to before it takes effect, and nothing where interrupts are
not taken; a raised line stays pending up to the call of its handler, which
comes with the first instruction that can serve the line; and between two calls
the line was raised again. -/
theorem interrupts_conserved (idle : hart.dispatcher.state = .idle)
    (earlier : List (HartEvent H)) :
    let now := hart.after earlier
    (∀ word,
      (now.halted = false → now.interruptsEnabled = true →
        now.ServesFirst word) ∧
      (now.halted = true ∨ now.interruptsEnabled = false →
        (now.execute word).2.interrupts = now.interrupts)) ∧
    (∀ number waiting,
      let line := InterruptLine.ofNumber number
      let raised := now.raiseInterrupt number
      ((raised.after waiting).Pending line ∨ raised.Calls waiting line) ∧
      (raised.NoChance waiting line → (raised.after waiting).CanServe line →
        ¬ raised.Calls waiting line ∧
        ∀ word, ∃ handler,
          (raised.after waiting).interrupts.handlers.get line = some handler ∧
          { handler, line } ∈
            (raised.after waiting).callsDuring [.instruction word])) ∧
    ∀ line first waiting second,
      now.Calls [first] line →
      (now.after (first :: waiting)).Calls [second] line →
      ∃ event ∈ waiting, event.Raises line := by
  intro now
  have idle_now : now.dispatcher.state = .idle := idle_after idle earlier
  refine ⟨fun word => ⟨fun live taken =>
    execute_servesFirst idle_now live taken word,
    fun prevented => execute_serves_nothing idle_now prevented word⟩, ?_,
    fun _ _ _ _ => exists_raise_between idle_now⟩
  intro number waiting line raised
  have idle_raised : raised.dispatcher.state = .idle := idle_now
  have kept : (raised.after waiting).Pending line ∨ raised.Calls waiting line :=
    pending_or_calls idle_raised (pending_raiseInterrupt now number) waiting
  refine ⟨kept, fun missed chance => ?_⟩
  have uncalled := not_calls_of_noChance idle_raised missed
  have pending := kept.resolve_right uncalled
  exact ⟨uncalled,
    exists_handler_called (idle_after idle_raised waiting) pending chance⟩

/-- A hart on which the lines 3, 5 and 9 are pending, but only 3 and 9 have
handlers. -/
def threeRaised : Hart Nat :=
  (Hart.initial Clock.zero {} Datapath.model).after
    [.control (.register 9 1), .control (.register 3 0), .control (.raise 9),
      .control (.raise 3), .control (.raise 5), .control (.setEnabled true)]

/-- An addition, after which line 5 gets the handler that it lacked. -/
def lateHandler : List (HartEvent Nat) :=
  [.instruction 0x00b5055b, .control (.register 5 2)]

theorem interrupts_conserved_threeRaised :
    (threeRaised.ServesFirst 0x000010b7 ∧
      threeRaised.callsDuring [.instruction 0x000010b7] =
        [{ handler := 0, line := 3 }, { handler := 1, line := 9 }] ∧
      (threeRaised.execute 0x000010b7).1 = .error .unsupportedOpcode) ∧
    (((threeRaised.raiseInterrupt 37).NoChance lateHandler 5 ∧
        ((threeRaised.raiseInterrupt 37).after lateHandler).CanServe 5) ∧
      ∀ word, ∃ handler,
        ((threeRaised.raiseInterrupt 37).after lateHandler
          ).interrupts.handlers.get 5 = some handler ∧
        { handler, line := 5 } ∈
          ((threeRaised.raiseInterrupt 37).after lateHandler).callsDuring
            [.instruction word]) ∧
    ∃ event ∈ [HartEvent.control (.raise 35)],
      (event : HartEvent Nat).Raises 3 := by
  obtain ⟨serving, kept, between⟩ :=
    interrupts_conserved (rfl : threeRaised.dispatcher.state = .idle) []
  have missed : (threeRaised.raiseInterrupt 37).NoChance lateHandler 5 := by
    intro before word rest split chance
    match before, split with
    | [], _ => exact absurd chance.handled (by decide)
    | [_], split => cases split
    | _ :: _ :: _, split => simp [lateHandler] at split
  have chance : ((threeRaised.raiseInterrupt 37).after lateHandler).CanServe 5 :=
    ⟨by decide, by decide, by decide, by decide⟩
  have once : threeRaised.Calls [.instruction 0x00b5055b] 3 :=
    ⟨{ handler := 0, line := 3 }, by decide, rfl⟩
  have again : (threeRaised.after
      [.instruction 0x00b5055b, .control (.raise 35)]).Calls
      [.instruction 0x00b5055b] 3 :=
    ⟨{ handler := 0, line := 3 }, by decide, rfl⟩
  exact ⟨⟨(serving _).1 rfl rfl, by decide, rfl⟩,
    ⟨⟨missed, chance⟩, ((kept 37 lateHandler).2 missed chance).2⟩,
    between 3 _ _ _ once again⟩

end Hart

end VectorBench
