import Mathlib.Algebra.Order.Group.Nat
import VectorBench.Proofs.Comparison.Calls

/-!
# Progress of a comparison in turns

A comparison in turns asks the reference and then the device about each input,
until a fault of the device.  After every so many inputs, and before the next
one, it reports how many inputs it compared and on how many the two differ.
-/

namespace VectorBench

variable {σ ι τ : Type}

/-- An input on which the two sides answered. -/
structure Turn (ι τ : Type) where
  input : ι
  expected : τ
  got : τ

/-- The reference comes before the device. -/
def Turn.calls (turn : Turn ι τ) : List (Call ι τ) :=
  [.reference turn.input turn.expected, .device turn.input (.ok turn.got)]

def Call.progress? : Call ι τ → Option Progress
  | .progress counts => some counts
  | _ => none

theorem Turn.filterMap_calls (turn : Turn ι τ) :
    turn.calls.filterMap Call.progress? = [] :=
  rfl

theorem progressDue_succ_iff {interval earlier : Nat} :
    progressDue interval (earlier + 1) = true ↔ interval ∣ earlier + 1 := by
  rw [progressDue, Bool.and_eq_true, decide_eq_true_iff, decide_eq_true_iff,
    ← Nat.dvd_iff_mod_eq_zero]
  constructor
  · exact And.right
  · intro divides
    have positive := Nat.pos_of_dvd_of_pos divides earlier.succ_pos
    exact ⟨Nat.ne_of_gt positive, divides⟩

section Turns

variable [BEq τ]

def Turn.differs (turn : Turn ι τ) : Bool :=
  turn.got != turn.expected

/-- The counts that some turns come to. -/
def counts (turns : List (Turn ι τ)) : Progress where
  compared := turns.length
  errors := turns.countP Turn.differs

/-- The calls of some turns.  Progress is reported right after a turn that
makes their number a multiple of the interval, which it never is of zero. -/
inductive TurnCalls (interval : Nat) :
    List (Turn ι τ) → List (Call ι τ) → Prop where
  | start : TurnCalls interval [] []
  | quiet {turns : List (Turn ι τ)} {turn : Turn ι τ}
      {calls : List (Call ι τ)} :
      TurnCalls interval turns calls →
      ¬interval ∣ turns.length + 1 →
      TurnCalls interval (turns ++ [turn]) (calls ++ turn.calls)
  | report {turns : List (Turn ι τ)} {turn : Turn ι τ}
      {calls : List (Call ι τ)} :
      TurnCalls interval turns calls →
      interval ∣ turns.length + 1 →
      TurnCalls interval (turns ++ [turn])
        (calls ++ turn.calls ++ [.progress (counts (turns ++ [turn]))])

/-- The ways a comparison in turns ends: all inputs had a turn, or the device
faults on the first input that has none. -/
inductive TurnsEnd (interval : Nat) (inputs : List ι)
    (turns : List (Turn ι τ)) :
    Except Fault (Report ι τ) → List (Call ι τ) → Prop where
  | finished {report : Report ι τ} {calls : List (Call ι τ)} :
      TurnCalls interval turns calls →
      turns.map Turn.input = inputs →
      report.progress = counts turns →
      TurnsEnd interval inputs turns (.ok report) calls
  | faulted {input : ι} {later : List ι} {expected : τ} {fault : Fault}
      {calls : List (Call ι τ)} :
      TurnCalls interval turns calls →
      turns.map Turn.input ++ input :: later = inputs →
      TurnsEnd interval inputs turns (.error fault)
        (calls ++ [.reference input expected, .device input (.error fault)])

theorem Report.progress_record {report : Report ι τ} {turns : List (Turn ι τ)}
    (counted : report.progress = counts turns) (turn : Turn ι τ) :
    (report.record turn.input turn.got turn.expected).progress =
      counts (turns ++ [turn]) := by
  obtain ⟨compared, errors⟩ := Progress.mk.inj counted
  rw [counts, List.length_append, List.length_singleton, List.countP_append,
    List.countP_singleton, ← compared, ← errors, Turn.differs, bne]
  cases same : turn.got == turn.expected
  · rw [Report.record, same]
    rfl
  · rw [Report.record, same]
    rfl

/-! ### The reports of a run -/

/-- The counts after the turns up to a multiple of the interval. -/
def milestone (interval : Nat) (turns : List (Turn ι τ)) (place : Nat) :
    Progress where
  compared := (place + 1) * interval
  errors := (turns.take ((place + 1) * interval)).countP Turn.differs

/-- The counts at all multiples of the interval, in increasing order. -/
def milestones (interval : Nat) (turns : List (Turn ι τ)) : List Progress :=
  (List.range (turns.length / interval)).map (milestone interval turns)

theorem milestones_concat {interval : Nat} {turns : List (Turn ι τ)}
    (turn : Turn ι τ) :
    milestones interval (turns ++ [turn]) =
      milestones interval turns ++
        if interval ∣ turns.length + 1 then [counts (turns ++ [turn])]
        else [] := by
  have length : (turns ++ [turn]).length = turns.length + 1 :=
    List.length_append
  have earlier : (List.range (turns.length / interval)).map
      (milestone interval (turns ++ [turn])) = milestones interval turns := by
    apply List.map_congr_left
    intro place member
    have within : (place + 1) * interval ≤ turns.length := by
      calc
        (place + 1) * interval ≤ turns.length / interval * interval :=
          Nat.mul_le_mul_right interval (List.mem_range.mp member)
        _ ≤ turns.length := Nat.div_mul_le_self turns.length interval
    rw [milestone, List.take_append_of_le_length within]
    rfl
  by_cases divides : interval ∣ turns.length + 1
  · have last : milestone interval (turns ++ [turn])
        (turns.length / interval) = counts (turns ++ [turn]) := by
      rw [milestone, ← Nat.succ_div_of_dvd divides,
        Nat.div_mul_cancel divides, ← length, List.take_length]
      rfl
    rw [milestones, length, Nat.succ_div_of_dvd divides, List.range_succ,
      List.map_append, List.map_singleton, earlier, last, if_pos divides]
  · rw [milestones, length, Nat.succ_div_of_not_dvd divides, earlier,
      if_neg divides, List.append_nil]

theorem TurnCalls.filterMap_progress? {interval : Nat}
    {turns : List (Turn ι τ)} {calls : List (Call ι τ)}
    (called : TurnCalls interval turns calls) :
    calls.filterMap Call.progress? = milestones interval turns := by
  induction called with
  | start =>
      rw [milestones, List.length_nil, Nat.zero_div]
      rfl
  | quiet _ silent ih =>
      rw [List.filterMap_append, Turn.filterMap_calls, List.append_nil, ih,
        milestones_concat, if_neg silent, List.append_nil]
  | report _ divides ih =>
      rw [List.filterMap_append, List.filterMap_append, Turn.filterMap_calls,
        List.append_nil, ih, milestones_concat, if_pos divides]
      rfl

theorem TurnsEnd.filterMap_progress? {interval : Nat} {inputs : List ι}
    {turns : List (Turn ι τ)} {result : Except Fault (Report ι τ)}
    {calls : List (Call ι τ)}
    (ended : TurnsEnd interval inputs turns result calls) :
    calls.filterMap Call.progress? = milestones interval turns := by
  cases ended with
  | finished called _ _ => exact called.filterMap_progress?
  | faulted called _ =>
      rw [List.filterMap_append, called.filterMap_progress?]
      exact List.append_nil _

/-! ### A turn and a run -/

variable (interval : Nat) (reference : Reference σ ι τ)
  (device : Device σ ι τ) (onProgress : Progress → σ → σ)

theorem compareOnwards_turn {report : Report ι τ} {turns : List (Turn ι τ)}
    {calls : List (Call ι τ)} (called : TurnCalls interval turns calls)
    (counted : report.progress = counts turns) (turn : Turn ι τ)
    {state between after : σ}
    (asked : reference turn.input state = (turn.expected, between))
    (answered : device turn.input between = (.ok turn.got, after))
    (inputs : List ι) :
    ∃ next nextCalls,
      compareOnwards interval reference device onProgress report
          (turn.input :: inputs) state =
        compareOnwards interval reference device onProgress
          (report.record turn.input turn.got turn.expected) inputs next ∧
      compareOnwards interval reference.logged device.logged
          (loggedProgress onProgress) report (turn.input :: inputs)
          ⟨state, calls⟩ =
        compareOnwards interval reference.logged device.logged
          (loggedProgress onProgress)
          (report.record turn.input turn.got turn.expected) inputs
          ⟨next, nextCalls⟩ ∧
      TurnCalls interval (turns ++ [turn]) nextCalls := by
  have recorded := Report.progress_record counted turn
  have compared :
      (report.record turn.input turn.got turn.expected).compared =
        turns.length + 1 :=
    (congrArg Progress.compared recorded).trans List.length_append
  have deviceLogged :
      device.logged turn.input
          ⟨between, calls ++ [.reference turn.input turn.expected]⟩ =
        (.ok turn.got, ⟨after, calls ++ turn.calls⟩) := by
    rw [Device.logged_eq answered, List.append_assoc]
    rfl
  by_cases due : progressDue interval (turns.length + 1) = true
  · refine ⟨onProgress (counts (turns ++ [turn])) after, _, ?_, ?_,
      .report called (progressDue_succ_iff.mp due)⟩
    · simp only [compareOnwards, asked, answered, compared, if_pos due,
        recorded]
    · simp only [compareOnwards, Reference.logged_eq asked, deviceLogged,
        compared, if_pos due, recorded]
      rfl
  · refine ⟨after, _, ?_, ?_,
      .quiet called (mt progressDue_succ_iff.mpr due)⟩
    · simp only [compareOnwards, asked, answered, compared, if_neg due]
    · simp only [compareOnwards, Reference.logged_eq asked, deviceLogged,
        compared, if_neg due]

theorem compareOnwards_turns {report : Report ι τ} {turns : List (Turn ι τ)}
    {calls : List (Call ι τ)} (called : TurnCalls interval turns calls)
    (counted : report.progress = counts turns) (inputs : List ι) (state : σ) :
    ∃ allTurns allCalls result after,
      compareOnwards interval reference device onProgress report inputs
        state = (result, after) ∧
      compareOnwards interval reference.logged device.logged
        (loggedProgress onProgress) report inputs ⟨state, calls⟩ =
          (result, ⟨after, allCalls⟩) ∧
      TurnsEnd interval (turns.map Turn.input ++ inputs) allTurns result
        allCalls := by
  -- The turns so far account for the calls and for the report's counts.
  induction inputs generalizing report turns calls state with
  | nil =>
      refine ⟨turns, calls, .ok report, state, rfl, rfl, ?_⟩
      rw [List.append_nil]
      exact .finished called rfl counted
  | cons input inputs ih =>
      rcases asked : reference input state with ⟨expected, between⟩
      rcases answered : device input between with ⟨fault | got, after⟩
      · refine ⟨turns, calls ++
          [.reference input expected, .device input (.error fault)],
          .error fault, after, ?_, ?_, .faulted called rfl⟩
        · simp only [compareOnwards, asked, answered]
        · simp only [compareOnwards, Reference.logged_eq asked,
            Device.logged_eq answered, List.append_assoc,
            List.singleton_append]
      · let turn : Turn ι τ := ⟨input, expected, got⟩
        obtain ⟨next, nextCalls, plainTurn, loggedTurn, nextCalled⟩ :=
          compareOnwards_turn interval reference device onProgress called
            counted turn asked answered inputs
        obtain ⟨allTurns, allCalls, result, last, ran, ranLogged, ended⟩ :=
          ih nextCalled (Report.progress_record counted turn) next
        refine ⟨allTurns, allCalls, result, last, plainTurn.trans ran,
          loggedTurn.trans ranLogged, ?_⟩
        rwa [List.map_append, List.append_assoc] at ended

/-- A comparison in turns reports its progress at each multiple of the interval,
between the calls for that input and those for the next one, and it calls
nothing after a fault. -/
theorem compareStreaming_turns (inputs : List ι) (state : σ) :
    ∃ turns calls result after,
      compareStreaming interval reference device onProgress inputs state =
        (result, after) ∧
      compareStreaming interval reference.logged device.logged
        (loggedProgress onProgress) inputs (Logged.start state) =
          (result, ⟨after, calls⟩) ∧
      TurnsEnd interval inputs turns result calls ∧
      calls.filterMap Call.progress? = milestones interval turns := by
  have counted : (Report.empty : Report ι τ).progress =
      counts ([] : List (Turn ι τ)) := rfl
  have started : TurnCalls interval ([] : List (Turn ι τ)) [] := .start
  obtain ⟨turns, calls, result, after, ran, ranLogged, ended⟩ :=
    compareOnwards_turns interval reference device onProgress started counted
      inputs state
  exact ⟨turns, calls, result, after, ran, ranLogged, ended,
    ended.filterMap_progress?⟩

end Turns

end VectorBench
