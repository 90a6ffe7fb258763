import VectorBench.Comparison.Basic

/-!
# The calls of a comparison

A log kept beside the state tells which calls a comparison makes, in which
order and with which answers.  Keeping it changes neither the result nor the
state.
-/

namespace VectorBench

variable {σ ι τ : Type}

/-- A call that a comparison makes, with the answer to it. -/
inductive Call (ι τ : Type) where
  | reference (input : ι) (answer : τ)
  | device (input : ι) (outcome : Except Fault τ)
  | progress (counts : Progress)

/-- A state with the calls made so far, the latest one last. -/
structure Logged (σ ι τ : Type) where
  state : σ
  calls : List (Call ι τ)

/-- The log of a state in which no call was made. -/
def Logged.start (state : σ) : Logged σ ι τ where
  state := state
  calls := []

instance [Clocked σ] : Clocked (Logged σ ι τ) where
  clock logged := Clocked.clock logged.state
  advance cycles logged :=
    { logged with state := Clocked.advance cycles logged.state }

/-- A reference that logs its calls. -/
def Reference.logged (reference : Reference σ ι τ) :
    Reference (Logged σ ι τ) ι τ := fun input before =>
  let (answer, state) := reference input before.state
  (answer, { state, calls := before.calls ++ [.reference input answer] })

/-- A device that logs its calls. -/
def Device.logged (device : Device σ ι τ) :
    Device (Logged σ ι τ) ι τ := fun input before =>
  let (outcome, state) := device input before.state
  (outcome, { state, calls := before.calls ++ [.device input outcome] })

/-- A progress report that logs its calls. -/
def loggedProgress (onProgress : Progress → σ → σ) (counts : Progress)
    (before : Logged σ ι τ) : Logged σ ι τ where
  state := onProgress counts before.state
  calls := before.calls ++ [.progress counts]

/-! ### Two phases -/

/-- The calls of a device on some inputs in order, up to its first fault. -/
inductive DeviceCalls :
    List ι → Except Fault (List τ) → List (Call ι τ) → Prop where
  | nil : DeviceCalls [] (.ok []) []
  | fault {input : ι} {later : List ι} {fault : Fault} :
      DeviceCalls (input :: later) (.error fault)
        [.device input (.error fault)]
  | answer {input : ι} {later : List ι} {answer : τ}
      {outcome : Except Fault (List τ)} {calls : List (Call ι τ)} :
      DeviceCalls later outcome calls →
      DeviceCalls (input :: later) (outcome.map (answer :: ·))
        (.device input (.ok answer) :: calls)

theorem DeviceCalls.length_eq {inputs : List ι} {got : List τ}
    {outcome : Except Fault (List τ)} {calls : List (Call ι τ)}
    (called : DeviceCalls inputs outcome calls) (ended : outcome = .ok got) :
    got.length = inputs.length := by
  induction called generalizing got with
  | nil =>
      obtain rfl := Except.ok.inj ended
      rfl
  | fault => nomatch ended
  | @answer input later answer outcome calls _ ih =>
      cases outcome with
      | error fault => nomatch ended
      | ok answers =>
          obtain rfl := Except.ok.inj ended
          exact congrArg (· + 1) (ih rfl)

theorem Reference.logged_eq {reference : Reference σ ι τ} {input : ι}
    {state next : σ} {answer : τ}
    (asked : reference input state = (answer, next)) (calls : List (Call ι τ)) :
    reference.logged input ⟨state, calls⟩ =
      (answer, ⟨next, calls ++ [.reference input answer]⟩) := by
  simp only [Reference.logged, asked]

theorem Device.logged_eq {device : Device σ ι τ} {input : ι}
    {state next : σ} {outcome : Except Fault τ}
    (asked : device input state = (outcome, next)) (calls : List (Call ι τ)) :
    device.logged input ⟨state, calls⟩ =
      (outcome, ⟨next, calls ++ [.device input outcome]⟩) := by
  simp only [Device.logged, asked]

theorem Reference.onAll_logged (reference : Reference σ ι τ)
    (inputs : List ι) (state : σ) (calls : List (Call ι τ)) :
    ∃ expected after,
      Reference.onAll reference inputs state = (expected, after) ∧
      Reference.onAll reference.logged inputs ⟨state, calls⟩ =
        (expected,
          ⟨after, calls ++ List.zipWith Call.reference inputs expected⟩) ∧
      expected.length = inputs.length := by
  induction inputs generalizing state calls with
  | nil =>
      refine ⟨[], state, rfl, ?_, rfl⟩
      rw [List.zipWith_nil_left, List.append_nil]
      rfl
  | cons input inputs ih =>
      rcases asked : reference input state with ⟨answer, next⟩
      obtain ⟨expected, after, ran, ranLogged, length⟩ :=
        ih next (calls ++ [.reference input answer])
      refine ⟨answer :: expected, after, ?_, ?_, congrArg (· + 1) length⟩
      · simp only [Reference.onAll, asked, ran]
      · simp only [Reference.onAll, Reference.logged_eq asked, ranLogged,
          List.zipWith_cons_cons, List.append_assoc, List.singleton_append]

theorem Device.onAll_logged (device : Device σ ι τ) (inputs : List ι)
    (state : σ) (calls : List (Call ι τ)) :
    ∃ outcome after deviceCalls,
      Device.onAll device inputs state = (outcome, after) ∧
      Device.onAll device.logged inputs ⟨state, calls⟩ =
        (outcome, ⟨after, calls ++ deviceCalls⟩) ∧
      DeviceCalls inputs outcome deviceCalls := by
  induction inputs generalizing state calls with
  | nil =>
      refine ⟨.ok [], state, [], rfl, ?_, .nil⟩
      rw [List.append_nil]
      rfl
  | cons input inputs ih =>
      rcases asked : device input state with ⟨fault | answer, next⟩
      · refine ⟨.error fault, next, _, ?_, ?_, .fault⟩
        · simp only [Device.onAll, asked]
        · simp only [Device.onAll, Device.logged_eq asked]
      · obtain ⟨outcome, after, laterCalls, ran, ranLogged, called⟩ :=
          ih next (calls ++ [.device input (.ok answer)])
        have answered : DeviceCalls (input :: inputs)
            (outcome.map (answer :: ·))
            (.device input (.ok answer) :: laterCalls) :=
          .answer called
        refine ⟨_, after, _, ?_, ?_, answered⟩
        · simp only [Device.onAll, asked, ran]
          cases outcome <;> rfl
        · simp only [Device.onAll, Device.logged_eq asked, ranLogged,
            List.append_assoc, List.singleton_append]
          cases outcome <;> rfl

end VectorBench
