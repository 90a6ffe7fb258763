import VectorBench.Comparison.Report
import VectorBench.Fault

/-!
# Comparisons

A reference and a device answer the same inputs, and their answers are compared.  Both run on a
common state: the reference always answers, the device may fault, and a fault ends the comparison.
A comparison runs the reference on all inputs before the device and measures both, or it takes one
input at a time and reports its progress.
-/

namespace VectorBench

/-- A function that answers an input and changes the state on the way. -/
abbrev Reference (σ ι τ : Type) := ι → σ → τ × σ

/-- A function that answers an input or faults, and changes the state on the way. -/
abbrev Device (σ ι τ : Type) := ι → σ → Except Fault τ × σ

variable {σ ι τ : Type}

def Reference.onAll (reference : Reference σ ι τ) : Reference σ (List ι) (List τ)
  | [], state => ([], state)
  | input :: inputs, state =>
      let (answer, state) := reference input state
      let (answers, state) := Reference.onAll reference inputs state
      (answer :: answers, state)

/-- Answers inputs in order, up to the first fault. -/
def Device.onAll (device : Device σ ι τ) : Device σ (List ι) (List τ)
  | [], state => (.ok [], state)
  | input :: inputs, state =>
      match device input state with
      | (.error fault, state) => (.error fault, state)
      | (.ok answer, state) =>
          match Device.onAll device inputs state with
          | (.error fault, state) => (.error fault, state)
          | (.ok answers, state) => (.ok (answer :: answers), state)

def Report.ofTables [BEq τ] (inputs : List ι) (got expected : List τ) : Report ι τ :=
  (inputs.zip (got.zip expected)).foldl
    (fun report (input, got, expected) => report.record input got expected) Report.empty

/-- Compares a reference and a device that each answer all inputs at once, and measures both.  The
answers must be as many as the inputs. -/
def compareBatch [Clocked σ] [BEq τ] (reference : Reference σ (List ι) (List τ))
    (device : Device σ (List ι) (List τ)) (inputs : List ι) (state : σ) :
    Except Fault (Report ι τ) × σ :=
  let ((expected, scalarSpan), state) := CycleSpan.measure (reference inputs) state
  let ((outcome, vectorSpan), state) := CycleSpan.measure (device inputs) state
  match outcome with
  | .error fault => (.error fault, state)
  | .ok got =>
      if expected.length ≠ inputs.length ∨ got.length ≠ inputs.length then
        (.error .vectorLength, state)
      else
        (.ok { Report.ofTables inputs got expected with
                scalarSpan := some scalarSpan
                vectorSpan := some vectorSpan }, state)

/-- Runs the reference on all inputs, then the device, measures both and compares the answers. -/
def compareTimed [Clocked σ] [BEq τ] (reference : Reference σ ι τ) (device : Device σ ι τ)
    (inputs : List ι) (state : σ) : Except Fault (Report ι τ) × σ :=
  compareBatch (Reference.onAll reference) (Device.onAll device) inputs state

def defaultProgressInterval : Nat := 0x10000

/-- Whether progress is reported at a count; with an interval of zero it never is. -/
def progressDue (interval compared : Nat) : Bool :=
  interval ≠ 0 && compared % interval = 0

def compareOnwards [BEq τ] (interval : Nat) (reference : Reference σ ι τ)
    (device : Device σ ι τ) (onProgress : Progress → σ → σ) (report : Report ι τ) :
    List ι → σ → Except Fault (Report ι τ) × σ
  | [], state => (.ok report, state)
  | input :: inputs, state =>
      let (expected, state) := reference input state
      match device input state with
      | (.error fault, state) => (.error fault, state)
      | (.ok got, state) =>
          let report := report.record input got expected
          let state :=
            if progressDue interval report.compared then onProgress report.progress state else state
          compareOnwards interval reference device onProgress report inputs state

/-- Compares input by input, the reference before the device, and reports progress every `interval`
inputs.  Nothing is measured, as the two sides take turns. -/
def compareStreaming [BEq τ] (interval : Nat) (reference : Reference σ ι τ)
    (device : Device σ ι τ) (onProgress : Progress → σ → σ) (inputs : List ι) (state : σ) :
    Except Fault (Report ι τ) × σ :=
  compareOnwards interval reference device onProgress Report.empty inputs state

end VectorBench
