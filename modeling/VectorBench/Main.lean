import VectorBench.Suite.Program

/-!
# Command line of the bench

Reads the arguments and, where a suite asks for it, standard input; writes the transcript and ends
with the exit code.
-/

namespace VectorBench

/-- The generator of Lean's own library. -/
def standardSource : RandomSource where
  State := StdGen
  ofSeed seed := mkStdGen seed
  entry state :=
    let (number, state) := randNat state 0 4
    (Fin.ofNat 5 number, state)

/-- Standard input up to its end, for the suite that asks for operands. -/
def consoleInput (options : Options) : IO (List UInt8) := do
  if options.suite = .interactive then
    let stdin ← IO.getStdin
    return (← stdin.readBinToEnd).toList
  else
    return []

end VectorBench

open VectorBench in
def main (arguments : List String) : IO UInt32 := do
  let stdout ← IO.getStdout
  match parseCommandLine arguments with
  | .error (.usage (.helpRequested _)) => pure ()
  | .error (.usage _) => (← IO.getStderr).putStr (HelpTopic.text .program)
  | _ => pure ()
  let input ←
    match parseCommandLine arguments with
    | .ok options => consoleInput options
    | .error _ => pure []
  let result := runProgram standardSource arguments input
  stdout.write result.transcript.bytes
  stdout.flush
  return result.exitCode.toUInt32
