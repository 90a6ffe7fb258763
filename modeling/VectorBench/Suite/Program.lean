import VectorBench.Binding.Hardware
import VectorBench.Binding.Software
import VectorBench.CommandLine.Help
import VectorBench.CommandLine.Parser
import VectorBench.Suite.Operations
import VectorBench.Suite.Scenarios

/-!
# Program

The whole bench as one function: from the words of a command line and the bytes of its input to an
exit code and a transcript.
-/

namespace VectorBench

inductive TestMachine where
  | software (machine : Timed SoftwareBinding)
  /-- A hart without interrupt handlers. -/
  | hardware (machine : HardwareBinding (Hart Empty))

namespace TestMachine

def ofOptions (options : Options) : TestMachine :=
  match options.mode with
  | .software =>
      .software { machine := SoftwareBinding.initial Datapath.model, clock := Clock.zero }
  | .hardware =>
      .hardware
        { emitter := Hart.initial Clock.zero { hwOps := options.hwOps }
            (Datapath.withFault options.fault) }

def lift {α : Type} (onSoftware : Timed SoftwareBinding → α × Timed SoftwareBinding)
    (onHardware : HardwareBinding (Hart Empty) → α × HardwareBinding (Hart Empty)) :
    TestMachine → α × TestMachine
  | .software machine =>
      let (result, machine) := onSoftware machine
      (result, .software machine)
  | .hardware machine =>
      let (result, machine) := onHardware machine
      (result, .hardware machine)

instance : VectorOps TestMachine where
  issue opcode funct3 funct7 a b :=
    lift (VectorOps.issue opcode funct3 funct7 a b) (VectorOps.issue opcode funct3 funct7 a b)
  vectorVector funct3 funct7 vs1 vs2 vd :=
    lift (VectorOps.vectorVector funct3 funct7 vs1 vs2 vd)
      (VectorOps.vectorVector funct3 funct7 vs1 vs2 vd)
  vregs
    | .software machine => VectorOps.vregs machine
    | .hardware machine => VectorOps.vregs machine
  setVregs vregs
    | .software machine => .software (VectorOps.setVregs vregs machine)
    | .hardware machine => .hardware (VectorOps.setVregs vregs machine)

instance : Clocked TestMachine where
  clock
    | .software machine => Clocked.clock machine
    | .hardware machine => Clocked.clock machine
  advance cycles
    | .software machine => .software (Clocked.advance cycles machine)
    | .hardware machine => .hardware (Clocked.advance cycles machine)

end TestMachine

section Suites

variable {σ : Type} [VectorOps σ] [Clocked σ] (source : RandomSource)

/-- Runs a single suite.  The suite that stands for all others is none. -/
def runSingle (options : Options) (suite : Suite) (bench : Bench σ) : Except Fault Bool × Bench σ :=
  match suite with
  | .fixed => fixedSuite bench
  | .compare => compareSuite options.progress bench
  | .equivalence => equivalenceSuite bench
  | .interactive => interactiveSuite bench
  | .opvv => opvvSuite bench
  | .add => addSuite bench
  | .mask => maskSuite bench
  | .mm => mmSuite source options.size options.seed bench
  | .all => (.ok true, bench)

/-- Runs suites one after the other, each under its name, up to the first fault. -/
def runEach (options : Options) : List Suite → Bench σ → Except Fault Bool × Bench σ
  | [], bench => (.ok true, bench)
  | suite :: suites, bench =>
      match runSingle source options suite (bench.say ("== " ++ suite.name ++ " ==\n")) with
      | (.error fault, bench) => (.error fault, bench)
      | (.ok passed, bench) =>
          match runEach options suites bench with
          | (.error fault, bench) => (.error fault, bench)
          | (.ok others, bench) => (.ok (passed && others), bench)

def runSuite (options : Options) (bench : Bench σ) : Except Fault Bool × Bench σ :=
  match options.suite with
  | .all => runEach source options Suite.unattended bench
  | suite => runSingle source options suite bench

end Suites

structure ProgramResult where
  exitCode : UInt8
  transcript : Transcript
deriving DecidableEq, Repr

def Transcript.ofText (text : String) : Transcript :=
  Transcript.empty.push (.report text)

def Options.bench (options : Options) (input : List UInt8) : Bench TestMachine :=
  Bench.ofMachine (TestMachine.ofOptions options) input

def Options.headline (options : Options) : String :=
  "rvvLite " ++ options.mode.name ++ " mode, suite " ++ options.suite.name ++ "\n"

def runOptions (source : RandomSource) (options : Options) (input : List UInt8) : ProgramResult :=
  match runSuite source options ((options.bench input).say options.headline) with
  | (.ok true, bench) => { exitCode := 0, transcript := (bench.say "PASSED\n").transcript }
  | (.ok false, bench) => { exitCode := 1, transcript := (bench.say "FAILED\n").transcript }
  | (.error fault, bench) =>
      { exitCode := 2, transcript := (bench.say (fault.message ++ "\n")).transcript }

def runProgram (source : RandomSource) (arguments : List String) (input : List UInt8) :
    ProgramResult :=
  match parseCommandLine arguments with
  | .ok options => runOptions source options input
  | .error (.faultOutOfRange operation) =>
      { exitCode := 255, transcript := Transcript.ofText (faultOutOfRangeMessage operation ++ "\n") }
  | .error (.usage (.helpRequested topic)) =>
      { exitCode := 0, transcript := Transcript.ofText topic.text }
  | .error (.usage _) => { exitCode := 2, transcript := Transcript.empty }

end VectorBench
