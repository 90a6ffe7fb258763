import VectorBench.Binding.VectorOps
import VectorBench.Clock
import VectorBench.Console
import VectorBench.Sweep.StepRange

/-!
# Test bench

A suite runs on a machine, may ask for input, and leaves a transcript: the text of its report and
the bytes echoed by the console, in the order in which they came about.
-/

namespace VectorBench

inductive Chunk where
  | report (text : String)
  | echo (bytes : List UInt8)
deriving DecidableEq, Repr

/-- What a run leaves behind, the earliest piece first. -/
structure Transcript where
  chunks : Array Chunk
deriving DecidableEq, Repr

namespace Transcript

def empty : Transcript where
  chunks := #[]

def push (transcript : Transcript) (chunk : Chunk) : Transcript where
  chunks := transcript.chunks.push chunk

def reportText (transcript : Transcript) : String :=
  transcript.chunks.foldl (fun text chunk =>
    match chunk with
    | .report piece => text ++ piece
    | .echo _ => text) ""

def echoedBytes (transcript : Transcript) : List UInt8 :=
  transcript.chunks.toList.flatMap fun
    | .report _ => []
    | .echo bytes => bytes

/-- The bytes of report and echo together. -/
def bytes (transcript : Transcript) : ByteArray :=
  transcript.chunks.foldl (fun written chunk =>
    match chunk with
    | .report piece => written ++ piece.toUTF8
    | .echo bytes => bytes.foldl ByteArray.push written) ByteArray.empty

end Transcript

structure Bench (σ : Type) where
  machine : σ
  input : ByteStream
  transcript : Transcript

namespace Bench

variable {σ : Type}

def ofMachine (machine : σ) (input : List UInt8) : Bench σ where
  machine := machine
  input := ByteStream.ofList input
  transcript := Transcript.empty

def lift {α : Type} (operation : σ → α × σ) (bench : Bench σ) : α × Bench σ :=
  let { machine, input, transcript } := bench
  let (result, machine) := operation machine
  (result, { machine, input, transcript })

def say (text : String) (bench : Bench σ) : Bench σ :=
  { bench with transcript := bench.transcript.push (.report text) }

def sayAll (texts : List String) (bench : Bench σ) : Bench σ :=
  texts.foldl (fun bench text => bench.say text) bench

def ask (prompt : String) (bench : Bench σ) : Word × Bench σ :=
  let (line, input) := readValue prompt bench.input
  (line.result, { bench with input, transcript := bench.transcript.push (.echo line.written) })

instance [VectorOps σ] : VectorOps (Bench σ) where
  issue opcode funct3 funct7 a b := lift (VectorOps.issue opcode funct3 funct7 a b)
  vectorVector funct3 funct7 vs1 vs2 vd := lift (VectorOps.vectorVector funct3 funct7 vs1 vs2 vd)
  vregs bench := VectorOps.vregs bench.machine
  setVregs vregs bench := { bench with machine := VectorOps.setVregs vregs bench.machine }

instance [Clocked σ] : Clocked (Bench σ) where
  clock bench := Clocked.clock bench.machine
  advance cycles bench := { bench with machine := Clocked.advance cycles bench.machine }

end Bench

/-- Does something for every item in order, up to the first fault. -/
def forEach {σ α : Type} (action : α → σ → Except Fault Unit × σ) :
    List α → σ → Except Fault Unit × σ
  | [], state => (.ok (), state)
  | item :: items, state =>
      match action item state with
      | (.error fault, state) => (.error fault, state)
      | (.ok (), state) => forEach action items state

/-- The fixed operand pairs: a sweep of first operands, each with its low half inverted as the
second one. -/
def fixedInputs : List (Word × Word) :=
  (StepRange.ofBounds 0 0x50505 0x8103).toList.map fun a => (a, a ^^^ 0xffff)

/-- Scalar arithmetic for the eight operation codes; other codes count as the last one. -/
def scalarReference (funct3 a b : Word) : Word :=
  match funct3.toNat with
  | 0 => a + b
  | 1 => a - b
  | 2 => a &&& b
  | 3 => a ||| b
  | 4 => a ^^^ b
  | 5 => if a ≤ b then a else b
  | 6 => if a ≤ b then b else a
  | _ => a * b

structure FirstThree where
  op0 : Word
  op1 : Word
  op2 : Word
deriving DecidableEq, Repr

def firstThree {σ : Type} [VectorOps σ] (operands : Word × Word) (state : σ) :
    Except Fault FirstThree × σ :=
  let (a, b) := operands
  match VectorOps.scalarOp 0 0 a b state with
  | (.error fault, state) => (.error fault, state)
  | (.ok op0, state) =>
      match VectorOps.scalarOp 1 0 a b state with
      | (.error fault, state) => (.error fault, state)
      | (.ok op1, state) =>
          match VectorOps.scalarOp 2 0 a b state with
          | (.error fault, state) => (.error fault, state)
          | (.ok op2, state) => (.ok { op0, op1, op2 }, state)

def operandsText (operands : Word × Word) : String :=
  Hex.marked operands.1 ++ ", " ++ Hex.marked operands.2

end VectorBench
