import VectorBench.Word

/-!
# Trap causes

What a core reports about a trap: a cause word, whose top bit marks an interrupt, and a value word,
which holds the faulting instruction of an illegal instruction trap.
-/

namespace VectorBench

inductive TrapCause where
  | instructionAddressMisaligned
  | instructionAccessFault
  | illegalInstruction
  | breakpoint
  | loadAddressMisaligned
  | loadAccessFault
  | storeAddressMisaligned
  | storeAccessFault
  | environmentCallFromUser
  | environmentCallFromMachine
deriving DecidableEq, Repr

namespace TrapCause

def all : List TrapCause :=
  [.instructionAddressMisaligned, .instructionAccessFault, .illegalInstruction, .breakpoint,
    .loadAddressMisaligned, .loadAccessFault, .storeAddressMisaligned, .storeAccessFault,
    .environmentCallFromUser, .environmentCallFromMachine]

def code : TrapCause → Word
  | .instructionAddressMisaligned => 0
  | .instructionAccessFault => 1
  | .illegalInstruction => 2
  | .breakpoint => 3
  | .loadAddressMisaligned => 4
  | .loadAccessFault => 5
  | .storeAddressMisaligned => 6
  | .storeAccessFault => 7
  | .environmentCallFromUser => 8
  | .environmentCallFromMachine => 11

def ofCode? (code : Word) : Option TrapCause :=
  all.find? (·.code = code)

def name : TrapCause → String
  | .instructionAddressMisaligned => "InstrAddrMisaligned"
  | .instructionAccessFault => "InstrAccessFault"
  | .illegalInstruction => "IllegalInstr"
  | .breakpoint => "Breakpoint"
  | .loadAddressMisaligned => "LoadAddrMisaligned"
  | .loadAccessFault => "LoadAccessFault"
  | .storeAddressMisaligned => "StoreAddrMisaligned"
  | .storeAccessFault => "StoreAccessFault"
  | .environmentCallFromUser => "EnvironmentCallUser"
  | .environmentCallFromMachine => "EnvironmentCallMachine"

end TrapCause

structure TrapInfo where
  mcause : Word
  mtval : Word
deriving DecidableEq, Repr

namespace TrapInfo

def interruptBit : Word := BitVec.twoPow 32 31

def illegalInstruction (word : Word) : TrapInfo where
  mcause := TrapCause.illegalInstruction.code
  mtval := word

def interrupt (code : BitVec 8) : TrapInfo where
  mcause := interruptBit ||| code.setWidth 32
  mtval := 0

def isInterrupt (info : TrapInfo) : Bool :=
  info.mcause &&& interruptBit ≠ 0

def isIllegalInstruction (info : TrapInfo) : Bool :=
  info.mcause = TrapCause.illegalInstruction.code

/-- The synchronous cause of a trap; interrupts have none. -/
def cause? (info : TrapInfo) : Option TrapCause :=
  if info.isInterrupt then none else TrapCause.ofCode? info.mcause

end TrapInfo

end VectorBench
