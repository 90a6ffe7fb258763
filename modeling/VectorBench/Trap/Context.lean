import VectorBench.XRegFile

/-!
# Trap contexts

The registers and the program counter of interrupted code.  The slot of `x0` is kept like any
other, but it reads as zero, is never written, and is dropped when the context is restored.
-/

namespace VectorBench

structure TrapContext where
  regs : Vector Word 32
  pc : Word
deriving DecidableEq

namespace TrapContext

def zeroed (pc : Word) : TrapContext where
  regs := Vector.replicate 32 0
  pc := pc

def capture (file : XRegFile) (pc : Word) : TrapContext where
  regs := file.regs
  pc := pc

def restored (context : TrapContext) : XRegFile :=
  XRegFile.ofSnapshot context.regs

/-- The word of a register; `x0` is zero. -/
def get (context : TrapContext) (register : XReg) : Word :=
  if register = 0 then 0 else getElem context.regs register.toNat register.isLt

/-- The saved word of a register, also that of `x0`. -/
def saved (context : TrapContext) (register : XReg) : Word :=
  getElem context.regs register.toNat register.isLt

def set (context : TrapContext) (register : XReg) (value : Word) : TrapContext :=
  if register = 0 then context
  else { context with regs := context.regs.set register.toNat value register.isLt }

def read (context : TrapContext) (number : Word) : Except Fault Word :=
  (registerOfNumber number).map context.get

def write (context : TrapContext) (number value : Word) : Except Fault TrapContext :=
  (registerOfNumber number).map fun register => context.set register value

/-- Overwrites a saved word, that of `x0` too. -/
def overwrite (context : TrapContext) (register : XReg) (value : Word) : TrapContext :=
  { context with regs := context.regs.set register.toNat value register.isLt }

def advancePc (context : TrapContext) : TrapContext :=
  { context with pc := context.pc + instructionBytes }

theorem get_capture (file : XRegFile) (pc : Word) (register : XReg) :
    (capture file pc).get register = file.get register := by
  unfold get
  split
  case isTrue zero => rw [zero, XRegFile.get_zero]
  case isFalse => rfl

theorem restored_capture (file : XRegFile) (pc : Word) : (capture file pc).restored = file := by
  obtain ⟨regs, zero_eq⟩ := file
  simp only [restored, capture, XRegFile.ofSnapshot, XRegFile.mk.injEq]
  apply Vector.ext
  intro place inside
  by_cases first : place = 0
  · subst first
    simp [zero_eq]
  · exact Vector.getElem_set_ne _ _ (Ne.symm first)

theorem get_set_same {register : XReg} (context : TrapContext) (value : Word)
    (nonzero : register ≠ 0) : (context.set register value).get register = value := by
  rw [set, if_neg nonzero, get, if_neg nonzero]
  exact Vector.getElem_set_self _

theorem get_set_of_ne {left right : XReg} (context : TrapContext) (value : Word)
    (distinct : left ≠ right) : (context.set left value).get right = context.get right := by
  have apart : left.toNat ≠ right.toNat := fun same => distinct (BitVec.eq_of_toNat_eq same)
  unfold set
  split
  · rfl
  · simp [get, Vector.getElem_set_ne, apart]

end TrapContext

end VectorBench
