import VectorBench.Register

/-!
# General purpose registers

A file of 32 words in which `x0` is fixed at zero: it reads as zero, and what is written to it is
dropped.
-/

namespace VectorBench

structure XRegFile where
  regs : Vector Word 32
  zero_eq : regs[0] = 0
deriving DecidableEq

namespace XRegFile

def zeroed : XRegFile where
  regs := Vector.replicate 32 0
  zero_eq := by simp

def get (file : XRegFile) (register : XReg) : Word :=
  file.regs[register.toNat]

/-- Replaces the word of a register, except for `x0`. -/
def set (file : XRegFile) (register : XReg) (value : Word) : XRegFile :=
  if zero : register = 0 then file
  else
    { regs := file.regs.set register.toNat value
      zero_eq := by
        have positive : register.toNat ≠ 0 := fun toNat_eq => zero (BitVec.eq_of_toNat_eq toNat_eq)
        rw [Vector.getElem_set_ne _ _ positive]
        exact file.zero_eq }

def read (file : XRegFile) (number : Word) : Except Fault Word :=
  (registerOfNumber number).map file.get

def write (file : XRegFile) (number value : Word) : Except Fault XRegFile :=
  (registerOfNumber number).map fun register => file.set register value

/-- The file that holds a snapshot, with `x0` at zero whatever the snapshot says. -/
def ofSnapshot (snapshot : Vector Word 32) : XRegFile where
  regs := snapshot.set 0 0
  zero_eq := by simp

@[simp]
theorem get_zero (file : XRegFile) : file.get 0 = 0 :=
  file.zero_eq

@[simp]
theorem set_zero (file : XRegFile) (value : Word) : file.set 0 value = file := by
  simp [set]

theorem get_set_same {register : XReg} (file : XRegFile) (value : Word) (nonzero : register ≠ 0) :
    (file.set register value).get register = value := by
  unfold set
  rw [dif_neg nonzero]
  simp [get]

theorem get_set_of_ne {left right : XReg} (file : XRegFile) (value : Word) (distinct : left ≠ right) :
    (file.set left value).get right = file.get right := by
  unfold set
  split
  · rfl
  · have apart : left.toNat ≠ right.toNat := fun same => distinct (BitVec.eq_of_toNat_eq same)
    simp [get, Vector.getElem_set_ne, apart]

end XRegFile

end VectorBench
