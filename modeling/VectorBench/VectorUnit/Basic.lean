import VectorBench.VRegFile

/-!
# Vector configuration

The vector unit works on groups of `LMUL` consecutive registers that hold elements of `SEW` bits.
The vector length never exceeds what such a group can hold.
-/

namespace VectorBench

/-- Registers in a group. -/
inductive Lmul where
  | m1
  | m2
  | m4
  | m8
deriving DecidableEq, Repr

namespace Lmul

def all : List Lmul := [.m1, .m2, .m4, .m8]

def registers : Lmul → Nat
  | .m1 => 1
  | .m2 => 2
  | .m4 => 4
  | .m8 => 8

def ofRegisters? (count : Word) : Option Lmul :=
  all.find? fun lmul => BitVec.ofNat 32 lmul.registers = count

def name : Lmul → String
  | .m1 => "M1"
  | .m2 => "M2"
  | .m4 => "M4"
  | .m8 => "M8"

theorem registers_pos (lmul : Lmul) : 0 < lmul.registers := by
  cases lmul <;> decide

end Lmul

def vlmax (sew : ElementWidth) (lmul : Lmul) : Nat :=
  vectorBits / sew.bits * lmul.registers

theorem vlmax_pos (sew : ElementWidth) (lmul : Lmul) : 0 < vlmax sew lmul := by
  cases sew <;> cases lmul <;> decide

theorem vlmax_le (sew : ElementWidth) (lmul : Lmul) : vlmax sew lmul ≤ vectorBits := by
  cases sew <;> cases lmul <;> decide

structure VectorUnit where
  vregs : VRegFile
  /-- Elements that an operation works on. -/
  vl : Nat
  sew : ElementWidth
  lmul : Lmul
  vl_le : vl ≤ vlmax sew lmul

namespace VectorUnit

def initial : VectorUnit where
  vregs := VRegFile.zeroed
  vl := 0
  sew := .e32
  lmul := .m1
  vl_le := Nat.zero_le _

/-- Selects a width and a group size and sets the vector length to `avl` elements, or to as many as
a group holds.  An unavailable width or group size changes nothing. -/
def vsetvl (unit : VectorUnit) (avl : Nat) (sew : Option ElementWidth) (lmul : Option Lmul) :
    Except Fault Nat × VectorUnit :=
  match sew, lmul with
  | some sew, some lmul =>
      let vl := min avl (vlmax sew lmul)
      (.ok vl, { vregs := unit.vregs, vl, sew, lmul, vl_le := Nat.min_le_right _ _ })
  | _, _ => (.error .invalidVectorConfig, unit)

def startsGroup (unit : VectorUnit) (register : VReg) : Bool :=
  register.toNat % unit.lmul.registers = 0 && register.toNat + unit.lmul.registers ≤ 32

end VectorUnit

inductive ElementType where
  | u8
  | i8
  | u16
  | i16
  | u32
  | i32
deriving DecidableEq, Repr

namespace ElementType

def all : List ElementType := [.u8, .i8, .u16, .i16, .u32, .i32]

def name : ElementType → String
  | .u8 => "u8"
  | .i8 => "i8"
  | .u16 => "u16"
  | .i16 => "i16"
  | .u32 => "u32"
  | .i32 => "i32"

def ofName? (name : String) : Option ElementType :=
  all.find? (·.name = name)

def width : ElementType → ElementWidth
  | .u8 | .i8 => .e8
  | .u16 | .i16 => .e16
  | .u32 | .i32 => .e32

def isSigned : ElementType → Bool
  | .i8 | .i16 | .i32 => true
  | .u8 | .u16 | .u32 => false

/-- The element that an integer stands for, modulo the element width. -/
def ofInt (type : ElementType) (value : Int) : BitVec type.width.bits :=
  BitVec.ofInt type.width.bits value

def toInt (type : ElementType) (element : BitVec type.width.bits) : Int :=
  if type.isSigned then element.toInt else element.toNat

end ElementType

end VectorBench
