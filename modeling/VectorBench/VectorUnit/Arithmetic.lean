import VectorBench.VectorUnit.Basic

/-!
# Vector operations

Operations work on elements `0` up to the vector length, in that order, and each element is written
before the next one is computed.  They check their operands first; what fails a check changes
nothing.
-/

namespace VectorBench

namespace VRegFile

/-- Writes elements from `index` on to the group that starts at a register, and stops at the first
position that lies outside the file. -/
def writeElements (register : VReg) (width : ElementWidth) :
    List Word → (index : Nat) → VRegFile → Except Fault Unit × VRegFile
  | [], _, file => (.ok (), file)
  | element :: elements, index, file =>
      match file.writeElement register width index element with
      | (.ok (), file) => writeElements register width elements (index + 1) file
      | (.error fault, file) => (.error fault, file)

/-- Writes `count` elements from `index` on to the group that starts at a register.  Each is
computed from the file as the earlier ones left it; the first fault stops the rest. -/
@[specialize]
def computeElements (register : VReg) (width : ElementWidth)
    (element : VRegFile → Nat → Except Fault Word) :
    (count index : Nat) → VRegFile → Except Fault Unit × VRegFile
  | 0, _, file => (.ok (), file)
  | count + 1, index, file =>
      match element file index with
      | .ok value =>
          match file.writeElement register width index value with
          | (.ok (), file) => computeElements register width element count (index + 1) file
          | (.error fault, file) => (.error fault, file)
      | .error fault => (.error fault, file)

@[specialize]
def computeMask (register : VReg) (bit : VRegFile → Nat → Except Fault Bool) :
    (count index : Nat) → VRegFile → Except Fault Unit × VRegFile
  | 0, _, file => (.ok (), file)
  | count + 1, index, file =>
      match bit file index with
      | .ok value => computeMask register bit count (index + 1) (file.writeMaskBit register index value)
      | .error fault => (.error fault, file)

/-- Copies the elements of a group, from `index` on, over the places of memory one after the other.
The first fault stops the rest, and leaves the places from there on as they are. -/
def storeElements (file : VRegFile) (register : VReg) (width : ElementWidth) {bits : Nat} :
    List (BitVec bits) → (index : Nat) → Except Fault Unit × List (BitVec bits)
  | [], _ => (.ok (), [])
  | place :: places, index =>
      match file.readElement register width index with
      | .ok element =>
          let (result, stored) := storeElements file register width places (index + 1)
          (result, element.setWidth bits :: stored)
      | .error fault => (.error fault, place :: places)

@[inline]
def combine (file : VRegFile) (width : ElementWidth) (left right : VReg) {α : Type}
    (function : Word → Word → α) (index : Nat) : Except Fault α :=
  match file.readElement left width index with
  | .ok a => (file.readElement right width index).map (function a)
  | .error fault => .error fault

end VRegFile

namespace VectorUnit

/-- Checks that registers start groups and then works on the registers of the unit. -/
def onGroups (unit : VectorUnit) (registers : List VReg)
    (work : VRegFile → Except Fault Unit × VRegFile) : Except Fault Unit × VectorUnit :=
  if registers.all unit.startsGroup then
    let { vregs, vl, sew, lmul, vl_le } := unit
    let (result, vregs) := work vregs
    (result, { vregs, vl, sew, lmul, vl_le })
  else (.error .illegalRegister, unit)

def vle (unit : VectorUnit) (width : ElementWidth) (vd : VReg) (source : List (BitVec width.bits)) :
    Except Fault Unit × VectorUnit :=
  if width ≠ unit.sew then (.error .invalidVectorConfig, unit)
  else
    unit.onGroups [vd] fun vregs =>
      let elements := source.take unit.vl
      if elements.length < unit.vl then (.error .vectorLength, vregs)
      else vregs.writeElements vd unit.sew (elements.map (·.setWidth 32)) 0

def store (unit : VectorUnit) (width : ElementWidth) (vs : VReg)
    (destination : List (BitVec width.bits)) : Except Fault Unit × List (BitVec width.bits) :=
  if width ≠ unit.sew then (.error .invalidVectorConfig, destination)
  else if !unit.startsGroup vs then (.error .illegalRegister, destination)
  else if (destination.take unit.vl).length < unit.vl then (.error .vectorLength, destination)
  else
    let (result, stored) := unit.vregs.storeElements vs unit.sew (destination.take unit.vl) 0
    (result, stored ++ destination.drop unit.vl)

/-- What becomes of the destination when the elements of the group `vs` are stored to memory. -/
def vse (unit : VectorUnit) (width : ElementWidth) (vs : VReg)
    (destination : List (BitVec width.bits)) : Except Fault (List (BitVec width.bits)) :=
  let (result, memory) := unit.store width vs destination
  result.map fun () => memory

def vadd (unit : VectorUnit) (vd vs2 vs1 : VReg) : Except Fault Unit × VectorUnit :=
  unit.onGroups [vd, vs2, vs1]
    (VRegFile.computeElements vd unit.sew
      (fun vregs index => vregs.combine unit.sew vs2 vs1 Word.plus index) unit.vl 0)

/-- Sets element `i` of `vd` to the sum of elements `i` of `vs2` and `vs1` where mask bit `i` is
set, and to element `i` of `maskedoff` elsewhere.  Neither `mask` nor `maskedoff` is checked. -/
def vaddMasked (unit : VectorUnit) (vd mask maskedoff vs2 vs1 : VReg) :
    Except Fault Unit × VectorUnit :=
  unit.onGroups [vd, vs2, vs1]
    (VRegFile.computeElements vd unit.sew
      (fun vregs index =>
        if vregs.readMaskBit mask index then vregs.combine unit.sew vs2 vs1 Word.plus index
        else vregs.readElement maskedoff unit.sew index)
      unit.vl 0)

def vmulScalar (unit : VectorUnit) (vd vs2 : VReg) (x : Word) : Except Fault Unit × VectorUnit :=
  unit.onGroups [vd, vs2]
    (VRegFile.computeElements vd unit.sew
      (fun vregs index => (vregs.readElement vs2 unit.sew index).map (Word.times · x)) unit.vl 0)

def vmoveScalar (unit : VectorUnit) (vd : VReg) (x : Word) : Except Fault Unit × VectorUnit :=
  unit.onGroups [vd]
    (VRegFile.computeElements vd unit.sew (fun _ _ => .ok x) unit.vl 0)

def vid (unit : VectorUnit) (vd : VReg) : Except Fault Unit × VectorUnit :=
  unit.onGroups [vd]
    (VRegFile.computeElements vd unit.sew (fun _ index => .ok (BitVec.ofNat 32 index)) unit.vl 0)

/-- Sets mask bit `i` of `vd` where a predicate holds of elements `i` of `vs2` and `vs1`.  The
destination is a single register and is not checked. -/
def compare (unit : VectorUnit) (vd vs2 vs1 : VReg) (holds : Word → Word → Bool) :
    Except Fault Unit × VectorUnit :=
  unit.onGroups [vs2, vs1]
    (VRegFile.computeMask vd (fun vregs index => vregs.combine unit.sew vs2 vs1 holds index)
      unit.vl 0)

/-- Sets mask bit `i` of `vd` where element `i` of `vs2`, as a signed number, is above element `i`
of `vs1`. -/
def vmsgt (unit : VectorUnit) (vd vs2 vs1 : VReg) : Except Fault Unit × VectorUnit :=
  unit.compare vd vs2 vs1 fun a b =>
    (unit.sew.signExtend b).slt (unit.sew.signExtend a)

def vmseq (unit : VectorUnit) (vd vs2 vs1 : VReg) : Except Fault Unit × VectorUnit :=
  unit.compare vd vs2 vs1 (· == ·)

def vmxor (unit : VectorUnit) (vd vs2 vs1 : VReg) : Except Fault Unit × VectorUnit :=
  unit.onGroups []
    (VRegFile.computeMask vd
      (fun vregs index => .ok (vregs.readMaskBit vs2 index ^^ vregs.readMaskBit vs1 index))
      unit.vl 0)

end VectorUnit

end VectorBench
