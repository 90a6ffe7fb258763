import VectorBench.Word

/-!
# Interrupt controller

Thirty-two interrupt lines, each with a pending bit, a mask bit and room for a handler.  Handlers
are called in ascending line order; the controller remembers the calls it made.
-/

namespace VectorBench

abbrev InterruptLine := Fin 32

/-- The line of an interrupt number; numbers count modulo 32. -/
def InterruptLine.ofNumber (number : Nat) : InterruptLine :=
  Fin.ofNat 32 number

def InterruptLine.bit (line : InterruptLine) : Word :=
  BitVec.twoPow 32 line

structure HandlerCall (H : Type) where
  handler : H
  line : InterruptLine
deriving DecidableEq, Repr

structure InterruptController (H : Type) where
  /-- Lines that were raised and not acknowledged. -/
  pending : Word
  mask : Word
  handlers : Vector (Option H) 32
  calls : List (HandlerCall H)

namespace InterruptController

variable {H : Type}

def initial : InterruptController H where
  pending := 0
  mask := 0
  handlers := Vector.replicate 32 none
  calls := []

/-- Gives a line a handler and enables it. -/
def register (controller : InterruptController H) (number : Nat) (handler : H) :
    InterruptController H :=
  let line := InterruptLine.ofNumber number
  { controller with
    handlers := controller.handlers.set line (some handler)
    mask := controller.mask ||| line.bit }

def unregister (controller : InterruptController H) (number : Nat) : InterruptController H :=
  let line := InterruptLine.ofNumber number
  { controller with
    handlers := controller.handlers.set line none
    mask := controller.mask &&& ~~~line.bit }

def raise (controller : InterruptController H) (number : Nat) : InterruptController H :=
  { controller with pending := controller.pending ||| (InterruptLine.ofNumber number).bit }

def acknowledge (controller : InterruptController H) (lines : Word) : InterruptController H :=
  { controller with pending := controller.pending &&& ~~~lines }

def setMask (controller : InterruptController H) (mask : Word) : InterruptController H :=
  { controller with mask }

def firing (controller : InterruptController H) : Word :=
  controller.pending &&& controller.mask

def callOf? (controller : InterruptController H) (line : InterruptLine) : Option (HandlerCall H) :=
  if controller.firing.getLsbD line then
    controller.handlers[line].map fun handler => { handler, line }
  else none

/-- The handler calls that are due, in ascending line order. -/
def dueCalls (controller : InterruptController H) : List (HandlerCall H) :=
  (List.finRange 32).filterMap controller.callOf?

/-- Calls the handlers of the firing lines and returns the lines that had one.  The lines stay
pending. -/
def service (controller : InterruptController H) : Word × InterruptController H :=
  let due := controller.dueCalls
  (due.foldl (fun lines call => lines ||| call.line.bit) 0,
    { controller with calls := controller.calls ++ due })

theorem getLsbD_pending_raise (controller : InterruptController H) (number place : Nat) :
    (controller.raise number).pending.getLsbD place =
      (controller.pending.getLsbD place || decide (place = number % 32)) := by
  simp only [raise, InterruptLine.bit, InterruptLine.ofNumber, BitVec.getLsbD_or,
    BitVec.getLsbD_twoPow, Fin.val_ofNat]
  have below := Nat.mod_lt number (by decide : 0 < 32)
  simp [below, eq_comm]

theorem getLsbD_pending_acknowledge (controller : InterruptController H) (lines : Word)
    (line : InterruptLine) :
    (controller.acknowledge lines).pending.getLsbD line =
      (controller.pending.getLsbD line && !lines.getLsbD line) := by
  simp [acknowledge, line.isLt]

end InterruptController

end VectorBench
