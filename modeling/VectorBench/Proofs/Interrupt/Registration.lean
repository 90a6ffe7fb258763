import Mathlib.Data.List.Induction
import VectorBench.Proofs.Interrupt.Service

/-!
# Handlers and the mask

As long as the mask is not set from outside, a line is enabled exactly while it
has a handler, and that is the one it was given last.  Serving goes through the
lines one after the other, whatever is pending, enabled and handled, and calls
the handler of each line that fires.
-/

namespace VectorBench

variable {H : Type}

/-- What is done to the lines of a controller, apart from setting its mask. -/
inductive LineOperation (H : Type) where
  | register (number : Nat) (handler : H)
  | unregister (number : Nat)
  | raise (number : Nat)
  | acknowledge (lines : Word)
  | service

namespace LineOperation

variable {operation : LineOperation H} {operations : List (LineOperation H)}
  {line : InterruptLine} {handler : H}

def perform (controller : InterruptController H) :
    LineOperation H → InterruptController H
  | .register number handler => controller.register number handler
  | .unregister number => controller.unregister number
  | .raise number => controller.raise number
  | .acknowledge lines => controller.acknowledge lines
  | .service => controller.service.2

def performAll (controller : InterruptController H)
    (operations : List (LineOperation H)) : InterruptController H :=
  operations.foldl perform controller

/-- What an operation puts in the place of a line's handler, if it puts
anything there. -/
def assignment? (line : InterruptLine) : LineOperation H → Option (Option H)
  | .register number handler =>
      if number % 32 = line.val then some (some handler) else none
  | .unregister number => if number % 32 = line.val then some none else none
  | .raise _ | .acknowledge _ | .service => none

/-- A line was given a handler, and since then it was given no other one and
the handler was not taken away. -/
def LastGiven (operations : List (LineOperation H)) (line : InterruptLine)
    (handler : H) : Prop :=
  ∃ earlier number later,
    operations = earlier ++ .register number handler :: later ∧
    number % 32 = line.val ∧
    ∀ operation ∈ later, operation.assignment? line = none

theorem assignment?_eq_some_iff :
    operation.assignment? line = some (some handler) ↔
      ∃ number, operation = .register number handler ∧
        number % 32 = line.val := by
  cases operation with
  | register number other =>
      simp only [assignment?, Option.ite_none_right_eq_some, Option.some.injEq,
        register.injEq]
      constructor
      · rintro ⟨same, rfl⟩
        exact ⟨number, ⟨rfl, rfl⟩, same⟩
      · rintro ⟨_, ⟨rfl, rfl⟩, same⟩
        exact ⟨same, rfl⟩
  | unregister number => simp [assignment?]
  | raise _ | acknowledge _ | service => simp [assignment?]

theorem not_lastGiven_nil : ¬ LastGiven [] line handler := by
  rintro ⟨earlier, number, later, split, -⟩
  simp at split

/-- One more operation gives a line its handler, or leaves it the one it has. -/
theorem lastGiven_concat_iff :
    LastGiven (operations ++ [operation]) line handler ↔
      operation.assignment? line = some (some handler) ∨
        operation.assignment? line = none ∧
          LastGiven operations line handler := by
  rw [assignment?_eq_some_iff]
  constructor
  · rintro ⟨earlier, number, later, split, same, unchanged⟩
    -- The new operation is the registration itself or comes after it.
    rcases List.eq_nil_or_concat later with rfl | ⟨before, last, rfl⟩
    · obtain ⟨-, rfl⟩ := List.append_singleton_inj.mp split
      exact .inl ⟨number, rfl, same⟩
    · rw [List.concat_eq_append, ← List.cons_append, ← List.append_assoc] at split
      obtain ⟨rfl, rfl⟩ := List.append_singleton_inj.mp split
      rw [List.concat_eq_append] at unchanged
      refine .inr ⟨unchanged operation (by simp), earlier, number, before, rfl,
        same, fun other member => unchanged other ?_⟩
      exact List.mem_append_left _ member
  · rintro (⟨number, rfl, same⟩ |
      ⟨kept, earlier, number, later, rfl, same, unchanged⟩)
    · exact ⟨operations, number, [], rfl, same, by simp⟩
    · refine ⟨earlier, number, later ++ [operation], by simp, same, ?_⟩
      intro other member
      rcases List.mem_append.mp member with before | last
      · exact unchanged other before
      · rw [List.mem_singleton.mp last]
        exact kept

end LineOperation

namespace InterruptController

variable {controller : InterruptController H}

/-! ### Registration -/

/-- A line is enabled exactly while it has a handler. -/
def InStep (controller : InterruptController H) : Prop :=
  ∀ line : InterruptLine,
    controller.mask.getLsbD line = (controller.handlers.get line).isSome

theorem getLsbD_bit_ofNumber (number : Nat) (line : InterruptLine) :
    (InterruptLine.ofNumber number).bit.getLsbD line =
      decide (number % 32 = line.val) := by
  simp [InterruptLine.bit, InterruptLine.ofNumber, eq_comm]

theorem get_set_ofNumber (handlers : Vector (Option H) 32) (number : Nat)
    (given : Option H) (line : InterruptLine) :
    (handlers.set (InterruptLine.ofNumber number).val given
        (InterruptLine.ofNumber number).isLt).get line =
      if number % 32 = line.val then given else handlers.get line :=
  Vector.getElem_set _ line.isLt

theorem handlers_perform (operation : LineOperation H) (line : InterruptLine) :
    (operation.perform controller).handlers.get line =
      (operation.assignment? line).getD (controller.handlers.get line) := by
  cases operation with
  | register number handler =>
      simp only [LineOperation.perform, register, LineOperation.assignment?,
        get_set_ofNumber]
      split <;> rfl
  | unregister number =>
      simp only [LineOperation.perform, unregister, LineOperation.assignment?,
        get_set_ofNumber]
      split <;> rfl
  | raise _ | acknowledge _ | service => rfl

theorem getLsbD_mask_perform (operation : LineOperation H)
    (line : InterruptLine) :
    (operation.perform controller).mask.getLsbD line =
      ((operation.assignment? line).map Option.isSome).getD
        (controller.mask.getLsbD line) := by
  cases operation with
  | register number handler =>
      simp only [LineOperation.perform, register, LineOperation.assignment?,
        BitVec.getLsbD_or, getLsbD_bit_ofNumber]
      split <;> simp [*]
  | unregister number =>
      simp only [LineOperation.perform, unregister, LineOperation.assignment?,
        BitVec.getLsbD_and, BitVec.getLsbD_not, getLsbD_bit_ofNumber, line.isLt,
        decide_true, Bool.true_and]
      split <;> simp [*]
  | raise _ | acknowledge _ | service => rfl

theorem InStep.perform (inStep : controller.InStep)
    (operation : LineOperation H) : (operation.perform controller).InStep := by
  intro line
  rw [getLsbD_mask_perform, handlers_perform, inStep line]
  cases operation.assignment? line <;> rfl

theorem get_handlers_initial (line : InterruptLine) :
    (initial : InterruptController H).handlers.get line = none :=
  Vector.getElem_replicate line.isLt

theorem inStep_initial : (initial : InterruptController H).InStep := by
  intro line
  rw [get_handlers_initial]
  exact BitVec.getLsbD_zero

theorem performAll_concat (operations : List (LineOperation H))
    (operation : LineOperation H) :
    LineOperation.performAll controller (operations ++ [operation]) =
      operation.perform (LineOperation.performAll controller operations) :=
  List.foldl_concat _ _ _ _

theorem inStep_performAll (inStep : controller.InStep)
    (operations : List (LineOperation H)) :
    (LineOperation.performAll controller operations).InStep := by
  induction operations using List.reverseRecOn with
  | nil => exact inStep
  | append_singleton operations operation ih =>
      rw [performAll_concat]
      exact ih.perform operation

theorem handlers_performAll_iff (operations : List (LineOperation H))
    (line : InterruptLine) (handler : H) :
    (LineOperation.performAll initial operations).handlers.get line =
        some handler ↔
      LineOperation.LastGiven operations line handler := by
  induction operations using List.reverseRecOn with
  | nil =>
      simp [LineOperation.performAll, get_handlers_initial,
        LineOperation.not_lastGiven_nil]
  | append_singleton operations operation ih =>
      rw [performAll_concat, handlers_perform,
        LineOperation.lastGiven_concat_iff, ← ih]
      cases operation.assignment? line <;> simp

/-! ### Service -/

/-- One turn of the loop over the lines: the lines served so far, and the
controller after the handler calls so far. -/
def serveTurn (firing : Word) (progress : Word × InterruptController H)
    (line : InterruptLine) : Word × InterruptController H :=
  let (served, controller) := progress
  if firing &&& line.bit = 0 then (served, controller)
  else
    match controller.handlers.get line with
    | some handler =>
        (served ||| line.bit,
          { controller with calls := controller.calls ++ [{ handler, line }] })
    | none => (served, controller)

/-- Serves the lines one after the other, those that fired at the start. -/
def serveInTurn (controller : InterruptController H) :
    Word × InterruptController H :=
  (List.finRange 32).foldl (serveTurn controller.firing) (0, controller)

/-- What a service did: the handler calls it made, the lines it returned, and
the controller it left. -/
structure Served (before : InterruptController H) (made : List (HandlerCall H))
    (lines : Word) (after : InterruptController H) : Prop where
  due : ∀ call, call ∈ made ↔ before.Due call
  ascending : made.Pairwise fun earlier later => earlier.line < later.line
  lines : ∀ line : InterruptLine,
    lines.getLsbD line = true ↔ ∃ call ∈ made, call.line = line
  kept : after = { before with calls := before.calls ++ made }

theorem and_bit_eq_zero_iff (lines : Word) (line : InterruptLine) :
    lines &&& line.bit = 0 ↔ lines.getLsbD line = false := by
  rw [InterruptLine.bit, BitVec.and_twoPow]
  cases lines.getLsbD line with
  | false => simp
  | true =>
      simp only [if_true, Bool.true_eq_false, iff_false]
      intro zero
      have unset := congrArg (BitVec.getLsbD · line.val) zero
      simp [line.isLt] at unset

/-- A turn makes the call that its line is due, if it is due one. -/
theorem serveTurn_eq (served : Word) (calls : List (HandlerCall H))
    (line : InterruptLine) :
    serveTurn controller.firing (served, { controller with calls }) line =
      ((controller.callOf? line).toList.foldl
          (fun lines call => lines ||| call.line.bit) served,
        { controller with
          calls := calls ++ (controller.callOf? line).toList }) := by
  have called : controller.callOf? line =
      if controller.firing.getLsbD line then
        (controller.handlers.get line).map fun handler => { handler, line }
      else none := rfl
  -- The loop tests the bit of the line, the call is due by its position.
  simp only [serveTurn, called, and_bit_eq_zero_iff]
  cases fires : controller.firing.getLsbD line with
  | false => simp
  | true =>
      cases controller.handlers.get line <;> simp

theorem foldl_serveTurn (lines : List InterruptLine) (served : Word)
    (calls : List (HandlerCall H)) :
    lines.foldl (serveTurn controller.firing)
        (served, { controller with calls }) =
      ((lines.filterMap controller.callOf?).foldl
          (fun lines call => lines ||| call.line.bit) served,
        { controller with
          calls := calls ++ lines.filterMap controller.callOf? }) := by
  induction lines generalizing served calls with
  | nil => simp
  | cons line lines ih =>
      rw [List.foldl_cons, serveTurn_eq, ih, List.filterMap_cons]
      cases controller.callOf? line <;> simp

theorem serveInTurn_eq_service (controller : InterruptController H) :
    controller.serveInTurn = controller.service :=
  foldl_serveTurn (List.finRange 32) 0 controller.calls

theorem served_service (controller : InterruptController H) :
    controller.Served controller.dueCalls controller.service.1
      controller.service.2 where
  due _ := mem_dueCalls
  ascending := dueCalls_ascending controller
  lines := getLsbD_service controller
  kept := rfl

/-- Registration keeps the mask and the handlers in step through any operations
on a fresh controller.  Serving any controller at all goes through its lines and
makes exactly the calls that are due. -/
theorem registration_in_step :
    (∀ (operations : List (LineOperation H)) (line : InterruptLine),
      let controller := LineOperation.performAll initial operations
      (controller.mask.getLsbD line = true ↔
        ∃ handler, LineOperation.LastGiven operations line handler) ∧
      ∀ handler, controller.handlers.get line = some handler ↔
        LineOperation.LastGiven operations line handler) ∧
    ∀ controller : InterruptController H,
      controller.serveInTurn = controller.service ∧
      ∃ made, controller.Served made controller.service.1
        controller.service.2 := by
  refine ⟨fun operations line => ⟨?enabled, ?handled⟩,
    fun controller => ⟨serveInTurn_eq_service controller,
      controller.dueCalls, served_service controller⟩⟩
  case enabled =>
    rw [inStep_performAll inStep_initial operations line,
      Option.isSome_iff_exists]
    exact exists_congr (handlers_performAll_iff operations line)
  case handled => exact handlers_performAll_iff operations line

end InterruptController

end VectorBench
