import Mathlib.Data.List.FinRange
import VectorBench.Interrupt

/-!
# Serving interrupt lines

Serving calls the handler of every line that is pending, enabled and handled,
once each and in ascending order.  When these lines are acknowledged, every
other line stays pending.
-/

namespace VectorBench

namespace InterruptController

variable {H : Type} {controller : InterruptController H}
  {call : HandlerCall H} {line : InterruptLine}

/-- The handler calls that serving has to make. -/
structure Due (controller : InterruptController H) (call : HandlerCall H) :
    Prop where
  pending : controller.pending.getLsbD call.line = true
  enabled : controller.mask.getLsbD call.line = true
  handler : controller.handlers[call.line] = some call.handler

/-- The handler calls `made` served the lines of `before` and left `after`. -/
structure Serves (before after : InterruptController H)
    (made : List (HandlerCall H)) : Prop where
  due : ∀ call, call ∈ made ↔ before.Due call
  ascending : made.Pairwise fun earlier later => earlier.line < later.line
  calls : after.calls = before.calls ++ made
  pending : ∀ line : InterruptLine, after.pending.getLsbD line = true ↔
    before.pending.getLsbD line = true ∧ ∀ call ∈ made, call.line ≠ line
  mask : after.mask = before.mask
  handlers : after.handlers = before.handlers

theorem callOf?_eq_some_iff :
    controller.callOf? line = some call ↔
      call.line = line ∧ controller.Due call := by
  unfold callOf? firing
  rw [BitVec.getLsbD_and]
  constructor
  · intro made
    split at made
    case isFalse => cases made
    case isTrue fires =>
      obtain ⟨handler, registered, made⟩ := Option.map_eq_some_iff.mp made
      subst made
      rw [Bool.and_eq_true] at fires
      exact ⟨rfl, fires.1, fires.2, registered⟩
  · rintro ⟨rfl, pending, enabled, registered⟩
    simp only [pending, enabled, registered, Bool.and_self, if_true,
      Option.map_some]

theorem mem_dueCalls : call ∈ controller.dueCalls ↔ controller.Due call := by
  unfold dueCalls
  simp only [List.mem_filterMap, List.mem_finRange, true_and,
    callOf?_eq_some_iff, exists_eq_left']

theorem dueCalls_ascending (controller : InterruptController H) :
    controller.dueCalls.Pairwise
      fun earlier later => earlier.line < later.line := by
  apply List.pairwise_filterMap.mpr
  apply (List.pairwise_lt_finRange 32).imp
  intro first second before earlier first_eq later second_eq
  obtain ⟨rfl, _⟩ := callOf?_eq_some_iff.mp first_eq
  obtain ⟨rfl, _⟩ := callOf?_eq_some_iff.mp second_eq
  exact before

theorem getLsbD_lines (calls : List (HandlerCall H)) (lines : Word)
    (line : InterruptLine) :
    (calls.foldl (fun lines call => lines ||| call.line.bit) lines).getLsbD
        line = true ↔
      lines.getLsbD line = true ∨ ∃ call ∈ calls, call.line = line := by
  induction calls generalizing lines with
  | nil => simp
  | cons call calls induction =>
      have own : call.line.bit.getLsbD line = true ↔ call.line = line := by
        simp [InterruptLine.bit, line.isLt, Fin.ext_iff, eq_comm]
      rw [List.foldl_cons, induction, BitVec.getLsbD_or, Bool.or_eq_true, own]
      simp only [List.mem_cons, exists_eq_or_imp, or_assoc]

theorem getLsbD_service (controller : InterruptController H)
    (line : InterruptLine) :
    controller.service.1.getLsbD line = true ↔
      ∃ call ∈ controller.dueCalls, call.line = line := by
  have unset : ¬ (0 : Word).getLsbD line = true := by simp
  have lines := getLsbD_lines controller.dueCalls 0 line
  rw [or_iff_right unset] at lines
  exact lines

theorem serves_service (controller : InterruptController H) :
    controller.Serves
      (controller.service.2.acknowledge controller.service.1)
      controller.dueCalls where
  due _ := mem_dueCalls
  ascending := dueCalls_ascending controller
  calls := rfl
  pending line := by
    rw [getLsbD_pending_acknowledge, Bool.and_eq_true, Bool.not_eq_true',
      ← Bool.not_eq_true, getLsbD_service, not_exists]
    simp only [not_and]
    rfl
  mask := rfl
  handlers := rfl

/-- Where no line is pending and enabled, there is nothing to serve. -/
theorem serves_quiet (quiet : controller.firing = 0) :
    controller.Serves controller [] where
  due call := by
    refine ⟨fun member => (List.not_mem_nil member).elim, fun due => ?_⟩
    have fires : controller.firing.getLsbD call.line = true := by
      rw [firing, BitVec.getLsbD_and, due.pending, due.enabled, Bool.and_self]
    rw [quiet] at fires
    simp at fires
  ascending := List.Pairwise.nil
  calls := (List.append_nil _).symm
  pending line := by simp
  mask := rfl
  handlers := rfl

end InterruptController

end VectorBench
