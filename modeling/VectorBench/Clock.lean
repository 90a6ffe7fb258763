/-!
# Cycle clock

A clock counts cycles and stops at the largest 64-bit count.  A span is what a clock shows before
and after some work.
-/

namespace VectorBench

def maxCycles : Nat := 0xffffffffffffffff

/-- A cycle counter that saturates. -/
structure Clock where
  now : Nat
  now_le : now ≤ maxCycles
deriving DecidableEq

namespace Clock

def zero : Clock where
  now := 0
  now_le := Nat.zero_le _

def advance (clock : Clock) (cycles : Nat) : Clock where
  now := min maxCycles (clock.now + cycles)
  now_le := Nat.min_le_left _ _

theorem now_le_advance (clock : Clock) (cycles : Nat) :
    clock.now ≤ (clock.advance cycles).now := by
  have bound := clock.now_le
  simp only [advance]
  omega

theorem now_advance_le {first second : Nat} (clock : Clock) (fewer : first ≤ second) :
    (clock.advance first).now ≤ (clock.advance second).now := by
  simp only [advance]
  omega

theorem advance_zero (clock : Clock) : clock.advance 0 = clock := by
  have bound := clock.now_le
  obtain ⟨now, now_le⟩ := clock
  simp only [advance, Clock.mk.injEq]
  omega

theorem advance_advance (clock : Clock) (first second : Nat) :
    (clock.advance first).advance second = clock.advance (first + second) := by
  simp only [advance, Clock.mk.injEq]
  omega

end Clock

class Clocked (σ : Type) where
  clock : σ → Clock
  advance : Nat → σ → σ

instance : Clocked Clock where
  clock := id
  advance cycles clock := clock.advance cycles

structure CycleSpan where
  start : Nat
  stop : Nat
deriving DecidableEq, Repr

namespace CycleSpan

/-- Cycles between the two readings, zero if the second is the smaller. -/
def elapsed (span : CycleSpan) : Nat :=
  span.stop - span.start

/-- Runs `work` on a state and reads the clock before and after it. -/
def measure {σ α : Type} [Clocked σ] (work : σ → α × σ) (state : σ) : (α × CycleSpan) × σ :=
  let start := (Clocked.clock state).now
  let (result, state) := work state
  ((result, { start := start, stop := (Clocked.clock state).now }), state)

end CycleSpan

end VectorBench
