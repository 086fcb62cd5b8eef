import FuseBank.Board

/-!
# Polling a status register

A poll samples a status register until one of the bits that it waits for is set,
and then clears the bits that it waits for by writing them back. Between two samples
it lets its pace go by. When its budget is spent after a sample without such a bit
it gives up and writes nothing.

The time waited is kept in 32 bits and stays at the greatest value once it is
reached. A pace is never zero, so the time waited grows until the budget is spent,
and every poll ends.

## Main statements

* `Poll.waitFrom_eq`: what a poll does after having waited some time, in one step.
-/

namespace FuseBank

/-- The waiting times of a controller. -/
structure Timing where
  /-- The time between two samples of a status register. -/
  pollTick : UInt32 := 1
  /-- How long a poll may wait in all. -/
  pollTimeout : UInt32 := 10000
  /-- How long the reset line is held. -/
  resetHold : UInt32 := 2
  /-- How long the user interface takes to settle. -/
  settle : UInt32 := 5
  deriving DecidableEq, Repr

/-- The sum of two times, held at the greatest value if it does not fit in 32 bits. -/
def saturatingAdd (a b : UInt32) : UInt32 :=
  if a + b < a then 0xffffffff else a + b

/-- Time never runs backwards, and it moves unless it is held. -/
theorem lt_saturatingAdd {a b limit : UInt32} (ha : a < limit) (hb : b ≠ 0) :
    a < saturatingAdd a b := by
  have := limit.toNat_lt
  have := b.toNat_lt
  have : b.toNat ≠ 0 := fun h => hb (UInt32.toNat_inj.1 (by simpa using h))
  unfold saturatingAdd
  split <;> rename_i h <;> rw [UInt32.lt_iff_toNat_lt] at * <;>
    simp only [UInt32.toNat_add, UInt32.reduceToNat] at * <;> omega

/-- A status register, the bits to wait for, and how long. -/
structure Poll where
  /-- The status register. -/
  register : Nat
  /-- The bits, any of which ends the poll. -/
  mask : UInt32
  /-- How many microseconds to wait before giving up. -/
  budget : UInt32
  deriving DecidableEq, Repr

namespace Poll

/-- The time between two samples: the tick, and a microsecond if that is zero. -/
def pace (tick : UInt32) : UInt32 := if tick = 0 then 1 else tick

/-- A pace always lets some time go by. -/
theorem pace_ne_zero (tick : UInt32) : pace tick ≠ 0 := by
  unfold pace
  split
  · decide
  · assumption

/-- Polls on, `waited` microseconds having gone by, and returns whether a bit came up. -/
def waitFrom (p : Poll) (tick waited : UInt32) : Program Bool := do
  let sample ← Bus.read p.register
  if sample &&& p.mask ≠ 0 then
    Bus.write p.register p.mask
    return true
  else if _h : waited < p.budget then
    Bus.delay (pace tick)
    p.waitFrom tick (saturatingAdd waited (pace tick))
  else
    return false
termination_by p.budget.toNat - waited.toNat
decreasing_by
  have := UInt32.lt_iff_toNat_lt.1 (lt_saturatingAdd _h (pace_ne_zero tick))
  have := UInt32.lt_iff_toNat_lt.1 _h
  omega

/-- Polls until a bit comes up or the budget is spent, and returns whether a bit came
up. -/
def wait (p : Poll) (tick : UInt32) : Program Bool := p.waitFrom tick 0

/-- Polls, and says `complaint` when the budget is spent. -/
def await (p : Poll) (tick : UInt32) (complaint : Message) : Program Bool := do
  if ← p.wait tick then
    return true
  else
    Bus.log complaint
    return false

/-- After a sample a poll is over with the bits cleared, or lets time go by and polls
on, or gives up. -/
theorem waitFrom_eq (p : Poll) (tick waited : UInt32) :
    p.waitFrom tick waited = .act (.read p.register) fun sample =>
      if sample &&& p.mask ≠ 0 then
        .act (.write p.register p.mask) fun _ => .done true
      else if waited < p.budget then
        .act (.delay (pace tick)) fun _ => p.waitFrom tick (saturatingAdd waited (pace tick))
      else .done false := by
  rw [waitFrom]
  rfl

end Poll

end FuseBank
