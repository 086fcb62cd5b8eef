import FuseBank.Failure
import FuseBank.Poll

/-!
# Before the user interface can be used

The fuse macro is taken through a reset pulse, and then the ECC latch is set through
the sideband. Either can fail, and the first failure ends the transaction.
-/

namespace FuseBank

/-- Asserts the reset line, holds it, and releases it. Returns whether both calls
were carried out; after a refused release the line stays as it is. -/
def resetPulse (hold : UInt32) : Program Bool := do
  if ← Bus.assertReset then
    Bus.delay hold
    if ← Bus.releaseReset then
      return true
    else
      Bus.log .releaseRefused
      return false
  else
    Bus.log .assertRefused
    return false

/-- The bit that the sideband raises when it has carried out its command. -/
def Timing.sidebandPoll (t : Timing) : Poll :=
  ⟨Register.status, Register.sidebandDone, t.pollTimeout⟩

namespace EccLatch

open Register

/-- Sets the latch through the sideband, and returns whether it was set in time. -/
def set (latch : EccLatch) (t : Timing) : Program Bool := do
  Bus.log (.latching latch)
  Bus.write Sideband.control Sideband.targetLatches
  Bus.write Sideband.commandValid Sideband.onePair
  Bus.write Sideband.command (Sideband.writeLatch ||| Sideband.eccLatch)
  Bus.write Sideband.operand latch.word
  Bus.write Sideband.control Sideband.start
  t.sidebandPoll.await t.pollTick .latchTimeout

/-- Readies the user interface for reading with the given setting of the latch, and
returns what went wrong, if anything did. -/
def prepare (latch : EccLatch) (t : Timing) : Program (Option Failure) := do
  if ← resetPulse t.resetHold then
    if ← latch.set t then
      return none
    else
      return some .sidebandTimeout
  else
    Bus.log .resetFailed
    return some .resetFailure

end EccLatch

end FuseBank
