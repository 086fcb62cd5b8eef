import FuseBank.Register

/-!
# What is said along the way

A controller says little: one line when it is attached, one when a read begins,
one when the ECC latch is set, and one at whatever goes wrong. Each line is kept
as what it tells; `Message.level` and `Message.text` give its written form.
-/

namespace FuseBank

/-- How grave a message is. -/
inductive Level where
  /-- Of interest to who follows each step. -/
  | trace
  /-- Of interest to who looks for a mistake. -/
  | debug
  /-- A request was turned down. -/
  | warn
  /-- The hardware failed, or the host did. -/
  | error
  deriving DecidableEq, Repr

/-- The name of a level. -/
def Level.name : Level → String
  | trace => "trace"
  | debug => "debug"
  | warn => "warn"
  | error => "error"

/-- A line of the log. -/
inductive Message where
  /-- A controller of a bank of `size` bytes was attached. -/
  | attached (size : UInt32)
  /-- No descriptor goes by the given name. -/
  | unmatched
  /-- A read into a buffer of `len` bytes begins at `offset`. -/
  | reading (len : Nat) (offset : UInt32)
  /-- The request ends beyond the 32-bit address space. -/
  | wraps (len : Nat) (offset : UInt32)
  /-- The request begins at or beyond the end of a bank of `size` bytes. -/
  | beyondSize (offset size : UInt32)
  /-- The request ends where the sequencer's addresses do not reach. -/
  | beyondSequencer (offset : UInt32)
  /-- There is no memory of so many bytes for the words of the request. -/
  | noMemory (bytes : Nat)
  /-- The clocks were refused. -/
  | clocksRefused
  /-- Asserting the reset line was refused. -/
  | assertRefused
  /-- Releasing the reset line was refused. -/
  | releaseRefused
  /-- The reset pulse was not completed. -/
  | resetFailed
  /-- The ECC latch is about to be set. -/
  | latching (latch : EccLatch)
  /-- The sideband did not set the latch in time. -/
  | latchTimeout
  /-- A read cycle did not complete in time. -/
  | cycleTimeout
  /-- A word's quality value is a fault. -/
  | integrityFault
  deriving DecidableEq, Repr

namespace Message

/-- How grave a message is: a request turned down is a warning, a failure of the
hardware or a lack of memory an error. -/
def level : Message → Level
  | attached _ => .debug
  | reading _ _ | latching _ => .trace
  | wraps _ _ | beyondSize _ _ | beyondSequencer _ => .warn
  | unmatched | noMemory _ | clocksRefused | assertRefused | releaseRefused | resetFailed
  | latchTimeout | cycleTimeout | integrityFault => .error

/-- The written form of a message, numbers in decimal. -/
def text : Message → String
  | attached size => "otp: " ++ toString size.toNat ++ " bytes"
  | unmatched => "failed to get match data"
  | reading len offset =>
    "otp: read " ++ toString len ++ " bytes at " ++ toString offset.toNat
  | wraps len offset =>
    "read of " ++ toString len ++ " bytes at " ++ toString offset.toNat ++
      " wraps the address space"
  | beyondSize offset size =>
    "read at " ++ toString offset.toNat ++ " beyond otp size " ++ toString size.toNat
  | beyondSequencer offset =>
    "read at " ++ toString offset.toNat ++ " beyond the sequencer's address range"
  | noMemory bytes => "failed to allocate " ++ toString bytes ++ " byte read buffer"
  | clocksRefused => "failed to prepare/enable clks"
  | assertRefused => "failed to assert otp phy"
  | releaseRefused => "failed to deassert otp phy"
  | resetFailed => "failed to reset otp phy"
  | latching latch => "sbpi: ecc " ++ latch.text
  | latchTimeout => "timeout during ecc_enable"
  | cycleTimeout => "timeout during read setup"
  | integrityFault => "ecc check error during read setup"

end Message

end FuseBank
