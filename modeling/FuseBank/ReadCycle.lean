import FuseBank.ControlWord
import FuseBank.Failure
import FuseBank.Generation
import FuseBank.Poll

/-!
# Read cycles

One cycle fetches one word: its address is written, the cycle is started, the done
bit is awaited, and the word is read from the data register. The words of a request
are fetched one after another until one of them fails.
-/

namespace FuseBank

open Register

/-- The bit that the user interface raises when a cycle is complete. -/
def Timing.userPoll (t : Timing) : Poll := ⟨status, cycleDone, t.pollTimeout⟩

/-- The bit that the sequencer raises when a sequence is complete. -/
def Timing.sequencerPoll (t : Timing) : Poll :=
  ⟨Sequencer.status, Sequencer.done, t.pollTimeout⟩

/-- Runs one cycle of the user interface, and returns whether it was complete in time.
The address register holds 16 bits, so the upper half of an address is lost. -/
def userCycle (t : Timing) (address : UInt32) : Program Bool := do
  Bus.write User.address (address ||| User.addressMask)
  Bus.write User.trigger User.start
  t.userPoll.await t.pollTick .cycleTimeout

/-- Runs one sequence of the sequencer, and returns whether it was complete in time. -/
def sequencerCycle (t : Timing) (address : UInt16) : Program Bool := do
  Bus.write Sequencer.control (ControlWord.fetchAt address).bits
  Bus.write Sequencer.trigger Sequencer.start
  t.sequencerPoll.await t.pollTick .cycleTimeout

/-- Fetches the word at `address` of the bank, or returns what went wrong. -/
def Generation.fetch (g : Generation) (t : Timing) (address : UInt32) :
    Program (Except Failure UInt32) :=
  match g with
  | one => do
    if ← userCycle t address then
      let byte ← Bus.readLane User.data
      return .ok byte.toUInt32
    else
      return .error .pollTimeout
  | two => do
    if ← userCycle t address then
      let quality ← Bus.read User.quality
      if User.isFault quality then
        Bus.log .integrityFault
        return .error .integrityFault
      else
        let word ← Bus.read User.data
        return .ok word
    else
      return .error .pollTimeout
  | three =>
    let address := address + Sequencer.nonSecureBase
    if address < Sequencer.addressLimit then do
      if ← sequencerCycle t address.toUInt16 then
        let word ← Bus.read Sequencer.data
        return .ok word
      else
        return .error .pollTimeout
    else
      return .error .outOfRange

/-- What a row of read cycles has brought in. -/
structure Harvest where
  /-- The words that were fetched, in order. -/
  words : List UInt32
  /-- What ended the row early, if anything did. -/
  failure : Option Failure
  deriving DecidableEq, Repr

/-- Fetches one word after another, and stops at the first that fails; `fetched` are
the words so far, the latest first. -/
def gather (fetch : UInt32 → Program (Except Failure UInt32)) (fetched : List UInt32) :
    List UInt32 → Program Harvest
  | [] => return ⟨fetched.reverse, none⟩
  | address :: rest => do
    match ← fetch address with
    | .ok word => gather fetch (word :: fetched) rest
    | .error failure => return ⟨fetched.reverse, some failure⟩

end FuseBank
