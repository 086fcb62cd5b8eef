/-!
# The register map

Registers are 32 bits wide and are named by their byte offset from the start of
the controller's window. There are three groups: the *sideband*, through which
the latches inside the fuse macro are written; the *user* interface, which reads
one byte or halfword per cycle; and the *sequencer*, which reads whole words.
The first two share one status register.

Most control registers take *masked bits*: the upper half of the written value
says which bits of the lower half the write may change, so a driver changes a
bit without first reading its neighbours (`maskedBits`).

The fuse macro checks and corrects the words it reads, or hands them out as they
are, as a latch inside it says. The latch is written through the sideband before
the first read cycle of a transaction (`EccLatch`).
-/

namespace FuseBank.Register

/-- The value that writes `value` to the bits that `mask` selects. -/
def maskedBits (mask value : UInt16) : UInt32 :=
  (mask.toUInt32 <<< 16) ||| value.toUInt32

/-- The status register that the sideband and the user interface share. Its bits
are cleared by writing ones. -/
def status : Nat := 0x304

/-- The sideband has carried out its command. -/
def sidebandDone : UInt32 := 2

/-- The user interface has completed a read cycle. -/
def cycleDone : UInt32 := 4

/-! ### The sideband -/

namespace Sideband

/-- Selects the target of a command and starts the engine. -/
def control : Nat := 0x20

/-- How many command words are valid. -/
def commandValid : Nat := 0x24

/-- Whether the chip select is valid. -/
def selectValid : Nat := 0x28

/-- The status of the engine itself. -/
def engineStatus : Nat := 0x2c

/-- The first command word: what to do. -/
def command : Nat := 0x1000

/-- The second command word: with which value. -/
def operand : Nat := 0x1004

/-- Aims the engine at the latches of the fuse macro, its device number 2. -/
def targetLatches : UInt32 := maskedBits 0xff00 0x0200

/-- Starts the engine. -/
def start : UInt32 := maskedBits 1 1

/-- One pair of command words is valid. -/
def onePair : UInt32 := maskedBits 0xffff 1

/-- The opcode that writes a latch. -/
def writeLatch : UInt32 := 0xc0

/-- The number of the ECC latch. -/
def eccLatch : UInt32 := 0x3a

/-- The latch value under which words are checked and corrected. -/
def latchChecked : UInt32 := 0x00

/-- The latch value under which words come as they are. -/
def latchBypassed : UInt32 := 0x09

end Sideband

/-! ### The user interface -/

namespace User

/-- Takes the fuse macro for reading, and hands it back. -/
def control : Nat := 0x100

/-- The word address of the next cycle. -/
def address : Nat := 0x104

/-- Starts a cycle. -/
def trigger : Nat := 0x108

/-- What the ECC saw in the word read last. -/
def quality : Nat := 0x120

/-- The word read last. -/
def data : Nat := 0x124

/-- Takes the fuse macro. -/
def take : UInt32 := maskedBits 1 1

/-- Hands the fuse macro back. -/
def release : UInt32 := maskedBits 1 0

/-- Selects the whole address field. -/
def addressMask : UInt32 := 0xffff0000

/-- Starts the read state machine. -/
def start : UInt32 := maskedBits 1 1

/-- The two flags "corrected" and "uncorrectable", a fault when both are up. -/
def doubleFault : UInt32 := 0xc0

/-- The flag that alone is a fault. -/
def uncorrectable : UInt32 := 0x20

/-- Whether a quality value says that its word must not be used. -/
def isFault (quality : UInt32) : Bool :=
  quality &&& doubleFault == doubleFault || quality &&& uncorrectable != 0

/-- The window that holds the sideband and the user interface: up to and with
`Sideband.operand`, the highest register of the two. -/
def windowLength : Nat := Sideband.operand + 4

end User

/-! ### The sequencer -/

namespace Sequencer

/-- The control word of the next sequence. -/
def control : Nat := 0x04

/-- Starts a sequence. -/
def trigger : Nat := 0x08

/-- The first word that a sequence has fetched. -/
def data : Nat := 0x20

/-- The status register of the sequencer. Its bits are cleared by writing ones. -/
def status : Nat := 0x84

/-- Starts a sequence. -/
def start : UInt32 := 1

/-- The sequence is complete. -/
def done : UInt32 := 2

/-- The word address at which the bank begins; the words below belong to the
secure side. -/
def nonSecureBase : UInt32 := 0x300

/-- One more than the highest word address that a control word holds. -/
def addressLimit : UInt32 := 0x10000

/-- How many words a sequence fetches. -/
def burst : UInt32 := 1

/-- The window that holds the sequencer: up to and with its status register. -/
def windowLength : Nat := status + 4

end Sequencer

end FuseBank.Register

namespace FuseBank

/-! ### The ECC latch -/

/-- The two settings of the latch. -/
inductive EccLatch where
  /-- Words are checked and corrected, and the quality register tells of faults. -/
  | checked
  /-- Words come as they are. -/
  | bypassed
  deriving DecidableEq, Repr

namespace EccLatch

/-- The word that sets the latch. -/
def word : EccLatch → UInt32
  | checked => Register.Sideband.latchChecked
  | bypassed => Register.Sideband.latchBypassed

/-- Whether words are checked, as the log writes it. -/
def text : EccLatch → String
  | checked => "true"
  | bypassed => "false"

end EccLatch

end FuseBank
