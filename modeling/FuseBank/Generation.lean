import FuseBank.Message
import FuseBank.WordRange

/-!
# Generations of controllers

Three generations of controllers read a bank, each in its own way. What differs
between them and takes no more than a word to say is here, and which requests each
accepts; how each reads a word is in `FuseBank.ReadCycle`.

## Planning a read

Before the hardware is touched it is decided whether a request can be served and
which words cover it. The user interface (generations one and two) serves every
request that ends within the 32-bit address space, and does not look at the size of
the bank. The sequencer (generation three) serves a request that begins within the
bank: it shortens it to what the bank holds, and turns it down if a word of it is
beyond the addresses that a control word holds.

## Memory

Generations two and three gather the words of a request in memory that is reserved
for them once they are planned; generation one stores each byte in the caller's buffer
as it comes. How much memory there is depends on the host, so what it grants is a
parameter of a read (`Memory`), to be given unless there is always enough
(`Memory.ample`).
-/

namespace FuseBank

/-- A generation of controllers. -/
inductive Generation where
  /-- Reads bytes through the user interface, with the ECC bypassed. -/
  | one
  /-- Reads halfwords through the user interface, and checks them. -/
  | two
  /-- Reads whole words through the sequencer. -/
  | three
  deriving DecidableEq, Repr

namespace Generation

/-- How many bytes a read cycle fetches. -/
def wordSize : Generation → UInt32
  | one => 1
  | two => 2
  | three => 4

/-- How many bytes of registers a read reaches into. -/
def windowLength : Generation → Nat
  | one | two => Register.User.windowLength
  | three => Register.Sequencer.windowLength

/-- How the ECC latch has to be set before the first read cycle. The sequencer
looks after the latch itself. -/
def latch? : Generation → Option EccLatch
  | one => some .bypassed
  | two => some .checked
  | three => none

end Generation

/-! ### Plans -/

/-- Why a request is turned down. -/
inductive Refusal where
  /-- `len` bytes at `offset` end beyond the address space. -/
  | wraps (len : Nat) (offset : UInt32)
  /-- `offset` is not within a bank of `size` bytes. -/
  | beyondSize (offset size : UInt32)
  /-- The request at `offset` has words that the sequencer cannot address. -/
  | beyondSequencer (offset : UInt32)
  deriving DecidableEq, Repr

/-- What is said when a request is turned down. -/
def Refusal.message : Refusal → Message
  | wraps len offset => .wraps len offset
  | beyondSize offset size => .beyondSize offset size
  | beyondSequencer offset => .beyondSequencer offset

namespace Generation

/-- The words that cover `len` bytes at `offset`, of this generation's size. -/
def cover (g : Generation) (offset : UInt32) (len : Nat) : Except Refusal WordRange :=
  match endAddress? offset len with
  | none => .error (.wraps len offset)
  | some last => .ok (WordRange.widen offset last len g.wordSize)

/-- What the sequencer delivers of `len` bytes at `offset`: no more than a bank of
`size` bytes holds from there. -/
def clamp (size offset : UInt32) (len : Nat) : Nat := min len (size - offset).toNat

/-- The words to fetch for `len` bytes at `offset` of a bank of `size` bytes, or why
the request is turned down. -/
def plan (g : Generation) (size offset : UInt32) (len : Nat) : Except Refusal WordRange :=
  match g with
  | one | two => g.cover offset len
  | three =>
    if size ≤ offset then .error (.beyondSize offset size)
    else
      match three.cover offset (clamp size offset len) with
      | .error refusal => .error refusal
      | .ok range =>
        if range.stop + Register.Sequencer.nonSecureBase > Register.Sequencer.addressLimit then
          .error (.beyondSequencer offset)
        else .ok range

/-- How many bytes of memory are reserved for the words of a range. Generation one
needs none. -/
def scratch (g : Generation) (range : WordRange) : Nat :=
  match g with
  | one => 0
  | two | three => range.scratchLength.toNat

end Generation

/-! ### Memory -/

/-- The memory of a host. -/
structure Memory where
  /-- Whether so many bytes are granted to who asks for them. -/
  grants : Nat → Bool
  /-- To ask for no bytes is not to ask at all. -/
  grants_zero : grants 0 = true

namespace Memory

/-- Memory that is always enough. -/
def ample : Memory := ⟨fun _ => true, rfl⟩

@[simp] theorem grants_ample (bytes : Nat) : ample.grants bytes = true := rfl

/-- Generation one has the memory that it needs. -/
@[simp] theorem grants_scratch_one (memory : Memory) (range : WordRange) :
    memory.grants (Generation.one.scratch range) = true :=
  memory.grants_zero

end Memory

end FuseBank
