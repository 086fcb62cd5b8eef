import FuseBank.Delivery
import FuseBank.Descriptor

/-!
# Controllers

A controller is a bank's descriptor with the waiting times that it keeps to. It is
attached once and then read from.

## The model

Reading is a program: what it does depends on the answers of the board alone. It
takes the buffer as it was and returns the buffer as it is afterwards, also when it
fails. A read of an unsupported bank does and says nothing. Any other read says that
it begins, plans, reserves the memory that the plan needs, and if there is as much,
carries the plan out between switching the clocks on and off.

A bank is read in three ways (`Call`), which differ in how they take the buffer and in
how they put the result: with the number of bytes that were read, as a storage that
says only whether it worked, and as a registration layer does, with a number of bytes
beside the buffer and a status that is zero or negative.
-/

namespace FuseBank

/-- What a caller gets: a result, and the buffer afterwards. -/
structure Reply (α : Type) where
  /-- The result. -/
  result : α
  /-- The buffer afterwards. -/
  buffer : List UInt8
  deriving DecidableEq, Repr

/-- The same reply with its result put differently. -/
def Reply.map {α β : Type} (f : α → β) (r : Reply α) : Reply β := ⟨f r.result, r.buffer⟩

/-- Puts the delivered bytes at the front of a buffer. The result of a read that did
not fail is the number of bytes that were planned. -/
def Delivery.reply (d : Delivery) (planned : Nat) (buffer : List UInt8) :
    Reply (Except Failure Nat) where
  result :=
    match d.failure with
    | none => .ok planned
    | some failure => .error failure
  buffer := d.bytes ++ buffer.drop d.bytes.length

/-- A controller that is attached. -/
structure Controller where
  /-- The bank that it reads. -/
  descriptor : Descriptor
  /-- The waiting times that it keeps to. -/
  timing : Timing

namespace Controller

/-- Attaches a controller, once its bank is set up. -/
def attach (d : Descriptor) (t : Timing) : Program (Except Failure Controller) := do
  let failure ←
    match d.setup with
    | none => pure none
    | some setup => setup.program
  match failure with
  | some failure => return .error failure
  | none =>
    Bus.log (.attached d.size)
    return .ok ⟨d, t⟩

/-- Attaches a controller of the bank that goes by `name`, with the usual waiting
times. -/
def probe (name : String) : Program (Except Failure Controller) :=
  match Descriptor.lookup? name with
  | none => do
    Bus.log .unmatched
    return .error .unknownDevice
  | some d => attach d {}

/-- How many bytes the bank has. -/
def size (c : Controller) : UInt32 := c.descriptor.size

/-- How many bytes the bank has, as a storage. -/
def capacity (c : Controller) : Nat := c.descriptor.size.toNat

/-- What a registration layer is told about the bank. -/
def registration (c : Controller) : Registration := .of c.descriptor

/-- Carries out a plan of the given generation with the clocks on. -/
def transact (c : Controller) (g : Generation) (range : WordRange) : Program Delivery :=
  withClocks c.descriptor.clocks
    (do
      Bus.log .clocksRefused
      return .failed .clockFailure)
    (g.execute c.timing range)

/-- Reads the bytes from `offset` on into `buffer`, and returns how many were read: as
many as the buffer holds, or fewer where the sequencer shortens a request that runs
beyond the end of the bank. The words of the request are gathered in `memory`. -/
def readWith (c : Controller) (memory : Memory) (offset : UInt32) (buffer : List UInt8) :
    Program (Reply (Except Failure Nat)) :=
  match c.descriptor.generation with
  | none => return ⟨.error .unsupported, buffer⟩
  | some g => do
    Bus.log (.reading buffer.length offset)
    match g.plan c.size offset buffer.length with
    | .error refusal =>
      Bus.log refusal.message
      return ⟨.error .outOfRange, buffer⟩
    | .ok range =>
      if memory.grants (g.scratch range) then
        let delivery ← c.transact g range
        return delivery.reply range.len buffer
      else
        Bus.log (.noMemory (g.scratch range))
        return ⟨.error .allocationFailure, buffer⟩

/-- Reads the bytes from `offset` on into `buffer`, where there is always enough memory. -/
def read (c : Controller) (offset : UInt32) (buffer : List UInt8) :
    Program (Reply (Except Failure Nat)) :=
  c.readWith .ample offset buffer

/-! ### The ways in -/

/-- Reads as a storage does, which says only whether it worked. -/
def storageRead (c : Controller) (memory : Memory) (offset : UInt32) (buffer : List UInt8) :
    Program (Reply (Except Failure Unit)) := do
  let reply ← c.readWith memory offset buffer
  return reply.map fun result => result.map fun _ => ()

/-- The status of a result: zero, or that of the failure. -/
def status (result : Except Failure Nat) : Int :=
  match result with
  | .ok _ => 0
  | .error failure => failure.status

/-- Reads into the first `bytes` bytes of a buffer, as a registration layer does, and
returns a status. Nothing happens if the buffer holds fewer. -/
def statusRead (c : Controller) (memory : Memory) (offset : UInt32) (bytes : Nat)
    (buffer : List UInt8) : Program (Reply Int) :=
  if buffer.length < bytes then
    return ⟨Failure.invalidLength.status, buffer⟩
  else do
    let reply ← c.readWith memory offset (buffer.take bytes)
    return ⟨status reply.result, reply.buffer ++ buffer.drop bytes⟩

end Controller

/-- One call of a controller. -/
inductive Call where
  /-- Read and count. -/
  | read (offset : UInt32) (buffer : List UInt8)
  /-- Read as a storage does. -/
  | storageRead (offset : UInt32) (buffer : List UInt8)
  /-- Read as a registration layer does. -/
  | statusRead (offset : UInt32) (bytes : Nat) (buffer : List UInt8)
  deriving DecidableEq, Repr

/-- The result of a call, as the way in puts it. -/
inductive CallResult where
  /-- The number of bytes that were read. -/
  | count (result : Except Failure Nat)
  /-- Whether it worked. -/
  | storage (result : Except Failure Unit)
  /-- Zero or a negative status. -/
  | status (status : Int)

/-- Carries out a call with the memory that there is. -/
def Controller.callWith (c : Controller) (memory : Memory) : Call → Program (Reply CallResult)
  | .read offset buffer => do
    let reply ← c.readWith memory offset buffer
    return reply.map .count
  | .storageRead offset buffer => do
    let reply ← c.storageRead memory offset buffer
    return reply.map .storage
  | .statusRead offset bytes buffer => do
    let reply ← c.statusRead memory offset bytes buffer
    return reply.map .status

/-- Carries out a call where there is always enough memory. -/
def Controller.call (c : Controller) (call : Call) : Program (Reply CallResult) :=
  c.callWith .ample call

end FuseBank
