import FuseBank.Failure
import FuseBank.Program

/-!
# Setting up a bank

Some banks have to be set up once, when a controller is attached. The setup has the
registers and nothing else: no clocks, no reset line and no delays. It may look at the
values that it reads, and it may fail, in which case no controller is attached.
-/

namespace FuseBank

/-- A setup: a tree of register accesses that ends in a failure or in none. -/
inductive Setup : Type where
  /-- Nothing more to do. -/
  | finish (failure : Option Failure)
  /-- Read the register at `offset`. -/
  | read (offset : Nat) (next : UInt32 → Setup)
  /-- Read the lowest byte lane of the register at `offset`. -/
  | readLane (offset : Nat) (next : UInt8 → Setup)
  /-- Write the register at `offset`. -/
  | write (offset : Nat) (value : UInt32) (next : Setup)

/-- A setup as a program, which returns what went wrong, if anything did. -/
def Setup.program : Setup → Program (Option Failure)
  | finish failure => return failure
  | read offset next => do
    let value ← Bus.read offset
    (next value).program
  | readLane offset next => do
    let byte ← Bus.readLane offset
    (next byte).program
  | write offset value next => do
    Bus.write offset value
    next.program

/-! ### Single accesses -/

/-- One access to a register. -/
inductive Access where
  /-- Read the register at `offset`. -/
  | read (offset : Nat)
  /-- Read the lowest byte lane of the register at `offset`. -/
  | readLane (offset : Nat)
  /-- Write the register at `offset`. -/
  | write (offset : Nat) (value : UInt32)
  deriving DecidableEq, Repr

/-- An access as a program, which returns the value that was read, if one was. -/
def Access.program : Access → Program (Option UInt32)
  | read offset => do
    let value ← Bus.read offset
    return some value
  | readLane offset => do
    let byte ← Bus.readLane offset
    return some byte.toUInt32
  | write offset value => do
    Bus.write offset value
    return none

/-- The setup that makes some accesses, whatever they read, and then ends as given. -/
def Setup.ofAccesses (accesses : List Access) (failure : Option Failure) : Setup :=
  match accesses with
  | [] => finish failure
  | .read offset :: rest => read offset fun _ => ofAccesses rest failure
  | .readLane offset :: rest => readLane offset fun _ => ofAccesses rest failure
  | .write offset value :: rest => write offset value (ofAccesses rest failure)

end FuseBank
