import FuseBank.ControlWord
import FuseBank.Window

/-!
# Simulated fuse devices

A device holds fuses and reads them as a controller asks it to. It comes in three
layouts, one for each generation of controllers: bytes and halfwords through the user
interface, words through the sequencer.

## The model

What the device has completed shows in its status register only after a while:
completing something makes its bit pending (`Device.raise`), and `latency` samples of
the status register pass before a pending bit shows (`Device.sample`). A device can
misbehave in several ways: status bits may be stuck, read cycles may stall from one
of them on, the sideband may stall, and words may have a quality value that is a fault.
The addresses of the words that were fetched are kept, in order.

Fuses beyond the last one are zero. The data register of the user interface has
nothing to say in the lanes above a word's bytes, and shows arbitrary bits there.
-/

namespace FuseBank.Bench

open FuseBank.Register

/-- How a device hands out its fuses. -/
inductive Layout where
  /-- A byte per cycle of the user interface. -/
  | bytes
  /-- Two bytes per cycle of the user interface. -/
  | halfwords
  /-- Four bytes per sequence of the sequencer. -/
  | words
  /-- Not at all: the device has a status register only. -/
  | inert
  deriving DecidableEq, Repr

/-- The status register of a layout. -/
def Layout.statusRegister : Layout → Nat
  | words => Sequencer.status
  | bytes | halfwords | inert => Register.status

/-- A device: what it is like, and the state that it is in. -/
structure Device where
  /-- How it hands out its fuses. -/
  layout : Layout
  /-- The fuses. -/
  fuses : Array UInt8 := #[]
  /-- How many samples pass before a completion shows. -/
  latency : Nat := 0
  /-- Status bits that are always up. -/
  stuck : UInt32 := 0
  /-- How many cycles are completed before all others stall. -/
  stallAfter : Option Nat := none
  /-- Whether the sideband stalls. -/
  stallSideband : Bool := false
  /-- The quality values of words, by word address. The last one given counts. -/
  faults : List (UInt32 × UInt32) := []
  /-- The status bits that show. -/
  status : UInt32 := 0
  /-- The status bits that do not show yet. -/
  pending : UInt32 := 0
  /-- How many samples pass before they show. -/
  countdown : Nat := 0
  /-- The first command word of the sideband. -/
  command : UInt32 := 0
  /-- The second command word of the sideband. -/
  operand : UInt32 := 0
  /-- The setting of the ECC latch, once it was set. -/
  latch : Option UInt32 := none
  /-- Whether the user interface has the fuses. -/
  userMode : Bool := false
  /-- The address of the user interface's next cycle. -/
  address : UInt32 := 0
  /-- The quality value of the word read last. -/
  quality : UInt32 := 0
  /-- The data register of the user interface. -/
  data : UInt32 := 0
  /-- The control word of the sequencer. -/
  control : ControlWord := ⟨0⟩
  /-- The data register of the sequencer. -/
  sequencerData : UInt32 := 0
  /-- How many cycles were started. -/
  cycles : Nat := 0
  /-- The addresses of the words that were fetched, in order. -/
  fetched : List UInt32 := []
  deriving DecidableEq, Repr

namespace Device

/-- So many fuses with a pattern in which neighbours differ. -/
def pattern (length : Nat) : Array UInt8 :=
  (Array.range length).map fun i => UInt8.ofNat (i * 7) ^^^ 0x5a

/-- A fuse byte. -/
def fuse (d : Device) (i : Nat) : UInt8 := d.fuses.getD i 0

/-- The quality value of the word at an address: zero, if it was given none. -/
def qualityOf (d : Device) (address : UInt32) : UInt32 :=
  d.faults.foldl (fun quality fault => if fault.1 = address then fault.2 else quality) 0

/-- The data register after the word at an address was read: the word's bytes below,
and arbitrary bits above. -/
def wordOf (d : Device) (address : UInt32) : UInt32 :=
  let a := address.toNat
  match d.layout with
  | .bytes => LittleEndian.word (d.fuse a) 0xa5 0xa5 0xa5
  | .halfwords => LittleEndian.word (d.fuse (2 * a)) (d.fuse (2 * a + 1)) 0xad 0xde
  | .words =>
    if address < Sequencer.nonSecureBase then 0
    else
      let i := 4 * (a - Sequencer.nonSecureBase.toNat)
      LittleEndian.word (d.fuse i) (d.fuse (i + 1)) (d.fuse (i + 2)) (d.fuse (i + 3))
  | .inert => 0

/-- Something is complete: its bit will show after the latency. -/
def raise (d : Device) (bit : UInt32) : Device :=
  { d with pending := d.pending ||| bit, countdown := d.latency }

/-- Whether the next cycle is completed. -/
def completesCycle (d : Device) : Bool :=
  match d.stallAfter with
  | none => true
  | some limit => d.cycles < limit

/-- Samples the status register. -/
def sample (d : Device) : UInt32 × Device :=
  let d :=
    if 0 < d.countdown then { d with countdown := d.countdown - 1 }
    else { d with status := d.status ||| d.pending, pending := 0 }
  (d.status ||| d.stuck, d)

/-- Runs a cycle of the user interface. -/
def runCycle (d : Device) : Device :=
  let after := { d with cycles := d.cycles + 1 }
  if d.completesCycle then
    { after with
      fetched := d.fetched ++ [d.address]
      data := d.wordOf d.address
      quality := d.qualityOf d.address }.raise cycleDone
  else after

/-- Runs a sequence of the sequencer. -/
def runSequence (d : Device) : Device :=
  let after := { d with cycles := d.cycles + 1 }
  let address := d.control.address.toUInt32
  if d.completesCycle then
    { after with
      fetched := d.fetched ++ [address]
      sequencerData := d.wordOf address }.raise Sequencer.done
  else after

/-- Carries out the command of the sideband: only a write of the ECC latch is known. -/
def runSideband (d : Device) : Device :=
  if !d.stallSideband && d.command == Sideband.writeLatch ||| Sideband.eccLatch then
    { d with latch := some d.operand }.raise sidebandDone
  else d

/-- Writing ones clears status bits. -/
def clear (d : Device) (bits : UInt32) : Device := { d with status := d.status &&& ~~~bits }

/-- A write to the registers of the sideband and the user interface. -/
def writeUser (d : Device) (offset : Nat) (value : UInt32) : Device :=
  if offset = Register.status then d.clear value
  else if offset = Sideband.command then { d with command := value }
  else if offset = Sideband.operand then { d with operand := value }
  else if offset = Sideband.control then
    if value = Sideband.start then d.runSideband else d
  else if offset = User.control then
    if value &&& 0x10000 ≠ 0 then { d with userMode := value &&& 1 != 0 } else d
  else if offset = User.address then { d with address := value &&& 0xffff }
  else if offset = User.trigger then
    if value = User.start && d.userMode then d.runCycle else d
  else d

/-- A write to the registers of the sequencer. -/
def writeSequencer (d : Device) (offset : Nat) (value : UInt32) : Device :=
  if offset = Sequencer.status then d.clear value
  else if offset = Sequencer.control then { d with control := ⟨value⟩ }
  else if offset = Sequencer.trigger then
    if value &&& 1 ≠ 0 then d.runSequence else d
  else d

/-- A write. -/
def write (d : Device) (offset : Nat) (value : UInt32) : Device :=
  match d.layout with
  | .bytes | .halfwords => d.writeUser offset value
  | .words => d.writeSequencer offset value
  | .inert => d

/-- What a register other than the status register shows. -/
def look (d : Device) (offset : Nat) : UInt32 :=
  match d.layout with
  | .bytes | .halfwords =>
    if offset = User.quality then d.quality else if offset = User.data then d.data else 0
  | .words => if offset = Sequencer.data then d.sequencerData else 0
  | .inert => 0

/-- A device is a register block. Only sampling its status changes it. -/
instance : RegisterBlock Device where
  read offset d := if offset = d.layout.statusRegister then d.sample else (d.look offset, d)
  write offset value d := d.write offset value

/-- A change of what a device is like, made from outside. What is not given stays. -/
structure Change where
  /-- Another layout. -/
  layout : Option Layout := none
  /-- Other fuses. -/
  fuses : Option (Array UInt8) := none
  /-- Another latency, from the next completion on. -/
  latency : Option Nat := none
  /-- Other stuck bits. -/
  stuck : Option UInt32 := none
  /-- Another number of cycles before the rest stall, or none. -/
  stallAfter : Option (Option Nat) := none
  /-- Whether the sideband stalls from now on. -/
  stallSideband : Option Bool := none
  /-- Other quality values. -/
  faults : Option (List (UInt32 × UInt32)) := none
  /-- Another number of cycles that were started. -/
  cycles : Option Nat := none

/-- Makes a change. -/
def change (d : Device) (c : Change) : Device :=
  { d with
    layout := c.layout.getD d.layout
    fuses := c.fuses.getD d.fuses
    latency := c.latency.getD d.latency
    stuck := c.stuck.getD d.stuck
    stallAfter := c.stallAfter.getD d.stallAfter
    stallSideband := c.stallSideband.getD d.stallSideband
    faults := c.faults.getD d.faults
    cycles := c.cycles.getD d.cycles }

end Device

end FuseBank.Bench
