import FuseBank.Bench
import FuseBank.Bench.Device
import FuseBank.Bench.Script
import FuseBank.Controller

/-!
# Sessions on a bench

In a session a controller is attached to a bench and then used step by step. Between
its calls the hardware may be changed, and when it is released its register block
can be accessed directly.

## The model

The register block of a bench is one of three kinds (`Block`): scripted registers, a
simulated device or a memory window. The accesses to a window leave no events: they
are memory accesses like any other.

A step is a `Record` like the run of a program: its answer, the session afterwards,
and what was observed. So a session is a list of records, each from where the one
before left off (`Session.run`).

What is seen of a session depends on who looks (`View.observe`). A brief look leaves
out the events that polling repeats, reads and delays, but still counts them.
-/

namespace FuseBank.Bench

/-! ### Register blocks -/

/-- The register block of a bench. -/
inductive Block where
  /-- Scripted registers. -/
  | script (script : Script)
  /-- A simulated device. -/
  | device (device : Device)
  /-- A memory window. -/
  | window (window : Window)

namespace Block

/-- Whether accesses to the block can be observed. -/
def isObservable : Block → Bool
  | script _ | device _ => true
  | window _ => false

/-- Whether the block always reads byte lanes in its own way. -/
def hasByteLane : Block → Bool
  | window _ => true
  | script _ | device _ => false

/-- The device, if the block is one. -/
def device? : Block → Option Device
  | device d => some d
  | script _ | window _ => none

/-- The memory, if the block is a window. -/
def window? : Block → Option Window
  | window w => some w
  | script _ | device _ => none

instance : RegisterBlock Block where
  read offset
    | script s => (RegisterBlock.read offset s).map id script
    | device d => (RegisterBlock.read offset d).map id device
    | window w => (RegisterBlock.read offset w).map id window
  write offset value
    | script s => script (RegisterBlock.write offset value s)
    | device d => device (RegisterBlock.write offset value d)
    | window w => window (RegisterBlock.write offset value w)
  lane offset
    | script s => (RegisterBlock.lane offset s).map id script
    | device d => (RegisterBlock.lane offset d).map id device
    | window w => (RegisterBlock.lane offset w).map id window

end Block

/-! ### What is done with a bench -/

/-- How a controller is attached. -/
inductive Attachment where
  /-- To the bank that goes by a name, with the usual waiting times. -/
  | byName (name : String)
  /-- To the bank that a descriptor describes. -/
  | byDescriptor (descriptor : Descriptor) (timing : Timing)

/-- Attaches a controller. -/
def Attachment.program : Attachment → Program (Except Failure Controller)
  | byName name => Controller.probe name
  | byDescriptor descriptor timing => Controller.attach descriptor timing

/-- A change of the hardware, made from outside. What is not given stays, and what
there is not on the bench is not changed. -/
structure Change where
  /-- Whether the clocks are refused from now on. -/
  clocks : Option Bool := none
  /-- Whether asserting the reset line is refused from now on. -/
  assert : Option Bool := none
  /-- Whether releasing the reset line is refused from now on. -/
  release : Option Bool := none
  /-- New runs for some scripted registers. -/
  script : Option Script := none
  /-- A change of the device. -/
  device : Option Device.Change := none

/-- Makes a change of a register block. -/
def Block.change (b : Block) (c : Change) : Block :=
  match b with
  | script s => script (c.script.elim s s.merge)
  | device d => device (c.device.elim d d.change)
  | window w => window w

/-- Makes a change of the hardware. -/
def change (b : Bench Block) (c : Change) : Bench Block where
  block := b.block.change c
  refusals :=
    { clocks := c.clocks.getD b.refusals.clocks
      assert := c.assert.getD b.refusals.assert
      release := c.release.getD b.refusals.release }

/-- A step of a session. -/
inductive Step where
  /-- Call the controller. -/
  | call (call : Call)
  /-- Ask the controller what it is. -/
  | describe
  /-- Change the hardware. -/
  | change (change : Change)
  /-- Look at the simulated device. -/
  | inspect
  /-- Release the controller. -/
  | free
  /-- Access a register, the controller being released. -/
  | access (access : Access)

/-- The answer to a step. -/
inductive Answer where
  /-- What the call returned. -/
  | reply (reply : Reply CallResult)
  /-- The controller. -/
  | description (controller : Controller)
  /-- The hardware was changed. -/
  | changed
  /-- The device, if there is one. -/
  | device (device : Option Device)
  /-- The controller was released. -/
  | freed
  /-- The value that was read, if one was. -/
  | value (value : Option UInt32)
  /-- There is no controller any more. -/
  | noController
  /-- The register block still belongs to the controller. -/
  | notFreed

/-! ### What is seen -/

/-- What is looked for. -/
structure View where
  /-- Whether register accesses are seen. -/
  accesses : Bool := true
  /-- Whether reads and delays are counted only. -/
  brief : Bool := false
  deriving DecidableEq, Repr

/-- What is seen of a run. -/
structure Observation where
  /-- The events. -/
  trace : List Event
  /-- How many times a register was read. -/
  reads : Nat
  /-- How many times a register was written. -/
  writes : Nat
  /-- The microseconds that went by. -/
  duration : Nat
  /-- The messages. -/
  log : List Message
  deriving DecidableEq, Repr

/-- What is seen of a run that left these events and messages. -/
def View.observe (v : View) (trace : List Event) (log : List Message) : Observation :=
  let seen := if v.accesses then trace else trace.filter fun e => !e.isAccess
  { trace := if v.brief then seen.filter fun e => !(e.isRead || e.isDelay) else seen
    reads := Trace.reads seen
    writes := Trace.writes seen
    duration := Trace.duration seen
    log := log }

/-! ### Sessions -/

/-- A controller on a bench. -/
structure Session where
  /-- The controller, until it is released. -/
  controller : Option Controller
  /-- How the bench is wired up. -/
  wiring : Wiring
  /-- The bench. -/
  bench : Bench Block

namespace Session

/-- Attaches a controller and returns the session, or why there is none. A block with
a byte lane of its own is read that way however the bench is wired. -/
def start (wiring : Wiring) (bench : Bench Block) (attachment : Attachment) :
    Record (Bench Block) (Except Failure Session) :=
  let wiring := { wiring with byteLane := wiring.byteLane || bench.block.hasByteLane }
  let r := attachment.program.run (board wiring) bench
  { r with value := r.value.map fun controller => ⟨some controller, wiring, r.state⟩ }

/-- Runs a program on the session's bench. -/
def perform {α : Type} (s : Session) (p : Program α) (answer : α → Answer) :
    Record Session Answer :=
  let r := p.run (board s.wiring) s.bench
  { r with value := answer r.value, state := { s with bench := r.state } }

/-- Takes a step. -/
def step (s : Session) : Step → Record Session Answer
  | .call call =>
    match s.controller with
    | some controller => s.perform (controller.call call) .reply
    | none => .still .noController s
  | .describe =>
    match s.controller with
    | some controller => .still (.description controller) s
    | none => .still .noController s
  | .change c => .still .changed { s with bench := s.bench.change c }
  | .inspect => .still (.device s.bench.block.device?) s
  | .free =>
    match s.controller with
    | some _ => .still .freed { s with controller := none }
    | none => .still .noController s
  | .access access =>
    match s.controller with
    | some _ => .still .notFreed s
    | none => s.perform access.program .value

/-- Takes one step after another. -/
def run (s : Session) : List Step → List (Record Session Answer)
  | [] => []
  | step :: rest =>
    let r := s.step step
    r :: r.state.run rest

/-- What can be observed of the session by who looks briefly or in full. -/
def view (s : Session) (brief : Bool) : View := ⟨s.bench.block.isObservable, brief⟩

end Session

end FuseBank.Bench
