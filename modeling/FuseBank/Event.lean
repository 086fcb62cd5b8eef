/-!
# What happens on the board

Whatever a controller does to the hardware is an event: a register access with
the value that was on the bus, a delay, or a call on the clocks or the reset
line with the way it went. A run leaves the list of its events, its *trace*.
-/

namespace FuseBank

/-- One thing that happened on the board. -/
inductive Event where
  /-- The register at `offset` was read. -/
  | read (offset : Nat) (value : UInt32)
  /-- The lowest byte lane of the register at `offset` was read; `word` is what
  was on the bus. -/
  | readLane (offset : Nat) (word : UInt32)
  /-- The register at `offset` was written. -/
  | write (offset : Nat) (value : UInt32)
  /-- So many microseconds went by. -/
  | delay (us : UInt32)
  /-- The clocks were switched on. -/
  | clocksOn (ids : List String)
  /-- The clocks were refused; none of them runs. -/
  | clocksRefused (ids : List String)
  /-- The clocks were switched off. -/
  | clocksOff (ids : List String)
  /-- The reset line was asserted. -/
  | resetAsserted
  /-- Asserting the reset line was refused. -/
  | assertRefused
  /-- The reset line was released. -/
  | resetReleased
  /-- Releasing the reset line was refused. -/
  | releaseRefused
  deriving DecidableEq, Repr

namespace Event

/-- Whether a register was read, as a word or by its lowest lane. -/
def isRead : Event → Bool
  | read _ _ | readLane _ _ => true
  | _ => false

/-- Whether a register was written. -/
def isWrite : Event → Bool
  | write _ _ => true
  | _ => false

/-- Whether a register was accessed. -/
def isAccess (e : Event) : Bool := e.isRead || e.isWrite

/-- Whether time was let go by. -/
def isDelay : Event → Bool
  | delay _ => true
  | _ => false

/-- How long an event lasts, in microseconds. -/
def duration : Event → Nat
  | delay us => us.toNat
  | _ => 0

end Event

/-! ### Sums over a trace -/

namespace Trace

/-- How many times a register was read. -/
def reads (trace : List Event) : Nat := trace.countP Event.isRead

/-- How many times a register was written. -/
def writes (trace : List Event) : Nat := trace.countP Event.isWrite

/-- The microseconds that went by, all delays together. -/
def duration (trace : List Event) : Nat := trace.foldr (fun event us => event.duration + us) 0

@[simp] theorem reads_cons (e : Event) (t : List Event) :
    reads (e :: t) = reads t + if e.isRead then 1 else 0 :=
  List.countP_cons

@[simp] theorem writes_cons (e : Event) (t : List Event) :
    writes (e :: t) = writes t + if e.isWrite then 1 else 0 :=
  List.countP_cons

@[simp] theorem duration_cons (e : Event) (t : List Event) :
    duration (e :: t) = e.duration + duration t := rfl

@[simp] theorem reads_append (t u : List Event) : reads (t ++ u) = reads t + reads u :=
  List.countP_append

@[simp] theorem writes_append (t u : List Event) : writes (t ++ u) = writes t + writes u :=
  List.countP_append

@[simp] theorem duration_append (t u : List Event) :
    duration (t ++ u) = duration t + duration u := by
  induction t with
  | nil => exact (Nat.zero_add _).symm
  | cons event t ih => rw [List.cons_append, duration_cons, duration_cons, ih, Nat.add_assoc]

end Trace

end FuseBank
