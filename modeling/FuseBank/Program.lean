import FuseBank.Message

/-!
# Programs for a board

A program is what a controller does, before anything has been done: a tree whose
nodes are actions on the board and whose branches are the answers that the board
may give. So the order of the actions, and how each depends on the answers
before it, can be reasoned about without saying what the hardware is.

## The model

`Action` lists what a program may do and `Action.Answer` what it learns from it.
`Program α` is a finite tree of actions with values of `α` at its leaves. It is
a monad (`LawfulMonad Program`): to bind is to graft trees onto the leaves.
-/

namespace FuseBank

/-- One thing that a program may do. -/
inductive Action where
  /-- Read the register at `offset`. -/
  | read (offset : Nat)
  /-- Read the lowest byte lane of the register at `offset`. -/
  | readLane (offset : Nat)
  /-- Write the register at `offset`. -/
  | write (offset : Nat) (value : UInt32)
  /-- Let so many microseconds go by. -/
  | delay (us : UInt32)
  /-- Switch clocks on, all or none. -/
  | enableClocks (ids : List String)
  /-- Switch clocks off. -/
  | disableClocks (ids : List String)
  /-- Assert the reset line. -/
  | assertReset
  /-- Release the reset line. -/
  | releaseReset
  /-- Say something. -/
  | log (message : Message)

/-- What a program learns from an action: the value of a register, and from a call
that may be refused, whether it was carried out. -/
@[reducible] def Action.Answer : Action → Type
  | .read _ => UInt32
  | .readLane _ => UInt8
  | .enableClocks _ | .assertReset | .releaseReset => Bool
  | .write _ _ | .delay _ | .disableClocks _ | .log _ => Unit

/-- A tree of actions with values of `α` at its leaves. -/
inductive Program (α : Type) : Type where
  /-- Nothing more to do. -/
  | done (value : α)
  /-- Do one thing, then go on as the answer says. -/
  | act (action : Action) (next : action.Answer → Program α)

namespace Program

variable {α β γ : Type}

/-- Goes on with `f` wherever `p` is done. -/
def bind (p : Program α) (f : α → Program β) : Program β :=
  match p with
  | done value => f value
  | act action next => act action fun answer => (next answer).bind f

/-- Does one thing and returns the answer. -/
def perform (action : Action) : Program action.Answer :=
  act action done

instance : Monad Program where
  pure := done
  bind := bind

@[simp] theorem pure_eq (value : α) : (pure value : Program α) = done value := rfl

@[simp] theorem bind_done (value : α) (f : α → Program β) : done value >>= f = f value := rfl

@[simp] theorem bind_act (action : Action) (next : action.Answer → Program α)
    (f : α → Program β) : act action next >>= f = act action fun answer => next answer >>= f :=
  rfl

/-- Grafting nothing onto the leaves changes nothing. -/
theorem bind_leaf (p : Program α) : p >>= done = p := by
  induction p with
  | done value => rfl
  | act action next ih => simp only [bind_act, ih]

/-- It does not matter in which order trees are grafted. -/
theorem bind_bind (p : Program α) (f : α → Program β) (g : β → Program γ) :
    p >>= f >>= g = p >>= fun value => f value >>= g := by
  induction p with
  | done value => rfl
  | act action next ih => simp only [bind_act, ih]

instance : LawfulMonad Program :=
  LawfulMonad.mk' Program bind_leaf (fun _ _ => rfl) bind_bind

end Program

/-! ### The actions as programs -/

namespace Bus

open Program

/-- Reads the register at `offset`. -/
def read (offset : Nat) : Program UInt32 := perform (.read offset)

/-- Reads the lowest byte lane of the register at `offset`. -/
def readLane (offset : Nat) : Program UInt8 := perform (.readLane offset)

/-- Writes the register at `offset`. -/
def write (offset : Nat) (value : UInt32) : Program Unit := perform (.write offset value)

/-- Lets so many microseconds go by. -/
def delay (us : UInt32) : Program Unit := perform (.delay us)

/-- Switches clocks on and returns whether they run. -/
def enableClocks (ids : List String) : Program Bool := perform (.enableClocks ids)

/-- Switches clocks off. -/
def disableClocks (ids : List String) : Program Unit := perform (.disableClocks ids)

/-- Asserts the reset line and returns whether it is asserted. -/
def assertReset : Program Bool := perform .assertReset

/-- Releases the reset line and returns whether it is released. -/
def releaseReset : Program Bool := perform .releaseReset

/-- Says something. -/
def log (message : Message) : Program Unit := perform (.log message)

end Bus

end FuseBank
