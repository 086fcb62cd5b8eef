import FuseBank.Event
import FuseBank.Program

/-!
# Running a program on a board

A board says what the hardware answers: it is a record of functions on a state of
any type `σ`, so the answers may depend on all that came before. `Program.run`
carries out a program on a board and returns a `Record`: the program's value, the
board's state afterwards, and what was observed, the events and the messages in
their order.

## Main statements

* `Program.run_done`, `Program.run_act`: a run is that of the first action, followed
  by that of the branch which the answer selects.
* `Program.run_bind`: the run of one program after another is the one record after
  the other.
-/

namespace FuseBank

/-- A reset line that is wired up. Each call tells whether it was carried out. -/
structure ResetLine (σ : Type) where
  /-- Asserts the line. -/
  assert : σ → Bool × σ
  /-- Releases the line. -/
  release : σ → Bool × σ

/-- What the hardware answers, and how it changes. -/
structure Board (σ : Type) where
  /-- The value of the register at an offset. -/
  read : Nat → σ → UInt32 × σ
  /-- The register block's own way of reading a byte lane: the word that it puts on
  the bus, of which the lowest byte counts. Without one the whole register is read
  and its lowest byte kept. -/
  lane : Option (Nat → σ → UInt32 × σ)
  /-- A register is written. -/
  write : Nat → UInt32 → σ → σ
  /-- Time goes by. -/
  delay : UInt32 → σ → σ
  /-- Clocks are switched on, or refused. -/
  enableClocks : List String → σ → Bool × σ
  /-- Clocks are switched off. -/
  disableClocks : List String → σ → σ
  /-- The reset line. Where none is wired up its calls succeed and nothing happens. -/
  reset : Option (ResetLine σ)

/-- What a run leaves. -/
structure Record (σ α : Type) where
  /-- The value of the program. -/
  value : α
  /-- The state of the board afterwards. -/
  state : σ
  /-- What happened, in order. -/
  trace : List Event
  /-- What was said, in order. -/
  log : List Message

namespace Record

variable {σ α β γ : Type}

/-- A run in which nothing happens. -/
def still (value : α) (state : σ) : Record σ α := ⟨value, state, [], []⟩

/-- One run and then another, which depends on the first one's value and state. -/
def andThen (r : Record σ α) (f : α → σ → Record σ β) : Record σ β :=
  let q := f r.value r.state
  ⟨q.value, q.state, r.trace ++ q.trace, r.log ++ q.log⟩

@[simp] theorem still_andThen (value : α) (state : σ) (f : α → σ → Record σ β) :
    (still value state).andThen f = f value state := rfl

@[simp] theorem andThen_still (r : Record σ α) : r.andThen still = r := by
  simp [andThen, still]

theorem andThen_assoc (r : Record σ α) (f : α → σ → Record σ β) (g : β → σ → Record σ γ) :
    (r.andThen f).andThen g = r.andThen fun value state => (f value state).andThen g := by
  simp [andThen]

end Record

namespace Board

variable {σ : Type}

/-- Carries out one action. -/
def perform (b : Board σ) : (action : Action) → σ → Record σ action.Answer
  | .read offset, s =>
    let r := b.read offset s
    ⟨r.1, r.2, [.read offset r.1], []⟩
  | .readLane offset, s =>
    match b.lane with
    | none =>
      let r := b.read offset s
      ⟨r.1.toUInt8, r.2, [.read offset r.1], []⟩
    | some lane =>
      let r := lane offset s
      ⟨r.1.toUInt8, r.2, [.readLane offset r.1], []⟩
  | .write offset value, s => ⟨(), b.write offset value s, [.write offset value], []⟩
  | .delay us, s => ⟨(), b.delay us s, [.delay us], []⟩
  | .enableClocks ids, s =>
    let r := b.enableClocks ids s
    ⟨r.1, r.2, [if r.1 then .clocksOn ids else .clocksRefused ids], []⟩
  | .disableClocks ids, s => ⟨(), b.disableClocks ids s, [.clocksOff ids], []⟩
  | .assertReset, s =>
    match b.reset with
    | none => .still true s
    | some line =>
      let r := line.assert s
      ⟨r.1, r.2, [if r.1 then .resetAsserted else .assertRefused], []⟩
  | .releaseReset, s =>
    match b.reset with
    | none => .still true s
    | some line =>
      let r := line.release s
      ⟨r.1, r.2, [if r.1 then .resetReleased else .releaseRefused], []⟩
  | .log message, s => ⟨(), s, [], [message]⟩

end Board

namespace Program

variable {σ α β : Type}

/-- Carries out a program, adding to what was observed before. -/
def runFrom (b : Board σ) : Program α → σ → Array Event → Array Message → Record σ α
  | done value, s, trace, log => ⟨value, s, trace.toList, log.toList⟩
  | act action next, s, trace, log =>
    let r := b.perform action s
    (next r.value).runFrom b r.state (trace.appendList r.trace) (log.appendList r.log)

/-- Carries out a program on a board in the state `s`. -/
def run (b : Board σ) (p : Program α) (s : σ) : Record σ α := p.runFrom b s #[] #[]

/-- What was observed before stands before what is observed now. -/
theorem runFrom_eq (b : Board σ) (p : Program α) (s : σ) (trace : Array Event)
    (log : Array Message) :
    p.runFrom b s trace log =
      { p.run b s with
        trace := trace.toList ++ (p.run b s).trace, log := log.toList ++ (p.run b s).log } := by
  induction p generalizing s trace log with
  | done value => simp [run, runFrom]
  | act action next ih =>
    simp only [run, runFrom]
    rw [ih, ih _ _ (#[].appendList _)]
    simp

/-- A program that is done leaves everything as it is. -/
@[simp] theorem run_done (b : Board σ) (value : α) (s : σ) :
    (done value).run b s = .still value s := rfl

/-- The first action is carried out, and then the branch that its answer selects. -/
@[simp] theorem run_act (b : Board σ) (action : Action) (next : action.Answer → Program α)
    (s : σ) :
    (act action next).run b s =
      (b.perform action s).andThen fun answer s => (next answer).run b s := by
  rw [run, runFrom, runFrom_eq]
  simp [Record.andThen]

/-- One program after another leaves the one record after the other. -/
@[simp] theorem run_bind (b : Board σ) (p : Program α) (f : α → Program β) (s : σ) :
    (p >>= f).run b s = (p.run b s).andThen fun value s => (f value).run b s := by
  induction p generalizing s with
  | done value => simp
  | act action next ih => simp [ih, Record.andThen_assoc]

theorem run_perform (b : Board σ) (action : Action) (s : σ) :
    (perform action).run b s = b.perform action s := by
  simp [perform, run_act]

end Program

/-! ### The actions on a board -/

namespace Bus

variable {σ : Type} (b : Board σ) (s : σ)

@[simp] theorem run_read (offset : Nat) :
    (read offset).run b s =
      ⟨(b.read offset s).1, (b.read offset s).2, [.read offset (b.read offset s).1], []⟩ :=
  Program.run_perform b (.read offset) s

/-- Without a lane of its own the block is read as a whole. -/
theorem run_readLane_of_none (h : b.lane = none) (offset : Nat) :
    (readLane offset).run b s =
      ⟨(b.read offset s).1.toUInt8, (b.read offset s).2, [.read offset (b.read offset s).1],
        []⟩ := by
  refine (Program.run_perform b (.readLane offset) s).trans ?_
  simp [Board.perform, h]

/-- With a lane of its own the block is read by it. -/
theorem run_readLane_of_some {lane : Nat → σ → UInt32 × σ} (h : b.lane = some lane)
    (offset : Nat) :
    (readLane offset).run b s =
      ⟨(lane offset s).1.toUInt8, (lane offset s).2, [.readLane offset (lane offset s).1],
        []⟩ := by
  refine (Program.run_perform b (.readLane offset) s).trans ?_
  simp [Board.perform, h]

@[simp] theorem run_write (offset : Nat) (value : UInt32) :
    (write offset value).run b s =
      ⟨(), b.write offset value s, [.write offset value], []⟩ :=
  Program.run_perform b (.write offset value) s

@[simp] theorem run_delay (us : UInt32) :
    (delay us).run b s = ⟨(), b.delay us s, [.delay us], []⟩ :=
  Program.run_perform b (.delay us) s

@[simp] theorem run_enableClocks (ids : List String) :
    (enableClocks ids).run b s =
      ⟨(b.enableClocks ids s).1, (b.enableClocks ids s).2,
        [if (b.enableClocks ids s).1 then .clocksOn ids else .clocksRefused ids], []⟩ :=
  Program.run_perform b (.enableClocks ids) s

@[simp] theorem run_disableClocks (ids : List String) :
    (disableClocks ids).run b s = ⟨(), b.disableClocks ids s, [.clocksOff ids], []⟩ :=
  Program.run_perform b (.disableClocks ids) s

theorem run_assertReset_of_none (h : b.reset = none) :
    assertReset.run b s = .still true s := by
  refine (Program.run_perform b .assertReset s).trans ?_
  simp [Board.perform, h]

theorem run_assertReset_of_some {line : ResetLine σ} (h : b.reset = some line) :
    assertReset.run b s =
      ⟨(line.assert s).1, (line.assert s).2,
        [if (line.assert s).1 then .resetAsserted else .assertRefused], []⟩ := by
  refine (Program.run_perform b .assertReset s).trans ?_
  simp [Board.perform, h]

theorem run_releaseReset_of_none (h : b.reset = none) :
    releaseReset.run b s = .still true s := by
  refine (Program.run_perform b .releaseReset s).trans ?_
  simp [Board.perform, h]

theorem run_releaseReset_of_some {line : ResetLine σ} (h : b.reset = some line) :
    releaseReset.run b s =
      ⟨(line.release s).1, (line.release s).2,
        [if (line.release s).1 then .resetReleased else .releaseRefused], []⟩ := by
  refine (Program.run_perform b .releaseReset s).trans ?_
  simp [Board.perform, h]

@[simp] theorem run_log (message : Message) :
    (log message).run b s = ⟨(), s, [], [message]⟩ :=
  Program.run_perform b (.log message) s

end Bus

end FuseBank
