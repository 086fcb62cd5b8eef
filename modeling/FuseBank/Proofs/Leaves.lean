import FuseBank.Board
import Mathlib.Logic.Unique

/-!
# What a program leaves on any board

A program does not know the board that it runs on. What it may come to, and which events it
may leave on the way, is said here without a board: every answer that an action may get leads
to a course of the program (`Program.Leaves`). Only whether a reset line is wired up is known
beforehand, for without one its calls leave no events.

A run on any board, from any state, is such a course (`Program.leaves_run`). So what holds of
all courses holds whatever the hardware answers, and however its answers depend on what was
done to it before.

## Main statements

* `Program.leaves_run`: the run of a program is one of its courses.
* `Program.leaves_bind`: a course of one program after another is a course of the one followed
  by a course of the other.
-/

namespace FuseBank

/-- An action may get this answer, and then leaves these events. -/
def Action.Leaves (wired : Bool) : (action : Action) → action.Answer → List Event → Prop
  | .read offset, value, trace => trace = [.read offset value]
  | .readLane offset, byte, trace =>
    ∃ word : UInt32, byte = word.toUInt8 ∧
      (trace = [.read offset word] ∨ trace = [.readLane offset word])
  | .write offset value, _, trace => trace = [.write offset value]
  | .delay us, _, trace => trace = [.delay us]
  | .enableClocks ids, granted, trace =>
    trace = [if granted then .clocksOn ids else .clocksRefused ids]
  | .disableClocks ids, _, trace => trace = [.clocksOff ids]
  | .assertReset, granted, trace =>
    if wired then trace = [if granted then .resetAsserted else .assertRefused]
    else granted = true ∧ trace = []
  | .releaseReset, granted, trace =>
    if wired then trace = [if granted then .resetReleased else .releaseRefused]
    else granted = true ∧ trace = []
  | .log _, _, trace => trace = []

/-- Whatever a board answers to an action, it is an answer with the events that go with it. -/
theorem Board.leaves_perform {σ : Type} (b : Board σ) (action : Action) (s : σ) :
    action.Leaves b.reset.isSome (b.perform action s).value (b.perform action s).trace := by
  cases action with
  | readLane offset =>
    cases hlane : b.lane with
    | none => exact ⟨(b.read offset s).1, by simp [perform, hlane]⟩
    | some lane => exact ⟨(lane offset s).1, by simp [perform, hlane]⟩
  | assertReset =>
    cases hreset : b.reset <;> simp [perform, hreset, Action.Leaves, Record.still]
  | releaseReset =>
    cases hreset : b.reset <;> simp [perform, hreset, Action.Leaves, Record.still]
  | _ => rfl

namespace Program

variable {σ α β : Type} {wired : Bool}

/-- A program may come to this value, and leave these events on the way. -/
def Leaves (wired : Bool) : Program α → α → List Event → Prop
  | done result, value, trace => value = result ∧ trace = []
  | act action next, value, trace =>
    ∃ answer first rest, action.Leaves wired answer first ∧
      (next answer).Leaves wired value rest ∧ trace = first ++ rest

@[simp] theorem leaves_done {result value : α} {trace : List Event} :
    (done result).Leaves wired value trace ↔ value = result ∧ trace = [] := Iff.rfl

/-- **The run of a program is one of its courses**, on every board and from every state. -/
theorem leaves_run (b : Board σ) (p : Program α) (s : σ) :
    p.Leaves b.reset.isSome (p.run b s).value (p.run b s).trace := by
  induction p generalizing s with
  | done value => exact ⟨rfl, rfl⟩
  | act action next ih =>
    rw [run_act]
    exact ⟨_, _, _, b.leaves_perform action s, ih _ _, rfl⟩

/-- **A course of one program after another** is a course of the one followed by a course of
the other. -/
theorem leaves_bind {p : Program α} {f : α → Program β} {value : β} {trace : List Event} :
    (p >>= f).Leaves wired value trace ↔
      ∃ between first rest, p.Leaves wired between first ∧ (f between).Leaves wired value rest ∧
        trace = first ++ rest := by
  induction p generalizing trace with
  | done result =>
    constructor
    · exact fun h => ⟨result, [], trace, ⟨rfl, rfl⟩, h, rfl⟩
    · rintro ⟨_, _, rest, ⟨rfl, rfl⟩, h, rfl⟩
      exact h
  | act action next ih =>
    constructor
    · rintro ⟨answer, first, rest, hfirst, hrest, rfl⟩
      obtain ⟨between, middle, last, hmiddle, hlast, rfl⟩ := (ih answer).1 hrest
      exact ⟨between, first ++ middle, last, ⟨answer, first, middle, hfirst, hmiddle, rfl⟩, hlast,
        by simp⟩
    · rintro ⟨between, _, last, ⟨answer, first, middle, hfirst, hmiddle, rfl⟩, hlast, rfl⟩
      exact ⟨answer, first, middle ++ last, hfirst, (ih answer).2 ⟨_, _, _, hmiddle, hlast, rfl⟩,
        by simp⟩

/-- A single action leaves what the action leaves. -/
theorem leaves_perform {action : Action} {answer : action.Answer} {trace : List Event} :
    (perform action).Leaves wired answer trace ↔ action.Leaves wired answer trace := by
  constructor
  · rintro ⟨_, first, _, h, ⟨rfl, rfl⟩, rfl⟩
    rwa [List.append_nil]
  · exact fun h => ⟨answer, trace, [], h, ⟨rfl, rfl⟩, (List.append_nil trace).symm⟩

/-- Every event of every course is of one kind. -/
def LeavesOnly (P : Event → Prop) (p : Program α) : Prop :=
  ∀ {wired value trace}, p.Leaves wired value trace → ∀ e ∈ trace, P e

theorem leavesOnly_done {P : Event → Prop} (value : α) : (done value).LeavesOnly P := by
  rintro _ _ _ ⟨-, rfl⟩ e he
  cases he

/-- What two programs leave is of one kind if it is in each. -/
theorem LeavesOnly.bind {P : Event → Prop} {p : Program α} {f : α → Program β}
    (hp : p.LeavesOnly P) (hf : ∀ value, (f value).LeavesOnly P) : (p >>= f).LeavesOnly P := by
  intro _ _ _ h e he
  obtain ⟨between, first, rest, hfirst, hrest, rfl⟩ := leaves_bind.1 h
  rcases List.mem_append.1 he with he | he
  · exact hp hfirst e he
  · exact hf between hrest e he

end Program

/-! ### The courses of the actions -/

namespace Bus

open Program

variable {wired : Bool} {trace : List Event}

@[simp] theorem leaves_read {offset : Nat} {value : UInt32} :
    (read offset).Leaves wired value trace ↔ trace = [.read offset value] := leaves_perform

@[simp] theorem leaves_readLane {offset : Nat} {byte : UInt8} :
    (readLane offset).Leaves wired byte trace ↔ ∃ word : UInt32, byte = word.toUInt8 ∧
      (trace = [.read offset word] ∨ trace = [.readLane offset word]) := leaves_perform

@[simp] theorem leaves_write {offset : Nat} {value : UInt32} {answer : Unit} :
    (write offset value).Leaves wired answer trace ↔ trace = [.write offset value] :=
  leaves_perform

@[simp] theorem leaves_delay {us : UInt32} {answer : Unit} :
    (delay us).Leaves wired answer trace ↔ trace = [.delay us] := leaves_perform

@[simp] theorem leaves_enableClocks {ids : List String} {granted : Bool} :
    (enableClocks ids).Leaves wired granted trace ↔
      trace = [if granted then .clocksOn ids else .clocksRefused ids] := leaves_perform

@[simp] theorem leaves_disableClocks {ids : List String} {answer : Unit} :
    (disableClocks ids).Leaves wired answer trace ↔ trace = [.clocksOff ids] := leaves_perform

@[simp] theorem leaves_assertReset {granted : Bool} :
    assertReset.Leaves wired granted trace ↔
      if wired then trace = [if granted then .resetAsserted else .assertRefused]
      else granted = true ∧ trace = [] := leaves_perform

@[simp] theorem leaves_releaseReset {granted : Bool} :
    releaseReset.Leaves wired granted trace ↔
      if wired then trace = [if granted then .resetReleased else .releaseRefused]
      else granted = true ∧ trace = [] := leaves_perform

@[simp] theorem leaves_log {message : Message} {answer : Unit} :
    (log message).Leaves wired answer trace ↔ trace = [] := leaves_perform

/-! ### Programs that begin with an action -/

section

variable {α : Type} {value : α}

@[simp] theorem leaves_read_bind {offset : Nat} {f : UInt32 → Program α} :
    (read offset >>= f).Leaves wired value trace ↔
      ∃ sample rest, (f sample).Leaves wired value rest ∧ trace = .read offset sample :: rest := by
  simp [leaves_bind]

@[simp] theorem leaves_write_bind {offset : Nat} {word : UInt32} {f : Unit → Program α} :
    (write offset word >>= f).Leaves wired value trace ↔
      ∃ rest, (f ()).Leaves wired value rest ∧ trace = .write offset word :: rest := by
  simp [leaves_bind, Unique.exists_iff]

@[simp] theorem leaves_delay_bind {us : UInt32} {f : Unit → Program α} :
    (delay us >>= f).Leaves wired value trace ↔
      ∃ rest, (f ()).Leaves wired value rest ∧ trace = .delay us :: rest := by
  simp [leaves_bind, Unique.exists_iff]

@[simp] theorem leaves_log_bind {message : Message} {f : Unit → Program α} :
    (log message >>= f).Leaves wired value trace ↔ (f ()).Leaves wired value trace := by
  simp [leaves_bind, Unique.exists_iff]

end

end Bus

end FuseBank
