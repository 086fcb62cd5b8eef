import FuseBank.Proofs.Leaves

/-!
# What a program tells on any board

A course of a program (`Program.Leaves`) may be followed with an ear to what is said along it:
`Program.Tells` relates what a program comes to, its events and its messages, again without a board.
The messages do not depend on the board at all, only on the branches that its answers select. Most
programs that touch the hardware say nothing (`Program.Silent`), and such a program takes no part in
what is told by one that goes on from it.

## Main statements

* `Program.tells_run`: the run of a program tells what one of its courses does.
* `Program.tells_bind`: one program after another; `Program.Silent.tells_bind`: after a silent one.
-/

namespace FuseBank

/-- What is said by an action. -/
def Action.said : Action → List Message
  | .log message => [message]
  | _ => []

/-- A board does not change what is said. -/
theorem Board.log_perform {σ : Type} (b : Board σ) (action : Action) (s : σ) :
    (b.perform action s).log = action.said := by
  cases action with
  | readLane offset => cases hlane : b.lane <;> simp [perform, hlane, Action.said]
  | assertReset => cases hreset : b.reset <;> simp [perform, hreset, Action.said, Record.still]
  | releaseReset => cases hreset : b.reset <;> simp [perform, hreset, Action.said, Record.still]
  | _ => rfl

namespace Program

variable {σ α β : Type} {wired : Bool} {p : Program α} {f : α → Program β} {trace : List Event}
  {log : List Message}

/-- A program may come to this value, leave these events and say these messages on the way. -/
def Tells (wired : Bool) : Program α → α → List Event → List Message → Prop
  | done result, value, trace, log => value = result ∧ trace = [] ∧ log = []
  | act action next, value, trace, log =>
    ∃ answer first rest later, action.Leaves wired answer first ∧
      (next answer).Tells wired value rest later ∧ trace = first ++ rest ∧
        log = action.said ++ later

/-- **The run of a program tells what one of its courses does.** -/
theorem tells_run (b : Board σ) (p : Program α) (s : σ) :
    p.Tells b.reset.isSome (p.run b s).value (p.run b s).trace (p.run b s).log := by
  induction p generalizing s with
  | done value => exact ⟨rfl, rfl, rfl⟩
  | act action next ih =>
    rw [run_act]
    exact ⟨_, _, _, _, b.leaves_perform action s, ih _ _, rfl,
      congrArg (· ++ _) (b.log_perform action s)⟩

/-- What tells leaves its events. -/
theorem Tells.leaves {value : α} (h : p.Tells wired value trace log) :
    p.Leaves wired value trace := by
  induction p generalizing trace log with
  | done result => exact ⟨h.1, h.2.1⟩
  | act action next ih =>
    obtain ⟨answer, first, rest, _, hfirst, hrest, rfl, -⟩ := h
    exact ⟨answer, first, rest, hfirst, ih answer hrest, rfl⟩

/-- **One program after another** tells what the one does and then what the other does. -/
theorem tells_bind {value : β} :
    (p >>= f).Tells wired value trace log ↔
      ∃ between first rest early late, p.Tells wired between first early ∧
        (f between).Tells wired value rest late ∧ trace = first ++ rest ∧ log = early ++ late := by
  induction p generalizing trace log with
  | done result =>
    constructor
    · exact fun h => ⟨result, [], trace, [], log, ⟨rfl, rfl, rfl⟩, h, rfl, rfl⟩
    · rintro ⟨_, _, rest, _, late, ⟨rfl, rfl, rfl⟩, h, rfl, rfl⟩
      exact h
  | act action next ih =>
    constructor
    · rintro ⟨answer, first, rest, later, hfirst, hrest, rfl, rfl⟩
      obtain ⟨between, middle, last, early, late, hmiddle, hlast, rfl, rfl⟩ := (ih answer).1 hrest
      exact ⟨between, first ++ middle, last, action.said ++ early, late,
        ⟨answer, first, middle, early, hfirst, hmiddle, rfl, rfl⟩, hlast, by simp, by simp⟩
    · rintro ⟨between, _, last, _, late, ⟨answer, first, middle, early, hfirst, hmiddle, rfl, rfl⟩,
        hlast, rfl, rfl⟩
      exact ⟨answer, first, middle ++ last, early ++ late, hfirst,
        (ih answer).2 ⟨_, _, _, _, _, hmiddle, hlast, rfl, rfl⟩, by simp, by simp⟩

/-! ### Silence -/

/-- Nothing is said on any course. -/
def Silent (p : Program α) : Prop :=
  ∀ wired value trace log, p.Tells wired value trace log → log = []

theorem silent_done (value : α) : (done value).Silent := fun _ _ _ _ h => h.2.2

theorem silent_perform {action : Action} (h : action.said = []) : (perform action).Silent := by
  rintro _ _ _ _ ⟨_, _, _, _, -, ⟨-, -, rfl⟩, -, rfl⟩
  rw [h, List.append_nil]

/-- Where two programs are silent, so is one after the other. -/
theorem Silent.bind (hp : p.Silent) (hf : ∀ value, (f value).Silent) : (p >>= f).Silent := by
  intro _ _ _ _ h
  obtain ⟨between, _, _, _, _, hfirst, hrest, rfl, rfl⟩ := tells_bind.1 h
  rw [hp _ _ _ _ hfirst, hf between _ _ _ _ hrest, List.append_nil]

/-- **After a silent program** all that is told is told by what goes on from it. -/
theorem Silent.tells_bind (hp : p.Silent) {value : β} (h : (p >>= f).Tells wired value trace log) :
    ∃ between first rest, p.Leaves wired between first ∧
      (f between).Tells wired value rest log ∧ trace = first ++ rest := by
  obtain ⟨between, first, rest, early, late, hfirst, hrest, rfl, rfl⟩ := Program.tells_bind.1 h
  obtain rfl := hp _ _ _ _ hfirst
  exact ⟨between, first, rest, hfirst.leaves, hrest, rfl⟩

end Program

/-! ### The actions -/

namespace Bus

open Program

variable {α : Type} {wired : Bool} {trace : List Event} {log : List Message}

section

variable {value : α} {f : Unit → Program α}

/-- What is said is the first of what is told. -/
@[simp] theorem tells_log_bind {message : Message} :
    (Bus.log message >>= f).Tells wired value trace log ↔
      ∃ later, (f ()).Tells wired value trace later ∧ log = message :: later := by
  constructor
  · rintro ⟨_, _, rest, later, rfl, hrest, rfl, rfl⟩
    exact ⟨later, hrest, rfl⟩
  · rintro ⟨later, hrest, rfl⟩
    exact ⟨(), [], trace, later, rfl, hrest, rfl, rfl⟩

@[simp] theorem tells_write_bind {offset : Nat} {word : UInt32} :
    (write offset word >>= f).Tells wired value trace log ↔
      ∃ rest, (f ()).Tells wired value rest log ∧ trace = .write offset word :: rest := by
  constructor
  · rintro ⟨_, _, rest, later, rfl, hrest, rfl, rfl⟩
    exact ⟨rest, hrest, rfl⟩
  · rintro ⟨rest, hrest, rfl⟩
    exact ⟨(), _, rest, log, rfl, hrest, rfl, rfl⟩

@[simp] theorem tells_delay_bind {us : UInt32} :
    (delay us >>= f).Tells wired value trace log ↔
      ∃ rest, (f ()).Tells wired value rest log ∧ trace = .delay us :: rest := by
  constructor
  · rintro ⟨_, _, rest, later, rfl, hrest, rfl, rfl⟩
    exact ⟨rest, hrest, rfl⟩
  · rintro ⟨rest, hrest, rfl⟩
    exact ⟨(), _, rest, log, rfl, hrest, rfl, rfl⟩

end

/-! ### Silent actions -/

theorem silent_read (offset : Nat) : (read offset).Silent := silent_perform rfl

theorem silent_readLane (offset : Nat) : (readLane offset).Silent := silent_perform rfl

theorem silent_write (offset : Nat) (value : UInt32) : (write offset value).Silent :=
  silent_perform rfl

theorem silent_delay (us : UInt32) : (delay us).Silent := silent_perform rfl

theorem silent_enableClocks (ids : List String) : (enableClocks ids).Silent := silent_perform rfl

theorem silent_disableClocks (ids : List String) : (disableClocks ids).Silent := silent_perform rfl

theorem silent_assertReset : assertReset.Silent := silent_perform rfl

theorem silent_releaseReset : releaseReset.Silent := silent_perform rfl

end Bus

end FuseBank
