import FuseBank.Bench
import FuseBank.Proofs.Footprint
import FuseBank.Proofs.Life
import FuseBank.Window

/-!
# Accesses stay inside the register window

The registers of a controller are reached through a window of as many bytes as its generation
says (`Generation.windowLength`). The window does not look at the offset of an access: one that
lies beyond its end, or across two registers, reaches memory that belongs to something else. So
a controller must not make any, whatever it is asked for and whatever the hardware answers. It
does not: a read touches the registers of its footprint, and these lie in the window.

## The model

`Program.through` runs a program as `Program.run` does, but looks at each access before it is
made. Where one is not to a register of the window there is no record at all, for nothing is
known of such a run. `Descriptor.liveThrough` is the life of a controller in this way.

## Main statements

* `Generation.liesIn_footprint`: all that a read touches lies in the window.
* `Program.through_eq`: a run through a window is the run itself if all its accesses are to
  registers of the window, and there is none otherwise.
* `accesses_stay_in_window`: a whole life.
-/

namespace FuseBank

open Register

/-! ### Accesses that keep to a window -/

/-- The register that an action accesses, if it accesses one. -/
def Action.register? : Action → Option Nat
  | .read offset | .readLane offset | .write offset _ => some offset
  | _ => none

/-- An action accesses no register but those in a window of `length` bytes. -/
def Action.KeepsTo (length : Nat) (action : Action) : Prop :=
  ∀ register ∈ action.register?, LiesIn register length

/-- What happened was an access to no register but those in a window of `length` bytes. -/
def Event.KeepsTo (length : Nat) (e : Event) : Prop :=
  ∀ register ∈ e.register?, LiesIn register length

instance (length : Nat) (action : Action) : Decidable (action.KeepsTo length) :=
  inferInstanceAs (Decidable (∀ register ∈ action.register?, LiesIn register length))

instance (length : Nat) (e : Event) : Decidable (e.KeepsTo length) :=
  inferInstanceAs (Decidable (∀ register ∈ e.register?, LiesIn register length))

theorem Event.keepsTo_of_none {e : Event} (h : e.register? = none) (length : Nat) :
    e.KeepsTo length := by
  intro register hmem
  rw [h] at hmem
  cases hmem

theorem Board.registers_perform {σ : Type} (b : Board σ) (action : Action) (s : σ) :
    (b.perform action s).trace.filterMap Event.register? = action.register?.toList := by
  cases action with
  | readLane offset =>
    cases hlane : b.lane <;> simp [perform, hlane, Event.register?, Action.register?]
  | enableClocks ids =>
    cases hgranted : (b.enableClocks ids s).1 <;>
      simp [perform, hgranted, Event.register?, Action.register?]
  | assertReset =>
    cases hreset : b.reset with
    | none => simp [perform, hreset, Record.still, Action.register?]
    | some line =>
      cases hasserted : (line.assert s).1 <;>
        simp [perform, hreset, hasserted, Event.register?, Action.register?]
  | releaseReset =>
    cases hreset : b.reset with
    | none => simp [perform, hreset, Record.still, Action.register?]
    | some line =>
      cases hreleased : (line.release s).1 <;>
        simp [perform, hreset, hreleased, Event.register?, Action.register?]
  | _ => rfl

theorem Board.keepsTo_perform {σ : Type} {length : Nat} (b : Board σ) (action : Action) (s : σ) :
    (∀ e ∈ (b.perform action s).trace, e.KeepsTo length) ↔ action.KeepsTo length := by
  have hregisters : (∀ e ∈ (b.perform action s).trace, e.KeepsTo length) ↔
      ∀ register ∈ (b.perform action s).trace.filterMap Event.register?,
        LiesIn register length := by
    simp only [List.mem_filterMap, forall_exists_index, and_imp]
    exact ⟨fun h register e he hreg => h e he register hreg,
      fun h e he register hreg => h register e he hreg⟩
  rw [hregisters, b.registers_perform]
  simp [Action.KeepsTo]

theorem Event.KeepsTo.mono {length length' : Nat} (h : length ≤ length') {e : Event}
    (he : e.KeepsTo length) : e.KeepsTo length' := fun register hmem =>
  ⟨(he register hmem).aligned, (he register hmem).within.trans h⟩

/-! ### Runs through a window -/

section

variable {σ α : Type} (length : Nat) (b : Board σ)

/-- The run of a program through a window of `length` bytes. There is none if it makes an access
that is not to a register of the window. -/
def Program.through : Program α → σ → Option (Record σ α)
  | done value, s => some (.still value s)
  | act action next, s =>
    if action.KeepsTo length then
      let r := b.perform action s
      ((next r.value).through r.state).map fun rest => r.andThen fun _ _ => rest
    else none

/-- **A run through a window is the run itself** if all its accesses are to registers of the
window, and there is none otherwise. -/
theorem Program.through_eq (p : Program α) (s : σ) :
    p.through length b s =
      if ∀ e ∈ (p.run b s).trace, e.KeepsTo length then some (p.run b s) else none := by
  induction p generalizing s with
  | done value => simp [through, Record.still]
  | act action next ih =>
    simp only [through, ih, run_act, Record.andThen, List.forall_mem_append, b.keepsTo_perform]
    by_cases hfirst : action.KeepsTo length
    · simp only [hfirst, if_true, true_and]
      split <;> rfl
    · simp only [hfirst, if_false, false_and]

/-- The records of some calls, one after the other, through a window of `length` bytes. -/
def Controller.recordsThrough (c : Controller) (s : σ) :
    List Call → Option (List (Record σ (Reply CallResult)))
  | [] => some []
  | call :: calls => do
    let first ← (c.call call).through length b s
    let rest ← c.recordsThrough first.state calls
    return first :: rest

/-- The life of a controller whose registers are reached through a window of `length` bytes. -/
def Descriptor.liveThrough (d : Descriptor) (t : Timing) (s : σ) (calls : List Call) :
    Option (Life σ) := do
  let attached ← (Controller.attach d t).through length b s
  match attached.value with
  | .error _ => return ⟨attached, []⟩
  | .ok c => return ⟨attached, ← c.recordsThrough length b attached.state calls⟩

end

/-! ### Reads -/

/-- **All that a read touches lies in the window** of its generation. -/
theorem Generation.liesIn_footprint (g : Generation) :
    ∀ register ∈ g.footprint, LiesIn register g.windowLength := by
  cases g <;> decide

namespace Controller

variable {wired : Bool} {trace : List Event} {c : Controller} {g : Generation}
  (hg : c.descriptor.generation = some g)

include hg

/-- A read touches registers of the window only. -/
theorem Course.keepsTo {offset : UInt32} {buffer : List UInt8}
    {reply : Reply (Except Failure Nat)} (h : c.Course wired offset buffer reply trace) :
    ∀ e ∈ trace, e.KeepsTo g.windowLength := by
  cases h with
  | unsupported | outOfRange => simp
  | noClocks =>
    intro e he
    obtain rfl := List.mem_singleton.1 he
    exact Event.keepsTo_of_none rfl _
  | @carriedOut g' _ _ body hg' _ _ hbody =>
    obtain rfl : g = g' := Option.some.inj (hg.symm.trans hg')
    have hread : ∀ e ∈ body, e.KeepsTo g.windowLength := by
      intro e he
      rcases Generation.within_carriedOut hbody e he with hreset | hwithin
      · exact Event.keepsTo_of_none (Event.register?_of_isReset hreset) _
      · exact fun register hmem => g.liesIn_footprint register (Event.mem_of_within hwithin hmem)
    intro e he
    simp only [List.mem_cons, List.mem_append, List.not_mem_nil, or_false] at he
    rcases he with rfl | he | rfl
    · exact Event.keepsTo_of_none rfl _
    · exact hread e he
    · exact Event.keepsTo_of_none rfl _

theorem keepsTo_of_leaves {call : Call} {reply : Reply CallResult}
    (h : (c.call call).Leaves wired reply trace) : ∀ e ∈ trace, e.KeepsTo g.windowLength := by
  rcases leaves_call h with ⟨rfl, -⟩ | ⟨offset, buffer, inner, hread, -⟩
  · simp
  · exact (course_of_leaves hread).keepsTo hg

theorem recordsThrough_eq {σ : Type} {length : Nat} (hlength : g.windowLength ≤ length)
    (b : Board σ) (s : σ) (calls : List Call) :
    c.recordsThrough length b s calls = some (c.records b s calls) := by
  induction calls generalizing s with
  | nil => rfl
  | cons call calls ih =>
    have hfirst : (c.call call).through length b s = some ((c.call call).run b s) := by
      rw [Program.through_eq, if_pos]
      exact fun e he => .mono hlength (keepsTo_of_leaves hg (Program.leaves_run b _ s) e he)
    simp [recordsThrough, hfirst, ih, records]

end Controller

/-! ### Lives -/

theorem Descriptor.liveThrough_of_no_setup {σ : Type} {d : Descriptor} (h : d.setup = none)
    (length : Nat) (b : Board σ) (t : Timing) (s : σ) (calls : List Call) :
    d.liveThrough length b t s calls =
      ((⟨d, t⟩ : Controller).recordsThrough length b s calls).map fun records =>
        ⟨(Controller.attach d t).run b s, records⟩ := by
  have hattach : (Controller.attach d t).run b s =
      ⟨.ok ⟨d, t⟩, s, [], [.attached d.size]⟩ := by
    simp [Controller.attach, h, Record.andThen, Record.still]
  have hthrough : (Controller.attach d t).through length b s =
      some ((Controller.attach d t).run b s) := by
    rw [Program.through_eq, if_pos]
    simp [hattach]
  rw [liveThrough, hthrough, hattach]
  exact (Option.map_eq_bind ..).symm

/-- **Every access stays inside the register window**, whatever is asked for and whatever the
hardware answers: it is to a register that lies in the window of the generation. So in a life
through any window that is as long, every access is to a register of the window. -/
theorem accesses_stay_in_window {σ : Type} {d : Descriptor} {g : Generation}
    (hg : d.generation = some g) (hsetup : d.setup = none) (t : Timing) (b : Board σ) (s : σ)
    (calls : List Call) :
    (∀ e ∈ (d.live t b s calls).trace, ∀ register, e.register? = some register →
      LiesIn register g.windowLength) ∧
    ∀ length, g.windowLength ≤ length →
      d.liveThrough length b t s calls = some (d.live t b s calls) := by
  obtain ⟨hattached, hcalls⟩ := Descriptor.live_of_no_setup hsetup t b s calls
  constructor
  · intro e he register hreg
    rw [Life.trace, hattached, hcalls, List.nil_append] at he
    obtain ⟨r, hr, he⟩ := List.mem_flatMap.1 he
    obtain ⟨call, -, s', rfl⟩ := Controller.exists_of_mem_records b _ hr
    have hleaves := Program.leaves_run b ((⟨d, t⟩ : Controller).call call) s'
    exact Controller.keepsTo_of_leaves (c := ⟨d, t⟩) hg hleaves e he register hreg
  · intro length hlength
    rw [Descriptor.liveThrough_of_no_setup hsetup,
      Controller.recordsThrough_eq (c := ⟨d, t⟩) hg hlength, Option.map_some, ← hcalls]
    rfl

/-- A window that ends with the status register of the sequencer is just long enough for it, and one
that ends before it is too short. -/
theorem accesses_stay_in_window_exact :
    let b : Board (Bench Window) := Bench.board { byteLane := true }
    let s : Bench Window := ⟨(Window.zeros 0x88).store Sequencer.status Sequencer.done, {}⟩
    let l := Descriptor.rk3588.live {} b s [.read 3 [0, 0]]
    .read Sequencer.status Sequencer.done ∈ l.trace ∧ LiesIn Sequencer.status 0x88 ∧
      Descriptor.rk3588.liveThrough 0x88 b {} s [.read 3 [0, 0]] = some l ∧
      (Descriptor.rk3588.liveThrough 0x84 b {} s [.read 3 [0, 0]]).isNone = true := by
  intro b s l
  have hread : .read Sequencer.status Sequencer.done ∈ l.trace := by decide +kernel
  have hshort : (Descriptor.rk3588.liveThrough 0x84 b {} s [.read 3 [0, 0]]).isNone = true := by
    decide +kernel
  obtain ⟨hwindow, hthrough⟩ :=
    accesses_stay_in_window (d := .rk3588) (g := .three) rfl rfl {} b s [.read 3 [0, 0]]
  exact ⟨hread, hwindow _ hread _ rfl, hthrough 0x88 (by decide), hshort⟩

end FuseBank
