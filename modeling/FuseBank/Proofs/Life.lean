import FuseBank.Controller
import FuseBank.Proofs.Leaves
import FuseBank.Proofs.Throughout

/-!
# The life of a controller

A controller is attached to a board, and then called any number of times. Its life is the
record of its attaching and one record for each of its calls, each from where the one before
has left the board; if it is not attached, nothing follows.

A property of every event of a life is proved call by call, with what holds between two calls
as the invariant (`Controller.throughout_records`).

## Main statements

* `Controller.leaves_call`: a call does what a read does, and puts its result in its own way,
  or is turned down at once.
* `Controller.forall₂_records`: what holds of every call from any state holds of each record.
-/

namespace FuseBank

/-- How a call puts the result of the read that it makes. -/
def Call.put : Call → Except Failure Nat → CallResult
  | read _ _, result => .count result
  | storageRead _ _, result => .storage (result.map fun _ => ())
  | statusRead _ _ _, result => .status (Controller.status result)

/-- What there is to know about a controller once it has been called for the last time. -/
structure Life (σ : Type) where
  /-- How it was attached. -/
  attached : Record σ (Except Failure Controller)
  /-- How each call went, in order. -/
  calls : List (Record σ (Reply CallResult))

/-- All that happened in a life. -/
def Life.trace {σ : Type} (l : Life σ) : List Event :=
  l.attached.trace ++ l.calls.flatMap Record.trace

namespace Controller

/-- **A call does what a read does**, and puts its result in its own way, or it is turned down
at once, and nothing happens. -/
theorem leaves_call {c : Controller} {wired : Bool} {call : Call} {reply : Reply CallResult}
    {trace : List Event} (h : (c.call call).Leaves wired reply trace) :
    (trace = [] ∧ reply.result = call.put (.error .invalidLength)) ∨
      ∃ offset buffer inner, (c.read offset buffer).Leaves wired inner trace ∧
        reply.result = call.put inner.result := by
  cases call with
  | read offset buffer =>
    obtain ⟨inner, first, rest, hread, ⟨rfl, rfl⟩, rfl⟩ := Program.leaves_bind.1 h
    exact .inr ⟨offset, buffer, inner, by simpa [read] using hread, rfl⟩
  | storageRead offset buffer =>
    obtain ⟨_, _, rest, hstorage, ⟨rfl, rfl⟩, rfl⟩ := Program.leaves_bind.1 h
    obtain ⟨inner, first, rest, hread, ⟨rfl, rfl⟩, rfl⟩ := Program.leaves_bind.1 hstorage
    exact .inr ⟨offset, buffer, inner, by simpa [read] using hread, rfl⟩
  | statusRead offset bytes buffer =>
    obtain ⟨_, _, rest, hstatus, ⟨rfl, rfl⟩, rfl⟩ := Program.leaves_bind.1 h
    rw [statusRead] at hstatus
    split at hstatus
    · obtain ⟨rfl, rfl⟩ := hstatus
      exact .inl ⟨rfl, rfl⟩
    · obtain ⟨inner, first, rest, hread, ⟨rfl, rfl⟩, rfl⟩ := Program.leaves_bind.1 hstatus
      exact .inr ⟨offset, buffer.take bytes, inner, by simpa [read] using hread, rfl⟩

/-! ### Rows of calls -/

variable {σ : Type} (b : Board σ) (c : Controller)

/-- The records of some calls, one after the other. -/
def records (s : σ) : List Call → List (Record σ (Reply CallResult))
  | [] => []
  | call :: calls =>
    (c.call call).run b s :: records ((c.call call).run b s).state calls

theorem forall₂_records {R : Call → Record σ (Reply CallResult) → Prop}
    (h : ∀ call s, R call ((c.call call).run b s)) (s : σ) (calls : List Call) :
    List.Forall₂ R calls (c.records b s calls) := by
  induction calls generalizing s with
  | nil => exact .nil
  | cons call calls ih => exact .cons (h call s) (ih _)

theorem exists_of_mem_records {s : σ} {calls : List Call} {r : Record σ (Reply CallResult)}
    (hr : r ∈ c.records b s calls) : ∃ call ∈ calls, ∃ s', r = (c.call call).run b s' := by
  induction calls generalizing s with
  | nil => cases hr
  | cons call calls ih =>
    rcases List.mem_cons.1 hr with rfl | hr
    · exact ⟨call, by simp, s, rfl⟩
    · obtain ⟨later, hmem, s', rfl⟩ := ih hr
      exact ⟨later, List.mem_cons_of_mem _ hmem, s', rfl⟩

/-- **A property of every event of some calls**, call by call: `Between` says what holds of the
events so far between two calls. -/
theorem throughout_records (Between : List Event → Prop) (P : List Event → Event → Prop)
    (step : ∀ before call s, Between before →
      Trace.Throughout (fun earlier e _ => P (before ++ earlier) e)
          ((c.call call).run b s).trace ∧
        Between (before ++ ((c.call call).run b s).trace))
    (s : σ) (calls : List Call) (hstart : Between []) :
    Trace.Throughout (fun before e _ => P before e)
      ((c.records b s calls).flatMap Record.trace) := by
  suffices h : ∀ before, Between before → Trace.Throughout
      (fun earlier e _ => P (before ++ earlier) e) ((c.records b s calls).flatMap Record.trace) from
    h [] hstart
  induction calls generalizing s with
  | nil => exact fun _ _ => Trace.throughout_nil
  | cons call calls ih =>
    intro before hbefore
    obtain ⟨hfirst, hbetween⟩ := step before call s hbefore
    have hrest := ih ((c.call call).run b s).state _ hbetween
    simp only [records, List.flatMap_cons, Trace.throughout_append, ← List.append_assoc]
    exact ⟨hfirst, hrest⟩

end Controller

namespace Descriptor

variable {σ : Type}

/-- What is done once, when a controller is attached: nothing, or the setup. -/
def prepare (d : Descriptor) : Program (Option Failure) :=
  match d.setup with
  | none => return none
  | some setup => setup.program

/-- The life of a controller of a bank: it is attached, and then called. -/
def live (d : Descriptor) (t : Timing) (b : Board σ) (s : σ) (calls : List Call) : Life σ where
  attached := (Controller.attach d t).run b s
  calls :=
    match ((Controller.attach d t).run b s).value with
    | .error _ => []
    | .ok c => c.records b ((Controller.attach d t).run b s).state calls

theorem attach_eq (d : Descriptor) (t : Timing) : Controller.attach d t = (do
    match ← d.prepare with
    | some failure => return .error failure
    | none =>
      Bus.log (.attached d.size)
      return .ok ⟨d, t⟩) := by
  rw [Controller.attach, prepare]
  cases d.setup <;> rfl

/-- **A life begins with the preparation**, and there is one exactly if that does not fail. -/
theorem live_eq (d : Descriptor) (t : Timing) (b : Board σ) (s : σ) (calls : List Call) :
    (d.live t b s calls).attached.trace = (d.prepare.run b s).trace ∧
      match (d.prepare.run b s).value with
      | some failure => (d.live t b s calls).attached.value = .error failure ∧
          (d.live t b s calls).calls = []
      | none => (d.live t b s calls).attached.value = .ok ⟨d, t⟩ ∧
          (d.live t b s calls).calls =
            (⟨d, t⟩ : Controller).records b (d.prepare.run b s).state calls := by
  rw [live, attach_eq]
  cases h : (d.prepare.run b s).value <;> simp [Record.andThen, Record.still, h]

theorem live_of_no_setup {d : Descriptor} (h : d.setup = none) (t : Timing) (b : Board σ) (s : σ)
    (calls : List Call) : (d.live t b s calls).attached.trace = [] ∧
      (d.live t b s calls).calls = (⟨d, t⟩ : Controller).records b s calls := by
  have hprepare : d.prepare = .done none := by
    rw [prepare, h]
    rfl
  obtain ⟨htrace, hcalls⟩ := live_eq d t b s calls
  rw [hprepare] at htrace hcalls
  exact ⟨htrace, hcalls.2⟩

end Descriptor

end FuseBank
