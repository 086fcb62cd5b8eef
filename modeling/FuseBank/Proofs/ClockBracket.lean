import FuseBank.Proofs.Footprint
import FuseBank.Proofs.Life

/-!
# Clocks run during reads and at no other time

A controller's life begins with the setup of its bank, which accesses registers and does
nothing else. Then each call leaves one of three kinds of events (`Bracketed`): none at all,
if it is turned down; the refusal of the clocks; or the work of a read between switching the
clocks on and switching the same clocks off, however the read ends. So the clocks run before
each access of a call, they are never switched on twice, and they are off between the calls.

## Main statements

* `Controller.bracketed_of_leaves`: the three kinds of calls.
* `clocks_bracket_calls`: a whole life.
-/

namespace FuseBank

open Register

/-- The events of a call with this result, between the clocks being switched. -/
inductive Bracketed (ids : List String) : Except Failure Nat → List Event → Prop
  /-- The call is turned down, and nothing happens. -/
  | nothing {failure : Failure}
      (h : failure = .unsupported ∨ failure = .outOfRange ∨ failure = .invalidLength) :
      Bracketed ids (.error failure) []
  /-- The clocks are refused, and nothing else happens. -/
  | refused : Bracketed ids (.error .clockFailure) [.clocksRefused ids]
  /-- The clocks are switched on, the read is carried out, and the clocks are switched off. -/
  | carriedOut {result : Except Failure Nat} {body : List Event}
      (hresult : ∀ failure, result = .error failure → failure = .resetFailure ∨
        failure = .sidebandTimeout ∨ failure = .pollTimeout ∨ failure = .integrityFault)
      (hbody : ∀ e ∈ body, e.isAccess = true ∨ e.isReset = true ∨ e.isDelay = true) :
      Bracketed ids result (.clocksOn ids :: (body ++ [.clocksOff ids]))

/-! ### The setup -/

theorem Setup.leavesOnly_program (setup : Setup) :
    setup.program.LeavesOnly fun e => e.isAccess = true := by
  induction setup with
  | finish failure => exact Program.leavesOnly_done _
  | read offset next ih =>
    refine Program.LeavesOnly.bind ?_ ih
    rintro _ value _ h e he
    obtain rfl := Bus.leaves_read.1 h
    obtain rfl := List.mem_singleton.1 he
    rfl
  | readLane offset next ih =>
    refine Program.LeavesOnly.bind ?_ ih
    rintro _ byte _ h e he
    obtain ⟨word, -, rfl | rfl⟩ := Bus.leaves_readLane.1 h <;>
      obtain rfl := List.mem_singleton.1 he <;> rfl
  | write offset value next ih =>
    refine Program.LeavesOnly.bind ?_ fun _ => ih
    rintro _ _ _ h e he
    obtain rfl := Bus.leaves_write.1 h
    obtain rfl := List.mem_singleton.1 he
    rfl

theorem Descriptor.leavesOnly_prepare (d : Descriptor) :
    d.prepare.LeavesOnly fun e => e.isAccess = true := by
  rw [prepare]
  split
  · exact Program.leavesOnly_done _
  · exact Setup.leavesOnly_program _

/-! ### Calls -/

namespace Controller

variable {wired : Bool} {trace : List Event} {c : Controller}

theorem Course.bracketed {offset : UInt32} {buffer : List UInt8}
    {reply : Reply (Except Failure Nat)} (h : c.Course wired offset buffer reply trace) :
    Bracketed c.descriptor.clocks reply.result trace := by
  cases h with
  | unsupported => exact .nothing (.inl rfl)
  | outOfRange => exact .nothing (.inr (.inl rfl))
  | noClocks => exact .refused
  | @carriedOut g _ delivery body hg ha hlast hbody =>
    refine .carriedOut (fun failure hfailure => ?_) fun e he => ?_
    · exact Generation.failure_of_carriedOut hbody (Delivery.failure_of_reply hfailure)
    · rcases Generation.within_carriedOut hbody e he with hreset | hdelay | ⟨register, -, hreg⟩
      · exact .inr (.inl hreset)
      · exact .inr (.inr hdelay)
      · exact .inl (Event.isAccess_of_register? hreg)

/-- **A call is of one of the three kinds**, whichever way it comes in. -/
theorem bracketed_of_leaves {call : Call} {reply : Reply CallResult}
    (h : (c.call call).Leaves wired reply trace) : ∃ result,
      reply.result = call.put result ∧ Bracketed c.descriptor.clocks result trace := by
  rcases leaves_call h with ⟨rfl, hput⟩ | ⟨offset, buffer, inner, hread, hput⟩
  · exact ⟨_, hput, .nothing (.inr (.inr rfl))⟩
  · exact ⟨inner.result, hput, (course_of_leaves hread).bracketed⟩

end Controller

/-! ### Clocks during calls -/

/-- The clocks run before an access, and they do not run before they are switched on. -/
def ClocksFit (before : List Event) (e : Event) : Prop :=
  (e.isAccess = true → clockSwitch.after false before = true) ∧
    ∀ ids, e = .clocksOn ids → clockSwitch.after false before = false

theorem clocks_of_kind {e : Event}
    (h : e.isAccess = true ∨ e.isReset = true ∨ e.isDelay = true) :
    clockSwitch.tells e = none := by
  cases e <;> first | rfl | simp [Event.isAccess, Event.isRead, Event.isWrite, Event.isReset,
    Event.isDelay] at h

/-- The clocks are off after a call, as they were before it. -/
theorem Bracketed.after {ids : List String} {result : Except Failure Nat} {trace : List Event}
    (h : Bracketed ids result trace) : clockSwitch.after false trace = false := by
  cases h with
  | nothing => rfl
  | refused => rfl
  | carriedOut _ hbody =>
    rw [Switch.after_cons, Switch.after_append,
      Switch.after_of_still fun e he => clocks_of_kind (hbody e he)]
    rfl

theorem Bracketed.throughout {ids : List String} {result : Except Failure Nat}
    {trace before : List Event} (h : Bracketed ids result trace)
    (hbefore : clockSwitch.after false before = false) :
    Trace.Throughout (fun earlier e _ => ClocksFit (before ++ earlier) e) trace := by
  cases h with
  | nothing => exact Trace.throughout_nil
  | refused => simp [ClocksFit, Event.isAccess, Event.isRead, Event.isWrite]
  | @carriedOut _ body _ hbody =>
    have hstill : ∀ e ∈ body, clockSwitch.tells e = none := fun e he => clocks_of_kind (hbody e he)
    have hon : clockSwitch.after false (before ++ [.clocksOn ids]) = true := by
      simp [clockSwitch]
    rw [Trace.throughout_cons, Trace.throughout_append]
    refine ⟨⟨fun h => (by cases h), fun _ _ => by simpa using hbefore⟩, ?_, by
      simp [ClocksFit, Event.isAccess, Event.isRead, Event.isWrite]⟩
    refine (Switch.throughout_of_still hstill true).mono fun earlier e later he hafter => ?_
    have hnow : clockSwitch.after false (before ++ .clocksOn ids :: earlier) = true := by
      rw [List.append_cons, Switch.after_append, hon]
      exact hafter
    refine ⟨fun _ => hnow, ?_⟩
    rintro ids' rfl
    cases hstill _ he

theorem clocks_after_flatMap {σ α : Type} {records : List (Record σ α)}
    (h : ∀ r ∈ records, clockSwitch.after false r.trace = false) :
    clockSwitch.after false (records.flatMap Record.trace) = false := by
  induction records with
  | nil => rfl
  | cons r records ih =>
    rw [List.flatMap_cons, Switch.after_append, h r (by simp)]
    exact ih fun r hr => h r (List.mem_cons_of_mem _ hr)

/-- **The clocks run during reads and at no other time.** A life is the preparation, which
accesses registers and does nothing else, and if that does not fail one piece for each call,
which is of one of the three kinds. So the clocks fit all that the calls do, and they are off
after any number of calls. -/
theorem clocks_bracket_calls {σ : Type} (d : Descriptor) (t : Timing) (b : Board σ) (s : σ)
    (calls : List Call) :
    let l := d.live t b s calls
    let p := d.prepare.run b s
    l.trace = p.trace ++ l.calls.flatMap Record.trace ∧ (∀ e ∈ p.trace, e.isAccess = true) ∧
      match p.value with
      | some failure => l.attached.value = .error failure ∧ l.calls = []
      | none => l.attached.value = .ok ⟨d, t⟩ ∧
        List.Forall₂ (fun call r => ∃ result, r.value.result = call.put result ∧
          Bracketed d.clocks result r.trace) calls l.calls ∧
        Trace.Throughout (fun before e _ => ClocksFit before e) (l.calls.flatMap Record.trace) ∧
        ∀ k, clockSwitch.after false ((l.calls.take k).flatMap Record.trace) = false := by
  intro l p
  obtain ⟨htrace, hcalls⟩ := d.live_eq t b s calls
  have haccess : ∀ e ∈ p.trace, e.isAccess = true :=
    d.leavesOnly_prepare (Program.leaves_run b d.prepare s)
  refine ⟨congrArg (· ++ _) htrace, haccess, ?_⟩
  have hkind : ∀ call s', ∃ result,
      (((⟨d, t⟩ : Controller).call call).run b s').value.result = call.put result ∧
        Bracketed d.clocks result (((⟨d, t⟩ : Controller).call call).run b s').trace :=
    fun call s' => Controller.bracketed_of_leaves (Program.leaves_run b _ s')
  cases hp : p.value with
  | some failure =>
    rw [show (d.prepare.run b s).value = some failure from hp] at hcalls
    exact hcalls
  | none =>
    rw [show (d.prepare.run b s).value = none from hp] at hcalls
    obtain ⟨hvalue, hrecords⟩ := hcalls
    rw [show l.calls = _ from hrecords]
    refine ⟨hvalue, ?_, ?_, fun k => clocks_after_flatMap fun r hr => ?_⟩
    · exact Controller.forall₂_records (R := fun call r => ∃ result,
        r.value.result = call.put result ∧ Bracketed d.clocks result r.trace) b _ hkind _ calls
    · refine Controller.throughout_records b _
        (fun before => clockSwitch.after false before = false) ClocksFit
        (fun before call s' hbefore => ?_) _ calls rfl
      obtain ⟨result, -, hbracketed⟩ := hkind call s'
      refine ⟨hbracketed.throughout hbefore, ?_⟩
      rw [Switch.after_append, hbefore, hbracketed.after]
    · obtain ⟨call, -, s', rfl⟩ :=
        Controller.exists_of_mem_records b _ (List.mem_of_mem_take hr)
      obtain ⟨result, -, hbracketed⟩ := hkind call s'
      exact hbracketed.after

/-- A bank that is set up with one write. Its first call reads a word between the two switches, and
its second one asks for more than its buffer holds, so nothing happens. -/
theorem clocks_bracket_two_calls :
    let d : Descriptor := { Descriptor.rk3588 with setup := some (.write 0x10 1 (.finish none)) }
    let s : Bench Bench.Device := ⟨{ layout := .words, fuses := #[1, 2, 3, 4] }, {}⟩
    let l := d.live {} (Bench.board {}) s [.read 0 [0, 0, 0, 0], .statusRead 0 2 [0]]
    let work : List Event := [.write Sequencer.control 0x03000100, .write Sequencer.trigger 1,
      .read Sequencer.status 2, .write Sequencer.status 2, .read Sequencer.data 0x04030201]
    l.attached.trace = [.write 0x10 1] ∧
      l.calls.map Record.trace = [.clocksOn d.clocks :: (work ++ [.clocksOff d.clocks]), []] ∧
      Trace.Throughout (fun before e _ => ClocksFit before e) (l.calls.flatMap Record.trace) ∧
      ∀ k, clockSwitch.after false ((l.calls.take k).flatMap Record.trace) = false := by
  intro d s l work
  have hcalls : l.calls.map Record.trace =
      [.clocksOn d.clocks :: (work ++ [.clocksOff d.clocks]), []] := by
    decide +kernel
  obtain ⟨-, -, -, -, hfit, hoff⟩ := clocks_bracket_calls d {} (Bench.board {}) s
    [.read 0 [0, 0, 0, 0], .statusRead 0 2 [0]]
  exact ⟨rfl, hcalls, hfit, hoff⟩

end FuseBank
