import FuseBank.Proofs.Footprint
import FuseBank.Proofs.Life

/-!
# The reset line during reads

A call that is refused to release the reset line leaves it asserted, so whether it is asserted
hangs on all the calls before. No register is accessed while it is (`Unasserted`): through the
user interface each call begins with a reset pulse of its own, and touches registers only if
that is completed. On a board without a reset line nothing ever tells that it is asserted.

## Main statements

* `Controller.Course.unasserted`: a read, whatever came before it.
* `Controller.unasserted_records`: a row of calls.
-/

namespace FuseBank

open Register

/-- No register is accessed while the reset line is asserted. -/
def Unasserted (before : List Event) (e : Event) : Prop :=
  e.isAccess = true → resetSwitch.after false before = false

/-- Whether a call on the reset line was carried out in a read of the generation, if it leaves this
event. A line that is not wired up leaves none; its calls are carried out once the clocks run,
except by the sequencer, which makes no such call. -/
def Generation.LineObeyed (g : Generation) (wired : Bool) (clocks : List String) (call : Event)
    (trace : List Event) : Prop :=
  if wired then call ∈ trace else g ≠ .three ∧ .clocksOn clocks ∈ trace

instance (g : Generation) (wired : Bool) (clocks : List String) (call : Event)
    (trace : List Event) : Decidable (g.LineObeyed wired clocks call trace) :=
  inferInstanceAs (Decidable (if wired then _ else _))

/-- After a reset pulse that is completed the line is not asserted. Without a line it has not
been before. -/
theorem reset_after_pulse {wired : Bool} (hold : UInt32) {before : List Event}
    (h : wired = false → resetSwitch.after false before = false) :
    resetSwitch.after false (before ++ resetEvents wired hold) = false := by
  rw [Switch.after_append]
  cases wired with
  | false => rw [h rfl]; rfl
  | true => rfl

theorem unasserted_of_not_access {before trace : List Event}
    (h : ∀ e ∈ trace, e.isAccess = false) :
    Trace.Throughout (fun earlier e _ => Unasserted (before ++ earlier) e) trace := by
  refine Trace.throughout_of_forall fun e he _ _ haccess => ?_
  rw [h e he] at haccess
  cases haccess

theorem unasserted_of_still {before trace : List Event}
    (hbefore : resetSwitch.after false before = false)
    (h : ∀ e ∈ trace, resetSwitch.tells e = none) :
    Trace.Throughout (fun earlier e _ => Unasserted (before ++ earlier) e) trace := by
  refine (Switch.throughout_of_still h false).mono fun earlier e _ _ hearlier _ => ?_
  rw [Switch.after_append, hbefore]
  exact hearlier

theorem unasserted_append {before t u : List Event}
    (ht : Trace.Throughout (fun earlier e _ => Unasserted (before ++ earlier) e) t)
    (hu : Trace.Throughout (fun earlier e _ => Unasserted (before ++ t ++ earlier) e) u) :
    Trace.Throughout (fun earlier e _ => Unasserted (before ++ earlier) e) (t ++ u) := by
  simp only [List.append_assoc] at hu
  exact Trace.throughout_append.2 ⟨ht, hu⟩

theorem Event.isAccess_of_kind {e : Event} (h : e.isDelay = true ∨ e.isReset = true) :
    e.isAccess = false := by
  cases e <;> simp [isDelay, isReset] at h <;> rfl

/-- The user interface is readied with the line not asserted, whatever came before. -/
theorem EccLatch.Course.unasserted {latch : EccLatch} {t : Timing} {wired : Bool}
    {failure : Option Failure} {trace before : List Event}
    (h : latch.Course t wired failure trace)
    (hbefore : wired = false → resetSwitch.after false before = false) :
    Trace.Throughout (fun earlier e _ => Unasserted (before ++ earlier) e) trace ∧
      (failure = none → resetSwitch.after false (before ++ trace) = false) := by
  have hpulse : ∀ {completed pulse}, ResetCourse wired t.resetHold completed pulse →
      Trace.Throughout (fun earlier e _ => Unasserted (before ++ earlier) e) pulse :=
    fun hpulse => unasserted_of_not_access fun e he =>
      Event.isAccess_of_kind (kind_of_reset hpulse e he)
  have hsideband : ∀ {up polling},
      t.sidebandPoll.Course (Poll.pace t.pollTick) t.patience up polling →
      Trace.Throughout (fun earlier e _ => Unasserted (before ++ earlier) e)
          (resetEvents wired t.resetHold ++ (latch.command ++ polling)) ∧
        resetSwitch.after false
          (before ++ (resetEvents wired t.resetHold ++ (latch.command ++ polling))) = false := by
    intro up polling hpolling
    have hstill : ∀ e ∈ latch.command ++ polling, resetSwitch.tells e = none := fun e he =>
      (Event.tells_of_within (latch.within_handshake hpolling e he)).2
    have hoff := reset_after_pulse t.resetHold hbefore
    refine ⟨unasserted_append (hpulse .completed) (unasserted_of_still hoff hstill), ?_⟩
    rw [← List.append_assoc, Switch.after_append, hoff]
    exact Switch.after_of_still hstill false
  cases h with
  | notReset h => exact ⟨hpulse h, fun h => by cases h⟩
  | notSet h => exact ⟨(hsideband h).1, fun h => by cases h⟩
  | ready h => exact ⟨(hsideband h).1, fun _ => (hsideband h).2⟩

/-- **A read accesses no register while the line is asserted**, also if an earlier call has left
it so. -/
theorem Controller.Course.unasserted {c : Controller} {g : Generation}
    (hg : c.descriptor.generation = some g) (huser : g ≠ .three) {wired : Bool}
    {offset : UInt32} {buffer : List UInt8} {reply : Reply (Except Failure Nat)}
    {trace before : List Event} (h : c.Course wired offset buffer reply trace)
    (hbefore : wired = false → resetSwitch.after false before = false) :
    Trace.Throughout (fun earlier e _ => Unasserted (before ++ earlier) e) trace := by
  cases h with
  | unsupported => exact Trace.throughout_nil
  | outOfRange => exact Trace.throughout_nil
  | noClocks =>
    exact unasserted_of_not_access (by simp [Event.isAccess, Event.isRead, Event.isWrite])
  | @carriedOut g' _ _ body hg' _ _ hbody =>
    obtain rfl : g = g' := Option.some.inj (hg.symm.trans hg')
    have hswitch : ∀ {earlier e}, e.isAccess = false → Trace.Throughout
        (fun later x _ => Unasserted (earlier ++ later) x) [e] := fun he =>
      unasserted_of_not_access (by simpa using he)
    have hon : wired = false →
        resetSwitch.after false (before ++ [.clocksOn c.descriptor.clocks]) = false := fun hw => by
      rw [Switch.after_append, hbefore hw]
      rfl
    refine unasserted_append (hswitch rfl) (unasserted_append ?_ (hswitch rfl))
    cases hbody with
    | sequenced hnone =>
      obtain ⟨latch, hlatch⟩ := Generation.exists_latch huser
      rw [hlatch] at hnone
      cases hnone
    | unready _ hearly => exact (hearly.unasserted hon).1
    | @taken _ _ early inner hlatch hearly hcollected =>
      obtain ⟨hready, hoff⟩ := hearly.unasserted hon
      refine unasserted_append hready (unasserted_of_still (hoff rfl) fun e he => ?_)
      have hwithin := Generation.within_userMode (Generation.within_collected hcollected) e he
      exact (Event.tells_of_within hwithin).2

/-! ### Without a reset line -/

theorem Action.tells_of_unwired {action : Action} {answer : action.Answer} {trace : List Event}
    (h : action.Leaves false answer trace) : ∀ e ∈ trace, resetSwitch.tells e = none := by
  intro e he
  cases action with
  | readLane offset =>
    obtain ⟨word, -, rfl | rfl⟩ := h <;> obtain rfl := List.mem_singleton.1 he <;> rfl
  | enableClocks ids =>
    obtain rfl := h
    obtain rfl := List.mem_singleton.1 he
    cases answer <;> rfl
  | assertReset | releaseReset =>
    obtain ⟨-, rfl⟩ : answer = true ∧ trace = [] := h
    cases he
  | log message =>
    obtain rfl := h
    cases he
  | _ =>
    obtain rfl := h
    obtain rfl := List.mem_singleton.1 he
    rfl

theorem Program.tells_of_unwired {α : Type} {p : Program α} {value : α} {trace : List Event}
    (h : p.Leaves false value trace) : ∀ e ∈ trace, resetSwitch.tells e = none := by
  induction p generalizing trace with
  | done => simp [h.2]
  | act action next ih =>
    obtain ⟨answer, first, rest, hfirst, hrest, rfl⟩ := h
    intro e he
    rcases List.mem_append.1 he with he | he
    · exact Action.tells_of_unwired hfirst e he
    · exact ih answer hrest e he

/-! ### Calls -/

/-- No register is accessed while the line is asserted in a life of a controller that uses the
user interface. -/
theorem Controller.unasserted_records {σ : Type} (b : Board σ) {c : Controller} {g : Generation}
    (hg : c.descriptor.generation = some g) (huser : g ≠ .three) (s : σ) (calls : List Call) :
    Trace.Throughout (fun before e _ => Unasserted before e)
      ((c.records b s calls).flatMap Record.trace) := by
  refine Controller.throughout_records b c
    (fun before => b.reset.isSome = false → resetSwitch.after false before = false) Unasserted
    (fun before call s' hbefore => ⟨?_, fun hw => ?_⟩) s calls fun _ => rfl
  · rcases leaves_call (Program.leaves_run b (c.call call) s')
      with ⟨hnil, -⟩ | ⟨offset, buffer, inner, hread, -⟩
    · rw [hnil]
      exact Trace.throughout_nil
    · exact (course_of_leaves hread).unasserted hg huser hbefore
  · have hleaves := Program.leaves_run b (c.call call) s'
    rw [hw] at hleaves
    rw [Switch.after_append, hbefore hw]
    exact Switch.after_of_still (Program.tells_of_unwired hleaves) false

end FuseBank
