import FuseBank.Event
import Mathlib.Data.List.Basic

/-!
# Properties of every event with its surroundings

What is asked of the order of events is asked of each event together with those before and
after it: that an access comes while the clocks run, that one write follows another, that what
is taken is handed back later. `Trace.Throughout P` says that `P` holds of every event in this
way. It is proved piece by piece, for pieces that follow one another see each other as their
surroundings (`Trace.throughout_append`).

What is on or off, such as clocks and a reset line, is a `Switch`: it is told by some events,
and in between stays as it was.

## Main statements

* `Trace.throughout_append`: a property of all events of two pieces, piece by piece.
* `Trace.throughout_between`: what happens only between two events.
* `Switch.after_of_still`: a switch stays as it was while no event tells it.
-/

namespace FuseBank

namespace Event

/-- The register that was accessed, if one was. -/
def register? : Event → Option Nat
  | read offset _ | readLane offset _ | write offset _ => some offset
  | _ => none

/-- Whether the reset line was called. -/
def isReset : Event → Bool
  | resetAsserted | assertRefused | resetReleased | releaseRefused => true
  | _ => false

end Event

namespace Trace

/-- `P` holds of every event, with the events before and after it. -/
def Throughout (P : List Event → Event → List Event → Prop) (trace : List Event) : Prop :=
  ∀ before e after, trace = before ++ e :: after → P before e after

variable {P Q : List Event → Event → List Event → Prop}

@[simp] theorem throughout_nil : Throughout P [] := by
  intro before e after h
  simp at h

@[simp] theorem throughout_cons {e : Event} {trace : List Event} : Throughout P (e :: trace) ↔
    P [] e trace ∧ Throughout (fun before => P (e :: before)) trace := by
  constructor
  · intro h
    refine ⟨h [] e trace rfl, fun before x after hx => h (e :: before) x after ?_⟩
    rw [hx, List.cons_append]
  · rintro ⟨hfirst, hrest⟩ before x after hx
    rcases List.cons_eq_append_iff.1 hx with ⟨rfl, hx⟩ | ⟨before, rfl, rfl⟩
    · cases hx
      exact hfirst
    · exact hrest before x after rfl

/-- **A property of all events of two pieces**, piece by piece. -/
theorem throughout_append {t u : List Event} : Throughout P (t ++ u) ↔
    Throughout (fun before e after => P before e (after ++ u)) t ∧
      Throughout (fun before => P (t ++ before)) u := by
  induction t generalizing P with
  | nil => simp
  | cons e t ih => simp [ih, and_assoc]

theorem Throughout.mono {trace : List Event} (h : Throughout P trace)
    (hPQ : ∀ before e after, e ∈ trace → P before e after → Q before e after) :
    Throughout Q trace := by
  rintro before e after rfl
  exact hPQ before e after (by simp) (h before e after rfl)

/-- What holds of an event whatever surrounds it need only be known of the events that there
are. -/
theorem throughout_of_forall {trace : List Event}
    (h : ∀ e ∈ trace, ∀ before after, P before e after) : Throughout P trace := by
  rintro before e after rfl
  exact h e (by simp) before after

/-- What is asked of an event that happens once need only be known of that time. -/
theorem throughout_of_once {R : List Event → List Event → Prop} {x : Event} {t u : List Event}
    (ht : x ∉ t) (hu : x ∉ u) (h : R t u) :
    Throughout (fun before e after => e = x → R before after) (t ++ x :: u) := by
  rintro before e after hsplit rfl
  obtain ⟨rfl, -, rfl⟩ := (List.append_cons_inj_of_notMem ht hu).1 hsplit
  exact h

/-- What does not happen before one event, nor after another, happens between the two. -/
theorem throughout_between {Q : Event → Prop} {x y : Event} {t middle u : List Event}
    (ht : ∀ e ∈ t, ¬ Q e) (hx : ¬ Q x) (hy : ¬ Q y) (hu : ∀ e ∈ u, ¬ Q e) :
    Throughout (fun before e after => Q e → x ∈ before ∧ y ∈ after)
      (t ++ x :: (middle ++ y :: u)) := by
  rw [throughout_append, throughout_cons, throughout_append, throughout_cons]
  refine ⟨throughout_of_forall fun e he _ _ h => absurd h (ht e he), fun h => absurd h hx,
    throughout_of_forall fun e _ _ _ _ => ?_, fun h => absurd h hy,
    throughout_of_forall fun e he _ _ h => absurd h (hu e he)⟩
  simp

end Trace

/-- Something that is on or off, as some events tell. -/
structure Switch where
  /-- What an event sets it to, if it does. -/
  tells : Event → Option Bool

namespace Switch

/-- The position of a switch after some events. -/
def after (s : Switch) (on : Bool) (trace : List Event) : Bool :=
  trace.foldl (fun on e => (s.tells e).getD on) on

@[simp] theorem after_nil (s : Switch) (on : Bool) : s.after on [] = on := rfl

@[simp] theorem after_cons (s : Switch) (on : Bool) (e : Event) (trace : List Event) :
    s.after on (e :: trace) = s.after ((s.tells e).getD on) trace := rfl

@[simp] theorem after_append (s : Switch) (on : Bool) (t u : List Event) :
    s.after on (t ++ u) = s.after (s.after on t) u :=
  List.foldl_append

/-- **A switch stays as it was** while no event tells it. -/
theorem after_of_still {s : Switch} {trace : List Event} (h : ∀ e ∈ trace, s.tells e = none)
    (on : Bool) : s.after on trace = on := by
  induction trace with
  | nil => rfl
  | cons e trace ih =>
    rw [after_cons, h e (by simp), Option.getD_none]
    exact ih fun x hx => h x (List.mem_cons_of_mem _ hx)

theorem throughout_of_still {s : Switch} {trace : List Event}
    (h : ∀ e ∈ trace, s.tells e = none) (on : Bool) :
    Trace.Throughout (fun before _ _ => s.after on before = on) trace := by
  rintro before e after rfl
  exact after_of_still (fun x hx => h x (by simp [hx])) on

end Switch

/-- Whether the clocks run. -/
def clockSwitch : Switch where
  tells
    | .clocksOn _ => some true
    | .clocksOff _ => some false
    | _ => none

/-- Whether the reset line is asserted. A call that is refused leaves it as it is. -/
def resetSwitch : Switch where
  tells
    | .resetAsserted => some true
    | .resetReleased => some false
    | _ => none

end FuseBank
