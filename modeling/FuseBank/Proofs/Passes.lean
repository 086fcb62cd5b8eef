import FuseBank.Proofs.Outcome

/-!
# The passes of a run

What a run comes to tells where it has left the board, but not what the board was like on the
way. A *pass* is a single action of a run, with the board before it and after it. What is asked
of a board at the moment at which something happens to it is asked of the passes of a run.

The passes of one program after another are those of the one and then those of the other, from
where the first has left off (`Program.passes_bind`), and the events of a run are those of its
passes (`Program.trace_passes`), so what is known of the events of a run is known of each pass.

## Main statements

* `Program.passes_keep`: what every pass of a run keeps holds before and after each of them.
-/

namespace FuseBank

/-- A single action of a run. -/
structure Pass (σ : Type) where
  /-- The board before it. -/
  before : σ
  /-- What happened. -/
  trace : List Event
  /-- The board after it. -/
  after : σ

namespace Program

variable {σ α β : Type} (b : Board σ)

/-- The passes of a run, in order. -/
def passes : Program α → σ → List (Pass σ)
  | done _, _ => []
  | act action next, s =>
    ⟨s, (b.perform action s).trace, (b.perform action s).state⟩ ::
      (next (b.perform action s).value).passes (b.perform action s).state

@[simp] theorem passes_done (value : α) (s : σ) : (done value).passes b s = [] := rfl

@[simp] theorem passes_log (message : Message) (s : σ) :
    (Bus.log message).passes b s = [⟨s, [], s⟩] := rfl

/-- The passes of one program after another. -/
theorem passes_bind (p : Program α) (f : α → Program β) (s : σ) :
    (p >>= f).passes b s =
      p.passes b s ++ (f (p.outcome b s).1).passes b (p.outcome b s).2 := by
  induction p generalizing s with
  | done value => rfl
  | act action next ih => rw [bind_act, passes, ih, passes, outcome_act, List.cons_append]

theorem forall_passes_bind {P : Pass σ → Prop} {p : Program α} {f : α → Program β} {s : σ} :
    (∀ pass ∈ (p >>= f).passes b s, P pass) ↔ (∀ pass ∈ p.passes b s, P pass) ∧
      ∀ pass ∈ (f (p.outcome b s).1).passes b (p.outcome b s).2, P pass := by
  rw [passes_bind, List.forall_mem_append]

/-- **The events of a run are those of its passes.** -/
theorem trace_passes (p : Program α) (s : σ) :
    (p.passes b s).flatMap Pass.trace = (p.run b s).trace := by
  induction p generalizing s with
  | done value => rfl
  | act action next ih => rw [passes, List.flatMap_cons, ih, run_act, Record.andThen]

theorem mem_trace_of_pass {p : Program α} {s : σ} {pass : Pass σ} (hpass : pass ∈ p.passes b s)
    {e : Event} (he : e ∈ pass.trace) : e ∈ (p.run b s).trace := by
  rw [← trace_passes]
  exact List.mem_flatMap.2 ⟨pass, hpass, he⟩

theorem exists_action_of_pass {p : Program α} {s : σ} {pass : Pass σ}
    (hpass : pass ∈ p.passes b s) : ∃ action : Action,
      pass.trace = (b.perform action pass.before).trace ∧
        pass.after = (b.perform action pass.before).state := by
  induction p generalizing s with
  | done value => cases hpass
  | act action next ih =>
    rcases List.mem_cons.1 hpass with rfl | hrest
    · exact ⟨action, rfl, rfl⟩
    · exact ih _ hrest

/-- **What every pass of a run keeps** holds before and after each of them, and in the end. -/
theorem passes_keep {P : σ → Prop} {p : Program α} {s : σ} (hs : P s)
    (h : ∀ pass ∈ p.passes b s, P pass.before → P pass.after) :
    (∀ pass ∈ p.passes b s, P pass.before ∧ P pass.after) ∧ P (p.outcome b s).2 := by
  induction p generalizing s with
  | done value => exact ⟨fun pass hpass => (by cases hpass), hs⟩
  | act action next ih =>
    have hfirst : P (b.perform action s).state := h _ List.mem_cons_self hs
    obtain ⟨hpasses, hend⟩ := ih _ hfirst fun pass hpass => h pass (List.mem_cons_of_mem _ hpass)
    rw [outcome_act]
    refine ⟨fun pass hpass => ?_, hend⟩
    rcases List.mem_cons.1 hpass with rfl | hrest
    · exact ⟨hs, hfirst⟩
    · exact hpasses pass hrest

end Program

end FuseBank
