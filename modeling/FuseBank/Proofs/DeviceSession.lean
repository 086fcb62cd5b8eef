import FuseBank.Proofs.Verdict

/-!
# Sessions with a device

The bench of a session has a block that may be of any kind, while what is known of devices is
about benches that have a device and nothing else. The two go alike: a program does not tell
them apart, and so the steps of a session leave its bench as the same trials leave the device.

## Main statements

* `run_asBlock`: a run on a bench whose block is a device.
* `session_after_trials`: a row of steps of a session.
-/

namespace FuseBank

/-- A record with the state put differently. -/
def Record.mapState {σ τ α : Type} (f : σ → τ) (r : Record σ α) : Record τ α :=
  ⟨r.value, f r.state, r.trace, r.log⟩

namespace Bench

/-- A bench with a device as a bench whose block may be of any kind. -/
def asBlock (s : Bench Device) : Bench Block := ⟨.device s.block, s.refusals⟩

theorem perform_asBlock (w : Wiring) (action : Action) (s : Bench Device) :
    (board w).perform action (asBlock s) = ((board w).perform action s).mapState asBlock := by
  cases action with
  | readLane offset => cases hl : w.byteLane <;> simp only [Board.perform, board, hl] <;> rfl
  | assertReset => cases hr : w.resetLine <;> simp only [Board.perform, board, hr] <;> rfl
  | releaseReset => cases hr : w.resetLine <;> simp only [Board.perform, board, hr] <;> rfl
  | _ => rfl

/-- **A run goes alike on both.** -/
theorem run_asBlock {α : Type} (w : Wiring) (p : Program α) (s : Bench Device) :
    p.run (board w) (asBlock s) = (p.run (board w) s).mapState asBlock := by
  induction p generalizing s with
  | done value => rfl
  | act action next ih =>
    rw [Program.run_act, Program.run_act, perform_asBlock]
    simp only [Record.andThen, Record.mapState, ih]

/-- The step of a session that a trial is. -/
def Trial.step : Trial → Step
  | change c => .change c
  | call c => .call c

/-- **The steps of a session leave its bench as the trials leave the device.** -/
theorem session_after_trials (w : Wiring) (c : Controller) (s : Bench Device)
    (trials : List Trial) :
    trials.foldl (fun session trial => (session.step trial.step).state)
        (⟨some c, w, asBlock s⟩ : Session) =
      ⟨some c, w, asBlock (afterTrials w c s trials)⟩ := by
  induction trials generalizing s with
  | nil => rfl
  | cons trial trials ih =>
    cases trial with
    | change change => exact ih (changeDevice s change)
    | call call =>
      have hrun := congrArg Record.state (run_asBlock w (c.call call) s)
      have hstep : ((⟨some c, w, asBlock s⟩ : Session).step (.call call)).state =
          ⟨some c, w, asBlock ((c.call call).run (board w) s).state⟩ :=
        congrArg (Session.mk (some c) w) hrun
      rw [List.foldl_cons, Trial.step, hstep]
      exact ih _

end Bench

end FuseBank
