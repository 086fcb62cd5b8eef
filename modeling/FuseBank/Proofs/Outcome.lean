import FuseBank.Bench
import FuseBank.Bench.Device
import FuseBank.Controller
import FuseBank.Proofs.Polling

/-!
# What a run comes to

The *outcome* of a run is its value and the state in which it leaves the board, apart from
the events and messages. Outcomes are computed program by program: that of one program after
another is the outcome of the second from where the first has left off.

What every single action keeps, a run keeps (`Program.outcome_keeps`), and boards that answer
every single action alike are not told apart by any program (`Program.outcome_congr`). A row
of read cycles is followed by an invariant over the addresses that have been served
(`outcome_gather`). A row of calls of a controller leaves the board as its reads do, in
whichever way these come in (`Controller.after_keeps`).

## Main statements

* `Bench.outcome_refusals`: no run changes what a bench refuses.
* `Bench.outcome_byteLane`: a device does not tell how its byte lanes are read.
* `outcome_gather`: what a row of read cycles brings in, and where it stops.
-/

namespace FuseBank

namespace Program

variable {σ α β : Type}

/-- What a run comes to: its value, and the state of the board afterwards. -/
def outcome (b : Board σ) (p : Program α) (s : σ) : α × σ :=
  ((p.run b s).value, (p.run b s).state)

@[simp] theorem outcome_done (b : Board σ) (value : α) (s : σ) :
    (done value).outcome b s = (value, s) := rfl

theorem outcome_act (b : Board σ) (action : Action) (next : action.Answer → Program α) (s : σ) :
    (act action next).outcome b s =
      (next (b.perform action s).value).outcome b (b.perform action s).state := by
  simp [outcome, Record.andThen]

theorem outcome_perform (b : Board σ) (action : Action) (s : σ) :
    (perform action).outcome b s = ((b.perform action s).value, (b.perform action s).state) := by
  simp [outcome, run_perform]

@[simp] theorem outcome_bind (b : Board σ) (p : Program α) (f : α → Program β) (s : σ) :
    (p >>= f).outcome b s = (f (p.outcome b s).1).outcome b (p.outcome b s).2 := by
  simp [outcome, Record.andThen]

/-- What every action keeps, a run keeps. -/
theorem outcome_keeps {P : σ → Prop} (b : Board σ)
    (h : ∀ action s, P s → P (b.perform action s).state) (p : Program α) {s : σ} (hs : P s) :
    P (p.outcome b s).2 := by
  induction p generalizing s with
  | done value => exact hs
  | act action next ih =>
    rw [outcome_act]
    exact ih _ (h action s hs)

/-- Boards that answer every action alike are not told apart. -/
theorem outcome_congr {b b' : Board σ}
    (h : ∀ action s, (b.perform action s).value = (b'.perform action s).value ∧
      (b.perform action s).state = (b'.perform action s).state)
    (p : Program α) (s : σ) : p.outcome b s = p.outcome b' s := by
  induction p generalizing s with
  | done value => rfl
  | act action next ih => rw [outcome_act, outcome_act, (h action s).1, (h action s).2, ih]

@[simp] theorem outcome_log (b : Board σ) (message : Message) (s : σ) :
    (Bus.log message).outcome b s = ((), s) := rfl

end Program

/-! ### On a bench -/

namespace Bench

section

variable {α π : Type} [RegisterBlock π] (w : Wiring) (s : Bench π)

@[simp] theorem outcome_write (offset : Nat) (value : UInt32) :
    (Bus.write offset value).outcome (board w) s =
      ((), { s with block := RegisterBlock.write offset value s.block }) := rfl

@[simp] theorem outcome_read (offset : Nat) :
    (Bus.read offset).outcome (board w) s =
      ((RegisterBlock.read offset s.block).1,
        { s with block := (RegisterBlock.read offset s.block).2 }) := rfl

@[simp] theorem outcome_delay (us : UInt32) :
    (Bus.delay us).outcome (board w) s = ((), s) := rfl

@[simp] theorem outcome_enableClocks (ids : List String) :
    (Bus.enableClocks ids).outcome (board w) s = (!s.refusals.clocks, s) := rfl

@[simp] theorem outcome_disableClocks (ids : List String) :
    (Bus.disableClocks ids).outcome (board w) s = ((), s) := rfl

@[simp] theorem outcome_assertReset :
    Bus.assertReset.outcome (board w) s = (!(w.resetLine && s.refusals.assert), s) := by
  refine (Program.outcome_perform (board w) .assertReset s).trans ?_
  cases hr : w.resetLine <;> simp [Board.perform, board, hr, Record.still]

@[simp] theorem outcome_releaseReset :
    Bus.releaseReset.outcome (board w) s = (!(w.resetLine && s.refusals.release), s) := by
  refine (Program.outcome_perform (board w) .releaseReset s).trans ?_
  cases hr : w.resetLine <;> simp [Board.perform, board, hr, Record.still]

theorem perform_refusals (action : Action) :
    ((board w).perform action s).state.refusals = s.refusals := by
  cases action with
  | readLane offset => cases hl : w.byteLane <;> simp [Board.perform, board, hl]
  | assertReset => cases hr : w.resetLine <;> simp [Board.perform, board, hr, Record.still]
  | releaseReset => cases hr : w.resetLine <;> simp [Board.perform, board, hr, Record.still]
  | _ => rfl

/-- No run changes what a bench refuses. -/
theorem outcome_refusals (p : Program α) : (p.outcome (board w) s).2.refusals = s.refusals :=
  p.outcome_keeps (P := fun s' : Bench π => s'.refusals = s.refusals) _
    (fun action s' h => (perform_refusals w s' action).trans h) rfl

end

theorem lane_eq_read (offset : Nat) (d : Device) :
    RegisterBlock.lane offset d = RegisterBlock.read offset d := rfl

/-- A device does not tell how its byte lanes are read. -/
theorem outcome_byteLane {α : Type} {w w' : Wiring} (h : w.resetLine = w'.resetLine)
    (p : Program α) (s : Bench Device) : p.outcome (board w) s = p.outcome (board w') s := by
  refine Program.outcome_congr (fun action s => ?_) p s
  cases action with
  | readLane offset =>
    cases hl : w.byteLane <;> cases hl' : w'.byteLane <;>
      simp [Board.perform, board, hl, hl', lane_eq_read]
  | assertReset => simp [Board.perform, board, h]
  | releaseReset => simp [Board.perform, board, h]
  | _ => exact ⟨rfl, rfl⟩

@[simp] theorem outcome_readLane (w : Wiring) (s : Bench Device) (offset : Nat) :
    (Bus.readLane offset).outcome (board w) s =
      ((RegisterBlock.read offset s.block).1.toUInt8,
        { s with block := (RegisterBlock.read offset s.block).2 }) := by
  refine (Program.outcome_perform (board w) (.readLane offset) s).trans ?_
  cases hl : w.byteLane <;> simp [Board.perform, board, hl, lane_eq_read]

end Bench

/-! ### Rows of read cycles -/

/-- What a row of read cycles brings in: `Inv` says where it stands once some addresses have
been served, and `Stop` where it is left by the cycle that fails after those. A row serves
all addresses, or it stops at one of them with the words of those before. -/
theorem outcome_gather {σ : Type} {b : Board σ} {fetch : UInt32 → Program (Except Failure UInt32)}
    {word : UInt32 → UInt32} {Inv : List UInt32 → σ → Prop}
    {Stop : List UInt32 → Failure → σ → Prop} {addresses : List UInt32}
    (step : ∀ served, ∀ a ∈ addresses, ∀ s, Inv served s →
      (∃ s', (fetch a).outcome b s = (.ok (word a), s') ∧ Inv (served ++ [a]) s') ∨
      ∃ f s', (fetch a).outcome b s = (.error f, s') ∧ Stop served f s')
    (served fetched : List UInt32) {s : σ} (hs : Inv served s) :
    (∃ s', (gather fetch fetched addresses).outcome b s =
        (⟨fetched.reverse ++ addresses.map word, none⟩, s') ∧ Inv (served ++ addresses) s') ∨
      ∃ k < addresses.length, ∃ f s', (gather fetch fetched addresses).outcome b s =
        (⟨fetched.reverse ++ (addresses.take k).map word, some f⟩, s') ∧
          Stop (served ++ addresses.take k) f s' := by
  induction addresses generalizing served fetched s with
  | nil => exact .inl ⟨s, by simp [gather], by simpa using hs⟩
  | cons a rest ih =>
    rcases step served a (by simp) s hs with ⟨s₁, h₁, hi⟩ | ⟨f, s₁, h₁, hstop⟩
    · have hgather : (gather fetch fetched (a :: rest)).outcome b s =
          (gather fetch (word a :: fetched) rest).outcome b s₁ := by
        simp [gather, h₁]
      rw [hgather]
      rcases ih (fun served a ha => step served a (List.mem_cons_of_mem _ ha)) _
          (word a :: fetched) hi with ⟨s₂, h₂, hi₂⟩ | ⟨k, hk, f, s₂, h₂, hstop⟩
      · exact .inl ⟨s₂, by simpa using h₂, by simpa using hi₂⟩
      · refine .inr ⟨k + 1, by simpa using hk, f, s₂, by simpa using h₂, by simpa using hstop⟩
    · exact .inr ⟨0, by simp, f, s₁, by simp [gather, h₁], by simpa using hstop⟩

/-! ### Rows of calls -/

namespace Controller

variable {σ : Type} (b : Board σ) (c : Controller)

/-- How a board is left by some calls, one after the other. -/
def after (s : σ) : List Call → σ
  | [] => s
  | call :: calls => after ((c.call call).run b s).state calls

@[simp] theorem after_nil (s : σ) : c.after b s [] = s := rfl

@[simp] theorem after_cons (s : σ) (call : Call) (calls : List Call) :
    c.after b s (call :: calls) = c.after b ((c.call call).outcome b s).2 calls := rfl

theorem after_append (s : σ) (calls calls' : List Call) :
    c.after b s (calls ++ calls') = c.after b (c.after b s calls) calls' := by
  induction calls generalizing s with
  | nil => rfl
  | cons call calls ih => exact ih _

theorem outcome_call_read (s : σ) (offset : UInt32) (buffer : List UInt8) :
    ((c.call (.read offset buffer)).outcome b s).2 = ((c.read offset buffer).outcome b s).2 := by
  simp [call, callWith, read]

/-- A call leaves the board as a read does, if it does not leave it alone. -/
theorem outcome_call (s : σ) (call : Call) : ((c.call call).outcome b s).2 = s ∨
    ∃ offset buffer, ((c.call call).outcome b s).2 = ((c.read offset buffer).outcome b s).2 := by
  cases call with
  | read offset buffer => exact .inr ⟨offset, buffer, outcome_call_read b c s offset buffer⟩
  | storageRead offset buffer =>
    exact .inr ⟨offset, buffer, by simp [call, callWith, storageRead, read]⟩
  | statusRead offset bytes buffer =>
    by_cases h : buffer.length < bytes
    · exact .inl (by simp [call, callWith, statusRead, h])
    · exact .inr ⟨offset, buffer.take bytes, by simp [call, callWith, statusRead, read, h]⟩

/-- What every read keeps, a row of calls keeps. -/
theorem after_keeps {P : σ → Prop}
    (h : ∀ offset buffer s, P s → P ((c.read offset buffer).outcome b s).2) (calls : List Call)
    {s : σ} (hs : P s) : P (c.after b s calls) := by
  induction calls generalizing s with
  | nil => exact hs
  | cons call calls ih =>
    rw [after_cons]
    rcases outcome_call b c s call with hcall | ⟨offset, buffer, hcall⟩
    · rw [hcall]
      exact ih hs
    · rw [hcall]
      exact ih (h offset buffer s hs)

end Controller

end FuseBank
