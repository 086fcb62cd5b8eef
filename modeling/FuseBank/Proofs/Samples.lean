import FuseBank.Bench
import FuseBank.Bench.Script
import FuseBank.Proofs.Courses

/-!
# A poll follows its samples

What a register shows may depend on all that was done before, so the samples of a poll are told
by the board: each is what the register shows after those before it, with the pause that follows
each of them (`Board.sample`). A poll looks at one more of them than it has pauses. It is over at
the first with a bit that it waits for, clears its bits then, and leaves the register alone if there
is none.

The time it keeps is held at the greatest value of 32 bits, and this does not show: whatever the
budget and the tick, a poll without an answer waits for its budget, and for less than one more
pause (`Poll.budget_le`, `Poll.lt_budget_add`).

## Main statements

* `Poll.run_sampling_of_up`, `Poll.run_sampling_of_vain`: what a poll with so many pauses does.
* `poll_follows_samples`: what a poll with a budget does.
-/

namespace FuseBank

variable {σ : Type}

namespace Board

/-- How a board is left by so many samples of a register, with a pause after each. -/
def afterSamples (b : Board σ) (register : Nat) (us : UInt32) (s : σ) : Nat → σ
  | 0 => s
  | k + 1 => b.afterSamples register us (b.delay us (b.read register s).2) k

/-- What a register shows after so many samples, with a pause after each. -/
def sample (b : Board σ) (register : Nat) (us : UInt32) (s : σ) (k : Nat) : UInt32 :=
  (b.read register (b.afterSamples register us s k)).1

theorem sample_succ (b : Board σ) (register : Nat) (us : UInt32) (s : σ) (k : Nat) :
    b.sample register us s (k + 1) =
      b.sample register us (b.delay us (b.read register s).2) k := rfl

/-- The first so many samples, in order. -/
def samples (b : Board σ) (register : Nat) (us : UInt32) (s : σ) (count : Nat) : List UInt32 :=
  (List.range count).map (b.sample register us s)

theorem samples_succ (b : Board σ) (register : Nat) (us : UInt32) (s : σ) (count : Nat) :
    b.samples register us s (count + 1) = (b.read register s).1 ::
      b.samples register us (b.delay us (b.read register s).2) count := by
  rw [samples, List.range_succ_eq_map, List.map_cons, List.map_map]
  rfl

@[simp] theorem length_samples (b : Board σ) (register : Nat) (us : UInt32) (s : σ)
    (count : Nat) : (b.samples register us s count).length = count := by
  simp [samples]

end Board

namespace Poll

variable (p : Poll) (us : UInt32)

/-! ### Samples in vain -/

theorem vain_cons (sample : UInt32) (samples : List UInt32) :
    p.vain us (sample :: samples) = .read p.register sample :: .delay us :: p.vain us samples :=
  rfl

theorem reads_vain (samples : List UInt32) : Trace.reads (p.vain us samples) = samples.length := by
  induction samples with
  | nil => rfl
  | cons sample samples ih => simp [vain_cons, ih, Event.isRead]

theorem writes_vain (samples : List UInt32) : Trace.writes (p.vain us samples) = 0 := by
  induction samples with
  | nil => rfl
  | cons sample samples ih => simp [vain_cons, ih, Event.isWrite]

theorem duration_vain (samples : List UInt32) :
    Trace.duration (p.vain us samples) = samples.length * us.toNat := by
  induction samples with
  | nil => simp [vain, Trace.duration]
  | cons sample samples ih =>
    simp only [vain_cons, Trace.duration_cons, ih, Event.duration, List.length_cons, Nat.succ_mul]
    omega

/-! ### Polls with so many pauses -/

variable {p us} {b : Board σ} {s : σ}

/-- A poll is over at the first sample with a bit, and clears its bits. -/
theorem run_sampling_of_up {k left : Nat} (hk : k ≤ left)
    (hvain : ∀ j < k, b.sample p.register us s j &&& p.mask = 0)
    (hup : b.sample p.register us s k &&& p.mask ≠ 0) :
    (p.sampling us left).run b s =
      ⟨true, b.write p.register p.mask (b.read p.register (b.afterSamples p.register us s k)).2,
        p.vain us (b.samples p.register us s k) ++
          [.read p.register (b.sample p.register us s k), .write p.register p.mask], []⟩ := by
  induction k generalizing left s with
  | zero =>
    have hup' : ¬ (b.read p.register s).1 &&& p.mask = 0 := hup
    cases left <;>
      simp [sampling, Record.andThen, Record.still, hup', Board.samples, vain, Board.sample,
        Board.afterSamples]
  | succ k ih =>
    obtain ⟨left, rfl⟩ : ∃ m, left = m + 1 := ⟨left - 1, by omega⟩
    have hdown : (b.read p.register s).1 &&& p.mask = 0 := hvain 0 (Nat.succ_pos k)
    have hrest := ih (s := b.delay us (b.read p.register s).2) (Nat.le_of_succ_le_succ hk)
      (fun j hj => hvain (j + 1) (Nat.succ_lt_succ hj)) hup
    simp [sampling, Record.andThen, hdown, hrest, Board.samples_succ, vain_cons,
      Board.sample_succ, Board.afterSamples]

/-- A poll without a bit in any of its samples ends after the last, and writes nothing. -/
theorem run_sampling_of_vain {left : Nat}
    (hvain : ∀ j ≤ left, b.sample p.register us s j &&& p.mask = 0) :
    (p.sampling us left).run b s =
      ⟨false, (b.read p.register (b.afterSamples p.register us s left)).2,
        p.vain us (b.samples p.register us s left) ++
          [.read p.register (b.sample p.register us s left)], []⟩ := by
  induction left generalizing s with
  | zero =>
    have hdown : (b.read p.register s).1 &&& p.mask = 0 := hvain 0 (Nat.le_refl 0)
    simp [sampling, Record.andThen, Record.still, hdown, Board.samples, vain, Board.sample,
      Board.afterSamples]
  | succ left ih =>
    have hdown : (b.read p.register s).1 &&& p.mask = 0 := hvain 0 (Nat.zero_le _)
    have hrest := ih (s := b.delay us (b.read p.register s).2)
      (fun j hj => hvain (j + 1) (Nat.succ_le_succ hj))
    simp [sampling, Record.andThen, hdown, hrest, Board.samples_succ, vain_cons,
      Board.sample_succ, Board.afterSamples]

/-! ### How long a poll without an answer waits -/

/-- It waits for its budget. -/
theorem budget_le (budget tick : UInt32) :
    budget.toNat ≤ pauses budget tick * max tick.toNat 1 := by
  have hpos : 0 < max tick.toNat 1 := by omega
  rw [Nat.mul_comm]
  exact (ceilDiv_le_iff_le_mul hpos).1 (Nat.le_refl _)

/-- It waits less than one pause longer. -/
theorem lt_budget_add (budget tick : UInt32) :
    pauses budget tick * max tick.toNat 1 < budget.toNat + max tick.toNat 1 := by
  have hpos : 0 < max tick.toNat 1 := by omega
  rw [Nat.mul_comm]
  exact mul_ceilDiv_lt budget.toNat hpos

end Poll

/-- **A poll follows its samples.** With a pause of `t` it may pause `n` times, which is as often
as `t` goes into the budget, rounded up. If one of the first `n + 1` samples shows a bit, then at the
first that does the poll clears its bits and is over; until then it has paused after each sample.
If none does, it has read them all and written nothing, and has waited for its budget and less than
one pause longer. -/
theorem poll_follows_samples (p : Poll) (tick : UInt32) (b : Board σ) (s : σ) :
    let t := Poll.pace tick
    let n := p.budget.toNat ⌈/⌉ max tick.toNat 1
    let sample := b.sample p.register t s
    let r := (p.wait tick).run b s
    (∀ k ≤ n, (∀ j < k, sample j &&& p.mask = 0) → sample k &&& p.mask ≠ 0 →
      r.value = true ∧
      r.trace = p.vain t ((List.range k).map sample) ++
        [.read p.register (sample k), .write p.register p.mask] ∧
      Trace.reads r.trace = k + 1 ∧ Trace.writes r.trace = 1 ∧
      Trace.duration r.trace = k * max tick.toNat 1) ∧
    ((∀ k ≤ n, sample k &&& p.mask = 0) →
      r.value = false ∧
      r.trace = p.vain t ((List.range n).map sample) ++ [.read p.register (sample n)] ∧
      Trace.reads r.trace = n + 1 ∧ Trace.writes r.trace = 0 ∧
      Trace.duration r.trace = n * max tick.toNat 1 ∧
      p.budget.toNat ≤ Trace.duration r.trace ∧
      Trace.duration r.trace < p.budget.toNat + max tick.toNat 1) := by
  intro t n sample r
  have hr : r = (p.sampling t n).run b s := congrArg (Program.run b · s) (p.wait_eq_sampling tick)
  constructor
  · intro k hk hvain hup
    rw [hr, Poll.run_sampling_of_up hk hvain hup]
    refine ⟨rfl, rfl, ?_, ?_, ?_⟩
    · rw [Trace.reads_append, Poll.reads_vain, Board.length_samples]
      rfl
    · rw [Trace.writes_append, Poll.writes_vain]
      rfl
    · rw [Trace.duration_append, Poll.duration_vain, Board.length_samples, Poll.toNat_pace]
      rfl
  · intro hvain
    rw [hr, Poll.run_sampling_of_vain hvain]
    have hduration : Trace.duration (p.vain t (b.samples p.register t s n) ++
        [.read p.register (sample n)]) = n * max tick.toNat 1 := by
      rw [Trace.duration_append, Poll.duration_vain, Board.length_samples, Poll.toNat_pace]
      rfl
    refine ⟨rfl, rfl, ?_, ?_, hduration, ?_, ?_⟩
    · rw [Trace.reads_append, Poll.reads_vain, Board.length_samples]
      rfl
    · rw [Trace.writes_append, Poll.writes_vain]
      rfl
    · exact hduration.ge.trans' (Poll.budget_le p.budget tick)
    · exact hduration.trans_lt (Poll.lt_budget_add p.budget tick)

/-- A pause of half the range of 32 bits goes into the greatest budget twice, and with the second
the time waited is held. The sample after it is looked at, and is the last. -/
theorem poll_follows_samples_held :
    let p : Poll := ⟨Register.status, Register.cycleDone, 0xffffffff⟩
    let b : Board (Bench Bench.Script) := Bench.board {}
    let late : Bench Bench.Script := ⟨⟨[(Register.status, [⟨0, 2⟩, ⟨4, 1⟩])]⟩, {}⟩
    let never : Bench Bench.Script := ⟨⟨[]⟩, {}⟩
    ((p.wait 0x80000000).run b late).value = true ∧
      Trace.reads ((p.wait 0x80000000).run b late).trace = 3 ∧
      ((p.wait 0x80000000).run b never).value = false ∧
      Trace.duration ((p.wait 0x80000000).run b never).trace = 0x100000000 := by
  intro p b late never
  obtain ⟨hup, -⟩ := poll_follows_samples p 0x80000000 b late
  obtain ⟨-, hvain⟩ := poll_follows_samples p 0x80000000 b never
  obtain ⟨hvalue, -, hreads, -⟩ := hup 2 (by decide) (by decide) (by decide)
  obtain ⟨hvalue', -, -, -, hduration, -⟩ := hvain (by decide)
  exact ⟨hvalue, hreads, hvalue', hduration.trans (by decide)⟩

end FuseBank
