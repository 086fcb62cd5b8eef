import FuseBank.Bench
import FuseBank.Bench.Script
import FuseBank.Proofs.Samples
import FuseBank.Proofs.UserSession

/-!
# What a read waits for

A read lets time go by in three places: it holds the reset line, it gives the user interface time to
settle, and it pauses between the samples of a poll. Every sample of a poll but the last is followed
by a pause. So the pauses of a read are counted by two numbers that its events tell: how many polls
it has begun (`Generation.polls`), and how many samples it has taken (`Generation.samples`).

An account of some events (`Generation.Account`) says how the two numbers go together with the time
that goes by. Accounts of consecutive events add up, so an account of the whole read is put together
along its courses: one of each poll, one of each stage in which there is none, and by induction one
of the row of read cycles. What ends a read early only leaves out the accounts of what would have
followed.

## Main statements

* `Generation.Account.append`: accounts add up.
* `Generation.account_of_poll`: the account of a poll; `Generation.account_of_row`: of the cycles.
* `Generation.account_of_carriedOut`: of a planned read.
* `read_waits`: how long a read waits.
-/

namespace FuseBank

open Register

variable {g : Generation} {t : Timing} {wired : Bool} {trace : List Event}

namespace Generation

/-! ### What is counted -/

/-- The writes that begin something that is polled for: the cycle of a word, and with the user
interface the sideband's command. -/
def pollStarts : Generation → List Event
  | one | two => [.write User.trigger User.start, .write Sideband.control Sideband.start]
  | three => [.write Sequencer.trigger Sequencer.start]

/-- How many polls were begun. -/
def polls (g : Generation) (trace : List Event) : Nat := trace.countP (· ∈ g.pollStarts)

/-- Whether the status register was read. -/
def isSample (g : Generation) (e : Event) : Bool :=
  e.isRead && e.register? == some g.statusRegister

/-- How many times the status register was read. -/
def samples (g : Generation) (trace : List Event) : Nat := trace.countP g.isSample

/-- How many words are planned for a request; none if it is turned down. -/
def plannedWords (g : Generation) (size offset : UInt32) (len : Nat) : Nat :=
  match g.plan size offset len with
  | .ok range => range.wordCount.toNat
  | .error _ => 0

@[simp] theorem polls_append (g : Generation) (trace rest : List Event) :
    g.polls (trace ++ rest) = g.polls trace + g.polls rest := List.countP_append

@[simp] theorem samples_append (g : Generation) (trace rest : List Event) :
    g.samples (trace ++ rest) = g.samples trace + g.samples rest := List.countP_append

theorem statusRegister_of_latch {latch : EccLatch} (h : g.latch? = some latch) :
    g.statusRegister = status := by
  cases g with
  | one | two => rfl
  | three => cases h

/-! ### Accounts -/

/-- How some events account for the time that goes by: `extra` microseconds, and a pause after every
sample of a poll but the last. No more than `most` polls are begun. -/
structure Account (g : Generation) (t : Timing) (extra most : Nat) (trace : List Event) :
    Prop where
  /-- So many polls are begun at most. -/
  polls_le : g.polls trace ≤ most
  /-- Every poll takes a sample. -/
  polls_le_samples : g.polls trace ≤ g.samples trace
  /-- No poll takes more samples than its budget allows. -/
  samples_le : g.samples trace ≤ g.polls trace * (t.patience + 1)
  /-- There is a pause for every sample but one of each poll. -/
  duration_add : Trace.duration trace + (Poll.pace t.pollTick).toNat * g.polls trace =
    extra + (Poll.pace t.pollTick).toNat * g.samples trace

/-- **Accounts add up.** -/
theorem Account.append {extra extra' most most' : Nat} {rest : List Event}
    (h : g.Account t extra most trace) (h' : g.Account t extra' most' rest) :
    g.Account t (extra + extra') (most + most') (trace ++ rest) := by
  constructor
  case polls_le =>
    rw [polls_append]
    exact Nat.add_le_add h.polls_le h'.polls_le
  case polls_le_samples =>
    rw [polls_append, samples_append]
    exact Nat.add_le_add h.polls_le_samples h'.polls_le_samples
  case samples_le =>
    rw [polls_append, samples_append, Nat.add_mul]
    exact Nat.add_le_add h.samples_le h'.samples_le
  case duration_add =>
    have hsum := congrArg₂ (· + ·) h.duration_add h'.duration_add
    simp only [Trace.duration_append, polls_append, samples_append, Nat.mul_add] at hsum ⊢
    omega

theorem Account.mono {extra most most' : Nat} (h : g.Account t extra most trace)
    (hle : most ≤ most') : g.Account t extra most' trace :=
  { h with polls_le := h.polls_le.trans hle }

/-- So many pauses go by, besides what is extra. -/
theorem Account.duration_eq {extra most : Nat} (h : g.Account t extra most trace) :
    Trace.duration trace =
      extra + (Poll.pace t.pollTick).toNat * (g.samples trace - g.polls trace) := by
  have hle := Nat.mul_le_mul_left (Poll.pace t.pollTick).toNat h.polls_le_samples
  have hadd := h.duration_add
  rw [Nat.mul_sub]
  omega

/-- No poll pauses longer than its budget allows. -/
theorem Account.duration_le {extra most : Nat} (h : g.Account t extra most trace) :
    Trace.duration trace ≤ extra + most * t.patience * (Poll.pace t.pollTick).toNat := by
  have hpauses : g.samples trace - g.polls trace ≤ most * t.patience :=
    calc g.samples trace - g.polls trace
      _ ≤ g.polls trace * t.patience := by
        have := h.samples_le
        rw [Nat.mul_succ] at this
        omega
      _ ≤ most * t.patience := Nat.mul_le_mul_right _ h.polls_le
  rw [h.duration_eq, Nat.mul_comm (Poll.pace t.pollTick).toNat]
  exact Nat.add_le_add_left (Nat.mul_le_mul_right _ hpauses) _

/-- An event that neither begins a poll nor is part of one. -/
def Quiet (g : Generation) (e : Event) : Prop := e ∉ g.pollStarts ∧ g.isSample e = false

theorem quiet_of_not_isAccess {e : Event} (h : e.isAccess = false) : g.Quiet e := by
  cases e with
  | read | readLane | write => cases h
  | _ => cases g <;> simp [Quiet, pollStarts, isSample, Event.isRead]

/-- Where nothing is polled, the time that goes by is extra. -/
theorem account_of_quiet {extra : Nat} (h : ∀ e ∈ trace, g.Quiet e)
    (hextra : Trace.duration trace = extra) : g.Account t extra 0 trace := by
  have hpolls : g.polls trace = 0 :=
    List.countP_eq_zero.2 fun e he => by simpa using (h e he).1
  have hsamples : g.samples trace = 0 :=
    List.countP_eq_zero.2 fun e he => by simpa using (h e he).2
  constructor
  case polls_le => exact hpolls.le
  case polls_le_samples => exact hpolls.le.trans (Nat.zero_le _)
  case samples_le => exact hsamples.le.trans (Nat.zero_le _)
  case duration_add => rw [hpolls, hsamples, hextra]

/-! ### Polls -/

theorem exists_write_of_mem_pollStarts {e : Event} (h : e ∈ g.pollStarts) :
    ∃ register value, e = .write register value := by
  cases g with
  | one | two => rcases List.mem_pair.1 h with rfl | rfl <;> exact ⟨_, _, rfl⟩
  | three => exact ⟨_, _, List.mem_singleton.1 h⟩

theorem write_status_notMem (g : Generation) (value : UInt32) :
    .write g.statusRegister value ∉ g.pollStarts := by
  cases g <;> simp [pollStarts, statusRegister, status, User.trigger, Sideband.control,
    Sequencer.status, Sequencer.trigger]

theorem polls_of_course {p : Poll} (hp : p.register = g.statusRegister) {us : UInt32}
    {pauses : Nat} {up : Bool} (h : p.Course us pauses up trace) : g.polls trace = 0 := by
  -- the one write of a poll clears bits of its status register, and that is no trigger
  refine List.countP_eq_zero.2 fun e he hmem => ?_
  have hstart : e ∈ g.pollStarts := by simpa using hmem
  obtain ⟨register, value, rfl⟩ := exists_write_of_mem_pollStarts hstart
  obtain ⟨rfl, -⟩ := Poll.write_of_course h he
  rw [hp] at hstart
  exact write_status_notMem g value hstart

theorem samples_vain {p : Poll} (hp : p.register = g.statusRegister) (us : UInt32)
    (samples : List UInt32) : g.samples (p.vain us samples) = samples.length := by
  induction samples with
  | nil => rfl
  | cons sample samples ih =>
    rw [Poll.vain_cons, Generation.samples, List.countP_cons_of_pos, List.countP_cons_of_neg]
    · exact congrArg (· + 1) ih
    · simp [isSample, Event.isRead]
    · simp [isSample, Event.isRead, Event.register?, hp]

/-- A poll takes one sample more than it makes pauses. -/
theorem exists_pauses {p : Poll} (hp : p.register = g.statusRegister) {us : UInt32}
    {pauses : Nat} {up : Bool} (h : p.Course us pauses up trace) : ∃ k ≤ pauses,
      g.samples trace = k + 1 ∧ Trace.duration trace = k * us.toNat := by
  cases h with
  | @up samples sample hlen =>
    refine ⟨samples.length, hlen, ?_, ?_⟩
    · rw [samples_append, samples_vain hp]
      simp [Generation.samples, isSample, Event.isRead, Event.register?, hp]
    · rw [Trace.duration_append, Poll.duration_vain]
      rfl
  | @spent samples sample hlen =>
    refine ⟨samples.length, hlen.le, ?_, ?_⟩
    · rw [samples_append, samples_vain hp]
      simp [Generation.samples, isSample, Event.isRead, Event.register?, hp]
    · rw [Trace.duration_append, Poll.duration_vain]
      rfl

/-- **The account of a poll**, with the write that begins it. -/
theorem account_of_poll {p : Poll} (hp : p.register = g.statusRegister) {start : Event}
    (hstart : start ∈ g.pollStarts) {up : Bool}
    (h : p.Course (Poll.pace t.pollTick) t.patience up trace) :
    g.Account t 0 1 (start :: trace) := by
  obtain ⟨k, hk, hsamples, hduration⟩ := exists_pauses hp h
  obtain ⟨register, value, rfl⟩ := exists_write_of_mem_pollStarts hstart
  have hpolls' : g.polls (.write register value :: trace) = 1 := by
    rw [polls, List.countP_cons_of_pos (by simpa using hstart)]
    exact congrArg (· + 1) (polls_of_course hp h)
  have hsamples' : g.samples (.write register value :: trace) = k + 1 := by
    rw [samples, List.countP_cons_of_neg (by simp [isSample, Event.isRead])]
    exact hsamples
  have hduration' : Trace.duration (.write register value :: trace) =
      k * (Poll.pace t.pollTick).toNat := (Nat.zero_add _).trans hduration
  constructor
  case polls_le => exact hpolls'.le
  case polls_le_samples =>
    rw [hpolls', hsamples']
    exact Nat.le_add_left 1 k
  case samples_le =>
    rw [hpolls', hsamples', Nat.one_mul]
    exact Nat.succ_le_succ hk
  case duration_add =>
    rw [hpolls', hsamples', hduration', Nat.mul_comm, Nat.mul_add, Nat.zero_add]

/-! ### Read cycles -/

theorem exists_start (g : Generation) (address : UInt32) : ∃ register value trigger,
    g.start address = [.write register value, trigger] ∧ g.Quiet (.write register value) ∧
      trigger ∈ g.pollStarts := by
  cases g <;> refine ⟨_, _, _, rfl, ⟨?_, rfl⟩, by simp [pollStarts]⟩ <;>
    simp [pollStarts, User.address, User.trigger, Sideband.control, Sequencer.control,
      Sequencer.trigger]

theorem account_of_started {address : UInt32} {up : Bool}
    (h : (g.poll t).Course (Poll.pace t.pollTick) t.patience up trace) :
    g.Account t 0 1 (g.start address ++ trace) := by
  obtain ⟨register, value, trigger, hstart, hquiet, htrigger⟩ := g.exists_start address
  have hfirst : g.Account t 0 0 [.write register value] :=
    account_of_quiet (fun e he => List.mem_singleton.1 he ▸ hquiet) rfl
  rw [hstart]
  exact hfirst.append (account_of_poll (g.poll_register t) htrigger h)

theorem account_of_readout {result : Except Failure UInt32} (h : g.Readout result trace) :
    g.Account t 0 0 trace := by
  have hquiet : ∀ e ∈ trace, g.Quiet e := by
    cases h <;> simp [Quiet, pollStarts, isSample, Event.register?, statusRegister, status,
      User.quality, User.data, Sequencer.status, Sequencer.data]
  exact account_of_quiet hquiet (by cases h <;> rfl)

/-- The account of a cycle, of which one poll is part. -/
theorem account_of_cycle {address : UInt32} {result : Except Failure UInt32}
    (h : g.CycleCourse t address result trace) : g.Account t 0 1 trace := by
  cases h with
  | complete hpolling hreadout =>
    rw [← List.append_assoc]
    exact (account_of_started hpolling).append (account_of_readout hreadout)
  | late hpolling => exact account_of_started hpolling

/-- **The account of a row of cycles**, of which there are no more than words. -/
theorem account_of_row {addresses words : List UInt32} {failure : Option Failure}
    (h : g.Row t addresses words failure trace) : g.Account t 0 addresses.length trace := by
  -- on the row: the words after one that fails are not accounted for, and `most` allows for that
  induction h with
  | served => exact account_of_quiet (fun e he => by cases he) rfl
  | next hfirst _ ih =>
    rw [List.length_cons, Nat.add_comm]
    exact (account_of_cycle hfirst).append ih
  | failed hlast => exact (account_of_cycle hlast).mono (by simp)

theorem account_of_collected {range : WordRange} {delivery : Delivery}
    (h : g.Collected t range delivery trace) :
    g.Account t 0 range.wordCount.toNat trace := by
  obtain ⟨hrow⟩ := h
  rw [← WordRange.length_words]
  exact account_of_row hrow

/-! ### Before the user interface can be used -/

theorem account_of_reset {completed : Bool} (h : ResetCourse wired t.resetHold completed trace) :
    g.Account t (if wired = true → .resetAsserted ∈ trace then t.resetHold.toNat else 0) 0
      trace := by
  refine account_of_quiet (fun e he => ?_) ?_
  · refine quiet_of_not_isAccess ?_
    rcases kind_of_reset h e he with hkind | hkind <;> cases e <;> first | rfl | cases hkind
  · cases h <;> cases wired <;> simp [resetEvents, Trace.duration, Event.duration] at *

/-- The last write of the command to the sideband begins a poll. -/
theorem account_of_command {latch : EccLatch} (hlatch : g.latch? = some latch) {up : Bool}
    (h : t.sidebandPoll.Course (Poll.pace t.pollTick) t.patience up trace) :
    g.Account t 0 1 (latch.command ++ trace) := by
  have hstart : .write Sideband.control Sideband.start ∈ g.pollStarts := by
    cases g with
    | one | two => simp [pollStarts]
    | three => cases hlatch
  have hquiet : ∀ e ∈ latch.command.dropLast, g.Quiet e := by
    simp only [Quiet]
    cases g <;> cases latch <;> decide
  have hsettings : g.Account t 0 0 latch.command.dropLast := account_of_quiet hquiet rfl
  have hstatus : t.sidebandPoll.register = g.statusRegister := (statusRegister_of_latch hlatch).symm
  exact hsettings.append (account_of_poll hstatus hstart h)

/-- **The account of readying the user interface**: the time that the line is held, and one poll. -/
theorem account_of_prepared {latch : EccLatch} (hlatch : g.latch? = some latch)
    {failure : Option Failure} (h : latch.Course t wired failure trace) :
    g.Account t (if wired = true → .resetAsserted ∈ trace then t.resetHold.toNat else 0) 1
      trace := by
  have hset : ∀ {up polling},
      t.sidebandPoll.Course (Poll.pace t.pollTick) t.patience up polling →
      g.Account t (if wired = true →
        .resetAsserted ∈ resetEvents wired t.resetHold ++ (latch.command ++ polling) then
          t.resetHold.toNat else 0) 1
        (resetEvents wired t.resetHold ++ (latch.command ++ polling)) := by
    intro up polling hpolling
    have hheld : wired = true → .resetAsserted ∈ resetEvents wired t.resetHold := by
      rintro rfl
      simp [resetEvents]
    have hreset : g.Account t (if wired = true → .resetAsserted ∈ resetEvents wired t.resetHold
        then t.resetHold.toNat else 0) 0 (resetEvents wired t.resetHold) :=
      account_of_reset .completed
    rw [if_pos hheld] at hreset
    rw [if_pos fun hwired => List.mem_append_left _ (hheld hwired)]
    exact hreset.append (account_of_command hlatch hpolling)
  cases h with
  | notReset hpulse => exact (account_of_reset hpulse).mono (Nat.zero_le 1)
  | notSet hpolling => exact hset hpolling
  | ready hpolling => exact hset hpolling

/-! ### Planned reads -/

theorem quiet_control (g : Generation) (value : UInt32) : g.Quiet (.write User.control value) := by
  cases g <;> simp [Quiet, pollStarts, isSample, Event.isRead, User.control, User.trigger,
    Sideband.control, Sequencer.trigger]

theorem account_of_userMode {most : Nat} (h : g.Account t 0 most trace) :
    g.Account t t.settle.toNat most (.write User.control User.take :: .delay t.settle ::
      (trace ++ [.write User.control User.release])) := by
  have htake : g.Account t t.settle.toNat 0
      [.write User.control User.take, .delay t.settle] := by
    refine account_of_quiet (fun e he => ?_) (by simp [Trace.duration, Event.duration])
    rcases List.mem_pair.1 he with rfl | rfl
    · exact g.quiet_control _
    · exact quiet_of_not_isAccess rfl
  have hrelease : g.Account t 0 0 [.write User.control User.release] :=
    account_of_quiet (fun e he => List.mem_singleton.1 he ▸ g.quiet_control _) rfl
  simpa using htake.append (h.append hrelease)

theorem resetAsserted_notMem {registers : List Nat} (h : ∀ e ∈ trace, e.Within registers) :
    .resetAsserted ∉ trace := fun hmem => by cases Event.isReset_of_within (h _ hmem)

theorem ne_three_of_latch {latch : EccLatch} (h : g.latch? = some latch) : g ≠ .three := by
  rintro rfl
  cases h

theorem ne_three_of_asserted {range : WordRange} {delivery : Delivery}
    (h : g.CarriedOut t range wired delivery trace) (hmem : .resetAsserted ∈ trace) :
    g ≠ .three := by
  cases h with
  | sequenced _ hbody => exact absurd hmem (resetAsserted_notMem (within_collected hbody))
  | unready hlatch => exact ne_three_of_latch hlatch
  | taken hlatch => exact ne_three_of_latch hlatch

/-- **The account of a planned read.** -/
theorem account_of_carriedOut {range : WordRange} {delivery : Delivery}
    (h : g.CarriedOut t range wired delivery trace) :
    g.Account t
      ((if g ≠ .three ∧ (wired = true → .resetAsserted ∈ trace) then t.resetHold.toNat else 0) +
        if .write User.control User.take ∈ trace then t.settle.toNat else 0)
      (range.wordCount.toNat + if g = .three then 0 else 1) trace := by
  have huntaken : ∀ {latch failure early}, EccLatch.Course latch t wired failure early →
      .write User.control User.take ∉ early := fun hearly hmem =>
    not_mem_sidebandRegisters (by simp) (hearly.register_mem hmem rfl)
  cases h with
  | sequenced hlatch hbody =>
    have hthree : g = .three := by
      by_contra hne
      obtain ⟨latch, hsome⟩ := exists_latch hne
      rw [hlatch] at hsome
      cases hsome
    have htake : .write User.control User.take ∉ trace := fun hmem =>
      g.control_notMem_registers (Event.mem_of_within (within_collected hbody _ hmem) rfl)
    rw [if_neg fun hheld => hheld.1 hthree, if_neg htake, if_pos hthree]
    exact account_of_collected hbody
  | unready hlatch hearly =>
    have huser := ne_three_of_latch hlatch
    rw [if_neg (huntaken hearly), if_neg huser]
    simp only [ne_eq, huser, not_false_eq_true, true_and]
    exact (account_of_prepared hlatch hearly).mono (Nat.le_add_left 1 _)
  | @taken _ _ early body hlatch hearly hbody =>
    have hasserted : Event.resetAsserted ∈ early ++ (.write User.control User.take ::
        .delay t.settle :: (body ++ [.write User.control User.release])) ↔
        .resetAsserted ∈ early := by
      simp [resetAsserted_notMem (within_collected hbody)]
    have huser := ne_three_of_latch hlatch
    rw [if_pos (by simp : Event.write User.control User.take ∈ _), if_neg huser,
      Nat.add_comm range.wordCount.toNat]
    simp only [ne_eq, huser, not_false_eq_true, true_and, hasserted]
    exact (account_of_prepared hlatch hearly).append
      (account_of_userMode (account_of_collected hbody))

/-! ### Reads -/

theorem plannedWords_of_plan {size offset : UInt32} {len : Nat} {range : WordRange}
    (h : g.plan size offset len = .ok range) :
    g.plannedWords size offset len = range.wordCount.toNat := by
  rw [plannedWords, h]

end Generation

/-- **The account of a read.** -/
theorem Controller.Course.account {c : Controller} (hg : c.descriptor.generation = some g)
    {offset : UInt32} {buffer : List UInt8} {reply : Reply (Except Failure Nat)}
    (h : c.Course wired offset buffer reply trace) :
    g.Account c.timing
      ((if g.LineObeyed wired c.descriptor.clocks .resetAsserted trace then
          c.timing.resetHold.toNat else 0) +
        if .write User.control User.take ∈ trace then c.timing.settle.toNat else 0)
      (g.plannedWords c.size offset buffer.length + if g = .three then 0 else 1) trace := by
  have hstill : ∀ {e : Event}, e.isAccess = false → e.duration = 0 → g.Account c.timing 0 0 [e] :=
    fun haccess hduration => Generation.account_of_quiet
      (fun e he => List.mem_singleton.1 he ▸ Generation.quiet_of_not_isAccess haccess)
      (by simp [hduration, Trace.duration])
  cases h with
  | unsupported hnone =>
    rw [hg] at hnone
    cases hnone
  | outOfRange =>
    have hnone : g.Account c.timing 0 0 [] := Generation.account_of_quiet (by simp) rfl
    simpa [Generation.LineObeyed] using hnone.mono (Nat.zero_le _)
  | noClocks =>
    simpa [Generation.LineObeyed] using
      (hstill (e := .clocksRefused c.descriptor.clocks) rfl rfl).mono (Nat.zero_le _)
  | @carriedOut g' last _ body hg' ha hlast hbody =>
    obtain rfl : g = g' := Option.some.inj (hg.symm.trans hg')
    obtain ⟨last', hlast', hplan, -⟩ := Generation.exists_plan ha
    obtain rfl : last = last' := UInt32.toNat_inj.1 (hlast.symm.trans hlast')
    have hon := hstill (e := .clocksOn c.descriptor.clocks) rfl rfl
    have hoff := hstill (e := .clocksOff c.descriptor.clocks) rfl rfl
    have hsum := hon.append ((Generation.account_of_carriedOut hbody).append hoff)
    have hasserted : g.LineObeyed wired c.descriptor.clocks .resetAsserted
        (.clocksOn c.descriptor.clocks :: (body ++ [.clocksOff c.descriptor.clocks])) ↔
        g ≠ .three ∧ (wired = true → .resetAsserted ∈ body) := by
      cases wired with
      | false => simp [Generation.LineObeyed]
      | true =>
        simpa [Generation.LineObeyed] using Generation.ne_three_of_asserted hbody
    rw [Generation.plannedWords_of_plan hplan]
    simpa [hasserted] using hsum

/-- **What a read waits for**, whichever way it goes: the time that the reset line is held if it is
asserted, the time that the user interface takes to settle if the fuse macro is taken, and a pause
after every sample of the status but the last of each poll. The polls are those of the cycles, of
which there are no more than planned words, and with the user interface one of the sideband's
command. So there is a bound on the time with the clocks on. -/
theorem read_waits {c : Controller} {g : Generation} (hg : c.descriptor.generation = some g)
    (offset : UInt32) (buffer : List UInt8) {σ : Type} (b : Board σ) (s : σ) :
    let r := (c.read offset buffer).run b s
    let pace := max c.timing.pollTick.toNat 1
    let pauses := c.timing.pollTimeout.toNat ⌈/⌉ pace
    let words := g.plannedWords c.size offset buffer.length
    Trace.duration r.trace =
        (if g.LineObeyed b.reset.isSome c.descriptor.clocks .resetAsserted r.trace then
          c.timing.resetHold.toNat else 0) +
        (if .write User.control User.take ∈ r.trace then c.timing.settle.toNat else 0) +
        pace * (g.samples r.trace - g.polls r.trace) ∧
      g.polls r.trace ≤ g.samples r.trace ∧
      g.samples r.trace ≤ g.polls r.trace * (pauses + 1) ∧
      g.polls r.trace ≤ words + (if g = .three then 0 else 1) ∧
      Trace.duration r.trace ≤ c.timing.resetHold.toNat + c.timing.settle.toNat +
        (words + 1) * pauses * pace := by
  intro r pace pauses words
  have hcourse : c.Course b.reset.isSome offset buffer r.value r.trace :=
    Controller.course_of_leaves (Program.leaves_run b _ s)
  have haccount := hcourse.account hg
  have hpace : (Poll.pace c.timing.pollTick).toNat = pace := Poll.toNat_pace _
  have hone : (if g = .three then 0 else 1) ≤ 1 := by split <;> omega
  have hlong := (haccount.mono (Nat.add_le_add_left hone words)).duration_le
  refine ⟨?_, haccount.polls_le_samples, haccount.samples_le, haccount.polls_le, ?_⟩
  · rw [← hpace]
    exact haccount.duration_eq
  · rw [← hpace]
    refine hlong.trans (Nat.add_le_add_right (Nat.add_le_add ?_ ?_) _)
    · split <;> omega
    · split <;> omega

/-- The command is carried out at its second sample, and the first of two words is late. The three
pauses do not fit in 32 bits. -/
theorem read_waits_late :
    let c : Controller := ⟨.rk3568, ⟨0x80000000, 0xffffffff, 2, 5⟩⟩
    let b : Board (Bench Bench.Script) := Bench.board {}
    let s : Bench Bench.Script := ⟨⟨[(status, [⟨0, 1⟩, ⟨sidebandDone, 1⟩, ⟨0, 1⟩])]⟩, {}⟩
    let r := (c.read 0 [0, 0, 0]).run b s
    r.value.result = .error .pollTimeout ∧ Generation.two.polls r.trace = 2 ∧
      Generation.two.samples r.trace = 5 ∧
      Trace.duration r.trace = 2 + 5 + 0x80000000 * 3 := by
  intro c b s r
  obtain ⟨hduration, -⟩ := read_waits (c := c) (g := .two) rfl 0 [0, 0, 0] b s
  have hpolls : Generation.two.polls r.trace = 2 := by decide +kernel
  have hsamples : Generation.two.samples r.trace = 5 := by decide +kernel
  have hheld : Generation.two.LineObeyed b.reset.isSome c.descriptor.clocks .resetAsserted
      r.trace := by decide +kernel
  have htaken : .write User.control User.take ∈ r.trace := by decide +kernel
  rw [hpolls, hsamples, if_pos hheld, if_pos htaken] at hduration
  exact ⟨by decide +kernel, hpolls, hsamples, hduration⟩

end FuseBank
