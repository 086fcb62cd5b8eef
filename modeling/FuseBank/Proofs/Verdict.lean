import FuseBank.Bench.Session
import FuseBank.Proofs.LateCompletion
import FuseBank.Proofs.PromptRead

/-!
# What a read of an injected device comes to

A device can be told to stall, its words can be given faults, and the clocks and the reset
line can be told to refuse, all at once and anew between any two reads. What a read comes to
is decided by what is injected when it begins, in an order of precedence (`verdict`): first
what turns it down, then the clocks, the reset line and the sideband, and then the first of
its words that fails.

What came before does not matter, as long as completions show in time: every read leaves the
device at rest, with no bit up or pending and the fuse macro handed back (`Device.AtRest`), and
nothing that may be injected disturbs that.

## Main statements

* `outcome_gather_of_idle`: a row of read cycles ends at the first word that fails.
* `outcome_read_at_rest`: a read of a device at rest comes to its verdict and leaves the device
  at rest.
* `read_comes_to_verdict`: every read in a row of changes and calls.
-/

namespace FuseBank.Bench

open Register

/-! ### What is injected -/

namespace Device

/-- How the word at an address fails as the `i`th of a read, if it does: its cycle stalls, or
else its quality value is a fault and is looked at. -/
def failureAt (d : Device) (g : Generation) (i address : Nat) : Option Failure :=
  if d.stallAfter.any (· ≤ d.cycles + i) then some .pollTimeout
  else if g = .two ∧ User.isFault (d.qualityOf (UInt32.ofNat (address % 2 ^ 16))) then
    some .integrityFault
  else none

/-- The failure of the first that fails of `count` words. -/
def firstFailure (d : Device) (g : Generation) (first count : Nat) : Option Failure :=
  (List.range count).findSome? fun i => d.failureAt g i (first + i)

end Device

/-- What a read comes to, by order of precedence. -/
def verdict (w : Wiring) (c : Controller) (s : Bench Device) (offset : UInt32) (len : Nat) :
    Except Failure Nat :=
  match c.descriptor.generation with
  | none => .error .unsupported
  | some g =>
    if ¬ g.Accepts c.size offset len then .error .outOfRange
    else if s.refusals.clocks then .error .clockFailure
    else if g ≠ .three ∧ w.resetLine ∧ (s.refusals.assert ∨ s.refusals.release) then
      .error .resetFailure
    else if g ≠ .three ∧ s.block.stallSideband then .error .sidebandTimeout
    else
      let n := g.granted c.size offset len
      match s.block.firstFailure g (offset.toNat / g.wordSize.toNat)
          (WordRange.span g.wordSize.toNat offset.toNat n).length with
      | some failure => .error failure
      | none => .ok n

/-! ### Words that fail -/

namespace Device

section

variable {d : Device} {g : Generation}

theorem failureAt_of_stalls (hc : d.completesCycle = false) (address : Nat) :
    d.failureAt g 0 address = some .pollTimeout := by
  unfold completesCycle at hc
  unfold failureAt
  cases hs : d.stallAfter with
  | none => simp [hs] at hc
  | some limit => simpa [hs] using hc

theorem not_stalls_of_completes (hc : d.completesCycle = true) :
    d.stallAfter.any (· ≤ d.cycles + 0) = false := by
  unfold completesCycle at hc
  cases hs : d.stallAfter with
  | none => rfl
  | some limit => simpa [hs] using hc

theorem sound_iff {address : Nat} : d.Sound g (UInt32.ofNat address) ↔
    ¬ (g = .two ∧ User.isFault (d.qualityOf (UInt32.ofNat (address % 2 ^ 16)))) := by
  rw [Sound, not_and, Bool.not_eq_true]
  refine forall_congr' fun hg => ?_
  rw [place_of_user (by simp [hg])]

theorem failureAt_of_sound (hc : d.completesCycle = true) {address : Nat}
    (hs : d.Sound g (UInt32.ofNat address)) : d.failureAt g 0 address = none := by
  rw [failureAt, not_stalls_of_completes hc, if_neg Bool.false_ne_true, if_neg (sound_iff.1 hs)]

theorem failureAt_of_not_sound (hc : d.completesCycle = true) {address : Nat}
    (hs : ¬ d.Sound g (UInt32.ofNat address)) :
    d.failureAt g 0 address = some .integrityFault := by
  rw [sound_iff, not_not] at hs
  rw [failureAt, not_stalls_of_completes hc, if_neg Bool.false_ne_true, if_pos hs]

/-- Once `i` cycles have been run, the next word fails as the `i`th does. -/
theorem failureAt_of_blank {d' : Device} {i : Nat} (hblank : d'.blank = d.blank)
    (hcycles : d'.cycles = d.cycles + i) (address : Nat) :
    d'.failureAt g 0 address = d.failureAt g i address := by
  have hstall := stallAfter_of_blank hblank
  have hquality := congrArg (fun c : Device => c.qualityOf (UInt32.ofNat (address % 2 ^ 16))) hblank
  have hquality' : d'.qualityOf (UInt32.ofNat (address % 2 ^ 16)) =
      d.qualityOf (UInt32.ofNat (address % 2 ^ 16)) := hquality
  rw [failureAt, failureAt, hstall, hcycles, hquality', Nat.add_zero]

end

/-! ### Cycles -/

section

variable {d : Device} {g : Generation} {patience : Nat} {address : UInt32}

theorem cycles_cycle (ha : g.Reaches address) :
    (d.cycle g address patience).2.cycles = d.cycles + 1 := by
  have hcore := congrArg cycles (core_polled (d.started g address) g.completion patience)
  refine hcore.trans ?_
  cases hc : d.completesCycle with
  | true =>
    rw [started_of_completes hc ha]
    cases g <;> rfl
  | false =>
    rw [started_of_stalls g address hc]
    cases g <;> rfl

theorem userMode_cycle : (d.cycle g address patience).2.userMode = d.userMode := by
  have hcore := congrArg userMode (core_polled (d.started g address) g.completion patience)
  refine Eq.trans hcore ?_
  cases g with
  | three =>
    show (runSequence _).userMode = _
    unfold runSequence
    split <;> rfl
  | _ => exact runCycle_userMode _

theorem done_of_completes (hc : d.completesCycle = true) (ha : g.Reaches address)
    (hl : d.latency ≤ patience) : (d.cycle g address patience).1 = true := by
  have hlatency : (d.completed g address).latency ≤ patience := by cases g <;> exact hl
  rw [cycle, started_of_completes hc ha]
  exact polled_raise (completion_and_self g) hlatency

end

end Device

/-- A read cycle of an idle device brings in a word, or fails as it has to. -/
theorem outcome_fetch_of_idle (w : Wiring) (t : Timing) (r : Refusals) {g : Generation} {a : Nat}
    (ha : g.Reaches (UInt32.ofNat a)) {d : Device} (hd : d.Serves g) (hidle : d.Idle)
    (hl : d.latency ≤ t.patience) : ∃ result d',
      (g.fetch t (UInt32.ofNat a)).outcome (board w) ⟨d, r⟩ = (result, ⟨d', r⟩) ∧ d'.Idle ∧
        d'.Serves g ∧ d'.blank = d.blank ∧ d'.cycles = d.cycles + 1 ∧ d'.userMode = d.userMode ∧
          match d.failureAt g 0 a with
          | some failure => result = .error failure
          | none => ∃ word, result = .ok word := by
  have hrun := Device.outcome_fetch w t r hd ha
  refine ⟨_, _, hrun, ?_, Device.serves_cycle hd _ _, Device.blank_cycle d g _ _,
    Device.cycles_cycle ha, Device.userMode_cycle, ?_⟩
  · cases hc : d.completesCycle with
    | true => exact (Device.cycle_of_completes hidle hc ha hl).2
    | false => exact (Device.cycle_of_stalls hidle hc).2
  · cases hc : d.completesCycle with
    | false =>
      rw [Device.failureAt_of_stalls hc, (Device.cycle_of_stalls hidle hc).1]
      rfl
    | true =>
      rw [Device.done_of_completes hc ha hl,
        Device.answer_of_core (Device.cycle_of_completes hidle hc ha hl).1, if_pos rfl]
      by_cases hs : d.Sound g (UInt32.ofNat a)
      · rw [Device.failureAt_of_sound hc hs, Device.answer_completed hs]
        exact ⟨_, rfl⟩
      · rw [Device.failureAt_of_not_sound hc hs, Device.answer_completed_of_not_sound hs]

/-- **A row of read cycles** of an idle device, the first `i` words of which have been brought in,
ends at the first word that fails. -/
theorem outcome_gather_of_idle (w : Wiring) (t : Timing) (r : Refusals) {g : Generation}
    {before : Device} {first count i : Nat}
    (hreach : ∀ a ∈ List.range' (first + i) count, g.Reaches (UInt32.ofNat a)) {d : Device}
    (hd : d.Serves g) (hidle : d.Idle) (hl : d.latency ≤ t.patience)
    (hblank : d.blank = before.blank) (hcycles : d.cycles = before.cycles + i)
    (fetched : List UInt32) : ∃ words d',
      (gather (g.fetch t) fetched ((List.range' (first + i) count).map UInt32.ofNat)).outcome
          (board w) ⟨d, r⟩ =
        (⟨words, (List.range' i count).findSome? fun j => before.failureAt g j (first + j)⟩,
          ⟨d', r⟩) ∧ d'.Idle ∧ d'.blank = before.blank ∧ d'.userMode = d.userMode := by
  induction count generalizing i d fetched with
  | zero => exact ⟨fetched.reverse, d, rfl, hidle, hblank, rfl⟩
  | succ count ih =>
    obtain ⟨result, d₁, hrun, hidle₁, hserves₁, hblank₁, hcycles₁, hmode₁, hresult⟩ :=
      outcome_fetch_of_idle w t r (hreach (first + i) (by simp)) hd hidle hl
    rw [Device.failureAt_of_blank hblank hcycles] at hresult
    rw [List.range'_succ, List.range'_succ, List.map_cons, List.findSome?_cons]
    cases hfails : before.failureAt g i (first + i) with
    | some failure =>
      rw [hfails] at hresult
      subst hresult
      refine ⟨fetched.reverse, d₁, ?_, hidle₁, hblank₁.trans hblank, hmode₁⟩
      simp only [gather, Program.outcome_bind, hrun]
      rfl
    | none =>
      rw [hfails] at hresult
      obtain ⟨word, rfl⟩ := hresult
      obtain ⟨words, d', hrest, hidle', hblank', hmode'⟩ := ih (i := i + 1)
        (fun a h => hreach a (by simp at h ⊢; omega)) hserves₁ hidle₁
        ((Nat.le_of_eq (Device.latency_of_blank hblank₁)).trans hl) (hblank₁.trans hblank)
        (by omega) (word :: fetched)
      refine ⟨words, d', ?_, hidle', hblank', hmode'.trans hmode₁⟩
      simp only [gather, Program.outcome_bind, hrun]
      exact hrest

theorem outcome_collect_of_idle (w : Wiring) (t : Timing) (r : Refusals) {g : Generation}
    {offset last : UInt32} {len : Nat} (hlast : offset.toNat + len = last.toNat)
    (hreach : ∀ a ∈ WordRange.span g.wordSize.toNat offset.toNat len, g.Reaches (UInt32.ofNat a))
    {before d : Device} (hd : d.Serves g) (hidle : d.Idle) (hl : d.latency ≤ t.patience)
    (hblank : d.blank = before.blank) (hcycles : d.cycles = before.cycles) :
    ∃ delivery d', (g.collect t (.widen offset last len g.wordSize)).outcome (board w) ⟨d, r⟩ =
        (delivery, ⟨d', r⟩) ∧
      delivery.failure = before.firstFailure g (offset.toNat / g.wordSize.toNat)
        (WordRange.span g.wordSize.toNat offset.toNat len).length ∧
      d'.Idle ∧ d'.blank = before.blank ∧ d'.userMode = d.userMode := by
  have hspan : WordRange.span g.wordSize.toNat offset.toNat len =
      List.range' (offset.toNat / g.wordSize.toNat + 0)
        (WordRange.span g.wordSize.toNat offset.toNat len).length := by
    rw [WordRange.span, List.length_range', Nat.add_zero]
  obtain ⟨words, d', hrun, h⟩ := outcome_gather_of_idle w t r (i := 0) (hspan ▸ hreach) hd hidle hl
    hblank hcycles []
  rw [← hspan, ← WordRange.words_widen hlast g.wordSize_pos] at hrun
  refine ⟨_, d', by rw [outcome_collect, hrun], ?_, h⟩
  rw [Generation.failure_deliver, Device.firstFailure, List.range_eq_range']

/-! ### Reads of a device at rest -/

namespace Device

/-- A device at rest: no bit is up or pending, nobody has taken the fuse macro, and completions
show in time. -/
structure AtRest (d : Device) (generation : Option Generation) (patience : Nat) : Prop
    extends Device.Idle d where
  userMode : d.userMode = false
  latency : d.latency ≤ patience
  layout : ∀ g, generation = some g → d.layout = g.layout

theorem AtRest.of_blank {d d' : Device} {generation : Option Generation} {patience : Nat}
    (h : d.AtRest generation patience) (hidle : d'.Idle) (hmode : d'.userMode = false)
    (hblank : d'.blank = d.blank) : d'.AtRest generation patience :=
  ⟨hidle, hmode, (Nat.le_of_eq (latency_of_blank hblank)).trans h.latency, fun g hg =>
    (layout_of_blank hblank).trans (h.layout g hg)⟩

theorem done_latched {d : Device} (h : d.Idle) {patience : Nat} (hl : d.latency ≤ patience)
    (latch : EccLatch) :
    ((d.latched latch).polled sidebandDone patience).1 = !d.stallSideband := by
  cases hs : d.stallSideband with
  | true =>
    have hp : (d.latched latch).pending = 0 := (pending_of_stalls hs latch).trans h.pending
    rw [polled_of_dark (dark_latched h.toDark latch) _ (.inl hp)]
    rfl
  | false =>
    refine polled_of_pending ?_ (by rwa [countdown_of_runs hs])
    rw [pending_of_runs hs]
    exact and_or_ne_zero (by decide)

theorem cycles_readied (d : Device) (latch : EccLatch) (patience : Nat) :
    (d.readied latch patience).cycles = d.cycles := by
  obtain ⟨_, hcore⟩ := core_latched d latch patience
  have := congrArg cycles hcore
  exact this

theorem userMode_latched (d : Device) (latch : EccLatch) (patience : Nat) :
    ((d.latched latch).polled sidebandDone patience).2.userMode = d.userMode := by
  obtain ⟨_, hcore⟩ := core_latched d latch patience
  have := congrArg userMode hcore
  exact this

end Device

theorem outcome_execute_three_at_rest (w : Wiring) (t : Timing) (r : Refusals) {size : UInt32}
    {offset last : UInt32} {len : Nat} (ha : Generation.three.Accepts size offset len)
    (hlast : offset.toNat + Generation.three.granted size offset len = last.toNat) {d : Device}
    (h : d.AtRest (some .three) t.patience) : ∃ delivery d',
      (Generation.three.execute t (.widen offset last (Generation.three.granted size offset len)
          Generation.three.wordSize)).outcome (board w) ⟨d, r⟩ = (delivery, ⟨d', r⟩) ∧
        delivery.failure = d.firstFailure .three (offset.toNat / Generation.three.wordSize.toNat)
          (WordRange.span Generation.three.wordSize.toNat offset.toNat
            (Generation.three.granted size offset len)).length ∧
        d'.AtRest (some .three) t.patience := by
  obtain ⟨delivery, d', hcollect, hfailure, hidle, hblank, hmode⟩ := outcome_collect_of_idle w t r
    hlast (fun _ hmem => reaches_of_accepts ha hmem)
    ⟨h.layout _ rfl, fun hne => absurd rfl hne⟩ h.toIdle h.latency rfl rfl
  exact ⟨delivery, d', (Device.outcome_execute_three ..).trans hcollect, hfailure,
    h.of_blank hidle (hmode.trans h.userMode) hblank⟩

theorem outcome_execute_user_at_rest (w : Wiring) (t : Timing) (r : Refusals) {g : Generation}
    (huser : g ≠ .three) {size : UInt32} {offset last : UInt32} {len : Nat}
    (ha : g.Accepts size offset len)
    (hlast : offset.toNat + g.granted size offset len = last.toNat) {d : Device}
    (h : d.AtRest (some g) t.patience) : ∃ delivery d',
      (g.execute t (.widen offset last (g.granted size offset len) g.wordSize)).outcome (board w)
          ⟨d, r⟩ = (delivery, ⟨d', r⟩) ∧
        delivery.failure =
          (if w.resetLine && (r.assert || r.release) then some .resetFailure
          else if d.stallSideband then some .sidebandTimeout
          else d.firstFailure g (offset.toNat / g.wordSize.toNat)
            (WordRange.span g.wordSize.toNat offset.toNat
              (g.granted size offset len)).length) ∧
        d'.AtRest (some g) t.patience := by
  obtain ⟨latch, hlatch⟩ := Generation.exists_latch huser
  have hlay := h.layout g rfl
  have hready := Device.idle_latched h.toIdle h.latency latch
  have hblank := Device.blank_readied d latch t.patience
  rw [Device.outcome_execute_user w t r (Device.layout_of_user huser hlay) hlatch,
    Device.done_latched h.toIdle h.latency latch]
  cases w.resetLine && (r.assert || r.release) with
  | true => exact ⟨_, _, rfl, rfl, h⟩
  | false =>
    cases d.stallSideband with
    | true =>
      exact ⟨_, _, rfl, rfl, h.of_blank hready
        ((Device.userMode_latched d latch _).trans h.userMode) hblank⟩
    | false =>
      obtain ⟨delivery, d', hcollect, hfailure, hidle, hblank', -⟩ := outcome_collect_of_idle w t r
        hlast (fun _ hmem => reaches_of_accepts ha hmem)
        (Device.serves_readied hlay latch t.patience)
        ⟨⟨hready.status, hready.stuck⟩, hready.pending⟩
        ((Nat.le_of_eq (Device.latency_of_blank hblank)).trans h.latency) hblank
        (Device.cycles_readied d latch t.patience)
      refine ⟨delivery, { d' with userMode := false }, ?_, hfailure, ?_⟩
      · simp [hcollect]
      · exact h.of_blank ⟨⟨hidle.status, hidle.stuck⟩, hidle.pending⟩ rfl hblank'

/-- A planned read of a device at rest fails at the reset line, at the sideband, or at the first
word that fails. -/
theorem outcome_execute_at_rest (w : Wiring) (t : Timing) (r : Refusals) {g : Generation}
    {size : UInt32} {offset last : UInt32} {len : Nat} (ha : g.Accepts size offset len)
    (hlast : offset.toNat + g.granted size offset len = last.toNat) {d : Device}
    (h : d.AtRest (some g) t.patience) : ∃ delivery d',
      (g.execute t (.widen offset last (g.granted size offset len) g.wordSize)).outcome (board w)
          ⟨d, r⟩ = (delivery, ⟨d', r⟩) ∧
        delivery.failure =
          (if g ≠ .three ∧ w.resetLine ∧ (r.assert ∨ r.release) then some .resetFailure
          else if g ≠ .three ∧ d.stallSideband then some .sidebandTimeout
          else d.firstFailure g (offset.toNat / g.wordSize.toNat)
            (WordRange.span g.wordSize.toNat offset.toNat
              (g.granted size offset len)).length) ∧
        d'.AtRest (some g) t.patience := by
  by_cases huser : g = .three
  · subst huser
    simpa using outcome_execute_three_at_rest w t r ha hlast h
  · simpa [huser] using outcome_execute_user_at_rest w t r huser ha hlast h

/-- **A read of a device at rest comes to its verdict**, and leaves the device at rest. -/
theorem outcome_read_at_rest (w : Wiring) {c : Controller} {s : Bench Device}
    (h : s.block.AtRest c.descriptor.generation c.timing.patience) (offset : UInt32)
    (buffer : List UInt8) : ∃ reply d',
      (c.read offset buffer).outcome (board w) s = (reply, ⟨d', s.refusals⟩) ∧
        reply.result = verdict w c s offset buffer.length ∧
        d'.AtRest c.descriptor.generation c.timing.patience := by
  obtain ⟨d, r⟩ := s
  cases hg : c.descriptor.generation with
  | none =>
    refine ⟨⟨.error .unsupported, buffer⟩, d, ?_, ?_, hg ▸ h⟩
    · rw [Controller.read, Controller.readWith, hg]
      rfl
    · rw [verdict, hg]
  | some g =>
    rw [hg] at h
    simp only [verdict, hg]
    by_cases ha : g.Accepts c.size offset buffer.length
    · rw [if_neg (not_not.2 ha)]
      cases hclocks : r.clocks with
      | true =>
        exact ⟨_, d, outcome_read_of_clocks w hg offset buffer ⟨d, r⟩ ha hclocks, rfl, h⟩
      | false =>
        obtain ⟨last, hlast, hread⟩ :=
          outcome_read_of_accepts w hg offset buffer ⟨d, r⟩ ha hclocks
        obtain ⟨delivery, d', hexecute, hfailure, hrest⟩ :=
          outcome_execute_at_rest w c.timing r ha hlast h
        dsimp only at hread
        rw [hexecute] at hread
        refine ⟨_, d', hread, ?_, hrest⟩
        rw [Delivery.reply, hfailure, if_neg Bool.false_ne_true]
        split_ifs
        · rfl
        · rfl
        · generalize d.firstFailure _ _ _ = failure
          cases failure <;> rfl
    · rw [if_pos ha]
      exact ⟨_, d, outcome_read_of_not_accepts w hg offset buffer ⟨d, r⟩ ha, rfl, h⟩

/-! ### Changes and calls -/

/-- A change that leaves a device of the kind that it is, with nothing stuck and with completions
that show before so many pauses are over. -/
structure Device.Change.Timely (change : Device.Change) (patience : Nat) : Prop where
  layout : change.layout = none
  stuck : ∀ bits ∈ change.stuck, bits = 0
  latency : ∀ samples ∈ change.latency, samples ≤ patience

/-- Something that is done on a bench: its hardware is changed, or the controller is called. -/
inductive Trial where
  /-- Change the hardware. -/
  | change (change : Change)
  /-- Call the controller. -/
  | call (call : Call)

/-- A bench with a device once its hardware has been changed. -/
def changeDevice (s : Bench Device) (c : Change) : Bench Device where
  block := c.device.elim s.block s.block.change
  refusals :=
    { clocks := c.clocks.getD s.refusals.clocks
      assert := c.assert.getD s.refusals.assert
      release := c.release.getD s.refusals.release }

theorem change_device (s : Bench Device) (c : Change) :
    change ⟨.device s.block, s.refusals⟩ c =
      ⟨.device (changeDevice s c).block, (changeDevice s c).refusals⟩ := rfl

/-- How a bench is left by some trials, one after the other. -/
def afterTrials (w : Wiring) (c : Controller) (s : Bench Device) : List Trial → Bench Device
  | [] => s
  | .change change :: trials => afterTrials w c (changeDevice s change) trials
  | .call call :: trials => afterTrials w c ((c.call call).run (board w) s).state trials

/-- A timely change leaves a device at rest. -/
theorem Device.AtRest.change {d : Device} {generation : Option Generation} {patience : Nat}
    (h : d.AtRest generation patience) {c : Device.Change} (hc : c.Timely patience) :
    (d.change c).AtRest generation patience := by
  refine ⟨⟨⟨h.status, ?_⟩, h.pending⟩, h.userMode, ?_, fun g hg => ?_⟩
  · cases hs : c.stuck with
    | none => simpa [Device.change, hs] using h.stuck
    | some bits => simpa [Device.change, hs] using hc.stuck bits hs
  · cases hl : c.latency with
    | none => simpa [Device.change, hl] using h.latency
    | some samples => simpa [Device.change, hl] using hc.latency samples hl
  · simpa [Device.change, hc.layout] using h.layout g hg

theorem atRest_changeDevice {s : Bench Device} {generation : Option Generation} {patience : Nat}
    (h : s.block.AtRest generation patience) {c : Change}
    (hc : ∀ d ∈ c.device, d.Timely patience) :
    (changeDevice s c).block.AtRest generation patience := by
  unfold changeDevice
  cases hd : c.device with
  | none => exact h
  | some change => exact h.change (hc change hd)

theorem atRest_afterTrials (w : Wiring) {c : Controller} (trials : List Trial)
    (htimely : ∀ change, .change change ∈ trials → ∀ d ∈ change.device,
      d.Timely c.timing.patience)
    {s : Bench Device} (h : s.block.AtRest c.descriptor.generation c.timing.patience) :
    (afterTrials w c s trials).block.AtRest c.descriptor.generation c.timing.patience := by
  induction trials generalizing s with
  | nil => exact h
  | cons trial trials ih =>
    have hrest := fun change hmem => htimely change (List.mem_cons_of_mem _ hmem)
    cases trial with
    | change change => exact ih hrest (atRest_changeDevice h (htimely change (by simp)))
    | call call =>
      have hread : ∀ offset buffer (s : Bench Device),
          s.block.AtRest c.descriptor.generation c.timing.patience →
          ((c.read offset buffer).outcome (board w) s).2.block.AtRest c.descriptor.generation
            c.timing.patience := by
        intro offset buffer s h
        obtain ⟨reply, d', hrun, -, h'⟩ := outcome_read_at_rest w h offset buffer
        rw [hrun]
        exact h'
      exact ih hrest (Controller.after_keeps (P := fun s : Bench Device =>
        s.block.AtRest c.descriptor.generation c.timing.patience) (board w) c hread [call] h)

/-- **Every read comes to its verdict.** Whatever was changed and called before on a bench with a
new device, a read comes to what the order of precedence says of the bench as it is, and
leaves the device with no bit up or pending and with the fuse macro handed back. -/
theorem read_comes_to_verdict (w : Wiring) {c : Controller} {d : Device} (r : Refusals)
    (hlayout : ∀ g, c.descriptor.generation = some g → d.layout = g.layout)
    (hnew : d.blank = d) (hstuck : d.stuck = 0) (hlatency : d.latency ≤ c.timing.patience)
    (trials : List Trial)
    (htimely : ∀ change, .change change ∈ trials → ∀ d ∈ change.device,
      d.Timely c.timing.patience)
    (offset : UInt32) (buffer : List UInt8) :
    let s := afterTrials w c ⟨d, r⟩ trials
    let q := (c.read offset buffer).run (board w) s
    q.value.result = verdict w c s offset buffer.length ∧ q.state.block.status = 0 ∧
      q.state.block.pending = 0 ∧ q.state.block.userMode = false := by
  intro s q
  have hstatus := congrArg Device.status hnew
  have hpending := congrArg Device.pending hnew
  have hmode := congrArg Device.userMode hnew
  have hstart : d.AtRest c.descriptor.generation c.timing.patience :=
    ⟨⟨⟨hstatus.symm, hstuck⟩, hpending.symm⟩, hmode.symm, hlatency, hlayout⟩
  obtain ⟨reply, d', hrun, hresult, h'⟩ :=
    outcome_read_at_rest w (atRest_afterTrials w trials htimely (s := ⟨d, r⟩) hstart) offset buffer
  have hvalue : q.value = reply := congrArg Prod.fst hrun
  have hstate : q.state.block = d' := congrArg (fun p => p.2.block) hrun
  rw [hvalue, hstate]
  exact ⟨hresult, h'.status, h'.pending, h'.userMode⟩

/-- The reset line refuses and a read fails; then it obeys, but the second cycle stalls and its
word is at fault besides. -/
theorem read_comes_to_verdict_tie :
    let c : Controller := ⟨.rk3568, {}⟩
    let faulty : Device.Change := { stallAfter := some (some 1), faults := some [(1, 0x20)] }
    let trials : List Trial := [.change { assert := some true }, .call (.read 0 [0]),
      .change { assert := some false, device := some faulty }]
    let s := afterTrials {} c ⟨{ layout := .halfwords }, {}⟩ trials
    let q := (c.read 0 [0, 0, 0, 0, 0, 0]).run (board {}) s
    q.value.result = .error .pollTimeout ∧ q.state.block.pending = 0 := by
  intro c faulty trials s
  have htimely : ∀ change, .change change ∈ trials → ∀ d ∈ change.device,
      d.Timely c.timing.patience := by
    intro change hmem d hd
    simp only [trials, List.mem_cons, Trial.change.injEq, List.not_mem_nil, or_false,
      reduceCtorEq, false_or] at hmem
    rcases hmem with rfl | rfl
    · cases hd
    · obtain rfl : faulty = d := Option.some.inj hd
      exact ⟨rfl, by simp [faulty], by simp [faulty]⟩
  have hverdict : verdict {} c s 0 6 = .error .pollTimeout := by decide +kernel
  have hread := read_comes_to_verdict {} (c := c) (d := { layout := .halfwords }) {}
    (fun g hg => by cases hg; rfl) rfl rfl (Nat.zero_le _) trials htimely 0 [0, 0, 0, 0, 0, 0]
  -- with the trials before it in sight the read would be run to compare the two statements
  generalize hs : afterTrials {} c ⟨{ layout := .halfwords }, {}⟩ trials = s' at hread
  obtain rfl : s = s' := hs
  clear_value s
  exact ⟨hread.1.trans hverdict, hread.2.2.1⟩

end FuseBank.Bench
