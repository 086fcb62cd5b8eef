import FuseBank.Proofs.Outcome

/-!
# How a device's completions show

A poll of a simulated device has an effect on the device's status alone: on the bits that
show, on the pending ones and on the samples that these still wait for. Seen from the device
a poll is `Device.polled`, by recursion on the pauses that are left.

From any state at all a bit that is pending shows before the poll gives up, provided that it
waits for no more samples than the poll has pauses (`Device.polled_of_pending`), and a bit that
nothing has raised does not show (`Device.polled_of_quiet`). On a device that is dark, which shows
nothing, more can be said: a bit that waits longer does not show, and neither does one that is not
pending (`Device.polled_of_dark`), and after a bit that does show the device is dark again
(`Device.polled_of_due`).

## Main statements

* `Device.outcome_sampling`, `Device.outcome_await`: a poll of a device comes to `polled`.
* `Device.core_polled`: a poll changes nothing but the status.
* `Device.outcome_blank`: no run changes what a device is like.
-/

namespace FuseBank.Bench.Device

/-! ### What a run leaves alone -/

/-- A device of the same kind with which nothing has been done yet. -/
def blank (d : Device) : Device where
  layout := d.layout
  fuses := d.fuses
  latency := d.latency
  stuck := d.stuck
  stallAfter := d.stallAfter
  stallSideband := d.stallSideband
  faults := d.faults

/-- The device with no bit up and none pending. -/
def core (d : Device) : Device := { d with status := 0, pending := 0, countdown := 0 }

theorem blank_of_core {d d' : Device} (h : d'.core = d.core) : d'.blank = d.blank := by
  have := congrArg blank h
  exact this

theorem layout_of_blank {d d' : Device} (h : d'.blank = d.blank) : d'.layout = d.layout := by
  have := congrArg layout h
  exact this

theorem latency_of_blank {d d' : Device} (h : d'.blank = d.blank) : d'.latency = d.latency := by
  have := congrArg latency h
  exact this

theorem stallAfter_of_blank {d d' : Device} (h : d'.blank = d.blank) :
    d'.stallAfter = d.stallAfter := by
  have := congrArg stallAfter h
  exact this

theorem stallSideband_of_blank {d d' : Device} (h : d'.blank = d.blank) :
    d'.stallSideband = d.stallSideband := by
  have := congrArg stallSideband h
  exact this

theorem fuse_of_blank {d d' : Device} (h : d'.blank = d.blank) (i : Nat) :
    d'.fuse i = d.fuse i := by
  have := congrArg fuse h
  exact congrFun this i

theorem core_sample (d : Device) : d.sample.2.core = d.core := by
  unfold sample
  split <;> rfl

@[simp] theorem layout_sample (d : Device) : d.sample.2.layout = d.layout :=
  layout_of_blank (blank_of_core (core_sample d))

theorem blank_runCycle (d : Device) : d.runCycle.blank = d.blank := by
  unfold runCycle
  split <;> rfl

theorem blank_runSequence (d : Device) : d.runSequence.blank = d.blank := by
  unfold runSequence
  split <;> rfl

theorem blank_runSideband (d : Device) : d.runSideband.blank = d.blank := by
  unfold runSideband
  split <;> rfl

theorem blank_writeUser (d : Device) (offset : Nat) (value : UInt32) :
    (d.writeUser offset value).blank = d.blank := by
  unfold writeUser
  simp only [apply_ite blank, blank_runSideband, blank_runCycle]
  simp only [blank, clear, ite_self]

theorem blank_writeSequencer (d : Device) (offset : Nat) (value : UInt32) :
    (d.writeSequencer offset value).blank = d.blank := by
  unfold writeSequencer
  simp only [apply_ite blank, blank_runSequence]
  simp only [blank, clear, ite_self]

theorem blank_write (d : Device) (offset : Nat) (value : UInt32) :
    (d.write offset value).blank = d.blank := by
  unfold write
  split
  · exact blank_writeUser d offset value
  · exact blank_writeUser d offset value
  · exact blank_writeSequencer d offset value
  · rfl

theorem blank_read (d : Device) (offset : Nat) :
    (RegisterBlock.read offset d).2.blank = d.blank := by
  unfold RegisterBlock.read instRegisterBlock
  dsimp only
  split
  · exact blank_of_core (core_sample d)
  · rfl

theorem perform_blank (w : Wiring) (action : Action) (s : Bench Device) :
    ((board w).perform action s).state.block.blank = s.block.blank := by
  cases action with
  | read offset => exact blank_read _ _
  | readLane offset =>
    cases hl : w.byteLane <;> simp only [Board.perform, board, hl] <;> exact blank_read _ _
  | write offset value => exact blank_write _ _ _
  | assertReset => cases hr : w.resetLine <;> simp [Board.perform, board, hr, Record.still]
  | releaseReset => cases hr : w.resetLine <;> simp [Board.perform, board, hr, Record.still]
  | _ => rfl

/-- **No run changes what a device is like.** -/
theorem outcome_blank {α : Type} (w : Wiring) (p : Program α) (s : Bench Device) :
    (p.outcome (board w) s).2.block.blank = s.block.blank :=
  p.outcome_keeps (P := fun s' : Bench Device => s'.block.blank = s.block.blank) _
    (fun action s' h => (perform_blank w action s').trans h) rfl

/-! ### Polls of a device -/

/-- A poll for any of some bits with so many pauses left: whether one came up, and the
device afterwards. -/
def polled (d : Device) (mask : UInt32) (left : Nat) : Bool × Device :=
  if d.sample.1 &&& mask ≠ 0 then (true, d.sample.2.clear mask)
  else
    match left with
    | 0 => (false, d.sample.2)
    | left + 1 => d.sample.2.polled mask left

theorem read_statusRegister {d : Device} {offset : Nat} (h : offset = d.layout.statusRegister) :
    RegisterBlock.read offset d = d.sample := by
  simp [RegisterBlock.read, h]

theorem write_statusRegister {d : Device} {offset : Nat} (h : offset = d.layout.statusRegister)
    (hlay : d.layout ≠ .inert) (value : UInt32) :
    RegisterBlock.write offset value d = d.clear value := by
  subst h
  show d.write d.layout.statusRegister value = d.clear value
  unfold write
  cases hl : d.layout with
  | inert => exact absurd hl hlay
  | words => simp [writeSequencer, Layout.statusRegister]
  | _ => simp [writeUser, Layout.statusRegister]

/-- A poll of a device's own status register comes to `polled`. -/
theorem outcome_sampling (w : Wiring) (p : Poll) (us : UInt32) (left : Nat) (d : Device)
    (r : Refusals) (hreg : p.register = d.layout.statusRegister) (hlay : d.layout ≠ .inert) :
    (p.sampling us left).outcome (board w) ⟨d, r⟩ =
      ((d.polled p.mask left).1, ⟨(d.polled p.mask left).2, r⟩) := by
  induction left generalizing d with
  | zero =>
    have hwrite := write_statusRegister (d := d.sample.2) (by simpa using hreg)
      (by simpa using hlay)
    rw [Poll.sampling, polled]
    by_cases hit : d.sample.1 &&& p.mask = 0 <;> simp [read_statusRegister hreg, hwrite, hit]
  | succ left ih =>
    have hwrite := write_statusRegister (d := d.sample.2) (by simpa using hreg)
      (by simpa using hlay)
    have hnext := ih d.sample.2 (by simpa using hreg) (by simpa using hlay)
    rw [Poll.sampling, polled]
    by_cases hit : d.sample.1 &&& p.mask = 0 <;>
      simp [read_statusRegister hreg, hwrite, hit, hnext]

theorem outcome_await (w : Wiring) (p : Poll) (tick : UInt32) (complaint : Message) (d : Device)
    (r : Refusals) (hreg : p.register = d.layout.statusRegister) (hlay : d.layout ≠ .inert) :
    (p.await tick complaint).outcome (board w) ⟨d, r⟩ =
      ((d.polled p.mask (Poll.pauses p.budget tick)).1,
        ⟨(d.polled p.mask (Poll.pauses p.budget tick)).2, r⟩) := by
  rw [Poll.await, Poll.wait_eq_sampling, Program.outcome_bind,
    outcome_sampling w p _ _ d r hreg hlay]
  cases h : (d.polled p.mask (Poll.pauses p.budget tick)).1 <;> simp

/-- A poll changes nothing but the status. -/
theorem core_polled (d : Device) (mask : UInt32) (left : Nat) :
    (d.polled mask left).2.core = d.core := by
  induction left generalizing d with
  | zero =>
    rw [polled]
    split
    · exact core_sample d
    · exact core_sample d
  | succ left ih =>
    rw [polled]
    split
    · exact core_sample d
    · exact (ih _).trans (core_sample d)

/-! ### Which bits come up -/

theorem and_or_ne_zero {a b mask : UInt32} (h : b &&& mask ≠ 0) : (a ||| b) &&& mask ≠ 0 := by
  intro h0
  apply h
  have hb : (a ||| b) &&& b = b := by
    apply UInt32.toBitVec_inj.1
    ext i hi
    simp
    grind
  rw [← hb, UInt32.and_assoc, UInt32.and_comm b, ← UInt32.and_assoc, h0, UInt32.zero_and]

theorem or_and_eq_zero {a b mask : UInt32} (ha : a &&& mask = 0) (hb : b &&& mask = 0) :
    (a ||| b) &&& mask = 0 := by
  have ha' := congrArg UInt32.toBitVec ha
  have hb' := congrArg UInt32.toBitVec hb
  apply UInt32.toBitVec_inj.1
  simp only [UInt32.toBitVec_and, UInt32.toBitVec_or] at ha' hb' ⊢
  rw [BitVec.and_or_distrib_right, ha', hb']
  rfl

/-- A pending bit comes up in time, whatever else the status shows. -/
theorem polled_of_pending {d : Device} {mask : UInt32} {left : Nat} (hp : d.pending &&& mask ≠ 0)
    (hc : d.countdown ≤ left) : (d.polled mask left).1 = true := by
  induction left generalizing d with
  | zero =>
    have hs : d.sample.1 = d.status ||| d.pending ||| d.stuck := by
      simp [sample, show d.countdown = 0 by omega]
    have hit : d.sample.1 &&& mask ≠ 0 := by
      rw [hs, UInt32.or_assoc, UInt32.or_comm d.pending, ← UInt32.or_assoc]
      exact and_or_ne_zero hp
    rw [polled, if_pos hit]
  | succ left ih =>
    rw [polled]
    split
    · rfl
    · rename_i hmiss
      by_cases hc0 : d.countdown = 0
      · have hs : d.sample.1 = d.status ||| d.pending ||| d.stuck := by simp [sample, hc0]
        refine absurd ?_ hmiss
        rw [hs, UInt32.or_assoc, UInt32.or_comm d.pending, ← UInt32.or_assoc]
        exact and_or_ne_zero hp
      · have hs : d.sample.2 = { d with countdown := d.countdown - 1 } := by
          simp [sample, show 0 < d.countdown by omega]
        rw [hs]
        exact ih hp (by simp; omega)

/-- None of some bits is up, pending or stuck. -/
structure Quiet (d : Device) (mask : UInt32) : Prop where
  status : d.status &&& mask = 0
  pending : d.pending &&& mask = 0
  stuck : d.stuck &&& mask = 0

theorem sample_of_quiet {d : Device} {mask : UInt32} (h : d.Quiet mask) :
    d.sample.1 &&& mask = 0 ∧ d.sample.2.Quiet mask := by
  obtain ⟨hstatus, hpending, hstuck⟩ := h
  unfold sample
  by_cases hc : 0 < d.countdown
  · simp only [hc, if_true]
    exact ⟨or_and_eq_zero hstatus hstuck, hstatus, hpending, hstuck⟩
  · simp only [hc, if_false]
    have hshown := or_and_eq_zero hstatus hpending
    exact ⟨or_and_eq_zero hshown hstuck, hshown, UInt32.zero_and, hstuck⟩

/-- **A poll for bits that nothing has raised** finds none of them. -/
theorem polled_of_quiet {d : Device} {mask : UInt32} (h : d.Quiet mask) (left : Nat) :
    (d.polled mask left).1 = false ∧ (d.polled mask left).2.Quiet mask := by
  induction left generalizing d with
  | zero =>
    obtain ⟨hmiss, hnext⟩ := sample_of_quiet h
    rw [polled, if_neg (not_not.2 hmiss)]
    exact ⟨rfl, hnext⟩
  | succ left ih =>
    obtain ⟨hmiss, hnext⟩ := sample_of_quiet h
    rw [polled, if_neg (not_not.2 hmiss)]
    exact ih hnext

/-- A device that shows no bit, and has none stuck. -/
structure Dark (d : Device) : Prop where
  status : d.status = 0
  stuck : d.stuck = 0

/-- While it waits on, or has nothing to show, a device stays dark. -/
theorem sample_of_dark {d : Device} (h : d.Dark) (hp : d.pending = 0 ∨ 0 < d.countdown) :
    d.sample = (0, { d with countdown := d.countdown - 1 }) := by
  unfold sample
  by_cases hc : 0 < d.countdown
  · simp [hc, h.status, h.stuck]
  · have hp0 : d.pending = 0 := hp.resolve_right hc
    have hc0 : d.countdown = 0 := by omega
    obtain ⟨hs, ht⟩ := h
    cases d
    simp_all

/-- **On a dark device** a poll comes to nothing as long as nothing is pending, or what is
pending waits for longer. -/
theorem polled_of_dark {d : Device} {left : Nat} (h : d.Dark) (mask : UInt32)
    (hp : d.pending = 0 ∨ left < d.countdown) :
    d.polled mask left = (false, { d with countdown := d.countdown - (left + 1) }) := by
  induction left generalizing d with
  | zero =>
    rw [polled, sample_of_dark h (by simpa using hp)]
    simp
  | succ left ih =>
    rw [polled, sample_of_dark h (hp.imp_right fun hlt => by omega)]
    simp only [UInt32.zero_and, ne_eq, not_true_eq_false, if_false]
    have hnext := ih (d := { d with countdown := d.countdown - 1 }) ⟨h.status, h.stuck⟩
      (hp.imp_right fun hlt => Nat.lt_sub_of_add_lt hlt)
    simpa only [Nat.sub_sub, Nat.add_comm 1] using hnext

/-- **What is due on a dark device** ends the poll, and then nothing is left to show. -/
theorem polled_of_due {d : Device} {left : Nat} (h : d.Dark) (hne : d.pending ≠ 0)
    (hc : d.countdown ≤ left) :
    d.polled d.pending left = (true, { d with pending := 0, countdown := 0 }) := by
  induction left generalizing d with
  | zero =>
    have hc0 : d.countdown = 0 := by omega
    have hs : d.sample = (d.pending, { d with status := d.pending, pending := 0 }) := by
      simp [sample, hc0, h.status, h.stuck]
    rw [polled, hs]
    simp [hne, clear, h.status, hc0]
  | succ left ih =>
    by_cases hc0 : d.countdown = 0
    · have hs : d.sample = (d.pending, { d with status := d.pending, pending := 0 }) := by
        simp [sample, hc0, h.status, h.stuck]
      rw [polled, hs]
      simp [hne, clear, h.status, hc0]
    · rw [polled, sample_of_dark h (.inr (by omega))]
      simp only [UInt32.zero_and, ne_eq, not_true_eq_false, if_false]
      have hnext := ih (d := { d with countdown := d.countdown - 1 }) ⟨h.status, h.stuck⟩ hne
        (by simp; omega)
      simpa using hnext

end FuseBank.Bench.Device
