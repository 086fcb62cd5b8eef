import FuseBank.Proofs.HonestRead

/-!
# Devices that show nothing

A device is dark if it shows no bit, and idle if besides nothing is pending. What happens to
such a device is known exactly: a cycle that is completed in time is found to be complete and
leaves the device idle, a cycle that stalls is given up on, and so is one that is completed
too late, which leaves its bit pending. So an idle device is honest if its completions come
up in time, and a dark one is if all of them are late and none stalls.

## Main statements

* `Device.honest_of_idle`, `Device.honest_of_late`: which dark devices are honest.
* `Device.idle_latched`, `Device.late_latched`: how the sideband leaves a dark device.
-/

namespace FuseBank.Bench

open Register

namespace Device

/-- A dark device with nothing pending. -/
structure Idle (d : Device) : Prop extends Dark d where
  pending : d.pending = 0

/-! ### Cycles of dark devices -/

section

variable {d : Device} {g : Generation} {patience : Nat} {address : UInt32}

theorem completesCycle_of_none (h : d.stallAfter = none) : d.completesCycle = true := by
  simp [completesCycle, h]

theorem not_completesCycle_of_zero (h : d.stallAfter = some 0) : d.completesCycle = false := by
  simp [completesCycle, h]

theorem cycle_of_stalls (h : d.Idle) (hc : d.completesCycle = false) :
    (d.cycle g address patience).1 = false ∧ (d.cycle g address patience).2.Idle := by
  have hidle : (d.stalled g address).Idle := by
    cases g <;> exact ⟨⟨h.status, h.stuck⟩, h.pending⟩
  rw [cycle, started_of_stalls g address hc, polled_of_dark hidle.toDark _ (.inl hidle.pending)]
  exact ⟨rfl, ⟨hidle.status, hidle.stuck⟩, hidle.pending⟩

/-- A cycle that is completed on an idle device, and in time, leaves it idle. -/
theorem cycle_of_completes (h : d.Idle) (hc : d.completesCycle = true) (ha : g.Reaches address)
    (hl : d.latency ≤ patience) :
    (d.cycle g address patience).2.core = (d.completed g address).core ∧
      (d.cycle g address patience).2.Idle := by
  have hdark : ((d.completed g address).raise g.completion).Dark := by
    cases g <;> exact ⟨h.status, h.stuck⟩
  have hpending : ((d.completed g address).raise g.completion).pending = g.completion := by
    have hp : (d.completed g address).pending = 0 := by cases g <;> exact h.pending
    rw [raise, hp, UInt32.zero_or]
  have hcountdown : ((d.completed g address).raise g.completion).countdown ≤ patience := by
    cases g <;> exact hl
  have hne : ((d.completed g address).raise g.completion).pending ≠ 0 := by
    rw [hpending]
    cases g <;> decide
  have hdue := polled_of_due hdark hne hcountdown
  rw [hpending] at hdue
  rw [cycle, started_of_completes hc ha, hdue]
  exact ⟨rfl, ⟨hdark.status, hdark.stuck⟩, rfl⟩

/-- A cycle that is completed on a dark device, but not in time, is given up on. -/
theorem cycle_of_late (h : d.Dark) (hc : d.completesCycle = true) (ha : g.Reaches address)
    (hl : patience < d.latency) :
    d.cycle g address patience = (false, { d.completed g address with
      pending := d.pending ||| g.completion
      countdown := d.latency - (patience + 1) }) := by
  have hdark : ((d.completed g address).raise g.completion).Dark := by
    cases g <;> exact ⟨h.status, h.stuck⟩
  have hcountdown : patience < ((d.completed g address).raise g.completion).countdown := by
    cases g <;> exact hl
  rw [cycle, started_of_completes hc ha, polled_of_dark hdark _ (.inr hcountdown)]
  cases g <;> rfl

end

section

variable {d : Device} {patience : Nat} (g : Generation)

/-- An idle device is honest if it completes its cycles in time, or not at all. -/
theorem honest_of_idle (h : d.latency ≤ patience ∨ d.stallAfter = some 0) :
    d.Honest g patience Idle := by
  have hcycle : ∀ {d₁ : Device}, d₁.blank = d.blank → d₁.completesCycle = true →
      d₁.latency ≤ patience := by
    intro d₁ hblank hc
    have hlatency := latency_of_blank hblank
    have hstall := stallAfter_of_blank hblank
    rcases h with hl | hs
    · exact (Nat.le_of_eq hlatency).trans hl
    · rw [not_completesCycle_of_zero (hstall.trans hs)] at hc
      cases hc
  refine ⟨fun {d₁} hblank hidle address ha hdone => ?_, fun {d₁} hblank hidle address ha => ?_⟩
  · cases hc : d₁.completesCycle with
    | false =>
      rw [(cycle_of_stalls hidle hc).1] at hdone
      cases hdone
    | true => exact (cycle_of_completes hidle hc ha (hcycle hblank hc)).1
  · cases hc : d₁.completesCycle with
    | false => exact (cycle_of_stalls hidle hc).2
    | true => exact (cycle_of_completes hidle hc ha (hcycle hblank hc)).2

/-- A dark device is honest if it completes all its cycles, and none in time. -/
theorem honest_of_late (hl : patience < d.latency) (hs : d.stallAfter = none) :
    d.Honest g patience Dark := by
  have hcycle : ∀ {d₁ : Device}, d₁.blank = d.blank → d₁.Dark → ∀ {address}, g.Reaches address →
      (d₁.cycle g address patience).1 = false ∧ (d₁.cycle g address patience).2.Dark := by
    intro d₁ hblank hdark address ha
    have hlatency := latency_of_blank hblank
    have hstall := stallAfter_of_blank hblank
    rw [cycle_of_late hdark (completesCycle_of_none (hstall.trans hs)) ha
      (hl.trans_le (Nat.le_of_eq hlatency.symm))]
    refine ⟨rfl, ?_⟩
    cases g <;> exact ⟨hdark.status, hdark.stuck⟩
  refine ⟨fun {d₁} hblank hdark address ha hdone => ?_, fun hblank hdark _ ha =>
    (hcycle hblank hdark ha).2⟩
  rw [(hcycle hblank hdark ha).1] at hdone
  cases hdone

/-! ### The sideband of dark devices -/

theorem dark_latched (h : d.Dark) (latch : EccLatch) : (d.latched latch).Dark := by
  unfold latched runSideband
  split <;> exact ⟨h.status, h.stuck⟩

theorem pending_of_stalls (h : d.stallSideband = true) (latch : EccLatch) :
    (d.latched latch).pending = d.pending := by
  simp [latched, runSideband, h]

theorem pending_of_runs (h : d.stallSideband = false) (latch : EccLatch) :
    (d.latched latch).pending = d.pending ||| sidebandDone := by
  simp [latched, runSideband, h, raise]

theorem countdown_of_runs (h : d.stallSideband = false) (latch : EccLatch) :
    (d.latched latch).countdown = d.latency := by
  simp [latched, runSideband, h, raise]

/-- The sideband leaves an idle device idle, if it is ready in time. -/
theorem idle_latched (h : d.Idle) (hl : d.latency ≤ patience) (latch : EccLatch) :
    ((d.latched latch).polled sidebandDone patience).2.Idle := by
  have hdark := dark_latched h.toDark latch
  cases hs : d.stallSideband with
  | true =>
    have hp : (d.latched latch).pending = 0 := (pending_of_stalls hs latch).trans h.pending
    rw [polled_of_dark hdark _ (.inl hp)]
    exact ⟨⟨hdark.status, hdark.stuck⟩, hp⟩
  | false =>
    have hp : (d.latched latch).pending = sidebandDone := by
      rw [pending_of_runs hs, h.pending, UInt32.zero_or]
    have hc : (d.latched latch).countdown ≤ patience := by rwa [countdown_of_runs hs]
    have hdue := polled_of_due hdark (by rw [hp]; decide) hc
    rw [hp] at hdue
    rw [hdue]
    exact ⟨⟨hdark.status, hdark.stuck⟩, rfl⟩

/-- The sideband of a late device is never ready in time, and if it stalls leaves nothing
pending. -/
theorem late_latched (h : d.Dark) (hp : d.stallSideband = true → d.pending = 0)
    (hl : patience < d.latency) (latch : EccLatch) :
    ((d.latched latch).polled sidebandDone patience).1 = false ∧
      ((d.latched latch).polled sidebandDone patience).2.Dark ∧
        (d.stallSideband = true →
          ((d.latched latch).polled sidebandDone patience).2.pending = 0) := by
  have hdark := dark_latched h latch
  cases hs : d.stallSideband with
  | true =>
    have hp : (d.latched latch).pending = 0 := (pending_of_stalls hs latch).trans (hp hs)
    rw [polled_of_dark hdark _ (.inl hp)]
    exact ⟨rfl, ⟨hdark.status, hdark.stuck⟩, fun _ => hp⟩
  | false =>
    have hc : patience < (d.latched latch).countdown := by rwa [countdown_of_runs hs]
    rw [polled_of_dark hdark _ (.inr hc)]
    exact ⟨rfl, ⟨hdark.status, hdark.stuck⟩, fun h => by cases h⟩

end

end Device

end FuseBank.Bench
