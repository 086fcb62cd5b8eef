import FuseBank.Proofs.Transaction

/-!
# What an honest device delivers

A poll that finds the completion bit up takes what is in the data register for the word that
was asked for, whichever cycle the bit stands for. A device is *honest* as long as a property
holds of it if it keeps the property from cycle to cycle and the bit is found up only if the
cycle at hand has been completed (`Device.Honest`).

Between two cycles such a device has made progress by the words that have been read
(`Device.Progress`). A cycle adds its word (`Device.progress_cycle`) or ends the row, so a row
of cycles brings in its words or fails, and the bytes are trimmed from the words.

## Main statements

* `outcome_collect_of_honest`: what is collected from an honest device are the fuses that
  were asked for, or nothing is said to be.
-/

namespace FuseBank.Bench

open Register

namespace Device

/-- With so many pauses a poll, a device tells no lies about its cycles while `Q` holds of
it, which it goes on doing. -/
structure Honest (before : Device) (g : Generation) (patience : Nat) (Q : Device → Prop) :
    Prop where
  /-- The bit is found up only if the cycle has been completed. -/
  completed : ∀ {d : Device}, d.blank = before.blank → Q d → ∀ {address}, g.Reaches address →
    (d.cycle g address patience).1 = true →
      (d.cycle g address patience).2.core = (d.completed g address).core
  /-- The property is kept. -/
  keeps : ∀ {d : Device}, d.blank = before.blank → Q d → ∀ {address}, g.Reaches address →
    Q (d.cycle g address patience).2

/-- Where a device stands once some words of it have been read. -/
structure Progress (before : Device) (g : Generation) (served : List UInt32) (d : Device) :
    Prop where
  blank : d.blank = before.blank
  serves : d.Serves g
  latch : d.latch = before.latch
  fetched : d.fetched = before.fetched ++ served.map g.place

theorem word_of_blank {d d' : Device} (h : d'.blank = d.blank) (g : Generation)
    (address : UInt32) : d'.word g address = d.word g address := by
  have := congrArg (fun c : Device => c.word g address) h
  cases g <;> exact this

theorem sound_of_blank {d d' : Device} (h : d'.blank = d.blank) {g : Generation}
    {address : UInt32} (hs : d.Sound g address) : d'.Sound g address := by
  have := congrArg (fun c : Device => c.qualityOf (g.place address)) h
  intro hg
  exact (congrArg User.isFault this).trans (hs hg)

theorem blank_cycle (d : Device) (g : Generation) (address : UInt32) (patience : Nat) :
    (d.cycle g address patience).2.blank = d.blank :=
  (blank_of_core (core_polled _ _ _)).trans (blank_started d g address)

/-- A cycle that has been completed makes progress by its word. -/
theorem progress_cycle {before d : Device} {g : Generation} {served : List UInt32}
    {address : UInt32} {patience : Nat}
    (hcore : (d.cycle g address patience).2.core = (d.completed g address).core)
    (h : Progress before g served d) :
    Progress before g (served ++ [address]) (d.cycle g address patience).2 := by
  have hlatch : (d.completed g address).latch = d.latch := by cases g <;> rfl
  have hfetched : (d.completed g address).fetched = d.fetched ++ [g.place address] := by
    cases g <;> rfl
  refine ⟨(blank_cycle d g address patience).trans h.blank,
    serves_cycle h.serves address patience, ?_, ?_⟩
  · have := congrArg latch hcore
    exact this.trans (hlatch.trans h.latch)
  · have := congrArg fetched hcore
    refine this.trans (hfetched.trans ?_)
    rw [h.fetched]
    simp

end Device

/-- A row of cycles of an honest device brings in the words at its addresses, unless a cycle
is not completed in time or a word is not sound. -/
theorem outcome_gather_of_honest (w : Wiring) (t : Timing) {g : Generation} {d : Device}
    {Q : Device → Prop} (r : Refusals) (hd : d.Serves g) (hh : d.Honest g t.patience Q) (hq : Q d)
    (addresses : List UInt32) (hreach : ∀ a ∈ addresses, g.Reaches a) :
    ∃ harvest d', (gather (g.fetch t) [] addresses).outcome (board w) ⟨d, r⟩ =
        (harvest, ⟨d', r⟩) ∧ Q d' ∧
      ((harvest = ⟨addresses.map (d.word g), none⟩ ∧ d.Progress g addresses d') ∨
        harvest.failure ≠ none ∧ ∃ d₁ : Device, d₁.blank = d.blank ∧ ∃ a ∈ addresses,
          (d₁.cycle g a t.patience).1 = false ∨ ¬ d.Sound g a) := by
  have step : ∀ served, ∀ a ∈ addresses, ∀ s : Bench Device,
      (s.refusals = r ∧ Q s.block ∧ d.Progress g served s.block) →
      (∃ s', (g.fetch t a).outcome (board w) s = (.ok (d.word g a), s') ∧
        s'.refusals = r ∧ Q s'.block ∧ d.Progress g (served ++ [a]) s'.block) ∨
      ∃ f s', (g.fetch t a).outcome (board w) s = (.error f, s') ∧
        (fun _ _ s' => s'.refusals = r ∧ Q s'.block ∧ ∃ d₁ : Device, d₁.blank = d.blank ∧
          ∃ a ∈ addresses, (d₁.cycle g a t.patience).1 = false ∨ ¬ d.Sound g a :
            List UInt32 → Failure → Bench Device → Prop) served f s' := by
    rintro served a ha ⟨d₁, r₁⟩ ⟨rfl, hq₁, h⟩
    have hq₂ := hh.keeps h.blank hq₁ (hreach a ha)
    have hrun := Device.outcome_fetch w t r₁ h.serves (hreach a ha)
    cases hdone : (d₁.cycle g a t.patience).1 with
    | false =>
      rw [hdone, if_neg (by simp)] at hrun
      exact .inr ⟨_, _, hrun, rfl, hq₂, d₁, h.blank, a, ha, .inl hdone⟩
    | true =>
      have hcore := hh.completed h.blank hq₁ (hreach a ha) hdone
      rw [hdone, if_pos rfl, Device.answer_of_core hcore] at hrun
      by_cases hs : d.Sound g a
      · rw [Device.answer_completed (Device.sound_of_blank h.blank hs),
          Device.word_of_blank h.blank] at hrun
        exact .inl ⟨_, hrun, rfl, hq₂, Device.progress_cycle hcore h⟩
      · rw [Device.answer_completed_of_not_sound
          (fun hs₁ => hs (Device.sound_of_blank h.blank.symm hs₁))] at hrun
        exact .inr ⟨_, _, hrun, rfl, hq₂, d₁, h.blank, a, ha, .inr hs⟩
  have hstart : d.Progress g [] d := ⟨rfl, hd, rfl, by simp⟩
  rcases outcome_gather (s := ⟨d, r⟩) step [] [] ⟨rfl, hq, hstart⟩
    with ⟨⟨d', r'⟩, hrun, rfl, hq', h⟩ | ⟨k, -, f, ⟨d', r'⟩, hrun, rfl, hq', hstop⟩
  · exact ⟨_, d', by simpa using hrun, hq', .inl ⟨rfl, by simpa using h⟩⟩
  · exact ⟨_, d', hrun, hq', .inr ⟨by simp, hstop⟩⟩

/-- **What is collected from an honest device** are the fuses that were asked for, or the
delivery has failed. -/
theorem outcome_collect_of_honest (w : Wiring) (t : Timing) {g : Generation} {d : Device}
    {Q : Device → Prop} (r : Refusals) (hd : d.Serves g) (hh : d.Honest g t.patience Q) (hq : Q d)
    {offset last : UInt32} {len : Nat} (hlast : offset.toNat + len = last.toNat)
    (hreach : ∀ a ∈ WordRange.span g.wordSize.toNat offset.toNat len,
      g.Reaches (UInt32.ofNat a)) :
    ∃ delivery d', (g.collect t (.widen offset last len g.wordSize)).outcome (board w) ⟨d, r⟩ =
        (delivery, ⟨d', r⟩) ∧ Q d' ∧
      ((delivery =
          ⟨(List.range len).map fun i => d.fuse (g.fuseIndex (offset.toNat + i)), none⟩ ∧
        d.Progress g ((WordRange.span g.wordSize.toNat offset.toNat len).map UInt32.ofNat) d') ∨
        delivery.failure ≠ none ∧ ∃ d₁ : Device, d₁.blank = d.blank ∧
          ∃ a ∈ WordRange.span g.wordSize.toNat offset.toNat len,
            (d₁.cycle g (UInt32.ofNat a) t.patience).1 = false ∨
              ¬ d.Sound g (UInt32.ofNat a)) := by
  have hwords := WordRange.words_widen hlast g.wordSize_pos
  obtain ⟨harvest, d', hrun, hq', h⟩ := outcome_gather_of_honest w t r hd hh hq
    (WordRange.widen offset last len g.wordSize).words (by rw [hwords]; simpa using hreach)
  have hwindow := WordRange.window_eq hlast g.wordSize_pos g.wordSize_le (d.word g)
    (fun i => d.fuse (g.fuseIndex i)) fun a ha j hj => Device.byte_word hd.layout (hreach a ha)
      (WordRange.lt_of_mem_span hlast g.wordSize_pos ha) hj
  rw [hwords] at h
  refine ⟨_, d', by rw [outcome_collect, hrun], hq', ?_⟩
  rcases h with ⟨rfl, hprogress⟩ | ⟨hfailure, d₁, hblank, a, ha, hwhy⟩
  · refine .inl ⟨?_, hprogress⟩
    rw [← hwords]
    simp only [Generation.deliver, hwindow]
  · obtain ⟨i, hi, rfl⟩ := List.mem_map.1 ha
    refine .inr ⟨?_, d₁, hblank, i, hi, hwhy⟩
    obtain ⟨words, failure⟩ := harvest
    cases failure with
    | none => exact absurd rfl hfailure
    | some failure => cases g <;> simp [Generation.deliver, Delivery.failed]

end FuseBank.Bench
