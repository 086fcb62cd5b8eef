import FuseBank.Proofs.DarkDevice

/-!
# Late completions

A read that gives up on a cycle leaves the completion to show later, while another read may
be polling. Through the user interface this does no harm: the sideband is waited for before
every read, and a device whose completions are too late for the polls never has it ready. The
sequencer has nothing of the kind, and a read takes whatever completion comes up for that of
its own cycle.

How a new device stands between two reads depends on its latency. If its completions come up
in time it is idle, with nothing pending, and stays so; if they do not, it is dark and every
cycle that it completes is given up on. Either way it is honest, as long as it does not stall
in the second case. A device that is late with its completions and then stalls goes wrong:
the last completion comes up during a cycle that is never completed (`Overdue`), and the word
of an earlier cycle is taken for the word that was asked for (`exists_misled`).

## Main statements

* `neverMisled_of_user`, `neverMisled_of_sequencer`: where all reads that succeed deliver
  what they were asked for.
* `not_neverMisled_of_late`: where one does not.
* `never_misled_iff`: both together.
-/

namespace FuseBank.Bench

open Register

/-- No read of such a device is misled: whatever calls came before it, if it succeeds it has
delivered the fuses that it was asked for, and has fetched their words and no others. -/
def NeverMisled (g : Generation) (t : Timing) (latency : Nat) (stallAfter : Option Nat) : Prop :=
  ∀ (w : Wiring) (c : Controller) (d : Device) (r : Refusals),
    c.descriptor.generation = some g → c.timing = t → d.layout = g.layout → d.blank = d →
    d.stuck = 0 → d.latency = latency → d.stallAfter = stallAfter →
    ∀ (calls : List Call) (offset : UInt32) (buffer : List UInt8) (n : Nat),
      let s := c.after (board w) ⟨d, r⟩ calls
      let q := (c.read offset buffer).run (board w) s
      q.value.result = .ok n →
        q.value.buffer = (List.range n).map (fun i => d.fuse (g.fuseIndex (offset.toNat + i))) ++
            buffer.drop n ∧
          q.state.block.fetched = s.block.fetched ++
            (WordRange.span g.wordSize.toNat offset.toNat n).map fun a =>
              g.place (UInt32.ofNat a)

/-! ### Reads of honest devices -/

/-- What a read of a device comes to is true to it: fuses that it delivers are those asked
for, and their words have been fetched for it. -/
def Truthful (g : Generation) (before : Device) (offset : UInt32) (buffer : List UInt8)
    (q : Reply (Except Failure Nat) × Bench Device) : Prop :=
  ∀ n, q.1.result = .ok n →
    q.1.buffer = (List.range n).map (fun i => before.fuse (g.fuseIndex (offset.toNat + i))) ++
        buffer.drop n ∧
      q.2.block.fetched = before.fetched ++
        (WordRange.span g.wordSize.toNat offset.toNat n).map fun a => g.place (UInt32.ofNat a)

section

variable {g : Generation} {before : Device} {offset : UInt32} {buffer : List UInt8}

theorem truthful_of_error {q : Reply (Except Failure Nat) × Bench Device} {f : Failure}
    (h : q.1.result = .error f) : Truthful g before offset buffer q := by
  intro n hn
  rw [h] at hn
  cases hn

theorem truthful_of_failure {delivery : Delivery} (h : delivery.failure ≠ none) (len : Nat)
    (s : Bench Device) : Truthful g before offset buffer (delivery.reply len buffer, s) := by
  obtain ⟨bytes, failure⟩ := delivery
  cases failure with
  | none => exact absurd rfl h
  | some f => exact truthful_of_error (f := f) rfl

theorem collect_of_honest (w : Wiring) (t : Timing) {d : Device} {Q : Device → Prop}
    (r : Refusals) (hd : d.Serves g) (hh : d.Honest g t.patience Q) (hq : Q d)
    (hblank : d.blank = before.blank) (hfetched : d.fetched = before.fetched) {last : UInt32}
    {size : UInt32} (ha : g.Accepts size offset buffer.length)
    (hlast : offset.toNat + g.granted size offset buffer.length = last.toNat) :
    ∃ delivery d', (g.collect t (.widen offset last (g.granted size offset buffer.length)
        g.wordSize)).outcome (board w) ⟨d, r⟩ = (delivery, ⟨d', r⟩) ∧ Q d' ∧
      ∀ s : Bench Device, s.block.fetched = d'.fetched → Truthful g before offset buffer
        (delivery.reply (g.granted size offset buffer.length) buffer, s) := by
  obtain ⟨delivery, d', hrun, hq', h⟩ := outcome_collect_of_honest w t r hd hh hq hlast
    fun _ hmem => reaches_of_accepts ha hmem
  refine ⟨delivery, d', hrun, hq', fun s hs => ?_⟩
  rcases h with ⟨rfl, hprogress⟩ | ⟨hfailure, -⟩
  · intro n hn
    obtain rfl : g.granted size offset buffer.length = n := by simpa [Delivery.reply] using hn
    refine ⟨by simp [Delivery.reply, Device.fuse_of_blank hblank], ?_⟩
    rw [hs, hprogress.fetched, hfetched, List.map_map]
    rfl
  · exact truthful_of_failure hfailure _ s

end

section

variable (w : Wiring) {c : Controller} {g : Generation}
  (hg : c.descriptor.generation = some g) (offset : UInt32) (buffer : List UInt8)
  {s : Bench Device} (hlay : s.block.layout = g.layout)

include hg hlay

theorem read_three_of_honest (hthree : g = .three) {Q : Device → Prop}
    (hh : s.block.Honest g c.timing.patience Q) (hq : Q s.block) :
    Truthful g s.block offset buffer ((c.read offset buffer).outcome (board w) s) ∧
      Q ((c.read offset buffer).outcome (board w) s).2.block := by
  subst hthree
  rcases outcome_read_cases w hg offset buffer s
    with ⟨f, hrun⟩ | ⟨haccepts, last, hlast, hrun⟩
  · rw [hrun]
    exact ⟨truthful_of_error rfl, hq⟩
  · obtain ⟨delivery, d', hcollect, hq', htrue⟩ := collect_of_honest w c.timing s.refusals
      (d := s.block) ⟨hlay, fun h => absurd rfl h⟩ hh hq rfl rfl haccepts hlast
    rw [hrun]
    dsimp only
    rw [Device.outcome_execute_three, hcollect]
    exact ⟨htrue _ rfl, hq'⟩

theorem read_user_of_idle (hthree : g ≠ .three) (hl : s.block.latency ≤ c.timing.patience)
    (hidle : s.block.Idle) :
    Truthful g s.block offset buffer ((c.read offset buffer).outcome (board w) s) ∧
      ((c.read offset buffer).outcome (board w) s).2.block.Idle := by
  obtain ⟨latch, hlatch⟩ := Generation.exists_latch hthree
  obtain ⟨d, r⟩ := s
  rcases outcome_read_cases w hg offset buffer ⟨d, r⟩
    with ⟨f, hrun⟩ | ⟨haccepts, last, hlast, hrun⟩
  · rw [hrun]
    exact ⟨truthful_of_error rfl, hidle⟩
  · have hblank := Device.blank_readied d latch c.timing.patience
    have hready := Device.idle_latched hidle hl latch
    have hlatency : (d.readied latch c.timing.patience).latency ≤ c.timing.patience :=
      (Nat.le_of_eq (Device.latency_of_blank hblank)).trans hl
    obtain ⟨delivery, d', hcollect, hidle', htrue⟩ := collect_of_honest w c.timing r
      (Device.serves_readied hlay latch _) (Device.honest_of_idle g (.inl hlatency))
      ⟨⟨hready.status, hready.stuck⟩, hready.pending⟩ hblank (Device.fetched_readied d latch _)
      haccepts hlast
    rw [hrun]
    dsimp only
    rw [Device.outcome_execute_user w c.timing r (Device.layout_of_user hthree hlay) hlatch]
    cases w.resetLine && (r.assert || r.release) with
    | true => exact ⟨truthful_of_error rfl, hidle⟩
    | false =>
      cases hdone : ((d.latched latch).polled sidebandDone c.timing.patience).1 with
      | false => exact ⟨truthful_of_error rfl, hready⟩
      | true =>
        simp only [Bool.false_eq_true, if_false, if_true, hcollect]
        exact ⟨htrue _ rfl, ⟨hidle'.status, hidle'.stuck⟩, hidle'.pending⟩

theorem read_user_of_late (hthree : g ≠ .three) (hl : c.timing.patience < s.block.latency)
    (hdark : s.block.Dark) (hp : s.block.stallSideband = true → s.block.pending = 0) :
    Truthful g s.block offset buffer ((c.read offset buffer).outcome (board w) s) ∧
      ((c.read offset buffer).outcome (board w) s).2.block.Dark ∧
        (s.block.stallSideband = true →
          ((c.read offset buffer).outcome (board w) s).2.block.pending = 0) := by
  obtain ⟨latch, hlatch⟩ := Generation.exists_latch hthree
  obtain ⟨d, r⟩ := s
  rcases outcome_read_cases w hg offset buffer ⟨d, r⟩
    with ⟨f, hrun⟩ | ⟨haccepts, last, hlast, hrun⟩
  · rw [hrun]
    exact ⟨truthful_of_error rfl, hdark, hp⟩
  · obtain ⟨hdone, hdark', hp'⟩ := Device.late_latched hdark hp hl latch
    rw [hrun]
    dsimp only
    rw [Device.outcome_execute_user w c.timing r (Device.layout_of_user hthree hlay) hlatch, hdone]
    cases w.resetLine && (r.assert || r.release) with
    | true => exact ⟨truthful_of_error rfl, hdark, hp⟩
    | false => exact ⟨truthful_of_error rfl, hdark', hp'⟩

end

/-! ### Rows of calls -/

/-- What a device is true to while some property holds of it, which a read keeps and an idle
device has, it is true to after any calls. -/
theorem neverMisled_of_keeps {g : Generation} {t : Timing} {latency : Nat}
    {stallAfter : Option Nat} {Q : Device → Prop} (hidle : ∀ {d : Device}, d.Idle → Q d)
    (hread : ∀ (w : Wiring) {c : Controller} (offset : UInt32) (buffer : List UInt8)
      {s : Bench Device}, c.descriptor.generation = some g → c.timing = t →
      s.block.layout = g.layout → s.block.latency = latency → s.block.stallAfter = stallAfter →
      Q s.block → Truthful g s.block offset buffer ((c.read offset buffer).outcome (board w) s) ∧
        Q ((c.read offset buffer).outcome (board w) s).2.block) :
    NeverMisled g t latency stallAfter := by
  intro w c d r hg ht hlay hblank hstuck hlatency hstall calls offset buffer n
  have hread' : ∀ offset buffer (s : Bench Device), s.block.blank = d.blank ∧ Q s.block →
      Truthful g s.block offset buffer ((c.read offset buffer).outcome (board w) s) ∧
        Q ((c.read offset buffer).outcome (board w) s).2.block := by
    rintro offset buffer s ⟨hb, hq⟩
    exact hread w offset buffer hg ht ((Device.layout_of_blank hb).trans hlay)
      ((Device.latency_of_blank hb).trans hlatency)
      ((Device.stallAfter_of_blank hb).trans hstall) hq
  have hstart : d.Idle := by
    have hstatus := congrArg Device.status hblank
    have hpending := congrArg Device.pending hblank
    exact ⟨⟨hstatus.symm, hstuck⟩, hpending.symm⟩
  have hafter := c.after_keeps (P := fun s : Bench Device => s.block.blank = d.blank ∧ Q s.block)
    (board w) (fun offset buffer s hs => ⟨(Device.outcome_blank w _ s).trans hs.1,
      (hread' offset buffer s hs).2⟩) calls (s := ⟨d, r⟩) ⟨rfl, hidle hstart⟩
  intro s q hn
  obtain ⟨hbuffer, hfetched⟩ := (hread' offset buffer s hafter).1 n hn
  have hfuse : ∀ i, s.block.fuse i = d.fuse i := Device.fuse_of_blank hafter.1
  simp only [hfuse] at hbuffer
  exact ⟨hbuffer, hfetched⟩

/-- The user interface never misleads. -/
theorem neverMisled_of_user {g : Generation} (hg : g ≠ .three) (t : Timing) (latency : Nat)
    (stallAfter : Option Nat) : NeverMisled g t latency stallAfter := by
  by_cases hl : latency ≤ t.patience
  · refine neverMisled_of_keeps (Q := Device.Idle) id ?_
    rintro w c offset buffer s hgen rfl hlay rfl - hidle
    exact read_user_of_idle w hgen offset buffer hlay hg hl hidle
  · refine neverMisled_of_keeps
      (Q := fun d => d.Dark ∧ (d.stallSideband = true → d.pending = 0))
      (fun hidle => ⟨hidle.toDark, fun _ => hidle.pending⟩) ?_
    rintro w c offset buffer s hgen rfl hlay rfl - ⟨hdark, hp⟩
    obtain ⟨htrue, hdark', hp'⟩ := read_user_of_late w hgen offset buffer hlay hg
      (Nat.lt_of_not_le hl) hdark hp
    refine ⟨htrue, hdark', fun hs => hp' ?_⟩
    rw [← hs, Device.stallSideband_of_blank (Device.outcome_blank w _ s)]

/-- Nor does the sequencer, if completions come up in time, or if it never stalls or always
does. -/
theorem neverMisled_of_sequencer {t : Timing} {latency : Nat} {stallAfter : Option Nat}
    (h : latency ≤ t.patience ∨ stallAfter = none ∨ stallAfter = some 0) :
    NeverMisled .three t latency stallAfter := by
  by_cases hl : latency ≤ t.patience ∨ stallAfter = some 0
  · refine neverMisled_of_keeps (Q := Device.Idle) id ?_
    rintro w c offset buffer s hgen rfl hlay rfl rfl hidle
    exact read_three_of_honest w hgen offset buffer hlay rfl (Device.honest_of_idle _ hl) hidle
  · refine neverMisled_of_keeps (Q := Device.Dark) Device.Idle.toDark ?_
    rintro w c offset buffer s hgen rfl hlay rfl rfl hdark
    have hnone : s.block.stallAfter = none := by
      rcases h with h | h | h
      · exact absurd (.inl h) hl
      · exact h
      · exact absurd (.inr h) hl
    exact read_three_of_honest w hgen offset buffer hlay rfl
      (Device.honest_of_late _ (Nat.lt_of_not_le fun h => hl (.inl h)) hnone) hdark

/-! ### How a read is misled -/

/-- A bank of two words. -/
def twoWords (t : Timing) : Controller where
  descriptor := { size := 8, clocks := ["otpc"], generation := some .three, setup := none }
  timing := t

theorem outcome_read_twoWords (t : Timing) {d : Device} (hlay : d.layout = .words)
    {offset : UInt32} (ho : offset = 0 ∨ offset = 4) :
    ((twoWords t).read offset [0, 0, 0, 0]).outcome (board {}) ⟨d, {}⟩ =
      (if (d.cycle .three (offset / 4) t.patience).1 then
          ⟨.ok 4, LittleEndian.bytes (d.cycle .three (offset / 4) t.patience).2.sequencerData⟩
        else ⟨.error .pollTimeout, [0, 0, 0, 0]⟩,
        ⟨(d.cycle .three (offset / 4) t.patience).2, {}⟩) := by
  have hsize : (twoWords t).size = 8 := rfl
  have haccepts : Generation.three.Accepts (twoWords t).size offset 4 := by
    rw [hsize]
    rcases ho with rfl | rfl <;> exact ⟨by decide, by decide⟩
  have hreach : Generation.three.Reaches (offset / 4) := by
    rcases ho with rfl | rfl <;> exact fun _ => by decide
  have hgranted : Generation.three.granted (twoWords t).size offset 4 = 4 := by
    rw [hsize]
    rcases ho with rfl | rfl <;> decide
  obtain ⟨last, hlast, hread⟩ := outcome_read_of_accepts {} (c := twoWords t) rfl offset
    [0, 0, 0, 0] ⟨d, {}⟩ haccepts rfl
  rw [show ([0, 0, 0, 0] : List UInt8).length = 4 from rfl, hgranted] at hlast hread
  have hwords : (WordRange.widen offset last 4 Generation.three.wordSize).words = [offset / 4] := by
    rw [WordRange.words_widen hlast (by decide)]
    rcases ho with rfl | rfl <;> decide
  have hwindow : ∀ word, (WordRange.widen offset last 4 Generation.three.wordSize).window [word] =
      LittleEndian.bytes word := by
    intro word
    rcases ho with rfl | rfl <;> rfl
  have hserves : d.Serves .three := ⟨hlay, fun h => absurd rfl h⟩
  have hfetch := Device.outcome_fetch {} t {} hserves hreach
  rw [hread]
  dsimp only
  rw [Device.outcome_execute_three, outcome_collect, hwords]
  cases hdone : (d.cycle .three (offset / 4) t.patience).1 with
  | false =>
    rw [hdone] at hfetch
    simp [gather, twoWords, hfetch, Generation.deliver, Delivery.failed, Delivery.reply]
  | true =>
    rw [hdone] at hfetch
    simp [gather, twoWords, hfetch, Device.answer, Generation.deliver, hwindow, Delivery.reply]

/-- A device that stalls from now on, with the completion of the first word still to show. -/
structure Overdue (d : Device) : Prop extends Device.Dark d where
  layout : d.layout = .words
  pending : d.pending = Sequencer.done
  stalls : ∃ limit ≤ d.cycles, d.stallAfter = some limit
  data : d.sequencerData = 1

/-- The completion is taken for that of another word, sooner or later. -/
theorem exists_misled (t : Timing) {d : Device} (h : Overdue d) : ∃ calls,
    (((twoWords t).read 4 [0, 0, 0, 0]).outcome (board {})
      ((twoWords t).after (board {}) ⟨d, {}⟩ calls)).1 = ⟨.ok 4, [1, 0, 0, 0]⟩ := by
  induction hn : d.countdown using Nat.strong_induction_on generalizing d with
  | _ n ih =>
    subst hn
    obtain ⟨limit, hlimit, hstall⟩ := h.stalls
    have hc : d.completesCycle = false := by
      simp only [Device.completesCycle, hstall, decide_eq_false_iff_not]
      omega
    have hread := outcome_read_twoWords t h.layout (.inr rfl)
    have hdark : (d.stalled .three 1).Dark := ⟨h.status, h.stuck⟩
    have hpending : (d.stalled .three 1).pending = Sequencer.done := h.pending
    rw [show (4 : UInt32) / 4 = 1 from rfl, Device.cycle, Device.started_of_stalls .three 1 hc,
      Generation.completion] at hread
    by_cases hdue : d.countdown ≤ t.patience
    · have hpolled := Device.polled_of_due hdark (by rw [hpending]; decide) hdue
      rw [hpending] at hpolled
      refine ⟨[], ?_⟩
      rw [Controller.after_nil, hread, hpolled]
      have hbytes : LittleEndian.bytes d.sequencerData = [1, 0, 0, 0] := by
        rw [h.data]
        rfl
      exact congrArg (Reply.mk (Except.ok 4)) hbytes
    · have hlt : t.patience < (d.stalled .three 1).countdown := Nat.lt_of_not_le hdue
      rw [Device.polled_of_dark hdark _ (.inr hlt)] at hread
      obtain ⟨calls, hcalls⟩ := ih (d.countdown - (t.patience + 1)) (by omega)
        (d := { d.stalled .three 1 with countdown := d.countdown - (t.patience + 1) })
        ⟨⟨h.status, h.stuck⟩, h.layout, h.pending, ⟨limit, Nat.le_succ_of_le hlimit, hstall⟩,
          h.data⟩ rfl
      refine ⟨.read 4 [0, 0, 0, 0] :: calls, ?_⟩
      rw [Controller.after_cons, Controller.outcome_call_read, hread]
      exact hcalls

/-- A late device that has so many cycles left to complete. -/
structure Unhurried (d : Device) (patience left : Nat) : Prop extends Device.Dark d where
  layout : d.layout = .words
  pending : d.pending = 0 ∨ d.pending = Sequencer.done
  late : patience < d.latency
  left : d.stallAfter = some (d.cycles + left)
  word : d.word .three 0 = 1

theorem unhurried_read {t : Timing} {d : Device} {left : Nat}
    (h : Unhurried d t.patience (left + 1)) : ∃ d',
      (((twoWords t).call (.read 0 [0, 0, 0, 0])).outcome (board {}) ⟨d, {}⟩).2 = ⟨d', {}⟩ ∧
        Unhurried d' t.patience left ∧ d'.pending = Sequencer.done ∧ d'.sequencerData = 1 := by
  have hc : d.completesCycle = true := by
    simp only [Device.completesCycle, h.left, decide_eq_true_eq]
    omega
  have hpending : d.pending ||| Sequencer.done = Sequencer.done := by
    rcases h.pending with hp | hp <;> rw [hp] <;> decide
  have hread := outcome_read_twoWords t h.layout (.inl rfl)
  rw [show (0 : UInt32) / 4 = 0 from rfl,
    Device.cycle_of_late h.toDark hc (fun _ => by decide) h.late] at hread
  rw [Controller.outcome_call_read, hread]
  refine ⟨_, rfl, ?_, hpending, h.word⟩
  refine ⟨⟨h.status, h.stuck⟩, h.layout, .inr hpending, h.late, ?_, h.word⟩
  have hleft := h.left
  rw [Nat.add_left_comm, Nat.add_comm left] at hleft
  exact hleft

theorem exists_overdue {t : Timing} {d : Device} {left : Nat}
    (h : Unhurried d t.patience (left + 1)) : ∃ calls d',
      (twoWords t).after (board {}) ⟨d, {}⟩ calls = ⟨d', {}⟩ ∧ Overdue d' := by
  induction left generalizing d with
  | zero =>
    obtain ⟨d', hrun, h', hpending, hdata⟩ := unhurried_read h
    refine ⟨[.read 0 [0, 0, 0, 0]], d', hrun, h'.toDark, h'.layout, hpending, ?_, hdata⟩
    exact ⟨_, Nat.le_refl _, h'.left⟩
  | succ left ih =>
    obtain ⟨d', hrun, h', -⟩ := unhurried_read h
    obtain ⟨calls, d'', hafter, hoverdue⟩ := ih h'
    refine ⟨.read 0 [0, 0, 0, 0] :: calls, d'', ?_, hoverdue⟩
    rw [Controller.after_cons, hrun, hafter]

/-- The sequencer misleads if completions are late and cycles stall after one has been
completed. -/
theorem not_neverMisled_of_late {t : Timing} {latency : Nat} (hl : t.patience < latency)
    (limit : Nat) : ¬ NeverMisled .three t latency (some (limit + 1)) := by
  intro hnever
  have hstart : Unhurried
      { layout := .words, fuses := #[1], latency, stallAfter := some (limit + 1) } t.patience
      (limit + 1) :=
    ⟨⟨rfl, rfl⟩, rfl, .inl rfl, hl, by simp, rfl⟩
  obtain ⟨calls, d, hcalls, hoverdue⟩ := exists_overdue hstart
  obtain ⟨calls', hmisled⟩ := exists_misled t hoverdue
  rw [← hcalls, ← Controller.after_append] at hmisled
  have hresult := congrArg Reply.result hmisled
  have hbuffer := congrArg Reply.buffer hmisled
  have htrue := (hnever {} (twoWords t) _ {} rfl rfl rfl rfl rfl rfl rfl (calls ++ calls') 4
    [0, 0, 0, 0] 4 hresult).1
  have hwrong : (1 : UInt8) = 0 := List.head_eq_of_cons_eq (hbuffer.symm.trans htrue)
  exact absurd hwrong (by decide)

/-- **When no read is misled**: always through the user interface, and through the sequencer
unless completions are later than polls are long, and cycles stall after some have been
completed. -/
theorem never_misled_iff (g : Generation) (t : Timing) (latency : Nat)
    (stallAfter : Option Nat) : NeverMisled g t latency stallAfter ↔
      (g = .three → latency ≤ t.patience ∨ stallAfter = none ∨ stallAfter = some 0) := by
  constructor
  · rintro hnever rfl
    by_cases hl : latency ≤ t.patience
    · exact .inl hl
    · match stallAfter, hnever with
      | none, _ => exact .inr (.inl rfl)
      | some 0, _ => exact .inr (.inr rfl)
      | some (limit + 1), hnever =>
        exact absurd hnever (not_neverMisled_of_late (Nat.lt_of_not_le hl) limit)
  · intro h
    by_cases hg : g = .three
    · subst hg
      exact neverMisled_of_sequencer (h rfl)
    · exact neverMisled_of_user hg t latency stallAfter

/-- The first read is given up on, and the second takes its word: the bytes at offset zero for
those at offset four. -/
theorem late_completion_is_taken :
    let c := twoWords { pollTick := 1, pollTimeout := 1, resetHold := 0, settle := 0 }
    let d : Device :=
      { layout := .words, fuses := #[1, 2, 3, 4, 5, 6, 7, 8], latency := 2, stallAfter := some 1 }
    let first := (c.read 0 [0, 0, 0, 0]).run (board {}) ⟨d, {}⟩
    let second := (c.read 4 [0, 0, 0, 0]).run (board {}) first.state
    first.value = ⟨.error .pollTimeout, [0, 0, 0, 0]⟩ ∧ second.value = ⟨.ok 4, [1, 2, 3, 4]⟩ ∧
      (List.range 4).map (fun i => d.fuse (4 + i)) = [5, 6, 7, 8] := by
  intro c d first second
  have hpatience : c.timing.patience = 1 := by decide
  have hserves : d.Serves .three := ⟨rfl, fun h => absurd rfl h⟩
  have hfirst := outcome_read_twoWords c.timing (d := d) rfl (.inl rfl)
  have hsecond := outcome_read_twoWords c.timing
    (Device.serves_cycle hserves 0 1).layout (.inr rfl)
  rw [hpatience] at hfirst hsecond
  have hstate : first.state = ⟨(d.cycle .three 0 1).2, {}⟩ := congrArg Prod.snd hfirst
  have hgiven : (d.cycle .three (0 / 4) 1).1 = false := by decide
  have htaken : ((d.cycle .three 0 1).2.cycle .three (4 / 4) 1).1 = true ∧
      ((d.cycle .three 0 1).2.cycle .three (4 / 4) 1).2.sequencerData = 0x04030201 := by decide
  rw [hgiven] at hfirst
  rw [htaken.1, htaken.2] at hsecond
  refine ⟨congrArg Prod.fst hfirst, ?_, by decide⟩
  simp only [second, hstate]
  exact (congrArg Prod.fst hsecond).trans rfl

end FuseBank.Bench
