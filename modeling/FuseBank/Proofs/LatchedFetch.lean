import FuseBank.Proofs.Footprint
import FuseBank.Proofs.Passes
import FuseBank.Proofs.Requests
import FuseBank.Proofs.Verdict

/-!
# Words are fetched with the latch set

The user interface is taken only after the sideband has shown that it carried out a command, but
the bit that shows it may stand for a command of an earlier call, which came too late to be waited
for. That does no harm to the latch: every command sets it to the one word that a controller
of this generation ever writes, and until the first of them has been carried out there is nothing
that could raise the bit (`Device.Candid`). So whenever the bit is found up the latch is set, and the
read cycles, which do not touch the sideband, find it set.

Whether the latch is set is asked at the moment at which a word is fetched, that is of each pass
of each call (`Program.passes`): only a write to the trigger fetches a word, and only a write to the
sideband's control register sets the latch.

## Main statements

* `outcome_prepare_of_candid`: the latch is set once the user interface is ready.
* `words_are_fetched_latched`: every word that is fetched in a row of changes and calls.
-/

namespace FuseBank

open Register

/-- What the latch holds when a generation of controllers reads words through the user
interface. -/
def Generation.setting? : Generation → Option UInt32
  | .one => some 9
  | .two => some 0
  | .three => none

theorem Generation.setting?_of_latch {g : Generation} {latch : EccLatch}
    (h : g.latch? = some latch) : g.setting? = some latch.word := by
  cases g <;> cases h <;> rfl

namespace Bench

/-! ### What a pass changes -/

namespace Device

theorem fetched_of_core {d d' : Device} (h : d'.core = d.core) : d'.fetched = d.fetched := by
  have := congrArg fetched h
  exact this

theorem latch_of_core {d d' : Device} (h : d'.core = d.core) : d'.latch = d.latch := by
  have := congrArg latch h
  exact this

theorem fetched_writeUser (d : Device) {offset : Nat} (h : offset ≠ User.trigger)
    (value : UInt32) : (d.writeUser offset value).fetched = d.fetched := by
  have hsideband : d.runSideband.fetched = d.fetched := by
    unfold runSideband
    split <;> rfl
  unfold writeUser
  simp only [h, if_false, apply_ite fetched, hsideband, clear, ite_self]

theorem latch_writeUser (d : Device) {offset : Nat} (h : offset ≠ Sideband.control)
    (value : UInt32) : (d.writeUser offset value).latch = d.latch := by
  have hcycle : d.runCycle.latch = d.latch := by
    unfold runCycle
    split <;> rfl
  unfold writeUser
  simp only [h, if_false, apply_ite latch, hcycle, clear, ite_self]

end Device

/-- An action samples the status of a device, at most, or writes one of its registers. -/
theorem perform_device (w : Wiring) (action : Action) (s : Bench Device) :
    ((board w).perform action s).state.block.core = s.block.core ∨ ∃ offset value,
      ((board w).perform action s).trace = [.write offset value] ∧
        ((board w).perform action s).state.block = s.block.write offset value := by
  have hread : ∀ offset, (RegisterBlock.read offset s.block).2.core = s.block.core := by
    intro offset
    unfold RegisterBlock.read Device.instRegisterBlock
    dsimp only
    split
    · exact Device.core_sample s.block
    · rfl
  cases action with
  | read offset => exact .inl (hread offset)
  | readLane offset =>
    left
    cases hl : w.byteLane <;> simp only [Board.perform, board, hl] <;> exact hread offset
  | write offset value => exact .inr ⟨offset, value, rfl, rfl⟩
  | assertReset =>
    left
    cases hr : w.resetLine <;> simp [Board.perform, board, hr, Record.still]
  | releaseReset =>
    left
    cases hr : w.resetLine <;> simp [Board.perform, board, hr, Record.still]
  | _ => exact .inl rfl

section

variable {α : Type} {w : Wiring} {p : Program α} {s : Bench Device}
  (hlay : s.block.layout = .bytes ∨ s.block.layout = .halfwords)

include hlay

theorem pass_of_user {pass : Pass (Bench Device)} (hpass : pass ∈ p.passes (board w) s) :
    pass.after.block.core = pass.before.block.core ∨ ∃ offset value,
      .write offset value ∈ (p.run (board w) s).trace ∧
        pass.after.block = pass.before.block.writeUser offset value := by
  have hblank := (Program.passes_keep (P := fun s' : Bench Device =>
    s'.block.blank = s.block.blank) (board w) (p := p) (s := s) rfl fun pass hpass h => by
      obtain ⟨action, -, hafter⟩ := Program.exists_action_of_pass _ hpass
      rw [hafter, Device.perform_blank, h]).1 pass hpass
  have hbefore : pass.before.block.layout = .bytes ∨ pass.before.block.layout = .halfwords := by
    rw [Device.layout_of_blank hblank.1]
    exact hlay
  obtain ⟨action, htrace, hafter⟩ := Program.exists_action_of_pass _ hpass
  rcases perform_device w action pass.before with hcore | ⟨offset, value, hwrite, hblock⟩
  · left
    rw [hafter, hcore]
  · refine .inr ⟨offset, value, Program.mem_trace_of_pass _ hpass ?_, ?_⟩
    · rw [htrace, hwrite]
      exact List.mem_singleton_self _
    · rw [hafter, hblock]
      exact Device.write_of_user hbefore offset value

theorem fetched_of_untriggered
    (h : ∀ value, .write User.trigger value ∉ (p.run (board w) s).trace) :
    ∀ pass ∈ p.passes (board w) s, pass.after.block.fetched = pass.before.block.fetched := by
  intro pass hpass
  rcases pass_of_user hlay hpass with hcore | ⟨offset, value, hmem, hafter⟩
  · exact Device.fetched_of_core hcore
  · have hne : offset ≠ User.trigger := by
      rintro rfl
      exact h value hmem
    rw [hafter, Device.fetched_writeUser _ hne]

/-- A run that does not touch the sideband's control register leaves the latch as it is, in
each of its passes. -/
theorem latch_of_uncommanded
    (h : ∀ value, .write Sideband.control value ∉ (p.run (board w) s).trace) :
    (∀ pass ∈ p.passes (board w) s, pass.before.block.latch = s.block.latch ∧
        pass.after.block.latch = s.block.latch) ∧
      (p.outcome (board w) s).2.block.latch = s.block.latch := by
  refine Program.passes_keep (P := fun s' : Bench Device => s'.block.latch = s.block.latch)
    (board w) rfl fun pass hpass hbefore => ?_
  rcases pass_of_user hlay hpass with hcore | ⟨offset, value, hmem, hafter⟩
  · exact (Device.latch_of_core hcore).trans hbefore
  · have hne : offset ≠ Sideband.control := by
      rintro rfl
      exact h value hmem
    rw [hafter, Device.latch_writeUser _ hne, hbefore]

end

/-! ### The latch and the bit that shows it -/

/-- The latch of a device is set as it should be, or else it was never set, and nothing has raised
the bit that would show it. -/
def Device.Candid (d : Device) (latch : EccLatch) : Prop :=
  d.latch = some latch.word ∨ d.latch = none ∧ d.Quiet sidebandDone

namespace Device

/-- A command to the sideband sets the latch, or stalls and changes nothing that shows it. -/
theorem candid_latched {d : Device} {latch : EccLatch} (h : d.Candid latch) :
    (d.latched latch).Candid latch := by
  unfold latched runSideband
  split
  · exact .inl rfl
  · rcases h with hset | ⟨hunset, hquiet⟩
    · exact .inl hset
    · exact .inr ⟨hunset, hquiet.status, hquiet.pending, hquiet.stuck⟩

/-- A poll for the bit keeps that, and finds the bit only if the latch is set. -/
theorem candid_polled {d : Device} {latch : EccLatch} (h : d.Candid latch) (left : Nat) :
    (d.polled sidebandDone left).2.Candid latch ∧
      ((d.polled sidebandDone left).1 = true →
        (d.polled sidebandDone left).2.latch = some latch.word) := by
  have hkept : (d.polled sidebandDone left).2.latch = d.latch :=
    latch_of_core (core_polled d sidebandDone left)
  rcases h with hset | ⟨hunset, hquiet⟩
  · exact ⟨.inl (hkept.trans hset), fun _ => hkept.trans hset⟩
  · obtain ⟨hmiss, hstill⟩ := polled_of_quiet hquiet left
    refine ⟨.inr ⟨hkept.trans hunset, hstill⟩, fun hfound => ?_⟩
    rw [hmiss] at hfound
    cases hfound

theorem Candid.change {d : Device} {latch : EccLatch} (h : d.Candid latch) {c : Change}
    (hc : ∀ bits ∈ c.stuck, bits = 0) : (d.change c).Candid latch := by
  rcases h with hset | ⟨hunset, hquiet⟩
  · exact .inl hset
  · refine .inr ⟨hunset, hquiet.status, hquiet.pending, ?_⟩
    cases hstuck : c.stuck with
    | none => simpa [Device.change, hstuck] using hquiet.stuck
    | some bits => simp [Device.change, hstuck, hc bits hstuck]

end Device

/-! ### Calls -/

/-- A pass that fetches a word does so with the latch set, and leaves it so. -/
def FetchesLatched (word : UInt32) (pass : Pass (Bench Device)) : Prop :=
  pass.after.block.fetched ≠ pass.before.block.fetched →
    pass.before.block.latch = some word ∧ pass.after.block.latch = some word

theorem uncommanded_withUserMode {σ : Type} (b : Board σ) (t : Timing) (s : σ) {g : Generation}
    (huser : g ≠ .three) (range : WordRange) (value : UInt32) :
    .write Sideband.control value ∉ ((withUserMode t (g.collect t range)).run b s).trace := by
  intro hmem
  obtain ⟨inner, hinner, htrace⟩ := Generation.leaves_withUserMode
    (Program.leaves_run b (withUserMode t (g.collect t range)) s)
  rw [htrace] at hmem
  have hcollected := Generation.collected_of_leaves (fun _ _ hthree => absurd hthree huser) hinner
  have hregister : Sideband.control ∈ User.control :: g.registers :=
    Event.mem_of_within
      (Generation.within_userMode (Generation.within_collected hcollected) _ hmem) rfl
  cases g with
  | three => exact huser rfl
  | _ =>
    revert hregister
    decide

section

variable (w : Wiring) (t : Timing) {d : Device} (r : Refusals)
  (hd : d.layout = .bytes ∨ d.layout = .halfwords)

include hd

/-- **The latch is set once the user interface is ready**, and readying it fetches no word. -/
theorem outcome_prepare_of_candid {latch : EccLatch} (h : d.Candid latch) :
    (∀ pass ∈ (latch.prepare t).passes (board w) ⟨d, r⟩,
        pass.after.block.fetched = pass.before.block.fetched) ∧
      ∃ failure d', (latch.prepare t).outcome (board w) ⟨d, r⟩ = (failure, ⟨d', r⟩) ∧
        d'.layout = d.layout ∧ d'.Candid latch ∧ (failure = none → d'.latch = some latch.word) := by
  constructor
  · refine fetched_of_untriggered hd fun value hmem => ?_
    have hcourse := EccLatch.course_of_leaves
      (Program.leaves_run (board w) (latch.prepare t) ⟨d, r⟩)
    rcases EccLatch.kind_of_course hcourse _ hmem with hreset | hwithin
    · cases hreset
    · have hregister : User.trigger ∈ sidebandRegisters := Event.mem_of_within hwithin rfl
      revert hregister
      decide
  · have hlay : ((d.latched latch).polled sidebandDone t.patience).2.layout = d.layout :=
      Device.layout_of_blank
        ((Device.blank_of_core (Device.core_polled _ _ _)).trans (Device.blank_latched d latch))
    obtain ⟨hcandid, hset⟩ := Device.candid_polled (Device.candid_latched h) t.patience
    rw [Device.outcome_prepare w t r hd]
    by_cases hreset : (w.resetLine && (r.assert || r.release)) = true
    · rw [if_pos hreset]
      exact ⟨_, _, rfl, rfl, h, fun hnone => by cases hnone⟩
    · rw [if_neg hreset]
      refine ⟨_, _, rfl, hlay, hcandid, fun hnone => hset ?_⟩
      by_contra hmiss
      rw [if_neg hmiss] at hnone
      cases hnone

/-- **A planned read fetches with the latch set**, and leaves the latch and the bit in accord. -/
theorem fetchesLatched_execute {g : Generation} {latch : EccLatch} (hlatch : g.latch? = some latch)
    (h : d.Candid latch) (range : WordRange) :
    (∀ pass ∈ (g.execute t range).passes (board w) ⟨d, r⟩, FetchesLatched latch.word pass) ∧
      ((g.execute t range).outcome (board w) ⟨d, r⟩).2.block.Candid latch := by
  have huser : g ≠ .three := by rintro rfl; cases hlatch
  obtain ⟨hstill, failure, d', hrun, hlay, hcandid, hset⟩ := outcome_prepare_of_candid w t r hd h
  simp only [Generation.execute, hlatch]
  rw [Program.forall_passes_bind, Program.outcome_bind, hrun]
  cases failure with
  | some failure =>
    refine ⟨⟨fun pass hpass hfetched => absurd (hstill pass hpass) hfetched, ?_⟩, hcandid⟩
    intro pass hpass
    cases hpass
  | none =>
    obtain ⟨hpasses, hend⟩ := latch_of_uncommanded (s := ⟨d', r⟩) (by rw [hlay]; exact hd)
      (uncommanded_withUserMode (board w) t ⟨d', r⟩ huser range)
    refine ⟨⟨fun pass hpass hfetched => absurd (hstill pass hpass) hfetched, ?_⟩, .inl ?_⟩
    · intro pass hpass _
      obtain ⟨hbefore, hafter⟩ := hpasses pass hpass
      exact ⟨hbefore.trans (hset rfl), hafter.trans (hset rfl)⟩
    · exact hend.trans (hset rfl)

end

theorem fetchesLatched_of_still {word : UInt32} {s : Bench Device} {trace : List Event} :
    ∀ pass ∈ [Pass.mk s trace s], FetchesLatched word pass := by
  intro pass hpass hfetched
  obtain rfl := List.mem_singleton.1 hpass
  exact absurd rfl hfetched

section

variable (w : Wiring) {c : Controller} {g : Generation} {latch : EccLatch}
  (hlatch : g.latch? = some latch)

include hlatch

theorem fetchesLatched_transact {s : Bench Device} (hlay : s.block.layout = g.layout)
    (h : s.block.Candid latch) (range : WordRange) :
    (∀ pass ∈ (c.transact g range).passes (board w) s, FetchesLatched latch.word pass) ∧
      ((c.transact g range).outcome (board w) s).2.block.Candid latch := by
  obtain ⟨d, r⟩ := s
  have huser : g ≠ .three := by rintro rfl; cases hlatch
  obtain ⟨hexecute, hend⟩ := fetchesLatched_execute w c.timing r
    (Device.layout_of_user huser hlay) hlatch h range
  rw [Controller.transact, withClocks, Program.forall_passes_bind, Program.outcome_bind,
    outcome_enableClocks]
  cases hclocks : r.clocks with
  | true => exact ⟨⟨fetchesLatched_of_still, fetchesLatched_of_still⟩, h⟩
  | false =>
    simp only [Bool.not_false, if_true, Program.forall_passes_bind, Program.outcome_bind,
      outcome_disableClocks]
    refine ⟨⟨fetchesLatched_of_still, hexecute, fetchesLatched_of_still, ?_⟩, hend⟩
    intro pass hpass
    cases hpass

variable (hg : c.descriptor.generation = some g)

include hg

/-- **So does a read.** -/
theorem fetchesLatched_read {s : Bench Device} (hlay : s.block.layout = g.layout)
    (h : s.block.Candid latch) (offset : UInt32) (buffer : List UInt8) :
    (∀ pass ∈ (c.read offset buffer).passes (board w) s, FetchesLatched latch.word pass) ∧
      ((c.read offset buffer).outcome (board w) s).2.block.Candid latch := by
  rw [Controller.read, Controller.readWith, hg]
  dsimp only
  rw [Program.forall_passes_bind, Program.outcome_bind, Program.outcome_log, Program.passes_log]
  cases hplan : g.plan c.size offset buffer.length with
  | error refusal => exact ⟨⟨fetchesLatched_of_still, fetchesLatched_of_still⟩, h⟩
  | ok range =>
    obtain ⟨htransact, hend⟩ := fetchesLatched_transact w (c := c) hlatch hlay h range
    simp only [Memory.grants_ample, if_true]
    rw [Program.forall_passes_bind, Program.outcome_bind]
    refine ⟨⟨fetchesLatched_of_still, htransact, ?_⟩, hend⟩
    intro pass hpass
    cases hpass

theorem fetchesLatched_call {s : Bench Device} (hlay : s.block.layout = g.layout)
    (h : s.block.Candid latch) (call : Call) :
    (∀ pass ∈ (c.call call).passes (board w) s, FetchesLatched latch.word pass) ∧
      ((c.call call).outcome (board w) s).2.block.Candid latch := by
  cases hrequest : call.request? with
  | none =>
    rw [c.call_of_no_request hrequest]
    refine ⟨?_, h⟩
    intro pass hpass
    cases hpass
  | some request =>
    obtain ⟨offset, len⟩ := request
    obtain ⟨hpasses, hend⟩ := fetchesLatched_read w hlatch hg hlay h offset (call.buffer.take len)
    rw [c.call_of_request hrequest, Program.forall_passes_bind, Program.outcome_bind]
    refine ⟨⟨hpasses, ?_⟩, hend⟩
    intro pass hpass
    cases hpass

end

/-! ### Changes and calls -/

/-- The passes of the calls among some trials, one after the other. -/
def trialPasses (w : Wiring) (c : Controller) (s : Bench Device) :
    List Trial → List (Pass (Bench Device))
  | [] => []
  | .change change :: trials => trialPasses w c (changeDevice s change) trials
  | .call call :: trials =>
    (c.call call).passes (board w) s ++
      trialPasses w c ((c.call call).run (board w) s).state trials

/-- A change that leaves a device of the layout that it has, with nothing stuck. -/
structure Device.Change.Unstuck (change : Device.Change) : Prop where
  layout : change.layout = none
  stuck : ∀ bits ∈ change.stuck, bits = 0

section

variable (w : Wiring) {c : Controller} {g : Generation} {latch : EccLatch}
  (hlatch : g.latch? = some latch) (hg : c.descriptor.generation = some g)

include hlatch hg

theorem fetchesLatched_trials (trials : List Trial)
    (hunstuck : ∀ change, .change change ∈ trials → ∀ d ∈ change.device, d.Unstuck)
    {s : Bench Device} (hlay : s.block.layout = g.layout) (h : s.block.Candid latch) :
    ∀ pass ∈ trialPasses w c s trials, FetchesLatched latch.word pass := by
  induction trials generalizing s with
  | nil =>
    intro pass hpass
    cases hpass
  | cons trial trials ih =>
    have hrest := fun change hmem => hunstuck change (List.mem_cons_of_mem _ hmem)
    cases trial with
    | change change =>
      have hchange := hunstuck change (by simp)
      refine ih hrest ?_ ?_
      · cases hd : change.device with
        | none => simpa [changeDevice, hd] using hlay
        | some d => simpa [changeDevice, hd, Device.change, (hchange d hd).layout] using hlay
      · cases hd : change.device with
        | none => simpa [changeDevice, hd] using h
        | some d => simpa [changeDevice, hd] using h.change (hchange d hd).stuck
    | call call =>
      obtain ⟨hpasses, hcandid⟩ := fetchesLatched_call w hlatch hg hlay h call
      have hlay' := (Device.layout_of_blank (Device.outcome_blank w (c.call call) s)).trans hlay
      intro pass hpass
      rcases List.mem_append.1 hpass with hfirst | hlater
      · exact hpasses pass hfirst
      · exact ih hrest hlay' hcandid pass hlater

end

/-- **Every word is fetched with the latch set**, and to the value of the controller's generation.
Whatever is called on a bench with a new device, and whatever is changed in between that leaves
nothing stuck, a single action that fetches a word finds the latch set and leaves it set. -/
theorem words_are_fetched_latched (w : Wiring) {c : Controller} {g : Generation} {d : Device}
    (r : Refusals) (hg : c.descriptor.generation = some g) (huser : g ≠ .three)
    (hlayout : d.layout = g.layout) (hnew : d.blank = d) (hstuck : d.stuck = 0)
    (trials : List Trial)
    (hunstuck : ∀ change, .change change ∈ trials → ∀ d ∈ change.device, d.Unstuck) :
    ∀ pass ∈ trialPasses w c ⟨d, r⟩ trials,
      pass.after.block.fetched ≠ pass.before.block.fetched →
        pass.before.block.latch = g.setting? ∧ pass.after.block.latch = g.setting? := by
  obtain ⟨latch, hlatch⟩ := Generation.exists_latch huser
  have hstart : d.Candid latch := by
    have hunset := congrArg Device.latch hnew
    have hstatus := congrArg Device.status hnew
    have hpending := congrArg Device.pending hnew
    refine .inr ⟨hunset.symm, ?_, ?_, ?_⟩
    · rw [← hstatus]
      exact UInt32.zero_and
    · rw [← hpending]
      exact UInt32.zero_and
    · rw [hstuck]
      exact UInt32.zero_and
  rw [Generation.setting?_of_latch hlatch]
  exact fetchesLatched_trials w hlatch hg trials hunstuck hlayout hstart

/-- The first read gives up on the sideband, whose bit shows only while the second one polls. The
second one's own command stalls, and it fetches its two words on the strength of the first. -/
theorem words_are_fetched_latched_late :
    let c : Controller := ⟨.rk3568, { pollTimeout := 1 }⟩
    let stalling : Device.Change := { stallSideband := some true, latency := some 0 }
    let trials : List Trial := [.call (.read 0 [0, 0, 0, 0]), .change { device := some stalling },
      .call (.read 0 [0, 0, 0, 0])]
    let passes := trialPasses {} c ⟨{ layout := .halfwords, latency := 2 }, {}⟩ trials
    ∃ pass ∈ passes, pass.after.block.fetched = [0, 1] ∧ pass.before.block.latch = some 0 := by
  intro c stalling trials passes
  have hunstuck : ∀ change, .change change ∈ trials → ∀ d ∈ change.device, d.Unstuck := by
    intro change hmem d hd
    obtain rfl : change = { device := some stalling } := by simpa [trials] using hmem
    obtain rfl : stalling = d := Option.some.inj hd
    exact ⟨rfl, by simp [stalling]⟩
  have hfetches : (passes.any fun pass => pass.after.block.fetched = [0, 1] ∧
      pass.before.block.fetched = [0]) = true := by decide +kernel
  have hlatched := words_are_fetched_latched {} (c := c) (g := .two)
    (d := { layout := .halfwords, latency := 2 }) {} rfl (by decide) rfl rfl rfl trials hunstuck
  -- with the trials in sight the calls would be run to compare the two statements
  generalize hp : trialPasses {} c ⟨{ layout := .halfwords, latency := 2 }, {}⟩ trials = passes'
    at hlatched
  obtain rfl : passes = passes' := hp
  clear_value passes
  obtain ⟨pass, hmem, hpass⟩ := List.any_eq_true.1 hfetches
  obtain ⟨hafter, hbefore⟩ := of_decide_eq_true hpass
  refine ⟨pass, hmem, hafter, (hlatched pass hmem ?_).1⟩
  rw [hafter, hbefore]
  decide

end Bench

end FuseBank
