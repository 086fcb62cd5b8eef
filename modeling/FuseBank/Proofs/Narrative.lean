import FuseBank.Bench.Script
import FuseBank.Proofs.ResetLine
import FuseBank.Proofs.Tells

/-!
# What a read says

What is said during a read tells how far it got and how it ended there, and nothing else: neither
the number of words nor that of the samples shows. A read ends at one of a few stages (`Stage`).
Each stage goes with one failure, or with none, and with the messages up to it. Two stages go with
one failure, those of the reset pulse, and they differ in what is said before the failure is.

The stage is found along a course of the read that is followed with its messages
(`Program.Tells`): polls say nothing until they give up, no cycle says anything but the one that
fails, and what is undone at the end is undone in silence. What happens on the reset line goes
with the stage as well, so whether the reset pulse was completed is told by the log.

## Main statements

* `Generation.exists_stage_of_gather`: of the cycles only one that fails is told of.
* `Generation.exists_endsAt_of_execute`: a planned read ends at one of the stages.
* `narrated_of_stage`: what a stage tells.
* `log_tells_outcome`: the log of a read and its result.
-/

namespace FuseBank

open Register

variable {wired : Bool} {trace : List Event} {log : List Message}

/-! ### Stages -/

/-- The stage at which a read ends. -/
inductive Stage where
  /-- The request is turned down. -/
  | turnedDown (refusal : Refusal)
  /-- The clocks are refused. -/
  | noClocks
  /-- Asserting the reset line is refused. -/
  | notAsserted
  /-- Releasing the reset line is refused. -/
  | notReleased
  /-- The latch is not set in time. -/
  | notSet
  /-- A cycle is not complete in time. -/
  | late
  /-- A word's quality value is a fault. -/
  | fault
  /-- All words are brought in. -/
  | served
  deriving DecidableEq, Repr

namespace Stage

/-- What goes wrong at a stage, if anything does. -/
def failure : Stage → Option Failure
  | turnedDown _ => some .outOfRange
  | noClocks => some .clockFailure
  | notAsserted | notReleased => some .resetFailure
  | notSet => some .sidebandTimeout
  | late => some .pollTimeout
  | fault => some .integrityFault
  | served => none

/-- What is said about what goes wrong. -/
def complaint : Stage → List Message
  | turnedDown refusal => [refusal.message]
  | noClocks => [.clocksRefused]
  | notAsserted => [.assertRefused, .resetFailed]
  | notReleased => [.releaseRefused, .resetFailed]
  | notSet => [.latchTimeout]
  | late => [.cycleTimeout]
  | fault => [.integrityFault]
  | served => []

/-- Whether the clocks run. -/
def clocked : Stage → Bool
  | turnedDown _ | noClocks => false
  | _ => true

/-- Whether a reset pulse, if there is one, is completed. -/
def pulsed : Stage → Bool
  | notSet | late | fault | served => true
  | _ => false

/-- Whether the words of the request are being fetched. -/
def fetching : Stage → Bool
  | late | fault | served => true
  | _ => false

/-- What is said up to a stage, where this latch is set after the reset pulse. -/
def messages (latch : Option EccLatch) (stage : Stage) : List Message :=
  (if stage.pulsed then latch.toList.map .latching else []) ++ stage.complaint

/-- What happens on the reset line up to a stage. -/
def resets (g : Generation) (wired : Bool) : Stage → List Event
  | notAsserted => [.assertRefused]
  | notReleased => [.resetAsserted, .releaseRefused]
  | stage =>
    if wired && stage.pulsed && g.latch?.isSome then [.resetAsserted, .resetReleased] else []

theorem countP_warn (stage : Stage) (latch : Option EccLatch) :
    (stage.messages latch).countP (·.level = .warn) =
      if stage.failure = some .outOfRange then 1 else 0 := by
  cases stage with
  | turnedDown refusal => cases refusal <;> rfl
  | _ => cases latch <;> rfl

theorem countP_error (stage : Stage) (latch : Option EccLatch) :
    (stage.messages latch).countP (·.level = .error) =
      match stage.failure with
      | some .resetFailure => 2
      | some .clockFailure | some .sidebandTimeout | some .pollTimeout
      | some .integrityFault => 1
      | _ => 0 := by
  cases stage with
  | turnedDown refusal => cases refusal <;> rfl
  | _ => cases latch <;> rfl

/-- An error is followed by the one that is the text of the failure, unless it is that. -/
theorem exists_last {latch : Option EccLatch} (stage : Stage) {m : Message}
    (hmem : m ∈ stage.messages latch) (hlevel : m.level = .error) :
    ∃ before last failure, stage.messages latch = before ++ [last] ∧ last.level = .error ∧
      stage.failure = some failure ∧ last.text = failure.message := by
  cases stage with
  | turnedDown refusal =>
    obtain rfl := List.mem_singleton.1 hmem
    cases refusal <;> cases hlevel
  | served =>
    simp only [messages, complaint, pulsed, if_true, List.append_nil, List.mem_map] at hmem
    obtain ⟨_, -, rfl⟩ := hmem
    cases hlevel
  | noClocks => exact ⟨[], .clocksRefused, .clockFailure, rfl, rfl, rfl, rfl⟩
  | notAsserted => exact ⟨[.assertRefused], .resetFailed, .resetFailure, rfl, rfl, rfl, rfl⟩
  | notReleased => exact ⟨[.releaseRefused], .resetFailed, .resetFailure, rfl, rfl, rfl, rfl⟩
  | notSet => exact ⟨_, .latchTimeout, .sidebandTimeout, rfl, rfl, rfl, rfl⟩
  | late => exact ⟨_, .cycleTimeout, .pollTimeout, rfl, rfl, rfl, rfl⟩
  | fault => exact ⟨_, .integrityFault, .integrityFault, rfl, rfl, rfl, rfl⟩

/-! #### Stages of fetching -/

section

variable (stage : Stage) (h : stage.fetching = true)

include h

theorem clocked_of_fetching : stage.clocked = true := by
  cases stage <;> first | rfl | cases h

theorem line_of_fetching (hreset : stage = .notAsserted ∨ stage = .notReleased) :
    wired = true := by
  rcases hreset with rfl | rfl <;> cases h

theorem messages_of_fetching (latch : Option EccLatch) :
    stage.messages latch = latch.toList.map .latching ++ stage.complaint := by
  cases stage <;> first | rfl | cases h

theorem resets_of_fetching (g : Generation) (wired : Bool) :
    stage.resets g wired =
      if wired && g.latch?.isSome then [.resetAsserted, .resetReleased] else [] := by
  cases stage <;> first | (cases wired <;> rfl) | cases h

end

end Stage

/-! ### Polls and pulses -/

namespace Poll

theorem silent_sampling (p : Poll) (us : UInt32) (left : Nat) : (p.sampling us left).Silent := by
  induction left with
  | zero =>
    refine (Bus.silent_read _).bind fun sample => ?_
    split
    · exact (Bus.silent_write _ _).bind fun _ => Program.silent_done true
    · exact Program.silent_done false
  | succ left ih =>
    refine (Bus.silent_read _).bind fun sample => ?_
    split
    · exact (Bus.silent_write _ _).bind fun _ => Program.silent_done true
    · exact (Bus.silent_delay us).bind fun _ => ih

/-- A poll complains if it gives up, however often it has sampled. -/
theorem log_of_await {p : Poll} {tick : UInt32} {complaint : Message} {up : Bool}
    (h : (p.await tick complaint).Tells wired up trace log) :
    log = if up then [] else [complaint] := by
  rw [await, wait_eq_sampling] at h
  obtain ⟨_, _, _, -, hrest, -⟩ := (p.silent_sampling _ _).tells_bind h
  split at hrest
  · obtain ⟨rfl, -, rfl⟩ := hrest
    rfl
  · obtain ⟨_, ⟨rfl, -, rfl⟩, rfl⟩ := Bus.tells_log_bind.1 hrest
    rfl

end Poll

theorem log_of_resetPulse {hold : UInt32} {completed : Bool}
    (h : (resetPulse hold).Tells wired completed trace log) :
    log = if completed then [] else
      [if .assertRefused ∈ trace then .assertRefused else .releaseRefused] := by
  obtain ⟨asserted, first, rest, hassert, hrest, rfl⟩ := Bus.silent_assertReset.tells_bind h
  rw [Bus.leaves_assertReset] at hassert
  cases asserted with
  | false =>
    obtain ⟨_, ⟨rfl, rfl, rfl⟩, rfl⟩ := Bus.tells_log_bind.1 hrest
    cases wired with
    | false => simp at hassert
    | true =>
      obtain rfl : first = [.assertRefused] := by simpa using hassert
      rfl
  | true =>
    obtain ⟨_, hheld, rfl⟩ := Bus.tells_delay_bind.1 hrest
    obtain ⟨released, second, _, hrelease, hlast, rfl⟩ := Bus.silent_releaseReset.tells_bind hheld
    rw [Bus.leaves_releaseReset] at hrelease
    cases released with
    | true =>
      obtain ⟨rfl, -, rfl⟩ := hlast
      rfl
    | false =>
      obtain ⟨_, ⟨rfl, rfl, rfl⟩, rfl⟩ := Bus.tells_log_bind.1 hlast
      cases wired with
      | false => simp at hrelease
      | true =>
        obtain rfl : first = [.resetAsserted] := by simpa using hassert
        obtain rfl : second = [.releaseRefused] := by simpa using hrelease
        rfl

theorem filter_isReset_of_within {registers : List Nat} (h : ∀ e ∈ trace, e.Within registers) :
    trace.filter Event.isReset = [] :=
  List.filter_eq_nil_iff.2 fun e he hreset => by simp [Event.isReset_of_within (h e he)] at hreset

namespace Generation

variable {g : Generation} {t : Timing}

/-- A planned read ends at a stage. -/
structure EndsAt (g : Generation) (wired : Bool) (stage : Stage) (failure : Option Failure)
    (trace : List Event) (log : List Message) : Prop where
  /-- The clocks run. -/
  clocked : stage.clocked = true
  /-- What goes wrong is what goes wrong at the stage. -/
  failure_eq : failure = stage.failure
  /-- What is said is said up to the stage. -/
  log_eq : log = stage.messages g.latch?
  /-- What happens on the reset line happens up to the stage. -/
  resets_eq : trace.filter Event.isReset = stage.resets g wired
  /-- Only a line that is wired up can refuse. -/
  line : stage = .notAsserted ∨ stage = .notReleased → wired = true

/-! ### Before the user interface can be used -/

theorem log_of_set {latch : EccLatch} {done : Bool}
    (h : (latch.set t).Tells wired done trace log) :
    log = .latching latch :: if done then [] else [.latchTimeout] := by
  simp only [EccLatch.set, Bus.tells_log_bind, Bus.tells_write_bind] at h
  obtain ⟨_, ⟨_, ⟨_, ⟨_, ⟨_, ⟨_, hpolling, -⟩, -⟩, -⟩, -⟩, -⟩, rfl⟩ := h
  exact congrArg _ (Poll.log_of_await hpolling)

theorem filter_resetEvents (wired : Bool) (hold : UInt32) :
    (resetEvents wired hold).filter Event.isReset =
      if wired then [.resetAsserted, .resetReleased] else [] := by
  cases wired <;> rfl

theorem filter_handshake {latch : EccLatch} {done : Bool} {handshake : List Event}
    (h : (latch.set t).Leaves wired done handshake) : handshake.filter Event.isReset = [] := by
  obtain ⟨polling, hpolling, rfl⟩ := EccLatch.leaves_set h
  exact filter_isReset_of_within (latch.within_handshake hpolling)

/-- **The user interface is readied**, or one of three stages is not passed. -/
theorem told_of_prepare {latch : EccLatch} (hlatch : g.latch? = some latch)
    {ending : Option Failure} (h : (latch.prepare t).Tells wired ending trace log) :
    (ending = none ∧ log = [.latching latch] ∧
        trace.filter Event.isReset = if wired then [.resetAsserted, .resetReleased] else []) ∨
      ∃ failure, ending = some failure ∧ ∃ stage, g.EndsAt wired stage ending trace log := by
  obtain ⟨completed, pulse, rest, early, late, hpulse, hrest, rfl, rfl⟩ := Program.tells_bind.1 h
  have hsaid := log_of_resetPulse hpulse
  have hcourse := resetCourse_of_leaves hpulse.leaves
  -- which half of the pulse was refused shows in the events of the pulse, and there it is told
  cases completed with
  | false =>
    obtain ⟨_, ⟨rfl, rfl, rfl⟩, rfl⟩ := Bus.tells_log_bind.1 hrest
    refine .inr ⟨_, rfl, ?_⟩
    cases hcourse with
    | notAsserted hwired =>
      exact ⟨.notAsserted, rfl, rfl, by simp [hsaid, Stage.messages, Stage.pulsed, Stage.complaint],
        rfl, fun _ => hwired⟩
    | notReleased hwired =>
      exact ⟨.notReleased, rfl, rfl, by simp [hsaid, Stage.messages, Stage.pulsed, Stage.complaint],
        rfl, fun _ => hwired⟩
  | true =>
    obtain ⟨done, handshake, _, said, _, hset, hlast, rfl, rfl⟩ := Program.tells_bind.1 hrest
    cases hcourse
    cases done with
    | true =>
      obtain ⟨rfl, rfl, rfl⟩ := hlast
      refine .inl ⟨rfl, ?_, ?_⟩
      · simp [hsaid, log_of_set hset]
      · simp [filter_resetEvents, filter_handshake hset.leaves]
    | false =>
      obtain ⟨rfl, rfl, rfl⟩ := hlast
      refine .inr ⟨_, rfl, .notSet, rfl, rfl, ?_, ?_, by simp⟩
      · simp [hsaid, log_of_set hset, Stage.messages, Stage.pulsed, Stage.complaint, hlatch]
      · simp [filter_resetEvents, filter_handshake hset.leaves, Stage.resets, Stage.pulsed, hlatch]

/-! ### Read cycles -/

theorem log_of_userCycle {address : UInt32} {done : Bool}
    (h : (userCycle t address).Tells wired done trace log) :
    log = if done then [] else [.cycleTimeout] := by
  obtain ⟨_, hstarted, -⟩ := Bus.tells_write_bind.1 h
  obtain ⟨_, hpolling, -⟩ := Bus.tells_write_bind.1 hstarted
  exact Poll.log_of_await hpolling

theorem log_of_sequencerCycle {address : UInt16} {done : Bool}
    (h : (sequencerCycle t address).Tells wired done trace log) :
    log = if done then [] else [.cycleTimeout] := by
  obtain ⟨_, hstarted, -⟩ := Bus.tells_write_bind.1 h
  obtain ⟨_, hpolling, -⟩ := Bus.tells_write_bind.1 hstarted
  exact Poll.log_of_await hpolling

/-- A word is brought in silently, or its failure is told. -/
theorem exists_stage_of_fetch {address : UInt32} {result : Except Failure UInt32}
    (ha : g.Reaches address) (h : (g.fetch t address).Tells wired result trace log) :
    (log = [] ∧ ∃ word, result = .ok word) ∨
      ∃ stage : Stage, stage.fetching = true ∧ log = stage.complaint ∧
        ∃ failure, result = .error failure ∧ stage.failure = some failure := by
  cases g with
  | one =>
    obtain ⟨done, _, _, _, _, hcycle, hrest, -, rfl⟩ := Program.tells_bind.1 h
    obtain rfl := log_of_userCycle hcycle
    cases done with
    | false =>
      obtain ⟨rfl, -, rfl⟩ := hrest
      exact .inr ⟨.late, rfl, rfl, _, rfl, rfl⟩
    | true =>
      obtain ⟨byte, _, _, -, ⟨rfl, -, rfl⟩, -⟩ := (Bus.silent_readLane _).tells_bind hrest
      exact .inl ⟨rfl, _, rfl⟩
  | two =>
    obtain ⟨done, _, _, _, _, hcycle, hrest, -, rfl⟩ := Program.tells_bind.1 h
    obtain rfl := log_of_userCycle hcycle
    cases done with
    | false =>
      obtain ⟨rfl, -, rfl⟩ := hrest
      exact .inr ⟨.late, rfl, rfl, _, rfl, rfl⟩
    | true =>
      obtain ⟨quality, _, _, -, hchecked, -⟩ := (Bus.silent_read _).tells_bind hrest
      split at hchecked
      · obtain ⟨_, ⟨rfl, -, rfl⟩, rfl⟩ := Bus.tells_log_bind.1 hchecked
        exact .inr ⟨.fault, rfl, rfl, _, rfl, rfl⟩
      · obtain ⟨word, _, _, -, ⟨rfl, -, rfl⟩, -⟩ := (Bus.silent_read _).tells_bind hchecked
        exact .inl ⟨rfl, _, rfl⟩
  | three =>
    have hlt : address + Sequencer.nonSecureBase < Sequencer.addressLimit := by
      rw [UInt32.lt_iff_toNat_lt]
      exact (Bench.Device.toNat_place_three ha).trans_lt (ha rfl)
    simp only [fetch, hlt, if_true] at h
    obtain ⟨done, _, _, _, _, hcycle, hrest, -, rfl⟩ := Program.tells_bind.1 h
    obtain rfl := log_of_sequencerCycle hcycle
    cases done with
    | false =>
      obtain ⟨rfl, -, rfl⟩ := hrest
      exact .inr ⟨.late, rfl, rfl, _, rfl, rfl⟩
    | true =>
      obtain ⟨word, _, _, -, ⟨rfl, -, rfl⟩, -⟩ := (Bus.silent_read _).tells_bind hrest
      exact .inl ⟨rfl, _, rfl⟩

/-- **No cycle says anything, except the one that fails.** -/
theorem exists_stage_of_gather {addresses fetched : List UInt32} {harvest : Harvest}
    (ha : ∀ a ∈ addresses, g.Reaches a)
    (h : (gather (g.fetch t) fetched addresses).Tells wired harvest trace log) :
    ∃ stage : Stage, stage.fetching = true ∧ log = stage.complaint ∧
      harvest.failure = stage.failure := by
  induction addresses generalizing fetched trace log with
  | nil =>
    obtain ⟨rfl, -, rfl⟩ := h
    exact ⟨.served, rfl, rfl, rfl⟩
  | cons address addresses ih =>
    obtain ⟨result, first, rest, early, late, hfetch, hrest, rfl, rfl⟩ := Program.tells_bind.1 h
    rcases exists_stage_of_fetch (ha address (by simp)) hfetch with
      ⟨rfl, word, rfl⟩ | ⟨stage, hfetching, rfl, failure, rfl, hfailure⟩
    · exact ih (fun a h => ha a (List.mem_cons_of_mem _ h)) hrest
    · obtain ⟨rfl, -, rfl⟩ := hrest
      exact ⟨stage, hfetching, List.append_nil _, hfailure.symm⟩

theorem exists_stage_of_collect {range : WordRange} {delivery : Delivery}
    (ha : ∀ a ∈ range.words, g.Reaches a)
    (h : (g.collect t range).Tells wired delivery trace log) :
    ∃ stage : Stage, stage.fetching = true ∧ log = stage.complaint ∧
      delivery.failure = stage.failure := by
  obtain ⟨harvest, _, _, _, _, hgather, ⟨rfl, -, rfl⟩, -, rfl⟩ := Program.tells_bind.1 h
  obtain ⟨stage, hfetching, rfl, hfailure⟩ := exists_stage_of_gather ha hgather
  exact ⟨stage, hfetching, List.append_nil _, (failure_deliver g range harvest).trans hfailure⟩

/-! ### Planned reads -/

theorem tells_withUserMode {α : Type} {body : Program α} {value : α}
    (h : (withUserMode t body).Tells wired value trace log) : ∃ inner,
      body.Tells wired value inner log ∧ trace = .write User.control User.take ::
        .delay t.settle :: (inner ++ [.write User.control User.release]) := by
  simp only [withUserMode, Bus.tells_write_bind, Bus.tells_delay_bind] at h
  obtain ⟨_, ⟨_, hbody, rfl⟩, rfl⟩ := h
  obtain ⟨_, inner, _, said, _, hbody, hend, rfl, rfl⟩ := Program.tells_bind.1 hbody
  obtain ⟨_, ⟨rfl, rfl, rfl⟩, rfl⟩ := Bus.tells_write_bind.1 hend
  exact ⟨inner, by rwa [List.append_nil], rfl⟩

/-- **A planned read ends at one of the stages.** -/
theorem exists_endsAt_of_execute {range : WordRange} {delivery : Delivery}
    (ha : ∀ a ∈ range.words, g.Reaches a)
    (h : (g.execute t range).Tells wired delivery trace log) :
    ∃ stage, g.EndsAt wired stage delivery.failure trace log := by
  rw [execute] at h
  split at h
  · rename_i hlatch
    obtain ⟨stage, hfetching, rfl, hfailure⟩ := exists_stage_of_collect ha h
    have hstill := filter_isReset_of_within (within_collected (collected_of_leaves ha h.leaves))
    refine ⟨stage, stage.clocked_of_fetching hfetching, hfailure, ?_, ?_,
      stage.line_of_fetching hfetching⟩
    · rw [stage.messages_of_fetching hfetching, hlatch]
      rfl
    · rw [stage.resets_of_fetching hfetching, hlatch, hstill]
      simp
  · rename_i latch hlatch
    obtain ⟨failure, early, rest, said, later, hprepare, hrest, rfl, rfl⟩ :=
      Program.tells_bind.1 h
    rcases told_of_prepare hlatch hprepare with ⟨rfl, rfl, hresets⟩ | ⟨failure, rfl, stage, hends⟩
    · obtain ⟨body, hbody, rfl⟩ := tells_withUserMode hrest
      obtain ⟨stage, hfetching, rfl, hfailure⟩ := exists_stage_of_collect ha hbody
      have hstill := filter_isReset_of_within
        (within_userMode (t := t) (within_collected (collected_of_leaves ha hbody.leaves)))
      refine ⟨stage, stage.clocked_of_fetching hfetching, hfailure, ?_, ?_,
        stage.line_of_fetching hfetching⟩
      · rw [stage.messages_of_fetching hfetching, hlatch]
        rfl
      · rw [stage.resets_of_fetching hfetching, hlatch, List.filter_append, hresets, hstill]
        simp
    · obtain ⟨rfl, rfl, rfl⟩ := hrest
      rw [List.append_nil, List.append_nil]
      exact ⟨stage, hends⟩

end Generation

/-! ### Reads -/

/-- The line that tells how the latch is about to be set. -/
def Generation.latchLine : Generation → List String
  | one => ["sbpi: ecc false"]
  | two => ["sbpi: ecc true"]
  | three => []

/-- How what a read of `len` bytes at `offset` says goes with what it does and with its result. -/
structure Narrated (g : Generation) (wired : Bool) (clocks : List String) (size offset : UInt32)
    (len : Nat) (result : Except Failure Nat) (trace : List Event) (log : List Message) :
    Prop where
  /-- What is said, and what the result is, is told by the stage at which the read ends. A request
  is turned down for what is wrong with it. -/
  stage : ∃ stage : Stage, log = .reading len offset :: stage.messages g.latch? ∧
    (stage.failure = match result with
      | .ok _ => none
      | .error failure => some failure) ∧
    ∀ refusal, stage = .turnedDown refusal → g.plan size offset len = .error refusal
  /-- The first line tells what is asked for. The latch is told of once if the reset pulse is
  completed, and there are no other lines about what goes well. -/
  traces : (log.filter (·.level = .trace)).map Message.text =
    (Message.reading len offset).text ::
      if g.LineObeyed wired clocks .resetReleased trace then g.latchLine else []
  /-- There is one warning if the request is turned down, and none otherwise. -/
  warnings : log.countP (·.level = .warn) = if result = .error .outOfRange then 1 else 0
  /-- There are two errors if the reset pulse is not completed, and one if the hardware fails
  otherwise. -/
  errors : log.countP (·.level = .error) =
    match result with
    | .error .resetFailure => 2
    | .error .clockFailure | .error .sidebandTimeout | .error .pollTimeout
    | .error .integrityFault => 1
    | _ => 0
  /-- The call on the reset line that was refused is told first. -/
  half : result = .error .resetFailure → ∃ half refused,
    (half, refused) ∈ [(Message.assertRefused, Event.assertRefused),
      (.releaseRefused, .releaseRefused)] ∧
    refused ∈ trace ∧ log = [.reading len offset, half, .resetFailed]
  /-- If there is an error, the last thing that is said is one, and it is the text of the
  failure. -/
  last : ∀ m ∈ log, m.level = .error → ∃ before last failure, log = before ++ [last] ∧
    last.level = .error ∧ result = .error failure ∧ last.text = failure.message

section

variable {g : Generation} {clocks : List String} {size offset : UInt32} {len : Nat}
  {result : Except Failure Nat}

/-- What a stage tells is how the read goes. -/
theorem narrated_of_stage (stage : Stage)
    (hlog : log = .reading len offset :: stage.messages g.latch?)
    (hresult : stage.failure = match result with
      | .ok _ => none
      | .error failure => some failure)
    (hrefusal : ∀ refusal, stage = .turnedDown refusal → g.plan size offset len = .error refusal)
    (hline : g.LineObeyed wired clocks .resetReleased trace ↔ g ≠ .three ∧ stage.pulsed = true)
    (hassert : stage = .notAsserted → .assertRefused ∈ trace)
    (hrelease : stage = .notReleased → .releaseRefused ∈ trace) :
    Narrated g wired clocks size offset len result trace log := by
  constructor
  case stage => exact ⟨stage, hlog, hresult, hrefusal⟩
  case traces =>
    have hlatch : (if g.LineObeyed wired clocks .resetReleased trace then g.latchLine else []) =
        if stage.pulsed then g.latchLine else [] := by
      simp only [hline]
      cases g <;> simp [Generation.latchLine]
    rw [hlog, hlatch]
    cases stage with
    | turnedDown refusal => cases refusal <;> cases g <;> rfl
    | _ => cases g <;> rfl
  case warnings =>
    rw [hlog, List.countP_cons_of_neg (by simp [Message.level]), stage.countP_warn, hresult]
    cases result <;> simp
  case errors =>
    rw [hlog, List.countP_cons_of_neg (by simp [Message.level]), stage.countP_error, hresult]
    cases result with
    | ok n => rfl
    | error failure => cases failure <;> rfl
  case half =>
    rintro rfl
    have hstage : stage = .notAsserted ∨ stage = .notReleased := by
      cases stage <;> first | exact .inl rfl | exact .inr rfl | cases hresult
    rcases hstage with rfl | rfl
    · exact ⟨.assertRefused, .assertRefused, by simp, hassert rfl, hlog⟩
    · exact ⟨.releaseRefused, .releaseRefused, by simp, hrelease rfl, hlog⟩
  case last =>
    intro m hmem hlevel
    subst hlog
    obtain ⟨before, last, failure, hmessages, hlast, hfailure, htext⟩ :=
      stage.exists_last (List.mem_of_ne_of_mem (by rintro rfl; cases hlevel) hmem) hlevel
    refine ⟨.reading len offset :: before, last, failure, congrArg _ hmessages, hlast, ?_, htext⟩
    rw [hfailure] at hresult
    cases result with
    | ok n => cases hresult
    | error f => exact congrArg _ (Option.some.inj hresult).symm

end

namespace Controller

variable {c : Controller} {g : Generation}

theorem tells_transact {range : WordRange} {delivery : Delivery}
    (h : (c.transact g range).Tells wired delivery trace log) :
    (delivery = .failed .clockFailure ∧ trace = [.clocksRefused c.descriptor.clocks] ∧
        log = [.clocksRefused]) ∨
      ∃ body, (g.execute c.timing range).Tells wired delivery body log ∧
        trace = .clocksOn c.descriptor.clocks :: (body ++ [.clocksOff c.descriptor.clocks]) := by
  obtain ⟨granted, _, _, hclocks, hrest, rfl⟩ := (Bus.silent_enableClocks _).tells_bind h
  rw [Bus.leaves_enableClocks] at hclocks
  subst hclocks
  cases granted with
  | false =>
    obtain ⟨_, ⟨rfl, rfl, rfl⟩, rfl⟩ := Bus.tells_log_bind.1 hrest
    exact .inl ⟨rfl, rfl, rfl⟩
  | true =>
    obtain ⟨_, body, _, said, _, hexecute, hend, rfl, rfl⟩ := Program.tells_bind.1 hrest
    obtain ⟨_, _, _, hoff, ⟨rfl, rfl, rfl⟩, rfl⟩ := (Bus.silent_disableClocks _).tells_bind hend
    rw [Bus.leaves_disableClocks] at hoff
    subst hoff
    exact .inr ⟨body, by rwa [List.append_nil], rfl⟩

theorem narrated_of_endsAt {stage : Stage} {delivery : Delivery} {body : List Event}
    (h : g.EndsAt wired stage delivery.failure body log) (planned : Nat) {offset : UInt32}
    (buffer : List UInt8) :
    Narrated g wired c.descriptor.clocks c.size offset buffer.length
      (delivery.reply planned buffer).result
      (.clocksOn c.descriptor.clocks :: (body ++ [.clocksOff c.descriptor.clocks]))
      (.reading buffer.length offset :: log) := by
  have hbody : ∀ e : Event, e.isReset = true → (e ∈ stage.resets g wired ↔ e ∈
      .clocksOn c.descriptor.clocks :: (body ++ [.clocksOff c.descriptor.clocks])) := by
    intro e he
    rw [← h.resets_eq, List.mem_filter]
    cases e with
    | resetAsserted | assertRefused | resetReleased | releaseRefused => simp [Event.isReset]
    | _ => cases he
  refine narrated_of_stage stage (congrArg _ h.log_eq) ?_ ?_ ?_ ?_ ?_
  · rw [← h.failure_eq, Delivery.reply]
    cases delivery.failure <;> rfl
  · rintro refusal rfl
    cases h.clocked
  · cases wired with
    | true =>
      rw [Generation.LineObeyed, if_pos rfl, ← hbody .resetReleased rfl]
      cases stage <;> cases g <;> simp [Stage.resets, Stage.pulsed, Generation.latch?]
    | false =>
      -- without a line there is no event to go by, but neither of its calls can be refused
      have hpulsed : stage.pulsed = true := by
        cases stage with
        | turnedDown | noClocks => cases h.clocked
        | notAsserted => cases h.line (.inl rfl)
        | notReleased => cases h.line (.inr rfl)
        | _ => rfl
      simp [Generation.LineObeyed, hpulsed]
  · rintro rfl
    exact (hbody .assertRefused rfl).1 (by simp [Stage.resets])
  · rintro rfl
    exact (hbody .releaseRefused rfl).1 (by simp [Stage.resets])

/-- **What a read tells is how it goes.** -/
theorem narrated_of_tells (hg : c.descriptor.generation = some g) {offset : UInt32}
    {buffer : List UInt8} {reply : Reply (Except Failure Nat)}
    (h : (c.read offset buffer).Tells wired reply trace log) :
    Narrated g wired c.descriptor.clocks c.size offset buffer.length reply.result trace log := by
  rw [read, readWith, hg] at h
  obtain ⟨later, hlater, rfl⟩ := Bus.tells_log_bind.1 h
  cases hplan : g.plan c.size offset buffer.length with
  | error refusal =>
    rw [hplan] at hlater
    obtain ⟨_, ⟨rfl, rfl, rfl⟩, rfl⟩ := Bus.tells_log_bind.1 hlater
    exact narrated_of_stage (.turnedDown refusal) rfl rfl
      (fun other hother => by cases hother; exact hplan)
      (by simp [Generation.LineObeyed, Stage.pulsed]) (fun h => by cases h) (fun h => by cases h)
  | ok range =>
    obtain ⟨last, hlast, hplan', hreach⟩ :=
      Generation.exists_plan (Generation.accepts_of_plan hplan)
    obtain rfl := Except.ok.inj (hplan.symm.trans hplan')
    rw [hplan] at hlater
    obtain ⟨delivery, _, _, said, _, htransact, ⟨rfl, rfl, rfl⟩, rfl, rfl⟩ :=
      Program.tells_bind.1 hlater
    rw [List.append_nil, List.append_nil]
    rcases tells_transact htransact with ⟨rfl, rfl, rfl⟩ | ⟨body, hexecute, rfl⟩
    · exact narrated_of_stage .noClocks rfl rfl (fun refusal h => by cases h)
        (by simp [Generation.LineObeyed, Stage.pulsed]) (fun h => by cases h) (fun h => by cases h)
    · obtain ⟨stage, hends⟩ := Generation.exists_endsAt_of_execute hreach hexecute
      exact narrated_of_endsAt hends _ buffer

end Controller

/-- **The log of a read and its outcome correspond**, whatever the hardware answers. A read of an
unsupported bank says nothing. Any other says what is asked for, then how the latch is set if the
reset pulse is completed, and then what goes wrong. -/
theorem log_tells_outcome (c : Controller) (offset : UInt32) (buffer : List UInt8) {σ : Type}
    (b : Board σ) (s : σ) :
    let r := (c.read offset buffer).run b s
    match c.descriptor.generation with
    | none => r.value.result = .error .unsupported ∧ r.log = []
    | some g => Narrated g b.reset.isSome c.descriptor.clocks c.size offset buffer.length
        r.value.result r.trace r.log := by
  intro r
  cases hg : c.descriptor.generation with
  | none =>
    have hread : c.read offset buffer = return ⟨.error .unsupported, buffer⟩ := by
      rw [Controller.read, Controller.readWith, hg]
    simp [r, hread, Record.still]
  | some g => exact Controller.narrated_of_tells hg (Program.tells_run b _ s)

example : (((⟨.rk3568, {}⟩ : Controller).read 3 [0, 0]).run (Bench.board {})
      (⟨⟨[]⟩, { release := true }⟩ : Bench Bench.Script)).log.map Message.text =
    ["otp: read 2 bytes at 3", "failed to deassert otp phy", "failed to reset otp phy"] := by
  decide +kernel

end FuseBank
