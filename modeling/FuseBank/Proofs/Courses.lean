import FuseBank.Controller
import FuseBank.Proofs.Leaves
import FuseBank.Proofs.Transaction

/-!
# The courses of a read

What a read may leave on any board, stage by stage: the samples of a poll, the reset pulse and
the command to the sideband, the cycle of each word, and around them the fuse macro that is
taken and the clocks that run. Each stage is given as a relation between what it comes to and
its events, with a constructor for each way it may go, and each program is shown to go in one
of these ways. What is proved about the events of a read goes by cases on them.

## Main statements

* `Poll.course_of_leaves`: a poll sees some samples without a bit, and then one with a bit,
  which it clears, or gives up.
* `Generation.row_of_leaves`: the words of a request are fetched one by one, up to the first
  that fails.
* `Generation.carriedOut_of_leaves`: a planned read; `Generation.failure_of_carriedOut`: what may
  go wrong with it.
* `Controller.course_of_leaves`: a read.
-/

namespace FuseBank

open Register

variable {wired : Bool} {trace : List Event}

/-! ### Polls -/

namespace Poll

/-- Samples that show no bit, each with the pause after it. -/
def vain (p : Poll) (us : UInt32) (samples : List UInt32) : List Event :=
  samples.flatMap fun sample => [.read p.register sample, .delay us]

/-- How a poll with so many pauses goes, and whether a bit comes up. -/
inductive Course (p : Poll) (us : UInt32) (pauses : Nat) : Bool → List Event → Prop
  /-- A bit comes up and is cleared. -/
  | up (samples : List UInt32) {sample : UInt32} (hlen : samples.length ≤ pauses)
      (hvain : ∀ x ∈ samples, x &&& p.mask = 0) (hup : sample &&& p.mask ≠ 0) :
      Course p us pauses true
        (p.vain us samples ++ [.read p.register sample, .write p.register p.mask])
  /-- The last sample shows no bit either. -/
  | spent (samples : List UInt32) {sample : UInt32} (hlen : samples.length = pauses)
      (hvain : ∀ x ∈ samples, x &&& p.mask = 0) (hdown : sample &&& p.mask = 0) :
      Course p us pauses false (p.vain us samples ++ [.read p.register sample])

theorem Course.again {p : Poll} {us : UInt32} {pauses : Nat} {up : Bool} {sample : UInt32}
    (hdown : sample &&& p.mask = 0) (h : p.Course us pauses up trace) :
    p.Course us (pauses + 1) up (.read p.register sample :: .delay us :: trace) := by
  cases h with
  | up samples hlen hvain hup =>
    exact .up (sample :: samples) (by simpa using hlen) (by simpa [hdown] using hvain) hup
  | spent samples hlen hvain hlast =>
    exact .spent (sample :: samples) (by simpa using hlen) (by simpa [hdown] using hvain) hlast

theorem course_of_sampling {p : Poll} {us : UInt32} {left : Nat} {up : Bool}
    (h : (p.sampling us left).Leaves wired up trace) : p.Course us left up trace := by
  induction left generalizing trace with
  | zero =>
    obtain ⟨sample, rest, hrest, rfl⟩ := Bus.leaves_read_bind.1 h
    split at hrest
    · rename_i hup
      obtain ⟨_, ⟨rfl, rfl⟩, rfl⟩ := Bus.leaves_write_bind.1 hrest
      exact .up [] (by simp) (by simp) hup
    · rename_i hdown
      obtain ⟨rfl, rfl⟩ := hrest
      exact .spent [] rfl (by simp) (by simpa using hdown)
  | succ left ih =>
    obtain ⟨sample, rest, hrest, rfl⟩ := Bus.leaves_read_bind.1 h
    split at hrest
    · rename_i hup
      obtain ⟨_, ⟨rfl, rfl⟩, rfl⟩ := Bus.leaves_write_bind.1 hrest
      exact .up [] (by simp) (by simp) hup
    · rename_i hdown
      obtain ⟨_, hagain, rfl⟩ := Bus.leaves_delay_bind.1 hrest
      exact (ih hagain).again (by simpa using hdown)

/-- **A poll sees samples without a bit**, and then one with a bit, or gives up. -/
theorem course_of_leaves {p : Poll} {tick : UInt32} {complaint : Message} {up : Bool}
    (h : (p.await tick complaint).Leaves wired up trace) :
    p.Course (pace tick) (pauses p.budget tick) up trace := by
  rw [await, wait_eq_sampling] at h
  obtain ⟨_, first, rest, hfirst, hrest, rfl⟩ := Program.leaves_bind.1 h
  have hcourse := course_of_sampling hfirst
  split at hrest
  · rename_i hup
    obtain ⟨rfl, rfl⟩ := hrest
    rwa [List.append_nil, ← hup]
  · rename_i hdown
    obtain ⟨rfl, rfl⟩ := Bus.leaves_log_bind.1 hrest
    rwa [List.append_nil, ← Bool.eq_false_iff.2 hdown]

end Poll

/-! ### Before the user interface can be used -/

/-- The events of a reset pulse that is completed. -/
def resetEvents (wired : Bool) (hold : UInt32) : List Event :=
  if wired then [.resetAsserted, .delay hold, .resetReleased] else [.delay hold]

/-- How a reset pulse goes, and whether it is completed. -/
inductive ResetCourse (wired : Bool) (hold : UInt32) : Bool → List Event → Prop
  /-- The line is asserted, held and released. -/
  | completed : ResetCourse wired hold true (resetEvents wired hold)
  /-- Asserting the line is refused. -/
  | notAsserted (hwired : wired = true) : ResetCourse wired hold false [.assertRefused]
  /-- Releasing the line is refused, so it stays asserted. -/
  | notReleased (hwired : wired = true) :
      ResetCourse wired hold false [.resetAsserted, .delay hold, .releaseRefused]

theorem resetCourse_of_leaves {hold : UInt32} {completed : Bool}
    (h : (resetPulse hold).Leaves wired completed trace) :
    ResetCourse wired hold completed trace := by
  obtain ⟨asserted, first, rest, hassert, hrest, rfl⟩ := Program.leaves_bind.1 h
  rw [Bus.leaves_assertReset] at hassert
  cases asserted with
  | false =>
    obtain ⟨rfl, rfl⟩ := Bus.leaves_log_bind.1 hrest
    cases wired with
    | false => simp at hassert
    | true =>
      obtain rfl : first = [.assertRefused] := by simpa using hassert
      exact .notAsserted rfl
  | true =>
    obtain ⟨_, hheld, rfl⟩ := Bus.leaves_delay_bind.1 hrest
    obtain ⟨released, second, _, hrelease, hlast, rfl⟩ := Program.leaves_bind.1 hheld
    rw [Bus.leaves_releaseReset] at hrelease
    cases released with
    | false =>
      obtain ⟨rfl, rfl⟩ := Bus.leaves_log_bind.1 hlast
      cases wired with
      | false => simp at hrelease
      | true =>
        obtain rfl : first = [.resetAsserted] := by simpa using hassert
        obtain rfl : second = [.releaseRefused] := by simpa using hrelease
        exact .notReleased rfl
    | true =>
      obtain ⟨rfl, rfl⟩ := hlast
      have hevents : first ++ .delay hold :: (second ++ []) = resetEvents wired hold := by
        cases wired with
        | false =>
          obtain ⟨-, rfl⟩ : true = true ∧ first = [] := by simpa using hassert
          obtain ⟨-, rfl⟩ : true = true ∧ second = [] := by simpa using hrelease
          rfl
        | true =>
          obtain rfl : first = [.resetAsserted] := by simpa using hassert
          obtain rfl : second = [.resetReleased] := by simpa using hrelease
          rfl
      rw [hevents]
      exact .completed

namespace EccLatch

/-- The writes by which the sideband is told to set a latch. -/
def command (latch : EccLatch) : List Event :=
  [.write Sideband.control Sideband.targetLatches,
    .write Sideband.commandValid Sideband.onePair,
    .write Sideband.command (Sideband.writeLatch ||| Sideband.eccLatch),
    .write Sideband.operand latch.word,
    .write Sideband.control Sideband.start]

/-- How the user interface is readied, and what goes wrong. -/
inductive Course (latch : EccLatch) (t : Timing) (wired : Bool) :
    Option Failure → List Event → Prop
  /-- The reset pulse is not completed. -/
  | notReset {pulse : List Event} (hpulse : ResetCourse wired t.resetHold false pulse) :
      Course latch t wired (some .resetFailure) pulse
  /-- The sideband does not carry out its command in time. -/
  | notSet {polling : List Event}
      (hpolling : t.sidebandPoll.Course (Poll.pace t.pollTick) t.patience false polling) :
      Course latch t wired (some .sidebandTimeout)
        (resetEvents wired t.resetHold ++ (latch.command ++ polling))
  /-- The sideband carries out its command. -/
  | ready {polling : List Event}
      (hpolling : t.sidebandPoll.Course (Poll.pace t.pollTick) t.patience true polling) :
      Course latch t wired none (resetEvents wired t.resetHold ++ (latch.command ++ polling))

theorem leaves_set {latch : EccLatch} {t : Timing} {done : Bool}
    (h : (latch.set t).Leaves wired done trace) : ∃ polling,
      t.sidebandPoll.Course (Poll.pace t.pollTick) t.patience done polling ∧
        trace = latch.command ++ polling := by
  simp only [set, Bus.leaves_log_bind, Bus.leaves_write_bind] at h
  obtain ⟨_, ⟨_, ⟨_, ⟨_, ⟨polling, hpolling, rfl⟩, rfl⟩, rfl⟩, rfl⟩, rfl⟩ := h
  exact ⟨polling, Poll.course_of_leaves hpolling, rfl⟩

theorem course_of_leaves {latch : EccLatch} {t : Timing} {failure : Option Failure}
    (h : (latch.prepare t).Leaves wired failure trace) :
    latch.Course t wired failure trace := by
  obtain ⟨completed, pulse, rest, hpulse, hrest, rfl⟩ := Program.leaves_bind.1 h
  have hreset := resetCourse_of_leaves hpulse
  cases completed with
  | false =>
    obtain ⟨rfl, rfl⟩ := Bus.leaves_log_bind.1 hrest
    rw [List.append_nil]
    exact .notReset hreset
  | true =>
    obtain ⟨done, setting, _, hsetting, hlast, rfl⟩ := Program.leaves_bind.1 hrest
    obtain ⟨polling, hpolling, rfl⟩ := leaves_set hsetting
    cases hreset
    cases done with
    | false =>
      obtain ⟨rfl, rfl⟩ := hlast
      rw [List.append_nil]
      exact .notSet hpolling
    | true =>
      obtain ⟨rfl, rfl⟩ := hlast
      rw [List.append_nil]
      exact .ready hpolling

end EccLatch

/-! ### Read cycles -/

namespace Generation

/-- The writes that start the cycle of a word. -/
def start (g : Generation) (address : UInt32) : List Event :=
  match g with
  | one | two =>
    [.write User.address (address ||| User.addressMask), .write User.trigger User.start]
  | three =>
    [.write Sequencer.control (ControlWord.fetchAt (g.place address).toUInt16).bits,
      .write Sequencer.trigger Sequencer.start]

/-- The poll for the completion of a cycle. -/
def poll (g : Generation) (t : Timing) : Poll :=
  match g with
  | one | two => t.userPoll
  | three => t.sequencerPoll

/-- How the word of a completed cycle is read, and what is taken for it. -/
inductive Readout : Generation → Except Failure UInt32 → List Event → Prop
  /-- Its lowest byte, from the whole register. -/
  | byte (word : UInt32) :
      Readout one (.ok word.toUInt8.toUInt32) [.read User.data word]
  /-- Its lowest byte, by the byte lane. -/
  | lane (word : UInt32) :
      Readout one (.ok word.toUInt8.toUInt32) [.readLane User.data word]
  /-- Its quality value is no fault. -/
  | sound {quality : UInt32} (word : UInt32) (hsound : User.isFault quality = false) :
      Readout two (.ok word) [.read User.quality quality, .read User.data word]
  /-- Its quality value is a fault. -/
  | fault {quality : UInt32} (hfault : User.isFault quality = true) :
      Readout two (.error .integrityFault) [.read User.quality quality]
  /-- The whole word. -/
  | word (word : UInt32) :
      Readout three (.ok word) [.read Sequencer.data word]

/-- How the cycle of a word goes, and what is taken for the word. -/
inductive CycleCourse (g : Generation) (t : Timing) (address : UInt32) :
    Except Failure UInt32 → List Event → Prop
  /-- The cycle is complete, and the word is read. -/
  | complete {polling readout : List Event} {result : Except Failure UInt32}
      (hpolling : (g.poll t).Course (Poll.pace t.pollTick) t.patience true polling)
      (hreadout : g.Readout result readout) :
      CycleCourse g t address result (g.start address ++ (polling ++ readout))
  /-- The cycle is not complete in time. -/
  | late {polling : List Event}
      (hpolling : (g.poll t).Course (Poll.pace t.pollTick) t.patience false polling) :
      CycleCourse g t address (.error .pollTimeout) (g.start address ++ polling)

theorem leaves_userCycle {t : Timing} {address : UInt32} {done : Bool}
    (h : (userCycle t address).Leaves wired done trace) : ∃ polling,
      t.userPoll.Course (Poll.pace t.pollTick) t.patience done polling ∧
        trace = .write User.address (address ||| User.addressMask) ::
          .write User.trigger User.start :: polling := by
  simp only [userCycle, Bus.leaves_write_bind] at h
  obtain ⟨_, ⟨polling, hpolling, rfl⟩, rfl⟩ := h
  exact ⟨polling, Poll.course_of_leaves hpolling, rfl⟩

theorem leaves_sequencerCycle {t : Timing} {address : UInt16} {done : Bool}
    (h : (sequencerCycle t address).Leaves wired done trace) : ∃ polling,
      t.sequencerPoll.Course (Poll.pace t.pollTick) t.patience done polling ∧
        trace = .write Sequencer.control (ControlWord.fetchAt address).bits ::
          .write Sequencer.trigger Sequencer.start :: polling := by
  simp only [sequencerCycle, Bus.leaves_write_bind] at h
  obtain ⟨_, ⟨polling, hpolling, rfl⟩, rfl⟩ := h
  exact ⟨polling, Poll.course_of_leaves hpolling, rfl⟩

theorem cycleCourse_of_leaves {g : Generation} {t : Timing} {address : UInt32}
    {result : Except Failure UInt32} (ha : g.Reaches address)
    (h : (g.fetch t address).Leaves wired result trace) :
    g.CycleCourse t address result trace := by
  cases g with
  | one =>
    obtain ⟨done, _, rest, hcycle, hrest, rfl⟩ := Program.leaves_bind.1 h
    obtain ⟨polling, hpolling, rfl⟩ := leaves_userCycle hcycle
    cases done with
    | false =>
      obtain ⟨rfl, rfl⟩ := hrest
      rw [List.append_nil]
      exact .late hpolling
    | true =>
      obtain ⟨byte, first, _, hread, ⟨rfl, rfl⟩, rfl⟩ := Program.leaves_bind.1 hrest
      obtain ⟨word, rfl, rfl | rfl⟩ := Bus.leaves_readLane.1 hread
      · exact .complete hpolling (.byte word)
      · exact .complete hpolling (.lane word)
  | two =>
    obtain ⟨done, _, rest, hcycle, hrest, rfl⟩ := Program.leaves_bind.1 h
    obtain ⟨polling, hpolling, rfl⟩ := leaves_userCycle hcycle
    cases done with
    | false =>
      obtain ⟨rfl, rfl⟩ := hrest
      rw [List.append_nil]
      exact .late hpolling
    | true =>
      obtain ⟨quality, _, hchecked, rfl⟩ := Bus.leaves_read_bind.1 hrest
      split at hchecked
      · rename_i hfault
        obtain ⟨rfl, rfl⟩ := Bus.leaves_log_bind.1 hchecked
        exact .complete hpolling (.fault hfault)
      · rename_i hsound
        obtain ⟨word, _, ⟨rfl, rfl⟩, rfl⟩ := Bus.leaves_read_bind.1 hchecked
        exact .complete hpolling (.sound word (by simpa using hsound))
  | three =>
    have hlt : address + Sequencer.nonSecureBase < Sequencer.addressLimit := by
      rw [UInt32.lt_iff_toNat_lt]
      exact (Bench.Device.toNat_place_three ha).trans_lt (ha rfl)
    simp only [fetch, hlt, if_true] at h
    obtain ⟨done, _, rest, hcycle, hrest, rfl⟩ := Program.leaves_bind.1 h
    obtain ⟨polling, hpolling, rfl⟩ := leaves_sequencerCycle hcycle
    cases done with
    | false =>
      obtain ⟨rfl, rfl⟩ := hrest
      rw [List.append_nil]
      exact .late hpolling
    | true =>
      obtain ⟨word, _, ⟨rfl, rfl⟩, rfl⟩ := Bus.leaves_read_bind.1 hrest
      exact .complete hpolling (.word word)

/-- How the words at some addresses are fetched: those that are brought in, and what ends the
row early, if anything does. -/
inductive Row (g : Generation) (t : Timing) :
    List UInt32 → List UInt32 → Option Failure → List Event → Prop
  /-- All are served. -/
  | served : Row g t [] [] none []
  /-- The first is brought in, and then the others are. -/
  | next {address word : UInt32} {addresses words : List UInt32} {failure : Option Failure}
      {first rest : List Event} (hfirst : g.CycleCourse t address (.ok word) first)
      (hrest : Row g t addresses words failure rest) :
      Row g t (address :: addresses) (word :: words) failure (first ++ rest)
  /-- The first fails. -/
  | failed {address : UInt32} {addresses : List UInt32} {failure : Failure} {last : List Event}
      (hlast : g.CycleCourse t address (.error failure) last) :
      Row g t (address :: addresses) [] (some failure) last

/-- **The words of a request are fetched one by one**, up to the first that fails. -/
theorem row_of_leaves {g : Generation} {t : Timing} {addresses fetched : List UInt32}
    {harvest : Harvest} (ha : ∀ a ∈ addresses, g.Reaches a)
    (h : (gather (g.fetch t) fetched addresses).Leaves wired harvest trace) : ∃ words,
      harvest.words = fetched.reverse ++ words ∧
        g.Row t addresses words harvest.failure trace := by
  induction addresses generalizing fetched trace with
  | nil =>
    obtain ⟨rfl, rfl⟩ := h
    exact ⟨[], by simp, .served⟩
  | cons address addresses ih =>
    obtain ⟨result, first, rest, hfetch, hrest, rfl⟩ := Program.leaves_bind.1 h
    have hcourse := cycleCourse_of_leaves (ha address (by simp)) hfetch
    cases result with
    | error failure =>
      obtain ⟨rfl, rfl⟩ := hrest
      rw [List.append_nil]
      exact ⟨[], by simp, .failed hcourse⟩
    | ok word =>
      obtain ⟨words, hwords, hrow⟩ := ih (fun a h => ha a (List.mem_cons_of_mem _ h)) hrest
      exact ⟨word :: words, by simp [hwords], .next hcourse hrow⟩

/-! ### Planned reads -/

/-- How the words of a range are collected, and what is delivered. -/
inductive Collected (g : Generation) (t : Timing) (range : WordRange) :
    Delivery → List Event → Prop
  | row {words : List UInt32} {failure : Option Failure} {trace : List Event}
      (hrow : g.Row t range.words words failure trace) :
      Collected g t range (g.deliver range ⟨words, failure⟩) trace

theorem collected_of_leaves {g : Generation} {t : Timing} {range : WordRange}
    {delivery : Delivery} (ha : ∀ a ∈ range.words, g.Reaches a)
    (h : (g.collect t range).Leaves wired delivery trace) : g.Collected t range delivery trace := by
  obtain ⟨⟨words, failure⟩, first, _, hgather, ⟨rfl, rfl⟩, rfl⟩ := Program.leaves_bind.1 h
  obtain ⟨words, rfl, hrow⟩ := row_of_leaves ha hgather
  rw [List.append_nil]
  exact .row hrow

/-- How a planned read is carried out, and what is delivered. -/
inductive CarriedOut (g : Generation) (t : Timing) (range : WordRange) (wired : Bool) :
    Delivery → List Event → Prop
  /-- The sequencer is used right away. -/
  | sequenced {delivery : Delivery} {body : List Event} (hlatch : g.latch? = none)
      (hbody : g.Collected t range delivery body) : CarriedOut g t range wired delivery body
  /-- The user interface is not readied. -/
  | unready {latch : EccLatch} {failure : Failure} {early : List Event}
      (hlatch : g.latch? = some latch) (hearly : latch.Course t wired (some failure) early) :
      CarriedOut g t range wired (.failed failure) early
  /-- The user interface is readied, and the fuse macro taken and handed back. -/
  | taken {latch : EccLatch} {delivery : Delivery} {early body : List Event}
      (hlatch : g.latch? = some latch) (hearly : latch.Course t wired none early)
      (hbody : g.Collected t range delivery body) :
      CarriedOut g t range wired delivery
        (early ++ (.write User.control User.take :: .delay t.settle ::
          (body ++ [.write User.control User.release])))

theorem leaves_withUserMode {α : Type} {t : Timing} {body : Program α} {value : α}
    (h : (withUserMode t body).Leaves wired value trace) : ∃ inner,
      body.Leaves wired value inner ∧ trace = .write User.control User.take ::
        .delay t.settle :: (inner ++ [.write User.control User.release]) := by
  simp only [withUserMode, Bus.leaves_write_bind, Bus.leaves_delay_bind] at h
  obtain ⟨_, ⟨_, h, rfl⟩, rfl⟩ := h
  obtain ⟨_, inner, _, hbody, hlast, rfl⟩ := Program.leaves_bind.1 h
  obtain ⟨_, ⟨rfl, rfl⟩, rfl⟩ := Bus.leaves_write_bind.1 hlast
  exact ⟨inner, hbody, rfl⟩

/-- **A planned read**, every word of which can be addressed. -/
theorem carriedOut_of_leaves {g : Generation} {t : Timing} {range : WordRange}
    {delivery : Delivery} (ha : ∀ a ∈ range.words, g.Reaches a)
    (h : (g.execute t range).Leaves wired delivery trace) :
    g.CarriedOut t range wired delivery trace := by
  rw [execute] at h
  split at h
  · rename_i hlatch
    exact .sequenced hlatch (collected_of_leaves ha h)
  · rename_i latch hlatch
    obtain ⟨failure, early, rest, hprepare, hrest, rfl⟩ := Program.leaves_bind.1 h
    have hearly := EccLatch.course_of_leaves hprepare
    cases failure with
    | some failure =>
      obtain ⟨rfl, rfl⟩ := hrest
      rw [List.append_nil]
      exact .unready hlatch hearly
    | none =>
      obtain ⟨body, hbody, rfl⟩ := leaves_withUserMode hrest
      exact .taken hlatch hearly (collected_of_leaves ha hbody)

/-! ### What may go wrong -/

theorem failure_of_row {g : Generation} {t : Timing} {addresses words : List UInt32}
    {failure : Failure} {trace : List Event}
    (h : g.Row t addresses words (some failure) trace) :
    failure = .pollTimeout ∨ failure = .integrityFault := by
  generalize hend : some failure = ending at h
  induction h with
  | served => cases hend
  | next _ _ ih => exact ih hend
  | failed hlast =>
    cases hend
    cases hlast with
    | complete _ hreadout =>
      cases hreadout
      exact .inr rfl
    | late => exact .inl rfl

theorem failure_of_collected {g : Generation} {t : Timing} {range : WordRange}
    {delivery : Delivery} {failure : Failure} {trace : List Event}
    (h : g.Collected t range delivery trace) (hfailure : delivery.failure = some failure) :
    failure = .pollTimeout ∨ failure = .integrityFault := by
  obtain ⟨hrow⟩ := h
  obtain rfl : _ = some failure := (failure_deliver g range _).symm.trans hfailure
  exact failure_of_row hrow

/-- What may go wrong with a planned read once the clocks run. -/
theorem failure_of_carriedOut {g : Generation} {t : Timing} {range : WordRange} {wired : Bool}
    {delivery : Delivery} {failure : Failure} {trace : List Event}
    (h : g.CarriedOut t range wired delivery trace) (hfailure : delivery.failure = some failure) :
    failure = .resetFailure ∨ failure = .sidebandTimeout ∨ failure = .pollTimeout ∨
      failure = .integrityFault := by
  cases h with
  | sequenced _ hbody => exact .inr (.inr (failure_of_collected hbody hfailure))
  | unready _ hearly =>
    cases hfailure
    cases hearly with
    | notReset => exact .inl rfl
    | notSet => exact .inr (.inl rfl)
  | taken _ _ hbody => exact .inr (.inr (failure_of_collected hbody hfailure))

end Generation

theorem Delivery.failure_of_reply {d : Delivery} {planned : Nat} {buffer : List UInt8}
    {failure : Failure} (h : (d.reply planned buffer).result = .error failure) :
    d.failure = some failure := by
  obtain ⟨bytes, ending⟩ := d
  cases ending with
  | none => cases h
  | some first => exact congrArg some (Except.error.inj h)

/-! ### Reads -/

/-- **What is planned for an accepted request**: the cover of the bytes that it is granted, every
word of which can be addressed. -/
theorem Generation.exists_plan {g : Generation} {size offset : UInt32} {len : Nat}
    (ha : g.Accepts size offset len) : ∃ last : UInt32,
      offset.toNat + g.granted size offset len = last.toNat ∧
      g.plan size offset len = .ok (.widen offset last (g.granted size offset len) g.wordSize) ∧
      ∀ a ∈ (WordRange.widen offset last (g.granted size offset len) g.wordSize).words,
        g.Reaches a := by
  obtain ⟨last, hlast, hplan⟩ := plan_of_accepts ha
  refine ⟨last, hlast, hplan, fun a hmem => ?_⟩
  rw [WordRange.words_widen hlast g.wordSize_pos] at hmem
  obtain ⟨i, hi, rfl⟩ := List.mem_map.1 hmem
  exact Bench.reaches_of_accepts ha hi

namespace Controller

/-- How a read goes, and what the caller gets. -/
inductive Course (c : Controller) (wired : Bool) (offset : UInt32) (buffer : List UInt8) :
    Reply (Except Failure Nat) → List Event → Prop
  /-- The bank cannot be read at all. -/
  | unsupported (hnone : c.descriptor.generation = none) :
      Course c wired offset buffer ⟨.error .unsupported, buffer⟩ []
  /-- The request is turned down. -/
  | outOfRange {g : Generation} (hg : c.descriptor.generation = some g)
      (ha : ¬ g.Accepts c.size offset buffer.length) :
      Course c wired offset buffer ⟨.error .outOfRange, buffer⟩ []
  /-- The clocks are refused. -/
  | noClocks {g : Generation} (hg : c.descriptor.generation = some g)
      (ha : g.Accepts c.size offset buffer.length) :
      Course c wired offset buffer ⟨.error .clockFailure, buffer⟩
        [.clocksRefused c.descriptor.clocks]
  /-- The read is carried out with the clocks on. -/
  | carriedOut {g : Generation} {last : UInt32} {delivery : Delivery} {body : List Event}
      (hg : c.descriptor.generation = some g) (ha : g.Accepts c.size offset buffer.length)
      (hlast : offset.toNat + g.granted c.size offset buffer.length = last.toNat)
      (hbody : g.CarriedOut c.timing
        (.widen offset last (g.granted c.size offset buffer.length) g.wordSize) wired delivery
        body) :
      Course c wired offset buffer
        (delivery.reply (g.granted c.size offset buffer.length) buffer)
        (.clocksOn c.descriptor.clocks :: (body ++ [.clocksOff c.descriptor.clocks]))

/-- A plan is carried out between the clocks being switched, unless they are refused. -/
theorem leaves_transact {c : Controller} {g : Generation} {range : WordRange}
    {delivery : Delivery} (h : (c.transact g range).Leaves wired delivery trace) :
    (delivery = .failed .clockFailure ∧ trace = [.clocksRefused c.descriptor.clocks]) ∨
      ∃ body, (g.execute c.timing range).Leaves wired delivery body ∧
        trace = .clocksOn c.descriptor.clocks :: (body ++ [.clocksOff c.descriptor.clocks]) := by
  obtain ⟨granted, first, rest, hclocks, hrest, rfl⟩ := Program.leaves_bind.1 h
  rw [Bus.leaves_enableClocks] at hclocks
  subst hclocks
  cases granted with
  | false =>
    obtain ⟨rfl, rfl⟩ := Bus.leaves_log_bind.1 hrest
    exact .inl ⟨rfl, rfl⟩
  | true =>
    obtain ⟨_, body, _, hexecute, hend, rfl⟩ := Program.leaves_bind.1 hrest
    obtain ⟨_, _, _, hoff, ⟨rfl, rfl⟩, rfl⟩ := Program.leaves_bind.1 hend
    rw [Bus.leaves_disableClocks] at hoff
    subst hoff
    exact .inr ⟨body, hexecute, rfl⟩

/-- **A read goes in one of these ways.** -/
theorem course_of_leaves {c : Controller} {offset : UInt32} {buffer : List UInt8}
    {reply : Reply (Except Failure Nat)}
    (h : (c.read offset buffer).Leaves wired reply trace) :
    c.Course wired offset buffer reply trace := by
  rw [read, readWith] at h
  split at h
  · rename_i hnone
    obtain ⟨rfl, rfl⟩ := h
    exact .unsupported hnone
  · rename_i g hg
    rw [Bus.leaves_log_bind] at h
    by_cases ha : g.Accepts c.size offset buffer.length
    · obtain ⟨last, hlast, hplan, hreach⟩ := Generation.exists_plan ha
      rw [hplan] at h
      obtain ⟨delivery, _, _, htransact, ⟨rfl, rfl⟩, rfl⟩ := Program.leaves_bind.1 h
      rw [List.append_nil]
      rcases leaves_transact htransact with ⟨rfl, rfl⟩ | ⟨body, hexecute, rfl⟩
      · exact .noClocks hg ha
      · exact .carriedOut hg ha hlast (Generation.carriedOut_of_leaves hreach hexecute)
    · cases hplan : g.plan c.size offset buffer.length with
      | ok range => exact absurd (Generation.accepts_of_plan hplan) ha
      | error refusal =>
        rw [hplan] at h
        obtain ⟨rfl, rfl⟩ := Bus.leaves_log_bind.1 h
        exact .outOfRange hg ha

end Controller

end FuseBank
