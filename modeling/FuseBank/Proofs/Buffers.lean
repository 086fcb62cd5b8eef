import FuseBank.Proofs.Footprint
import FuseBank.Proofs.Requests

/-!
# What a read leaves in a buffer

Two generations of controllers gather the words of a request before they deliver any of them, so
a read that fails leaves the buffer as it was, even if all words but the last were fetched.
Generation one stores each byte as it comes. When one of its cycles is late, the buffer holds a byte
for each cycle before it: the lowest byte of what the data register showed after that cycle.
How many these were can be told from the events alone, since each cycle that is found complete is
acknowledged by the write that clears its bit.

A read that succeeds stores as many bytes as it is granted and leaves those after them alone
(`Controller.Stored`). None of this depends on what the hardware answers, or on the calls before.

## Main statements

* `Generation.words_of_row`: the words of a row are those that the data register shows.
* `Generation.count_of_row`: in a row of cycles of generation one each of them is acknowledged.
* `Controller.Course.stored`: what a read leaves in its buffer.
* `buffer_after_call`: what a call leaves in its buffer.
-/

namespace FuseBank

open Register

/-! ### What a trace tells -/

/-- The word that was on the bus when a register was read, if that is what happened. -/
def Event.shown? (register : Nat) : Event → Option UInt32
  | read offset value | readLane offset value => if offset = register then some value else none
  | _ => none

/-- The words that a register has shown, in order. -/
def Trace.shown (register : Nat) (trace : List Event) : List UInt32 :=
  trace.filterMap (Event.shown? register)

/-- A cycle of the user interface that is found complete is acknowledged. -/
def Event.acknowledgement : Event := .write status cycleDone

namespace Trace

@[simp] theorem shown_append (register : Nat) (t u : List Event) :
    shown register (t ++ u) = shown register t ++ shown register u :=
  List.filterMap_append

theorem shown_of_untouched {register : Nat} {trace : List Event}
    (h : ∀ e ∈ trace, e.register? ≠ some register) : shown register trace = [] := by
  refine List.filterMap_eq_nil_iff.2 fun e he => ?_
  have hne := h e he
  cases e with
  | read offset value | readLane offset value =>
    rw [Event.shown?, if_neg fun heq => hne (congrArg some heq)]
  | _ => rfl

/-- Nothing is shown of the fuses and nothing acknowledged by some events. -/
structure Idle (trace : List Event) : Prop where
  shown : shown User.data trace = []
  count : trace.count .acknowledgement = 0

theorem idle_append {t u : List Event} (ht : Idle t) (hu : Idle u) : Idle (t ++ u) := by
  constructor
  · rw [shown_append, ht.shown, hu.shown, List.nil_append]
  · rw [List.count_append, ht.count, hu.count]

/-- What is shown and acknowledged between such events is all there is. -/
theorem shown_between {early late : List Event} (hearly : Idle early) (hlate : Idle late)
    (body : List Event) :
    shown User.data (early ++ (body ++ late)) = shown User.data body ∧
      (early ++ (body ++ late)).count .acknowledgement = body.count .acknowledgement := by
  constructor
  · rw [shown_append, shown_append, hearly.shown, hlate.shown, List.nil_append, List.append_nil]
  · rw [List.count_append, List.count_append, hearly.count, hlate.count, Nat.zero_add, Nat.add_zero]

end Trace

theorem Poll.shown_of_course {p : Poll} {us : UInt32} {pauses : Nat} {up : Bool}
    {trace : List Event} (h : p.Course us pauses up trace) {register : Nat}
    (hne : register ≠ p.register) : Trace.shown register trace = [] := by
  refine Trace.shown_of_untouched fun e he hreg => hne ?_
  exact List.mem_singleton.1 (Event.mem_of_within (within_course h e he) hreg)

theorem Poll.count_of_course {p : Poll} {us : UInt32} {pauses : Nat} {up : Bool}
    {trace : List Event} (h : p.Course us pauses up trace) :
    trace.count (.write p.register p.mask) = up.toNat := by
  have hvain : ∀ samples, (p.vain us samples).count (.write p.register p.mask) = 0 := by
    intro samples
    refine List.count_eq_zero_of_not_mem fun he => ?_
    simp [vain] at he
  cases h with
  | up samples => simp [hvain]
  | spent samples => simp [hvain]

theorem EccLatch.Course.idle {latch : EccLatch} {t : Timing} {wired : Bool}
    {failure : Option Failure} {trace : List Event} (h : latch.Course t wired failure trace) :
    Trace.Idle trace := by
  constructor
  · refine Trace.shown_of_untouched fun e he hreg => ?_
    have hmem : User.data ∈ sidebandRegisters := h.register_mem he hreg
    revert hmem
    decide
  · have hreset : ∀ {completed pulse}, ResetCourse wired t.resetHold completed pulse →
        .acknowledgement ∉ pulse := by
      intro completed pulse hpulse he
      rcases kind_of_reset hpulse _ he with hdelay | hreset
      · cases hdelay
      · cases hreset
    have hcommand : .acknowledgement ∉ latch.command := by
      cases latch <;> decide
    have hpoll : ∀ {up polling},
        t.sidebandPoll.Course (Poll.pace t.pollTick) t.patience up polling →
        .acknowledgement ∉ polling := by
      intro up polling hpolling he
      have hmask : cycleDone = sidebandDone := (Poll.write_of_course hpolling he).2
      exact absurd hmask (by decide)
    refine List.count_eq_zero_of_not_mem ?_
    cases h with
    | notReset hpulse => exact hreset hpulse
    | notSet hpolling | ready hpolling =>
      simp only [List.mem_append, not_or]
      exact ⟨hreset .completed, hcommand, hpoll hpolling⟩

/-! ### Rows of cycles -/

namespace Generation

variable {t : Timing}

/-- What is taken of a word that the data register shows: the whole word, and in generation one its
lowest byte. -/
def taken (g : Generation) (word : UInt32) : UInt32 :=
  match g with
  | one => word.toUInt8.toUInt32
  | two | three => word

theorem shown_of_readout {g : Generation} {result : Except Failure UInt32} {trace : List Event}
    (h : g.Readout result trace) :
    (∃ word, result = .ok (g.taken word) ∧ Trace.shown g.dataRegister trace = [word]) ∨
      (∃ failure, result = .error failure) ∧ Trace.shown g.dataRegister trace = [] := by
  cases h with
  | byte word | lane word | sound word | word word => exact .inl ⟨word, rfl, rfl⟩
  | fault => exact .inr ⟨⟨_, rfl⟩, rfl⟩

theorem shown_of_cycleCourse {g : Generation} {t : Timing} {address : UInt32}
    {result : Except Failure UInt32} {trace : List Event}
    (h : g.CycleCourse t address result trace) :
    (∃ word, result = .ok (g.taken word) ∧ Trace.shown g.dataRegister trace = [word]) ∨
      (∃ failure, result = .error failure) ∧ Trace.shown g.dataRegister trace = [] := by
  have hstart : Trace.shown g.dataRegister (g.start address) = [] := by cases g <;> rfl
  have hne : g.dataRegister ≠ (g.poll t).register := by
    rw [poll_register]
    cases g <;> decide
  cases h with
  | complete hpolling hreadout =>
    rw [Trace.shown_append, Trace.shown_append, hstart, Poll.shown_of_course hpolling hne]
    exact shown_of_readout hreadout
  | late hpolling =>
    rw [Trace.shown_append, hstart, Poll.shown_of_course hpolling hne]
    exact .inr ⟨⟨_, rfl⟩, rfl⟩

/-- **The words of a row** are what is taken of those that the data register shows. -/
theorem words_of_row {g : Generation} {t : Timing} {addresses words : List UInt32}
    {failure : Option Failure} {trace : List Event} (h : g.Row t addresses words failure trace) :
    words = (Trace.shown g.dataRegister trace).map g.taken := by
  induction h with
  | served => rfl
  | next hfirst _ ih =>
    rcases shown_of_cycleCourse hfirst with ⟨word, hword, hshown⟩ | ⟨⟨failure, herror⟩, -⟩
    · cases hword
      rw [Trace.shown_append, hshown, List.map_append, ← ih]
      rfl
    · cases herror
  | failed hlast =>
    rcases shown_of_cycleCourse hlast with ⟨word, hword, -⟩ | ⟨-, hshown⟩
    · cases hword
    · rw [hshown]
      rfl

/-- A cycle of generation one is acknowledged if it shows a word, and otherwise it is late. -/
theorem count_of_cycle {address : UInt32} {result : Except Failure UInt32} {trace : List Event}
    (h : one.CycleCourse t address result trace) :
    trace.count .acknowledgement = (Trace.shown User.data trace).length ∧
      ∀ f, result = .error f → f = .pollTimeout := by
  have hstart : Trace.Idle (one.start address) := ⟨rfl, rfl⟩
  have hne : User.data ≠ status := by decide
  cases h with
  | @complete polling _ _ hpolling hreadout =>
    have hcount : polling.count .acknowledgement = 1 := Poll.count_of_course hpolling
    rw [List.count_append, List.count_append, Trace.shown_append, Trace.shown_append, hstart.count,
      hcount, hstart.shown, Poll.shown_of_course hpolling hne]
    cases hreadout with
    | byte word | lane word => exact ⟨rfl, fun f hf => by cases hf⟩
  | late hpolling =>
    have hidle := Trace.idle_append hstart
      ⟨Poll.shown_of_course hpolling hne, Poll.count_of_course hpolling⟩
    rw [hidle.count, hidle.shown]
    exact ⟨rfl, fun f hf => (Except.error.inj hf).symm⟩

/-- **In a row of cycles of generation one** there is an acknowledgement for every word that is
shown. -/
theorem count_of_row {addresses words : List UInt32} {failure : Option Failure}
    {trace : List Event} (h : one.Row t addresses words failure trace) :
    trace.count .acknowledgement = (Trace.shown User.data trace).length ∧
      ∀ f ∈ failure, f = .pollTimeout := by
  induction h with
  | served => exact ⟨rfl, fun f hf => by cases hf⟩
  | next hfirst _ ih =>
    obtain ⟨hcount, hfailure⟩ := ih
    rw [List.count_append, Trace.shown_append, List.length_append, (count_of_cycle hfirst).1,
      hcount]
    exact ⟨rfl, hfailure⟩
  | failed hlast =>
    obtain ⟨hcount, hlate⟩ := count_of_cycle hlast
    exact ⟨hcount, fun f hf => hlate f (congrArg Except.error (Option.some.inj hf))⟩

theorem length_of_row {g : Generation} {addresses words : List UInt32}
    {failure : Option Failure} {trace : List Event} (h : g.Row t addresses words failure trace) :
    (failure = none → words.length = addresses.length) ∧
      (failure ≠ none → words.length < addresses.length) := by
  induction h with
  | served => exact ⟨fun _ => rfl, fun hne => absurd rfl hne⟩
  | next _ _ ih =>
    obtain ⟨hall, hfewer⟩ := ih
    exact ⟨fun hnone => congrArg (· + 1) (hall hnone), fun hne => Nat.succ_lt_succ (hfewer hne)⟩
  | failed _ =>
    constructor
    · intro hnone
      cases hnone
    · exact fun _ => Nat.succ_pos _

end Generation

theorem WordRange.gathered_of_bytes {r : WordRange} (h : r.wordSize = 1) (fetched : List UInt32) :
    r.gathered fetched = fetched.map UInt32.toUInt8 := by
  induction fetched with
  | nil => rfl
  | cons word rest ih =>
    rw [gathered, List.flatMap_cons, h, List.map_cons, ← ih, gathered, h, ← LittleEndian.byte_zero]
    rfl

/-- A delivery has all the bytes that were planned unless it has failed, and then generation one has
too few, and the others have none. -/
theorem Generation.length_of_collected {g : Generation} {t : Timing} {offset last : UInt32}
    {len : Nat} (hlast : offset.toNat + len = last.toNat) {delivery : Delivery}
    {trace : List Event} (h : g.Collected t (.widen offset last len g.wordSize) delivery trace) :
    (delivery.failure = none → delivery.bytes.length = len) ∧
      (delivery.failure ≠ none →
        if g = .one then delivery.bytes.length < len else delivery.bytes = []) := by
  obtain @⟨words, failure, _, hrow⟩ := h
  obtain ⟨hall, hfewer⟩ := length_of_row hrow
  rw [failure_deliver]
  constructor
  · rintro rfl
    exact WordRange.length_window_widen hlast g.wordSize_pos g.wordSize_le (hall rfl)
  · intro hne
    obtain ⟨failure, rfl⟩ := Option.ne_none_iff_exists'.1 hne
    cases g with
    | one =>
      have hlength := (hfewer hne).trans_eq (WordRange.length_words_widen_one hlast)
      simpa [deliver, WordRange.gathered_of_bytes, WordRange.widen, wordSize] using hlength
    | two | three => rfl

/-! ### Reads -/

namespace Controller

/-- What a read with this result and these events leaves in a buffer. -/
inductive Stored (c : Controller) (offset : UInt32) (before : List UInt8) :
    Except Failure Nat → List Event → List UInt8 → Prop
  /-- A read that fails leaves the buffer as it was, unless a cycle of generation one is late. -/
  | untouched {failure : Failure} {trace : List Event}
      (h : c.descriptor.generation = some .one → failure ≠ .pollTimeout) :
      Stored c offset before (.error failure) trace before
  /-- When one is late, there is a byte for each cycle before it, of which there are fewer than
  were asked for. -/
  | cutShort {trace : List Event} (hg : c.descriptor.generation = some .one)
      (hcount : trace.count .acknowledgement = (Trace.shown User.data trace).length)
      (hlt : trace.count .acknowledgement < before.length) :
      Stored c offset before (.error .pollTimeout) trace
        ((Trace.shown User.data trace).map UInt32.toUInt8 ++
          before.drop (trace.count .acknowledgement))
  /-- A read that succeeds stores as many bytes as it is granted. -/
  | filled {g : Generation} {trace : List Event} {after : List UInt8}
      (hg : c.descriptor.generation = some g) (hlen : after.length = before.length)
      (hrest : after.drop (g.granted c.size offset before.length) =
        before.drop (g.granted c.size offset before.length)) :
      Stored c offset before (.ok (g.granted c.size offset before.length)) trace after

theorem stored_of_failed {c : Controller} {offset : UInt32} {before : List UInt8}
    {trace : List Event} {failure : Failure} (planned : Nat)
    (h : c.descriptor.generation = some .one → failure ≠ .pollTimeout) :
    c.Stored offset before ((Delivery.failed failure).reply planned before).result trace
      ((Delivery.failed failure).reply planned before).buffer :=
  .untouched h

section

variable {c : Controller} {g : Generation} (hg : c.descriptor.generation = some g)
  {offset last : UInt32} {before : List UInt8}
  (hlast : offset.toNat + g.granted c.size offset before.length = last.toNat)

include hg hlast

/-- What is delivered of a row of cycles, with other events around it. -/
theorem stored_of_collected {delivery : Delivery} {t : Timing} {early body late : List Event}
    (hbody : g.Collected t (.widen offset last (g.granted c.size offset before.length) g.wordSize)
      delivery body) (hearly : Trace.Idle early) (hlate : Trace.Idle late) :
    c.Stored offset before
      (delivery.reply (g.granted c.size offset before.length) before).result
      (early ++ (body ++ late))
      (delivery.reply (g.granted c.size offset before.length) before).buffer := by
  have hgranted := g.granted_le c.size offset before.length
  obtain ⟨hfull, hfewer⟩ := Generation.length_of_collected hlast hbody
  obtain @⟨words, failure, _, hrow⟩ := hbody
  cases failure with
  | none =>
    have hlength := hfull rfl
    refine .filled hg ?_ ?_
    · simp [Delivery.reply, hlength, hgranted]
    · simp [Delivery.reply, hlength]
  | some failure =>
    cases g with
    | one =>
      have hwords := Generation.words_of_row hrow
      obtain ⟨hcount, hfailure⟩ := Generation.count_of_row hrow
      obtain rfl := hfailure failure rfl
      obtain ⟨hshown, hacks⟩ := Trace.shown_between hearly hlate body
      rw [hcount] at hacks
      have hbytes : (WordRange.widen offset last (Generation.one.granted c.size offset before.length)
          Generation.one.wordSize).gathered words =
            (Trace.shown User.data body).map UInt32.toUInt8 := by
        rw [WordRange.gathered_of_bytes rfl, hwords, List.map_map]
        exact List.map_congr_left fun word _ => UInt8.toUInt8_toUInt32 _
      have hlt : (Trace.shown User.data body).length < before.length := by
        have hlength := congrArg List.length hbytes
        rw [List.length_map] at hlength
        exact hlength.symm.trans_lt (hfewer (by simp))
      have hcut : c.Stored offset before (.error .pollTimeout) (early ++ (body ++ late)) _ :=
        .cutShort hg (hacks.trans (by rw [hshown])) (hacks ▸ hlt)
      rw [hacks, hshown] at hcut
      simpa [Generation.deliver, Delivery.reply, hbytes] using hcut
    | two | three => exact stored_of_failed _ fun h => by cases hg.symm.trans h

end

/-- **What a read leaves in its buffer.** -/
theorem Course.stored {c : Controller} {wired : Bool} {offset : UInt32} {buffer : List UInt8}
    {reply : Reply (Except Failure Nat)} {trace : List Event}
    (h : c.Course wired offset buffer reply trace) :
    c.Stored offset buffer reply.result trace reply.buffer := by
  cases h with
  | unsupported | outOfRange | noClocks =>
    refine .untouched ?_
    intro _ htimeout
    cases htimeout
  | @carriedOut g last delivery body hg ha hlast hbody =>
    have hon : Trace.Idle [.clocksOn c.descriptor.clocks] := ⟨rfl, rfl⟩
    have hoff : Trace.Idle [.clocksOff c.descriptor.clocks] := ⟨rfl, rfl⟩
    cases hbody with
    | sequenced _ hbody => exact stored_of_collected hg hlast hbody hon hoff
    | unready _ hearly =>
      refine stored_of_failed _ ?_
      intro _ htimeout
      cases hearly <;> cases htimeout
    | @taken _ _ early body _ hearly hbody =>
      have htake : Trace.Idle [.write User.control User.take, .delay c.timing.settle] :=
        ⟨rfl, rfl⟩
      have hrelease : Trace.Idle [.write User.control User.release] := ⟨rfl, rfl⟩
      have hstored := stored_of_collected hg hlast hbody
        (Trace.idle_append hon (Trace.idle_append hearly.idle htake))
        (Trace.idle_append hrelease hoff)
      simpa using hstored

end Controller

/-! ### Calls -/

/-- **What a call leaves in its buffer**, whatever the hardware answers and whichever way the call
comes in: at the front what a read leaves there, and behind it what was there before. A call that
asks for more than its buffer holds changes nothing at all, and nothing happens. -/
theorem buffer_after_call {σ : Type} (b : Board σ) (c : Controller) (s : σ) (call : Call) :
    let r := (c.call call).run b s
    match call.request? with
    | none => r = .still ⟨.status (-22), call.buffer⟩ s
    | some (offset, len) =>
      let q := (c.read offset (call.buffer.take len)).run b s
      r = { q with value := ⟨call.put q.value.result, q.value.buffer ++ call.buffer.drop len⟩ } ∧
        c.Stored offset (call.buffer.take len) q.value.result q.trace q.value.buffer := by
  intro r
  cases hrequest : call.request? with
  | none => exact c.run_call_of_no_request b s hrequest
  | some request =>
    obtain ⟨offset, len⟩ := request
    constructor
    · exact c.run_call_of_request b s hrequest
    · exact (Controller.course_of_leaves
        (Program.leaves_run b (c.read offset (call.buffer.take len)) s)).stored

/-- The second of three bytes is late. The first one is in the buffer, and the others are as they
were. -/
theorem buffer_after_call_second_byte_late :
    let c : Controller := ⟨.px30, { pollTimeout := 1 }⟩
    let s : Bench Bench.Device :=
      ⟨{ layout := .bytes, fuses := #[0x11, 0x22, 0x33], stallAfter := some 1 }, {}⟩
    let r := (c.call (.statusRead 0 3 [1, 2, 3, 4])).run (Bench.board {}) s
    r.value.buffer = [0x11, 2, 3, 4] ∧ r.trace.count .acknowledgement = 1 ∧
      c.Stored 0 [1, 2, 3] (.error .pollTimeout) r.trace [0x11, 2, 3] := by
  intro c s r
  obtain ⟨q, hq⟩ : ∃ q, q = (c.read 0 [1, 2, 3]).run (Bench.board {}) s := ⟨_, rfl⟩
  have hvalue : q.value = ⟨.error .pollTimeout, [0x11, 2, 3]⟩ := by
    rw [hq]
    decide +kernel
  have hcount : q.trace.count .acknowledgement = 1 := by
    rw [hq]
    decide +kernel
  obtain ⟨hreply, hstored⟩ : r = { q with value :=
        ⟨.status (Controller.status q.value.result), q.value.buffer ++ [4]⟩ } ∧
      c.Stored 0 [1, 2, 3] q.value.result q.trace q.value.buffer := by
    rw [hq]
    exact buffer_after_call (Bench.board {}) c s (.statusRead 0 3 [1, 2, 3, 4])
  rw [hvalue] at hreply hstored
  rw [hreply]
  exact ⟨rfl, hcount, hstored⟩

end FuseBank
