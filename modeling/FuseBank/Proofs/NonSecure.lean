import FuseBank.Proofs.Footprint
import FuseBank.Proofs.Life

/-!
# The sequencer stays out of the secure side

The words below the bank belong to the secure side, and an address has 16 bits in a control
word. So a control word whose address was too large would name one of them. None does: a
request is planned only if all of its words can be addressed, and no word begins beyond the
end of the bank, whatever its size, the offset and the length are.

## Main statements

* `Generation.lt_size_of_mem_span`: the words of an accepted request begin within the bank.
* `sequencer_stays_non_secure`: all writes of a life.
-/

namespace FuseBank

open Register

/-- A control word that fetches one word of a bank of so many bytes, above those of the secure
side. -/
structure ControlWord.FetchesFrom (c : ControlWord) (size : UInt32) : Prop where
  /-- One word is fetched. -/
  burst : c.burst = 1
  /-- The lowest byte is not used. -/
  lowest : c.bits &&& 0xff = 0
  /-- The word does not belong to the secure side. -/
  base_le : 0x300 ≤ c.address.toNat
  /-- The address fits in its field. -/
  le_limit : c.address.toNat ≤ 0xffff
  /-- The word begins within the bank. -/
  lt_size : (c.address.toNat - 0x300) * 4 < size.toNat

/-- What may be written to a sequencer of a bank of so many bytes: a control word that fetches
from the bank, the trigger right after one, and its status bit, to clear it. -/
def SequencerFit (size : UInt32) (before : List Event) (e : Event) : Prop :=
  ∀ register value, e = .write register value →
    (register = Sequencer.control ∧ ControlWord.FetchesFrom ⟨value⟩ size) ∨
    (register = Sequencer.trigger ∧ value = 1 ∧ ∃ earlier word,
      before = earlier ++ [.write Sequencer.control word] ∧ ControlWord.FetchesFrom ⟨word⟩ size) ∨
    (register = Sequencer.status ∧ value = 2)

theorem SequencerFit.after {size : UInt32} {before : List Event} {e : Event}
    (h : SequencerFit size before e) (earlier : List Event) :
    SequencerFit size (earlier ++ before) e := by
  intro register value he
  rcases h register value he with hcontrol | ⟨hregister, hvalue, first, word, rfl, hword⟩ | hstatus
  · exact .inl hcontrol
  · exact .inr (.inl ⟨hregister, hvalue, earlier ++ first, word, by simp, hword⟩)
  · exact .inr (.inr hstatus)

theorem sequencerFit_of_not_write {size : UInt32} {before : List Event} {e : Event}
    (h : e.isWrite = false) : SequencerFit size before e := by
  rintro register value rfl
  cases h

theorem sequencerFit_append {size : UInt32} {t u : List Event}
    (ht : Trace.Throughout (fun before e _ => SequencerFit size before e) t)
    (hu : Trace.Throughout (fun before e _ => SequencerFit size before e) u) :
    Trace.Throughout (fun before e _ => SequencerFit size before e) (t ++ u) :=
  Trace.throughout_append.2 ⟨ht, hu.mono fun _ _ _ _ h => h.after t⟩

/-! ### Which words are fetched -/

/-- **The words of an accepted request begin within the bank.** -/
theorem Generation.lt_size_of_mem_span {size offset : UInt32} {len a : Nat}
    (h : three.Accepts size offset len)
    (ha : a ∈ WordRange.span 4 offset.toNat (three.granted size offset len)) :
    a * 4 < size.toNat := by
  have hoffset := UInt32.lt_iff_toNat_lt.1 h.1
  rw [WordRange.span, List.mem_range'_1] at ha
  have hbelow : a < (offset.toNat + three.granted size offset len) ⌈/⌉ 4 := by omega
  have hlt : ¬ offset.toNat + three.granted size offset len ≤ 4 * a := by
    rw [← ceilDiv_le_iff_le_mul (by omega)]
    omega
  simp only [granted] at hlt
  omega

theorem fetchesFrom_place {size : UInt32} {a : Nat} (hreach : a + 0x300 < 0x10000)
    (hsize : a * 4 < size.toNat) :
    (ControlWord.fetchAt (Generation.three.place (UInt32.ofNat a)).toUInt16).FetchesFrom size := by
  have hword : a < UInt32.size := by
    have : UInt32.size = 0x100000000 := rfl
    omega
  have hnat : (UInt32.ofNat a).toNat = a := UInt32.toNat_ofNat_of_lt' hword
  have hplace : (Generation.three.place (UInt32.ofNat a)).toUInt16.toNat = a + 0x300 := by
    rw [UInt32.toNat_toUInt16, Bench.Device.toNat_place_three fun _ => by rw [hnat]; exact hreach,
      hnat]
    omega
  refine ⟨by simp, ControlWord.lowest_fetchAt _, ?_, ?_, ?_⟩ <;>
    rw [ControlWord.address_fetchAt, hplace]
  · omega
  · omega
  · omega

/-! ### What is written -/

namespace Generation

/-- What is written in the cycle of a word of the bank fits. -/
theorem sequencerFit_of_cycle {t : Timing} {size address : UInt32}
    {result : Except Failure UInt32} {trace : List Event}
    (haddress : (ControlWord.fetchAt (three.place address).toUInt16).FetchesFrom size)
    (h : three.CycleCourse t address result trace) :
    Trace.Throughout (fun before e _ => SequencerFit size before e) trace := by
  have hstart : Trace.Throughout (fun before e _ => SequencerFit size before e)
      (three.start address) := by
    simp only [start, Trace.throughout_cons, Trace.throughout_nil, and_true]
    refine ⟨fun register value he => ?_, fun register value he => ?_⟩
    · cases he
      exact .inl ⟨rfl, haddress⟩
    · cases he
      exact .inr (.inl ⟨rfl, rfl, [], _, rfl, haddress⟩)
  have hpolling : ∀ {up polling}, (three.poll t).Course (Poll.pace t.pollTick) t.patience up
      polling → Trace.Throughout (fun before e _ => SequencerFit size before e) polling := by
    intro up polling hcourse
    refine Trace.throughout_of_forall fun e he _ _ register value hwrite => ?_
    subst hwrite
    obtain ⟨hregister, hvalue⟩ := Poll.write_of_course hcourse he
    exact .inr (.inr ⟨hregister, hvalue⟩)
  cases h with
  | complete hcourse hreadout =>
    refine sequencerFit_append hstart (sequencerFit_append (hpolling hcourse) ?_)
    cases hreadout with
    | word =>
      simp only [Trace.throughout_cons, Trace.throughout_nil, and_true]
      exact sequencerFit_of_not_write rfl
  | late hcourse => exact sequencerFit_append hstart (hpolling hcourse)

theorem sequencerFit_of_row {t : Timing} {size : UInt32} {addresses words : List UInt32}
    {failure : Option Failure} {trace : List Event}
    (haddresses : ∀ a ∈ addresses,
      (ControlWord.fetchAt (three.place a).toUInt16).FetchesFrom size)
    (h : three.Row t addresses words failure trace) :
    Trace.Throughout (fun before e _ => SequencerFit size before e) trace := by
  induction h with
  | served => exact Trace.throughout_nil
  | next hfirst _ ih =>
    exact sequencerFit_append (sequencerFit_of_cycle (haddresses _ (by simp)) hfirst)
      (ih fun a ha => haddresses a (List.mem_cons_of_mem _ ha))
  | failed hlast => exact sequencerFit_of_cycle (haddresses _ (by simp)) hlast

end Generation

namespace Controller

variable {wired : Bool} {trace : List Event} {c : Controller}

theorem Course.sequencerFit (hg : c.descriptor.generation = some .three) {offset : UInt32}
    {buffer : List UInt8} {reply : Reply (Except Failure Nat)}
    (h : c.Course wired offset buffer reply trace) :
    Trace.Throughout (fun before e _ => SequencerFit c.size before e) trace := by
  cases h with
  | unsupported => exact Trace.throughout_nil
  | outOfRange => exact Trace.throughout_nil
  | noClocks =>
    simp only [Trace.throughout_cons, Trace.throughout_nil, and_true]
    exact sequencerFit_of_not_write rfl
  | @carriedOut g last _ body hgen ha hlast hbody =>
    obtain rfl : g = .three := Option.some.inj (hgen.symm.trans hg)
    have hrow : Trace.Throughout (fun before e _ => SequencerFit c.size before e) body := by
      cases hbody with
      | sequenced _ hcollected =>
        obtain ⟨hrow⟩ := hcollected
        refine Generation.sequencerFit_of_row (fun a hmem => ?_) hrow
        rw [WordRange.words_widen hlast (Generation.wordSize_pos _)] at hmem
        obtain ⟨i, hi, rfl⟩ := List.mem_map.1 hmem
        exact fetchesFrom_place (Generation.lt_of_mem_span ha hi)
          (Generation.lt_size_of_mem_span ha hi)
      | unready hlatch => cases hlatch
      | taken hlatch => cases hlatch
    have hswitch : ∀ e : Event, e.isWrite = false →
        Trace.Throughout (fun before e _ => SequencerFit c.size before e) [e] := by
      intro e he
      simp only [Trace.throughout_cons, Trace.throughout_nil, and_true]
      exact sequencerFit_of_not_write he
    exact sequencerFit_append (hswitch _ rfl) (sequencerFit_append hrow (hswitch _ rfl))

/-- What is written in a call fits. -/
theorem sequencerFit_of_leaves (hg : c.descriptor.generation = some .three) {call : Call}
    {reply : Reply CallResult} (h : (c.call call).Leaves wired reply trace) :
    Trace.Throughout (fun before e _ => SequencerFit c.size before e) trace := by
  rcases leaves_call h with ⟨rfl, -⟩ | ⟨offset, buffer, inner, hread, -⟩
  · exact Trace.throughout_nil
  · exact (course_of_leaves hread).sequencerFit hg

end Controller

/-- **The sequencer stays out of the secure side.** In a life of a controller of the third
generation, whatever the size of its bank, each control word fetches one word of the bank,
each trigger comes right after such a control word, and the only other writes clear the status
bit. -/
theorem sequencer_stays_non_secure {σ : Type} {d : Descriptor}
    (hg : d.generation = some .three) (hsetup : d.setup = none) (t : Timing) (b : Board σ) (s : σ)
    (calls : List Call) :
    Trace.Throughout (fun before e _ => SequencerFit d.size before e)
      (d.live t b s calls).trace := by
  obtain ⟨hattached, hcalls⟩ := Descriptor.live_of_no_setup hsetup t b s calls
  rw [Life.trace, hattached, hcalls, List.nil_append]
  refine Controller.throughout_records b _ (fun _ => True) (SequencerFit d.size)
    (fun before call s' _ => ⟨?_, trivial⟩) s calls trivial
  have hcall := Controller.sequencerFit_of_leaves (c := ⟨d, t⟩) hg
    (Program.leaves_run b ((⟨d, t⟩ : Controller).call call) s')
  exact hcall.mono fun _ _ _ _ h => h.after before

/-- A bank of six bytes ends within its second word, so that word may still be fetched. -/
theorem sequencer_stays_non_secure_six_bytes :
    let d : Descriptor := { Descriptor.rk3588 with size := 6 }
    let l := d.live {} (Bench.board {}) (⟨{ layout := .words }, {}⟩ : Bench Bench.Device)
      [.read 3 [0, 0, 0, 0, 0]]
    ∃ before after, l.trace = before ++ .write Sequencer.control 0x03010100 :: after ∧
      SequencerFit 6 before (.write Sequencer.control 0x03010100) := by
  intro d l
  have htrace : l.trace = [.clocksOn d.clocks, .write Sequencer.control 0x03000100,
      .write Sequencer.trigger 1, .read Sequencer.status 2, .write Sequencer.status 2,
      .read Sequencer.data 0] ++ .write Sequencer.control 0x03010100 ::
      [.write Sequencer.trigger 1, .read Sequencer.status 2, .write Sequencer.status 2,
        .read Sequencer.data 0, .clocksOff d.clocks] := by
    decide +kernel
  exact ⟨_, _, htrace, sequencer_stays_non_secure rfl rfl {} (Bench.board {}) _ _ _ _ _ htrace⟩

end FuseBank
