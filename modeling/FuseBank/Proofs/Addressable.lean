import FuseBank.Proofs.Courses
import FuseBank.Proofs.LeastCover

/-!
# What the sequencer can be asked for

A bank is counted in bytes, and the address field of a control word in words. A request to the
sequencer is shortened to what the bank holds, widened to words, and turned down if the last of them
cannot be addressed. Rounding does not blur this: a request is turned down exactly if it begins
beyond the bank, or if the bytes that are left of it end beyond those of the last word that has an
address.

All this is decided before the clocks are switched on. None of the sums by which it is decided, or
by which a word of an accepted request is addressed, is carried out of its bits. So no cycle finds
its word out of reach, and a read that has switched the clocks on does not fail for its range.

## Main statements

* `Generation.exists_refusal_iff`: the requests that are turned down, for every generation.
* `Controller.Course.outOfRange_iff`: the reads that fail for their range.
* `sequencer_serves_addressable`: the requests that the sequencer serves, and how.
-/

namespace FuseBank

open Register

namespace Generation

/-- **A request is turned down** exactly if it is not accepted. -/
theorem exists_refusal_iff {g : Generation} {size offset : UInt32} {len : Nat} :
    (∃ refusal, g.plan size offset len = .error refusal) ↔ ¬ g.Accepts size offset len := by
  constructor
  · rintro ⟨refusal, hplan⟩ ha
    obtain ⟨last, -, hok⟩ := plan_of_accepts ha
    rw [hplan] at hok
    cases hok
  · intro ha
    cases hplan : g.plan size offset len with
    | error refusal => exact ⟨refusal, rfl⟩
    | ok range => exact absurd (accepts_of_plan hplan) ha

theorem not_accepts_three_iff {size offset : UInt32} {len : Nat} :
    ¬ three.Accepts size offset len ↔ size ≤ offset ∨
      (0x10000 - 0x300) * 4 < offset.toNat + min len (size.toNat - offset.toNat) := by
  rw [Accepts, not_and_or, UInt32.not_lt, Nat.not_le]
  rfl

/-- How a request for `n` bytes at `offset` is put to the sequencer. -/
structure Addressed (offset n : Nat) (range : WordRange) : Prop where
  /-- All of its bytes are delivered. -/
  len_eq : range.len = n
  /-- The words are the least that cover it. -/
  leastCover : range.LeastCover 4 offset n
  /-- They are counted from the base of the bank without a carry, and fit in the address field. -/
  toNat_place : ∀ a ∈ range.words,
    (a + Sequencer.nonSecureBase).toNat = a.toNat + 0x300 ∧ a.toNat + 0x300 < 2 ^ 16

theorem exists_addressed {size offset : UInt32} {len : Nat} (h : three.Accepts size offset len) :
    ∃ range, three.plan size offset len = .ok range ∧
      Addressed offset.toNat (min len (size.toNat - offset.toNat)) range := by
  obtain ⟨last, hlast, hplan, hreach⟩ := exists_plan h
  refine ⟨_, hplan, ?_⟩
  constructor
  case len_eq => rfl
  case leastCover => exact WordRange.leastCover_widen hlast three.wordSize_pos
  case toNat_place =>
    intro a ha
    have hplace := Bench.Device.toNat_place_three (hreach a ha)
    exact ⟨hplace, hreach a ha rfl⟩

theorem exists_cover_clamp {size offset : UInt32} (h : offset < size) (len : Nat) :
    ∃ range, three.cover offset (clamp size offset len) = .ok range ∧
      range.stop.toNat + 0x300 < 2 ^ 32 := by
  obtain ⟨last, hlast, hcover⟩ := cover_of_lt three (granted_lt h len)
  refine ⟨_, by rw [clamp_eq h, hcover], ?_⟩
  have hstop := WordRange.toNat_stop hlast three.wordSize_pos
  have hceil : last.toNat ⌈/⌉ 4 ≤ 2 ^ 30 := by
    have hlt := last.toNat_lt
    rw [ceilDiv_le_iff_le_mul (by omega)]
    omega
  rw [hlast] at hstop
  have hwidened : (WordRange.widen offset last _ three.wordSize).stop.toNat ≤ 2 ^ 30 :=
    hstop.trans_le hceil
  omega

end Generation

/-- **A read fails for its range** exactly if its request is not accepted, and then nothing
happens. -/
theorem Controller.Course.outOfRange_iff {c : Controller} {g : Generation}
    (hg : c.descriptor.generation = some g) {wired : Bool} {offset : UInt32} {buffer : List UInt8}
    {reply : Reply (Except Failure Nat)} {trace : List Event}
    (h : c.Course wired offset buffer reply trace) :
    (reply.result = .error .outOfRange ↔ ¬ g.Accepts c.size offset buffer.length) ∧
      (reply.result = .error .outOfRange → trace = []) := by
  have hsame : ∀ {g' : Generation}, c.descriptor.generation = some g' → g' = g := fun hg' =>
    Option.some.inj (hg'.symm.trans hg)
  cases h with
  | unsupported hnone => cases hnone.symm.trans hg
  | outOfRange hg' ha =>
    obtain rfl := hsame hg'
    exact ⟨iff_of_true rfl ha, fun _ => rfl⟩
  | noClocks hg' ha =>
    obtain rfl := hsame hg'
    refine ⟨iff_of_false ?_ (not_not_intro ha), ?_⟩ <;> simp
  | carriedOut hg' ha _ hbody =>
    obtain rfl := hsame hg'
    -- what goes wrong once the clocks run is never the range
    refine ⟨iff_of_false ?_ (not_not_intro ha), ?_⟩ <;>
    · intro hresult
      have := Generation.failure_of_carriedOut hbody (Delivery.failure_of_reply hresult)
      simp at this

/-- **The sequencer serves what it can address.** A request is turned down exactly if it begins at
or beyond the end of the bank, or if the bytes that the bank holds of it end beyond those of the
last word with an address. Otherwise it is planned as the least cover of these bytes. The cover
itself is never refused, and no word of a plan is out of reach: carrying out a plan does not fail
for its range, on any board, and a read does so only before anything has happened. -/
theorem sequencer_serves_addressable (size offset : UInt32) (len : Nat) :
    let n := min len (size.toNat - offset.toNat)
    let plan := Generation.three.plan size offset len
    let refused := size ≤ offset ∨ (0x10000 - 0x300) * 4 < offset.toNat + n
    ((∃ refusal, plan = .error refusal) ↔ refused) ∧
      (¬ refused → ∃ range, plan = .ok range ∧ Generation.Addressed offset.toNat n range) ∧
      (offset < size → ∃ range,
        Generation.three.cover offset (Generation.clamp size offset len) = .ok range ∧
          range.stop.toNat + 0x300 < 2 ^ 32) ∧
      (∀ range, plan = .ok range → ∀ {σ : Type} (t : Timing) (b : Board σ) (s : σ),
        ((Generation.three.execute t range).run b s).value.failure ≠ some .outOfRange) ∧
      ∀ (c : Controller) (buffer : List UInt8), c.descriptor.generation = some .three →
        c.size = size → buffer.length = len → ∀ {σ : Type} (b : Board σ) (s : σ),
        let r := (c.read offset buffer).run b s
        (r.value.result = .error .outOfRange ↔ refused) ∧
          (.clocksOn c.descriptor.clocks ∈ r.trace → r.value.result ≠ .error .outOfRange) := by
  intro n plan refused
  have hrefused : refused ↔ ¬ Generation.three.Accepts size offset len :=
    Generation.not_accepts_three_iff.symm
  refine ⟨Generation.exists_refusal_iff.trans hrefused.symm, ?_, ?_, ?_, ?_⟩
  · intro hserved
    exact Generation.exists_addressed (not_not.1 (hrefused.not.1 hserved))
  · exact fun hlt => Generation.exists_cover_clamp hlt len
  · intro range hplan σ t b s hfailure
    obtain ⟨last, -, hplan', hreach⟩ := Generation.exists_plan (Generation.accepts_of_plan hplan)
    obtain rfl := Except.ok.inj (hplan.symm.trans hplan')
    have := Generation.failure_of_carriedOut
      (Generation.carriedOut_of_leaves hreach (Program.leaves_run b _ s)) hfailure
    simp at this
  · rintro c buffer hg rfl rfl σ b s r
    obtain ⟨hiff, hstill⟩ := (Controller.course_of_leaves
      (Program.leaves_run b (c.read offset buffer) s)).outOfRange_iff hg
    refine ⟨hiff.trans hrefused.symm, fun hon hresult => ?_⟩
    rw [hstill hresult] at hon
    cases hon

/-- A bank that is larger than the sequencer reaches. The last word with an address is read whole,
and one byte more is turned down. -/
theorem sequencer_serves_addressable_last_word :
    let c : Controller := ⟨{ Descriptor.rk3588 with size := 0x40000 }, {}⟩
    let b : Board (Bench Bench.Device) := Bench.board {}
    let s : Bench Bench.Device := ⟨{ layout := .words }, {}⟩
    let r := (c.read 0x3f3fc [0, 0, 0, 0]).run b s
    let r' := (c.read 0x3f3fc [0, 0, 0, 0, 0]).run b s
    (∃ range, Generation.three.plan 0x40000 0x3f3fc 4 = .ok range ∧
      Generation.Addressed 0x3f3fc 4 range ∧
      ((Generation.three.execute {} range).run b s).value.failure ≠ some .outOfRange) ∧
    (∃ range, Generation.three.cover 0x3f3fc 4 = .ok range ∧
      range.stop.toNat + 0x300 < 2 ^ 32) ∧
    r.value.result ≠ .error .outOfRange ∧ r'.value.result = .error .outOfRange := by
  intro c b s r r'
  obtain ⟨-, hserved, hcover, hexecute, hread⟩ := sequencer_serves_addressable 0x40000 0x3f3fc 4
  obtain ⟨-, -, -, -, hread'⟩ := sequencer_serves_addressable 0x40000 0x3f3fc 5
  obtain ⟨range, hplan, haddressed⟩ := hserved (by decide)
  have hon : .clocksOn c.descriptor.clocks ∈ r.trace := by decide +kernel
  exact ⟨⟨range, hplan, haddressed, hexecute range hplan {} b s⟩, hcover (by decide),
    (hread c [0, 0, 0, 0] rfl rfl rfl b s).2 hon,
    (hread' c [0, 0, 0, 0, 0] rfl rfl rfl b s).1.2 (by decide)⟩

end FuseBank
