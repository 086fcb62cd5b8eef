import FuseBank.Proofs.Completion

/-!
# Read cycles on a device

Each generation of controllers has a layout of devices that it reads, and in it a place for
every word of a bank. The user interface keeps 16 bits of a word's address, so the bank is
seen there again and again; the sequencer begins above the words of the secure side.

A read cycle is *started* by writing the place and the trigger (`Device.started`), and then
the bit of its completion is polled for. Its answer is in the device's registers from then
on, whatever the status shows.

## Main statements

* `outcome_fetch`: what a read cycle on a device comes to.
* `Device.started_of_completes`, `Device.started_of_stalls`: what starting a cycle does.
* `Device.byte_word`: the bytes of a word are the fuses at its place.
-/

namespace FuseBank

open Bench Register

namespace Generation

/-- The layout of the devices that a generation of controllers reads. -/
def layout : Generation → Layout
  | one => .bytes
  | two => .halfwords
  | three => .words

/-- The bit that shows the completion of a read cycle. -/
def completion : Generation → UInt32
  | one | two => cycleDone
  | three => Sequencer.done

/-- Where a device has the word at an address of the bank. -/
def place (g : Generation) (address : UInt32) : UInt32 :=
  match g with
  | one | two => address &&& 0xffff
  | three => address + Sequencer.nonSecureBase

/-- The fuse that a byte of the bank is read from. -/
def fuseIndex (g : Generation) (i : Nat) : Nat :=
  match g with
  | one => i % 2 ^ 16
  | two => i % 2 ^ 17
  | three => i

/-- The word has a place that a control word can hold. The user interface reads a word for
every address. -/
def Reaches (g : Generation) (address : UInt32) : Prop :=
  g = .three → address.toNat + Sequencer.nonSecureBase.toNat < Sequencer.addressLimit.toNat

/-- The user interface sees the bank again and again. -/
theorem toNat_place_user {g : Generation} (hg : g ≠ .three) (address : UInt32) :
    (g.place address).toNat = address.toNat % 2 ^ 16 := by
  have hplace : g.place address = address &&& 0xffff := by
    cases g with
    | three => exact absurd rfl hg
    | _ => rfl
  have hmask : (0xffff : UInt32).toNat = 2 ^ 16 - 1 := rfl
  rw [hplace, UInt32.toNat_and, hmask, Nat.and_two_pow_sub_one_eq_mod]

/-- The user interface has a latch to set before it is read from. -/
theorem exists_latch {g : Generation} (hg : g ≠ .three) : ∃ latch, g.latch? = some latch := by
  cases g with
  | three => exact absurd rfl hg
  | _ => exact ⟨_, rfl⟩

end Generation

namespace Bench.Device

theorem layout_of_user {g : Generation} (hg : g ≠ .three) {d : Device} (h : d.layout = g.layout) :
    d.layout = .bytes ∨ d.layout = .halfwords := by
  cases g with
  | one => exact .inl h
  | two => exact .inr h
  | three => exact absurd rfl hg

/-- A device that a generation of controllers reads, with the fuse macro taken where it has
to be. -/
structure Serves (d : Device) (g : Generation) : Prop where
  layout : d.layout = g.layout
  taken : g ≠ .three → d.userMode = true

/-! ### Registers -/

section

variable {d : Device} (hd : d.layout = .bytes ∨ d.layout = .halfwords)

include hd

theorem write_of_user (offset : Nat) (value : UInt32) :
    RegisterBlock.write offset value d = d.writeUser offset value := by
  show d.write offset value = _
  rcases hd with h | h <;> simp [write, h]

theorem read_quality : RegisterBlock.read User.quality d = (d.quality, d) := by
  rcases hd with h | h <;>
    simp [RegisterBlock.read, h, look, Layout.statusRegister, User.quality, Register.status]

theorem read_data : RegisterBlock.read User.data d = (d.data, d) := by
  rcases hd with h | h <;>
    simp [RegisterBlock.read, h, look, Layout.statusRegister, User.quality, User.data,
      Register.status]

end

theorem writeUser_address (d : Device) (address : UInt32) :
    d.writeUser User.address (address ||| User.addressMask) =
      { d with address := address &&& 0xffff } := by
  have h : (address ||| User.addressMask) &&& 0xffff = address &&& 0xffff := by
    apply UInt32.toBitVec_inj.1
    have hmask : ∀ i : Fin 32,
        (BitVec.getLsbD (4294901760#32) i && BitVec.getLsbD (65535#32) i) = false := by
      decide
    ext i hi
    have := hmask ⟨i, hi⟩
    simp [User.addressMask] at this ⊢
    grind
  simp [writeUser, h, Register.status, Sideband.command, Sideband.operand, Sideband.control,
    User.control, User.address]

theorem writeUser_trigger (d : Device) (h : d.userMode = true) :
    d.writeUser User.trigger User.start = d.runCycle := by
  simp [writeUser, h, Register.status, Sideband.command, Sideband.operand, Sideband.control,
    User.control, User.address, User.trigger]

section

variable {d : Device} (hd : d.layout = .words)

include hd

theorem write_control (c : ControlWord) :
    RegisterBlock.write Sequencer.control c.bits d = { d with control := c } := by
  show d.write _ _ = _
  simp [write, hd, writeSequencer, Sequencer.control, Sequencer.status]

theorem write_trigger :
    RegisterBlock.write Sequencer.trigger Sequencer.start d = d.runSequence := by
  show d.write _ _ = _
  simp [write, hd, writeSequencer, Sequencer.control, Sequencer.status, Sequencer.trigger,
    Sequencer.start]

theorem read_sequencerData : RegisterBlock.read Sequencer.data d = (d.sequencerData, d) := by
  simp [RegisterBlock.read, hd, look, Layout.statusRegister, Sequencer.status, Sequencer.data]

end

/-! ### Cycles -/

/-- The device once the cycle of a word has been started. -/
def started (d : Device) (g : Generation) (address : UInt32) : Device :=
  match g with
  | .one | .two => { d with address := g.place address }.runCycle
  | .three => { d with control := .fetchAt (g.place address).toUInt16 }.runSequence

/-- What a controller takes for the word when the cycle is complete. -/
def answer (d : Device) (g : Generation) : Except Failure UInt32 :=
  match g with
  | .one => .ok d.data.toUInt8.toUInt32
  | .two => if User.isFault d.quality then .error .integrityFault else .ok d.data
  | .three => .ok d.sequencerData

/-- The word that a device has for an address of the bank: as much of it as a controller
keeps. -/
def word (d : Device) (g : Generation) (address : UInt32) : UInt32 :=
  match g with
  | .one => (d.wordOf (g.place address)).toUInt8.toUInt32
  | .two | .three => d.wordOf (g.place address)

/-- The word's quality value is no fault, or is not looked at. -/
def Sound (d : Device) (g : Generation) (address : UInt32) : Prop :=
  g = .two → User.isFault (d.qualityOf (g.place address)) = false

theorem runCycle_userMode (d : Device) : d.runCycle.userMode = d.userMode := by
  unfold runCycle
  split <;> rfl

theorem blank_started (d : Device) (g : Generation) (address : UInt32) :
    (d.started g address).blank = d.blank := by
  cases g with
  | three => exact blank_runSequence _
  | _ => exact blank_runCycle _

theorem serves_started {d : Device} {g : Generation} (h : d.Serves g) (address : UInt32) :
    (d.started g address).Serves g := by
  have hl := layout_of_blank (blank_started d g address)
  refine ⟨hl.trans h.layout, fun hg => ?_⟩
  cases g with
  | three => exact absurd rfl hg
  | _ => exact (runCycle_userMode _).trans (h.taken hg)

theorem serves_of_core {d d' : Device} {g : Generation} (h : d'.core = d.core) (hd : d.Serves g) :
    d'.Serves g := by
  have ht := congrArg userMode h
  exact ⟨(layout_of_blank (blank_of_core h)).trans hd.layout, fun hg => ht.trans (hd.taken hg)⟩

/-- What a controller takes for the word does not hang on the status. -/
theorem answer_of_core {d d' : Device} (h : d'.core = d.core) (g : Generation) :
    d'.answer g = d.answer g := by
  have := congrArg (fun c : Device => c.answer g) h
  exact this

/-- The device once the cycle of a word has been run, before its completion is pending. -/
def completed (d : Device) (g : Generation) (address : UInt32) : Device :=
  match g with
  | .one | .two =>
    { d with
      address := g.place address
      cycles := d.cycles + 1
      fetched := d.fetched ++ [g.place address]
      data := d.wordOf (g.place address)
      quality := d.qualityOf (g.place address) }
  | .three =>
    { d with
      control := .fetchAt (g.place address).toUInt16
      cycles := d.cycles + 1
      fetched := d.fetched ++ [g.place address]
      sequencerData := d.wordOf (g.place address) }

/-- The device once the cycle of a word has been started and stalls. -/
def stalled (d : Device) (g : Generation) (address : UInt32) : Device :=
  match g with
  | .one | .two => { d with address := g.place address, cycles := d.cycles + 1 }
  | .three =>
    { d with control := .fetchAt (g.place address).toUInt16, cycles := d.cycles + 1 }

theorem toNat_place_three {address : UInt32} (h : Generation.three.Reaches address) :
    (Generation.three.place address).toNat = address.toNat + 0x300 := by
  have := h rfl
  simp only [Generation.place, Sequencer.nonSecureBase, Sequencer.addressLimit, UInt32.toNat_add,
    UInt32.reduceToNat] at this ⊢
  omega

/-- Such a place fits in the address field of a control word. -/
theorem toUInt32_place_three {address : UInt32} (h : Generation.three.Reaches address) :
    (Generation.three.place address).toUInt16.toUInt32 = Generation.three.place address := by
  have hplace := toNat_place_three h
  have hlt := h rfl
  simp only [Sequencer.nonSecureBase, Sequencer.addressLimit, UInt32.reduceToNat] at hlt
  apply UInt32.toNat_inj.1
  rw [UInt16.toNat_toUInt32, UInt32.toNat_toUInt16, hplace, Nat.mod_eq_of_lt hlt]

/-- A cycle that the device completes is run at once, and its completion is pending. -/
theorem started_of_completes {d : Device} {g : Generation} {address : UInt32}
    (hc : d.completesCycle = true) (ha : g.Reaches address) :
    d.started g address = (d.completed g address).raise g.completion := by
  cases g with
  | three =>
    show runSequence _ = _
    rw [runSequence, if_pos (by exact hc)]
    simp only [completed, ControlWord.address_fetchAt, toUInt32_place_three ha]
    rfl
  | _ => exact if_pos (by exact hc)

/-- A cycle that stalls leaves nothing behind. -/
theorem started_of_stalls {d : Device} (g : Generation) (address : UInt32)
    (hc : d.completesCycle = false) : d.started g address = d.stalled g address := by
  have h : ¬ d.completesCycle = true := by simp [hc]
  cases g <;> exact if_neg h

/-- What a controller takes for a sound word is the word. -/
theorem answer_completed {d : Device} {g : Generation} {address : UInt32}
    (hs : d.Sound g address) : (d.completed g address).answer g = .ok (d.word g address) := by
  cases g with
  | two =>
    have := hs rfl
    simp [answer, completed, word, this]
  | _ => rfl

/-- Nothing is taken for a word that is not sound. -/
theorem answer_completed_of_not_sound {d : Device} {g : Generation} {address : UInt32}
    (hs : ¬ d.Sound g address) : (d.completed g address).answer g = .error .integrityFault := by
  cases g with
  | two =>
    have : User.isFault (d.qualityOf (Generation.two.place address)) = true := by
      rw [← Bool.not_eq_false]
      exact fun h => hs fun _ => h
    simp [answer, completed, this]
  | one => exact absurd (fun h => nomatch h) hs
  | three => exact absurd (fun h => nomatch h) hs

/-! ### The fuses of a word -/

theorem byte_word_zero (b₀ b₁ b₂ b₃ : UInt8) :
    (LittleEndian.word b₀ b₁ b₂ b₃).toUInt8 = b₀ := by
  have h := LittleEndian.bytes_word b₀ b₁ b₂ b₃
  simp only [LittleEndian.bytes, List.cons.injEq, LittleEndian.byte_zero] at h
  exact h.1

/-- **The bytes of a word are the fuses at its place.** -/
theorem byte_word {d : Device} {g : Generation} (hl : d.layout = g.layout) {a : Nat}
    (ha : g.Reaches (UInt32.ofNat a)) (hlt : a < 2 ^ 32) {j : Nat} (hj : j < g.wordSize.toNat) :
    LittleEndian.byte (d.word g (UInt32.ofNat a)) j =
      d.fuse (g.fuseIndex (a * g.wordSize.toNat + j)) := by
  have hofNat : (UInt32.ofNat a).toNat = a := UInt32.toNat_ofNat_of_lt' hlt
  cases g with
  | one =>
    have hp := Generation.toNat_place_user (g := .one) (by simp) (UInt32.ofNat a)
    obtain rfl : j = 0 := by simpa [Generation.wordSize] using hj
    simp [word, wordOf, hl, Generation.layout, byte_word_zero, hp, hofNat,
      Generation.fuseIndex, Generation.wordSize]
  | two =>
    have hp := Generation.toNat_place_user (g := .two) (by simp) (UInt32.ofNat a)
    rw [hofNat] at hp
    have h := LittleEndian.bytes_word (d.fuse (2 * (a % 2 ^ 16))) (d.fuse (2 * (a % 2 ^ 16) + 1))
      0xad 0xde
    simp only [LittleEndian.bytes, List.cons.injEq] at h
    simp only [Generation.wordSize, UInt32.reduceToNat] at hj ⊢
    have hi : Generation.two.fuseIndex (a * 2 + j) = 2 * (a % 2 ^ 16) + j := by
      simp only [Generation.fuseIndex]
      omega
    rw [hi]
    simp only [word, wordOf, hl, Generation.layout, hp]
    match j, hj with
    | 0, _ => exact h.1
    | 1, _ => exact h.2.1
  | three =>
    have hp := toNat_place_three ha
    rw [hofNat] at hp
    have hge : ¬ Generation.three.place (UInt32.ofNat a) < Sequencer.nonSecureBase := by
      rw [UInt32.lt_iff_toNat_lt, hp]
      simp [Sequencer.nonSecureBase]
    have hsub : a + 0x300 - Sequencer.nonSecureBase.toNat = a := by
      simp [Sequencer.nonSecureBase]
    have h := LittleEndian.bytes_word (d.fuse (4 * a)) (d.fuse (4 * a + 1)) (d.fuse (4 * a + 2))
      (d.fuse (4 * a + 3))
    simp only [LittleEndian.bytes, List.cons.injEq] at h
    simp only [Generation.wordSize, UInt32.reduceToNat] at hj ⊢
    simp only [word, wordOf, hl, Generation.layout, hge, if_false, hp, hsub, Generation.fuseIndex,
      Nat.mul_comm a]
    match j, hj with
    | 0, _ => exact h.1
    | 1, _ => exact h.2.1
    | 2, _ => exact h.2.2.1
    | 3, _ => exact h.2.2.2.1

/-! ### Cycles as a controller runs them -/

/-- A read cycle with so many pauses to wait for its completion: whether it was complete in
time, and the device afterwards. -/
def cycle (d : Device) (g : Generation) (address : UInt32) (left : Nat) : Bool × Device :=
  (d.started g address).polled g.completion left

theorem serves_cycle {d : Device} {g : Generation} (h : d.Serves g) (address : UInt32)
    (left : Nat) : (d.cycle g address left).2.Serves g :=
  serves_of_core (core_polled _ _ _) (serves_started h address)

theorem outcome_userCycle (w : Wiring) (t : Timing) (address : UInt32) {d : Device}
    (r : Refusals) {g : Generation} (hg : g ≠ .three) (hd : d.Serves g) :
    (userCycle t address).outcome (board w) ⟨d, r⟩ =
      ((d.cycle g address t.patience).1, ⟨(d.cycle g address t.patience).2, r⟩) := by
  have hs := serves_started hd address
  have hlay := layout_of_user hg hd.layout
  have hreg : t.userPoll.register = (d.started g address).layout.statusRegister := by
    rw [hs.layout]
    cases g <;> first | rfl | exact absurd rfl hg
  have hne : (d.started g address).layout ≠ .inert := by
    rw [hs.layout]
    cases g <;> simp [Generation.layout]
  have hstart : ({ d with address := address &&& 0xffff } : Device).writeUser User.trigger
      User.start = d.started g address := by
    rw [writeUser_trigger { d with address := address &&& 0xffff } (hd.taken hg)]
    cases g with
    | three => exact absurd rfl hg
    | _ => rfl
  have hmask : t.userPoll.mask = g.completion := by
    cases g <;> first | rfl | exact absurd rfl hg
  have hawait := outcome_await w t.userPoll t.pollTick .cycleTimeout (d.started g address) r hreg
    hne
  rw [hmask] at hawait
  rw [userCycle]
  simp only [Program.outcome_bind, outcome_write, write_of_user hlay, writeUser_address,
    write_of_user (d := { d with address := address &&& 0xffff }) hlay, hstart, hawait]
  rfl

theorem outcome_sequencerCycle (w : Wiring) (t : Timing) (address : UInt32) {d : Device}
    (r : Refusals) (hd : d.Serves .three) :
    (sequencerCycle t (Generation.three.place address).toUInt16).outcome (board w) ⟨d, r⟩ =
      ((d.cycle .three address t.patience).1, ⟨(d.cycle .three address t.patience).2, r⟩) := by
  have hs := serves_started hd address
  have hawait := outcome_await w t.sequencerPoll t.pollTick .cycleTimeout
    (d.started .three address) r (by rw [hs.layout]; rfl)
    (by rw [hs.layout]; simp [Generation.layout])
  rw [sequencerCycle]
  have htrigger := write_trigger
    (d := { d with control := .fetchAt (Generation.three.place address).toUInt16 }) hd.layout
  simp only [Program.outcome_bind, outcome_write, write_control hd.layout, htrigger]
  exact hawait

/-- **What a read cycle on a device comes to.** -/
theorem outcome_fetch (w : Wiring) (t : Timing) {g : Generation} {address : UInt32} {d : Device}
    (r : Refusals) (hd : d.Serves g) (ha : g.Reaches address) :
    (g.fetch t address).outcome (board w) ⟨d, r⟩ =
      (if (d.cycle g address t.patience).1 then (d.cycle g address t.patience).2.answer g
        else .error .pollTimeout, ⟨(d.cycle g address t.patience).2, r⟩) := by
  have hs := (serves_cycle hd address t.patience).layout
  cases g with
  | one =>
    have hdata := read_data (.inl hs)
    cases h : (d.cycle .one address t.patience).1 <;>
      simp [Generation.fetch, outcome_userCycle w t address r (by simp) hd, h, hdata, answer]
  | two =>
    have hdata := read_data (.inr hs)
    have hquality := read_quality (.inr hs)
    cases h : (d.cycle .two address t.patience).1
    · simp [Generation.fetch, outcome_userCycle w t address r (by simp) hd, h]
    · cases hf : User.isFault (d.cycle .two address t.patience).2.quality <;>
        simp [Generation.fetch, outcome_userCycle w t address r (by simp) hd, h, hdata, hquality,
          answer, hf]
  | three =>
    have hdata := read_sequencerData hs
    have hp := toNat_place_three ha
    have hlt : address + Sequencer.nonSecureBase < Sequencer.addressLimit := by
      rw [UInt32.lt_iff_toNat_lt]
      exact hp.trans_lt (ha rfl)
    have hcycle := outcome_sequencerCycle w t address r hd
    simp only [Generation.place] at hcycle
    cases h : (d.cycle .three address t.patience).1 <;>
      simp only [Generation.fetch, hlt, if_true, Program.outcome_bind, hcycle, h] <;>
      simp [hdata, answer]

end Bench.Device

end FuseBank
