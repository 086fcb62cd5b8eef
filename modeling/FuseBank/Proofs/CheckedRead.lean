import FuseBank.Proofs.Addressable

/-!
# A read with every operation checked

Some operations of a read are not defined on all operands. A difference may fall below zero and a
sum may be carried out of its bits, an address may be too long for the field that it is narrowed to,
a part of a buffer may reach beyond the buffer, and bytes may be gathered for which no memory was
reserved. Here a read is put together once more from operations that look at their operands first
and break off with a `Fault` if they are not defined on them (`Controller.checkedRead`).

It never breaks off: on every board, and whatever memory is granted, it leaves the same record as
the read itself. So a read neither comes to an operation that is not defined, nor does it need more
memory than it has reserved before the clocks were switched on.

## The model

A checked program is one that may end with a fault (`Checked`). The words that generations two and
three gather are kept in a `Scratch`, which has a capacity and never holds more; to append a word
for which there is no room left is a fault. Generation one gathers nothing: it goes through the
words and the places for their bytes together, for as long as there are both.

## Main statements

* `Generation.checkedPlan_eq`: planning breaks off nowhere.
* `Generation.checkedGather_bind`: the words of a plan fit in what was reserved for them.
* `Generation.checkedExecute_eq`: a planned read breaks off nowhere.
* `Controller.checkedRead_eq`: nor does a read, so it is the read itself.
* `checked_read_is_read`: the same on a board.
-/

namespace FuseBank

open Register

/-! ### Operations that may not be defined -/

/-- What is wrong with an operation. -/
inductive Fault where
  /-- A sum, a difference or a product does not fit in its bits. -/
  | overflow
  /-- A divisor is zero. -/
  | divisor
  /-- A number does not fit in the bits that it is narrowed to. -/
  | narrowing
  /-- A part of a buffer reaches beyond it. -/
  | bounds
  /-- Bytes are copied to a place for more or fewer of them. -/
  | lengths
  /-- There is no memory reserved for what is stored. -/
  | capacity
  deriving DecidableEq, Repr

/-- A program that may break off with a fault. -/
abbrev Checked (α : Type) := ExceptT Fault Program α

namespace Checked

/-- A sum of 32 bits. -/
def sum (a b : UInt32) : Except Fault UInt32 :=
  if a.toNat + b.toNat < 2 ^ 32 then .ok (a + b) else .error .overflow

/-- A difference of 32 bits. -/
def difference (a b : UInt32) : Except Fault UInt32 :=
  if b.toNat ≤ a.toNat then .ok (a - b) else .error .overflow

/-- A product of 64 bits. -/
def product (a b : UInt64) : Except Fault UInt64 :=
  if a.toNat * b.toNat < 2 ^ 64 then .ok (a * b) else .error .overflow

/-- A number of 32 bits in 16 bits. -/
def narrow (a : UInt32) : Except Fault UInt16 :=
  if a.toNat < 2 ^ 16 then .ok a.toUInt16 else .error .narrowing

/-- So many bytes of a buffer, from `start` on. -/
def part (bytes : List UInt8) (start len : Nat) : Except Fault (List UInt8) :=
  if start + len ≤ bytes.length then .ok ((bytes.drop start).take len) else .error .bounds

/-- What a place holds once some bytes have been copied there. -/
def copied (bytes place : List UInt8) : Except Fault (List UInt8) :=
  if bytes.length = place.length then .ok bytes else .error .lengths

/-- The same program, which breaks off nowhere. -/
def sound {α : Type} (p : Program α) : Checked α := ExceptT.lift p

variable {α β : Type}

/-- A step that breaks off nowhere goes on as the program does. -/
theorem sound_bind {p : Program α} {f : α → Checked β} {g : α → Program β}
    (h : ∀ a, f a = sound (g a)) : sound p >>= f = sound (p >>= g) := by
  obtain rfl : f = fun a => sound (g a) := funext h
  apply ExceptT.ext
  simp [sound]

@[simp] theorem ok_bind (value : α) (f : α → Checked β) :
    (liftM (.ok value : Except Fault α) : Checked α) >>= f = f value := rfl

theorem run_sound (p : Program α) : (sound p).run = (do
    let value ← p
    return .ok value) := by
  rw [sound, ExceptT.run_lift, map_eq_pure_bind]

/-- What is undone at the end is undone after a program that breaks off nowhere. -/
theorem mk_withUserMode (t : Timing) (p : Program α) :
    ExceptT.mk (withUserMode t (sound p).run) = sound (withUserMode t p) := by
  apply ExceptT.ext
  simp only [ExceptT.run_mk, run_sound, withUserMode, bind_assoc, pure_bind]

theorem mk_withClocks (ids : List String) (refused p : Program α) :
    ExceptT.mk (withClocks ids (sound refused).run (sound p).run) =
      sound (withClocks ids refused p) := by
  apply ExceptT.ext
  simp only [ExceptT.run_mk, run_sound, withClocks, bind_assoc]
  congr 1
  funext granted
  cases granted <;> simp only [if_true, if_false, Bool.false_eq_true, bind_assoc, pure_bind]

end Checked

/-- Bytes for which memory was reserved. -/
structure Scratch where
  /-- How many bytes there is memory for. -/
  capacity : Nat
  /-- The bytes so far. -/
  bytes : List UInt8
  /-- They are in that memory. -/
  length_le : bytes.length ≤ capacity

namespace Scratch

/-- Memory that is reserved and not yet used. -/
def reserved (capacity : Nat) : Scratch := ⟨capacity, [], Nat.zero_le _⟩

@[simp] theorem bytes_reserved (capacity : Nat) : (reserved capacity).bytes = [] := rfl

/-- Appends the bytes of a word, as many as a word has. -/
def append (s : Scratch) (wordSize word : UInt32) : Except Fault Scratch := do
  let bytes ← Checked.part (LittleEndian.bytes word) 0 wordSize.toNat
  if h : (s.bytes ++ bytes).length ≤ s.capacity then .ok ⟨s.capacity, s.bytes ++ bytes, h⟩
  else .error .capacity

end Scratch

/-! ### A read from checked operations -/

/-- How many words are fetched. -/
def WordRange.checkedWordCount (r : WordRange) : Except Fault UInt32 :=
  Checked.difference r.stop r.start

/-- How many bytes the fetched words have. -/
def WordRange.checkedScratchLength (r : WordRange) : Except Fault UInt64 := do
  let count ← r.checkedWordCount
  Checked.product count.toUInt64 r.wordSize.toUInt64

/-- Copies the requested bytes of those that were gathered to their place, which tells how many they
are. -/
def WordRange.checkedWindow (r : WordRange) (gathered place : List UInt8) :
    Except Fault (List UInt8) := do
  let window ← Checked.part gathered r.skip place.length
  Checked.copied window place

namespace Generation

/-- The words that cover a request. Its ends are divided by the word size. -/
def checkedCover (g : Generation) (offset : UInt32) (len : Nat) :
    Except Fault (Except Refusal WordRange) :=
  match WordRange.cover offset len g.wordSize with
  | .ok range => .ok (.ok range)
  | .error .wraps => .ok (.error (.wraps len offset))
  | .error .zeroWordSize => .error .divisor

/-- The words to fetch, or why the request is turned down. -/
def checkedPlan (g : Generation) (size offset : UInt32) (len : Nat) :
    Except Fault (Except Refusal WordRange) :=
  match g with
  | one | two => g.checkedCover offset len
  | three =>
    if size ≤ offset then .ok (.error (.beyondSize offset size))
    else do
      let left ← Checked.difference size offset
      match ← three.checkedCover offset (min len left.toNat) with
      | .error refusal => return .error refusal
      | .ok range =>
        let limit ← Checked.sum range.stop Sequencer.nonSecureBase
        if limit > Sequencer.addressLimit then return .error (.beyondSequencer offset)
        else return .ok range

/-- The memory in which the words of a range are gathered, or how much of it there is not.
Generation one asks for none. -/
def reserve (g : Generation) (memory : Memory) (range : WordRange) :
    Except Fault (Except Nat Scratch) :=
  match g with
  | one => return .ok (.reserved 0)
  | two | three => do
    let length ← range.checkedScratchLength
    if memory.grants length.toNat then return .ok (.reserved length.toNat)
    else return .error length.toNat

/-- Fetches a word. The sequencer is given its address in 16 bits. -/
def checkedFetch (g : Generation) (t : Timing) (address : UInt32) :
    Checked (Except Failure UInt32) :=
  match g with
  | one | two => Checked.sound (g.fetch t address)
  | three => do
    let place ← Checked.sum address Sequencer.nonSecureBase
    let place ← Checked.narrow place
    Checked.sound do
      if ← sequencerCycle t place then
        let word ← Bus.read Sequencer.data
        return .ok word
      else
        return .error .pollTimeout

/-- Fetches one word after another and gathers their bytes. -/
def checkedGather (g : Generation) (t : Timing) (wordSize : UInt32) (scratch : Scratch) :
    List UInt32 → Checked (Except Failure (List UInt8))
  | [] => return .ok scratch.bytes
  | address :: rest => do
    match ← g.checkedFetch t address with
    | .error failure => return .error failure
    | .ok word => do
      let scratch ← scratch.append wordSize word
      g.checkedGather t wordSize scratch rest

/-- Fetches the words of a range, and copies the requested bytes to their place. -/
def checkedCollect (g : Generation) (t : Timing) (range : WordRange) (scratch : Scratch)
    (place : List UInt8) : Checked Delivery :=
  match g with
  | one => Checked.sound do
    let harvest ← gather (one.fetch t) [] ((range.words.zip place).map Prod.fst)
    return one.deliver range harvest
  | two | three => do
    match ← g.checkedGather t range.wordSize scratch range.words with
    | .error failure => return .failed failure
    | .ok gathered => do
      let bytes ← range.checkedWindow gathered place
      return ⟨bytes, none⟩

/-- Carries out a planned read. A fault hands the fuse macro back, too. -/
def checkedExecute (g : Generation) (t : Timing) (range : WordRange) (scratch : Scratch)
    (place : List UInt8) : Checked Delivery :=
  match g.latch? with
  | none => g.checkedCollect t range scratch place
  | some latch => do
    match ← Checked.sound (latch.prepare t) with
    | some failure => return .failed failure
    | none => ExceptT.mk (withUserMode t (g.checkedCollect t range scratch place).run)

end Generation

namespace Controller

/-- Carries out a plan with the clocks on. The place for the bytes is the front of the buffer. A
fault switches the clocks off, too. -/
def checkedTransact (c : Controller) (g : Generation) (range : WordRange) (scratch : Scratch)
    (buffer : List UInt8) : Checked Delivery :=
  ExceptT.mk <| withClocks c.descriptor.clocks
    (Checked.sound do
      Bus.log .clocksRefused
      return .failed .clockFailure).run
    (ExceptT.run do
      let place ← Checked.part buffer 0 range.len
      g.checkedExecute c.timing range scratch place)

/-- Reads the bytes from `offset` on into `buffer`. -/
def checkedRead (c : Controller) (memory : Memory) (offset : UInt32) (buffer : List UInt8) :
    Checked (Reply (Except Failure Nat)) :=
  match c.descriptor.generation with
  | none => return ⟨.error .unsupported, buffer⟩
  | some g => do
    Checked.sound (Bus.log (.reading buffer.length offset))
    match ← g.checkedPlan c.size offset buffer.length with
    | .error refusal => do
      Checked.sound (Bus.log refusal.message)
      return ⟨.error .outOfRange, buffer⟩
    | .ok range => do
      match ← g.reserve memory range with
      | .error bytes => do
        Checked.sound (Bus.log (.noMemory bytes))
        return ⟨.error .allocationFailure, buffer⟩
      | .ok scratch => do
        let delivery ← c.checkedTransact g range scratch buffer
        return delivery.reply range.len buffer

end Controller

/-! ### Planning -/

namespace Checked

theorem sum_of_lt {a b : UInt32} (h : a.toNat + b.toNat < 2 ^ 32) : sum a b = .ok (a + b) :=
  if_pos h

theorem difference_of_le {a b : UInt32} (h : b.toNat ≤ a.toNat) : difference a b = .ok (a - b) :=
  if_pos h

theorem product_of_lt {a b : UInt64} (h : a.toNat * b.toNat < 2 ^ 64) : product a b = .ok (a * b) :=
  if_pos h

theorem narrow_of_lt {a : UInt32} (h : a.toNat < 2 ^ 16) : narrow a = .ok a.toUInt16 :=
  if_pos h

theorem part_of_le {bytes : List UInt8} {start len : Nat} (h : start + len ≤ bytes.length) :
    part bytes start len = .ok ((bytes.drop start).take len) :=
  if_pos h

theorem copied_of_eq {bytes place : List UInt8} (h : bytes.length = place.length) :
    copied bytes place = .ok bytes :=
  if_pos h

end Checked

namespace Generation

theorem checkedCover_eq (g : Generation) (offset : UInt32) (len : Nat) :
    g.checkedCover offset len = .ok (g.cover offset len) := by
  have hsize : g.wordSize ≠ 0 := by cases g <;> decide
  rw [checkedCover, cover, WordRange.cover]
  cases endAddress? offset len with
  | none => rfl
  | some last => simp only [if_neg hsize]

/-- **Planning breaks off nowhere.** -/
theorem checkedPlan_eq (g : Generation) (size offset : UInt32) (len : Nat) :
    g.checkedPlan size offset len = .ok (g.plan size offset len) := by
  cases g with
  | one | two => exact checkedCover_eq _ offset len
  | three =>
    rw [checkedPlan, plan]
    by_cases hsize : size ≤ offset
    · rw [if_pos hsize, if_pos hsize]
    · have hlt : offset < size := UInt32.not_le.1 hsize
      obtain ⟨range, hcover, hstop⟩ := exists_cover_clamp hlt len
      rw [if_neg hsize, if_neg hsize, Checked.difference_of_le (UInt32.le_of_lt hlt), hcover]
      have hclamp : min len (size - offset).toNat = clamp size offset len := rfl
      simp only [bind, Except.bind, hclamp, checkedCover_eq, hcover,
        Checked.sum_of_lt (b := Sequencer.nonSecureBase) hstop]
      split <;> rfl

/-- The memory for the words of a cover is counted without a carry. -/
theorem reserve_eq {g : Generation} {range : WordRange} {offset len : Nat}
    (h : range.LeastCover range.wordSize.toNat offset len) (memory : Memory) :
    g.reserve memory range =
      .ok (if memory.grants (g.scratch range) then .ok (.reserved (g.scratch range))
        else .error (g.scratch range)) := by
  have hcount : range.checkedWordCount = .ok range.wordCount :=
    Checked.difference_of_le h.start_le_stop
  have hfits : range.wordCount.toUInt64.toNat * range.wordSize.toUInt64.toNat < 2 ^ 64 := by
    rw [UInt32.toNat_toUInt64, UInt32.toNat_toUInt64, ← h.scratchLength_eq]
    exact range.scratchLength.toNat_lt
  have hlength : range.checkedScratchLength = .ok range.scratchLength := by
    rw [WordRange.checkedScratchLength, hcount]
    exact Checked.product_of_lt hfits
  cases g with
  | one =>
    rw [memory.grants_scratch_one]
    rfl
  | two | three =>
    rw [reserve, hlength]
    exact (apply_ite Except.ok _ _ _).symm

theorem le_scratch {g : Generation} (hg : g ≠ .one) {range : WordRange} {offset len : Nat}
    (h : range.LeastCover range.wordSize.toNat offset len) :
    range.words.length * range.wordSize.toNat ≤ g.scratch range := by
  rw [WordRange.length_words, ← h.scratchLength_eq]
  cases g with
  | one => exact absurd rfl hg
  | two | three => exact Nat.le_refl _

/-! ### Words -/

theorem checkedFetch_eq {g : Generation} (t : Timing) {address : UInt32} (h : g.Reaches address) :
    g.checkedFetch t address = Checked.sound (g.fetch t address) := by
  cases g with
  | one | two => rfl
  | three =>
    have hlt : address.toNat + 0x300 < 2 ^ 16 := h rfl
    have hsum : address.toNat + Sequencer.nonSecureBase.toNat < 2 ^ 32 :=
      hlt.trans (by decide)
    have hplace : (address + Sequencer.nonSecureBase).toNat = address.toNat + 0x300 :=
      Bench.Device.toNat_place_three h
    have hnarrow : (address + Sequencer.nonSecureBase).toNat < 2 ^ 16 := by rwa [hplace]
    have hlimit : address + Sequencer.nonSecureBase < Sequencer.addressLimit := by
      rw [UInt32.lt_iff_toNat_lt]
      exact hnarrow
    simp only [checkedFetch, fetch, Checked.sum_of_lt hsum, Checked.ok_bind,
      Checked.narrow_of_lt hnarrow, hlimit, if_true]

end Generation

/-- A word is appended where there is room for it. -/
theorem Scratch.exists_append {s : Scratch} {range : WordRange} (hle : range.wordSize.toNat ≤ 4)
    {fetched : List UInt32} (hbytes : s.bytes = range.gathered fetched)
    (hroom : (fetched.length + 1) * range.wordSize.toNat ≤ s.capacity) (word : UInt32) : ∃ s',
      s.append range.wordSize word = .ok s' ∧ s'.bytes = range.gathered (fetched ++ [word]) ∧
        s'.capacity = s.capacity := by
  have hpart : Checked.part (LittleEndian.bytes word) 0 range.wordSize.toNat =
      .ok ((LittleEndian.bytes word).take range.wordSize.toNat) :=
    Checked.part_of_le ((Nat.zero_add _).trans_le hle)
  have hgathered : s.bytes ++ (LittleEndian.bytes word).take range.wordSize.toNat =
      range.gathered (fetched ++ [word]) := by
    simp [hbytes, WordRange.gathered]
  have hfits : (s.bytes ++ (LittleEndian.bytes word).take range.wordSize.toNat).length ≤
      s.capacity := by
    rw [hgathered, WordRange.length_gathered, Nat.min_eq_left hle]
    simpa using hroom
  refine ⟨⟨s.capacity, _, hfits⟩, ?_, hgathered, rfl⟩
  rw [append, hpart]
  exact dif_pos hfits

example : ((Scratch.reserved 6).append 4 0x04030201).bind (·.append 4 0) = .error .capacity := rfl

theorem WordRange.checkedWindow_eq {range : WordRange} {fetched : List UInt32} {place : List UInt8}
    (hplace : place.length = range.len)
    (h : range.skip + range.len ≤ (range.gathered fetched).length) :
    range.checkedWindow (range.gathered fetched) place = .ok (range.window fetched) := by
  rw [checkedWindow, hplace, Checked.part_of_le h]
  exact Checked.copied_of_eq ((range.length_window h).trans hplace.symm)

namespace Generation

/-- **The words of a plan fit in what was reserved for them.** So to gather them and go on is to
fetch them and go on, if that is so with all of them and with a failure. -/
theorem checkedGather_bind {g : Generation} {t : Timing} {range : WordRange}
    (hle : range.wordSize.toNat ≤ 4) {addresses : List UInt32}
    (hreach : ∀ a ∈ addresses, g.Reaches a) {scratch : Scratch} {fetched : List UInt32}
    (hbytes : scratch.bytes = range.gathered fetched.reverse)
    (hroom : (fetched.length + addresses.length) * range.wordSize.toNat ≤ scratch.capacity)
    {β : Type} {f : Except Failure (List UInt8) → Checked β} {f' : Harvest → Program β}
    (hall : ∀ words : List UInt32, words.length = fetched.length + addresses.length →
      f (.ok (range.gathered words)) = Checked.sound (f' ⟨words, none⟩))
    (hfailed : ∀ words failure,
      f (.error failure) = Checked.sound (f' ⟨words, some failure⟩)) :
    g.checkedGather t range.wordSize scratch addresses >>= f =
      Checked.sound (gather (g.fetch t) fetched addresses >>= f') := by
  -- on the words that are left; the scratch holds those so far, and has room for the others
  induction addresses generalizing scratch fetched with
  | nil =>
    rw [checkedGather, pure_bind, hbytes]
    exact hall fetched.reverse (by simp)
  | cons address addresses ih =>
    rw [checkedGather, gather, checkedFetch_eq t (hreach address (by simp)), bind_assoc, bind_assoc]
    refine Checked.sound_bind fun result => ?_
    cases result with
    | error failure => exact hfailed fetched.reverse failure
    | ok word =>
      have hnext : (fetched.reverse.length + 1) * range.wordSize.toNat ≤ scratch.capacity := by
        refine (Nat.mul_le_mul_right _ ?_).trans hroom
        simp
      obtain ⟨scratch', happend, hbytes', hcapacity⟩ := Scratch.exists_append hle hbytes hnext word
      have hlength : fetched.length + (address :: addresses).length =
          (word :: fetched).length + addresses.length := by
        simp only [List.length_cons]
        omega
      rw [hlength] at hroom hall
      simp only [happend, Checked.ok_bind]
      exact ih (fun a h => hreach a (List.mem_cons_of_mem _ h)) (by simpa using hbytes')
        (hcapacity ▸ hroom) hall

section

variable {g : Generation} {t : Timing} {offset last : UInt32} {len : Nat}
  (hlast : offset.toNat + len = last.toNat)
  (hreach : ∀ a ∈ (WordRange.widen offset last len g.wordSize).words, g.Reaches a)
  {scratch : Scratch} (hempty : scratch.bytes = [])
  (hroom : g ≠ .one → (WordRange.widen offset last len g.wordSize).words.length *
    g.wordSize.toNat ≤ scratch.capacity) {place : List UInt8} (hplace : place.length = len)

include hlast hreach hempty hroom hplace

theorem checkedCollect_eq :
    g.checkedCollect t (.widen offset last len g.wordSize) scratch place =
      Checked.sound (g.collect t (.widen offset last len g.wordSize)) := by
  cases g with
  | one =>
    have hlength : (WordRange.widen offset last len one.wordSize).words.length = place.length :=
      (WordRange.length_words_widen_one hlast).trans hplace.symm
    rw [checkedCollect, collect, List.map_fst_zip hlength.le]
  | two | three =>
    have hcapacity := hroom (by decide)
    refine checkedGather_bind (wordSize_le _) hreach hempty ?_ (fun words hwords => ?_)
      fun words failure => rfl
    · rwa [List.length_nil, Nat.zero_add]
    · have hall := hwords.trans (Nat.zero_add _)
      have hinside := WordRange.skip_add_len_le_gathered hlast (wordSize_pos _) (wordSize_le _) hall
      dsimp only
      rw [WordRange.checkedWindow_eq hplace hinside, Checked.ok_bind]
      rfl

/-- **A planned read breaks off nowhere.** -/
theorem checkedExecute_eq :
    g.checkedExecute t (.widen offset last len g.wordSize) scratch place =
      Checked.sound (g.execute t (.widen offset last len g.wordSize)) := by
  rw [checkedExecute, execute, checkedCollect_eq hlast hreach hempty hroom hplace]
  cases g.latch? with
  | none => rfl
  | some latch =>
    refine Checked.sound_bind fun failure => ?_
    cases failure with
    | some failure => rfl
    | none => exact Checked.mk_withUserMode t _

end

end Generation

/-! ### Reads -/

namespace Controller

variable {c : Controller} {offset : UInt32} {buffer : List UInt8}

section

variable {g : Generation} {last : UInt32} {len : Nat} (hlast : offset.toNat + len = last.toNat)
  (hreach : ∀ a ∈ (WordRange.widen offset last len g.wordSize).words, g.Reaches a)
  {scratch : Scratch} (hempty : scratch.bytes = [])
  (hroom : g ≠ .one → (WordRange.widen offset last len g.wordSize).words.length *
    g.wordSize.toNat ≤ scratch.capacity)

include hlast hreach hempty hroom

theorem checkedTransact_eq (hlen : len ≤ buffer.length) :
    c.checkedTransact g (.widen offset last len g.wordSize) scratch buffer =
      Checked.sound (c.transact g (.widen offset last len g.wordSize)) := by
  have hpart : Checked.part buffer 0 (WordRange.widen offset last len g.wordSize).len =
      .ok (buffer.take len) :=
    Checked.part_of_le ((Nat.zero_add len).trans_le hlen)
  have hplace : (buffer.take len).length = len := List.length_take_of_le hlen
  rw [checkedTransact, hpart, Checked.ok_bind,
    Generation.checkedExecute_eq hlast hreach hempty hroom hplace]
  exact Checked.mk_withClocks _ _ _

end

/-- **A read breaks off nowhere**: put together from checked operations it is the read itself. -/
theorem checkedRead_eq (c : Controller) (memory : Memory) (offset : UInt32) (buffer : List UInt8) :
    c.checkedRead memory offset buffer = Checked.sound (c.readWith memory offset buffer) := by
  rw [checkedRead, readWith]
  cases c.descriptor.generation with
  | none => rfl
  | some g =>
    refine Checked.sound_bind fun _ => ?_
    rw [Generation.checkedPlan_eq, Checked.ok_bind]
    cases hplan : g.plan c.size offset buffer.length with
    | error refusal => exact Checked.sound_bind fun _ => rfl
    | ok range =>
      -- a plan is a cover of what is granted, and no more is granted than the buffer holds
      have ha := Generation.accepts_of_plan hplan
      obtain ⟨last, hlast, hplan', hreach⟩ := Generation.exists_plan ha
      obtain rfl := Except.ok.inj (hplan.symm.trans hplan')
      have hcover := WordRange.leastCover_widen hlast g.wordSize_pos
      dsimp only
      rw [Generation.reserve_eq hcover, Checked.ok_bind]
      cases memory.grants (g.scratch (.widen offset last _ g.wordSize)) with
      | false => exact Checked.sound_bind fun _ => rfl
      | true =>
        simp only [if_true]
        rw [checkedTransact_eq hlast hreach (Scratch.bytes_reserved (g.scratch _))
          (fun hg => Generation.le_scratch hg hcover) (g.granted_le _ _ _)]
        exact Checked.sound_bind fun _ => rfl

end Controller

/-- **A read never comes to an operation that is not defined**: not where it plans and reserves
memory, nor where it addresses a word, gathers its bytes, or copies the window to the front of the
buffer, whatever memory is granted and whatever the hardware answers. -/
theorem checked_read_is_read (c : Controller) (memory : Memory) (offset : UInt32)
    (buffer : List UInt8) {σ : Type} (b : Board σ) (s : σ) :
    let r := (c.readWith memory offset buffer).run b s
    (c.checkedRead memory offset buffer).run.run b s = ⟨.ok r.value, r.state, r.trace, r.log⟩ := by
  intro r
  rw [Controller.checkedRead_eq, Checked.run_sound, Program.run_bind]
  simp [Record.andThen, Record.still, r]

end FuseBank
