import FuseBank.Proofs.Planning
import Mathlib.Data.List.Intervals
import Mathlib.Order.Interval.Set.LinearOrder

/-!
# The least cover of a request

The words of a request are those that have a byte in common with it. A request without bytes has
none in common with any word; it is covered by the word that its offset lies within, and by no word
where the offset lies between two. What is fetched besides the request is less than a word at
either end, and neither the words nor their bytes are ever too many to be counted in the bits that
there are.

This holds for words of every size, also where a word is longer than the request, or than the
addresses below the request (`WordRange.LeastCover`).

## Main statements

* `WordRange.mem_wordsBetween_iff`: the words between the two ends, rounded, of a request.
* `cover_is_least`: which requests have a cover, and what it is.
-/

namespace FuseBank

open Set

namespace WordRange

/-- The words from the first end of a request, rounded down, up to the second, rounded up, are those
that begin before the second end and end after the first. -/
theorem mem_wordsBetween_iff {size : Nat} (hsize : 0 < size) (offset len w : Nat) :
    w ∈ Ico (offset / size) ((offset + len) ⌈/⌉ size) ↔
      offset < (w + 1) * size ∧ w * size < offset + len := by
  have hstart : offset / size ≤ w ↔ offset < (w + 1) * size := by
    rw [← Nat.div_lt_iff_lt_mul hsize, Nat.lt_succ_iff]
  have hstop : w < (offset + len) ⌈/⌉ size ↔ w * size < offset + len := by
    rw [← Nat.not_le, ceilDiv_le_iff_le_mul hsize, Nat.not_le, Nat.mul_comm]
  rw [mem_Ico, hstart, hstop]

theorem mem_wordsBetween_iff_nonempty {size : Nat} (hsize : 0 < size) {offset len : Nat}
    (hlen : 0 < len) (w : Nat) : w ∈ Ico (offset / size) ((offset + len) ⌈/⌉ size) ↔
      (Ico (w * size) ((w + 1) * size) ∩ Ico offset (offset + len)).Nonempty := by
  have hword : w * size < (w + 1) * size := Nat.mul_lt_mul_of_pos_right (Nat.lt_succ_self w) hsize
  have hrequest : offset < offset + len := Nat.lt_add_of_pos_right hlen
  rw [mem_wordsBetween_iff hsize, Ico_inter_Ico, nonempty_Ico, sup_lt_iff, lt_inf_iff, lt_inf_iff]
  tauto

theorem mem_wordsBetween_iff_of_empty {size : Nat} (hsize : 0 < size) (offset w : Nat) :
    w ∈ Ico (offset / size) ((offset + 0) ⌈/⌉ size) ↔
      ¬ size ∣ offset ∧ offset ∈ Ico (w * size) ((w + 1) * size) := by
  rw [mem_wordsBetween_iff hsize, mem_Ico, Nat.add_zero]
  constructor
  · rintro ⟨hbefore, hafter⟩
    refine ⟨?_, hafter.le, hbefore⟩
    rintro ⟨q, rfl⟩
    rw [Nat.mul_comm size q] at hbefore hafter
    have hlt := Nat.lt_of_mul_lt_mul_right hbefore
    have hgt := Nat.lt_of_mul_lt_mul_right hafter
    omega
  · rintro ⟨hdvd, hle, hlt⟩
    exact ⟨hlt, lt_of_le_of_ne hle fun heq => hdvd ⟨w, heq.symm.trans (Nat.mul_comm w size)⟩⟩

/-- The range is the least run of words of `size` bytes that covers `len` bytes at `offset`, and its
numbers are what they are when they are counted without a limit. -/
structure LeastCover (r : WordRange) (size offset len : Nat) : Prop where
  /-- The words end where they begin, or after that. -/
  start_le_stop : r.start.toNat ≤ r.stop.toNat
  /-- They are fetched in ascending order. -/
  words : r.words.map UInt32.toNat = List.Ico r.start.toNat r.stop.toNat
  /-- A word is fetched exactly if it has a byte in common with the request. -/
  mem_iff : 0 < len → ∀ w, w ∈ Ico r.start.toNat r.stop.toNat ↔
    (Ico (w * size) ((w + 1) * size) ∩ Ico offset (offset + len)).Nonempty
  /-- Without a request it is fetched exactly if the offset lies within it. -/
  mem_iff_of_empty : len = 0 → ∀ w, w ∈ Ico r.start.toNat r.stop.toNat ↔
    ¬ size ∣ offset ∧ offset ∈ Ico (w * size) ((w + 1) * size)
  /-- The request begins after the bytes that are skipped. -/
  start_mul_add_skip : r.start.toNat * size + r.skip = offset
  /-- Less than a word is skipped. -/
  skip_lt : r.skip < size
  /-- As many bytes are delivered as were requested. -/
  len_eq : r.len = len
  /-- The words are counted without a carry. -/
  start_add_wordCount : r.start.toNat + r.wordCount.toNat = r.stop.toNat
  /-- So are their bytes. -/
  scratchLength_eq : r.scratchLength.toNat = r.wordCount.toNat * size
  /-- The words hold the request. -/
  skip_add_len_le : r.skip + len ≤ r.scratchLength.toNat
  /-- What they hold besides is less than a word at either end. -/
  scratchLength_lt : r.scratchLength.toNat < len + 2 * size

section

variable {offset last wordSize : UInt32} {len : Nat} (hlast : offset.toNat + len = last.toNat)
  (hsize : 0 < wordSize.toNat)

theorem toNat_scratchLength (r : WordRange) :
    r.scratchLength.toNat = r.wordCount.toNat * r.wordSize.toNat := by
  have hcount := r.wordCount.toNat_lt
  have hsize := r.wordSize.toNat_lt
  rw [scratchLength, UInt64.toNat_mul, UInt32.toNat_toUInt64, UInt32.toNat_toUInt64,
    Nat.mod_eq_of_lt]
  calc r.wordCount.toNat * r.wordSize.toNat
      ≤ (2 ^ 32 - 1) * (2 ^ 32 - 1) := Nat.mul_le_mul (by omega) (by omega)
    _ < 2 ^ 64 := by decide

include hlast hsize

/-- **A request that is rounded outwards** gets its least cover. -/
theorem leastCover_widen :
    (widen offset last len wordSize).LeastCover wordSize.toNat offset.toNat len := by
  have hstart := toNat_start offset last len wordSize
  have hstop := toNat_stop hlast hsize
  have hcount := toNat_wordCount hlast hsize
  have hle := start_le_stop hlast hsize
  have hskip := skip_widen offset last len wordSize
  have hscratch := toNat_scratchLength (widen offset last len wordSize)
  have hoffset := Nat.div_add_mod' offset.toNat wordSize.toNat
  have hmod := Nat.mod_lt offset.toNat hsize
  constructor
  case start_le_stop => rwa [hstart, hstop]
  case words =>
    rw [words_widen hlast hsize, hstart, hstop, List.map_map]
    exact List.map_congr_left (fun a ha =>
      UInt32.toNat_ofNat_of_lt' (lt_of_mem_span hlast hsize ha)) |>.trans (List.map_id _)
  case mem_iff =>
    intro hlen w
    rw [hstart, hstop]
    exact mem_wordsBetween_iff_nonempty hsize hlen w
  case mem_iff_of_empty =>
    rintro rfl w
    rw [hstart, hstop]
    exact mem_wordsBetween_iff_of_empty hsize offset.toNat w
  case start_mul_add_skip => rw [hstart, hskip, hoffset]
  case skip_lt => rwa [hskip]
  case len_eq => rfl
  case start_add_wordCount => rw [hstart, hstop, hcount, Nat.add_sub_cancel' hle]
  case scratchLength_eq => exact hscratch
  case skip_add_len_le =>
    rw [hscratch, Nat.mul_comm]
    exact skip_add_len_le hlast hsize
  case scratchLength_lt =>
    have hup := mul_ceilDiv_lt (offset.toNat + len) hsize
    have hbytes : (widen offset last len wordSize).scratchLength.toNat =
        wordSize.toNat * ((offset.toNat + len) ⌈/⌉ wordSize.toNat) -
          offset.toNat / wordSize.toNat * wordSize.toNat := by
      rw [hscratch, hcount, Nat.mul_comm, Nat.mul_comm _ wordSize.toNat]
      exact Nat.mul_sub _ _ _
    omega

end

end WordRange

theorem Generation.cover_eq (g : Generation) (offset : UInt32) (len : Nat) :
    g.cover offset len =
      (WordRange.cover offset len g.wordSize).mapError fun _ => .wraps len offset := by
  have hsize : g.wordSize ≠ 0 := by cases g <;> decide
  rw [Generation.cover, WordRange.cover]
  cases endAddress? offset len with
  | none => rfl
  | some last => simp [hsize, Except.mapError]

/-- **The cover of a request is the least.** A request has a cover unless it runs beyond the 32-bit
address space, for words of any size but zero, and the cover consists of the words that have a byte
in common with it. -/
theorem cover_is_least (offset : UInt32) (len : Nat) {wordSize : UInt32} (hsize : wordSize ≠ 0) :
    (WordRange.cover offset len wordSize = .error .wraps ↔ 2 ^ 32 ≤ offset.toNat + len) ∧
      (offset.toNat + len < 2 ^ 32 → ∃ r, WordRange.cover offset len wordSize = .ok r ∧
        r.LeastCover wordSize.toNat offset.toNat len) := by
  have hpos : 0 < wordSize.toNat :=
    Nat.pos_of_ne_zero fun h => hsize (UInt32.toNat_inj.1 (by simpa using h))
  constructor
  · show _ ↔ UInt32.size ≤ offset.toNat + len
    rw [← endAddress?_eq_none_iff, WordRange.cover]
    cases endAddress? offset len <;> simp [hsize]
  · intro hlt
    have hlast : (UInt32.ofNat (offset.toNat + len)).toNat = offset.toNat + len :=
      UInt32.toNat_ofNat_of_lt' hlt
    refine ⟨.widen offset _ len wordSize, ?_, WordRange.leastCover_widen hlast.symm hpos⟩
    rw [WordRange.cover, endAddress?_eq_some_iff.2 hlast.symm]
    simp [hsize]

/-- Words of almost all the bytes that there are. A byte below the last is in one of them, and the
byte before the end of the addresses is in none that could be counted. -/
theorem cover_is_least_long_words :
    WordRange.cover 0xfffffffe 2 0xffffffff = .error .wraps ∧
      ∃ r, WordRange.cover 0xfffffffe 1 0xffffffff = .ok r ∧
        r.LeastCover (0xffffffff : UInt32).toNat (0xfffffffe : UInt32).toNat 1 := by
  have hsize : (0xffffffff : UInt32) ≠ 0 := by decide
  obtain ⟨hwraps, -⟩ := cover_is_least 0xfffffffe 2 hsize
  obtain ⟨-, hcover⟩ := cover_is_least 0xfffffffe 1 hsize
  exact ⟨hwraps.2 (by decide), hcover (by decide)⟩

end FuseBank
