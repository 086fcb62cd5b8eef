import FuseBank.WordRange
import Mathlib.Algebra.Order.Floor.Div

/-!
# The words of a request and the bytes in them

A request that ends within 32 bits is covered by the words from the one that its first byte
is in up to the one that its last byte is in; without a byte it is covered by the word that
its offset lies within, or by none. None of this overflows, so the words are counted here
without a limit (`WordRange.span`).

The bytes of the words that were fetched are numbered through, so byte `k` of them is a byte
of word `k / wordSize`, and the request's own bytes begin after the first `skip` of them. If
the words hold the bytes of a memory at their places, the window holds the requested bytes
of that memory (`WordRange.window_eq`).

## Main statements

* `WordRange.words_widen`: the words to fetch, counted without a limit.
* `WordRange.window_eq`: the window of the words of a memory.
-/

namespace FuseBank

theorem toNat_divideUp {n d : UInt32} (hd : 0 < d.toNat) :
    (divideUp n d).toNat = n.toNat ⌈/⌉ d.toNat := by
  have hn := n.toNat_lt
  have hdm := Nat.div_add_mod n.toNat d.toNat
  have hm := Nat.mod_lt n.toNat hd
  rw [Nat.ceilDiv_eq_add_pred_div]
  unfold divideUp
  split <;> rename_i h
  · have h0 : n.toNat % d.toNat = 0 := by simpa using congrArg UInt32.toNat h
    rw [UInt32.toNat_div]
    refine (Nat.div_eq_of_lt_le ?_ ?_).symm
    · rw [Nat.mul_comm]; omega
    · rw [Nat.add_mul, Nat.mul_comm]; omega
  · have h0 : n.toNat % d.toNat ≠ 0 := fun h0 => h (UInt32.toNat_inj.1 (by simpa using h0))
    have hq : n.toNat / d.toNat ≤ n.toNat / 2 := Nat.div_le_div_left (by omega) (by omega)
    have hs : n.toNat / d.toNat + 1 < 2 ^ 32 := by omega
    rw [UInt32.toNat_add, UInt32.toNat_div, UInt32.toNat_one, Nat.mod_eq_of_lt hs]
    refine (Nat.div_eq_of_lt_le ?_ ?_).symm
    · rw [Nat.add_mul, Nat.mul_comm]; omega
    · rw [Nat.add_mul, Nat.add_mul, Nat.mul_comm]; omega

/-- Rounding up to a multiple adds less than one unit. -/
theorem mul_ceilDiv_lt (n : Nat) {d : Nat} (hd : 0 < d) : d * (n ⌈/⌉ d) < n + d := by
  have hle := Nat.mul_div_le (n + d - 1) d
  rw [Nat.ceilDiv_eq_add_pred_div]
  omega

theorem LittleEndian.getElem?_bytes (w : UInt32) {i : Nat} (hi : i < 4) :
    (bytes w)[i]? = some (byte w i) := by
  match i, hi with
  | 0, _ | 1, _ | 2, _ | 3, _ => rfl

namespace WordRange

/-- The addresses of the words of `size` bytes that `len` bytes at `offset` are in, in
ascending order. -/
def span (size offset len : Nat) : List Nat :=
  List.range' (offset / size) ((offset + len) ⌈/⌉ size - offset / size)

theorem span_one (offset len : Nat) : span 1 offset len = List.range' offset len := by
  rw [span, Nat.ceilDiv_eq_add_pred_div, Nat.div_one, Nat.div_one, Nat.add_sub_cancel,
    Nat.add_sub_cancel_left]

theorem toNat_start (offset last : UInt32) (len : Nat) (wordSize : UInt32) :
    (widen offset last len wordSize).start.toNat = offset.toNat / wordSize.toNat := by
  simp [widen]

theorem skip_widen (offset last : UInt32) (len : Nat) (wordSize : UInt32) :
    (widen offset last len wordSize).skip = offset.toNat % wordSize.toNat := by
  simp [widen]

section

variable {offset last wordSize : UInt32} {len : Nat} (hlast : offset.toNat + len = last.toNat)
  (hsize : 0 < wordSize.toNat)

include hlast hsize

theorem toNat_stop : (widen offset last len wordSize).stop.toNat =
    (offset.toNat + len) ⌈/⌉ wordSize.toNat := by
  rw [hlast]
  exact toNat_divideUp hsize

theorem start_le_stop :
    offset.toNat / wordSize.toNat ≤ (offset.toNat + len) ⌈/⌉ wordSize.toNat := by
  rw [Nat.ceilDiv_eq_add_pred_div]
  exact Nat.div_le_div_right (by omega)

theorem toNat_wordCount : (widen offset last len wordSize).wordCount.toNat =
    (offset.toNat + len) ⌈/⌉ wordSize.toNat - offset.toNat / wordSize.toNat := by
  have hle := start_le_stop hlast hsize
  have hstart := toNat_start offset last len wordSize
  have hstop := toNat_stop hlast hsize
  rw [wordCount, UInt32.toNat_sub_of_le _ _ (by rw [UInt32.le_iff_toNat_le]; omega)]
  omega

/-- The fetched words hold the request, and what is skipped before it. -/
theorem skip_add_len_le : (widen offset last len wordSize).skip + len ≤
    wordSize.toNat * (widen offset last len wordSize).wordCount.toNat := by
  have hskip := skip_widen offset last len wordSize
  have hoffset := Nat.div_add_mod offset.toNat wordSize.toNat
  have hcover : offset.toNat + len ≤
      wordSize.toNat * ((offset.toNat + len) ⌈/⌉ wordSize.toNat) :=
    (ceilDiv_le_iff_le_mul hsize).1 (Nat.le_refl _)
  rw [hskip, toNat_wordCount hlast hsize, Nat.mul_sub]
  omega

/-- **The words to fetch, counted without a limit.** -/
theorem words_widen : (widen offset last len wordSize).words =
    (span wordSize.toNat offset.toNat len).map UInt32.ofNat := by
  have hstart := toNat_start offset last len wordSize
  have hcount := toNat_wordCount hlast hsize
  rw [words, span, List.range'_eq_map_range, List.map_map, hcount]
  refine List.map_congr_left fun i _ => ?_
  rw [Function.comp_apply, ← hstart, UInt32.ofNat_add, UInt32.ofNat_toNat]

theorem lt_of_mem_span {a : Nat} (h : a ∈ span wordSize.toNat offset.toNat len) : a < 2 ^ 32 := by
  have hstop := toNat_stop hlast hsize
  have := (widen offset last len wordSize).stop.toNat_lt
  rw [span, List.mem_range'_1] at h
  omega

end

/-- There is a word of one byte for each byte that is requested. -/
theorem length_words_widen_one {offset last : UInt32} {len : Nat}
    (hlast : offset.toNat + len = last.toNat) : (widen offset last len 1).words.length = len := by
  have hone : (1 : UInt32).toNat = 1 := rfl
  rw [words_widen hlast (by decide), List.length_map, hone, span_one, List.length_range']

/-- The bytes of the fetched words, numbered through. -/
theorem getElem?_gathered {r : WordRange} (hsize : 0 < r.wordSize.toNat)
    (hle : r.wordSize.toNat ≤ 4) (fetched : List UInt32) (k : Nat) :
    (r.gathered fetched)[k]? =
      fetched[k / r.wordSize.toNat]?.map fun w => LittleEndian.byte w (k % r.wordSize.toNat) := by
  induction fetched generalizing k with
  | nil => simp [gathered]
  | cons w rest ih =>
    have hlen : ((LittleEndian.bytes w).take r.wordSize.toNat).length = r.wordSize.toNat := by
      simpa using hle
    have hcons : r.gathered (w :: rest) =
        (LittleEndian.bytes w).take r.wordSize.toNat ++ r.gathered rest := by
      simp [gathered]
    rw [hcons]
    by_cases hk : k < r.wordSize.toNat
    · rw [List.getElem?_append_left (by omega), List.getElem?_take_of_lt hk,
        LittleEndian.getElem?_bytes w (by omega), Nat.div_eq_of_lt hk, Nat.mod_eq_of_lt hk]
      rfl
    · obtain ⟨j, rfl⟩ : ∃ j, k = j + r.wordSize.toNat := ⟨k - r.wordSize.toNat, by omega⟩
      rw [List.getElem?_append_right (by omega), hlen, Nat.add_sub_cancel, ih,
        Nat.add_div_right j hsize, Nat.add_mod_right, List.getElem?_cons_succ]

theorem getElem?_window {r : WordRange} (hsize : 0 < r.wordSize.toNat)
    (hle : r.wordSize.toNat ≤ 4) (fetched : List UInt32) {i : Nat} (hi : i < r.len) :
    (r.window fetched)[i]? = fetched[(r.skip + i) / r.wordSize.toNat]?.map fun w =>
      LittleEndian.byte w ((r.skip + i) % r.wordSize.toNat) := by
  rw [window, List.getElem?_take_of_lt hi, List.getElem?_drop, getElem?_gathered hsize hle]

section

variable {offset last wordSize : UInt32} {len : Nat} (hlast : offset.toNat + len = last.toNat)
  (hsize : 0 < wordSize.toNat) (hle : wordSize.toNat ≤ 4) {fetched : List UInt32}
  (h : fetched.length = (widen offset last len wordSize).words.length)

include hlast hsize hle h

theorem skip_add_len_le_gathered : (widen offset last len wordSize).skip + len ≤
    ((widen offset last len wordSize).gathered fetched).length := by
  rw [length_gathered, h, length_words, Nat.mul_comm]
  exact (skip_add_len_le hlast hsize).trans
    (Nat.mul_le_mul_right _ (Nat.min_eq_left hle).ge)

theorem length_window_widen :
    ((widen offset last len wordSize).window fetched).length = len :=
  length_window _ (skip_add_len_le_gathered hlast hsize hle h)

end

/-- **The window of the words of a memory** holds the requested bytes of the memory. -/
theorem window_eq {offset last wordSize : UInt32} {len : Nat}
    (hlast : offset.toNat + len = last.toNat) (hsize : 0 < wordSize.toNat)
    (hle : wordSize.toNat ≤ 4) (value : UInt32 → UInt32) (memory : Nat → UInt8)
    (h : ∀ a ∈ span wordSize.toNat offset.toNat len, ∀ j < wordSize.toNat,
      LittleEndian.byte (value (UInt32.ofNat a)) j = memory (a * wordSize.toNat + j)) :
    let r := widen offset last len wordSize
    r.window (r.words.map value) = (List.range len).map fun i => memory (offset.toNat + i) := by
  intro r
  have hwords : r.words = (span wordSize.toNat offset.toNat len).map UInt32.ofNat :=
    words_widen hlast hsize
  have hr : r.wordSize = wordSize := rfl
  have hlen : r.len = len := rfl
  have hskip : r.skip = offset.toNat % wordSize.toNat := skip_widen offset last len wordSize
  have hoffset := Nat.div_add_mod offset.toNat wordSize.toNat
  refine List.ext_getElem? fun i => ?_
  by_cases hi : i < len
  · -- byte `i` of the request is byte `j` of word `q` of those fetched
    obtain ⟨q, hq⟩ : ∃ q, q = (r.skip + i) / wordSize.toNat := ⟨_, rfl⟩
    obtain ⟨j, hj⟩ : ∃ j, j = (r.skip + i) % wordSize.toNat := ⟨_, rfl⟩
    have hqj : wordSize.toNat * q + j = r.skip + i := by rw [hq, hj]; exact Nat.div_add_mod _ _
    have hjlt : j < wordSize.toNat := by rw [hj]; exact Nat.mod_lt _ hsize
    have hplace : (offset.toNat / wordSize.toNat + q) * wordSize.toNat + j = offset.toNat + i := by
      rw [Nat.add_mul, Nat.mul_comm _ wordSize.toNat, Nat.mul_comm q]
      omega
    have hq' : offset.toNat / wordSize.toNat + q <
        (offset.toNat + len) ⌈/⌉ wordSize.toNat := by
      rw [← Nat.not_le, ceilDiv_le_iff_le_mul hsize, Nat.mul_comm]
      omega
    have hmem : offset.toNat / wordSize.toNat + q ∈ span wordSize.toNat offset.toNat len := by
      rw [span, List.mem_range'_1]
      omega
    have hget : (r.words.map value)[q]? =
        some (value (UInt32.ofNat (offset.toNat / wordSize.toNat + q))) := by
      rw [hwords, List.getElem?_map, List.getElem?_map, span, List.getElem?_range' (by omega)]
      simp
    rw [getElem?_window (hr ▸ hsize) (hr ▸ hle) _ hi, hr, ← hq, ← hj, hget, Option.map_some,
      h _ hmem j hjlt, hplace, List.getElem?_map, List.getElem?_range hi]
    rfl
  · rw [window, hlen, List.getElem?_eq_none (by simp; omega),
      List.getElem?_eq_none (by simp; omega)]

end WordRange

end FuseBank
