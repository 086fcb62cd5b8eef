import FuseBank.Generation
import FuseBank.Proofs.Cover

/-!
# Which requests are served

A request is served exactly if it is accepted, and then it is granted some bytes: all that
were asked for by the user interface, and by the sequencer no more than the bank holds. What
is planned is the cover of these bytes, and each of its words can be addressed.

## Main statements

* `Generation.plan_of_accepts`, `Generation.accepts_of_plan`: what is planned, and when.
* `Generation.length_words_of_plan_one`: generation one fetches a word for each byte.
* `Generation.lt_of_mem_span`: the words of an accepted request are within reach.
-/

namespace FuseBank.Generation

open Register

/-- How many bytes a request for `len` bytes is granted. -/
def granted (g : Generation) (size offset : UInt32) (len : Nat) : Nat :=
  match g with
  | one | two => len
  | three => min len (size.toNat - offset.toNat)

/-- The request is served: by the user interface if it ends within 32 bits, and by the
sequencer if it begins within the bank and ends with a word that a control word can hold. -/
def Accepts (g : Generation) (size offset : UInt32) (len : Nat) : Prop :=
  match g with
  | one | two => offset.toNat + len < 2 ^ 32
  | three => offset < size ∧
      offset.toNat + three.granted size offset len ≤ (0x10000 - 0x300) * 4

instance decidableAccepts (g : Generation) (size offset : UInt32) (len : Nat) :
    Decidable (g.Accepts size offset len) :=
  match g with
  | one | two => inferInstanceAs (Decidable (_ < _))
  | three => inferInstanceAs (Decidable (_ ∧ _))

theorem granted_of_user {g : Generation} (hg : g ≠ .three) (size offset : UInt32) (len : Nat) :
    g.granted size offset len = len := by
  cases g with
  | three => exact absurd rfl hg
  | _ => rfl

theorem granted_le (g : Generation) (size offset : UInt32) (len : Nat) :
    g.granted size offset len ≤ len := by
  cases g with
  | three => exact Nat.min_le_left _ _
  | _ => exact Nat.le_refl _

theorem accepts_of_user {g : Generation} (hg : g ≠ .three) (size : UInt32) {offset : UInt32}
    {len : Nat} (h : offset.toNat + len < 2 ^ 32) : g.Accepts size offset len := by
  cases g with
  | three => exact absurd rfl hg
  | _ => exact h

theorem wordSize_pos (g : Generation) : 0 < g.wordSize.toNat := by
  cases g <;> decide

theorem wordSize_le (g : Generation) : g.wordSize.toNat ≤ 4 := by
  cases g <;> decide

theorem cover_of_lt (g : Generation) {offset : UInt32} {len : Nat}
    (h : offset.toNat + len < 2 ^ 32) :
    ∃ last : UInt32, offset.toNat + len = last.toNat ∧
      g.cover offset len = .ok (.widen offset last len g.wordSize) := by
  have hlast : (UInt32.ofNat (offset.toNat + len)).toNat = offset.toNat + len :=
    UInt32.toNat_ofNat_of_lt' h
  have hend := endAddress?_eq_some_iff.2 hlast.symm
  exact ⟨_, hlast.symm, by rw [cover, hend]⟩

theorem lt_of_cover {g : Generation} {offset : UInt32} {len : Nat} {range : WordRange}
    (h : g.cover offset len = .ok range) : offset.toNat + len < 2 ^ 32 := by
  rw [← Nat.not_le]
  intro hle
  rw [cover, endAddress?_eq_none_iff.2 hle] at h
  cases h

theorem clamp_eq {size offset : UInt32} (h : offset < size) (len : Nat) :
    clamp size offset len = three.granted size offset len := by
  rw [clamp, granted, UInt32.toNat_sub_of_le _ _ (UInt32.le_of_lt h)]

theorem granted_lt {size offset : UInt32} (h : offset < size) (len : Nat) :
    offset.toNat + three.granted size offset len < 2 ^ 32 := by
  have := size.toNat_lt
  rw [UInt32.lt_iff_toNat_lt] at h
  simp only [granted]
  omega

/-- A word ends within the sequencer's addresses if the bytes in it do. -/
theorem stop_le_iff {offset last : UInt32} {len : Nat} (hlast : offset.toNat + len = last.toNat) :
    ¬ (WordRange.widen offset last len three.wordSize).stop + Sequencer.nonSecureBase >
        Sequencer.addressLimit ↔ offset.toNat + len ≤ (0x10000 - 0x300) * 4 := by
  have hstop := WordRange.toNat_stop hlast three.wordSize_pos
  have hw : three.wordSize.toNat = 4 := rfl
  rw [hw] at hstop
  have hlt := last.toNat_lt
  have hle : (offset.toNat + len) ⌈/⌉ 4 ≤ 2 ^ 30 := by
    rw [ceilDiv_le_iff_le_mul (by omega)]
    omega
  have hsum : ((WordRange.widen offset last len three.wordSize).stop +
      Sequencer.nonSecureBase).toNat = (offset.toNat + len) ⌈/⌉ 4 + 0x300 := by
    rw [UInt32.toNat_add, hstop]
    simp only [Sequencer.nonSecureBase, UInt32.reduceToNat]
    omega
  rw [gt_iff_lt, UInt32.not_lt, UInt32.le_iff_toNat_le, hsum]
  have hceil : (offset.toNat + len) ⌈/⌉ 4 ≤ 0x10000 - 0x300 ↔
      offset.toNat + len ≤ 4 * (0x10000 - 0x300) := ceilDiv_le_iff_le_mul (by omega)
  simp only [Sequencer.addressLimit, UInt32.reduceToNat]
  omega

/-- **An accepted request is planned** as the cover of the bytes that it is granted. -/
theorem plan_of_accepts {g : Generation} {size offset : UInt32} {len : Nat}
    (h : g.Accepts size offset len) :
    ∃ last : UInt32, offset.toNat + g.granted size offset len = last.toNat ∧
      g.plan size offset len =
        .ok (.widen offset last (g.granted size offset len) g.wordSize) := by
  cases g with
  | one => exact cover_of_lt one h
  | two => exact cover_of_lt two h
  | three =>
    obtain ⟨hsize, hreach⟩ := h
    obtain ⟨last, hlast, hcover⟩ := cover_of_lt three (granted_lt hsize len)
    refine ⟨last, hlast, ?_⟩
    have hle : ¬ size ≤ offset := by rw [UInt32.not_le]; exact hsize
    simp only [plan, if_neg hle, clamp_eq hsize, hcover, if_neg ((stop_le_iff hlast).2 hreach)]

/-- **Only accepted requests are planned.** -/
theorem accepts_of_plan {g : Generation} {size offset : UInt32} {len : Nat} {range : WordRange}
    (h : g.plan size offset len = .ok range) : g.Accepts size offset len := by
  cases g with
  | one => exact lt_of_cover h
  | two => exact lt_of_cover h
  | three =>
    rw [plan] at h
    split at h
    · cases h
    · rename_i hle
      have hsize : offset < size := by rwa [UInt32.not_le] at hle
      obtain ⟨last, hlast, hcover⟩ := cover_of_lt three (granted_lt hsize len)
      rw [clamp_eq hsize, hcover] at h
      dsimp only at h
      split at h
      · cases h
      · rename_i hstop
        exact ⟨hsize, (stop_le_iff hlast).1 hstop⟩

/-- **A plan of generation one has a word for each byte** that is requested. -/
theorem length_words_of_plan_one {size offset : UInt32} {len : Nat} {range : WordRange}
    (h : one.plan size offset len = .ok range) : range.words.length = len := by
  obtain ⟨last, hlast, hplan⟩ := plan_of_accepts (accepts_of_plan h)
  obtain rfl := Except.ok.inj (h.symm.trans hplan)
  exact WordRange.length_words_widen_one hlast

/-- The words of an accepted request are within the sequencer's reach. -/
theorem lt_of_mem_span {size offset : UInt32} {len a : Nat} (h : three.Accepts size offset len)
    (ha : a ∈ WordRange.span 4 offset.toNat (three.granted size offset len)) :
    a + 0x300 < 0x10000 := by
  rw [WordRange.span, List.mem_range'_1] at ha
  have hceil : (offset.toNat + three.granted size offset len) ⌈/⌉ 4 ≤ 0x10000 - 0x300 := by
    rw [ceilDiv_le_iff_le_mul (by omega)]
    exact h.2
  omega

end FuseBank.Generation
