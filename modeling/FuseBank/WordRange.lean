import FuseBank.LittleEndian

/-!
# Byte ranges widened to words

A bank is read in words, a request is for bytes. A `WordRange` is the run of words
that covers the requested bytes, with what has to be trimmed from the words once
they are there.

## The model

Addresses are 32 bits wide. A request must end within them: the address at which it
ends, `endAddress?`, is computed in 32 bits, and there is none if it does not fit.
`WordRange.widen` rounds the request outwards to whole words, and `WordRange.cover`
is the two together. `WordRange.window` goes the other way: from the words that were
read to the bytes that were asked for.

## Main statements

* `endAddress?_eq_some_iff`: a request ends where counting its bytes without a limit ends.
* `endAddress?_eq_none_iff`: it has no end exactly if its bytes run beyond 32 bits.
* `WordRange.length_window`: the words that were read make up the requested length if
  they hold that many bytes after the first ones are skipped.
-/

namespace FuseBank

/-- The address at which `len` bytes at `offset` end, if it fits in 32 bits. -/
def endAddress? (offset : UInt32) (len : Nat) : Option UInt32 :=
  if len < UInt32.size then
    let last := offset + UInt32.ofNat len
    if last < offset then none else some last
  else none

/-- A request ends where counting its bytes without a limit ends. -/
theorem endAddress?_eq_some_iff {offset last : UInt32} {len : Nat} :
    endAddress? offset len = some last ↔ offset.toNat + len = last.toNat := by
  have := offset.toNat_lt
  have := last.toNat_lt
  unfold endAddress?
  split
  · rename_i h
    have hl : (UInt32.ofNat len).toNat = len := UInt32.toNat_ofNat_of_lt' h
    simp only [UInt32.size] at h
    dsimp only
    split <;> rename_i hlt <;> rw [UInt32.lt_iff_toNat_lt, UInt32.toNat_add, hl] at hlt
    · simp only [reduceCtorEq, false_iff]
      omega
    · simp only [Option.some.injEq, ← UInt32.toNat_inj, UInt32.toNat_add, hl]
      omega
  · rename_i h
    simp only [UInt32.size] at h
    simp only [reduceCtorEq, false_iff]
    omega

/-- A request has no end exactly if its bytes run beyond 32 bits. -/
theorem endAddress?_eq_none_iff {offset : UInt32} {len : Nat} :
    endAddress? offset len = none ↔ UInt32.size ≤ offset.toNat + len := by
  constructor
  · intro h
    refine Nat.le_of_not_lt fun hlt => ?_
    have : endAddress? offset len = some (UInt32.ofNat (offset.toNat + len)) :=
      endAddress?_eq_some_iff.2 (UInt32.toNat_ofNat_of_lt' hlt).symm
    simp [h] at this
  · intro h
    cases he : endAddress? offset len with
    | none => rfl
    | some last =>
      have := endAddress?_eq_some_iff.1 he
      have := last.toNat_lt
      simp only [UInt32.size] at h
      omega

/-- The quotient rounded up. -/
def divideUp (n d : UInt32) : UInt32 :=
  if n % d = 0 then n / d else n / d + 1

/-- The words that cover a request, and the request within them. -/
structure WordRange where
  /-- The address of the first word. -/
  start : UInt32
  /-- The address after the last word. -/
  stop : UInt32
  /-- How many bytes of the first word come before the request. -/
  skip : Nat
  /-- How many bytes are requested. -/
  len : Nat
  /-- How many bytes a word has. -/
  wordSize : UInt32
  deriving DecidableEq, Repr

/-- Why a request has no cover. -/
inductive CoverError where
  /-- It ends beyond the address space. -/
  | wraps
  /-- Words of no bytes cover nothing. -/
  | zeroWordSize
  deriving DecidableEq, Repr

namespace WordRange

/-- Rounds `len` bytes from `offset` to `last` outwards to words. -/
def widen (offset last : UInt32) (len : Nat) (wordSize : UInt32) : WordRange where
  start := offset / wordSize
  stop := divideUp last wordSize
  skip := (offset % wordSize).toNat
  len := len
  wordSize := wordSize

/-- The words that cover `len` bytes at `offset`. A request that ends beyond the
address space is told before a word size of zero. -/
def cover (offset : UInt32) (len : Nat) (wordSize : UInt32) : Except CoverError WordRange :=
  match endAddress? offset len with
  | none => .error .wraps
  | some last =>
    if wordSize = 0 then .error .zeroWordSize else .ok (widen offset last len wordSize)

/-- How many words are fetched. -/
def wordCount (r : WordRange) : UInt32 := r.stop - r.start

/-- How many bytes the fetched words have. -/
def scratchLength (r : WordRange) : UInt64 := r.wordCount.toUInt64 * r.wordSize.toUInt64

/-- Whether nothing is requested. A word may be fetched all the same. -/
def isEmpty (r : WordRange) : Bool := r.len == 0

/-- The addresses of the words to fetch, in order. -/
def words (r : WordRange) : List UInt32 :=
  (List.range r.wordCount.toNat).map fun i => r.start + UInt32.ofNat i

/-- The bytes of the words that were fetched, as many of each as a word has. -/
def gathered (r : WordRange) (fetched : List UInt32) : List UInt8 :=
  fetched.flatMap fun word => (LittleEndian.bytes word).take r.wordSize.toNat

/-- The requested bytes within the words that were fetched. -/
def window (r : WordRange) (fetched : List UInt32) : List UInt8 :=
  ((r.gathered fetched).drop r.skip).take r.len

@[simp] theorem length_words (r : WordRange) : r.words.length = r.wordCount.toNat := by
  simp [words]

theorem length_gathered (r : WordRange) (fetched : List UInt32) :
    (r.gathered fetched).length = fetched.length * min r.wordSize.toNat 4 := by
  induction fetched with
  | nil => simp [gathered]
  | cons word rest ih =>
    simp only [gathered, List.flatMap_cons, List.length_append] at ih ⊢
    simp [ih, Nat.succ_mul, Nat.add_comm]

/-- If enough bytes were gathered, the window is as long as the request. -/
theorem length_window (r : WordRange) {fetched : List UInt32}
    (h : r.skip + r.len ≤ (r.gathered fetched).length) : (r.window fetched).length = r.len := by
  simp [window]
  omega

end WordRange

end FuseBank
