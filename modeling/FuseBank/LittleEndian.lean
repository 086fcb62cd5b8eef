/-!
# Little-endian words

A 32-bit word is laid out as four bytes, the least significant first.

## Main statements

* `word_byte`: a word is made up of its bytes.
* `byte_zero`: the first byte is what narrowing a word to 8 bits keeps.
-/

namespace FuseBank.LittleEndian

/-- The byte of a word that comes `i`-th, counted from the least significant. -/
def byte (word : UInt32) (i : Nat) : UInt8 := UInt8.ofNat (word.toNat >>> (8 * i))

/-- The bytes of a word, the least significant first. -/
def bytes (word : UInt32) : List UInt8 :=
  [byte word 0, byte word 1, byte word 2, byte word 3]

/-- The word that four bytes make up, the least significant first. -/
def word (b₀ b₁ b₂ b₃ : UInt8) : UInt32 :=
  UInt32.ofNat (b₀.toNat + 256 * b₁.toNat + 65536 * b₂.toNat + 16777216 * b₃.toNat)

theorem toNat_byte (w : UInt32) (i : Nat) : (byte w i).toNat = w.toNat >>> (8 * i) % 256 := by
  simp [byte]

theorem toNat_word (b₀ b₁ b₂ b₃ : UInt8) :
    (word b₀ b₁ b₂ b₃).toNat =
      b₀.toNat + 256 * b₁.toNat + 65536 * b₂.toNat + 16777216 * b₃.toNat := by
  have := b₀.toNat_lt
  have := b₁.toNat_lt
  have := b₂.toNat_lt
  have := b₃.toNat_lt
  simp only [word, UInt32.toNat_ofNat']
  omega

@[simp] theorem length_bytes (w : UInt32) : (bytes w).length = 4 := rfl

/-- The first byte is what narrowing a word to 8 bits keeps. -/
@[simp] theorem byte_zero (w : UInt32) : byte w 0 = w.toUInt8 := by
  apply UInt8.toNat_inj.1
  simp [toNat_byte]

/-- A word is made up of its bytes. -/
theorem word_byte (w : UInt32) : word (byte w 0) (byte w 1) (byte w 2) (byte w 3) = w := by
  have := w.toNat_lt
  apply UInt32.toNat_inj.1
  simp only [toNat_word, toNat_byte]
  omega

/-- The bytes of the word that four bytes make up are those bytes. -/
theorem bytes_word (b₀ b₁ b₂ b₃ : UInt8) : bytes (word b₀ b₁ b₂ b₃) = [b₀, b₁, b₂, b₃] := by
  have := b₀.toNat_lt
  have := b₁.toNat_lt
  have := b₂.toNat_lt
  have := b₃.toNat_lt
  simp only [bytes, List.cons.injEq, and_true, ← UInt8.toNat_inj, toNat_byte, toNat_word]
  omega

end FuseBank.LittleEndian
