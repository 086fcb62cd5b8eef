import FuseBank.LittleEndian

/-!
# Register blocks and memory windows

A register block answers word accesses. It may have a way of its own to read the
lowest byte lane of a register: then it puts a word on the bus, of which the lowest
byte counts. By default that is the whole register.

A block may be accessed through a reference to it. Then every access is handed on, and
so is one to a byte lane: it is not replaced by a read of the whole register.

## Memory windows

A window is a stretch of memory that is accessed as registers: 32-bit words at
offsets that are multiples of four. It belongs to a little-endian target, which lays
each word out with its least significant byte first. So the byte at the offset of a
register is the register's lowest lane, and it is read alone. On a target that lays
words out the other way round, a load of that byte would yield the highest lane.

## Main statements

* `byteAt_store`: storing a word changes its four bytes and no other.
* `wordAt_store_self`, `wordAt_store_of_disjoint`: so the word is read back, and words that
  have no byte in common with it stay as they are.
* `toUInt8_wordAt`: the lowest lane of a register is its first byte.
-/

namespace FuseBank

/-- What a register block answers, and how it changes. -/
class RegisterBlock (π : Type) where
  /-- Reads the register at an offset. -/
  read : Nat → π → UInt32 × π
  /-- Writes the register at an offset. -/
  write : Nat → UInt32 → π → π
  /-- Reads the lowest byte lane of the register at an offset. -/
  lane : Nat → π → UInt32 × π := read

/-- A register block behind a reference. -/
@[reducible] def RegisterBlock.behindReference {π : Type} (block : RegisterBlock π) :
    RegisterBlock π where
  read offset := block.read offset
  write offset value := block.write offset value
  lane offset := block.lane offset

/-- The register at `offset` lies in a window of `length` bytes. -/
structure Register.LiesIn (offset length : Nat) : Prop where
  /-- It is aligned. -/
  aligned : offset % 4 = 0
  /-- Its four bytes are all there. -/
  within : offset + 4 ≤ length

instance (offset length : Nat) : Decidable (Register.LiesIn offset length) :=
  decidable_of_iff (offset % 4 = 0 ∧ offset + 4 ≤ length)
    ⟨fun h => ⟨h.1, h.2⟩, fun h => ⟨h.aligned, h.within⟩⟩

/-- A stretch of memory. -/
structure Window where
  /-- The bytes, from the lowest address on. -/
  bytes : Array UInt8
  deriving DecidableEq, Repr

namespace Window

/-- A window over so many bytes of zeros. -/
def zeros (length : Nat) : Window := ⟨Array.replicate length 0⟩

/-- How many bytes a window has. -/
def length (w : Window) : Nat := w.bytes.size

/-- Whether a window has no bytes. -/
def isEmpty (w : Window) : Bool := w.bytes.isEmpty

/-- The byte at an offset. -/
def byteAt (w : Window) (offset : Nat) : UInt8 := w.bytes.getD offset 0

/-- The four bytes from an offset on. -/
def cell (w : Window) (offset : Nat) : List UInt8 :=
  [w.byteAt offset, w.byteAt (offset + 1), w.byteAt (offset + 2), w.byteAt (offset + 3)]

/-- The word at an offset. -/
def wordAt (w : Window) (offset : Nat) : UInt32 :=
  LittleEndian.word (w.byteAt offset) (w.byteAt (offset + 1)) (w.byteAt (offset + 2))
    (w.byteAt (offset + 3))

/-- Stores a byte. -/
def storeByte (w : Window) (offset : Nat) (byte : UInt8) : Window :=
  ⟨w.bytes.setIfInBounds offset byte⟩

/-- Stores a word, byte by byte. -/
def store (w : Window) (offset : Nat) (word : UInt32) : Window :=
  (((w.storeByte offset (LittleEndian.byte word 0)).storeByte (offset + 1)
    (LittleEndian.byte word 1)).storeByte (offset + 2) (LittleEndian.byte word 2)).storeByte
    (offset + 3) (LittleEndian.byte word 3)

/-- The offsets and values of the registers that are not zero, in ascending order. -/
def nonzeroWords (w : Window) : List (Nat × UInt32) :=
  (List.range ((w.length + 3) / 4)).filterMap fun i =>
    let word := w.wordAt (4 * i)
    if word = 0 then none else some (4 * i, word)

/-- A window is a register block with a byte lane of its own. -/
instance : RegisterBlock Window where
  read offset w := (w.wordAt offset, w)
  write offset word w := w.store offset word
  lane offset w := ((w.byteAt offset).toUInt32, w)

@[simp] theorem length_storeByte (w : Window) (offset : Nat) (byte : UInt8) :
    (w.storeByte offset byte).length = w.length := by
  simp [length, storeByte]

@[simp] theorem length_store (w : Window) (offset : Nat) (word : UInt32) :
    (w.store offset word).length = w.length := by
  simp [store]

theorem byteAt_storeByte (w : Window) (offset i : Nat) (byte : UInt8) (h : i < w.length) :
    (w.storeByte offset byte).byteAt i = if i = offset then byte else w.byteAt i := by
  simp only [length] at h
  by_cases hi : i = offset
  · subst hi
    simp [byteAt, storeByte, h]
  · simp [byteAt, storeByte, hi, Ne.symm hi]

/-- **Storing a word changes its four bytes and no other.** -/
theorem byteAt_store {w : Window} {offset i : Nat} (word : UInt32) (hi : i < w.length) :
    (w.store offset word).byteAt i =
      if offset ≤ i ∧ i < offset + 4 then LittleEndian.byte word (i - offset)
      else w.byteAt i := by
  simp only [store, byteAt_storeByte, length_storeByte, hi]
  grind

/-- The word that was stored is read back. -/
theorem wordAt_store_self {w : Window} {offset : Nat} (word : UInt32)
    (h : offset + 4 ≤ w.length) : (w.store offset word).wordAt offset = word := by
  simp only [wordAt]
  rw [byteAt_store word (by omega), byteAt_store word (by omega), byteAt_store word (by omega),
    byteAt_store word (by omega)]
  simpa using LittleEndian.word_byte word

/-- Words elsewhere stay as they are. -/
theorem wordAt_store_of_disjoint {w : Window} {offset other : Nat} (word : UInt32)
    (h : other + 4 ≤ w.length) (hdisjoint : other + 4 ≤ offset ∨ offset + 4 ≤ other) :
    (w.store offset word).wordAt other = w.wordAt other := by
  have hkept : ∀ i, other ≤ i → i < other + 4 →
      (w.store offset word).byteAt i = w.byteAt i := by
    intro i hlow hhigh
    rw [byteAt_store word (by omega), if_neg (by omega)]
  simp only [wordAt]
  rw [hkept other, hkept (other + 1), hkept (other + 2), hkept (other + 3)] <;> omega

theorem bytes_wordAt (w : Window) (offset : Nat) :
    LittleEndian.bytes (w.wordAt offset) = w.cell offset :=
  LittleEndian.bytes_word ..

/-- The lowest lane of a register is its first byte. -/
theorem toUInt8_wordAt (w : Window) (offset : Nat) :
    (w.wordAt offset).toUInt8 = w.byteAt offset := by
  have h := congrArg List.head? (w.bytes_wordAt offset)
  simpa [LittleEndian.bytes, cell] using h

end Window

end FuseBank
