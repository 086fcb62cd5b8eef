import FuseBank.Register

/-!
# Control words of the sequencer

A control word holds a word address in its upper half and the number of words to
fetch in the byte below it; the lowest byte is not used. Writing one field leaves
the others as they were.
-/

namespace FuseBank

/-- What is written to the sequencer's control register. -/
structure ControlWord where
  /-- The register's bits. -/
  bits : UInt32
  deriving DecidableEq, Repr

namespace ControlWord

/-- The word address: the upper half. -/
def address (c : ControlWord) : UInt16 := (c.bits >>> 16).toUInt16

/-- The number of words to fetch: the byte below the address. -/
def burst (c : ControlWord) : UInt8 := (c.bits >>> 8).toUInt8

/-- Replaces the word address. -/
def setAddress (c : ControlWord) (address : UInt16) : ControlWord :=
  { bits := (c.bits &&& (0x0000ffff : UInt32)) ||| (address.toUInt32 <<< 16) }

/-- Replaces the number of words to fetch. -/
def setBurst (c : ControlWord) (burst : UInt8) : ControlWord :=
  { bits := (c.bits &&& (0xffff00ff : UInt32)) ||| (burst.toUInt32 <<< 8) }

/-- The control word that fetches one word at `address`. -/
def fetchAt (address : UInt16) : ControlWord :=
  ((⟨0⟩ : ControlWord).setAddress address).setBurst Register.Sequencer.burst.toUInt8

/-- A control word as a line of text: its bits, then its two fields. -/
def text (c : ControlWord) : String :=
  "Ctrl \x7b .0: " ++ toString c.bits.toNat ++ ", addr: " ++ toString c.address.toNat ++
    ", burst: " ++ toString c.burst.toNat ++ " \x7d"

/-! ### The fields are independent -/

/-- The address that was written is read back. -/
@[simp] theorem address_setAddress (c : ControlWord) (a : UInt16) :
    (c.setAddress a).address = a := by
  have cleared : ∀ i : Fin 16, BitVec.getLsbD (65535#32) (i + 16) = false := by decide
  apply UInt16.toBitVec_inj.1
  ext i hi
  have := cleared ⟨i, hi⟩
  simp only [address, setAddress]
  simp
  grind

@[simp] theorem address_setBurst (c : ControlWord) (n : UInt8) :
    (c.setBurst n).address = c.address := by
  have kept : ∀ i : Fin 16, BitVec.getLsbD (4294902015#32) (i + 16) = true := by decide
  apply UInt16.toBitVec_inj.1
  ext i hi
  have := kept ⟨i, hi⟩
  simp only [address, setBurst]
  simp
  grind

/-- The sequencer fetches at the address that was asked for. -/
@[simp] theorem address_fetchAt (a : UInt16) : (fetchAt a).address = a := by
  simp [fetchAt]

/-- The address is above the number of words. -/
theorem bits_fetchAt (a : UInt16) : (fetchAt a).bits = (a.toUInt32 <<< 16) ||| 0x100 := by
  have kept : ∀ i : Fin 32, 16 ≤ i.val → BitVec.getLsbD (4294902015#32) i = true := by decide
  apply UInt32.toBitVec_inj.1
  ext i hi
  have := kept ⟨i, hi⟩
  simp only [fetchAt, setAddress, setBurst]
  simp [Register.Sequencer.burst]
  grind

@[simp] theorem burst_fetchAt (a : UInt16) : (fetchAt a).burst = 1 := by
  have one : ∀ i : Fin 8, BitVec.getLsbD (256#32) (8 + i.val) = BitVec.getLsbD (1#8) i := by
    decide
  rw [burst, bits_fetchAt]
  apply UInt8.toBitVec_inj.1
  ext i hi
  have := one ⟨i, hi⟩
  simp at this ⊢
  grind

theorem lowest_fetchAt (a : UInt16) : (fetchAt a).bits &&& 0xff = 0 := by
  have unused : ∀ i : Fin 32, (BitVec.getLsbD (256#32) i && BitVec.getLsbD (255#32) i) = false ∧
      (16 ≤ i.val → BitVec.getLsbD (255#32) i = false) := by
    decide
  rw [bits_fetchAt]
  apply UInt32.toBitVec_inj.1
  ext i hi
  have := unused ⟨i, hi⟩
  simp at this ⊢
  grind

end ControlWord

end FuseBank
