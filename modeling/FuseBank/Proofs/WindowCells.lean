import FuseBank.Bench
import FuseBank.Setup
import FuseBank.Window

/-!
# Windows are rows of cells

A memory window is made of bytes, and a register is four of them. Seen through its registers it is
a row of cells that have nothing to do with one another: a register holds the value that was
written to it last, and a byte lane shows the same value as the whole register does. So it does
not matter whether a port reads byte lanes in its own way, as a window does, or by reading the
whole register and dropping the rest.

## The model

A `Visit` is an access to a window together with how it gets there: through how many references,
one behind the other, and how byte lanes are read. What comes of it is the run of the access on
a bench (`Window.visit`), and `Window.after` is the window that a row of visits leaves.

## Main statements

* `Window.visit_eq`: what a visit shows and leaves does not depend on how it gets there.
* `Window.wordAt_after`: the word at a register after a row of visits.
* `window_is_row_of_cells`: what every visit of a row shows and leaves.
-/

namespace FuseBank

open Register

/-! ### Register blocks behind references -/

/-- A register block behind so many references, one behind the other. -/
@[reducible] def RegisterBlock.behind {π : Type} (block : RegisterBlock π) :
    Nat → RegisterBlock π
  | 0 => block
  | references + 1 => (block.behind references).behindReference

theorem RegisterBlock.behind_eq {π : Type} (block : RegisterBlock π) (references : Nat) :
    block.behind references = block := by
  induction references with
  | zero => rfl
  | succ references ih => rw [behind, ih]

/-! ### Visits -/

/-- The register that is accessed. -/
def Access.register : Access → Nat
  | read offset | readLane offset | write offset _ => offset

/-- The value that an access writes to a register, if it writes one. -/
def Access.written? (register : Nat) : Access → Option UInt32
  | write offset value => if offset = register then some value else none
  | read _ | readLane _ => none

/-- An access, and how it gets to the registers. -/
structure Visit where
  /-- The access. -/
  access : Access
  /-- Through how many references it goes. -/
  references : Nat := 0
  /-- Whether byte lanes are read in the block's own way. -/
  byteLane : Bool := true
  deriving DecidableEq, Repr

/-- What was written last to a register in a row of visits, if anything was. -/
def Visit.lastWritten? (register : Nat) (visits : List Visit) : Option UInt32 :=
  visits.reverse.findSome? fun visit => visit.access.written? register

theorem Visit.lastWritten?_cons (register : Nat) (visit : Visit) (visits : List Visit) :
    lastWritten? register (visit :: visits) =
      (lastWritten? register visits).or (visit.access.written? register) := by
  simp [lastWritten?, List.findSome?_append]

namespace Window

/-- What comes of a visit to a window. -/
def visit (w : Window) (v : Visit) : Record (Bench Window) (Option UInt32) :=
  let block := (inferInstance : RegisterBlock Window).behind v.references
  v.access.program.run (@Bench.board Window block { byteLane := v.byteLane }) ⟨w, {}⟩

/-- The window that a row of visits leaves. -/
def after (w : Window) : List Visit → Window
  | [] => w
  | v :: visits => (w.visit v).state.block.after visits

/-- **What a visit shows and leaves** does not depend on how it gets there. -/
theorem visit_eq (w : Window) (v : Visit) :
    ((w.visit v).value, (w.visit v).state.block) =
      match v.access with
      | .read register => (some (w.wordAt register), w)
      | .readLane register => (some (w.wordAt register).toUInt8.toUInt32, w)
      | .write register value => (none, w.store register value) := by
  obtain ⟨access, references, byteLane⟩ := v
  rw [visit, RegisterBlock.behind_eq]
  cases access with
  | read register | write register value =>
    simp [Access.program, Record.andThen, Record.still, Bench.board, RegisterBlock.read,
      RegisterBlock.write]
  | readLane register =>
    cases byteLane with
    | false =>
      simp [Access.program, Record.andThen, Record.still, Bus.run_readLane_of_none, Bench.board,
        RegisterBlock.read]
    | true =>
      simp [Access.program, Record.andThen, Record.still, Bus.run_readLane_of_some, Bench.board,
        RegisterBlock.lane, toUInt8_wordAt]

theorem block_visit (w : Window) (v : Visit) : (w.visit v).state.block =
    match v.access with
    | .read _ | .readLane _ => w
    | .write register value => w.store register value := by
  have h := congrArg Prod.snd (w.visit_eq v)
  cases haccess : v.access <;> simpa [haccess] using h

@[simp] theorem length_visit (w : Window) (v : Visit) :
    (w.visit v).state.block.length = w.length := by
  rw [block_visit]
  split <;> simp

/-- A register holds what a visit has written to it, and otherwise what it held before. -/
theorem wordAt_visit {w : Window} {v : Visit} {register : Nat}
    (hv : LiesIn v.access.register w.length) (h : LiesIn register w.length) :
    (w.visit v).state.block.wordAt register =
      (v.access.written? register).getD (w.wordAt register) := by
  rw [block_visit]
  cases haccess : v.access with
  | read | readLane => rfl
  | write other value =>
    rw [haccess] at hv
    by_cases heq : other = register
    · subst heq
      simp [Access.written?, wordAt_store_self value h.within]
    · -- both offsets are multiples of four, so the two registers have no byte in common
      have hdisjoint : register + 4 ≤ other ∨ other + 4 ≤ register := by
        have := h.aligned
        have : other % 4 = 0 := hv.aligned
        omega
      simp [Access.written?, heq, wordAt_store_of_disjoint value h.within hdisjoint]

/-! ### Rows of visits -/

@[simp] theorem length_after (w : Window) (visits : List Visit) :
    (w.after visits).length = w.length := by
  induction visits generalizing w with
  | nil => rfl
  | cons v visits ih => rw [after, ih, length_visit]

/-- **A register holds what was written to it last**, and what it held at first if nothing was. -/
theorem wordAt_after {w : Window} {visits : List Visit}
    (hvisits : ∀ v ∈ visits, LiesIn v.access.register w.length) {register : Nat}
    (h : LiesIn register w.length) :
    (w.after visits).wordAt register =
      (Visit.lastWritten? register visits).getD (w.wordAt register) := by
  induction visits generalizing w with
  | nil => rfl
  | cons v visits ih =>
    obtain ⟨hv, hrest⟩ := List.forall_mem_cons.1 hvisits
    rw [after, ih (by simpa using hrest) (by simpa using h), wordAt_visit hv h,
      Visit.lastWritten?_cons]
    cases Visit.lastWritten? register visits <;> rfl

end Window

/-- **A window is a row of cells**, whatever it is visited for. A visit finds in its register the
value that was written there last, or the word whose bytes stood there at first. To read shows it,
to read the byte lane shows its remainder modulo 256, and both leave the window as it is. To write
changes the four bytes of the register and no other. And it makes no difference how a visit gets
there, so a byte lane that is read alone shows what the whole register would. -/
theorem window_is_row_of_cells (w : Window) (before : List Visit) (v : Visit)
    (hlies : ∀ x ∈ before ++ [v], LiesIn x.access.register w.length) :
    let held := w.after before
    let r := held.visit v
    (∃ word : UInt32,
      (match Visit.lastWritten? v.access.register before with
        | some value => word = value
        | none => LittleEndian.bytes word = w.cell v.access.register) ∧
      match v.access with
      | .read _ => r.value = some word ∧ r.state.block = held
      | .readLane _ => r.value = some (word % 256) ∧ r.state.block = held
      | .write register value =>
        r.value = none ∧ r.state.block.length = held.length ∧
          r.state.block.cell register = LittleEndian.bytes value ∧
          ∀ i < held.length, i < register ∨ register + 4 ≤ i →
            r.state.block.byteAt i = held.byteAt i) ∧
    ∀ references byteLane, let r' := held.visit ⟨v.access, references, byteLane⟩
      r'.value = r.value ∧ r'.state.block = r.state.block := by
  intro held r
  obtain ⟨hbefore, hv⟩ := List.forall_mem_append.1 hlies
  have hregister : LiesIn v.access.register w.length := hv v (by simp)
  refine ⟨⟨held.wordAt v.access.register, ?_, ?_⟩, fun references byteLane => ?_⟩
  · rw [Window.wordAt_after hbefore hregister]
    cases Visit.lastWritten? v.access.register before with
    | some value => rfl
    | none => exact w.bytes_wordAt _
  · have hvisit := held.visit_eq v
    cases haccess : v.access with
    | read register =>
      rw [haccess] at hvisit
      exact Prod.mk.inj hvisit
    | readLane register =>
      rw [haccess] at hvisit
      rw [← UInt32.toUInt32_toUInt8]
      exact Prod.mk.inj hvisit
    | write register value =>
      rw [haccess] at hvisit hregister
      obtain ⟨hvalue, hblock⟩ := Prod.mk.inj hvisit
      have hlength : held.length = w.length := w.length_after before
      have hfits : register + 4 ≤ held.length := hlength ▸ hregister.within
      dsimp only
      rw [hblock]
      refine ⟨hvalue, held.length_store register value, ?_, fun i hi helsewhere => ?_⟩
      · rw [← Window.bytes_wordAt, Window.wordAt_store_self value hfits]
      · rw [Window.byteAt_store value hi, if_neg (by omega)]
  · have hroute := held.visit_eq ⟨v.access, references, byteLane⟩
    exact Prod.mk.inj (hroute.trans (held.visit_eq v).symm)

/-- The second of two cells is written through a reference, and then the first. Its byte lane, read
as part of the whole register, shows what was written to it. -/
theorem window_is_row_of_cells_two :
    let w : Window := ⟨#[1, 2, 3, 4, 5, 6, 7, 8]⟩
    let before : List Visit := [⟨.write 4 0xa509, 1, true⟩, ⟨.readLane 4, 0, true⟩,
      ⟨.write 0 0xffffffff, 0, true⟩]
    let v : Visit := ⟨.readLane 4, 2, false⟩
    (∀ x ∈ before ++ [v], LiesIn x.access.register w.length) ∧
      ((w.after before).visit v).value = some 0x09 ∧
      ((w.after before).visit v).state.block = w.after before := by
  intro w before v
  have hlies : ∀ x ∈ before ++ [v], LiesIn x.access.register w.length := by decide
  obtain ⟨⟨word, hword, hshown, hkept⟩, -⟩ := window_is_row_of_cells w before v hlies
  obtain rfl : word = 0xa509 := hword
  exact ⟨hlies, hshown, hkept⟩

end FuseBank
