import FuseBank.Window

/-!
# Scripted registers

A scripted register answers its reads by a script: a list of runs, each a value and
how many times it is read. The last run never ends. Writes change nothing, and a
register without a script reads as zero.
-/

namespace FuseBank.Bench

/-- A value, and how many more times it is read. -/
structure Run where
  /-- The value. -/
  value : UInt32
  /-- How many more times it is read. -/
  count : Nat
  deriving DecidableEq, Repr

/-- Leaves out the runs at the front that are used up, but never the last run. -/
def Run.skipUsed : List Run → List Run
  | ⟨_, 0⟩ :: next :: rest => skipUsed (next :: rest)
  | runs => runs

/-- The value that some runs yield next, and the runs after it was read. -/
def Run.next (runs : List Run) : UInt32 × List Run :=
  match skipUsed runs with
  | [] => (0, [])
  | run :: rest => (run.value, { run with count := run.count - 1 } :: rest)

/-- Registers with their runs. A register is scripted at most once. -/
structure Script where
  /-- The runs of each register, by its offset. -/
  registers : List (Nat × List Run)
  deriving DecidableEq, Repr

namespace Script

/-- The runs of a register. -/
def runs (s : Script) (offset : Nat) : List Run :=
  match s.registers.find? fun entry => entry.1 == offset with
  | some entry => entry.2
  | none => []

/-- Gives a register new runs in place of those it had. -/
def set (s : Script) (offset : Nat) (runs : List Run) : Script :=
  ⟨(offset, runs) :: s.registers.filter fun entry => entry.1 != offset⟩

/-- Gives the registers of another script its runs. -/
def merge (s other : Script) : Script :=
  other.registers.foldr (fun entry script => script.set entry.1 entry.2) s

@[simp] theorem runs_set_self (s : Script) (offset : Nat) (runs : List Run) :
    (s.set offset runs).runs offset = runs := by
  simp [set, Script.runs]

theorem runs_set_of_ne (s : Script) {offset other : Nat} (runs : List Run)
    (h : other ≠ offset) : (s.set offset runs).runs other = s.runs other := by
  have hne : (offset == other) = false := by simpa using Ne.symm h
  have kept : ∀ entry : Nat × List Run,
      decide ((entry.1 != offset) = true ∧ (entry.1 == other) = true) = (entry.1 == other) := by
    intro entry
    by_cases he : entry.1 = other
    · simp [he, h]
    · simp [he]
  simp only [set, Script.runs, List.find?_cons, hne, List.find?_filter, kept]

/-- A scripted register block. -/
instance : RegisterBlock Script where
  read offset s :=
    let next := Run.next (s.runs offset)
    (next.1, s.set offset next.2)
  write _ _ s := s

end Script

end FuseBank.Bench
