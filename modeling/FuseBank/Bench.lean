import FuseBank.Board
import FuseBank.Window

/-!
# Test benches

A bench puts a register block on a board, together with clocks and a reset line that
can be told to refuse. Delays take no time.
-/

namespace FuseBank

/-- What a bench is told to refuse. -/
structure Bench.Refusals where
  /-- Refuse to switch the clocks on. -/
  clocks : Bool := false
  /-- Refuse to assert the reset line. -/
  assert : Bool := false
  /-- Refuse to release the reset line. -/
  release : Bool := false
  deriving DecidableEq, Repr

/-- A register block on a bench. -/
structure Bench (π : Type) where
  /-- The register block. -/
  block : π
  /-- What is refused. -/
  refusals : Bench.Refusals := {}
  deriving DecidableEq, Repr

namespace Bench

/-- How a bench is wired up. -/
structure Wiring where
  /-- Whether the register block reads byte lanes in its own way. -/
  byteLane : Bool := false
  /-- Whether there is a reset line. -/
  resetLine : Bool := true
  deriving DecidableEq, Repr

/-- A bench as a board. -/
def board {π : Type} [RegisterBlock π] (w : Wiring) : Board (Bench π) where
  read offset b :=
    let r := RegisterBlock.read offset b.block
    (r.1, { b with block := r.2 })
  lane :=
    if w.byteLane then
      some fun offset b =>
        let r := RegisterBlock.lane offset b.block
        (r.1, { b with block := r.2 })
    else none
  write offset value b := { b with block := RegisterBlock.write offset value b.block }
  delay _ b := b
  enableClocks _ b := (!b.refusals.clocks, b)
  disableClocks _ b := b
  reset :=
    if w.resetLine then
      some
        { assert := fun b => (!b.refusals.assert, b)
          release := fun b => (!b.refusals.release, b) }
    else none

end Bench

end FuseBank
