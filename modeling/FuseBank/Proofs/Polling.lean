import FuseBank.ReadCycle
import Mathlib.Algebra.Order.Floor.Div

/-!
# How long a poll goes on

A poll keeps the time that it has waited in 32 bits and compares it with its budget. What
counts is how often it pauses: as often as its pace goes into the budget, rounded up, and
then it samples once more and gives up. So a poll is a program by recursion on the number of
pauses that are left, without a clock and without an end of 32 bits, and all that is proved
about polls goes by induction on that number.

## Main statements

* `Poll.wait_eq_sampling`: a poll samples with `Poll.pauses` pauses left.
-/

namespace FuseBank

namespace Poll

/-- How often a poll pauses before it gives up: as often as the tick, or a microsecond if
that is zero, goes into the budget, rounded up. -/
def pauses (budget tick : UInt32) : Nat := budget.toNat ⌈/⌉ max tick.toNat 1

/-- Samples until a bit comes up, with so many pauses left. -/
def sampling (p : Poll) (us : UInt32) (left : Nat) : Program Bool := do
  let sample ← Bus.read p.register
  if sample &&& p.mask ≠ 0 then
    Bus.write p.register p.mask
    return true
  else
    match left with
    | 0 => return false
    | left + 1 =>
      Bus.delay us
      p.sampling us left

theorem toNat_pace (tick : UInt32) : (pace tick).toNat = max tick.toNat 1 := by
  unfold pace
  split
  · rename_i h
    subst h
    rfl
  · rename_i h
    have : tick.toNat ≠ 0 := fun h0 => h (UInt32.toNat_inj.1 (by simpa using h0))
    omega

theorem toNat_saturatingAdd (a b : UInt32) :
    (saturatingAdd a b).toNat = min (a.toNat + b.toNat) (2 ^ 32 - 1) := by
  have := a.toNat_lt
  have := b.toNat_lt
  unfold saturatingAdd
  split <;> rename_i h <;> rw [UInt32.lt_iff_toNat_lt, UInt32.toNat_add] at h <;>
    simp only [UInt32.toNat_add, UInt32.reduceToNat] <;> omega

theorem sub_ceilDiv_add_one {left pace : Nat} (hp : 0 < pace) (hl : 0 < left) :
    (left - pace) ⌈/⌉ pace + 1 = left ⌈/⌉ pace := by
  rw [Nat.ceilDiv_eq_add_pred_div, Nat.ceilDiv_eq_add_pred_div]
  by_cases h : left ≤ pace
  · have h0 : left - pace + pace - 1 < pace := by omega
    have h1 : left + pace - 1 = pace * 1 + (left - 1) := by omega
    rw [Nat.div_eq_of_lt h0, h1, Nat.mul_add_div hp, Nat.div_eq_of_lt (by omega)]
  · have h1 : left + pace - 1 = left - pace + pace - 1 + pace := by omega
    rw [h1, Nat.add_div_right _ hp]

/-- A poll that has waited some time pauses as often as its pace goes into the rest of its
budget. -/
theorem waitFrom_eq_sampling (p : Poll) (tick waited : UInt32) :
    p.waitFrom tick waited =
      p.sampling (pace tick) ((p.budget.toNat - waited.toNat) ⌈/⌉ (pace tick).toNat) := by
  -- the time left goes down with each pause, also where the time waited is held
  induction h : p.budget.toNat - waited.toNat using Nat.strong_induction_on generalizing waited with
  | _ left ih =>
    have hpace : 0 < (pace tick).toNat := by rw [toNat_pace]; omega
    rw [waitFrom_eq]
    by_cases hlt : waited < p.budget
    · have hleft : 0 < left := by rw [UInt32.lt_iff_toNat_lt] at hlt; omega
      have hnext : p.budget.toNat - (saturatingAdd waited (pace tick)).toNat =
          left - (pace tick).toNat := by
        have := p.budget.toNat_lt
        rw [toNat_saturatingAdd]
        omega
      rw [← sub_ceilDiv_add_one hpace hleft, sampling]
      simp only [hlt, if_true, ih _ (by omega) _ hnext]
      rfl
    · have hleft : left = 0 := by rw [UInt32.lt_iff_toNat_lt] at hlt; omega
      subst hleft
      rw [zero_ceilDiv, sampling]
      simp only [hlt, if_false]
      rfl

/-- **A poll samples with `pauses` pauses left.** -/
theorem wait_eq_sampling (p : Poll) (tick : UInt32) :
    p.wait tick = p.sampling (pace tick) (pauses p.budget tick) := by
  rw [wait, waitFrom_eq_sampling, pauses, ← toNat_pace]
  rfl

end Poll

/-- How often the polls of a controller pause before they give up. -/
def Timing.patience (t : Timing) : Nat := Poll.pauses t.pollTimeout t.pollTick

end FuseBank
