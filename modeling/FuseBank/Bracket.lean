import FuseBank.Poll

/-!
# What is undone at the end

Clocks that are switched on are switched off, and a fuse macro that is taken is
handed back, whichever way the read between the two has ended.

## Main statements

* `trace_withClocks`: with the clocks on, what happens stands between switching them on
  and switching them off; where they are refused, nothing of it happens.
* `trace_withUserMode`: what happens with the fuse macro taken stands between taking it,
  with the time that takes, and handing it back.
-/

namespace FuseBank

variable {α σ : Type}

/-- Runs `body` with the clocks on; where they are refused there is only `refused`. -/
def withClocks (ids : List String) (refused : Program α) (body : Program α) : Program α := do
  if ← Bus.enableClocks ids then
    let outcome ← body
    Bus.disableClocks ids
    return outcome
  else
    refused

/-- Runs `body` with the fuse macro taken by the user interface. -/
def withUserMode (t : Timing) (body : Program α) : Program α := do
  Bus.write Register.User.control Register.User.take
  Bus.delay t.settle
  let outcome ← body
  Bus.write Register.User.control Register.User.release
  return outcome

/-- With the clocks on, `body` stands between the two switches; refused, it does not happen. -/
theorem trace_withClocks (b : Board σ) (ids : List String) (refused body : Program α) (s : σ) :
    ((withClocks ids refused body).run b s).trace =
      if (b.enableClocks ids s).1 then
        .clocksOn ids :: (body.run b (b.enableClocks ids s).2).trace ++ [.clocksOff ids]
      else .clocksRefused ids :: (refused.run b (b.enableClocks ids s).2).trace := by
  cases h : (b.enableClocks ids s).1 <;>
    simp [withClocks, Record.andThen, Record.still, h]

/-- With the fuse macro taken, `body` stands between taking it and handing it back. -/
theorem trace_withUserMode (b : Board σ) (t : Timing) (body : Program α) (s : σ) :
    ((withUserMode t body).run b s).trace =
      .write Register.User.control Register.User.take :: .delay t.settle ::
        (body.run b
          (b.delay t.settle (b.write Register.User.control Register.User.take s))).trace ++
        [.write Register.User.control Register.User.release] := by
  simp [withUserMode, Record.andThen, Record.still]

end FuseBank
