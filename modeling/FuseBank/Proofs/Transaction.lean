import FuseBank.Controller
import FuseBank.Proofs.Cycle
import FuseBank.Proofs.Planning

/-!
# Reading a device

What a read on a device comes to, stage by stage: it may be turned down, or the clocks may be
refused; the user interface may fail at the reset line or at the sideband; and otherwise the
read comes to what its row of read cycles brings in, with the fuse macro taken before and
handed back after.

## Main statements

* `Device.outcome_prepare`: how the user interface is readied.
* `Device.outcome_execute_user`, `Device.outcome_execute_three`: a planned read.
* `Bench.outcome_read_of_accepts`: an accepted read, the clocks running.
-/

namespace FuseBank.Bench

open Register

/-- The reset line does as it is told, if there is one. -/
def ResetGranted (w : Wiring) (r : Refusals) : Prop :=
  w.resetLine = true → r.assert = false ∧ r.release = false

theorem not_refused {w : Wiring} {r : Refusals} (h : ResetGranted w r) :
    (w.resetLine && (r.assert || r.release)) = false := by
  cases hw : w.resetLine
  · rfl
  · obtain ⟨ha, hr⟩ := h hw
    rw [ha, hr]
    rfl

theorem outcome_resetPulse {π : Type} [RegisterBlock π] (w : Wiring) (hold : UInt32)
    (s : Bench π) : (resetPulse hold).outcome (board w) s =
      (!(w.resetLine && (s.refusals.assert || s.refusals.release)), s) := by
  rw [resetPulse]
  cases hw : w.resetLine <;> cases ha : s.refusals.assert <;> cases hr : s.refusals.release <;>
    simp [hw, ha, hr]

namespace Device

/-- The device once the sideband has been told to set the latch. -/
def latched (d : Device) (latch : EccLatch) : Device :=
  { d with
    command := Sideband.writeLatch ||| Sideband.eccLatch
    operand := latch.word }.runSideband

theorem blank_latched (d : Device) (latch : EccLatch) : (d.latched latch).blank = d.blank :=
  blank_runSideband _

/-- The device once its latch has been waited for and the fuse macro taken. -/
def readied (d : Device) (latch : EccLatch) (patience : Nat) : Device :=
  { ((d.latched latch).polled sidebandDone patience).2 with userMode := true }

theorem blank_readied (d : Device) (latch : EccLatch) (patience : Nat) :
    (d.readied latch patience).blank = d.blank := by
  have := congrArg blank (core_polled (d.latched latch) sidebandDone patience)
  exact this.trans (blank_latched d latch)

theorem core_latched (d : Device) (latch : EccLatch) (patience : Nat) : ∃ setting,
    ((d.latched latch).polled sidebandDone patience).2.core =
      ({ d with
        command := Sideband.writeLatch ||| Sideband.eccLatch
        operand := latch.word
        latch := setting } : Device).core := by
  rw [core_polled]
  unfold latched runSideband
  split
  · exact ⟨_, rfl⟩
  · exact ⟨_, rfl⟩

theorem fetched_readied (d : Device) (latch : EccLatch) (patience : Nat) :
    (d.readied latch patience).fetched = d.fetched := by
  obtain ⟨_, hcore⟩ := core_latched d latch patience
  have := congrArg fetched hcore
  exact this

theorem serves_readied {d : Device} {g : Generation} (h : d.layout = g.layout) (latch : EccLatch)
    (patience : Nat) : (d.readied latch patience).Serves g :=
  ⟨(layout_of_blank (blank_readied d latch patience)).trans h, fun _ => rfl⟩

theorem writeUser_targetLatches (d : Device) :
    d.writeUser Sideband.control Sideband.targetLatches = d := by
  have h : Sideband.targetLatches ≠ Sideband.start := by decide
  simp [writeUser, h, Register.status, Sideband.command, Sideband.operand, Sideband.control]

theorem writeUser_onePair (d : Device) :
    d.writeUser Sideband.commandValid Sideband.onePair = d := by
  simp [writeUser, Register.status, Sideband.command, Sideband.operand, Sideband.control,
    Sideband.commandValid, User.control, User.address, User.trigger]

theorem writeUser_command (d : Device) (value : UInt32) :
    d.writeUser Sideband.command value = { d with command := value } := by
  simp [writeUser, Register.status, Sideband.command]

theorem writeUser_operand (d : Device) (value : UInt32) :
    d.writeUser Sideband.operand value = { d with operand := value } := by
  simp [writeUser, Register.status, Sideband.command, Sideband.operand]

theorem writeUser_start (d : Device) :
    d.writeUser Sideband.control Sideband.start = d.runSideband := by
  simp [writeUser, Register.status, Sideband.command, Sideband.operand, Sideband.control]

theorem writeUser_take (d : Device) :
    d.writeUser User.control User.take = { d with userMode := true } := by
  have h : User.take &&& 0x10000 ≠ 0 ∧ (User.take &&& 1 != 0) = true := by decide
  simp [writeUser, h, Register.status, Sideband.command, Sideband.operand, Sideband.control,
    User.control]

theorem writeUser_release (d : Device) :
    d.writeUser User.control User.release = { d with userMode := false } := by
  have h : User.release &&& 0x10000 ≠ 0 ∧ (User.release &&& 1 != 0) = false := by decide
  simp [writeUser, h, Register.status, Sideband.command, Sideband.operand, Sideband.control,
    User.control]

section

variable (w : Wiring) (t : Timing) {d : Device} (r : Refusals)
  (hd : d.layout = .bytes ∨ d.layout = .halfwords)

include hd

theorem outcome_set (latch : EccLatch) : (latch.set t).outcome (board w) ⟨d, r⟩ =
    (((d.latched latch).polled sidebandDone t.patience).1,
      ⟨((d.latched latch).polled sidebandDone t.patience).2, r⟩) := by
  have hlay : (d.latched latch).layout = d.layout := layout_of_blank (blank_latched d latch)
  have hreg : t.sidebandPoll.register = (d.latched latch).layout.statusRegister := by
    rw [hlay]
    rcases hd with h | h <;> rw [h] <;> rfl
  have hne : (d.latched latch).layout ≠ .inert := by
    rw [hlay]
    rcases hd with h | h <;> simp [h]
  have h₁ := write_of_user
    (d := { d with command := Sideband.writeLatch ||| Sideband.eccLatch }) hd
  have h₂ := write_of_user
    (d := { d with
      command := Sideband.writeLatch ||| Sideband.eccLatch
      operand := latch.word }) hd
  have hawait := outcome_await w t.sidebandPoll t.pollTick .latchTimeout (d.latched latch) r hreg
    hne
  rw [EccLatch.set]
  simp only [Program.outcome_bind, Program.outcome_log, outcome_write, write_of_user hd,
    writeUser_targetLatches, writeUser_onePair, writeUser_command, h₁, writeUser_operand, h₂,
    writeUser_start]
  exact hawait

/-- How the user interface is readied: the reset line comes before the sideband. -/
theorem outcome_prepare (latch : EccLatch) : (latch.prepare t).outcome (board w) ⟨d, r⟩ =
    if w.resetLine && (r.assert || r.release) then (some .resetFailure, ⟨d, r⟩)
    else
      (if ((d.latched latch).polled sidebandDone t.patience).1 then none
        else some .sidebandTimeout, ⟨((d.latched latch).polled sidebandDone t.patience).2, r⟩) := by
  have hset := outcome_set w t r hd latch
  rw [EccLatch.prepare]
  cases h : w.resetLine && (r.assert || r.release) <;>
    cases hp : ((d.latched latch).polled sidebandDone t.patience).1 <;>
      simp [outcome_resetPulse, h, hset, hp]

theorem outcome_withUserMode {α : Type} (body : Program α) :
    (withUserMode t body).outcome (board w) ⟨d, r⟩ =
      let c := body.outcome (board w) ⟨{ d with userMode := true }, r⟩
      (c.1, ⟨{ c.2.block with userMode := false }, r⟩) := by
  have hblank := outcome_blank w body ⟨{ d with userMode := true }, r⟩
  have href := outcome_refusals w ⟨{ d with userMode := true }, r⟩ body
  have hlay := layout_of_blank hblank
  have hback := write_of_user
    (d := (body.outcome (board w) ⟨{ d with userMode := true }, r⟩).2.block)
    (by rcases hd with h | h <;> [left; right] <;> exact hlay.trans h)
  rw [withUserMode]
  simp only [Program.outcome_bind, outcome_write, outcome_delay, write_of_user hd, writeUser_take,
    hback, writeUser_release, href]
  rfl

/-- **A planned read through the user interface.** -/
theorem outcome_execute_user {g : Generation} {latch : EccLatch} (hl : g.latch? = some latch)
    (range : WordRange) : (g.execute t range).outcome (board w) ⟨d, r⟩ =
      if w.resetLine && (r.assert || r.release) then (.failed .resetFailure, ⟨d, r⟩)
      else if ((d.latched latch).polled sidebandDone t.patience).1 then
        let c := (g.collect t range).outcome (board w) ⟨d.readied latch t.patience, r⟩
        (c.1, ⟨{ c.2.block with userMode := false }, r⟩)
      else
        (.failed .sidebandTimeout,
          ⟨((d.latched latch).polled sidebandDone t.patience).2, r⟩) := by
  have hprepare := outcome_prepare w t r hd latch
  have hlay : ((d.latched latch).polled sidebandDone t.patience).2.layout = d.layout :=
    layout_of_blank ((blank_of_core (core_polled _ _ _)).trans (blank_latched d latch))
  have hmode := outcome_withUserMode w t
    (d := ((d.latched latch).polled sidebandDone t.patience).2) r (by rw [hlay]; exact hd)
    (g.collect t range)
  simp only [Generation.execute, hl, Program.outcome_bind, hprepare]
  cases h : w.resetLine && (r.assert || r.release)
  · cases hp : ((d.latched latch).polled sidebandDone t.patience).1
    · simp
    · simp only [Bool.false_eq_true, if_false, if_true]
      exact hmode
  · simp

end

/-- **A planned read through the sequencer.** -/
theorem outcome_execute_three {σ : Type} (b : Board σ) (t : Timing) (range : WordRange) (s : σ) :
    (Generation.three.execute t range).outcome b s =
      (Generation.three.collect t range).outcome b s := rfl

end Device

/-! ### Reads -/

theorem reaches_of_accepts {g : Generation} {size offset : UInt32} {len : Nat}
    (h : g.Accepts size offset len) {a : Nat}
    (ha : a ∈ WordRange.span g.wordSize.toNat offset.toNat (g.granted size offset len)) :
    g.Reaches (UInt32.ofNat a) := by
  rintro rfl
  have hlt := Generation.lt_of_mem_span h ha
  have h32 : a < 2 ^ 32 := by omega
  rw [UInt32.toNat_ofNat_of_lt' h32]
  exact hlt

theorem outcome_collect {σ : Type} (b : Board σ) (g : Generation) (t : Timing) (range : WordRange)
    (s : σ) : (g.collect t range).outcome b s =
      (g.deliver range ((gather (g.fetch t) [] range.words).outcome b s).1,
        ((gather (g.fetch t) [] range.words).outcome b s).2) := by
  simp [Generation.collect]

section

variable {π : Type} [RegisterBlock π] (w : Wiring) {c : Controller} {g : Generation}
  (hg : c.descriptor.generation = some g) (offset : UInt32) (buffer : List UInt8) (s : Bench π)

include hg

/-- **An accepted read, the clocks running**, comes to what is delivered of its words. -/
theorem outcome_read_of_accepts (ha : g.Accepts c.size offset buffer.length)
    (hclocks : s.refusals.clocks = false) :
    ∃ last : UInt32, offset.toNat + g.granted c.size offset buffer.length = last.toNat ∧
      (c.read offset buffer).outcome (board w) s =
        let n := g.granted c.size offset buffer.length
        let e := (g.execute c.timing (.widen offset last n g.wordSize)).outcome (board w) s
        (e.1.reply n buffer, e.2) := by
  obtain ⟨last, hlast, hplan⟩ := Generation.plan_of_accepts ha
  refine ⟨last, hlast, ?_⟩
  simp [Controller.read, Controller.readWith, hg, hplan, Controller.transact, withClocks, hclocks,
    WordRange.widen]

/-- A read that is not accepted is out of range, and nothing is done. -/
theorem outcome_read_of_not_accepts (ha : ¬ g.Accepts c.size offset buffer.length) :
    (c.read offset buffer).outcome (board w) s = (⟨.error .outOfRange, buffer⟩, s) := by
  cases hplan : g.plan c.size offset buffer.length with
  | ok range => exact absurd (Generation.accepts_of_plan hplan) ha
  | error refusal => simp [Controller.read, Controller.readWith, hg, hplan]

/-- Without its clocks an accepted read does nothing. -/
theorem outcome_read_of_clocks (ha : g.Accepts c.size offset buffer.length)
    (hclocks : s.refusals.clocks = true) :
    (c.read offset buffer).outcome (board w) s = (⟨.error .clockFailure, buffer⟩, s) := by
  obtain ⟨last, -, hplan⟩ := Generation.plan_of_accepts ha
  simp [Controller.read, Controller.readWith, hg, hplan, Controller.transact, withClocks, hclocks,
    Delivery.failed, Delivery.reply]

/-- **A read comes to an error, and nothing is done, or it is accepted** and carried out. -/
theorem outcome_read_cases :
    (∃ f, (c.read offset buffer).outcome (board w) s = (⟨.error f, buffer⟩, s)) ∨
      g.Accepts c.size offset buffer.length ∧ ∃ last : UInt32,
        offset.toNat + g.granted c.size offset buffer.length = last.toNat ∧
          (c.read offset buffer).outcome (board w) s =
            let n := g.granted c.size offset buffer.length
            let e := (g.execute c.timing (.widen offset last n g.wordSize)).outcome (board w) s
            (e.1.reply n buffer, e.2) := by
  by_cases ha : g.Accepts c.size offset buffer.length
  · cases hclocks : s.refusals.clocks with
    | false => exact .inr ⟨ha, outcome_read_of_accepts w hg offset buffer s ha hclocks⟩
    | true => exact .inl ⟨_, outcome_read_of_clocks w hg offset buffer s ha hclocks⟩
  · exact .inl ⟨_, outcome_read_of_not_accepts w hg offset buffer s ha⟩

end

end FuseBank.Bench
