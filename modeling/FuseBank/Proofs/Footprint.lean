import FuseBank.Proofs.Courses
import FuseBank.Proofs.Throughout

/-!
# The registers that a read touches

Each stage of a read lets time go by and touches a few registers: a poll its status register,
the sideband its own registers and the status, and the read cycles those of their interface.
Nothing else happens in these stages, so they leave the clocks and the reset line as they are
(`Event.tells_of_within`).

## Main statements

* `EccLatch.within_command`, `Generation.within_row`: the registers of the sideband's command
  and of the read cycles.
* `Generation.within_carriedOut`: all that a planned read does.
-/

namespace FuseBank

open Register

namespace Event

/-- Time goes by, or one of these registers is accessed. -/
def Within (registers : List Nat) (e : Event) : Prop :=
  e.isDelay = true ∨ ∃ register ∈ registers, e.register? = some register

theorem Within.mono {registers registers' : List Nat} (h : ∀ r ∈ registers, r ∈ registers')
    {e : Event} (he : e.Within registers) : e.Within registers' :=
  he.imp_right fun ⟨register, hmem, hreg⟩ => ⟨register, h register hmem, hreg⟩

theorem within_delay (registers : List Nat) (us : UInt32) : (delay us).Within registers :=
  .inl rfl

theorem within_read {registers : List Nat} {register : Nat} (h : register ∈ registers)
    (value : UInt32) : (read register value).Within registers := .inr ⟨register, h, rfl⟩

theorem within_readLane {registers : List Nat} {register : Nat} (h : register ∈ registers)
    (word : UInt32) : (readLane register word).Within registers := .inr ⟨register, h, rfl⟩

theorem within_write {registers : List Nat} {register : Nat} (h : register ∈ registers)
    (value : UInt32) : (write register value).Within registers := .inr ⟨register, h, rfl⟩

/-- An access is an access to some register. -/
theorem isAccess_of_register? {e : Event} {register : Nat} (h : e.register? = some register) :
    e.isAccess = true := by
  cases e <;> first | rfl | cases h

/-- What touches one of these registers touches no other. -/
theorem mem_of_within {registers : List Nat} {e : Event} (h : e.Within registers)
    {register : Nat} (hreg : e.register? = some register) : register ∈ registers := by
  rcases h with h | ⟨other, hmem, hother⟩
  · cases e <;> simp [isDelay, register?] at h hreg
  · rw [hother] at hreg
    cases hreg
    exact hmem

theorem register?_of_isReset {e : Event} (h : e.isReset = true) : e.register? = none := by
  cases e <;> first | rfl | cases h

/-- The reset line is no register. -/
theorem isReset_of_within {registers : List Nat} {e : Event} (h : e.Within registers) :
    e.isReset = false := by
  rcases h with h | ⟨register, -, h⟩ <;> cases e <;> first | rfl | cases h

/-- Neither clocks nor reset line are told by what touches registers only. -/
theorem tells_of_within {registers : List Nat} {e : Event} (h : e.Within registers) :
    clockSwitch.tells e = none ∧ resetSwitch.tells e = none := by
  rcases h with h | ⟨register, -, h⟩ <;> cases e <;> first | exact ⟨rfl, rfl⟩ | cases h

end Event

theorem Poll.within_course {p : Poll} {us : UInt32} {pauses : Nat} {up : Bool}
    {trace : List Event} (h : p.Course us pauses up trace) :
    ∀ e ∈ trace, e.Within [p.register] := by
  have hvain : ∀ samples, ∀ e ∈ p.vain us samples, e.Within [p.register] := by
    intro samples e he
    obtain ⟨sample, -, he⟩ := List.mem_flatMap.1 he
    rcases List.mem_pair.1 he with rfl | rfl
    · exact Event.within_read (by simp) sample
    · exact Event.within_delay _ us
  intro e he
  cases h with
  | @up _ sample =>
    rcases List.mem_append.1 he with he | he
    · exact hvain _ e he
    · rcases List.mem_pair.1 he with rfl | rfl
      · exact Event.within_read (by simp) sample
      · exact Event.within_write (by simp) p.mask
  | @spent _ sample =>
    rcases List.mem_append.1 he with he | he
    · exact hvain _ e he
    · obtain rfl := List.mem_singleton.1 he
      exact Event.within_read (by simp) sample

/-- What a poll writes clears the bits that it waits for. -/
theorem Poll.write_of_course {p : Poll} {us : UInt32} {pauses : Nat} {up : Bool}
    {trace : List Event} (h : p.Course us pauses up trace) {register : Nat} {value : UInt32}
    (hmem : .write register value ∈ trace) : register = p.register ∧ value = p.mask := by
  have hvain : ∀ samples, Event.write register value ∉ p.vain us samples := by
    intro samples he
    simp [vain] at he
  cases h with
  | up samples => simpa [hvain] using hmem
  | spent samples => simp [hvain] at hmem

/-! ### Before the user interface can be used -/

/-- A reset pulse calls the line and lets time go by. -/
theorem kind_of_reset {wired : Bool} {hold : UInt32} {completed : Bool} {trace : List Event}
    (h : ResetCourse wired hold completed trace) :
    ∀ e ∈ trace, e.isDelay = true ∨ e.isReset = true := by
  intro e he
  cases h with
  | completed =>
    cases wired with
    | false =>
      obtain rfl := List.mem_singleton.1 he
      exact .inl rfl
    | true =>
      simp only [resetEvents, if_true, List.mem_cons, List.not_mem_nil, or_false] at he
      rcases he with rfl | rfl | rfl
      · exact .inr rfl
      · exact .inl rfl
      · exact .inr rfl
  | notAsserted =>
    obtain rfl := List.mem_singleton.1 he
    exact .inr rfl
  | notReleased =>
    simp only [List.mem_cons, List.not_mem_nil, or_false] at he
    rcases he with rfl | rfl | rfl
    · exact .inr rfl
    · exact .inl rfl
    · exact .inr rfl

/-- The registers of the sideband, and the status that it shares. -/
def sidebandRegisters : List Nat :=
  [Sideband.control, Sideband.commandValid, Sideband.command, Sideband.operand, status]

theorem EccLatch.within_command (latch : EccLatch) :
    ∀ e ∈ latch.command, e.Within sidebandRegisters := by
  intro e he
  simp only [command, List.mem_cons, List.not_mem_nil, or_false] at he
  rcases he with rfl | rfl | rfl | rfl | rfl <;>
    exact Event.within_write (by simp [sidebandRegisters]) _

/-- The command to the sideband, and the poll for it. -/
theorem EccLatch.within_handshake (latch : EccLatch) {t : Timing} {us : UInt32} {pauses : Nat}
    {up : Bool} {polling : List Event} (h : t.sidebandPoll.Course us pauses up polling) :
    ∀ e ∈ latch.command ++ polling, e.Within sidebandRegisters := by
  intro e he
  rcases List.mem_append.1 he with he | he
  · exact latch.within_command e he
  · exact (Poll.within_course h e he).mono (by simp [Timing.sidebandPoll, sidebandRegisters])

/-- Readying the user interface calls the reset line and touches the sideband. -/
theorem EccLatch.kind_of_course {latch : EccLatch} {t : Timing} {wired : Bool}
    {failure : Option Failure} {trace : List Event} (h : latch.Course t wired failure trace) :
    ∀ e ∈ trace, e.isReset = true ∨ e.Within sidebandRegisters := by
  have hpulse : ∀ {completed pulse}, ResetCourse wired t.resetHold completed pulse →
      ∀ e ∈ pulse, e.isReset = true ∨ e.Within sidebandRegisters := fun hpulse e he =>
    (kind_of_reset hpulse e he).symm.imp_right .inl
  have hsideband : ∀ {up polling},
      t.sidebandPoll.Course (Poll.pace t.pollTick) t.patience up polling →
      ∀ e ∈ resetEvents wired t.resetHold ++ (latch.command ++ polling),
        e.isReset = true ∨ e.Within sidebandRegisters := by
    intro up polling hpolling e he
    rcases List.mem_append.1 he with he | he
    · exact hpulse .completed e he
    · exact .inr (latch.within_handshake hpolling e he)
  cases h with
  | notReset h => exact hpulse h
  | notSet h => exact hsideband h
  | ready h => exact hsideband h

/-- Before the user interface is ready only the sideband is touched. -/
theorem EccLatch.Course.register_mem {latch : EccLatch} {t : Timing} {wired : Bool}
    {failure : Option Failure} {trace : List Event} (h : latch.Course t wired failure trace)
    {e : Event} (he : e ∈ trace) {register : Nat} (hreg : e.register? = some register) :
    register ∈ sidebandRegisters := by
  rcases EccLatch.kind_of_course h e he with hreset | hwithin
  · rw [Event.register?_of_isReset hreset] at hreg
    cases hreg
  · exact Event.mem_of_within hwithin hreg

/-! ### Read cycles -/

namespace Generation

/-- The registers of the read cycles. -/
def registers : Generation → List Nat
  | one | two => [User.address, User.trigger, status, User.quality, User.data]
  | three => [Sequencer.control, Sequencer.trigger, Sequencer.status, Sequencer.data]

/-- The register that shows the completion of a cycle. -/
def statusRegister : Generation → Nat
  | one | two => status
  | three => Sequencer.status

/-- The register that shows the word of a cycle. -/
def dataRegister : Generation → Nat
  | one | two => User.data
  | three => Sequencer.data

theorem dataRegister_of_latch {g : Generation} {latch : EccLatch} (h : g.latch? = some latch) :
    g.dataRegister = User.data := by
  cases g with
  | one | two => rfl
  | three => cases h

theorem poll_register (g : Generation) (t : Timing) : (g.poll t).register = g.statusRegister := by
  cases g <;> rfl

theorem poll_mask (g : Generation) (t : Timing) : (g.poll t).mask = g.completion := by
  cases g <;> rfl

theorem within_start (g : Generation) (address : UInt32) :
    ∀ e ∈ g.start address, e.Within g.registers := by
  intro e he
  cases g <;> rcases List.mem_pair.1 he with rfl | rfl <;>
    exact Event.within_write (by simp [registers]) _

theorem within_readout {g : Generation} {result : Except Failure UInt32} {trace : List Event}
    (h : g.Readout result trace) : ∀ e ∈ trace, e.Within g.registers := by
  intro e he
  cases h with
  | byte word | word word =>
    obtain rfl := List.mem_singleton.1 he
    exact Event.within_read (by simp [registers]) word
  | lane word =>
    obtain rfl := List.mem_singleton.1 he
    exact Event.within_readLane (by simp [registers]) word
  | sound word =>
    rcases List.mem_pair.1 he with rfl | rfl <;> exact Event.within_read (by simp [registers]) _
  | fault =>
    obtain rfl := List.mem_singleton.1 he
    exact Event.within_read (by simp [registers]) _

theorem within_poll (g : Generation) {t : Timing} {us : UInt32} {pauses : Nat} {up : Bool}
    {polling : List Event} (h : (g.poll t).Course us pauses up polling) :
    ∀ e ∈ polling, e.Within g.registers := by
  have hmem : (g.poll t).register ∈ g.registers := by
    cases g <;> simp [poll, registers, Timing.userPoll, Timing.sequencerPoll]
  exact fun e he => (Poll.within_course h e he).mono (by simpa using hmem)

theorem within_cycle {g : Generation} {t : Timing} {address : UInt32}
    {result : Except Failure UInt32} {trace : List Event}
    (h : g.CycleCourse t address result trace) : ∀ e ∈ trace, e.Within g.registers := by
  intro e he
  cases h with
  | complete hpolling hreadout =>
    rcases List.mem_append.1 he with he | he
    · exact g.within_start address e he
    · rcases List.mem_append.1 he with he | he
      · exact g.within_poll hpolling e he
      · exact within_readout hreadout e he
  | late hpolling =>
    rcases List.mem_append.1 he with he | he
    · exact g.within_start address e he
    · exact g.within_poll hpolling e he

/-- **The read cycles touch the registers of their interface.** -/
theorem within_row {g : Generation} {t : Timing} {addresses words : List UInt32}
    {failure : Option Failure} {trace : List Event} (h : g.Row t addresses words failure trace) :
    ∀ e ∈ trace, e.Within g.registers := by
  induction h with
  | served => simp
  | next hfirst _ ih =>
    intro e he
    rcases List.mem_append.1 he with he | he
    · exact within_cycle hfirst e he
    · exact ih e he
  | failed hlast => exact within_cycle hlast

theorem within_collected {g : Generation} {t : Timing} {range : WordRange} {delivery : Delivery}
    {trace : List Event} (h : g.Collected t range delivery trace) :
    ∀ e ∈ trace, e.Within g.registers := by
  obtain ⟨hrow⟩ := h
  exact within_row hrow

/-- So they do with the fuse macro taken before and handed back after. -/
theorem within_userMode {g : Generation} {t : Timing} {body : List Event}
    (h : ∀ e ∈ body, e.Within g.registers) :
    ∀ e ∈ .write User.control User.take :: .delay t.settle ::
      (body ++ [.write User.control User.release]), e.Within (User.control :: g.registers) := by
  intro e he
  rcases List.mem_cons.1 he with rfl | he
  · exact Event.within_write (by simp) _
  rcases List.mem_cons.1 he with rfl | he
  · exact Event.within_delay _ _
  rcases List.mem_append.1 he with he | he
  · exact (h e he).mono (by simp +contextual)
  · obtain rfl := List.mem_singleton.1 he
    exact Event.within_write (by simp) _

/-- All the registers that a read touches. -/
def footprint (g : Generation) : List Nat :=
  match g.latch? with
  | none => g.registers
  | some _ => User.control :: (sidebandRegisters ++ g.registers)

theorem footprint_of_latch {g : Generation} {latch : EccLatch} (h : g.latch? = some latch) :
    g.footprint = User.control :: (sidebandRegisters ++ g.registers) := by
  rw [footprint, h]

/-- **All that a planned read does**: it calls the reset line, lets time go by, and touches the
registers of its interface. -/
theorem within_carriedOut {g : Generation} {t : Timing} {range : WordRange} {wired : Bool}
    {delivery : Delivery} {trace : List Event}
    (h : g.CarriedOut t range wired delivery trace) :
    ∀ e ∈ trace, e.isReset = true ∨ e.Within g.footprint := by
  have hprepared : ∀ {latch : EccLatch} {failure early}, g.latch? = some latch →
      latch.Course t wired failure early →
      ∀ e ∈ early, e.isReset = true ∨ e.Within g.footprint := fun hlatch hearly e he =>
    (EccLatch.kind_of_course hearly e he).imp_right fun h =>
      h.mono (by simp +contextual [footprint_of_latch hlatch])
  cases h with
  | sequenced hlatch hbody =>
    intro e he
    have hfootprint : g.footprint = g.registers := by rw [footprint, hlatch]
    rw [hfootprint]
    exact .inr (within_collected hbody e he)
  | unready hlatch hearly => exact hprepared hlatch hearly
  | taken hlatch hearly hbody =>
    intro e he
    rcases List.mem_append.1 he with he | he
    · exact hprepared hlatch hearly e he
    · exact .inr ((within_userMode (within_collected hbody) e he).mono
        (by simp +contextual [footprint_of_latch hlatch]))

end Generation

end FuseBank
