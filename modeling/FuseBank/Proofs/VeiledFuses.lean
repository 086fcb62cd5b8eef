import FuseBank.Proofs.Alike
import FuseBank.Proofs.EntryPoints
import FuseBank.Proofs.Verdict

/-!
# The fuses do not show in what a controller does

What a controller does, and for how long, is decided by the states of the clocks, the reset line
and the status registers, and by the quality values, but never by the words that it reads. So two
devices that are the same but for their fuses, and for what is left of them in the data registers
(`Twins`), cannot be told apart by it: whatever is called, and with whatever in the buffers, the
calls come to the same results, and all that happens is the same but for the words that the data
register shows (`Event.veiled`).

The devices stay twins under each action that reads no more of the fuses than the data register, and
a program that is alike to itself with the data registers hidden (`Controller.alike_serve`) does
not tell twins apart.

## Main statements

* `Device.veiled_write`, `Device.veiled_read`: no access tells of the fuses but a read of the data
  register.
* `twins_run`: runs of alike programs on twins.
* `fuses_do_not_show`: rows of changes and calls.
-/

namespace FuseBank

open Register

/-- An event in which the word that a register shows cannot be seen. -/
def Event.veiled (register? : Option Nat) : Event → Event
  | read offset value => read offset (if register? = some offset then 0 else value)
  | readLane offset word => readLane offset (if register? = some offset then 0 else word)
  | e => e

theorem Event.veiled_of_read {register? : Option Nat} {offset : Nat} {value value' : UInt32}
    (h : register? ≠ some offset → value = value') :
    (read offset value).veiled register? = (read offset value').veiled register? ∧
      (readLane offset value).veiled register? = (readLane offset value').veiled register? := by
  by_cases hregister : register? = some offset
  · simp [veiled, hregister]
  · rw [h hregister]
    exact ⟨rfl, rfl⟩

namespace Trace

variable {register? : Option Nat} {t u : List Event}
  (h : t.map (Event.veiled register?) = u.map (Event.veiled register?))

include h

/-- What can be told of an event that cannot be seen happens as often. -/
theorem countP_of_veiled {P : Event → Bool} (hP : ∀ e : Event, P (e.veiled register?) = P e) :
    t.countP P = u.countP P := by
  have hcount : ∀ v : List Event, (v.map (Event.veiled register?)).countP P = v.countP P := by
    intro v
    rw [List.countP_map]
    exact congrArg (List.countP · v) (funext hP)
  rw [← hcount t, h, hcount]

theorem reads_of_veiled : reads t = reads u :=
  countP_of_veiled h fun e => by cases e <;> rfl

theorem writes_of_veiled : writes t = writes u :=
  countP_of_veiled h fun e => by cases e <;> rfl

theorem duration_of_veiled : duration t = duration u := by
  have hlasts : ∀ e : Event, (e.veiled register?).duration = e.duration := by
    intro e
    cases e <;> rfl
  have hsum : ∀ v : List Event, duration (v.map (Event.veiled register?)) = duration v := by
    intro v
    rw [duration, List.foldr_map]
    simp only [hlasts]
    rfl
  rw [← hsum t, h, hsum]

end Trace

namespace Bench

/-- The register in which the fuses of a layout show. -/
def Layout.dataRegister? : Layout → Option Nat
  | bytes | halfwords => some User.data
  | words => some Sequencer.data
  | inert => none

theorem Layout.dataRegister?_mem (l : Layout) : ∀ register ∈ l.dataRegister?,
    register ∈ fuseRegisters := by
  cases l <;> simp [dataRegister?, fuseRegisters]

namespace Device

/-- The device without its fuses and what is left of them in the data registers. -/
def veiled (d : Device) : Device := { d with fuses := #[], data := 0, sequencerData := 0 }

/-! ### Accesses -/

theorem layout_of_veiled {d d' : Device} (h : d.veiled = d'.veiled) : d.layout = d'.layout := by
  have := congrArg layout h
  exact this

theorem veiled_runCycle (d : Device) : d.veiled.runCycle.veiled = d.runCycle.veiled := by
  have hcompletes : d.veiled.completesCycle = d.completesCycle := rfl
  unfold runCycle
  rw [hcompletes]
  split <;> rfl

theorem veiled_runSequence (d : Device) : d.veiled.runSequence.veiled = d.runSequence.veiled := by
  have hcompletes : d.veiled.completesCycle = d.completesCycle := rfl
  unfold runSequence
  rw [hcompletes]
  split <;> rfl

theorem veiled_runSideband (d : Device) : d.veiled.runSideband.veiled = d.runSideband.veiled := by
  unfold runSideband
  rw [apply_ite veiled, apply_ite veiled]
  rfl

theorem veiled_writeUser (d : Device) (offset : Nat) (value : UInt32) :
    (d.veiled.writeUser offset value).veiled = (d.writeUser offset value).veiled := by
  unfold writeUser
  simp only [apply_ite veiled, veiled_runSideband, veiled_runCycle]
  rfl

theorem veiled_writeSequencer (d : Device) (offset : Nat) (value : UInt32) :
    (d.veiled.writeSequencer offset value).veiled = (d.writeSequencer offset value).veiled := by
  unfold writeSequencer
  simp only [apply_ite veiled, veiled_runSequence]
  rfl

/-- **A write does not tell of the fuses.** -/
theorem veiled_write (d : Device) (offset : Nat) (value : UInt32) :
    (d.veiled.write offset value).veiled = (d.write offset value).veiled := by
  have hlayout : d.veiled.layout = d.layout := rfl
  unfold write
  rw [hlayout]
  split
  · exact veiled_writeUser d offset value
  · exact veiled_writeUser d offset value
  · exact veiled_writeSequencer d offset value
  · rfl

theorem veiled_sample (d : Device) :
    d.veiled.sample.1 = d.sample.1 ∧ d.veiled.sample.2.veiled = d.sample.2.veiled := by
  have hcountdown : d.veiled.countdown = d.countdown := rfl
  unfold sample
  rw [hcountdown]
  split
  · exact ⟨rfl, rfl⟩
  · exact ⟨rfl, rfl⟩

theorem veiled_look (d : Device) {offset : Nat} (h : d.layout.dataRegister? ≠ some offset) :
    d.veiled.look offset = d.look offset := by
  have hlayout : d.veiled.layout = d.layout := rfl
  unfold look
  rw [hlayout]
  cases hl : d.layout with
  | bytes | halfwords =>
    have hne : offset ≠ User.data := by
      rintro rfl
      exact h (by rw [hl]; rfl)
    simp only [hne, if_false]
    rfl
  | words =>
    have hne : offset ≠ Sequencer.data := by
      rintro rfl
      exact h (by rw [hl]; rfl)
    simp only [hne, if_false]
  | inert => rfl

/-- **Nor does a read**, unless it is of the data register. -/
theorem veiled_read (d : Device) (offset : Nat) :
    (d.layout.dataRegister? ≠ some offset →
      (RegisterBlock.read offset d.veiled).1 = (RegisterBlock.read offset d).1) ∧
      (RegisterBlock.read offset d.veiled).2.veiled = (RegisterBlock.read offset d).2.veiled := by
  obtain ⟨hvalue, hstate⟩ := veiled_sample d
  by_cases hstatus : offset = d.layout.statusRegister
  · rw [read_statusRegister hstatus, read_statusRegister (d := d.veiled) hstatus]
    exact ⟨fun _ => hvalue, hstate⟩
  · have hread : ∀ d' : Device, d'.layout = d.layout →
        RegisterBlock.read offset d' = (d'.look offset, d') := by
      intro d' hlayout
      simp [RegisterBlock.read, hlayout, hstatus]
    rw [hread d rfl, hread d.veiled rfl]
    exact ⟨fun h => veiled_look d h, rfl⟩

end Device

/-! ### Twins -/

/-- Two benches with devices that are the same but for their fuses and for what is left of them
in the data registers. -/
structure Twins (s s' : Bench Device) : Prop where
  block : s.block.veiled = s'.block.veiled
  refusals : s.refusals = s'.refusals

namespace Twins

variable {s s' : Bench Device} (h : Twins s s')

include h

theorem layout : s.block.layout = s'.block.layout := Device.layout_of_veiled h.block

theorem write (offset : Nat) (value : UInt32) :
    Twins { s with block := RegisterBlock.write offset value s.block }
      { s' with block := RegisterBlock.write offset value s'.block } := by
  refine ⟨?_, h.refusals⟩
  calc (s.block.write offset value).veiled
      = (s.block.veiled.write offset value).veiled := (s.block.veiled_write offset value).symm
    _ = (s'.block.veiled.write offset value).veiled := by rw [h.block]
    _ = (s'.block.write offset value).veiled := s'.block.veiled_write offset value

theorem read (offset : Nat) :
    (s.block.layout.dataRegister? ≠ some offset →
      (RegisterBlock.read offset s.block).1 = (RegisterBlock.read offset s'.block).1) ∧
      Twins { s with block := (RegisterBlock.read offset s.block).2 }
        { s' with block := (RegisterBlock.read offset s'.block).2 } := by
  obtain ⟨hvalue, hstate⟩ := Device.veiled_read s.block offset
  obtain ⟨hvalue', hstate'⟩ := Device.veiled_read s'.block offset
  rw [h.block] at hvalue hstate
  rw [← h.layout] at hvalue'
  exact ⟨fun hne => (hvalue hne).symm.trans (hvalue' hne), hstate.symm.trans hstate', h.refusals⟩

end Twins

/-- Two runs go the same but for the words that a register shows, leave twins, and come to
related values. -/
structure TwinRuns {α β : Type} (register? : Option Nat) (R : α → β → Prop)
    (r : Record (Bench Device) α) (r' : Record (Bench Device) β) : Prop where
  value : R r.value r'.value
  state : Twins r.state r'.state
  trace : r.trace.map (Event.veiled register?) = r'.trace.map (Event.veiled register?)
  log : r.log = r'.log

/-- **An action does not tell twins apart**, but by what it reads from a hidden register. -/
theorem twins_perform (w : Wiring) {s s' : Bench Device} (h : Twins s s') (action : Action) :
    TwinRuns s.block.layout.dataRegister?
      (fun answer answer' => action.Unseeing fuseRegisters → answer = answer')
      ((board w).perform action s) ((board w).perform action s') := by
  -- what an action reads is the same if it reads no hidden register
  have hseen : ∀ {offset}, action.looksAt? = some offset → action.Unseeing fuseRegisters →
      s.block.layout.dataRegister? ≠ some offset := by
    intro offset hlooks hunseeing hdata
    exact hunseeing offset (s.block.layout.dataRegister?_mem offset hdata) hlooks
  cases action with
  | read offset =>
    obtain ⟨hvalue, hstate⟩ := h.read offset
    refine ⟨fun hunseeing => hvalue (hseen rfl hunseeing), hstate, ?_, rfl⟩
    exact congrArg ([·]) (Event.veiled_of_read hvalue).1
  | readLane offset =>
    obtain ⟨hvalue, hstate⟩ := h.read offset
    obtain ⟨hwhole, hlane⟩ := Event.veiled_of_read hvalue
    have hbyte := fun hunseeing => congrArg UInt32.toUInt8 (hvalue (hseen rfl hunseeing))
    cases hl : w.byteLane with
    | false =>
      simp only [Board.perform, board, hl, Bool.false_eq_true, if_false]
      exact ⟨hbyte, hstate, congrArg ([·]) hwhole, rfl⟩
    | true =>
      simp only [Board.perform, board, hl, if_true]
      exact ⟨hbyte, hstate, congrArg ([·]) hlane, rfl⟩
  | write offset value => exact ⟨fun _ => rfl, h.write offset value, rfl, rfl⟩
  | enableClocks ids =>
    have hclocks : s.refusals.clocks = s'.refusals.clocks := by rw [h.refusals]
    simp only [Board.perform, board, hclocks]
    exact ⟨fun _ => rfl, h, rfl, rfl⟩
  | assertReset =>
    have hassert : s.refusals.assert = s'.refusals.assert := by rw [h.refusals]
    cases hr : w.resetLine with
    | false =>
      simp only [Board.perform, board, hr, Bool.false_eq_true, if_false]
      exact ⟨fun _ => rfl, h, rfl, rfl⟩
    | true =>
      simp only [Board.perform, board, hr, if_true, hassert]
      exact ⟨fun _ => rfl, h, rfl, rfl⟩
  | releaseReset =>
    have hrelease : s.refusals.release = s'.refusals.release := by rw [h.refusals]
    cases hr : w.resetLine with
    | false =>
      simp only [Board.perform, board, hr, Bool.false_eq_true, if_false]
      exact ⟨fun _ => rfl, h, rfl, rfl⟩
    | true =>
      simp only [Board.perform, board, hr, if_true, hrelease]
      exact ⟨fun _ => rfl, h, rfl, rfl⟩
  | delay us | disableClocks ids | log message => exact ⟨fun _ => rfl, h, rfl, rfl⟩

/-- **Nor does a program** that is alike whatever the data registers hold. -/
theorem twins_run {α β : Type} {R : α → β → Prop} (w : Wiring) {p : Program α} {p' : Program β}
    (hp : p.Alike fuseRegisters R p') {s s' : Bench Device} (h : Twins s s') :
    TwinRuns s.block.layout.dataRegister? R (p.run (board w) s) (p'.run (board w) s') := by
  induction hp generalizing s s' with
  | done hvalue => exact ⟨hvalue, h, rfl, rfl⟩
  | @act action next next' _ ih =>
    have hfirst := twins_perform w h action
    have hlayout : ((board w).perform action s).state.block.layout = s.block.layout :=
      Device.layout_of_blank (Device.perform_blank w action s)
    have hrest := ih _ _ hfirst.value hfirst.state
    rw [hlayout] at hrest
    rw [Program.run_act, Program.run_act]
    refine ⟨hrest.value, hrest.state, ?_, ?_⟩
    · simp only [Record.andThen, List.map_append, hfirst.trace, hrest.trace]
    · simp only [Record.andThen, hfirst.log, hrest.log]

end Bench

/-! ### Changes and calls -/

/-- A call without what its buffer holds. -/
def Call.veiled : Call → Call
  | read offset buffer => read offset (List.replicate buffer.length 0)
  | storageRead offset buffer => storageRead offset (List.replicate buffer.length 0)
  | statusRead offset bytes buffer => statusRead offset bytes (List.replicate buffer.length 0)

@[simp] theorem Call.request?_veiled (call : Call) : call.veiled.request? = call.request? := by
  cases call <;> simp [veiled, request?]

@[simp] theorem Call.put_veiled (call : Call) : call.veiled.put = call.put := by
  cases call <;> rfl

namespace Bench

/-- A change of a device without the fuses that it gives it. -/
def Device.Change.veiled (c : Device.Change) : Device.Change := { c with fuses := none }

theorem Device.veiled_change (d : Device) (c : Device.Change) :
    (d.veiled.change c.veiled).veiled = (d.change c).veiled := rfl

/-- A change without the fuses that it gives a device. -/
def Change.veiled (c : Change) : Change :=
  { c with device := c.device.map Device.Change.veiled }

/-- A trial without fuses and without what buffers hold. -/
def Trial.veiled : Trial → Trial
  | change c => change c.veiled
  | call k => call k.veiled

/-- The records of the calls among some trials, one after the other. -/
def trialRecords (w : Wiring) (c : Controller) (s : Bench Device) :
    List Trial → List (Record (Bench Device) (Reply CallResult))
  | [] => []
  | .change change :: trials => trialRecords w c (changeDevice s change) trials
  | .call call :: trials =>
    (c.call call).run (board w) s ::
      trialRecords w c ((c.call call).run (board w) s).state trials

/-- Two calls on twins go the same, but for the words that the data register shows and for what is
in the buffers. -/
structure SameButWords (r r' : Record (Bench Device) (Reply CallResult)) : Prop where
  result : r.value.result = r'.value.result
  reads : Trace.reads r.trace = Trace.reads r'.trace
  writes : Trace.writes r.trace = Trace.writes r'.trace
  duration : Trace.duration r.trace = Trace.duration r'.trace
  /-- A call leaves the layout as it is, so the data register is that of the device before. -/
  trace : r.trace.map (Event.veiled r.state.block.layout.dataRegister?) =
    r'.trace.map (Event.veiled r.state.block.layout.dataRegister?)
  log : r.log = r'.log
  state : Twins r.state r'.state

theorem TwinRuns.sameButWords {register? : Option Nat}
    {r r' : Record (Bench Device) (Reply CallResult)}
    (h : TwinRuns register? (fun q q' => q.result = q'.result) r r')
    (hregister : register? = r.state.block.layout.dataRegister?) : SameButWords r r' := by
  obtain ⟨hresult, hstate, htrace, hlog⟩ := h
  subst hregister
  exact ⟨hresult, Trace.reads_of_veiled htrace, Trace.writes_of_veiled htrace,
    Trace.duration_of_veiled htrace, htrace, hlog, hstate⟩

/-- **A call does not tell twins apart.** -/
theorem twins_call (w : Wiring) (c : Controller) {s s' : Bench Device} (h : Twins s s')
    {call call' : Call} (hcall : call.veiled = call'.veiled) :
    SameButWords ((c.call call).run (board w) s) ((c.call call').run (board w) s') := by
  have hrequest : call'.request? = call.request? := by
    rw [← call.request?_veiled, hcall, call'.request?_veiled]
  have hput : call.put = call'.put := by
    rw [← call.put_veiled, hcall, call'.put_veiled]
  have hlayout := Device.layout_of_blank (Device.outcome_blank w (c.call call) s)
  have hruns : TwinRuns s.block.layout.dataRegister?
      (fun q q' : Reply CallResult => q.result = q'.result)
      ((c.call call).run (board w) s) ((c.call call').run (board w) s') := by
    cases hasked : call.request? with
    | none =>
      rw [c.run_call_of_no_request (board w) s hasked,
        c.run_call_of_no_request (board w) s' (hrequest.trans hasked)]
      exact ⟨rfl, h, rfl, rfl⟩
    | some request =>
      have hserved := twins_run w (c.alike_serve request.1 request.2) h
      rw [c.run_call_eq (board w) s hasked, c.run_call_eq (board w) s' (hrequest.trans hasked)]
      refine ⟨?_, hserved.state, hserved.trace, hserved.log⟩
      have hresult := congrArg Prod.fst hserved.value
      exact (congrArg call.put hresult).trans (congrFun hput _)
  exact hruns.sameButWords (congrArg Layout.dataRegister? hlayout.symm)

/-- **Twins are changed into twins** by changes that differ in fuses only. -/
theorem twins_changeDevice {s s' : Bench Device} (h : Twins s s') {c c' : Change}
    (hchange : c.veiled = c'.veiled) : Twins (changeDevice s c) (changeDevice s' c') := by
  obtain ⟨clocks, assert, release, script, device⟩ := c
  obtain ⟨clocks', assert', release', script', device'⟩ := c'
  obtain ⟨rfl, rfl, rfl, -, hdevice⟩ := Change.mk.inj hchange
  constructor
  case refusals => simp only [changeDevice, h.refusals]
  case block =>
    cases device with
    | none =>
      cases device' with
      | none => exact h.block
      | some d' => cases hdevice
    | some d =>
      cases device' with
      | none => cases hdevice
      | some d' =>
        have hd : d.veiled = d'.veiled := Option.some.inj hdevice
        calc (s.block.change d).veiled
            = (s.block.veiled.change d.veiled).veiled := (s.block.veiled_change d).symm
          _ = (s'.block.veiled.change d'.veiled).veiled := by rw [h.block, hd]
          _ = (s'.block.change d').veiled := s'.block.veiled_change d'

/-- **The fuses do not show in what a controller does.** On two benches with devices that are the
same but for their fuses, and under changes and calls that are the same but for fuses and for what is
in the buffers, the calls go the same one by one: they have the same results, access the registers
as often, take as long, and all that happens is the same but for the words that the data register
shows. -/
theorem fuses_do_not_show (w : Wiring) (c : Controller) {s s' : Bench Device} (h : Twins s s')
    {trials trials' : List Trial}
    (htrials : List.Forall₂ (fun trial trial' => trial.veiled = trial'.veiled) trials trials') :
    List.Forall₂ SameButWords (trialRecords w c s trials) (trialRecords w c s' trials') := by
  induction htrials generalizing s s' with
  | nil => exact .nil
  | @cons trial trial' _ _ htrial _ ih =>
    cases trial with
    | change change =>
      cases trial' with
      | change change' => exact ih (twins_changeDevice h (Trial.change.inj htrial))
      | call call' => cases htrial
    | call call =>
      cases trial' with
      | change change' => cases htrial
      | call call' =>
        have hsame := twins_call w c h (Trial.call.inj htrial)
        exact .cons hsame (ih hsame.state)

/-- Two devices with fuses of their own, one of which is given others before the second call. -/
theorem fuses_do_not_show_two_calls :
    let c : Controller := ⟨.px30, {}⟩
    let s : Bench Device := ⟨{ layout := .bytes, fuses := #[1, 2] }, {}⟩
    let s' : Bench Device := ⟨{ layout := .bytes, fuses := #[3], data := 9 }, {}⟩
    let trials : List Trial := [.call (.read 0 [0, 0]),
      .change { device := some { latency := some 1 } }, .call (.statusRead 1 1 [0, 0])]
    let trials' : List Trial := [.call (.read 0 [4, 5]),
      .change { device := some { latency := some 1, fuses := some #[6, 7] } },
      .call (.statusRead 1 1 [8, 8])]
    List.Forall₂ SameButWords (trialRecords {} c s trials) (trialRecords {} c s' trials') ∧
      (trialRecords {} c s trials).map (fun r => r.value.buffer) = [[1, 2], [2, 0]] ∧
      (trialRecords {} c s' trials').map (fun r => r.value.buffer) = [[3, 0], [7, 8]] := by
  intro c s s' trials trials'
  have htwins : Twins s s' := ⟨rfl, rfl⟩
  have htrials : List.Forall₂ (fun trial trial' => trial.veiled = trial'.veiled) trials trials' :=
    .cons rfl (.cons rfl (.cons rfl .nil))
  exact ⟨fuses_do_not_show {} c htwins htrials, by decide +kernel, by decide +kernel⟩

end Bench

end FuseBank
