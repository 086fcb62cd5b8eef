import FuseBank.Proofs.ResetLine

/-!
# The fuse macro is taken and handed back in order

Through the user interface the words of a request are read with the fuse macro taken. Taking
it needs a reset pulse that was completed and a sideband that has carried out its command,
both in the same call; from then on the call hands it back, whichever way it ends, and the
registers of the read cycles are touched only in between (`InOrder`).

## Main statements

* `Controller.Course.inOrder`: the order within a read.
* `user_session_in_order`: a whole life, in which no register is accessed while the reset line
  is asserted.
-/

namespace FuseBank

open Register

/-- A read with this result got as far as its read cycles. -/
def Fetching (result : Except Failure Nat) : Prop :=
  (∃ n, result = .ok n) ∨ result = .error .pollTimeout ∨ result = .error .integrityFault

/-- The registers that are of use only with the fuse macro taken. -/
def User.cycleRegisters : List Nat := [User.address, User.trigger, User.quality, User.data]

/-- After these events the user interface is ready: the reset pulse was completed, and the
sideband has shown that its command was carried out, which was acknowledged. -/
inductive Readied (g : Generation) (t : Timing) (wired : Bool) : List Event → Prop
  | intro {latch : EccLatch} (hlatch : g.latch? = some latch) (ids : List String)
      (samples : List UInt32) {sample : UInt32} (hup : sample &&& sidebandDone ≠ 0) :
      Readied g t wired (.clocksOn ids :: (resetEvents wired t.resetHold ++ (latch.command ++
        (t.sidebandPoll.vain (Poll.pace t.pollTick) samples ++
          [.read status sample, .write status sidebandDone]))))

/-- How the events of a call with this result keep the order. -/
structure InOrder (g : Generation) (t : Timing) (wired : Bool) (result : Except Failure Nat)
    (trace : List Event) : Prop where
  /-- The fuse macro is taken in the calls that get as far as their read cycles. -/
  taken_iff : .write User.control User.take ∈ trace ↔ Fetching result
  /-- It is taken no more than once. -/
  once : trace.count (.write User.control User.take) ≤ 1
  /-- When it is taken, the user interface is ready, and then is given the time to settle,
  once. -/
  readied : Trace.Throughout (fun before e after => e = .write User.control User.take →
    Readied g t wired before ∧ ∃ next rest, after = .delay t.settle :: next :: rest ∧
      next.isWrite = true) trace
  /-- The registers of the read cycles are touched between taking it and handing it back. -/
  between : Trace.Throughout (fun before e after =>
    (∃ register ∈ User.cycleRegisters, e.register? = some register) →
      .write User.control User.take ∈ before ∧ .write User.control User.release ∈ after) trace
  /-- It is handed back once, and then the clocks are switched off. -/
  handedBack : .write User.control User.take ∈ trace →
    trace.count (.write User.control User.release) = 1 ∧ ∃ before ids,
      trace = before ++ [.write User.control User.release, .clocksOff ids]
  /-- If it is not taken, nobody asks for it. -/
  untouched : .write User.control User.take ∉ trace → ∀ e ∈ trace,
    e.register? ≠ some User.control

/-! ### Which registers are touched when -/

theorem not_mem_sidebandRegisters {register : Nat}
    (h : register ∈ User.control :: User.cycleRegisters) : register ∉ sidebandRegisters := by
  revert register
  decide

theorem Generation.control_notMem_registers (g : Generation) : User.control ∉ g.registers := by
  cases g <;> decide

theorem not_mem_of_register {trace : List Event} {register : Nat}
    (h : ∀ e ∈ trace, e.register? ≠ some register) (value : UInt32) :
    .write register value ∉ trace := fun he => h _ he rfl

/-! ### The order within a call -/

theorem inOrder_of_untouched {g : Generation} {t : Timing} {wired : Bool}
    {result : Except Failure Nat} {trace : List Event} (hresult : ¬ Fetching result)
    (h : ∀ e ∈ trace, ∀ register ∈ User.control :: User.cycleRegisters,
      e.register? ≠ some register) : InOrder g t wired result trace := by
  have hcontrol : ∀ e ∈ trace, e.register? ≠ some User.control := fun e he =>
    h e he _ (by simp)
  have htake := not_mem_of_register hcontrol User.take
  constructor
  case taken_iff => exact iff_of_false htake hresult
  case once =>
    rw [List.count_eq_zero_of_not_mem htake]
    exact Nat.zero_le 1
  case readied =>
    intro before e after hsplit he
    rw [hsplit, he] at htake
    simp at htake
  case between =>
    rintro before e after hsplit ⟨register, hmem, hreg⟩
    exact absurd hreg (h e (by simp [hsplit]) register (List.mem_cons_of_mem _ hmem))
  case handedBack => exact fun htaken => absurd htaken htake
  case untouched => exact fun _ => hcontrol

theorem Generation.isWrite_of_row {g : Generation} {t : Timing} {addresses words : List UInt32}
    {failure : Option Failure} {body : List Event} (h : g.Row t addresses words failure body)
    {last : Event} (hlast : last.isWrite = true) (after : List Event) :
    ∃ next rest, body ++ last :: after = next :: rest ∧ next.isWrite = true := by
  have hcycle : ∀ {address result first}, g.CycleCourse t address result first →
      ∃ next rest, first = next :: rest ∧ next.isWrite = true := by
    intro address result first hcourse
    cases hcourse <;> cases g <;> exact ⟨_, _, rfl, rfl⟩
  cases h with
  | served => exact ⟨last, after, rfl, hlast⟩
  | next hfirst _ =>
    obtain ⟨next, rest, rfl, hwrite⟩ := hcycle hfirst
    exact ⟨next, _, rfl, hwrite⟩
  | failed hfirst =>
    obtain ⟨next, rest, rfl, hwrite⟩ := hcycle hfirst
    exact ⟨next, _, rfl, hwrite⟩

/-- A read whose user interface is readied keeps the order. -/
theorem inOrder_of_taken {g : Generation} {t : Timing} {wired : Bool}
    {result : Except Failure Nat} (hresult : Fetching result) {latch : EccLatch}
    (hlatch : g.latch? = some latch) {early body : List Event}
    (hearly : latch.Course t wired none early) {range : WordRange} {delivery : Delivery}
    (hbody : g.Collected t range delivery body) (ids : List String) :
    InOrder g t wired result (.clocksOn ids ::
      ((early ++ (.write User.control User.take :: .delay t.settle ::
        (body ++ [.write User.control User.release]))) ++ [.clocksOff ids])) := by
  have hsideband : ∀ e ∈ early, ∀ register ∈ User.control :: User.cycleRegisters,
      e.register? ≠ some register := fun e he register hmem hreg =>
    not_mem_sidebandRegisters hmem (hearly.register_mem he hreg)
  have hcycles : ∀ e ∈ body, e.register? ≠ some User.control := fun e he hreg =>
    g.control_notMem_registers (Event.mem_of_within (Generation.within_collected hbody e he) hreg)
  have hearly' := not_mem_of_register fun e he => hsideband e he User.control (by simp)
  have hbody' := not_mem_of_register hcycles
  have hne : User.take ≠ User.release := by decide
  have hready : Readied g t wired (.clocksOn ids :: early) := by
    cases hearly with
    | ready hpolling =>
      cases hpolling with
      | up samples _ _ hup => exact .intro hlatch ids samples hup
  obtain ⟨next, rest, hnext, hwrite⟩ : ∃ next rest,
      body ++ .write User.control User.release :: [.clocksOff ids] = next :: rest ∧
        next.isWrite = true := by
    obtain ⟨hrow⟩ := hbody
    exact Generation.isWrite_of_row hrow rfl _
  have hsplit : .clocksOn ids :: ((early ++ (.write User.control User.take :: .delay t.settle ::
      (body ++ [.write User.control User.release]))) ++ [.clocksOff ids]) =
      (.clocksOn ids :: early) ++ .write User.control User.take ::
        ((.delay t.settle :: body) ++ .write User.control User.release :: [.clocksOff ids]) := by
    simp
  rw [hsplit]
  constructor
  case taken_iff => exact iff_of_true (by simp) hresult
  case once =>
    simp [List.count_eq_zero_of_not_mem (hearly' _), List.count_eq_zero_of_not_mem (hbody' _),
      hne.symm]
  case readied =>
    refine Trace.throughout_of_once (by simp [hearly']) (by simp [hbody', hne]) ⟨hready, ?_⟩
    exact ⟨next, rest, congrArg _ hnext, hwrite⟩
  case between =>
    refine Trace.throughout_between ?_ (by decide) (by decide) (by simp [Event.register?])
    rintro e he ⟨register, hmem, hreg⟩
    rcases List.mem_cons.1 he with rfl | he
    · cases hreg
    · exact hsideband e he register (List.mem_cons_of_mem _ hmem) hreg
  case handedBack =>
    intro _
    constructor
    · simp [List.count_eq_zero_of_not_mem (hearly' _), List.count_eq_zero_of_not_mem (hbody' _),
        hne]
    · exact ⟨.clocksOn ids ::
        (early ++ (.write User.control User.take :: .delay t.settle :: body)), ids, by simp⟩
  case untouched => exact fun h => absurd (by simp) h

namespace Controller

variable {wired : Bool} {trace : List Event} {c : Controller} {g : Generation}
  (hg : c.descriptor.generation = some g) (huser : g ≠ .three)

include hg huser

/-- **A read keeps the order.** -/
theorem Course.inOrder {offset : UInt32} {buffer : List UInt8}
    {reply : Reply (Except Failure Nat)} (h : c.Course wired offset buffer reply trace) :
    InOrder g c.timing wired reply.result trace := by
  cases h with
  | unsupported hnone =>
    rw [hg] at hnone
    cases hnone
  | outOfRange => exact inOrder_of_untouched (by simp [Fetching]) (by simp)
  | noClocks => exact inOrder_of_untouched (by simp [Fetching]) (by simp [Event.register?])
  | @carriedOut g' _ delivery _ hg' _ _ hbody =>
    obtain rfl : g = g' := Option.some.inj (hg.symm.trans hg')
    obtain ⟨latch, hlatch⟩ := Generation.exists_latch huser
    cases hbody with
    | sequenced hnone =>
      rw [hlatch] at hnone
      cases hnone
    | @unready _ failure early _ hearly =>
      refine inOrder_of_untouched ?_ fun e he register hmem hreg => ?_
      · cases hearly <;> simp [Fetching, Delivery.failed, Delivery.reply]
      · simp only [List.mem_cons, List.mem_append, List.not_mem_nil, or_false] at he
        rcases he with rfl | he | rfl
        · cases hreg
        · exact not_mem_sidebandRegisters hmem (hearly.register_mem he hreg)
        · cases hreg
    | taken hlatch' hearly hcollected =>
      refine inOrder_of_taken ?_ hlatch' hearly hcollected c.descriptor.clocks
      cases hresult : (delivery.reply (g.granted c.size offset buffer.length) buffer).result with
      | ok n => exact .inl ⟨n, rfl⟩
      | error failure =>
        have hfailure := Generation.failure_of_collected hcollected
          (Delivery.failure_of_reply hresult)
        exact .inr (hfailure.imp (congrArg _) (congrArg _))

end Controller

/-! ### Calls -/

theorem Controller.inOrder_of_leaves {c : Controller} {g : Generation}
    (hg : c.descriptor.generation = some g) (huser : g ≠ .three) {wired : Bool} {call : Call}
    {reply : Reply CallResult} {trace : List Event} (h : (c.call call).Leaves wired reply trace) :
    ∃ result, reply.result = call.put result ∧ InOrder g c.timing wired result trace := by
  rcases leaves_call h with ⟨rfl, hput⟩ | ⟨offset, buffer, inner, hread, hput⟩
  · exact ⟨_, hput, inOrder_of_untouched (by simp [Fetching]) (by simp)⟩
  · exact ⟨inner.result, hput, (course_of_leaves hread).inOrder hg huser⟩

/-- **The fuse macro is taken and handed back in order**, in every call of a life, and no
register is accessed while the reset line is asserted. -/
theorem user_session_in_order {σ : Type} {d : Descriptor} {g : Generation}
    (hg : d.generation = some g) (huser : g ≠ .three) (hsetup : d.setup = none) (t : Timing)
    (b : Board σ) (s : σ) (calls : List Call) :
    let l := d.live t b s calls
    List.Forall₂ (fun call r => ∃ result, r.value.result = call.put result ∧
      InOrder g t b.reset.isSome result r.trace) calls l.calls ∧
      Trace.Throughout (fun before e _ => Unasserted before e) l.trace := by
  intro l
  obtain ⟨hattached, hcalls⟩ := Descriptor.live_of_no_setup hsetup t b s calls
  rw [Life.trace, show l.attached.trace = [] from hattached, show l.calls = _ from hcalls,
    List.nil_append]
  constructor
  · exact Controller.forall₂_records (R := fun call r => ∃ result,
      r.value.result = call.put result ∧ InOrder g t b.reset.isSome result r.trace) b _
      (fun call s' => Controller.inOrder_of_leaves (c := ⟨d, t⟩) hg huser
        (Program.leaves_run b _ s')) s calls
  · exact Controller.unasserted_records b (c := ⟨d, t⟩) hg huser s calls

/-- The bank of the PX30 is read once, and its fuse macro is handed back. -/
theorem user_session_one_byte :
    let b : Board (Bench Bench.Device) := Bench.board {}
    let s : Bench Bench.Device := ⟨{ layout := .bytes, fuses := #[7] }, {}⟩
    let r := ((⟨.px30, {}⟩ : Controller).call (.read 0 [0])).run b s
    (Descriptor.px30.live {} b s [.read 0 [0]]).calls = [r] ∧
      .write User.control User.take ∈ r.trace ∧
      r.trace.count (.write User.control User.release) = 1 := by
  intro b s r
  have htaken : .write User.control User.take ∈ r.trace := by decide +kernel
  obtain ⟨hcalls, -⟩ := user_session_in_order (d := .px30) (g := .one) rfl (by decide) rfl {} b s
    [.read 0 [0]]
  obtain ⟨⟨result, -, horder⟩, -⟩ := List.forall₂_cons.1 hcalls
  exact ⟨rfl, htaken, (horder.handedBack htaken).1⟩

end FuseBank
