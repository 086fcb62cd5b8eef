import FuseBank.Proofs.Buffers

/-!
# The ways in are interchangeable

How a call goes, and how it leaves the board, depends on what it asks for and not on the way it
comes in: the events, the messages and the stored bytes are those of serving the request
(`Controller.serve`), and only the result is put in the call's own way. So in a row of calls any of
them can be replaced by another way in with the same request, and those that make no request can be
left out or put in anywhere. The other calls do not tell (`entry_points_interchangeable`).

## Main statements

* `Controller.run_call_eq`: a call with a request goes as the request is served.
* `Controller.length_of_serve`: how many bytes are stored for a request.
* `entry_points_interchangeable`: rows of calls that make the same requests.
-/

namespace FuseBank

/-- How a call goes whose request is served like this. -/
def Call.record {σ : Type} (call : Call) (q : Record σ (Reply (Except Failure Nat))) :
    Record σ (Reply CallResult) :=
  { q with value := (q.value.over call.buffer).map call.put }

/-! ### Single requests -/

theorem Generation.length_of_carriedOut {g : Generation} {t : Timing} {offset last : UInt32}
    {len : Nat} {wired : Bool} (hlast : offset.toNat + len = last.toNat) {delivery : Delivery}
    {trace : List Event}
    (h : g.CarriedOut t (.widen offset last len g.wordSize) wired delivery trace) :
    delivery.bytes.length ≤ len ∧ (delivery.failure = none → delivery.bytes.length = len) := by
  cases h with
  | sequenced _ hbody | taken _ _ hbody =>
    obtain ⟨hfull, hfewer⟩ := length_of_collected hlast hbody
    refine ⟨?_, hfull⟩
    by_cases hfailure : delivery.failure = none
    · exact Nat.le_of_eq (hfull hfailure)
    · have hlength := hfewer hfailure
      split at hlength
      · exact hlength.le
      · simp [hlength]
  | unready =>
    constructor
    · exact Nat.zero_le _
    · intro hnone
      cases hnone

namespace Controller

variable (c : Controller)

theorem length_of_serve {wired : Bool} {offset : UInt32} {len : Nat}
    {q : Reply (Except Failure Nat)} {trace : List Event}
    (h : (c.serve offset len).Leaves wired q trace) :
    q.buffer.length ≤ len ∧ ∀ n, q.result = .ok n → q.buffer.length = n := by
  rw [serve] at h
  split at h
  · obtain ⟨rfl, -⟩ := h
    refine ⟨Nat.zero_le _, ?_⟩
    intro n hn
    cases hn
  · rename_i g hg
    rw [Bus.leaves_log_bind] at h
    cases hplan : g.plan c.size offset len with
    | error refusal =>
      rw [hplan] at h
      obtain ⟨rfl, -⟩ := Bus.leaves_log_bind.1 h
      refine ⟨Nat.zero_le _, ?_⟩
      intro n hn
      cases hn
    | ok range =>
      obtain ⟨last, hlast, hplan', hreach⟩ :=
        Generation.exists_plan (Generation.accepts_of_plan hplan)
      obtain rfl : range = _ := Except.ok.inj (hplan.symm.trans hplan')
      rw [hplan] at h
      obtain ⟨delivery, _, _, htransact, ⟨rfl, -⟩, -⟩ := Program.leaves_bind.1 h
      have hdelivery : delivery.bytes.length ≤ g.granted c.size offset len ∧
          (delivery.failure = none → delivery.bytes.length = g.granted c.size offset len) := by
        rcases leaves_transact htransact with ⟨rfl, -⟩ | ⟨body, hexecute, -⟩
        · exact ⟨Nat.zero_le _, fun hnone => by cases hnone⟩
        · exact Generation.length_of_carriedOut hlast
            (Generation.carriedOut_of_leaves hreach hexecute)
      obtain ⟨hle, hfull⟩ := hdelivery
      constructor
      · simpa [Delivery.reply] using hle.trans (g.granted_le c.size offset len)
      · intro n hn
        cases hfailure : delivery.failure with
        | none =>
          obtain rfl : g.granted c.size offset len = n := by
            simpa [Delivery.reply, hfailure, WordRange.widen] using hn
          simpa [Delivery.reply] using hfull hfailure
        | some failure => simp [Delivery.reply, hfailure] at hn

section

variable {σ : Type} (b : Board σ) (s : σ)

/-- **A call with a request goes as the request is served.** -/
theorem run_call_eq {call : Call} {offset : UInt32} {len : Nat}
    (h : call.request? = some (offset, len)) :
    (c.call call).run b s = call.record ((c.serve offset len).run b s) := by
  have hlen := Call.le_length_buffer h
  have htake : (call.buffer.take len).length = len := List.length_take_of_le hlen
  have hle : ((c.serve offset len).run b s).value.buffer.length ≤ len :=
    (c.length_of_serve (Program.leaves_run b _ s)).1
  have hsplit : (call.buffer.take len).drop
        ((c.serve offset len).run b s).value.buffer.length ++ call.buffer.drop len =
      call.buffer.drop ((c.serve offset len).run b s).value.buffer.length := by
    rw [← List.drop_append_of_le_length (by rwa [htake]), List.take_append_drop]
  rw [c.run_call_of_request b s h, c.read_eq_serve, htake]
  simp [Call.record, Reply.over, Reply.map, Record.andThen, Record.still, hsplit]

end

/-! ### Rows of calls -/

section

variable {σ : Type} (b : Board σ)

/-- Some requests that are served one after the other, each with how it went. -/
def services (s : σ) : List (UInt32 × Nat) →
    List ((UInt32 × Nat) × Record σ (Reply (Except Failure Nat)))
  | [] => []
  | request :: requests =>
    (request, (c.serve request.1 request.2).run b s) ::
      services ((c.serve request.1 request.2).run b s).state requests

/-- The calls with a request, each with how it went. -/
def served (s : σ) (calls : List Call) : List (Call × Record σ (Reply CallResult)) :=
  (calls.zip (c.records b s calls)).filter fun p => p.1.request?.isSome

/-- A call goes as its request is served from some state. -/
structure GoesAs (p : Call × Record σ (Reply CallResult))
    (q : (UInt32 × Nat) × Record σ (Reply (Except Failure Nat))) : Prop where
  request : p.1.request? = some q.1
  served : ∃ s, q.2 = (c.serve q.1.1 q.1.2).run b s
  record : p.2 = p.1.record q.2

/-- **The calls with a request go as the requests are served**, one after the other, and leave the
board so. -/
theorem served_eq (s : σ) (calls : List Call) :
    List.Forall₂ (c.GoesAs b) (c.served b s calls)
        (c.services b s (calls.filterMap Call.request?)) ∧
      c.after b s calls =
        (c.services b s (calls.filterMap Call.request?)).foldl (fun _ q => q.2.state) s := by
  induction calls generalizing s with
  | nil => exact ⟨.nil, rfl⟩
  | cons call calls ih =>
    rw [served, records, List.zip_cons_cons, after_cons]
    cases hrequest : call.request? with
    | none =>
      have hrun := c.run_call_of_no_request b s hrequest
      rw [List.filter_cons_of_neg (by simp [hrequest]), List.filterMap_cons_none hrequest,
        Program.outcome, hrun]
      exact ih s
    | some request =>
      have hrun := c.run_call_eq b s hrequest
      obtain ⟨hserved, hafter⟩ := ih ((c.serve request.1 request.2).run b s).state
      rw [List.filter_cons_of_pos (by simp [hrequest]), List.filterMap_cons_some hrequest,
        Program.outcome, hrun]
      exact ⟨.cons ⟨hrequest, ⟨s, rfl⟩, rfl⟩ hserved, hafter⟩

end

end Controller

/-- Two calls, with how they went, differ in no more than the form of their results and what
comes after the stored bytes in their buffers. -/
structure Interchanged {σ : Type} (p q : Call × Record σ (Reply CallResult)) : Prop where
  /-- The same happened. -/
  trace : p.2.trace = q.2.trace
  /-- The same was said. -/
  log : p.2.log = q.2.log
  /-- The board was left the same. -/
  state : p.2.state = q.2.state
  /-- They make the same request, and their results and the bytes stored for them are those of
  one read, which stores as many bytes as its result says. -/
  reply : ∃ offset len result bytes, p.1.request? = some (offset, len) ∧
    q.1.request? = some (offset, len) ∧ bytes.length ≤ len ∧
    (∀ n, result = .ok n → bytes.length = n) ∧
    p.2.value = ⟨p.1.put result, bytes ++ p.1.buffer.drop bytes.length⟩ ∧
    q.2.value = ⟨q.1.put result, bytes ++ q.1.buffer.drop bytes.length⟩

section

variable {σ : Type} {b : Board σ} {c : Controller}

theorem Controller.GoesAs.interchanged {p p' : Call × Record σ (Reply CallResult)}
    {q : (UInt32 × Nat) × Record σ (Reply (Except Failure Nat))} (h : c.GoesAs b p q)
    (h' : c.GoesAs b p' q) : Interchanged p p' := by
  obtain ⟨⟨offset, len⟩, r⟩ := q
  obtain ⟨hrequest, ⟨s, hs⟩, hrecord⟩ := h
  obtain ⟨hrequest', -, hrecord'⟩ := h'
  obtain rfl : r = (c.serve offset len).run b s := hs
  obtain ⟨hle, hfull⟩ := c.length_of_serve (Program.leaves_run b (c.serve offset len) s)
  constructor
  case trace => rw [hrecord, hrecord', Call.record, Call.record]
  case log => rw [hrecord, hrecord', Call.record, Call.record]
  case state => rw [hrecord, hrecord', Call.record, Call.record]
  case reply =>
    refine ⟨offset, len, _, _, hrequest, hrequest', hle, hfull, ?_, ?_⟩
    · rw [hrecord, Call.record, Reply.over, Reply.map]
    · rw [hrecord', Call.record, Reply.over, Reply.map]

theorem forall₂_interchanged {l l' : List (Call × Record σ (Reply CallResult))}
    {m : List ((UInt32 × Nat) × Record σ (Reply (Except Failure Nat)))}
    (h : List.Forall₂ (c.GoesAs b) l m) (h' : List.Forall₂ (c.GoesAs b) l' m) :
    List.Forall₂ Interchanged l l' := by
  induction h generalizing l' with
  | nil =>
    cases h'
    exact .nil
  | cons hfirst _ ih =>
    cases h' with
    | cons hfirst' hrest' => exact .cons (hfirst.interchanged hfirst') (ih hrest')

end

theorem Controller.status_eq_zero_iff {result : Except Failure Nat} :
    status result = 0 ↔ ∃ n, result = .ok n := by
  cases result with
  | ok n => exact ⟨fun _ => ⟨n, rfl⟩, fun _ => rfl⟩
  | error failure =>
    have hneg := failure.status_neg
    constructor
    · intro hzero
      exact absurd hzero hneg.ne
    · rintro ⟨n, hn⟩
      cases hn

/-- **The ways in are interchangeable.** Two rows of calls that make the same requests, in whatever
ways, and with whatever calls in between that make none, go alike on every board: each call with
a request does, says and stores the same as its counterpart and leaves the board the same, and so
do the rows in the end. A call without a request leaves everything as it is. The three forms of a
result agree in that a status is zero for success and negative for each failure. -/
theorem entry_points_interchangeable {σ : Type} (b : Board σ) (c : Controller) (s : σ)
    {calls calls' : List Call}
    (h : calls.filterMap Call.request? = calls'.filterMap Call.request?) :
    List.Forall₂ Interchanged (c.served b s calls) (c.served b s calls') ∧
      c.after b s calls = c.after b s calls' ∧
      (∀ call, call.request? = none → ∀ s',
        (c.call call).run b s' = .still ⟨.status (-22), call.buffer⟩ s') ∧
      (∀ result, Controller.status result = 0 ↔ ∃ n, result = .ok n) ∧
      ∀ failure : Failure, failure.status < 0 := by
  obtain ⟨hserved, hafter⟩ := c.served_eq b s calls
  obtain ⟨hserved', hafter'⟩ := c.served_eq b s calls'
  rw [← h] at hserved' hafter'
  refine ⟨forall₂_interchanged hserved hserved', hafter.trans hafter'.symm, ?_,
    fun _ => Controller.status_eq_zero_iff, Failure.status_neg⟩
  intro call hrequest s'
  exact c.run_call_of_no_request b s' hrequest

/-- A read of two bytes, and then a call that asks for more than its buffer holds, do the same as a
call that asks for the first two bytes of a buffer of three. -/
theorem entry_points_interchangeable_two_bytes :
    let b : Board (Bench Bench.Device) := Bench.board {}
    let c : Controller := ⟨.px30, {}⟩
    let s : Bench Bench.Device := ⟨{ layout := .bytes, fuses := #[5, 6] }, {}⟩
    let calls : List Call := [.read 0 [0, 0], .statusRead 0 5 [1]]
    let calls' : List Call := [.statusRead 0 2 [7, 7, 7]]
    let r := (c.call (.read 0 [0, 0])).run b s
    let r' := (c.call (.statusRead 0 2 [7, 7, 7])).run b s
    calls.filterMap Call.request? = calls'.filterMap Call.request? ∧
      c.after b s calls = c.after b s calls' ∧ r.trace = r'.trace ∧
      r.value.buffer = [5, 6] ∧ r'.value.buffer = [5, 6, 7] := by
  intro b c s calls calls' r r'
  have hrequests : calls.filterMap Call.request? = calls'.filterMap Call.request? := rfl
  obtain ⟨hforall, hafter, -⟩ := entry_points_interchangeable b c s hrequests
  obtain ⟨hfirst, -⟩ := List.forall₂_cons.1 hforall
  exact ⟨rfl, hafter, hfirst.trace, by decide +kernel, by decide +kernel⟩

end FuseBank
