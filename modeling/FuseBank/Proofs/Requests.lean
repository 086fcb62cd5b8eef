import FuseBank.Bench
import FuseBank.Bench.Script
import FuseBank.Proofs.Life

/-!
# What a call asks for

The three ways in differ in how a request is put and in how its result is put, and in nothing
else. A call asks for so many bytes at the front of its buffer, from an offset on
(`Call.request?`), and a registration layer may ask for more bytes than its buffer holds, which is
no request at all. So a call with a request is a read into the front of its buffer
(`Controller.call_of_request`), and one without does nothing (`Controller.call_of_no_request`).
What is proved of reads on any board carries over to calls by `Controller.run_call_of_request`.

Nor does a read look at what is in its buffer. It does what is done to serve a request for as many
bytes as the buffer holds, and puts the bytes that come of it at the front
(`Controller.read_eq_serve`).

Memory decides whether a call is carried out, and not how: one that has the memory it needs goes as
if there were always enough, and one that has not leaves the board and the buffer as they are
(`Controller.run_callWith`). So what is proved of calls where there is always enough memory holds of
all that have what they need.
-/

namespace FuseBank

namespace Call

/-- The buffer that a call brings along. -/
def buffer : Call → List UInt8
  | read _ buffer | storageRead _ buffer | statusRead _ _ buffer => buffer

/-- Where the requested bytes begin, and how many they are, if the buffer holds so many. -/
def request? : Call → Option (UInt32 × Nat)
  | read offset buffer | storageRead offset buffer => some (offset, buffer.length)
  | statusRead offset bytes buffer =>
    if buffer.length < bytes then none else some (offset, bytes)

theorem le_length_buffer {call : Call} {offset : UInt32} {len : Nat}
    (h : call.request? = some (offset, len)) : len ≤ call.buffer.length := by
  cases call with
  | statusRead offset' bytes buffer =>
    rw [request?] at h
    split at h
    · cases h
    · rename_i hlen
      cases h
      exact Nat.le_of_not_lt hlen
  | _ =>
    cases h
    exact Nat.le_refl _

end Call

/-- The reply of a read apart from any buffer, once its bytes are at the front of one. -/
def Reply.over {α : Type} (q : Reply α) (buffer : List UInt8) : Reply α :=
  ⟨q.result, q.buffer ++ buffer.drop q.buffer.length⟩

namespace Controller

variable (c : Controller)

/-- A read of so many bytes apart from any buffer. Its reply holds the bytes that it stores. -/
def serve (offset : UInt32) (len : Nat) : Program (Reply (Except Failure Nat)) :=
  match c.descriptor.generation with
  | none => return ⟨.error .unsupported, []⟩
  | some g => do
    Bus.log (.reading len offset)
    match g.plan c.size offset len with
    | .error refusal =>
      Bus.log refusal.message
      return ⟨.error .outOfRange, []⟩
    | .ok range =>
      let delivery ← c.transact g range
      return delivery.reply range.len []

/-- **A read does not look at its buffer**: it serves the request, and then stores the bytes. -/
theorem read_eq_serve (offset : UInt32) (buffer : List UInt8) :
    c.read offset buffer = (do
      let q ← c.serve offset buffer.length
      return q.over buffer) := by
  rw [read, readWith, serve]
  cases c.descriptor.generation with
  | none => rfl
  | some g =>
    cases hplan : g.plan c.size offset buffer.length with
    | error refusal => simp [hplan, Reply.over]
    | ok range => simp [hplan, Reply.over, Delivery.reply]

theorem callWith_of_request (memory : Memory) {call : Call} {offset : UInt32} {len : Nat}
    (h : call.request? = some (offset, len)) :
    c.callWith memory call = (do
      let reply ← c.readWith memory offset (call.buffer.take len)
      return ⟨call.put reply.result, reply.buffer ++ call.buffer.drop len⟩) := by
  cases call with
  | read offset' buffer =>
    cases h
    simp [callWith, Call.buffer, Call.put, Reply.map]
  | storageRead offset' buffer =>
    cases h
    simp [callWith, storageRead, Call.buffer, Call.put, Reply.map]
  | statusRead offset' bytes buffer =>
    rw [Call.request?] at h
    split at h
    · cases h
    · rename_i hlen
      cases h
      simp [callWith, statusRead, hlen, Call.buffer, Call.put, Reply.map]

/-- **A call with a request** is a read into the front of its buffer. -/
theorem call_of_request {call : Call} {offset : UInt32} {len : Nat}
    (h : call.request? = some (offset, len)) :
    c.call call = (do
      let reply ← c.read offset (call.buffer.take len)
      return ⟨call.put reply.result, reply.buffer ++ call.buffer.drop len⟩) :=
  c.callWith_of_request .ample h

/-- **A call without a request** does nothing but say so. -/
theorem call_of_no_request {call : Call} (h : call.request? = none) :
    c.call call = .done ⟨.status Failure.invalidLength.status, call.buffer⟩ := by
  cases call with
  | statusRead offset bytes buffer =>
    rw [Call.request?] at h
    split at h
    · rename_i hlen
      simp [Controller.call, callWith, statusRead, hlen, Call.buffer, Reply.map]
    · cases h
  | _ => cases h

section

variable {σ : Type} (b : Board σ) (s : σ) {call : Call}

theorem run_call_of_request {offset : UInt32} {len : Nat}
    (h : call.request? = some (offset, len)) :
    (c.call call).run b s =
      let q := (c.read offset (call.buffer.take len)).run b s
      { q with value := ⟨call.put q.value.result, q.value.buffer ++ call.buffer.drop len⟩ } := by
  rw [c.call_of_request h, Program.run_bind]
  simp [Record.andThen, Record.still]

theorem run_call_of_no_request (h : call.request? = none) :
    (c.call call).run b s = .still ⟨.status Failure.invalidLength.status, call.buffer⟩ s := by
  rw [c.call_of_no_request h, Program.run_done]

end

/-! ### Memory -/

section

variable {c} {memory : Memory}

/-- The memory that a plan needs is there, if anything is planned. -/
def HasMemory (c : Controller) (memory : Memory) (offset : UInt32) (len : Nat) : Prop :=
  ∀ g range, c.descriptor.generation = some g → g.plan c.size offset len = .ok range →
    memory.grants (g.scratch range) = true

/-- A bank of generation one is read without memory. -/
theorem hasMemory_of_one (hg : c.descriptor.generation = some .one) (memory : Memory)
    (offset : UInt32) (len : Nat) : c.HasMemory memory offset len := by
  intro g range hg' hplan
  obtain rfl := Option.some.inj (hg.symm.trans hg')
  exact memory.grants_scratch_one range

theorem readWith_of_hasMemory {offset : UInt32} {buffer : List UInt8}
    (h : c.HasMemory memory offset buffer.length) :
    c.readWith memory offset buffer = c.read offset buffer := by
  rw [read, readWith, readWith]
  cases hg : c.descriptor.generation with
  | none => rfl
  | some g =>
    cases hplan : g.plan c.size offset buffer.length with
    | error refusal => simp [hplan]
    | ok range => simp [hplan, h g range hg hplan]

theorem exists_readWith_of_not_hasMemory {offset : UInt32} {buffer : List UInt8}
    (h : ¬ c.HasMemory memory offset buffer.length) : ∃ bytes, memory.grants bytes = false ∧
      c.readWith memory offset buffer = (do
        Bus.log (.reading buffer.length offset)
        Bus.log (.noMemory bytes)
        return ⟨.error .allocationFailure, buffer⟩) := by
  simp only [HasMemory, Classical.not_forall] at h
  obtain ⟨g, range, hg, hplan, hrefused⟩ := h
  have hgrants : memory.grants (g.scratch range) = false := Bool.eq_false_iff.2 hrefused
  refine ⟨g.scratch range, hgrants, ?_⟩
  rw [readWith, hg]
  simp [hplan, hgrants]

/-- **Memory decides whether a call is carried out, and not how.** A call with a request goes as if
there were always enough, or it fails, and the board and the buffer stay as they are. -/
theorem run_callWith {σ : Type} (b : Board σ) (s : σ) (memory : Memory) {call : Call}
    {offset : UInt32} {len : Nat} (h : call.request? = some (offset, len)) :
    (c.callWith memory call).run b s = (c.call call).run b s ∨
      ∃ bytes, memory.grants bytes = false ∧
        (c.callWith memory call).run b s =
          ⟨⟨call.put (.error .allocationFailure), call.buffer⟩, s, [],
            [.reading len offset, .noMemory bytes]⟩ := by
  have hlength : (call.buffer.take len).length = len :=
    List.length_take_of_le (Call.le_length_buffer h)
  rw [c.callWith_of_request memory h]
  by_cases hmemory : c.HasMemory memory offset len
  · left
    rw [c.call_of_request h, readWith_of_hasMemory (by rwa [hlength])]
  · right
    obtain ⟨bytes, hrefused, hread⟩ :=
      exists_readWith_of_not_hasMemory (by rwa [hlength] : ¬ c.HasMemory memory offset
        (call.buffer.take len).length)
    refine ⟨bytes, hrefused, ?_⟩
    rw [hread, hlength]
    simp [Record.andThen, Record.still]

-- the four bytes are in three halfwords, for which there is no memory
example :
    let memory : Memory := ⟨fun bytes => decide (bytes < 6), rfl⟩
    let r := ((⟨.rk3568, {}⟩ : Controller).callWith memory (.read 1 [0, 0, 0, 0])).run
      (Bench.board {}) (⟨⟨[]⟩, {}⟩ : Bench Bench.Script)
    r.trace = [] ∧ r.log.map Message.text =
      ["otp: read 4 bytes at 1", "failed to allocate 6 byte read buffer"] := by
  decide +kernel

end

end Controller

end FuseBank
