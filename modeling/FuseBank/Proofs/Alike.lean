import FuseBank.Proofs.Polling
import FuseBank.Proofs.Requests

/-!
# Programs that do the same whatever some registers hold

Two programs are alike if they do the same things in the same order as long as they are given the
same answers, where the answers to reads of some registers, the hidden ones, need not be the
same (`Program.Alike`). So what a hidden register holds decides neither what is done next nor for
how long. The values that two such programs come to are related, in a way that says what of them does
not depend on the hidden registers.

A controller's read is alike to itself when the data registers are hidden, through all of its
stages: whether a word comes, how many words come and what fails are the same, and only
the words themselves may differ.

## Main statements

* `Program.Alike.bind`: one program after another.
* `Generation.alike_gather`: a row of read cycles.
* `Controller.alike_serve`: a request that is served.
-/

namespace FuseBank

open Register

/-- The register that is read by an action, if one is. -/
def Action.looksAt? : Action → Option Nat
  | .read offset | .readLane offset => some offset
  | _ => none

/-- An action does not read any of these registers. -/
def Action.Unseeing (hidden : List Nat) (action : Action) : Prop :=
  ∀ register ∈ hidden, action.looksAt? ≠ some register

theorem Action.unseeing_of_none {hidden : List Nat} {action : Action}
    (h : action.looksAt? = none) : action.Unseeing hidden := by
  intro register _ hsome
  rw [h] at hsome
  cases hsome

theorem Action.unseeing_of_not_mem {hidden : List Nat} {action : Action} {offset : Nat}
    (h : action.looksAt? = some offset) (hnot : offset ∉ hidden) : action.Unseeing hidden := by
  intro register hmem hsome
  obtain rfl : offset = register := Option.some.inj (h.symm.trans hsome)
  exact hnot hmem

/-! ### Alike programs -/

namespace Program

variable {α β α' β' : Type} {hidden : List Nat}

/-- Two programs do the same whatever the hidden registers hold, and come to related values. -/
inductive Alike (hidden : List Nat) (R : α → β → Prop) : Program α → Program β → Prop
  /-- Both are done. -/
  | done {value : α} {value' : β} (h : R value value') :
      Alike hidden R (.done value) (.done value')
  /-- Both do one thing, and go on alike after answers that are the same or hidden. -/
  | act {action : Action} {next : action.Answer → Program α} {next' : action.Answer → Program β}
      (h : ∀ answer answer', (action.Unseeing hidden → answer = answer') →
        Alike hidden R (next answer) (next' answer')) :
      Alike hidden R (.act action next) (.act action next')

variable {R : α → β → Prop} {S : α' → β' → Prop}

/-- **One program after another** is alike if each is. -/
theorem Alike.bind {p : Program α} {p' : Program β} {f : α → Program α'} {f' : β → Program β'}
    (hp : p.Alike hidden R p')
    (hf : ∀ value value', R value value' → (f value).Alike hidden S (f' value')) :
    (p >>= f).Alike hidden S (p' >>= f') := by
  induction hp with
  | done h => exact hf _ _ h
  | act _ ih => exact .act ih

/-- After a program whose value is the same, what follows need only be alike for each value. -/
theorem Alike.bind_eq {p : Program α} {f : α → Program α'} {f' : α → Program β'}
    (hp : p.Alike hidden Eq p) (hf : ∀ value, (f value).Alike hidden S (f' value)) :
    (p >>= f).Alike hidden S (p >>= f') := by
  refine hp.bind fun value value' h => ?_
  subst h
  exact hf value

/-- The answer to an action that reads no hidden register is the same. -/
theorem alike_of_unseeing (action : Action) (h : action.Unseeing hidden) :
    (perform action).Alike hidden Eq (perform action) :=
  .act fun _ _ heq => .done (heq h)

/-- So is the answer to one that reads nothing. -/
theorem alike_of_blind (action : Action) (h : action.looksAt? = none) :
    (perform action).Alike hidden Eq (perform action) :=
  alike_of_unseeing action (Action.unseeing_of_none h)

end Program

/-! ### The actions -/

namespace Bus

open Program

variable {hidden : List Nat}

/-- A register that is not hidden is read as the same value. -/
theorem alike_read {offset : Nat} (h : offset ∉ hidden) :
    (read offset).Alike hidden Eq (read offset) :=
  alike_of_unseeing (.read offset) (Action.unseeing_of_not_mem rfl h)

/-- Of a register that may be hidden nothing is known. -/
theorem alike_read_hidden (offset : Nat) :
    (read offset).Alike hidden (fun _ _ => True) (read offset) :=
  .act fun _ _ _ => .done trivial

theorem alike_readLane_hidden (offset : Nat) :
    (readLane offset).Alike hidden (fun _ _ => True) (readLane offset) :=
  .act fun _ _ _ => .done trivial

theorem alike_write (offset : Nat) (value : UInt32) :
    (write offset value).Alike hidden Eq (write offset value) :=
  alike_of_blind (.write offset value) rfl

theorem alike_delay (us : UInt32) : (delay us).Alike hidden Eq (delay us) :=
  alike_of_blind (.delay us) rfl

theorem alike_enableClocks (ids : List String) :
    (enableClocks ids).Alike hidden Eq (enableClocks ids) :=
  alike_of_blind (.enableClocks ids) rfl

theorem alike_disableClocks (ids : List String) :
    (disableClocks ids).Alike hidden Eq (disableClocks ids) :=
  alike_of_blind (.disableClocks ids) rfl

theorem alike_assertReset : assertReset.Alike hidden Eq assertReset :=
  alike_of_blind .assertReset rfl

theorem alike_releaseReset : releaseReset.Alike hidden Eq releaseReset :=
  alike_of_blind .releaseReset rfl

theorem alike_log (message : Message) : (log message).Alike hidden Eq (log message) :=
  alike_of_blind (.log message) rfl

end Bus

open Bus Program

/-! ### The stages before a word is read -/

variable {hidden : List Nat}

theorem Poll.alike_sampling {p : Poll} (h : p.register ∉ hidden) (us : UInt32) (left : Nat) :
    (p.sampling us left).Alike hidden Eq (p.sampling us left) := by
  induction left with
  | zero =>
    refine (alike_read h).bind_eq fun sample => ?_
    split
    · exact (alike_write _ _).bind_eq fun _ => .done rfl
    · exact .done rfl
  | succ left ih =>
    refine (alike_read h).bind_eq fun sample => ?_
    split
    · exact (alike_write _ _).bind_eq fun _ => .done rfl
    · exact (alike_delay us).bind_eq fun _ => ih

/-- A poll of a register that is not hidden ends the same. -/
theorem Poll.alike_await {p : Poll} (h : p.register ∉ hidden) (tick : UInt32)
    (complaint : Message) :
    (p.await tick complaint).Alike hidden Eq (p.await tick complaint) := by
  rw [await, wait_eq_sampling]
  refine (alike_sampling h _ _).bind_eq fun up => ?_
  cases up with
  | true => exact .done rfl
  | false => exact (alike_log complaint).bind_eq fun _ => .done rfl

theorem alike_resetPulse (hold : UInt32) :
    (resetPulse hold).Alike hidden Eq (resetPulse hold) := by
  refine alike_assertReset.bind_eq fun asserted => ?_
  cases asserted with
  | false => exact (alike_log _).bind_eq fun _ => .done rfl
  | true =>
    refine (alike_delay hold).bind_eq fun _ => alike_releaseReset.bind_eq fun released => ?_
    cases released with
    | false => exact (alike_log _).bind_eq fun _ => .done rfl
    | true => exact .done rfl

theorem EccLatch.alike_set (latch : EccLatch) (t : Timing) (h : status ∉ hidden) :
    (latch.set t).Alike hidden Eq (latch.set t) := by
  refine (alike_log _).bind_eq fun _ => ?_
  iterate 5 refine (alike_write _ _).bind_eq fun _ => ?_
  exact Poll.alike_await h t.pollTick .latchTimeout

/-- So does readying the user interface. -/
theorem EccLatch.alike_prepare (latch : EccLatch) (t : Timing) (h : status ∉ hidden) :
    (latch.prepare t).Alike hidden Eq (latch.prepare t) := by
  refine (alike_resetPulse t.resetHold).bind_eq fun completed => ?_
  cases completed with
  | false => exact (alike_log _).bind_eq fun _ => .done rfl
  | true =>
    refine (latch.alike_set t h).bind_eq fun done => ?_
    cases done with
    | false => exact .done rfl
    | true => exact .done rfl

theorem alike_userCycle (t : Timing) (address : UInt32) (h : status ∉ hidden) :
    (userCycle t address).Alike hidden Eq (userCycle t address) := by
  iterate 2 refine (alike_write _ _).bind_eq fun _ => ?_
  exact Poll.alike_await h t.pollTick .cycleTimeout

theorem alike_sequencerCycle (t : Timing) (address : UInt16) (h : Sequencer.status ∉ hidden) :
    (sequencerCycle t address).Alike hidden Eq (sequencerCycle t address) := by
  iterate 2 refine (alike_write _ _).bind_eq fun _ => ?_
  exact Poll.alike_await h t.pollTick .cycleTimeout

/-! ### Words -/

/-- The registers in which fuses show. -/
def fuseRegisters : List Nat := [User.data, Sequencer.data]

/-- What of a fetch does not depend on the fuses: whether a word comes, and if not why. -/
def fetchShape (result : Except Failure UInt32) : Except Failure Unit := result.map fun _ => ()

/-- What of a harvest does not depend on the fuses: how many words came, and what failed. -/
def Harvest.shape (h : Harvest) : Nat × Option Failure := (h.words.length, h.failure)

/-- What of a delivery does not depend on the fuses. -/
def Delivery.shape (d : Delivery) : Nat × Option Failure := (d.bytes.length, d.failure)

/-- What of a reply does not depend on the fuses: the result, and how many bytes are stored. -/
def Reply.shape {α : Type} (q : Reply α) : α × Nat := (q.result, q.buffer.length)

namespace Generation

/-- A read cycle brings in some word, or fails the same. -/
theorem alike_fetch (g : Generation) (t : Timing) (address : UInt32) :
    (g.fetch t address).Alike fuseRegisters (fun r r' => fetchShape r = fetchShape r')
      (g.fetch t address) := by
  have hstatus : status ∉ fuseRegisters := by decide
  cases g with
  | one =>
    refine (alike_userCycle t address hstatus).bind_eq fun done => ?_
    cases done with
    | false => exact .done rfl
    | true => exact (alike_readLane_hidden User.data).bind fun _ _ _ => .done rfl
  | two =>
    refine (alike_userCycle t address hstatus).bind_eq fun done => ?_
    cases done with
    | false => exact .done rfl
    | true =>
      refine (alike_read (by decide)).bind_eq fun quality => ?_
      split
      · exact (alike_log _).bind_eq fun _ => .done rfl
      · exact (alike_read_hidden User.data).bind fun _ _ _ => .done rfl
  | three =>
    rw [fetch]
    split
    · refine (alike_sequencerCycle t _ (by decide)).bind_eq fun done => ?_
      cases done with
      | false => exact .done rfl
      | true => exact (alike_read_hidden Sequencer.data).bind fun _ _ _ => .done rfl
    · exact .done rfl

/-- **A row of read cycles** brings in as many words, and is ended by the same failure. -/
theorem alike_gather (g : Generation) (t : Timing) (addresses : List UInt32)
    {fetched fetched' : List UInt32} (h : fetched.length = fetched'.length) :
    (gather (g.fetch t) fetched addresses).Alike fuseRegisters (fun r r' => r.shape = r'.shape)
      (gather (g.fetch t) fetched' addresses) := by
  induction addresses generalizing fetched fetched' with
  | nil => exact .done (by simp [Harvest.shape, h])
  | cons address addresses ih =>
    refine (g.alike_fetch t address).bind fun result result' hresult => ?_
    cases result with
    | ok word =>
      cases result' with
      | ok word' => exact ih (by simp [h])
      | error failure => cases hresult
    | error failure =>
      cases result' with
      | ok word' => cases hresult
      | error failure' =>
        obtain rfl : failure = failure' := Except.error.inj hresult
        exact .done (by simp [Harvest.shape, h])

/-- As many words make up as many bytes. -/
theorem shape_deliver (g : Generation) (range : WordRange) {harvest harvest' : Harvest}
    (h : harvest.shape = harvest'.shape) :
    (g.deliver range harvest).shape = (g.deliver range harvest').shape := by
  obtain ⟨words, failure⟩ := harvest
  obtain ⟨words', failure'⟩ := harvest'
  obtain ⟨hlength, hfailure⟩ := Prod.mk.inj h
  dsimp only at hlength hfailure
  subst hfailure
  cases failure with
  | none => simp [deliver, Delivery.shape, WordRange.window, WordRange.length_gathered, hlength]
  | some failure =>
    cases g <;> simp [deliver, Delivery.shape, WordRange.length_gathered, hlength]

theorem alike_collect (g : Generation) (t : Timing) (range : WordRange) :
    (g.collect t range).Alike fuseRegisters (fun d d' => d.shape = d'.shape)
      (g.collect t range) :=
  (g.alike_gather t range.words rfl).bind fun _ _ h => .done (g.shape_deliver range h)

/-- A planned read delivers as many bytes, and fails the same. -/
theorem alike_execute (g : Generation) (t : Timing) (range : WordRange) :
    (g.execute t range).Alike fuseRegisters (fun d d' => d.shape = d'.shape)
      (g.execute t range) := by
  rw [execute]
  cases g.latch? with
  | none => exact g.alike_collect t range
  | some latch =>
    refine (latch.alike_prepare t (by decide)).bind_eq fun failure => ?_
    cases failure with
    | some failure => exact .done rfl
    | none =>
      refine (alike_write _ _).bind_eq fun _ => (alike_delay _).bind_eq fun _ => ?_
      refine (g.alike_collect t range).bind fun _ _ h => ?_
      exact (alike_write _ _).bind_eq fun _ => .done h

end Generation

/-! ### Requests -/

namespace Controller

variable (c : Controller)

theorem alike_transact (g : Generation) (range : WordRange) :
    (c.transact g range).Alike fuseRegisters (fun d d' => d.shape = d'.shape)
      (c.transact g range) := by
  refine (alike_enableClocks _).bind_eq fun granted => ?_
  cases granted with
  | false => exact (alike_log _).bind_eq fun _ => .done rfl
  | true =>
    refine (g.alike_execute c.timing range).bind fun _ _ h => ?_
    exact (alike_disableClocks _).bind_eq fun _ => .done h

/-- **A request is served** with the same result, and as many bytes are stored for it. -/
theorem alike_serve (offset : UInt32) (len : Nat) :
    (c.serve offset len).Alike fuseRegisters (fun q q' => q.shape = q'.shape)
      (c.serve offset len) := by
  rw [serve]
  cases c.descriptor.generation with
  | none => exact .done rfl
  | some g =>
    refine (alike_log _).bind_eq fun _ => ?_
    cases g.plan c.size offset len with
    | error refusal => exact (alike_log _).bind_eq fun _ => .done rfl
    | ok range =>
      refine (c.alike_transact g range).bind fun d d' h => .done ?_
      obtain ⟨bytes, failure⟩ := d
      obtain ⟨bytes', failure'⟩ := d'
      obtain ⟨hlength, hfailure⟩ := Prod.mk.inj h
      dsimp only at hlength hfailure
      subst hfailure
      simp [Reply.shape, Delivery.reply, hlength]

end Controller

end FuseBank
