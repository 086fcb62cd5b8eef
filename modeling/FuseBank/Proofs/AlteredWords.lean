import FuseBank.Proofs.VeiledFuses

/-!
# Boards on which a register shows other words

On the altered board all is as it was, but each word that one register shows is replaced by another,
which may depend on how many it has shown before (`Board.altered`). A program that is alike to
itself with that register hidden does the same on both boards and leaves them in the same state, and the
events are the same but for the words that the register shows. Those are altered one by one, and
what of the program's value does not depend on them is the same (`Program.alteredRun`).

## Main statements

* `Board.alteredRun_perform`: an action on the altered board.
* `Program.alteredRun`: a program on the altered board.
-/

namespace FuseBank

variable {σ : Type} {register : Nat} {alter : Nat → UInt32 → UInt32}

/-- What an access to `offset` yields when the words of `register` are altered, `k` of which it has
shown before. -/
def alteredAnswer (register : Nat) (alter : Nat → UInt32 → UInt32) (offset k : Nat)
    (answer : UInt32 × σ) : UInt32 × σ × Nat :=
  if offset = register then (alter k answer.1, answer.2, k + 1) else (answer.1, answer.2, k)

/-- The same board, but for the words that a register shows. It counts them. -/
def Board.altered (b : Board σ) (register : Nat) (alter : Nat → UInt32 → UInt32) :
    Board (σ × Nat) where
  read offset s := alteredAnswer register alter offset s.2 (b.read offset s.1)
  lane := b.lane.map fun lane offset s =>
    alteredAnswer register alter offset s.2 (lane offset s.1)
  write offset value s := (b.write offset value s.1, s.2)
  delay us s := (b.delay us s.1, s.2)
  enableClocks ids s := ((b.enableClocks ids s.1).1, (b.enableClocks ids s.1).2, s.2)
  disableClocks ids s := (b.disableClocks ids s.1, s.2)
  reset := b.reset.map fun line =>
    { assert := fun s => ((line.assert s.1).1, (line.assert s.1).2, s.2)
      release := fun s => ((line.release s.1).1, (line.release s.1).2, s.2) }

/-- Two runs go the same but for the words that a register shows. In the second they are altered,
`k` having been shown before. -/
structure AlteredRun {α β : Type} (register : Nat) (alter : Nat → UInt32 → UInt32) (k : Nat)
    (R : α → β → Prop) (r : Record σ α) (r' : Record (σ × Nat) β) : Prop where
  value : R r.value r'.value
  state : r'.state = (r.state, k + (Trace.shown register r.trace).length)
  shown : Trace.shown register r'.trace =
    (Trace.shown register r.trace).mapIdx fun i => alter (k + i)
  trace : r'.trace.map (Event.veiled (some register)) = r.trace.map (Event.veiled (some register))
  log : r'.log = r.log

theorem alteredRun_of_unshown {α : Type} {R : α → α → Prop} {r : Record σ α}
    (h : Trace.shown register r.trace = []) (hvalue : R r.value r.value) (k : Nat) :
    AlteredRun register alter k R r ⟨r.value, (r.state, k), r.trace, r.log⟩ := by
  constructor
  case value => exact hvalue
  case state => simp [h]
  case shown => simp [h]
  case trace => rfl
  case log => rfl

variable (register alter)

theorem alteredRun_of_access {α : Type} {access : Nat → UInt32 → Event}
    (haccess : access = .read ∨ access = .readLane) (take : UInt32 → α) (offset k : Nat)
    (answer : UInt32 × σ) :
    let answer' := alteredAnswer register alter offset k answer
    AlteredRun register alter k (fun value value' => offset ≠ register → value = value')
      ⟨take answer.1, answer.2, [access offset answer.1], []⟩
      ⟨take answer'.1, answer'.2, [access offset answer'.1], []⟩ := by
  intro answer'
  by_cases h : offset = register
  · have hanswer : answer' = (alter k answer.1, answer.2, k + 1) := if_pos h
    rw [hanswer]
    rcases haccess with rfl | rfl <;>
      refine ⟨fun hne => absurd h hne, ?_, ?_, ?_, rfl⟩ <;>
      simp [Trace.shown, Event.shown?, Event.veiled, h]
  · have hanswer : answer' = (answer.1, answer.2, k) := if_neg h
    rw [hanswer]
    refine alteredRun_of_unshown ?_ (fun _ => rfl) k
    rcases haccess with rfl | rfl <;> simp [Trace.shown, Event.shown?, h]

variable {register}

/-- **An action on the altered board** does the same, and is given the same answer unless it reads a
hidden register. -/
theorem Board.alteredRun_perform (b : Board σ) {hidden : List Nat} (hmem : register ∈ hidden)
    (action : Action) (s : σ) (k : Nat) :
    AlteredRun register alter k
      (fun answer answer' => action.Unseeing hidden → answer = answer')
      (b.perform action s) ((b.altered register alter).perform action (s, k)) := by
  -- an action that reads the register does not go unseeing
  have hread : ∀ {offset}, action.looksAt? = some offset → action.Unseeing hidden →
      offset ≠ register := by
    intro offset hlooks hunseeing heq
    exact hunseeing register hmem (heq ▸ hlooks)
  cases action with
  | read offset =>
    have hrun := alteredRun_of_access register alter (.inl rfl) id offset k (b.read offset s)
    exact { hrun with value := fun hunseeing => hrun.value (hread rfl hunseeing) }
  | readLane offset =>
    cases hl : b.lane with
    | none =>
      have hrun := alteredRun_of_access register alter (.inl rfl) UInt32.toUInt8 offset k
        (b.read offset s)
      simp only [perform, altered, hl, Option.map_none]
      exact { hrun with value := fun hunseeing => hrun.value (hread rfl hunseeing) }
    | some lane =>
      have hrun := alteredRun_of_access register alter (.inr rfl) UInt32.toUInt8 offset k
        (lane offset s)
      simp only [perform, altered, hl, Option.map_some]
      exact { hrun with value := fun hunseeing => hrun.value (hread rfl hunseeing) }
  | write | delay | disableClocks | log => exact alteredRun_of_unshown rfl (fun _ => rfl) k
  | enableClocks ids =>
    refine alteredRun_of_unshown ?_ (fun _ => rfl) k
    simp only [perform]
    cases (b.enableClocks ids s).1 <;> rfl
  | assertReset =>
    cases hr : b.reset with
    | none =>
      simp only [perform, altered, hr, Option.map_none]
      exact alteredRun_of_unshown rfl (fun _ => rfl) k
    | some line =>
      simp only [perform, altered, hr, Option.map_some]
      refine alteredRun_of_unshown ?_ (fun _ => rfl) k
      cases (line.assert s).1 <;> rfl
  | releaseReset =>
    cases hr : b.reset with
    | none =>
      simp only [perform, altered, hr, Option.map_none]
      exact alteredRun_of_unshown rfl (fun _ => rfl) k
    | some line =>
      simp only [perform, altered, hr, Option.map_some]
      refine alteredRun_of_unshown ?_ (fun _ => rfl) k
      cases (line.release s).1 <;> rfl

/-- **A program on the altered board** does the same if it does not depend on the words. -/
theorem Program.alteredRun {α β : Type} (b : Board σ) {hidden : List Nat}
    (hmem : register ∈ hidden) {R : α → β → Prop} {p : Program α} {p' : Program β}
    (h : p.Alike hidden R p') (s : σ) (k : Nat) :
    AlteredRun register alter k R (p.run b s) (p'.run (b.altered register alter) (s, k)) := by
  induction h generalizing s k with
  | done hvalue => exact ⟨hvalue, rfl, rfl, rfl, rfl⟩
  | @act action next next' _ ih =>
    have hfirst := b.alteredRun_perform alter hmem action s k
    have hrest := ih _ _ hfirst.value (b.perform action s).state
      (k + (Trace.shown register (b.perform action s).trace).length)
    rw [← hfirst.state] at hrest
    rw [run_act, run_act]
    constructor
    case value => exact hrest.value
    case state =>
      simp only [Record.andThen, hrest.state, Trace.shown_append, List.length_append, Nat.add_assoc]
    case shown =>
      have hplace : ∀ i m, k + (i + m) = k + m + i := fun i m => by omega
      simp only [Record.andThen, Trace.shown_append, hfirst.shown, hrest.shown, List.mapIdx_append,
        hplace]
    case trace => simp only [Record.andThen, List.map_append, hfirst.trace, hrest.trace]
    case log => simp only [Record.andThen, hfirst.log, hrest.log]

end FuseBank
