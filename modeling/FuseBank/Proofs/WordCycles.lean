import FuseBank.Bench
import FuseBank.Bench.Script
import FuseBank.Proofs.Footprint

/-!
# The word loop, cycle by cycle

The register accesses of the word loop are those of one cycle after another, for the words of the
range in ascending order, whatever the registers show. A cycle is opened by two writes. Then the
status register is read, up to the first sample that shows completion or until the time is spent.
The completion is acknowledged by a write of its bit; generation two reads the quality of the word,
and the word is read from the data register if its quality is no fault.

Nothing is accessed after a cycle that fails. The samples of that cycle have run out, and it is not
acknowledged, or the quality of its word is a fault. So the data register shows no word before its
completion was seen, and none that is at fault.

## Main statements

* `Generation.exists_cycle_of_course`: the accesses in the cycle of a word.
* `word_cycles_conform`: the accesses in the word loop of a planned request.
-/

namespace FuseBank

open Register

/-! ### Accesses -/

namespace Trace

/-- The register accesses among some events. -/
def accesses (trace : List Event) : List Event := trace.filter Event.isAccess

@[simp] theorem accesses_append (t u : List Event) :
    accesses (t ++ u) = accesses t ++ accesses u :=
  List.filter_append t u

end Trace

namespace Poll

/-- The samples in which a bit is waited for, with so many pauses between them, and whether it was
found. -/
structure Sampled (mask : UInt32) (pauses : Nat) (found : Bool) (samples : List UInt32) :
    Prop where
  /-- None but the last shows it. -/
  eq_zero_of_mem_dropLast : ∀ x ∈ samples.dropLast, x &&& mask = 0
  /-- It is found if a sample shows it. -/
  found_iff : found = true ↔ ∃ x ∈ samples, x &&& mask ≠ 0
  /-- There is at most one sample more than pauses. -/
  length_le : samples.length ≤ pauses + 1
  /-- It is not given up before. -/
  length_eq : found = false → samples.length = pauses + 1

theorem accesses_vain (p : Poll) (us : UInt32) (samples : List UInt32) :
    Trace.accesses (p.vain us samples) = samples.map (.read p.register) := by
  induction samples with
  | nil => rfl
  | cons sample samples ih => exact congrArg (Event.read p.register sample :: ·) ih

/-- A poll reads its register, and clears its bits if it finds one of them up. -/
theorem sampled_of_course {p : Poll} {us : UInt32} {pauses : Nat} {up : Bool}
    {trace : List Event} (h : p.Course us pauses up trace) : ∃ samples,
      Sampled p.mask pauses up samples ∧
        Trace.accesses trace = samples.map (.read p.register) ++
          if up then [.write p.register p.mask] else [] := by
  cases h with
  | @up samples sample hlen hvain hup =>
    refine ⟨samples ++ [sample], ?_, ?_⟩
    · constructor
      case eq_zero_of_mem_dropLast => rwa [List.dropLast_concat]
      case found_iff => exact iff_of_true rfl ⟨sample, by simp, hup⟩
      case length_le => simpa using hlen
      case length_eq => simp
    · rw [Trace.accesses_append, accesses_vain, List.map_append, List.append_assoc]
      rfl
  | @spent samples sample hlen hvain hdown =>
    refine ⟨samples ++ [sample], ?_, ?_⟩
    · constructor
      case eq_zero_of_mem_dropLast => rwa [List.dropLast_concat]
      case found_iff => simpa [hdown] using hvain
      case length_le => simp [hlen]
      case length_eq => simp [hlen]
    · rw [Trace.accesses_append, accesses_vain, List.map_append]
      exact (List.append_nil _).symm

end Poll

/-! ### Cycles -/

namespace Generation

/-- The writes that open the cycle of a word, value by value. -/
def opening (g : Generation) (address : UInt32) : List Event :=
  match g with
  | one | two =>
    [.write User.address (address ||| 0xffff0000), .write User.trigger 0x00010001]
  | three =>
    [.write Sequencer.control (((address + 0x300) <<< 16) ||| 0x100), .write Sequencer.trigger 1]

theorem start_eq_opening {g : Generation} {address : UInt32} (ha : g.Reaches address) :
    g.start address = g.opening address := by
  cases g with
  | one | two => rfl
  | three =>
    rw [start, ControlWord.bits_fetchAt, Bench.Device.toUInt32_place_three ha]
    rfl

end Generation

/-- What is accessed in the cycle of a word, and what the registers show then. -/
structure Cycle where
  /-- The address of the word. -/
  address : UInt32
  /-- What the status register shows, sample by sample. -/
  samples : List UInt32
  /-- Whether the completion of the cycle is acknowledged. -/
  acknowledged : Bool
  /-- What the quality register shows, if it is read. -/
  quality : Option UInt32
  /-- The read of the data register, if it is read. -/
  readout : Option Event
  deriving DecidableEq, Repr

namespace Cycle

/-- The accesses in a cycle, in order. -/
def accesses (g : Generation) (c : Cycle) : List Event :=
  g.opening c.address ++
    ((c.samples.map (.read g.statusRegister) ++
        if c.acknowledged then [.write g.statusRegister g.completion] else []) ++
      (c.quality.toList.map (.read User.quality) ++ c.readout.toList))

/-- How a cycle goes, by what the registers show in it. -/
structure Conforms (g : Generation) (t : Timing) (c : Cycle) : Prop where
  /-- The status is sampled until it shows completion or the time is spent, and completion is
  acknowledged. -/
  sampled : Poll.Sampled g.completion (t.pollTimeout.toNat ⌈/⌉ max t.pollTick.toNat 1)
    c.acknowledged c.samples
  /-- Generation two reads the quality of the word after that. -/
  quality_iff : c.quality.isSome ↔ g = .two ∧ ∃ x ∈ c.samples, x &&& g.completion ≠ 0
  /-- The word is read after completion unless its quality is a fault. -/
  readout_iff : c.readout.isSome ↔ (∃ x ∈ c.samples, x &&& g.completion ≠ 0) ∧
    ∀ q ∈ c.quality, User.isFault q = false
  /-- It is read from the data register, in generation one perhaps by the byte lane. -/
  readout_eq : ∀ e ∈ c.readout, ∃ word, e = .read g.dataRegister word ∨
    g = .one ∧ e = .readLane g.dataRegister word
  /-- Nothing else in the cycle accesses the data register. -/
  data_iff : (∃ e ∈ c.accesses g, e.register? = some g.dataRegister) ↔ c.readout.isSome

/-- How a cycle fails. -/
inductive Fails (c : Cycle) : Failure → Prop
  /-- Its samples have run out, and nothing follows them. -/
  | late (hack : c.acknowledged = false) (hquality : c.quality = none)
      (hreadout : c.readout = none) : Fails c .pollTimeout
  /-- Its word is at fault, which is the last that is seen of it. -/
  | faulty {quality : UInt32} (hack : c.acknowledged = true) (hquality : c.quality = some quality)
      (hfault : User.isFault quality = true) (hreadout : c.readout = none) :
      Fails c .integrityFault

theorem data_iff_of_readout {g : Generation} {c : Cycle}
    (h : ∀ e ∈ c.readout, ∃ word, e = .read g.dataRegister word ∨
      g = .one ∧ e = .readLane g.dataRegister word) :
    (∃ e ∈ c.accesses g, e.register? = some g.dataRegister) ↔ c.readout.isSome := by
  have hopening : ∀ e ∈ g.opening c.address, e.register? ≠ some g.dataRegister := by
    intro e he
    cases g <;> rcases List.mem_pair.1 he with rfl | rfl <;> exact ne_of_beq_false rfl
  have hstatus : some g.statusRegister ≠ some g.dataRegister := by cases g <;> decide
  have hquality : some User.quality ≠ some g.dataRegister := by cases g <;> decide
  constructor
  · rintro ⟨e, he, hreg⟩
    rw [accesses, List.mem_append, List.mem_append, List.mem_append, List.mem_append] at he
    rcases he with he | (he | he) | he | he
    · exact absurd hreg (hopening e he)
    · obtain ⟨sample, -, rfl⟩ := List.mem_map.1 he
      exact absurd hreg hstatus
    · split at he
      · obtain rfl := List.mem_singleton.1 he
        exact absurd hreg hstatus
      · cases he
    · obtain ⟨quality, -, rfl⟩ := List.mem_map.1 he
      exact absurd hreg hquality
    · exact Option.isSome_iff_exists.2 ⟨e, Option.mem_toList.1 he⟩
  · intro hsome
    obtain ⟨e, he⟩ := Option.isSome_iff_exists.1 hsome
    refine ⟨e, by simp [accesses, he], ?_⟩
    obtain ⟨word, rfl | ⟨-, rfl⟩⟩ := h e he <;> rfl

/-- A cycle goes by whether its completion is seen, and by the quality of its word. -/
theorem conforms_of_sampled {g : Generation} {t : Timing} {address : UInt32}
    {samples : List UInt32} {up : Bool} {quality : Option UInt32} {readout : Option Event}
    (hsampled : Poll.Sampled g.completion t.patience up samples)
    (hquality : quality.isSome ↔ g = .two ∧ up = true)
    (hreadout : readout.isSome ↔ up = true ∧ ∀ q ∈ quality, User.isFault q = false)
    (heq : ∀ e ∈ readout, ∃ word, e = .read g.dataRegister word ∨
      g = .one ∧ e = .readLane g.dataRegister word) :
    Conforms g t ⟨address, samples, up, quality, readout⟩ := by
  rw [hsampled.found_iff] at hquality hreadout
  constructor
  case sampled => exact hsampled
  case quality_iff => exact hquality
  case readout_iff => exact hreadout
  case readout_eq => exact heq
  case data_iff => exact data_iff_of_readout heq

end Cycle

namespace Generation

/-- A word that is brought in is read from the data register, in generation two after a quality
value that is no fault. -/
theorem accesses_of_readout_ok {g : Generation} {word : UInt32} {trace : List Event}
    (h : g.Readout (.ok word) trace) : ∃ (quality : Option UInt32) (e : Event),
      Trace.accesses trace = quality.toList.map (.read User.quality) ++ [e] ∧
        (quality.isSome ↔ g = .two) ∧ (∀ q ∈ quality, User.isFault q = false) ∧
        ∃ shown, e = .read g.dataRegister shown ∨ g = .one ∧ e = .readLane g.dataRegister shown := by
  cases h with
  | byte shown => exact ⟨none, _, rfl, by simp, by simp, shown, .inl rfl⟩
  | lane shown => exact ⟨none, _, rfl, by simp, by simp, shown, .inr ⟨rfl, rfl⟩⟩
  | @sound quality _ hsound => exact ⟨some quality, _, rfl, by simp, by simpa, word, .inl rfl⟩
  | word => exact ⟨none, _, rfl, by simp, by simp, word, .inl rfl⟩

theorem accesses_of_readout_error {g : Generation} {failure : Failure} {trace : List Event}
    (h : g.Readout (.error failure) trace) : g = .two ∧ failure = .integrityFault ∧
      ∃ quality, Trace.accesses trace = [.read User.quality quality] ∧
        User.isFault quality = true := by
  cases h with
  | @fault quality hfault => exact ⟨rfl, rfl, quality, rfl, hfault⟩

/-- **The accesses in the cycle of a word.** -/
theorem exists_cycle_of_course {g : Generation} {t : Timing} {address : UInt32}
    {result : Except Failure UInt32} {trace : List Event} (ha : g.Reaches address)
    (h : g.CycleCourse t address result trace) : ∃ c : Cycle,
      c.address = address ∧ Trace.accesses trace = c.accesses g ∧ c.Conforms g t ∧
        (∀ word, result = .ok word → c.readout.isSome) ∧
        (∀ failure, result = .error failure → c.Fails failure) := by
  have hstart : Trace.accesses (g.start address) = g.opening address := by
    rw [start_eq_opening ha]
    cases g <;> rfl
  cases h with
  | @complete polling readout result hpolling hreadout =>
    obtain ⟨samples, hsampled, hpoll⟩ := Poll.sampled_of_course hpolling
    rw [poll_mask] at hsampled
    rw [poll_mask, poll_register] at hpoll
    rw [Trace.accesses_append, Trace.accesses_append, hstart, hpoll]
    cases result with
    | ok word =>
      obtain ⟨quality, e, hreads, hquality, hsound, he⟩ := accesses_of_readout_ok hreadout
      rw [hreads]
      refine ⟨⟨address, samples, true, quality, some e⟩, rfl, rfl, ?_, fun _ _ => rfl, ?_⟩
      · refine Cycle.conforms_of_sampled hsampled ?_ (iff_of_true rfl ⟨rfl, hsound⟩) ?_
        · rw [hquality, and_iff_left rfl]
        · rintro _ ⟨⟩
          exact he
      · intro failure hfailure
        cases hfailure
    | error failure =>
      obtain ⟨rfl, rfl, quality, hreads, hfault⟩ := accesses_of_readout_error hreadout
      rw [hreads]
      refine ⟨⟨address, samples, true, some quality, none⟩, rfl, rfl, ?_, ?_, ?_⟩
      · exact Cycle.conforms_of_sampled hsampled (by simp) (by simp [hfault]) (by simp)
      · intro word hword
        cases hword
      · rintro _ ⟨⟩
        exact .faulty rfl rfl hfault rfl
  | late hpolling =>
    obtain ⟨samples, hsampled, hpoll⟩ := Poll.sampled_of_course hpolling
    rw [poll_mask] at hsampled
    rw [poll_mask, poll_register] at hpoll
    rw [Trace.accesses_append, hstart, hpoll]
    refine ⟨⟨address, samples, false, none, none⟩, rfl, ?_, ?_, ?_, ?_⟩
    · exact congrArg (g.opening address ++ ·) (List.append_nil _).symm
    · exact Cycle.conforms_of_sampled hsampled (by simp) (by simp) (by simp)
    · intro word hword
      cases hword
    · rintro _ ⟨⟩
      exact .late rfl rfl rfl

/-! ### Rows of cycles -/

/-- The cycles of the words at some addresses, and what ends them early, if anything does. -/
structure Conforms (g : Generation) (t : Timing) (addresses : List UInt32)
    (failure : Option Failure) (cycles : List Cycle) : Prop where
  /-- There is one for each word, in order, as far as they go. -/
  addresses_prefix : cycles.map Cycle.address <+: addresses
  /-- Each goes as a cycle does. -/
  each : ∀ c ∈ cycles, c.Conforms g t
  /-- Only in the last the word may not be read. -/
  isSome_of_mem_dropLast : ∀ c ∈ cycles.dropLast, c.readout.isSome
  /-- Nothing fails exactly if all words are read. -/
  eq_none_iff : failure = none ↔
    cycles.map Cycle.address = addresses ∧ ∀ c ∈ cycles, c.readout.isSome
  /-- What fails is the last. -/
  fails_of_mem_getLast? : ∀ f ∈ failure, ∃ c ∈ cycles.getLast?, c.Fails f

theorem exists_cycles_of_row {g : Generation} {t : Timing} {addresses words : List UInt32}
    {failure : Option Failure} {trace : List Event} (ha : ∀ a ∈ addresses, g.Reaches a)
    (h : g.Row t addresses words failure trace) : ∃ cycles : List Cycle,
      Trace.accesses trace = cycles.flatMap (Cycle.accesses g) ∧
        g.Conforms t addresses failure cycles := by
  induction h with
  | served =>
    refine ⟨[], rfl, ?_⟩
    constructor <;> simp
  | @next address word addresses words failure first rest hfirst hrest ih =>
    obtain ⟨c, rfl, hacc, hc, hserved, -⟩ := exists_cycle_of_course (ha address (by simp)) hfirst
    obtain ⟨cycles, haccs, hcycles⟩ := ih fun a h => ha a (List.mem_cons_of_mem _ h)
    have hread := hserved word rfl
    refine ⟨c :: cycles, ?_, ?_⟩
    · rw [Trace.accesses_append, hacc, haccs, List.flatMap_cons]
    · constructor
      case addresses_prefix => exact (List.prefix_cons_inj _).2 hcycles.addresses_prefix
      case each => exact List.forall_mem_cons.2 ⟨hc, hcycles.each⟩
      case isSome_of_mem_dropLast =>
        intro d hd
        cases cycles with
        | nil => cases hd
        | cons next cycles =>
          rw [List.dropLast_cons_cons, List.mem_cons] at hd
          rcases hd with rfl | hd
          · exact hread
          · exact hcycles.isSome_of_mem_dropLast d hd
      case eq_none_iff =>
        rw [hcycles.eq_none_iff, List.map_cons, List.cons_inj_right, List.forall_mem_cons,
          and_iff_right hread]
      case fails_of_mem_getLast? =>
        intro f hf
        obtain ⟨last, hlast, hfails⟩ := hcycles.fails_of_mem_getLast? f hf
        exact ⟨last, List.mem_getLast?_cons hlast, hfails⟩
  | @failed address addresses failure last hlast =>
    obtain ⟨c, rfl, hacc, hc, -, hfails⟩ := exists_cycle_of_course (ha address (by simp)) hlast
    have hfailed := hfails failure rfl
    have hnone : c.readout = none := by cases hfailed <;> assumption
    refine ⟨[c], by simpa using hacc, ?_⟩
    constructor
    case addresses_prefix => exact (List.prefix_cons_inj _).2 List.nil_prefix
    case each => simpa using hc
    case isSome_of_mem_dropLast => simp
    case eq_none_iff => simp [hnone]
    case fails_of_mem_getLast? => simpa using hfailed

theorem exists_cycles_of_collected {g : Generation} {t : Timing} {range : WordRange}
    {delivery : Delivery} {trace : List Event} (ha : ∀ a ∈ range.words, g.Reaches a)
    (h : g.Collected t range delivery trace) : ∃ cycles : List Cycle,
      Trace.accesses trace = cycles.flatMap (Cycle.accesses g) ∧
        g.Conforms t range.words delivery.failure cycles := by
  obtain ⟨hrow⟩ := h
  rw [failure_deliver]
  exact exists_cycles_of_row ha hrow

end Generation

/-- **The word loop, cycle by cycle.** Whatever the registers show, the words of a planned request
are fetched one after another, each in a cycle that depends on what the registers show in it alone,
until one fails or all are read. -/
theorem word_cycles_conform {σ : Type} {g : Generation} {size offset : UInt32} {len : Nat}
    {range : WordRange} (hplan : g.plan size offset len = .ok range) (t : Timing) (b : Board σ)
    (s : σ) :
    let r := (g.collect t range).run b s
    ∃ cycles : List Cycle, Trace.accesses r.trace = cycles.flatMap (Cycle.accesses g) ∧
      g.Conforms t range.words r.value.failure cycles := by
  intro r
  obtain ⟨last, -, hplan', hreach⟩ := Generation.exists_plan (Generation.accepts_of_plan hplan)
  obtain rfl := Except.ok.inj (hplan.symm.trans hplan')
  exact Generation.exists_cycles_of_collected hreach
    (Generation.collected_of_leaves hreach (Program.leaves_run b _ s))

/-- The second of two halfwords is at fault, and its first sample came too early. -/
theorem word_cycles_conform_fault :
    let b : Board (Bench Bench.Script) := Bench.board {}
    let s : Bench Bench.Script := ⟨⟨[(status, [⟨4, 1⟩, ⟨0, 1⟩, ⟨4, 1⟩]),
      (User.quality, [⟨0, 1⟩, ⟨0x20, 1⟩]), (User.data, [⟨0x2211, 1⟩])]⟩, {}⟩
    let range : WordRange := ⟨0, 2, 1, 3, 2⟩
    let r := (Generation.two.collect {} range).run b s
    Generation.two.plan 0x80 1 3 = .ok range ∧ r.value = .failed .integrityFault ∧
      ∃ cycles : List Cycle, Trace.accesses r.trace = cycles.flatMap (Cycle.accesses .two) ∧
        Generation.two.Conforms {} range.words r.value.failure cycles := by
  intro b s range r
  have hplan : Generation.two.plan 0x80 1 3 = .ok range := by decide
  exact ⟨hplan, by decide +kernel, word_cycles_conform hplan {} b s⟩

end FuseBank
