import FuseBank.Proofs.HonestRead

/-!
# What a prompt device delivers

A device is *prompt* if it completes every cycle before the polls for it give up. Whatever
state earlier reads have left such a device in, with bits up or pending, a countdown running
or the fuse macro taken, a read of it delivers the fuses that were asked for: a bit that is
up too early ends a poll too early, but the words are in the data register by then, and a
bit that is up too late is none that the next cycle waits for longer. So a prompt device is
honest, whatever holds of it.

## Main statements

* `read_bytes`, `read_halfwords`, `read_words`: what is read from a prompt device of each
  layout.
-/

namespace FuseBank.Bench

open Register

namespace Device

/-- A device that completes every cycle, each before so many pauses are over. -/
structure Prompt (d : Device) (patience : Nat) : Prop where
  /-- No cycle stalls. -/
  stallAfter : d.stallAfter = none
  /-- Completions show in time. -/
  latency : d.latency ≤ patience

theorem prompt_of_blank {d d' : Device} (h : d'.blank = d.blank) {patience : Nat}
    (hd : d.Prompt patience) : d'.Prompt patience :=
  ⟨(stallAfter_of_blank h).trans hd.stallAfter,
    (Nat.le_of_eq (latency_of_blank h)).trans hd.latency⟩

theorem completion_and_self (g : Generation) : g.completion &&& g.completion ≠ 0 := by
  cases g <;> decide

theorem polled_raise {d : Device} {bit : UInt32} (hbit : bit &&& bit ≠ 0) {left : Nat}
    (h : d.latency ≤ left) : ((d.raise bit).polled bit left).1 = true :=
  polled_of_pending (and_or_ne_zero hbit) h

/-- **A prompt device runs the cycle of a word in time.** -/
theorem cycle_of_prompt {d : Device} {g : Generation} {address : UInt32} {patience : Nat}
    (hd : d.Prompt patience) (ha : g.Reaches address) :
    (d.cycle g address patience).1 = true ∧
      (d.cycle g address patience).2.core = (d.completed g address).core := by
  have hc : d.completesCycle = true := by simp [completesCycle, hd.stallAfter]
  have hlatency : (d.completed g address).latency ≤ patience := by
    cases g <;> exact hd.latency
  rw [cycle, started_of_completes hc ha]
  exact ⟨polled_raise (completion_and_self g) hlatency, core_polled _ _ _⟩

theorem honest_of_prompt {d : Device} {patience : Nat} (hd : d.Prompt patience)
    (g : Generation) : d.Honest g patience fun _ => True where
  completed hblank _ _ ha _ := (cycle_of_prompt (prompt_of_blank hblank hd) ha).2
  keeps _ _ _ _ := trivial

end Device

theorem outcome_collect_of_prompt (w : Wiring) (t : Timing) {g : Generation} {d : Device}
    (r : Refusals) (hd : d.Serves g) (hp : d.Prompt t.patience) {offset last : UInt32} {len : Nat}
    (hlast : offset.toNat + len = last.toNat)
    (hreach : ∀ a ∈ WordRange.span g.wordSize.toNat offset.toNat len, g.Reaches (UInt32.ofNat a))
    (hsound : ∀ a ∈ WordRange.span g.wordSize.toNat offset.toNat len,
      d.Sound g (UInt32.ofNat a)) :
    ∃ d', (g.collect t (.widen offset last len g.wordSize)).outcome (board w) ⟨d, r⟩ =
        (⟨(List.range len).map fun i => d.fuse (g.fuseIndex (offset.toNat + i)), none⟩, ⟨d', r⟩) ∧
      d.Progress g ((WordRange.span g.wordSize.toNat offset.toNat len).map UInt32.ofNat) d' := by
  obtain ⟨delivery, d', hrun, -, ⟨rfl, hprogress⟩ | ⟨-, d₁, hblank, a, ha, hwhy⟩⟩ :=
    outcome_collect_of_honest w t r hd (Device.honest_of_prompt hp g) trivial hlast hreach
  · exact ⟨d', hrun, hprogress⟩
  · rcases hwhy with hdone | hs
    · have htrue := (Device.cycle_of_prompt (Device.prompt_of_blank hblank hp) (hreach a ha)).1
      rw [hdone] at htrue
      cases htrue
    · exact absurd (hsound a ha) hs

/-! ### Reads through the user interface -/

namespace Device

theorem polled_latched {d : Device} {patience : Nat} (hp : d.Prompt patience)
    (hside : d.stallSideband = false) (latch : EccLatch) :
    ((d.latched latch).polled sidebandDone patience).1 = true ∧
      ((d.latched latch).polled sidebandDone patience).2.core =
        ({ d with
          command := Sideband.writeLatch ||| Sideband.eccLatch
          operand := latch.word
          latch := some latch.word } : Device).core := by
  have hset : d.latched latch =
      ({ d with
        command := Sideband.writeLatch ||| Sideband.eccLatch
        operand := latch.word
        latch := some latch.word } : Device).raise sidebandDone := by
    simp [latched, runSideband, hside]
  rw [hset]
  exact ⟨polled_raise (by decide) hp.latency, core_polled _ _ _⟩

end Device

theorem outcome_execute_of_prompt (w : Wiring) (t : Timing) (r : Refusals) {g : Generation}
    (hg : g ≠ .three) {latch : EccLatch} (hlatch : g.latch? = some latch) {d : Device}
    (hlay : d.layout = g.layout) (hp : d.Prompt t.patience) (hside : d.stallSideband = false)
    (hreset : ResetGranted w r) {offset last : UInt32} {len : Nat}
    (hlast : offset.toNat + len = last.toNat)
    (hsound : ∀ a ∈ WordRange.span g.wordSize.toNat offset.toNat len,
      d.Sound g (UInt32.ofNat a)) :
    ∃ d' : Device, (g.execute t (.widen offset last len g.wordSize)).outcome (board w) ⟨d, r⟩ =
        (⟨(List.range len).map fun i => d.fuse (g.fuseIndex (offset.toNat + i)), none⟩,
          ⟨{ d' with userMode := false }, r⟩) ∧
      d'.fetched = d.fetched ++ (WordRange.span g.wordSize.toNat offset.toNat len).map
        (fun a => g.place (UInt32.ofNat a)) ∧
      d'.latch = some latch.word := by
  obtain ⟨hset, hcore⟩ := Device.polled_latched hp hside latch
  have hblank := Device.blank_readied d latch t.patience
  have hfuse := Device.fuse_of_blank hblank
  have hword : (d.readied latch t.patience).latch = some latch.word := by
    have := congrArg Device.latch hcore
    exact this
  obtain ⟨d', hcollect, hprogress⟩ := outcome_collect_of_prompt w t r
    (Device.serves_readied hlay latch t.patience) (Device.prompt_of_blank hblank hp) hlast
    (fun _ _ h => absurd h hg) (fun a ha => Device.sound_of_blank hblank (hsound a ha))
  refine ⟨d', ?_, ?_, hprogress.latch.trans hword⟩
  · rw [Device.outcome_execute_user w t r (Device.layout_of_user hg hlay) hlatch]
    simp only [not_refused hreset, hset, if_true, Bool.false_eq_true, if_false, hcollect, hfuse]
  · have hgrown := hprogress.fetched
    rw [Device.fetched_readied, List.map_map] at hgrown
    exact hgrown

/-- **A read through the user interface of a prompt device.** -/
theorem run_read_user (w : Wiring) {c : Controller} {g : Generation} {latch : EccLatch}
    (hg : c.descriptor.generation = some g) (hlatch : g.latch? = some latch) {s : Bench Device}
    (hlay : s.block.layout = g.layout) (hp : s.block.Prompt c.timing.patience)
    (hside : s.block.stallSideband = false) (hclocks : s.refusals.clocks = false)
    (hreset : ResetGranted w s.refusals) {offset : UInt32} {buffer : List UInt8}
    (hend : offset.toNat + buffer.length < 2 ^ 32)
    (hsound : ∀ a ∈ WordRange.span g.wordSize.toNat offset.toNat buffer.length,
      s.block.Sound g (UInt32.ofNat a)) :
    let r := (c.read offset buffer).run (board w) s
    r.value = ⟨.ok buffer.length, (List.range buffer.length).map fun i =>
        s.block.fuse (g.fuseIndex (offset.toNat + i))⟩ ∧
      r.state.block.fetched = s.block.fetched ++
        (WordRange.span g.wordSize.toNat offset.toNat buffer.length).map
          (fun a => g.place (UInt32.ofNat a)) ∧
      r.state.block.userMode = false ∧ r.state.block.latch = some latch.word := by
  obtain ⟨d, r⟩ := s
  have hthree : g ≠ .three := by rintro rfl; cases hlatch
  obtain ⟨last, hlast, hread⟩ := outcome_read_of_accepts w hg offset buffer ⟨d, r⟩
    (Generation.accepts_of_user hthree c.size hend) hclocks
  rw [Generation.granted_of_user hthree] at hlast hread
  obtain ⟨d', hexecute, hfetched, hword⟩ := outcome_execute_of_prompt w c.timing r hthree hlatch
    hlay hp hside hreset hlast hsound
  have hrun : (c.read offset buffer).outcome (board w) ⟨d, r⟩ =
      (⟨.ok buffer.length, (List.range buffer.length).map fun i =>
        d.fuse (g.fuseIndex (offset.toNat + i))⟩, ⟨{ d' with userMode := false }, r⟩) := by
    rw [hread]
    dsimp only
    rw [hexecute]
    simp [Delivery.reply]
  have hstate := congrArg (fun q => q.2.block) hrun
  refine ⟨congrArg Prod.fst hrun, ?_, congrArg Device.userMode hstate, ?_⟩
  · exact (congrArg Device.fetched hstate).trans hfetched
  · exact (congrArg Device.latch hstate).trans hword

theorem place_of_user {g : Generation} (hg : g ≠ .three) (a : Nat) :
    g.place (UInt32.ofNat a) = UInt32.ofNat (a % 2 ^ 16) := by
  have hmod : (UInt32.ofNat (a % 2 ^ 16)).toNat = a % 2 ^ 16 :=
    UInt32.toNat_ofNat_of_lt' (Nat.lt_trans (Nat.mod_lt _ (by decide)) (by decide))
  apply UInt32.toNat_inj.1
  rw [Generation.toNat_place_user hg, hmod, UInt32.toNat_ofNat']
  omega

/-! ### What is read -/

/-- A device that earlier reads have left in disorder: bits are up and pending, a countdown
is running and the fuse macro is taken. Its completions show after three samples. -/
def disordered (layout : Layout) : Device where
  layout
  fuses := #[0x11, 0x22, 0x33, 0x44, 0x55, 0x66]
  latency := 3
  stuck := 0x80
  status := 0x5
  pending := 0x2
  countdown := 7
  latch := some 3
  userMode := true
  quality := 0xc1
  data := 0xdeadbeef
  fetched := [6]

/-- Waiting times that are just long enough for it. -/
def narrow : Timing where
  pollTick := 0
  pollTimeout := 3

section

variable (w : Wiring) (c : Controller) (s : Bench Device) (offset : UInt32)
  (buffer : List UInt8)

/-- **Bytes are read from any state of a prompt device**, and it makes no difference how its
byte lanes are read. The bank repeats every `2 ^ 16` bytes. -/
theorem read_bytes (hg : c.descriptor.generation = some .one) (hlay : s.block.layout = .bytes)
    (hp : s.block.Prompt c.timing.patience) (hside : s.block.stallSideband = false)
    (hclocks : s.refusals.clocks = false) (hreset : ResetGranted w s.refusals)
    (hend : offset.toNat + buffer.length < 2 ^ 32) :
    let r := (c.read offset buffer).run (board w) s
    (r.value = ⟨.ok buffer.length, (List.range buffer.length).map fun i =>
        s.block.fuse ((offset.toNat + i) % 2 ^ 16)⟩ ∧
      r.state.block.fetched = s.block.fetched ++
        (List.range buffer.length).map (fun i => UInt32.ofNat ((offset.toNat + i) % 2 ^ 16)) ∧
      r.state.block.userMode = false ∧ r.state.block.latch = some 9) ∧
    ∀ byteLane : Bool, let r' := (c.read offset buffer).run (board { w with byteLane }) s
      r'.value = r.value ∧ r'.state = r.state := by
  have hplace := place_of_user (g := .one) (by simp)
  obtain ⟨hvalue, hfetched, huser, hlatch⟩ := run_read_user w hg rfl hlay hp hside hclocks hreset
    hend fun _ _ h => (by cases h)
  refine ⟨⟨hvalue, ?_, huser, hlatch⟩, fun byteLane => ?_⟩
  · rw [hfetched]
    simp only [hplace]
    rw [show Generation.one.wordSize.toNat = 1 from rfl, WordRange.span_one,
      List.range'_eq_map_range, List.map_map]
    rfl
  · have hlane : (c.read offset buffer).outcome (board { w with byteLane }) s =
        (c.read offset buffer).outcome (board w) s := by
      apply outcome_byteLane
      rfl
    exact ⟨congrArg Prod.fst hlane, congrArg Prod.snd hlane⟩

/-- Such a read from the end of what the user interface can address. -/
theorem read_bytes_disordered :
    let c : Controller := ⟨.px30, narrow⟩
    let r := (c.read 0xffff [0, 0, 0]).run (board {}) ⟨disordered .bytes, {}⟩
    r.value = ⟨.ok 3, [0, 0x11, 0x22]⟩ ∧ r.state.block.fetched = [6, 0xffff, 0, 1] := by
  obtain ⟨⟨hvalue, hfetched, -⟩, -⟩ := read_bytes {} ⟨.px30, narrow⟩ ⟨disordered .bytes, {}⟩
    0xffff [0, 0, 0] rfl rfl ⟨rfl, by decide⟩ rfl rfl (fun _ => ⟨rfl, rfl⟩) (by decide)
  exact ⟨hvalue.trans rfl, hfetched.trans rfl⟩

/-- **Halfwords are read from any state of a prompt device.** The bank repeats every `2 ^ 17`
bytes. -/
theorem read_halfwords (hg : c.descriptor.generation = some .two)
    (hlay : s.block.layout = .halfwords) (hp : s.block.Prompt c.timing.patience)
    (hside : s.block.stallSideband = false) (hclocks : s.refusals.clocks = false)
    (hreset : ResetGranted w s.refusals) (hend : offset.toNat + buffer.length < 2 ^ 32)
    (hsound : ∀ a ∈ WordRange.span 2 offset.toNat buffer.length,
      User.isFault (s.block.qualityOf (UInt32.ofNat (a % 2 ^ 16))) = false) :
    let r := (c.read offset buffer).run (board w) s
    r.value = ⟨.ok buffer.length, (List.range buffer.length).map fun i =>
        s.block.fuse ((offset.toNat + i) % 2 ^ 17)⟩ ∧
      r.state.block.fetched = s.block.fetched ++
        (WordRange.span 2 offset.toNat buffer.length).map (fun a => UInt32.ofNat (a % 2 ^ 16)) ∧
      r.state.block.userMode = false ∧ r.state.block.latch = some 0 := by
  have hplace := place_of_user (g := .two) (by simp)
  obtain ⟨hvalue, hfetched, huser, hlatch⟩ := run_read_user w hg rfl hlay hp hside hclocks hreset
    hend fun a ha _ => (by rw [hplace]; exact hsound a ha)
  refine ⟨hvalue, ?_, huser, hlatch⟩
  rw [hfetched]
  simp only [hplace]
  rfl

/-- Such a read across the end of what the user interface can address. -/
theorem read_halfwords_disordered :
    let c : Controller := ⟨.rk3568, narrow⟩
    let r := (c.read 0x1ffff [0, 0, 0, 0]).run (board {}) ⟨disordered .halfwords, {}⟩
    r.value = ⟨.ok 4, [0, 0x11, 0x22, 0x33]⟩ ∧
      r.state.block.fetched = [6, 0xffff, 0, 1] := by
  obtain ⟨hvalue, hfetched, -⟩ := read_halfwords {} ⟨.rk3568, narrow⟩
    ⟨disordered .halfwords, {}⟩ 0x1ffff [0, 0, 0, 0] rfl rfl ⟨rfl, by decide⟩ rfl rfl
    (fun _ => ⟨rfl, rfl⟩) (by decide) (by decide)
  exact ⟨hvalue.trans rfl, hfetched.trans rfl⟩

/-- **Words are read from any state of a prompt device**, as many bytes as the bank has from
the offset on. The rest of the buffer is left alone. -/
theorem read_words (hg : c.descriptor.generation = some .three) (hlay : s.block.layout = .words)
    (hp : s.block.Prompt c.timing.patience) (hclocks : s.refusals.clocks = false)
    (hoffset : offset < c.size)
    (hreach : offset.toNat + min buffer.length (c.size.toNat - offset.toNat) ≤
      (0x10000 - 0x300) * 4) :
    let r := (c.read offset buffer).run (board w) s
    let n := min buffer.length (c.size.toNat - offset.toNat)
    r.value = ⟨.ok n, (List.range n).map (fun i => s.block.fuse (offset.toNat + i)) ++
        buffer.drop n⟩ ∧
      r.state.block.fetched = s.block.fetched ++
        (WordRange.span 4 offset.toNat n).map (fun a => UInt32.ofNat (0x300 + a)) := by
  obtain ⟨d, r⟩ := s
  intro run n
  have haccepts : Generation.three.Accepts c.size offset buffer.length := ⟨hoffset, hreach⟩
  obtain ⟨last, hlast, hread⟩ := outcome_read_of_accepts w hg offset buffer ⟨d, r⟩ haccepts hclocks
  have hserves : d.Serves .three := ⟨hlay, fun h => absurd rfl h⟩
  obtain ⟨d', hcollect, hprogress⟩ :=
    outcome_collect_of_prompt w c.timing r hserves hp hlast
      (fun _ ha => reaches_of_accepts haccepts ha) fun _ _ h => (by cases h)
  have hrun : (c.read offset buffer).outcome (board w) ⟨d, r⟩ =
      (⟨.ok n, (List.range n).map (fun i => d.fuse (offset.toNat + i)) ++ buffer.drop n⟩,
        ⟨d', r⟩) := by
    rw [hread]
    dsimp only
    rw [Device.outcome_execute_three, hcollect]
    simp [Delivery.reply, Generation.fuseIndex, n, Generation.granted]
  refine ⟨congrArg Prod.fst hrun, ?_⟩
  have hstate := congrArg (fun q => q.2.block) hrun
  refine (congrArg Device.fetched hstate).trans (hprogress.fetched.trans ?_)
  rw [List.map_map]
  refine congrArg (d.fetched ++ ·) (List.map_congr_left fun a _ => ?_)
  rw [Nat.add_comm, UInt32.ofNat_add]
  rfl

/-- Such a read beyond the end of a bank that ends within a word. -/
theorem read_words_disordered :
    let c : Controller := ⟨{ Descriptor.rk3588 with size := 6 }, narrow⟩
    let r := (c.read 3 [1, 2, 3, 4, 5]).run (board {}) ⟨disordered .words, {}⟩
    r.value = ⟨.ok 3, [0x44, 0x55, 0x66, 4, 5]⟩ ∧
      r.state.block.fetched = [6, 0x300, 0x301] := by
  obtain ⟨hvalue, hfetched⟩ := read_words {} ⟨{ Descriptor.rk3588 with size := 6 }, narrow⟩
    ⟨disordered .words, {}⟩ 3 [1, 2, 3, 4, 5] rfl rfl ⟨rfl, by decide⟩ rfl (by decide)
    (by decide)
  exact ⟨hvalue.trans rfl, hfetched.trans rfl⟩

end

end FuseBank.Bench
