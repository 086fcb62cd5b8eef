import FuseBank.Bench
import FuseBank.Bench.Script
import FuseBank.Proofs.AlteredWords

/-!
# The bytes of a read, from the words that were shown

A read that succeeds has read the data register once for each word of the cover of its bytes, and
each byte that it stores is one of those words: with so many bytes skipped in the first word, byte
`i` of the request is byte `(skip + i) % size` of word `(skip + i) / size`. This holds of any words
that the register may show, whether they are those of a memory or not.

The other bytes of the words do not count. If they are altered on the bus, each time anew, the read
does the same and stores the same bytes.

## Main statements

* `Controller.Course.window_of_ok`: what a read that succeeds stores.
* `WordRange.reassembled_window`, `WordRange.window_mapIdx`: the bytes in a window, and those
  outside it.
* `read_reassembles_words`: the bytes of a read that succeeds.
-/

namespace FuseBank

open Register

/-! ### The words of a read -/

namespace Generation

theorem exists_row_of_carriedOut {g : Generation} {t : Timing} {range : WordRange} {wired : Bool}
    {delivery : Delivery} {trace : List Event} (h : g.CarriedOut t range wired delivery trace)
    (hnone : delivery.failure = none) : ∃ words body,
      g.Row t range.words words none body ∧ delivery = ⟨range.window words, none⟩ ∧
        Trace.shown g.dataRegister trace = Trace.shown g.dataRegister body := by
  cases h with
  | sequenced _ hbody =>
    obtain @⟨words, failure, _, hrow⟩ := hbody
    obtain rfl : failure = none := (failure_deliver g range _).symm.trans hnone
    exact ⟨words, trace, hrow, rfl, rfl⟩
  | unready => cases hnone
  | @taken latch _ early body hlatch hearly hbody =>
    obtain @⟨words, failure, _, hrow⟩ := hbody
    obtain rfl : failure = none := (failure_deliver g range _).symm.trans hnone
    refine ⟨words, body, hrow, rfl, ?_⟩
    have htake : Trace.Idle [.write User.control User.take, .delay t.settle] := ⟨rfl, rfl⟩
    have hrelease : Trace.Idle [.write User.control User.release] := ⟨rfl, rfl⟩
    have hbetween := Trace.shown_between (Trace.idle_append hearly.idle htake) hrelease body
    rw [dataRegister_of_latch hlatch]
    simpa using hbetween.1

theorem take_bytes_taken (g : Generation) (word : UInt32) :
    (LittleEndian.bytes (g.taken word)).take g.wordSize.toNat =
      (LittleEndian.bytes word).take g.wordSize.toNat := by
  cases g with
  | one =>
    show [LittleEndian.byte word.toUInt8.toUInt32 0] = [LittleEndian.byte word 0]
    rw [LittleEndian.byte_zero, LittleEndian.byte_zero, UInt8.toUInt8_toUInt32]
  | two | three => rfl

end Generation

/-! ### The bytes in a window -/

namespace WordRange

theorem window_taken {g : Generation} {r : WordRange} (hsize : r.wordSize = g.wordSize)
    (shown : List UInt32) : r.window (shown.map g.taken) = r.window shown := by
  rw [window, window, gathered, gathered, List.flatMap_map, hsize]
  simp only [g.take_bytes_taken]

theorem window_mapIdx {r : WordRange} (hsize : 0 < r.wordSize.toNat) (hle : r.wordSize.toNat ≤ 4)
    {alter : Nat → UInt32 → UInt32}
    (h : ∀ i < r.len, ∀ word,
      LittleEndian.byte (alter ((r.skip + i) / r.wordSize.toNat) word)
        ((r.skip + i) % r.wordSize.toNat) =
      LittleEndian.byte word ((r.skip + i) % r.wordSize.toNat)) (shown : List UInt32) :
    r.window (shown.mapIdx alter) = r.window shown := by
  refine List.ext_getElem? fun i => ?_
  by_cases hi : i < r.len
  · rw [getElem?_window hsize hle _ hi, getElem?_window hsize hle _ hi, List.getElem?_mapIdx,
      Option.map_map]
    exact congrArg (Option.map · _) (funext (h i hi))
  · have hnone : ∀ words, (r.window words)[i]? = none := by
      intro words
      exact List.getElem?_eq_none ((List.length_take_le _ _).trans (Nat.le_of_not_lt hi))
    rw [hnone, hnone]

end WordRange

/-- How the bytes that a read has stored are made up of the words that were shown to it, when they
are `n` bytes from `offset` on and a word has `size` bytes. -/
structure Reassembled (size offset n : Nat) (shown : List UInt32) (buffer : List UInt8) : Prop where
  /-- There is a word for each that the bytes are in. -/
  length_shown : shown.length = (offset + n) ⌈/⌉ size - offset / size
  /-- Each byte is one of a word. -/
  getElem?_eq : ∀ i < n, ∃ word, shown[(offset % size + i) / size]? = some word ∧
    buffer[i]? = some (LittleEndian.byte word ((offset % size + i) % size))

theorem Reassembled.of_bytes {offset n : Nat} {shown : List UInt32} {buffer : List UInt8}
    (h : Reassembled 1 offset n shown buffer) : shown.length = n ∧
      ∀ i < n, ∃ word, shown[i]? = some word ∧ buffer[i]? = some word.toUInt8 := by
  constructor
  · rw [h.length_shown, Nat.ceilDiv_eq_add_pred_div, Nat.div_one, Nat.div_one, Nat.add_sub_cancel,
      Nat.add_sub_cancel_left]
  · intro i hi
    obtain ⟨word, hword, hbyte⟩ := h.getElem?_eq i hi
    rw [Nat.mod_one, Nat.zero_add, Nat.div_one] at hword
    rw [Nat.mod_one, LittleEndian.byte_zero] at hbyte
    exact ⟨word, hword, hbyte⟩

/-- The window of as many words as were planned, with anything behind it. -/
theorem WordRange.reassembled_window {offset last wordSize : UInt32} {n : Nat}
    (hlast : offset.toNat + n = last.toNat) (hsize : 0 < wordSize.toNat)
    (hle : wordSize.toNat ≤ 4) {shown : List UInt32}
    (h : shown.length = (widen offset last n wordSize).words.length) (rest : List UInt8) :
    Reassembled wordSize.toNat offset.toNat n shown
      ((widen offset last n wordSize).window shown ++ rest) := by
  have hlength := h.trans (length_words _)
  have hinside := skip_add_len_le hlast hsize
  have hskip := skip_widen offset last n wordSize
  rw [hskip, ← hlength] at hinside
  constructor
  case length_shown => rw [hlength, toNat_wordCount hlast hsize]
  case getElem?_eq =>
    intro i hi
    have hplace : (offset.toNat % wordSize.toNat + i) / wordSize.toNat < shown.length := by
      rw [Nat.div_lt_iff_lt_mul hsize, Nat.mul_comm]
      exact (Nat.add_lt_add_left hi _).trans_le hinside
    have hword := List.getElem?_eq_getElem hplace
    have hwindow : i < ((widen offset last n wordSize).window shown).length := by
      rwa [length_window_widen hlast hsize hle h]
    have hget : ((widen offset last n wordSize).window shown)[i]? = _ :=
      getElem?_window hsize hle shown hi
    rw [hskip] at hget
    refine ⟨_, hword, ?_⟩
    rw [List.getElem?_append_left hwindow, hget]
    exact congrArg (Option.map _) hword

/-! ### Reads -/

namespace Controller

/-- **What a read that succeeds stores**: the window of the words that the data register shows, one
for each word of its range. -/
theorem Course.window_of_ok {c : Controller} {g : Generation}
    (hg : c.descriptor.generation = some g) {wired : Bool} {offset : UInt32}
    {buffer : List UInt8} {reply : Reply (Except Failure Nat)} {trace : List Event} {n : Nat}
    (h : c.Course wired offset buffer reply trace) (hok : reply.result = .ok n) :
    ∃ last : UInt32, offset.toNat + n = last.toNat ∧
      let range := WordRange.widen offset last n g.wordSize
      g.plan c.size offset buffer.length = .ok range ∧
        (Trace.shown g.dataRegister trace).length = range.words.length ∧
        reply.buffer = range.window (Trace.shown g.dataRegister trace) ++ buffer.drop n := by
  cases h with
  | unsupported | outOfRange | noClocks => cases hok
  | @carriedOut g' last delivery body hg' ha hlast hbody =>
    obtain rfl : g = g' := Option.some.inj (hg.symm.trans hg')
    cases hfailure : delivery.failure with
    | some failure => simp [Delivery.reply, hfailure] at hok
    | none =>
      obtain rfl : g.granted c.size offset buffer.length = n := by
        simpa [Delivery.reply, hfailure] using hok
      obtain ⟨words, row, hrow, rfl, hshown⟩ := Generation.exists_row_of_carriedOut hbody hfailure
      obtain ⟨last', hlast', hplan, -⟩ := Generation.exists_plan ha
      obtain rfl : last' = last := UInt32.toNat_inj.1 (hlast'.symm.trans hlast)
      have hclocks : Trace.shown g.dataRegister
          (.clocksOn c.descriptor.clocks :: (body ++ [.clocksOff c.descriptor.clocks])) =
            Trace.shown g.dataRegister row := by
        rw [← hshown]
        exact (Trace.shown_append _ body _).trans (List.append_nil _)
      have hwords := Generation.words_of_row hrow
      have hlength := (Generation.length_of_row hrow).1 rfl
      refine ⟨last', hlast, hplan, ?_, ?_⟩
      · rw [hclocks, ← hlength, hwords, List.length_map]
      · rw [hclocks]
        simp only [Delivery.reply]
        rw [WordRange.length_window_widen hlast g.wordSize_pos g.wordSize_le hlength, hwords,
          WordRange.window_taken rfl]

theorem alike_read (c : Controller) (offset : UInt32) (buffer : List UInt8) :
    (c.read offset buffer).Alike fuseRegisters (fun q q' => q.result = q'.result)
      (c.read offset buffer) := by
  rw [read_eq_serve]
  refine (c.alike_serve offset buffer.length).bind fun q q' h => .done ?_
  exact (Prod.mk.inj h).1

/-- **The bytes outside the window do not count**: when they are altered on the bus, the read does
the same and stores the same. -/
theorem run_read_altered {σ : Type} (c : Controller) {g : Generation}
    (hg : c.descriptor.generation = some g) (offset : UInt32) (buffer : List UInt8) (b : Board σ)
    (s : σ) {n : Nat} (hok : ((c.read offset buffer).run b s).value.result = .ok n)
    {alter : Nat → UInt32 → UInt32}
    (h : ∀ i < n, ∀ word,
      LittleEndian.byte (alter ((offset.toNat % g.wordSize.toNat + i) / g.wordSize.toNat) word)
        ((offset.toNat % g.wordSize.toNat + i) % g.wordSize.toNat) =
      LittleEndian.byte word ((offset.toNat % g.wordSize.toNat + i) % g.wordSize.toNat)) :
    let r := (c.read offset buffer).run b s
    let r' := (c.read offset buffer).run (b.altered g.dataRegister alter) (s, 0)
    r'.value = r.value ∧ r'.state.1 = r.state ∧ r'.log = r.log ∧
      r'.trace.map (Event.veiled (some g.dataRegister)) =
        r.trace.map (Event.veiled (some g.dataRegister)) := by
  intro r r'
  have hmem : g.dataRegister ∈ fuseRegisters := by cases g <;> decide
  have hrun : AlteredRun g.dataRegister alter 0 _ r r' :=
    Program.alteredRun alter b hmem (c.alike_read offset buffer) s 0
  -- both reads succeed with the same plan, so they store windows of the same range
  have hok' : r'.value.result = .ok n := hrun.value.symm.trans hok
  obtain ⟨last, hlast, -, -, hstored⟩ :=
    (course_of_leaves (Program.leaves_run b (c.read offset buffer) s)).window_of_ok hg hok
  obtain ⟨last', hlast', -, -, hstored'⟩ :=
    (course_of_leaves (Program.leaves_run (b.altered g.dataRegister alter)
      (c.read offset buffer) (s, 0))).window_of_ok hg hok'
  obtain rfl : last' = last := UInt32.toNat_inj.1 (hlast'.symm.trans hlast)
  have hshown : Trace.shown g.dataRegister r'.trace =
      (Trace.shown g.dataRegister r.trace).mapIdx alter := by
    simpa using hrun.shown
  have hwindow := WordRange.window_mapIdx (r := .widen offset last' n g.wordSize) g.wordSize_pos
    g.wordSize_le (WordRange.skip_widen offset last' n g.wordSize ▸ h)
    (Trace.shown g.dataRegister r.trace)
  have hbuffer : r'.value.buffer = r.value.buffer := by
    calc r'.value.buffer = _ := hstored'
      _ = _ := by rw [hshown, hwindow]
      _ = r.value.buffer := hstored.symm
  refine ⟨?_, congrArg Prod.fst hrun.state, hrun.log, hrun.trace⟩
  calc r'.value = ⟨r'.value.result, r'.value.buffer⟩ := rfl
    _ = ⟨r.value.result, r.value.buffer⟩ := by rw [hrun.value, hbuffer]

end Controller

/-- **The bytes of a read that succeeds** are put together from the words that the data register has
shown, whatever they are. -/
theorem read_reassembles_words {σ : Type} (c : Controller) {g : Generation}
    (hg : c.descriptor.generation = some g) (offset : UInt32) (buffer : List UInt8) (b : Board σ)
    (s : σ) {n : Nat} (hok : ((c.read offset buffer).run b s).value.result = .ok n) :
    let r := (c.read offset buffer).run b s
    let shown := Trace.shown g.dataRegister r.trace
    let size := g.wordSize.toNat
    let skip := offset.toNat % size
    Reassembled size offset.toNat n shown r.value.buffer ∧
      (g = .one → shown.length = n ∧
        ∀ i < n, ∃ word, shown[i]? = some word ∧ r.value.buffer[i]? = some word.toUInt8) ∧
      (∃ range, g.plan c.size offset buffer.length = .ok range ∧ range.skip = skip ∧
        range.len = n ∧ range.skip + range.len ≤ (range.gathered shown).length) ∧
      ∀ alter : Nat → UInt32 → UInt32,
        (∀ i < n, ∀ word, LittleEndian.byte (alter ((skip + i) / size) word) ((skip + i) % size) =
          LittleEndian.byte word ((skip + i) % size)) →
        let r' := (c.read offset buffer).run (b.altered g.dataRegister alter) (s, 0)
        r'.value = r.value ∧ r'.state.1 = r.state ∧ r'.log = r.log ∧
          r'.trace.map (Event.veiled (some g.dataRegister)) =
            r.trace.map (Event.veiled (some g.dataRegister)) := by
  intro r shown size skip
  have hpos := g.wordSize_pos
  have hle := g.wordSize_le
  obtain ⟨last, hlast, hplan, hlength, hbuffer⟩ :=
    (Controller.course_of_leaves (Program.leaves_run b (c.read offset buffer) s)).window_of_ok hg hok
  let range := WordRange.widen offset last n g.wordSize
  have hskip : range.skip = skip := WordRange.skip_widen offset last n g.wordSize
  have hstored : r.value.buffer = range.window shown ++ buffer.drop n := hbuffer
  have hbytes : Reassembled size offset.toNat n shown r.value.buffer := by
    rw [hstored]
    exact WordRange.reassembled_window hlast hpos hle hlength _
  refine ⟨hbytes, ?_, ⟨range, hplan, hskip, rfl, ?_⟩, ?_⟩
  · rintro rfl
    exact hbytes.of_bytes
  · exact WordRange.skip_add_len_le_gathered hlast hpos hle hlength
  · exact fun alter halter => c.run_read_altered hg offset buffer b s hok halter

/-- Three bytes from two halfwords, with something in the upper halves of the register. -/
theorem read_reassembles_words_two_halfwords :
    let c : Controller := ⟨.rk3568, {}⟩
    let b : Board (Bench Bench.Script) := Bench.board {}
    let s : Bench Bench.Script :=
      ⟨⟨[(status, [⟨6, 1⟩]), (User.data, [⟨0xdead2211, 1⟩, ⟨0xbeef4433, 1⟩])]⟩, {}⟩
    let r := (c.read 1 [0, 0, 0]).run b s
    r.value = ⟨.ok 3, [0x22, 0x33, 0x44]⟩ ∧
      Reassembled 2 1 3 [0xdead2211, 0xbeef4433] r.value.buffer := by
  intro c b s r
  have hvalue : r.value = ⟨.ok 3, [0x22, 0x33, 0x44]⟩ := by decide +kernel
  have hshown : Trace.shown User.data r.trace = [0xdead2211, 0xbeef4433] := by decide +kernel
  have hok : r.value.result = .ok 3 := congrArg Reply.result hvalue
  obtain ⟨hbytes, -⟩ := read_reassembles_words c (g := .two) rfl 1 [0, 0, 0] b s hok
  rw [← hshown]
  exact ⟨hvalue, hbytes⟩

end FuseBank
