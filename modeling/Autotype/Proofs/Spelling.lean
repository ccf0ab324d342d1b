import Autotype.Proofs.Attention
import Autotype.Proofs.Committed
import Autotype.Proofs.Shown
import Autotype.Proofs.Strokes

/-!
# What a text spells

A text is typed for someone who sees nothing but reports. As long as neither shift nor any key is held that
the text needs, and there is room for one more key, the reports of a text are read as just the strokes of its
characters (`Performance.spells_text`), and so as the characters themselves, whatever else is held meanwhile.
The polls of a tick are those that are due after characters and those spent until the host can take a report
(`Station.waitedIn`), as anyone finds who counts the polls of a world (`PollCount`).
-/

namespace Autotype

/-- Whether characters can be typed while something is held. -/
structure Held.Admits (layout : Layout) (h : Held) (chars : Bytes) : Prop where
  unshifted : h.modifiers &&& Modifier.shift = 0
  room : h.keys.toList.length < maxKeys
  free : ∀ c ∈ chars, ∀ stroke ∈ layout c, stroke.keycode ∉ h.keys.toList

namespace Performance

/-- Whether what is shown while keys are held is read as strokes, and the same keys are held in the end. -/
structure Spells (keys : KeySet) (shown : List Report × Held) (typed : List KeyStroke) : Prop where
  toList_keys : shown.2.keys.toList = keys.toList
  keys_eq : keys.Padded → shown.2.keys = keys
  strokes : ∀ before : Report, before.ShowsKeys keys → Report.strokes before shown.1 = typed
  showsKeys : ∀ before : Report, before.ShowsKeys keys → (shown.1.getLastD before).ShowsKeys keys

variable {p q : Performance} {h : Held} {typed typed' : List KeyStroke}

theorem spells_rest (h : Held) : Spells h.keys (rest h) [] where
  toList_keys := rfl
  keys_eq _ := rfl
  strokes _ _ := rfl
  showsKeys _ shows := shows

theorem Spells.andThen {keys : KeySet} (first : Spells keys (p h) typed)
    (second : Spells (p h).2.keys (q (p h).2) typed') :
    Spells keys ((p.andThen q) h) (typed ++ typed') := by
  have same : ∀ r : Report, r.ShowsKeys (p h).2.keys ↔ r.ShowsKeys keys := by
    intro r
    rw [Report.ShowsKeys, Report.ShowsKeys, first.toList_keys]
  constructor
  · exact second.toList_keys.trans first.toList_keys
  · intro padded
    have kept := first.keys_eq padded
    exact (second.keys_eq (kept.symm ▸ padded)).trans kept
  · intro before shows
    have between := (same _).mpr (first.showsKeys before shows)
    show Report.strokes before ((p h).1 ++ (q (p h).2).1) = typed ++ typed'
    rw [Report.strokes_append, first.strokes before shows, second.strokes _ between]
  · intro before shows
    have between := (same _).mpr (first.showsKeys before shows)
    show (((p h).1 ++ (q (p h).2).1).getLastD before).ShowsKeys keys
    rw [Report.getLastD_append]
    exact (same _).mp (second.showsKeys _ between)

theorem spells_hold (h : Held) (mask : UInt8) : Spells h.keys (change (Held.hold mask) h) [] where
  toList_keys := rfl
  keys_eq _ := rfl
  strokes before shows := by
    have after := Report.showsKeys_ofState mask h.keys
    show Report.strokesAfter before (.ofState mask h.keys) ++ [] = []
    rw [Report.strokesAfter_of_subset fun code mem => (shows code).mpr ((after code).mp mem)]
    rfl
  showsKeys _ _ := Report.showsKeys_ofState mask h.keys

/-- A key that has a code and is not held is read as struck, with shift if shift is held. -/
theorem spells_tap {code : UInt8} {shift : Bool} (shifted : (h.modifiers &&& Modifier.shift != 0) = shift)
    (named : code ≠ 0) (absent : code ∉ h.keys.toList) (room : h.keys.toList.length < maxKeys) :
    Spells h.keys (tap code h) [⟨code, shift⟩] where
  toList_keys := KeySet.toList_erase_insert absent room
  keys_eq padded := padded.erase_insert absent room
  strokes before shows := by
    rw [← shifted]
    exact Report.strokes_tap shows h.modifiers named absent room
  showsKeys _ _ := by
    intro c
    rw [← KeySet.toList_erase_insert absent room]
    exact Report.showsKeys_ofState h.modifiers ((h.keys.insert code).erase code) c

variable {layout : Layout}

theorem spells_char (readable : layout.Readable) {c : UInt8} (admits : h.Admits layout [c]) :
    Spells h.keys (char layout c h) (layout c).toList := by
  cases types : layout c with
  | none =>
    simp only [char, types]
    exact spells_rest h
  | some stroke =>
    obtain ⟨code, shift⟩ := stroke
    have named : code ≠ 0 := readable.named types
    have absent : code ∉ h.keys.toList := admits.free c (List.mem_singleton_self c) _ types
    cases shift with
    | true =>
      -- the key is tapped while shift alone is held, which changes nothing about the keys
      have tapped : Spells h.keys (tap code (h.hold Modifier.shift)) [⟨code, true⟩] :=
        spells_tap (h := h.hold Modifier.shift) (by decide : (Modifier.shift &&& Modifier.shift != 0) = true)
          named absent admits.room
      have typed := Spells.andThen (p := tap code ∘ Held.hold Modifier.shift) tapped
        (spells_hold _ h.modifiers)
      simp only [char, types]
      exact typed
    | false =>
      have unshifted : (h.modifiers &&& Modifier.shift != 0) = false := by
        rw [admits.unshifted]
        decide
      simp only [char, types]
      exact spells_tap unshifted named absent admits.room

theorem spells_text (readable : layout.Readable) {chars : Bytes} (admits : h.Admits layout chars) :
    Spells h.keys (inOrder (chars.map (char layout)) h) (chars.filterMap layout) := by
  induction chars generalizing h with
  | nil => exact spells_rest h
  | cons c cs ih =>
    have first : Spells h.keys (char layout c h) (layout c).toList :=
      spells_char readable ⟨admits.unshifted, admits.room, fun b mem =>
        admits.free b (List.mem_singleton.mp mem ▸ List.mem_cons_self)⟩
    have later : (char layout c h).2.Admits layout cs := by
      refine ⟨?_, ?_, ?_⟩
      · rw [Engine.modifiers_char]
        exact admits.unshifted
      · rw [first.toList_keys]
        exact admits.room
      · rw [first.toList_keys]
        exact fun b mem => admits.free b (List.mem_cons_of_mem c mem)
    have typed := first.andThen (ih later)
    have strokes : (c :: cs).filterMap layout = (layout c).toList ++ cs.filterMap layout := by
      cases types : layout c <;> simp [types]
    rw [strokes]
    exact typed

/-- After a text the same modifiers are held as before it. -/
theorem modifiers_text (layout : Layout) (h : Held) (chars : Bytes) :
    (inOrder (chars.map (char layout)) h).2.modifiers = h.modifiers := by
  induction chars generalizing h with
  | nil => rfl
  | cons c cs ih => exact (ih _).trans (Engine.modifiers_char layout h c)

end Performance

/-- The tick of a text is read as the strokes of its characters, and leaves held what was held. -/
theorem Engine.spells_text {layout : Layout} (readable : layout.Readable) {byteAt : Nat → UInt8} {e : Engine}
    {chars : Bytes} (running : e.state = .running)
    (laid : (e.script byteAt).HasAt e.pc (Instr.text chars).encode) (fits : chars.length < 256)
    (admits : e.held.Admits layout chars) (now : UInt32) :
    (e.tick layout byteAt now).modifiers = e.modifiers ∧
    Performance.Spells e.keys (e.reports (e.actions layout byteAt now), (e.tick layout byteAt now).held)
      (chars.filterMap layout) := by
  have read : Script.decode ⟨e.control.length, byteAt⟩ e.control.pc = .whole (.text chars) _ :=
    Script.decode_of_hasAt laid fits
  have means : e.control.perform layout byteAt = .inOrder (chars.map (.char layout)) := by
    simp only [Control.perform, read, show e.control.state = .running from running]
    rfl
  obtain ⟨reports, held⟩ := e.shows_tick layout byteAt now
  rw [means] at reports held
  rw [reports, held]
  exact ⟨(congrArg Held.modifiers held).trans (Performance.modifiers_text layout e.held chars),
    Performance.spells_text readable admits⟩

/-! ## Polls -/

/-- A count of the polls that came back in a world, which nothing else changes. -/
structure PollCount (σ : Type) [Surroundings σ] [Transport σ] where
  polls : σ → Nat
  polls_poll : ∀ {s t : σ}, Surroundings.poll s = .ok () t → polls t = polls s + 1
  polls_send : ∀ r s, polls (Transport.send r s) = polls s

namespace PollCount

variable {σ : Type} [Surroundings σ] [Transport σ] (count : PollCount σ)

def recorded : PollCount (Recorded σ) where
  polls r := count.polls r.host
  polls_poll h := count.polls_poll (Recorded.poll_ok h).1
  polls_send r s := count.polls_send r s.host

def station : PollCount (Station σ) where
  polls s := count.polls s.host
  polls_poll {s t} h := by
    simp only [Surroundings.poll, Station.onHost] at h
    split at h
    · next back =>
      cases h
      exact count.polls_poll back
    · cases h
  polls_send r s := count.polls_send r s.host

theorem le_of_poll {s t : σ} (back : Surroundings.poll s = .ok () t) : count.polls s ≤ count.polls t := by
  rw [count.polls_poll back]
  exact Nat.le_succ _

end PollCount

namespace Station

variable {σ : Type} [Surroundings σ] [Transport σ] (count : PollCount σ)

/-- The polls that an action spends until the host can take a report. -/
def waited : Action → Station σ → Nat
  | .send, s =>
    match pollUntil Transport.isReady s with
    | .ok _ t | .error _ t => count.polls t.host - count.polls s.host
  | _, _ => 0

/-- The polls that actions spend until the host can take their reports. -/
def waitedIn : List Action → Station σ → Nat
  | [], _ => 0
  | a :: as, s =>
    waited count a s +
      match act a s with
      | .ok _ t => waitedIn as t
      | .error _ _ => 0

theorem polls_act {a : Action} {s t : Station σ} (back : act a s = .ok () t) :
    count.polls t.host = count.polls s.host + [a].count .poll + waited count a s := by
  cases a with
  | send =>
    simp only [act, bind, EStateM.bind] at back
    split at back
    · next u ready =>
      cases back
      have more := le_of_pollUntil count.station.le_of_poll ready
      show count.polls (Transport.send _ u.host) = count.polls s.host + 0 + waited count .send s
      simp only [waited, ready, count.polls_send]
      exact (Nat.add_sub_of_le more).symm
    · cases back
  | poll => exact count.station.polls_poll back
  | _ =>
    cases back
    rfl

/-- Actions performed to their end poll as often as they ask for it, apart from the waits for reports. -/
theorem polls_perform {as : List Action} {s t : Station σ} (back : perform as s = .ok () t) :
    count.polls t.host = count.polls s.host + as.count .poll + waitedIn count as s := by
  induction as generalizing s with
  | nil =>
    cases back
    rfl
  | cons a as ih =>
    simp only [perform, bind, EStateM.bind] at back
    split at back
    · next u first =>
      have before := polls_act count first
      have after := ih back
      have asked : ([a] ++ as).count .poll = [a].count .poll + as.count .poll := List.count_append
      rw [List.singleton_append] at asked
      simp only [waitedIn, first]
      omega
    · cases back

end Station

/-- Each character of a text asks for one poll, whether it can be typed or not. -/
theorem Action.count_poll_typeText (layout : Layout) (held : UInt8) (chars : Bytes) :
    (typeText layout held chars).count .poll = chars.length := by
  have one : ∀ c, (typeChar layout held c).count .poll = 1 := by
    intro c
    unfold typeChar
    split
    · rfl
    · split <;> rfl
  induction chars with
  | nil => rfl
  | cons c cs ih =>
    show (typeChar layout held c ++ typeText layout held cs).count .poll = cs.length + 1
    rw [List.count_append, one, ih, Nat.add_comm]

/-- The tick of a text asks for a poll after each character, and for no other. -/
theorem Engine.count_poll_text (layout : Layout) {byteAt : Nat → UInt8} {e : Engine} {chars : Bytes}
    (running : e.state = .running) (laid : (e.script byteAt).HasAt e.pc (Instr.text chars).encode)
    (fits : chars.length < 256) (now : UInt32) :
    (e.actions layout byteAt now).count .poll = chars.length := by
  have read : (e.script byteAt).decode e.pc = .whole (.text chars) _ := Script.decode_of_hasAt laid fits
  simp only [actions, running, stepActions, read, Instr.actions]
  rw [List.count_append, List.count_cons, Action.count_poll_typeText]
  rfl

namespace Station

variable {σ μ : Type} [Surroundings σ] [Transport σ] [Medium μ] {store : Store μ}
  {s : Station (Recorded σ)} {chars : Bytes}

/-- An engine types a text while no modifiers are held, the host was shown the keys that are, there is room
for one more, and the text needs none of them. If the host attends to the tick, it comes back. Then the same
is held as before; the host was polled once for each character, apart from the waits until it could take a
report; and whoever reads the reports with the layout finds the characters that can be typed, in their order
and no others. -/
theorem types_text (running : s.engine.state = .running)
    (laid : (s.engine.script store.scriptByte).HasAt s.engine.pc (Instr.text chars).encode)
    (fits : chars.length < 256) (unmodified : s.engine.modifiers = 0)
    (shown : s.engine.report.ShowsKeys s.engine.keys) (room : s.engine.keys.toList.length < maxKeys)
    (free : ∀ c ∈ chars, ∀ stroke ∈ Layout.us c, stroke.keycode ∉ s.engine.keys.toList) :
    (Transport.Attends ((s.engine.actions .us store.scriptByte (Surroundings.now s)).countP Action.waits)
        s.host.host →
      ∃ t, tick .us store s = .ok () t) ∧
    ∀ t, tick .us store s = .ok () t →
      t.engine.modifiers = 0 ∧ t.engine.keys.toList = s.engine.keys.toList ∧
      (s.engine.keys.Padded → t.engine.keys = s.engine.keys) ∧
      (∀ count : PollCount σ,
        count.polls t.host.host = count.polls s.host.host + chars.length +
          waitedIn count.recorded (s.engine.actions .us store.scriptByte (Surroundings.now s)) s) ∧
      ∃ reports, t.host.sent = s.host.sent ++ reports ∧
        (Report.strokes s.engine.report reports).map Layout.us.charOf? =
          (chars.filter fun c => (Layout.us c).isSome).map some := by
  have unshifted : s.engine.held.modifiers &&& Modifier.shift = 0 := by
    rw [show s.engine.held.modifiers = 0 from unmodified]
    decide
  refine ⟨fun attends => tick_of_attends (Recorded.attends attends s.host.sent), fun t back => ?_⟩
  obtain ⟨modifiers, spells⟩ := Engine.spells_text Layout.readable_us running laid fits
    ⟨unshifted, room, free⟩ (Surroundings.now s)
  rw [← (tick_ok back).1] at modifiers spells
  refine ⟨modifiers.trans unmodified, spells.toList_keys, spells.keys_eq, fun count => ?_, _, sent_tick back, ?_⟩
  · rw [← Engine.count_poll_text .us running laid fits (Surroundings.now s)]
    exact polls_perform count.recorded back
  · rw [spells.strokes _ shown]
    exact Layout.readable_us.map_charOf? chars

end Station

def Bench.pollCount : PollCount Bench where
  polls := Bench.polls
  polls_poll h := by
    simp only [Surroundings.poll] at h
    split at h
    · cases h
      rfl
    · cases h
  polls_send _ _ := rfl

/-- A text of four characters, the second of which cannot be typed. -/
def Store.letters : Store Memory :=
  .ofScript (Instr.text [0x61, 0x01, 0x41, 0x61]).encode

/-- An engine that is about to type it while the key of another letter is held, at a host that is busy. -/
def Station.letters : Station (Recorded Bench) where
  engine :=
    let keys : KeySet := .insert .empty 0x05
    { Engine.start {} Store.letters with keys := keys, report := .ofState 0 keys }
  host := ⟨{ busy := 1, busyAfter := 2, budget := 60 }, []⟩

theorem Station.types_text_letters :
    letters.engine.state = .running ∧
    (letters.engine.script Store.letters.scriptByte).HasAt letters.engine.pc
      (Instr.text [0x61, 0x01, 0x41, 0x61]).encode ∧
    letters.engine.modifiers = 0 ∧ letters.engine.report.ShowsKeys letters.engine.keys ∧
    letters.engine.keys.toList = [0x05] ∧
    (∀ c ∈ ([0x61, 0x01, 0x41, 0x61] : Bytes), ∀ stroke ∈ Layout.us c,
      stroke.keycode ∉ letters.engine.keys.toList) ∧
    ∃ t, tick .us Store.letters letters = .ok () t ∧ t.engine.modifiers = 0 ∧
      t.engine.keys.toList = letters.engine.keys.toList ∧
      t.host.host.polls = letters.host.host.polls + 4 + waitedIn Bench.pollCount.recorded
        (letters.engine.actions .us Store.letters.scriptByte (Surroundings.now letters)) letters ∧
      ∃ reports, t.host.sent = letters.host.sent ++ reports ∧
        (Report.strokes letters.engine.report reports).map Layout.us.charOf? =
          [some 0x61, some 0x41, some 0x61] := by
  have running : letters.engine.state = .running := by decide +kernel
  have laid : (letters.engine.script Store.letters.scriptByte).HasAt letters.engine.pc
      (Instr.text [0x61, 0x01, 0x41, 0x61]).encode := by
    unfold Script.HasAt
    decide +kernel
  have unmodified : letters.engine.modifiers = 0 := rfl
  have shown : letters.engine.report.ShowsKeys letters.engine.keys := Report.showsKeys_ofState 0 _
  have keys : letters.engine.keys.toList = [0x05] := by decide +kernel
  have room : letters.engine.keys.toList.length < maxKeys := by decide +kernel
  have free : ∀ c ∈ ([0x61, 0x01, 0x41, 0x61] : Bytes), ∀ stroke ∈ Layout.us c,
      stroke.keycode ∉ letters.engine.keys.toList := by decide +kernel
  have waits : (letters.engine.actions .us Store.letters.scriptByte
      (Surroundings.now letters)).countP Action.waits = 11 := by
    decide +kernel
  have attends : Transport.Attends 11 letters.host.host := by
    have busy : letters.host.host.busy ≤ 2 := by decide
    exact Bench.attends busy (Nat.le_refl 2) (by decide)
  obtain ⟨back, types⟩ := types_text running laid (by decide) unmodified shown room free
  rw [waits] at back
  obtain ⟨t, done⟩ := back attends
  obtain ⟨modifiers, same, -, polls, reports, sent, read⟩ := types t done
  refine ⟨running, laid, unmodified, shown, keys, free, t, done, modifiers, same, ?_, reports, sent, ?_⟩
  · have polled := polls Bench.pollCount
    generalize waitedIn Bench.pollCount.recorded _ letters = waited at polled ⊢
    exact polled
  · rw [read]
    decide +kernel

end Autotype
