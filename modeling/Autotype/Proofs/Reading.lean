import Autotype.Proofs.Calls
import Autotype.Proofs.Underway

/-!
# What a replay reads

An engine reads its script and nothing else of a store. No offset is read before it was compared with the
length of the script, however far a loop that was passed over has moved the engine, so two scripts that
agree up to their length decode alike everywhere (`Script.Agrees.decode`). A tick depends on the store
through this alone, and it keeps the length; so the ticks of two engines that were started on stores with
the same script cannot be told apart (`Store.reads_only_script`).
-/

namespace Autotype

/-- Whether two scripts have the same length and, up to there, the same bytes. -/
structure Script.Agrees (s t : Script) : Prop where
  length : s.length = t.length
  byteAt : ∀ offset < s.length, s.byteAt offset = t.byteAt offset

namespace Script.Agrees

variable {s t : Script}

theorem fetch (agree : s.Agrees t) (offset : Nat) {next next' : UInt8 → Decoded}
    (later : ∀ b, next b = next' b) : s.fetch offset next = t.fetch offset next' := by
  unfold Script.fetch
  by_cases inside : offset < s.length
  · rw [if_pos inside, if_pos (agree.length ▸ inside), agree.byteAt offset inside, later]
  · rw [if_neg inside, if_neg (agree.length ▸ inside)]

theorem slice (agree : s.Agrees t) {offset count : Nat} (inside : count ≤ s.length - offset) :
    s.slice offset count = t.slice offset count := by
  refine List.map_congr_left fun i mem => agree.byteAt _ ?_
  have := List.mem_range.mp mem
  omega

theorem decodeText (agree : s.Agrees t) (offset count : Nat) :
    s.decodeText offset count = t.decodeText offset count := by
  have there : s.slice offset (min count (s.length - offset)) =
      t.slice offset (min count (s.length - offset)) :=
    agree.slice (Nat.min_le_right _ _)
  unfold Script.decodeText
  rw [← agree.length]
  by_cases all : min count (s.length - offset) = count
  · rw [all] at there
    simp only [if_pos all, there]
  · simp only [if_neg all, there]

/-- Scripts that agree hold the same instruction at every offset, past their end too. -/
theorem decode (agree : s.Agrees t) (pc : Nat) : s.decode pc = t.decode pc := by
  refine agree.fetch pc fun opcode => ?_
  split
  case h_1 | h_10 => rfl
  case h_2 | h_7 | h_8 => exact agree.fetch _ fun _ => agree.fetch _ fun _ => rfl
  case h_3 | h_4 | h_5 | h_6 => exact agree.fetch _ fun _ => rfl
  case h_9 => exact agree.fetch _ fun count => agree.decodeText _ count.toNat

end Script.Agrees

namespace Engine

variable {layout : Layout} {now : UInt32}

theorem actions_congr {e : Engine} {byteAt byteAt' : Nat → UInt8}
    (agree : (e.script byteAt).Agrees (e.script byteAt')) :
    e.actions layout byteAt now = e.actions layout byteAt' now := by
  unfold actions stepActions
  rw [agree.decode]

theorem length_tick (e : Engine) (byteAt : Nat → UInt8) :
    (e.tick layout byteAt now).length = e.length := by
  have same : (e.control.tick byteAt now).length = e.control.length := by
    unfold Control.tick
    split
    · split <;> rfl
    · split <;> rfl
    all_goals rfl
  have led := congrArg Control.length (e.control_tick layout now byteAt)
  exact led.trans same

end Engine

namespace Station

variable {σ μ ν : Type} [Surroundings σ] [Transport σ] [Medium μ] [Medium ν]

/-- One tick after the other, where the world of the host may become another one before each of them. -/
def ticks (layout : Layout) (store : Store μ) : List (σ → σ) → Routine (Station σ) Unit
  | [] => pure ()
  | change :: later => do
    modify fun s => { s with host := change s.host }
    tick layout store
    ticks layout store later

variable {layout : Layout} {store : Store μ} {store' : Store ν}

theorem ticks_cons (change : σ → σ) (later : List (σ → σ)) (s : Station σ) :
    ticks layout store (change :: later) s =
      match tick layout store { s with host := change s.host } with
      | .ok _ t => ticks layout store later t
      | .error e t => .error e t := by
  show EStateM.bind (tick layout store) (fun _ => ticks layout store later)
    { s with host := change s.host } = _
  rw [EStateM.bind]
  cases tick layout store { s with host := change s.host } <;> rfl

theorem tick_congr (agree : store.announced.Agrees store'.announced) {s : Station σ}
    (long : s.engine.length = store.announced.length) : tick layout store s = tick layout store' s := by
  have same : (s.engine.script store.scriptByte).Agrees (s.engine.script store'.scriptByte) :=
    ⟨rfl, fun offset inside => agree.byteAt offset (long ▸ inside)⟩
  show perform (s.engine.actions layout store.scriptByte (Surroundings.now s)) s =
    perform (s.engine.actions layout store'.scriptByte (Surroundings.now s)) s
  rw [Engine.actions_congr same]

theorem ticks_congr (agree : store.announced.Agrees store'.announced) (changes : List (σ → σ))
    {s : Station σ} (long : s.engine.length = store.announced.length) :
    ticks layout store changes s = ticks layout store' changes s := by
  induction changes generalizing s with
  | nil => rfl
  | cons change later ih =>
    have first : tick layout store { s with host := change s.host } =
        tick layout store' { s with host := change s.host } := tick_congr agree long
    rw [ticks_cons, ticks_cons, ← first]
    cases back : tick layout store { s with host := change s.host } with
    | error e t => rfl
    | ok u t =>
      refine ih ?_
      rw [(tick_ok back).1, Engine.length_tick]
      exact long

end Station

/-- Two stores hold a script of the same length with the same bytes; nothing is said of the rest of their
headers and cells, or of the media. An engine that is started on one of them and an engine like it that is
started on the other then go through the same ticks, in any world of a host and with any change of it
between two ticks: after each tick the engines are equal and so are the worlds, that is, these were given
the same reports and polls in the same order, also when a poll never comes back. -/
theorem Store.reads_only_script {σ μ ν : Type} [Surroundings σ] [Transport σ] [Medium μ] [Medium ν]
    {store : Store μ} {store' : Store ν} (valid : store.hasScript = true)
    (valid' : store'.hasScript = true) (length : store.scriptLength = store'.scriptLength)
    (cells : ∀ i < store.scriptLength.toNat,
      store.readByte (scriptStart + i) = store'.readByte (scriptStart + i))
    (layout : Layout) (e : Engine) (host : σ) (changes : List (σ → σ)) :
    Station.ticks layout store changes ⟨e.start store, host⟩ =
      Station.ticks layout store' changes ⟨e.start store', host⟩ := by
  have agree : store.announced.Agrees store'.announced := ⟨congrArg UInt16.toNat length, cells⟩
  have started : e.start store = e.start store' := by
    simp only [Engine.start, valid, valid', length]
  rw [← started]
  exact Station.ticks_congr agree changes rfl

/-- A store with the script that is cut off within a text, under a header with other flags, another delay
and another checksum, with more instructions just past its end and something in the reserved cell. -/
def Store.cutTextAnew : Store Memory :=
  .writeByte (.commit (.writeBlock (.mount {}) scriptStart
    [Opcode.text, 3, 0x41, 0x62, 0x63, Opcode.tap, 0x04])
    { version := Header.currentVersion, flags := 0x80, delay := 7, length := 4 }) reservedAddress 0

theorem Store.reads_only_script_cutText :
    Store.cutText.hasScript = true ∧ Store.cutTextAnew.hasScript = true ∧
    Store.cutText.scriptLength = Store.cutTextAnew.scriptLength ∧
    (∀ i < Store.cutText.scriptLength.toNat,
      Store.cutText.readByte (scriptStart + i) = Store.cutTextAnew.readByte (scriptStart + i)) ∧
    ∀ changes : List (Noted Bench → Noted Bench),
      Station.ticks .us Store.cutText changes ⟨Engine.start {} .cutText, ⟨{ busyAfter := 2 }, []⟩⟩ =
        Station.ticks .us Store.cutTextAnew changes
          ⟨Engine.start {} .cutTextAnew, ⟨{ busyAfter := 2 }, []⟩⟩ :=
  have length : Store.cutText.scriptLength = Store.cutTextAnew.scriptLength := by decide +kernel
  have cells : ∀ i < Store.cutText.scriptLength.toNat,
      Store.cutText.readByte (scriptStart + i) = Store.cutTextAnew.readByte (scriptStart + i) := by
    decide +kernel
  ⟨by decide +kernel, by decide +kernel, length, cells,
    Store.reads_only_script (by decide +kernel) (by decide +kernel) length cells .us {} _⟩

end Autotype
