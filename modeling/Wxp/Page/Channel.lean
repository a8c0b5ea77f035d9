import Wxp.Foundations.ReorderBuffer
import Mathlib.Data.List.AList

/-!
# Page — Channel

The JavaScript class `Channel` of `CHANNEL_INIT_SCRIPT` (`src/initialization.rs`)
with the callback it registers through `transformCallback`. Its `id` has an entry
in `callbacks` and one in `channels`, always both or none: `registered`.

The page's handler is an arbitrary function of the messages it has been called
with so far; it may throw and it may call `close()`. An exception leaves the
function it is thrown in, so each function that runs the handler answers with an
`Except` whose error is the state the exception leaves behind.

Result: with a handler that does neither, the class is a reorder buffer
(`Channel.onRawMessage_message`, `Channel.onRawMessage_ended`).
-/

namespace Wxp.Page

universe u

/-- What one call of the handler does besides reading its message. -/
structure Reaction where
  closes : Bool := false
  throws : Bool := false
  deriving DecidableEq, Repr

structure Channel (μ : Type u) where
  /-- `_onmessage`. -/
  onmessage : Option (List μ → Reaction)
  nextMessageIndex : Nat := 0
  /-- `_pendingMessages`, a sparse array. -/
  pendingMessages : AList fun _ : Nat => μ := ∅
  messageEndIndex : Option Nat := none
  alive : Bool := true
  registered : Bool := true
  /-- History: the messages `_onmessage` has been called with. -/
  handled : List μ := []

/-- The object a script passes to the callback. -/
inductive RawMessage (μ : Type u)
  | message (message : μ) (index : Nat)
  | ended (index : Nat)

variable {μ : Type u}

namespace Channel

/-- Removes the channel from `callbacks` and `channels`. -/
def unregister (c : Channel μ) : Channel μ :=
  { c with registered := false }

def close (c : Channel μ) : Channel μ :=
  if c.alive then { c with alive := false }.unregister else c

def setOnmessage (c : Channel μ) (handler : Option (List μ → Reaction)) : Channel μ :=
  { c with onmessage := handler }

/-- `if (this._onmessage) this._onmessage(message)`. -/
def callOnmessage (c : Channel μ) (message : μ) : Except (Channel μ) (Channel μ) :=
  match c.onmessage with
  | none => .ok c
  | some handler =>
      let handled := c.handled ++ [message]
      let c := { c with handled }
      let c := if (handler handled).closes then c.close else c
      if (handler handled).throws then .error c else .ok c

/-- The loop of `_drainPendingMessages`. Every pass deletes an entry of the
array, so the array's size bounds the passes. -/
def drainLoop : Nat → Channel μ → Except (Channel μ) (Channel μ)
  | 0, c => .ok c
  | n + 1, c =>
      match c.pendingMessages.lookup c.nextMessageIndex with
      | none => .ok c
      | some message => do
          let c ← callOnmessage
            { c with pendingMessages := c.pendingMessages.erase c.nextMessageIndex } message
          drainLoop n { c with nextMessageIndex := c.nextMessageIndex + 1 }

def drainPendingMessages (c : Channel μ) : Except (Channel μ) (Channel μ) := do
  let c ← drainLoop c.pendingMessages.keys.length c
  match c.messageEndIndex with
  | some e => if e ≤ c.nextMessageIndex ∧ !c.alive then .ok c.unregister else .ok c
  | none => .ok c

/-- The callback given to `transformCallback`. -/
def onRawMessage (c : Channel μ) : RawMessage μ → Except (Channel μ) (Channel μ)
  | .ended index => do
      let c ← drainPendingMessages { c with messageEndIndex := some index }
      if !c.alive then .ok c.unregister else .ok c
  | .message message index =>
      if index = c.nextMessageIndex then do
        let c ← c.callOnmessage message
        drainPendingMessages { c with nextMessageIndex := c.nextMessageIndex + 1 }
      else
        .ok { c with pendingMessages := c.pendingMessages.insert index message }

/-- `runCallback(this.id, raw)`, evaluated as a script of its own: an exception
ends the script. -/
def runCallback (c : Channel μ) (raw : RawMessage μ) : Channel μ :=
  if c.registered then
    match c.onRawMessage raw with
    | .ok c => c
    | .error c => c
  else c

/-! ## Delivery to a handler that neither throws nor closes -/

/-- The page holds the channel open and handles its messages. -/
structure Listening (c : Channel μ) : Prop where
  registered : c.registered = true
  alive : c.alive = true
  handler : ∃ handler, c.onmessage = some handler ∧ ∀ l, handler l = {}

theorem Listening.callOnmessage_eq {c : Channel μ} (h : c.Listening) (m : μ) :
    c.callOnmessage m = .ok { c with handled := c.handled ++ [m] } := by
  obtain ⟨handler, hc, hh⟩ := h.handler
  simp [callOnmessage, hc, hh]

/-- The channel is a reorder buffer for what has arrived. -/
structure Buffers (A : Nat → μ → Prop) (c : Channel μ) : Prop where
  listening : c.Listening
  next : c.nextMessageIndex = c.handled.length
  reorders : Reorders A c.handled fun i => c.pendingMessages.lookup i

/-- It also has nothing left to drain, as whenever no script runs. -/
structure Settled (A : Nat → μ → Prop) (c : Channel μ) : Prop extends Buffers A c where
  drained : c.pendingMessages.lookup c.nextMessageIndex = none

variable {A : Nat → μ → Prop} {c : Channel μ}

theorem Settled.contiguousPrefix (h : c.Settled A) : ContiguousPrefix A c.handled :=
  h.reorders.contiguousPrefix (h.next ▸ h.drained)

/-- With no key there is nothing to drain. -/
theorem lookup_eq_none_of_length {a : AList fun _ : Nat => μ} (h : a.keys.length ≤ 0) (i : Nat) :
    a.lookup i = none := by
  have hempty : a.keys = [] := List.length_eq_zero_iff.1 (Nat.le_zero.1 h)
  rw [AList.lookup_eq_none, AList.mem_keys, hempty]
  simp

/-- A message that is taken out shortens the loop. -/
theorem length_erase_le {a : AList fun _ : Nat => μ} {i n : Nat} {m : μ}
    (hm : a.lookup i = some m) (hn : a.keys.length ≤ n + 1) : (a.erase i).keys.length ≤ n := by
  have hmem : i ∈ a.keys := by
    rw [← AList.mem_keys, ← AList.lookup_isSome, hm]
    rfl
  have := List.length_erase_of_mem hmem
  simp only [AList.keys_erase]
  omega

theorem Buffers.drainLoop_eq {n : Nat} (h : c.Buffers A)
    (hn : c.pendingMessages.keys.length ≤ n) : ∃ c', drainLoop n c = .ok c' ∧ c'.Settled A := by
  induction n generalizing c with
  | zero => exact ⟨c, rfl, h, lookup_eq_none_of_length hn _⟩
  | succ n ih =>
      cases hm : c.pendingMessages.lookup c.nextMessageIndex with
      | none => exact ⟨c, by simp [drainLoop, hm], h, hm⟩
      | some m =>
          have hl : ({ c with pendingMessages := c.pendingMessages.erase c.nextMessageIndex } :
              Channel μ).Listening := ⟨h.listening.registered, h.listening.alive, h.listening.handler⟩
          have hb : Buffers A { c with
              pendingMessages := c.pendingMessages.erase c.nextMessageIndex
              handled := c.handled ++ [m]
              nextMessageIndex := c.nextMessageIndex + 1 } := by
            refine ⟨⟨hl.registered, hl.alive, hl.handler⟩, by simp [h.next], ?_⟩
            refine h.reorders.take (m := m) (h.next ▸ hm) ?_ fun j hj => ?_
            · simp [h.next]
            · exact AList.lookup_erase_ne (h.next ▸ hj)
          obtain ⟨c', hc', hs⟩ := ih hb (length_erase_le hm hn)
          exact ⟨c', by simpa [drainLoop, hm, hl.callOnmessage_eq, bind, Except.bind] using hc', hs⟩

theorem Buffers.drainPendingMessages_eq (h : c.Buffers A) :
    ∃ c', c.drainPendingMessages = .ok c' ∧ c'.Settled A := by
  obtain ⟨c', hc', hs⟩ := h.drainLoop_eq le_rfl
  refine ⟨c', ?_, hs⟩
  simp only [drainPendingMessages, hc', bind, Except.bind, hs.listening.alive]
  cases c'.messageEndIndex <;> simp

/-- A message is passed to the handler, with the messages that waited for it, or
waits itself. -/
theorem Settled.onRawMessage_message (h : c.Settled A) (m : μ) (i : Nat) :
    ∃ c', c.onRawMessage (.message m i) = .ok c' ∧
      c'.Settled fun j n => A j n ∨ (j = i ∧ n = m) := by
  by_cases hi : i = c.nextMessageIndex
  · have hb : Buffers (fun j n => A j n ∨ (j = i ∧ n = m)) { c with
        handled := c.handled ++ [m]
        nextMessageIndex := c.nextMessageIndex + 1 } := by
      refine ⟨⟨h.listening.registered, h.listening.alive, h.listening.handler⟩, by simp [h.next], ?_⟩
      rw [hi, h.next]
      exact h.reorders.arrive_next m
    obtain ⟨c', hc', hs⟩ := hb.drainPendingMessages_eq
    refine ⟨c', ?_, hs⟩
    simpa [onRawMessage, hi, h.listening.callOnmessage_eq, bind, Except.bind] using hc'
  · refine ⟨_, if_neg hi, ⟨⟨h.listening.registered, h.listening.alive, h.listening.handler⟩,
      h.next, ?_⟩, ?_⟩
    · exact h.reorders.arrive_other i m (AList.lookup_insert _) fun j hj =>
        AList.lookup_insert_ne hj
    · show (c.pendingMessages.insert i m).lookup c.nextMessageIndex = none
      rw [AList.lookup_insert_ne (Ne.symm hi)]
      exact h.drained

/-- The end of the channel changes nothing for its messages. -/
theorem Settled.onRawMessage_ended (h : c.Settled A) (i : Nat) :
    ∃ c', c.onRawMessage (.ended i) = .ok c' ∧ c'.Settled A := by
  have hb : Buffers A { c with messageEndIndex := some i } :=
    ⟨⟨h.listening.registered, h.listening.alive, h.listening.handler⟩, h.next, h.reorders⟩
  obtain ⟨c', hc', hs⟩ := hb.drainPendingMessages_eq
  refine ⟨c', ?_, hs⟩
  simp [onRawMessage, hc', bind, Except.bind, hs.listening.alive]

theorem Settled.runCallback_message (h : c.Settled A) (m : μ) (i : Nat) :
    (c.runCallback (.message m i)).Settled fun j n => A j n ∨ (j = i ∧ n = m) := by
  obtain ⟨c', hc', hs⟩ := h.onRawMessage_message m i
  simpa [runCallback, h.listening.registered, hc'] using hs

theorem Settled.runCallback_ended (h : c.Settled A) (i : Nat) :
    (c.runCallback (.ended i)).Settled A := by
  obtain ⟨c', hc', hs⟩ := h.onRawMessage_ended i
  simpa [runCallback, h.listening.registered, hc'] using hs

theorem Settled.congr {A' : Nat → μ → Prop} (h : c.Settled A) (hA : ∀ i m, A i m ↔ A' i m) :
    c.Settled A' :=
  ⟨⟨h.listening, h.next, h.reorders.congr hA⟩, h.drained⟩

/-- `new Channel(onmessage)`, with nothing arrived yet. -/
theorem settled_new {handler : List μ → Reaction} (hh : ∀ l, handler l = {}) :
    ({ onmessage := some handler } : Channel μ).Settled fun _ _ => False :=
  ⟨⟨⟨rfl, rfl, handler, rfl, hh⟩, rfl, .empty⟩, rfl⟩

end Channel

end Wxp.Page
