import Wxp.Page.Channel
import Mathlib.Data.List.Nodup
import Mathlib.Data.List.Infix

/-!
# Page — Exceptions

`Channel` with a handler that throws at some of its calls. The callback advances
`_nextMessageIndex` after the call of the handler, on the direct path and in
`_drainPendingMessages`, so an exception leaves the index at the message that has
just been handled. That index never arrives again: everything later is buffered
and stays there. Only the last message may throw without harm.

Between two scripts the channel therefore is in one of two states, whatever the
order of arrivals: it flows (`Flows`, a reorder buffer none of whose calls has
thrown) or it is stuck (`Stuck`, its latest call has thrown).

Result: `messages_handled_iff`.
-/

namespace Wxp.Page

universe u

variable {μ : Type u}

/-- The message a script brings, with its index. -/
def RawMessage.message? : RawMessage μ → Option (μ × Nat)
  | .message m i => some (m, i)
  | .ended _ => none

namespace Channel

/-- `new Channel(onmessage)`, where `throws` says which calls of the handler throw: it
is asked with the messages of all calls so far. -/
def throwing (throws : List μ → Bool) : Channel μ :=
  { onmessage := some fun handled => { throws := throws handled } }

/-- The scripts of one channel, one after the other. -/
def receive (c : Channel μ) (raws : List (RawMessage μ)) : Channel μ :=
  raws.foldl runCallback c

/-- The message `m` is among `raws`, under the index `i`. -/
def Arrived (raws : List (RawMessage μ)) (i : Nat) (m : μ) : Prop :=
  .message m i ∈ raws

variable {throws : List μ → Bool} {A : Nat → μ → Prop} {c : Channel μ}

/-- The page holds the channel open, with the throwing handler. -/
structure Open (throws : List μ → Bool) (c : Channel μ) : Prop where
  registered : c.registered = true
  alive : c.alive = true
  handler : c.onmessage = some fun handled => { throws := throws handled }

/-- A reorder buffer; no call of the handler has thrown yet. -/
structure Flows (throws : List μ → Bool) (A : Nat → μ → Prop) (c : Channel μ) : Prop
    extends Open throws c where
  next : c.nextMessageIndex = c.handled.length
  reorders : Reorders A c.handled fun i => c.pendingMessages.lookup i
  quiet : ∀ k < c.handled.length, throws (c.handled.take (k + 1)) = false

/-- The latest call of the handler has thrown: the index that is due has been handled
and is not kept. -/
structure Stuck (throws : List μ → Bool) (A : Nat → μ → Prop) (c : Channel μ) : Prop
    extends Open throws c where
  next : c.handled.length = c.nextMessageIndex + 1
  passed : ∀ i m, c.handled[i]? = some m → A i m
  drained : c.pendingMessages.lookup c.nextMessageIndex = none
  quiet : ∀ k, k + 1 < c.handled.length → throws (c.handled.take (k + 1)) = false
  thrown : throws c.handled = true

/-- Nothing is left to drain, as whenever no script runs. -/
def Rests (throws : List μ → Bool) (A : Nat → μ → Prop) (c : Channel μ) : Prop :=
  (Flows throws A c ∧ c.pendingMessages.lookup c.nextMessageIndex = none) ∨ Stuck throws A c

/-! ## One call of the handler -/

theorem Open.callOnmessage_eq (h : Open throws c) (m : μ) :
    c.callOnmessage m =
      if throws (c.handled ++ [m]) then .error { c with handled := c.handled ++ [m] }
      else .ok { c with handled := c.handled ++ [m] } := by
  simp [callOnmessage, h.handler]

theorem quiet_concat {l : List μ} {m : μ}
    (h : ∀ k < l.length, throws (l.take (k + 1)) = false) {k : Nat} (hk : k < l.length) :
    throws ((l ++ [m]).take (k + 1)) = false := by
  rw [List.take_append_of_le_length (by omega)]
  exact h k hk

/-- What a call that returns leaves behind, once the index has been advanced. -/
theorem Flows.advance {A' : Nat → μ → Prop} {c' : Channel μ} {m : μ} (h : Flows throws A c)
    (ho : Open throws c') (hhandled : c'.handled = c.handled ++ [m])
    (hnext : c'.nextMessageIndex = c.nextMessageIndex + 1)
    (hr : Reorders A' (c.handled ++ [m]) fun i => c'.pendingMessages.lookup i)
    (ht : throws (c.handled ++ [m]) = false) : Flows throws A' c' := by
  refine ⟨ho, ?_, hhandled ▸ hr, fun k hk => ?_⟩
  · rw [hnext, hhandled, List.length_append, List.length_singleton, h.next]
  · rw [hhandled] at hk ⊢
    rw [List.length_append, List.length_singleton] at hk
    rcases Nat.lt_or_ge k c.handled.length with hlt | hge
    · exact quiet_concat h.quiet hlt
    · rw [List.take_of_length_le (by simp; omega)]
      exact ht

/-- What a call that throws leaves behind. -/
theorem Flows.stick {A' : Nat → μ → Prop} {c' : Channel μ} {m : μ} (h : Flows throws A c)
    (ho : Open throws c') (hhandled : c'.handled = c.handled ++ [m])
    (hnext : c'.nextMessageIndex = c.nextMessageIndex)
    (hdrained : c'.pendingMessages.lookup c.nextMessageIndex = none)
    (hr : Reorders A' (c.handled ++ [m]) fun i => c'.pendingMessages.lookup i)
    (ht : throws (c.handled ++ [m]) = true) : Stuck throws A' c' := by
  refine ⟨ho, ?_, hhandled ▸ hr.passed, hnext ▸ hdrained, fun k hk => ?_, hhandled ▸ ht⟩
  · rw [hnext, hhandled, List.length_append, List.length_singleton, h.next]
  · rw [hhandled] at hk ⊢
    rw [List.length_append, List.length_singleton] at hk
    exact quiet_concat h.quiet (by omega)

/-! ## One script -/

/-- The loop drains what is due, up to the first call that throws. -/
theorem Flows.drainLoop {n : Nat} (h : Flows throws A c)
    (hn : c.pendingMessages.keys.length ≤ n) :
    (∃ c', drainLoop n c = .ok c' ∧ Flows throws A c' ∧
      c'.pendingMessages.lookup c'.nextMessageIndex = none) ∨
    ∃ c', drainLoop n c = .error c' ∧ Stuck throws A c' := by
  induction n generalizing c with
  | zero => exact .inl ⟨c, rfl, h, lookup_eq_none_of_length hn _⟩
  | succ n ih =>
      cases hm : c.pendingMessages.lookup c.nextMessageIndex with
      | none => exact .inl ⟨c, by simp [Channel.drainLoop, hm], h, hm⟩
      | some m =>
          have ho : Open throws
              { c with pendingMessages := c.pendingMessages.erase c.nextMessageIndex } :=
            ⟨h.registered, h.alive, h.handler⟩
          have hr : Reorders A (c.handled ++ [m])
              fun i => (c.pendingMessages.erase c.nextMessageIndex).lookup i := by
            refine h.reorders.take (h.next ▸ hm) ?_ fun j hj => ?_
            · simp [h.next]
            · exact AList.lookup_erase_ne (h.next ▸ hj)
          by_cases ht : throws (c.handled ++ [m]) = true
          · have hs : Stuck throws A { c with
                pendingMessages := c.pendingMessages.erase c.nextMessageIndex
                handled := c.handled ++ [m] } :=
              h.stick ⟨h.registered, h.alive, h.handler⟩ rfl rfl (AList.lookup_erase _ _) hr ht
            refine .inr ⟨_, ?_, hs⟩
            simp [Channel.drainLoop, hm, ho.callOnmessage_eq, ht, bind, Except.bind]
          · have hf : Flows throws A { c with
                pendingMessages := c.pendingMessages.erase c.nextMessageIndex
                handled := c.handled ++ [m]
                nextMessageIndex := c.nextMessageIndex + 1 } :=
              h.advance ⟨h.registered, h.alive, h.handler⟩ rfl rfl hr (by simpa using ht)
            simpa [Channel.drainLoop, hm, ho.callOnmessage_eq, ht, bind, Except.bind]
              using ih hf (length_erase_le hm hn)

theorem Flows.drainPendingMessages (h : Flows throws A c) :
    (∃ c', c.drainPendingMessages = .ok c' ∧ Open throws c' ∧ Rests throws A c') ∨
    ∃ c', c.drainPendingMessages = .error c' ∧ Stuck throws A c' := by
  rcases h.drainLoop le_rfl with ⟨c', hc', hf, hd⟩ | ⟨c', hc', hs⟩
  · refine .inl ⟨c', ?_, hf.toOpen, .inl ⟨hf, hd⟩⟩
    simp only [Channel.drainPendingMessages, hc', bind, Except.bind, hf.alive]
    cases c'.messageEndIndex <;> simp
  · refine .inr ⟨c', ?_, hs⟩
    simp [Channel.drainPendingMessages, hc', bind, Except.bind]

/-- In a stuck channel nothing is drained. -/
theorem Stuck.drainPendingMessages (h : Stuck throws A c) : c.drainPendingMessages = .ok c := by
  have hloop : Channel.drainLoop c.pendingMessages.keys.length c = .ok c := by
    cases c.pendingMessages.keys.length with
    | zero => rfl
    | succ n => simp [Channel.drainLoop, h.drained]
  simp only [Channel.drainPendingMessages, hloop, bind, Except.bind, h.alive]
  cases c.messageEndIndex <;> simp

theorem Rests.registered (h : Rests throws A c) : c.registered = true := by
  rcases h with ⟨hf, -⟩ | hs
  · exact hf.registered
  · exact hs.registered

theorem runCallback_ok {c' : Channel μ} {raw : RawMessage μ} (hr : c.registered = true)
    (h : c.onRawMessage raw = .ok c') : c.runCallback raw = c' := by
  rw [runCallback, if_pos hr, h]

theorem runCallback_error {c' : Channel μ} {raw : RawMessage μ} (hr : c.registered = true)
    (h : c.onRawMessage raw = .error c') : c.runCallback raw = c' := by
  rw [runCallback, if_pos hr, h]

theorem onRawMessage_ended {c' : Channel μ} {i : Nat} (ho : Open throws c')
    (h : Channel.drainPendingMessages { c with messageEndIndex := some i } = .ok c') :
    c.onRawMessage (.ended i) = .ok c' := by
  simp only [onRawMessage, bind, Except.bind]
  rw [h]
  simp [ho.alive]

theorem Rests.runCallback_ended (h : Rests throws A c) (i : Nat) :
    Rests throws A (c.runCallback (.ended i)) := by
  have hr := h.registered
  rcases h with ⟨hf, -⟩ | hs
  · have hf' : Flows throws A { c with messageEndIndex := some i } :=
      ⟨⟨hf.registered, hf.alive, hf.handler⟩, hf.next, hf.reorders, hf.quiet⟩
    rcases hf'.drainPendingMessages with ⟨c', hc', ho, hr'⟩ | ⟨c', hc', hs'⟩
    · rw [runCallback_ok hr (onRawMessage_ended ho hc')]
      exact hr'
    · have hon : c.onRawMessage (.ended i) = .error c' := by
        simp only [onRawMessage, bind, Except.bind]
        rw [hc']
      rw [runCallback_error hr hon]
      exact .inr hs'
  · have hs' : Stuck throws A { c with messageEndIndex := some i } :=
      ⟨⟨hs.registered, hs.alive, hs.handler⟩, hs.next, hs.passed, hs.drained, hs.quiet,
        hs.thrown⟩
    rw [runCallback_ok hr (onRawMessage_ended hs'.toOpen hs'.drainPendingMessages)]
    exact .inr hs'

/-- The message that is due is handled, and after it what waited for it. -/
theorem Flows.runCallback_next (h : Flows throws A c)
    (hd : c.pendingMessages.lookup c.nextMessageIndex = none) (m : μ) :
    Rests throws (fun j n => A j n ∨ (j = c.nextMessageIndex ∧ n = m))
      (c.runCallback (.message m c.nextMessageIndex)) := by
  have hr := h.reorders.arrive_next m
  rw [← h.next] at hr
  by_cases ht : throws (c.handled ++ [m]) = true
  · have hon : c.onRawMessage (.message m c.nextMessageIndex) =
        .error { c with handled := c.handled ++ [m] } := by
      simp [onRawMessage, h.callOnmessage_eq, ht, bind, Except.bind]
    rw [runCallback_error h.registered hon]
    exact .inr (h.stick ⟨h.registered, h.alive, h.handler⟩ rfl rfl hd hr ht)
  · have hf : Flows throws (fun j n => A j n ∨ (j = c.nextMessageIndex ∧ n = m)) { c with
        handled := c.handled ++ [m]
        nextMessageIndex := c.nextMessageIndex + 1 } :=
      h.advance ⟨h.registered, h.alive, h.handler⟩ rfl rfl hr (by simpa using ht)
    have hon : c.onRawMessage (.message m c.nextMessageIndex) =
        Channel.drainPendingMessages { c with
          handled := c.handled ++ [m]
          nextMessageIndex := c.nextMessageIndex + 1 } := by
      simp [onRawMessage, h.callOnmessage_eq, ht, bind, Except.bind]
    rcases hf.drainPendingMessages with ⟨c', hc', -, hr'⟩ | ⟨c', hc', hs'⟩
    · rw [runCallback_ok h.registered (hon.trans hc')]
      exact hr'
    · rw [runCallback_error h.registered (hon.trans hc')]
      exact .inr hs'

/-- Any other message waits. -/
theorem Rests.runCallback_other {i : Nat} (h : Rests throws A c) (m : μ)
    (hi : i ≠ c.nextMessageIndex) :
    Rests throws (fun j n => A j n ∨ (j = i ∧ n = m)) (c.runCallback (.message m i)) := by
  have hrun : c.runCallback (.message m i) =
      { c with pendingMessages := c.pendingMessages.insert i m } :=
    runCallback_ok h.registered (if_neg hi)
  rw [hrun]
  have hkeep : (c.pendingMessages.insert i m).lookup c.nextMessageIndex =
      c.pendingMessages.lookup c.nextMessageIndex := AList.lookup_insert_ne (Ne.symm hi)
  rcases h with ⟨hf, hd⟩ | hs
  · exact .inl ⟨⟨⟨hf.registered, hf.alive, hf.handler⟩, hf.next,
      hf.reorders.arrive_other i m (AList.lookup_insert _) fun j hj => AList.lookup_insert_ne hj,
      hf.quiet⟩, hkeep.trans hd⟩
  · exact .inr ⟨⟨hs.registered, hs.alive, hs.handler⟩, hs.next,
      fun j n hj => .inl (hs.passed j n hj), hkeep.trans hs.drained, hs.quiet, hs.thrown⟩

/-- The index that is due in a stuck channel has arrived. -/
theorem Stuck.arrived (h : Stuck throws A c) : ∃ m, A c.nextMessageIndex m := by
  have hlt : c.nextMessageIndex < c.handled.length := by
    have := h.next
    omega
  exact ⟨_, h.passed _ _ (List.getElem?_eq_getElem hlt)⟩

theorem Rests.runCallback_message {i : Nat} (h : Rests throws A c) (m : μ)
    (hnew : ∀ n, ¬ A i n) :
    Rests throws (fun j n => A j n ∨ (j = i ∧ n = m)) (c.runCallback (.message m i)) := by
  by_cases hi : i = c.nextMessageIndex
  · rcases h with ⟨hf, hd⟩ | hs
    · subst hi
      exact hf.runCallback_next hd m
    · obtain ⟨n, hn⟩ := hs.arrived
      exact absurd (hi ▸ hn) (hnew n)
  · exact h.runCallback_other m hi

theorem Rests.congr {A' : Nat → μ → Prop} (h : Rests throws A c) (hA : ∀ i m, A i m ↔ A' i m) :
    Rests throws A' c := by
  have : A = A' := by
    funext i m
    exact propext (hA i m)
  exact this ▸ h

/-! ## The scripts of a channel -/

theorem rests_throwing (throws : List μ → Bool) :
    Rests throws (fun _ _ => False) (throwing throws) :=
  .inl ⟨⟨⟨rfl, rfl, rfl⟩, rfl, .empty, by simp [throwing]⟩, rfl⟩

theorem receive_concat (c : Channel μ) (raws : List (RawMessage μ)) (raw : RawMessage μ) :
    c.receive (raws ++ [raw]) = (c.receive raws).runCallback raw := by
  simp [receive]

/-- No index arrives twice: the channel flows or is stuck after every script. -/
theorem rests_receive (throws : List μ → Bool) {raws : List (RawMessage μ)}
    (h : ((raws.filterMap RawMessage.message?).map Prod.snd).Nodup) :
    Rests throws (Arrived raws) ((throwing throws).receive raws) := by
  induction raws using List.reverseRecOn with
  | nil => exact (rests_throwing throws).congr fun i m => by simp [Arrived]
  | append_singleton raws raw ih =>
      rw [List.filterMap_append, List.map_append] at h
      have ih := ih h.of_append_left
      rw [receive_concat]
      cases raw with
      | ended i => exact (ih.runCallback_ended i).congr fun j n => by simp [Arrived]
      | message m i =>
          refine (ih.runCallback_message m fun n hn => ?_).congr fun j n => ?_
          · refine List.disjoint_of_nodup_append h (a := i) ?_ (by simp [RawMessage.message?])
            exact List.mem_map.2 ⟨(n, i), List.mem_filterMap.2 ⟨_, hn, rfl⟩, rfl⟩
          · simp [Arrived, and_comm]

section

variable {messages : List μ}

theorem Rests.passed (h : Rests throws A c) {i : Nat} {m : μ} (hi : c.handled[i]? = some m) :
    A i m := by
  rcases h with ⟨hf, -⟩ | hs
  · exact hf.reorders.passed i m hi
  · exact hs.passed i m hi

theorem Rests.handled_eq_take (h : Rests throws A c)
    (hA : ∀ i m, A i m → messages[i]? = some m) :
    c.handled = messages.take c.handled.length := by
  refine List.ext_getElem? fun i => ?_
  rcases Nat.lt_or_ge i c.handled.length with hlt | hge
  · rw [List.getElem?_take_of_lt hlt, List.getElem?_eq_getElem hlt]
    exact (hA i _ (h.passed (List.getElem?_eq_getElem hlt))).symm
  · rw [List.getElem?_eq_none hge, List.getElem?_eq_none]
    simp only [List.length_take]
    omega

/-- No call before the last message throws: nothing that has arrived is held back. -/
theorem Rests.contiguousPrefix (h : Rests throws A c)
    (hA : ∀ i m, A i m → messages[i]? = some m)
    (hq : ∀ k, k + 1 < messages.length → throws (messages.take (k + 1)) = false) :
    ContiguousPrefix A c.handled := by
  have htake := h.handled_eq_take hA
  rcases h with ⟨hf, hd⟩ | hs
  · exact hf.reorders.contiguousPrefix (hf.next ▸ hd)
  · refine ⟨hs.passed, fun m hm => ?_⟩
    have hlt := (List.getElem?_eq_some_iff.1 (hA _ m hm)).1
    have hthrown := hs.thrown
    rw [htake, hs.next, hq c.nextMessageIndex (hs.next ▸ hlt)] at hthrown
    cases hthrown

/-- A call that was followed by another one did not throw. -/
theorem Rests.quiet (h : Rests throws A c) {k : Nat} (hk : k + 1 < c.handled.length) :
    throws (c.handled.take (k + 1)) = false := by
  rcases h with ⟨hf, -⟩ | hs
  · exact hf.quiet k (by omega)
  · exact hs.quiet k hk

end

/-- The arrivals are the messages in some order, with announcements of the end anywhere:
each message is handled once in index order, and after every script all that has arrived
up to the first gap has been handled, exactly if no call but that for the last message
throws. -/
theorem messages_handled_iff (throws : List μ → Bool) (messages : List μ)
    (raws : List (RawMessage μ)) (h : (raws.filterMap RawMessage.message?).Perm messages.zipIdx) :
    (((throwing throws).receive raws).handled = messages ∧ ∀ seen, seen <+: raws →
      ContiguousPrefix (Arrived seen) ((throwing throws).receive seen).handled) ↔
    ∀ k, k + 1 < messages.length → throws (messages.take (k + 1)) = false := by
  have hnodup : ((raws.filterMap RawMessage.message?).map Prod.snd).Nodup := by
    rw [(h.map _).nodup_iff, List.zipIdx_map_snd]
    exact List.nodup_range'
  have hA : ∀ i m, Arrived raws i m ↔ messages[i]? = some m := fun i m => by
    rw [← List.mk_mem_zipIdx_iff_getElem?, ← h.mem_iff, List.mem_filterMap]
    refine ⟨fun hm => ⟨_, hm, rfl⟩, fun ⟨raw, hraw, he⟩ => ?_⟩
    cases raw with
    | ended _ => cases he
    | message m' i' =>
        cases he
        exact hraw
  constructor
  · rintro ⟨hall, -⟩ k hk
    have := (rests_receive throws hnodup).quiet (k := k) (by rwa [hall])
    rwa [hall] at this
  · intro hq
    have hprefix : ∀ seen, seen <+: raws →
        ContiguousPrefix (Arrived seen) ((throwing throws).receive seen).handled :=
      fun seen hseen => by
        have hsub := ((hseen.sublist.filterMap RawMessage.message?).map Prod.snd).nodup hnodup
        exact (rests_receive throws hsub).contiguousPrefix
          (fun i m hm => (hA i m).1 (hseen.subset hm)) hq
    refine ⟨?_, hprefix⟩
    have hcp := hprefix raws List.prefix_rfl
    have htake := (rests_receive throws hnodup).handled_eq_take fun i m hm => (hA i m).1 hm
    refine htake.trans (List.take_of_length_le (not_lt.1 fun hlt => ?_))
    exact hcp.longest _ ((hA _ _).2 (List.getElem?_eq_getElem hlt))

/-- The last of three messages throws. -/
theorem messages_handled_iff_last :
    ((throwing fun handled => decide (handled.length = 3)).receive
      [.message 'c' 2, .message 'a' 0, .ended 3, .message 'b' 1]).handled = ['a', 'b', 'c'] :=
  ((messages_handled_iff (fun handled => decide (handled.length = 3)) ['a', 'b', 'c'] _
    (by decide)).2 fun k hk => by simp at hk ⊢; omega).1

/-- The handler throws for message 0; message 1 is never handled. -/
theorem throw_blocks_later_message :
    [RawMessage.message 'a' 0, .message 'b' 1].filterMap RawMessage.message? =
        ['a', 'b'].zipIdx ∧
      ((throwing fun handled => decide (handled = ['a'])).receive
        [.message 'a' 0, .message 'b' 1]).handled ≠ ['a', 'b'] := by
  decide

end Channel

end Wxp.Page
