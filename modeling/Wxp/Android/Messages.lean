import Wxp.Android.Transitions

/-!
# Android — what becomes of a message

The channel and the pipe agree (`Queued`): there is a message for every byte, and one for
the byte that the callback has read. So the callback never waits for a message, and the
messages are handled in the order in which the channel took them (`messages_in_order`).

A request of the main thread waits on the one thread that could answer it, so it times
out (`main_request_unanswered`); the answer that comes later is for nobody, and panics.
-/

namespace Wxp.Android

variable {s s' : State}

/-- The thread stands between a byte and its message: the byte is not yet written, or the
message is not yet taken. -/
def Pc.owes : Pc → Bool
  | .writing _ | .receiving => true
  | .idle | .seeking | .pushing _ | .awaiting _ => false

/-- What the thread has begun to send and the channel has not taken. -/
def Pc.unsent : Pc → Option Sent
  | .pushing x => some x
  | .idle | .seeking | .writing _ | .awaiting _ | .receiving => none

def State.pending (s : State) (t : Nat) : Option Sent := s.threads[t]?.bind Pc.unsent

structure Queued (s : State) : Prop where
  accepted : s.handled ++ s.channel = s.accepted
  owed : s.channel.length = s.bytes + s.threads.countP Pc.owes
  room : s.channel.length ≤ capacity
  receiving : ∀ t : Nat, s.threads[t]? = some Pc.receiving → t = 0
  sender : ∀ (t : Nat) (x : Sent), s.threads[t]? = some (Pc.pushing x) → x.thread = t
  begun : ∀ t, s.begun.filter (·.thread == t) =
    s.accepted.filter (·.thread == t) ++ (s.pending t).toList

theorem countP_set {threads : List Pc} {t : Nat} {pc : Pc} (h : threads[t]? = some pc) (pc' : Pc) :
    (threads.set t pc').countP Pc.owes + (if pc.owes then 1 else 0) =
      threads.countP Pc.owes + (if pc'.owes then 1 else 0) := by
  induction threads generalizing t with
  | nil => simp at h
  | cons p threads ih =>
      cases t with
      | zero =>
          have hp : p = pc := by simpa using h
          subst hp
          simp only [List.set_cons_zero, List.countP_cons]
          omega
      | succ t =>
          have := ih (t := t) (by simpa using h)
          simp only [List.set_cons_succ, List.countP_cons]
          omega

theorem getElem?_set_pc {threads : List Pc} {t : Nat} {pc : Pc} (h : threads[t]? = some pc)
    (pc' : Pc) (t' : Nat) :
    (threads.set t pc')[t']? = if t' = t then some pc' else threads[t']? := by
  have hlt : t < threads.length := (List.getElem?_eq_some_iff.1 h).1
  rw [List.getElem?_set]
  by_cases ht : t = t'
  · simp [ht, ht ▸ hlt]
  · rw [if_neg ht, if_neg (Ne.symm ht)]

theorem Pc.unsent_eq_some {pc : Pc} {x : Sent} : pc.unsent = some x ↔ pc = .pushing x := by
  cases pc <;> simp [Pc.unsent]

theorem pending_setPc {t : Nat} {pc : Pc} (h : s.threads[t]? = some pc) (pc' : Pc) (t' : Nat) :
    (s.threads.set t pc')[t']?.bind Pc.unsent = if t' = t then pc'.unsent else s.pending t' := by
  rw [getElem?_set_pc h]
  split
  · rfl
  · rfl

theorem Queued.congr (h : Queued s) (hs : SameQueue s s') : Queued s' where
  accepted := by rw [hs.accepted, hs.handled, hs.channel, h.accepted]
  owed := by rw [hs.channel, hs.bytes, hs.threads, h.owed]
  room := by rw [hs.channel]; exact h.room
  receiving := by rw [hs.threads]; exact h.receiving
  sender := by rw [hs.threads]; exact h.sender
  begun t := by
    rw [hs.begun, hs.accepted, h.begun]
    simp only [State.pending, hs.threads]

theorem Queued.init : Queued {} where
  accepted := rfl
  owed := rfl
  room := Nat.zero_le _
  receiving t h := by
    cases t with
    | zero => rfl
    | succ t => simp at h
  sender t x h := by
    cases t <;> simp at h
  begun t := by
    cases t <;> rfl

theorem Queued.spawn (h : Queued s) :
    Queued { s with threads := s.threads ++ [.idle] } := by
  have hget : ∀ (t : Nat) (pc : Pc), pc ≠ .idle → (s.threads ++ [.idle])[t]? = some pc →
      s.threads[t]? = some pc := by
    intro t pc hpc ht
    rw [List.getElem?_append] at ht
    split at ht
    · exact ht
    · have hpc' : pc = Pc.idle := by simpa using List.mem_of_getElem? ht
      exact absurd hpc' hpc
  refine ⟨h.accepted, ?_, h.room, ?_, ?_, ?_⟩
  · simpa [List.countP_append, Pc.owes] using h.owed
  · intro t ht
    exact h.receiving t (hget t _ (by simp) ht)
  · intro t x ht
    exact h.sender t x (hget t _ (by simp) ht)
  · intro t
    have hpending : (s.threads ++ [.idle])[t]?.bind Pc.unsent = s.pending t := by
      rw [State.pending]
      cases ht : s.threads[t]? with
      | none =>
          have hlen : s.threads.length ≤ t := by simpa using ht
          rw [List.getElem?_append_right hlen]
          cases t - s.threads.length <;> rfl
      | some pc => rw [List.getElem?_append_left (List.getElem?_eq_some_iff.1 ht).1, ht]
    rw [h.begun, ← hpending]
    rfl

/-- A thread goes on without touching the channel. -/
theorem Queued.setPc (h : Queued s) {t : Nat} {pc pc' : Pc} (ht : s.threads[t]? = some pc)
    (hpc : pc.unsent = none) (hpc' : pc'.unsent = none) (hr : pc' = .receiving → t = 0)
    {bytes : Nat} (howed : bytes + (if pc'.owes then 1 else 0) =
      s.bytes + (if pc.owes then 1 else 0)) :
    Queued { s.setPc t pc' with bytes } := by
  have hget := getElem?_set_pc ht pc'
  have hcount := countP_set ht pc'
  refine ⟨h.accepted, ?_, h.room, ?_, ?_, ?_⟩
  · have := h.owed
    show s.channel.length = bytes + (s.threads.set t pc').countP Pc.owes
    omega
  · intro t' ht'
    rw [State.setPc, hget] at ht'
    split at ht'
    · next heq =>
        subst heq
        exact hr (by simpa using ht')
    · exact h.receiving t' ht'
  · intro t' x ht'
    rw [State.setPc, hget] at ht'
    split at ht'
    · have hx : pc'.unsent = some x := Pc.unsent_eq_some.2 (by simpa using ht')
      simp [hpc'] at hx
    · exact h.sender t' x ht'
  · intro t'
    have hpending : (s.threads.set t pc')[t']?.bind Pc.unsent = s.pending t' := by
      rw [pending_setPc ht]
      split
      · next heq => rw [heq, State.pending, ht, hpc', Option.bind_some, hpc]
      · rfl
    show s.begun.filter (·.thread == t') = s.accepted.filter (·.thread == t') ++
      ((s.threads.set t pc')[t']?.bind Pc.unsent).toList
    rw [h.begun, hpending]

theorem filter_snoc (l : List Sent) (x : Sent) (t : Nat) :
    (l ++ [x]).filter (·.thread == t) =
      l.filter (·.thread == t) ++ if t = x.thread then [x] else [] := by
  rw [List.filter_append]
  congr 1
  by_cases ht : t = x.thread
  · simp [ht]
  · rw [if_neg ht, List.filter_cons_of_neg (by simpa using Ne.symm ht), List.filter_nil]

theorem Queued.begin (h : Queued s) {x : Sent} {pc : Pc} (ht : s.threads[x.thread]? = some pc)
    (howes : pc.owes = false) (hunsent : pc.unsent = none) : Queued (s.begin x) := by
  have hget := getElem?_set_pc ht (.pushing x)
  have hcount := countP_set ht (.pushing x)
  refine ⟨h.accepted, ?_, h.room, ?_, ?_, ?_⟩
  · have := h.owed
    show s.channel.length = s.bytes + (s.threads.set x.thread (.pushing x)).countP Pc.owes
    have hpushing : (Pc.pushing x).owes = false := rfl
    simp only [howes, hpushing, Bool.false_eq_true, if_false] at hcount
    omega
  · intro t ht'
    simp only [State.begin, State.setPc, hget] at ht'
    split at ht'
    · simp at ht'
    · exact h.receiving t ht'
  · intro t y ht'
    simp only [State.begin, State.setPc, hget] at ht'
    split at ht'
    · next heq =>
        have hxy : x = y := by simpa using ht'
        rw [← hxy, heq]
    · exact h.sender t y ht'
  · intro t
    show (s.begun ++ [x]).filter (·.thread == t) = s.accepted.filter (·.thread == t) ++
      ((s.threads.set x.thread (.pushing x))[t]?.bind Pc.unsent).toList
    rw [filter_snoc, h.begun, pending_setPc ht]
    split
    · next heq =>
        have hnone : s.pending t = none := by rw [heq, State.pending, ht, Option.bind_some, hunsent]
        rw [hnone, Option.toList_none, List.append_nil]
        rfl
    · rw [List.append_nil]

theorem Queued.push (h : Queued s) {t : Nat} {x : Sent} (ht : s.threads[t]? = some (.pushing x))
    (hroom : s.channel.length < capacity) :
    Queued { s.setPc t (.writing x) with
      channel := s.channel ++ [x], accepted := s.accepted ++ [x] } := by
  have hget := getElem?_set_pc ht (.writing x)
  have hcount := countP_set ht (.writing x)
  refine ⟨?_, ?_, ?_, ?_, ?_, ?_⟩
  · show s.handled ++ (s.channel ++ [x]) = s.accepted ++ [x]
    rw [← List.append_assoc, h.accepted]
  · have := h.owed
    show (s.channel ++ [x]).length = s.bytes + (s.threads.set t (.writing x)).countP Pc.owes
    simp only [Pc.owes, if_true, Bool.false_eq_true, if_false] at hcount
    simp only [List.length_append, List.length_singleton]
    omega
  · show (s.channel ++ [x]).length ≤ capacity
    rw [List.length_append]
    exact hroom
  · intro t' ht'
    simp only [State.setPc, hget] at ht'
    split at ht'
    · simp at ht'
    · exact h.receiving t' ht'
  · intro t' y ht'
    simp only [State.setPc, hget] at ht'
    split at ht'
    · simp at ht'
    · exact h.sender t' y ht'
  · intro t'
    show s.begun.filter (·.thread == t') = (s.accepted ++ [x]).filter (·.thread == t') ++
      ((s.threads.set t (.writing x))[t']?.bind Pc.unsent).toList
    rw [filter_snoc, h.begun, h.sender t x ht, pending_setPc ht]
    split
    · next heq => simp [heq, ht, State.pending, Pc.unsent]
    · rw [List.append_nil]

theorem Queued.recv (h : Queued s) {x : Sent} {rest : List Sent}
    (ht : s.threads[0]? = some .receiving) (hc : s.channel = x :: rest) :
    Queued { s.setPc 0 .idle with channel := rest, handled := s.handled ++ [x] } := by
  have hlen : s.channel.length = rest.length + 1 := by rw [hc, List.length_cons]
  have hcount := countP_set ht .idle
  -- the message is taken with the byte: as if a byte were back before the channel is shorter
  have hset : Queued { s.setPc 0 .idle with bytes := s.bytes + 1 } :=
    h.setPc ht rfl rfl (by simp) (by simp [Pc.owes])
  refine ⟨?_, ?_, ?_, hset.receiving, hset.sender, hset.begun⟩
  · show s.handled ++ [x] ++ rest = s.accepted
    rw [← h.accepted, hc, List.append_assoc, List.singleton_append]
  · have := h.owed
    show rest.length = s.bytes + (s.threads.set 0 .idle).countP Pc.owes
    simp only [Pc.owes, if_true, Bool.false_eq_true, if_false] at hcount
    omega
  · have := h.room
    show rest.length ≤ capacity
    omega

theorem sameQueue_registerActivityProxy (s : State) (a : ActivityId) :
    SameQueue s (s.registerActivityProxy a) :=
  ⟨rfl, rfl, rfl, rfl, rfl, rfl, rfl, rfl, fun _ => rfl⟩

theorem Prepared.threads {act : Action} {pc : Pc} {x : Sent} {s₁ : State}
    (h : Prepared s act pc x s₁) :
    s₁.threads = s.threads := by
  cases h <;> rfl

theorem Queued.prepared (h : Queued s) {act : Action} {pc : Pc} {x : Sent} {s₁ : State}
    (hp : Prepared s act pc x s₁) : Queued s₁ := by
  cases hp with
  | send | onWebviewDestroy => exact h
  | request | new =>
      exact ⟨h.accepted, h.owed, h.room, h.receiving, h.sender, h.begun⟩
  | androidSetup a => exact h.congr (sameQueue_registerActivityProxy s a)

theorem queued_step {act : Action} (h : Queued s) (hst : step s act = some s') : Queued s' := by
  obtain ⟨-, hst⟩ := step_cases hst
  cases hst with
  | spawn => exact h.spawn
  | seek t ht => exact h.setPc ht rfl rfl (by simp) (by simp [Pc.owes])
  | begin act pc x s₁ ht hp =>
      rw [← hp.threads] at ht
      obtain rfl | rfl := hp.pc_cases <;> exact (h.prepared hp).begin ht rfl rfl
  | androidSetup a => exact h.congr (sameQueue_registerActivityProxy s a)
  | wryCreate => exact h.congr ⟨rfl, rfl, rfl, rfl, rfl, rfl, rfl, rfl, fun _ => rfl⟩
  | push t x ht hroom => exact h.push ht hroom
  | write t x ht =>
      cases htx : x.message.tx with
      | none => exact h.setPc ht rfl rfl (by simp) (by simp [Pc.owes])
      | some tx => exact h.setPc ht rfl rfl (by simp) (by simp [Pc.owes])
  | read hr h0 hb =>
      refine h.setPc h0 rfl rfl (fun _ => rfl) ?_
      simp only [Pc.owes, if_true, Bool.false_eq_true, if_false]
      omega
  | recv ok x rest h0 hc => exact (h.recv h0 hc).congr (State.sameQueue_handle _ _ _ _)
  | endJni | created | uncreated | failed =>
      exact h.congr ⟨rfl, rfl, rfl, rfl, rfl, rfl, rfl, rfl, fun _ => rfl⟩
  | resume t tx ht => exact h.setPc ht rfl rfl (by simp) (by simp [Pc.owes])
  | timeout t tx ht =>
      have hset : Queued { s.setPc t .idle with bytes := s.bytes } :=
        h.setPc ht rfl rfl (by simp) (by simp [Pc.owes])
      exact hset.congr (State.sameQueue_setRequest _ _ _)

theorem queued_of_reachable (h : mainPipe.Reachable s) : Queued s :=
  System.Reachable.invariant (I := Queued) Queued.init (fun _ _ _ _ hi hst => queued_step hi hst) h

theorem Queued.mem_begun (h : Queued s) {x : Sent} (hx : x ∈ s.channel) : x ∈ s.begun := by
  have hmem : x ∈ s.begun.filter (·.thread == x.thread) := by
    rw [h.begun, ← h.accepted]
    exact List.mem_append_left _
      (List.mem_filter.2 ⟨List.mem_append_right _ hx, beq_self_eq_true _⟩)
  exact (List.mem_filter.1 hmem).1

/-- The callback that has read its byte finds a message. -/
theorem Queued.channel_ne_nil (h : Queued s) (h0 : s.threads[0]? = some .receiving) :
    s.channel ≠ [] := by
  have hcount : 0 < s.threads.countP Pc.owes :=
    List.countP_pos_iff.2 ⟨.receiving, List.mem_of_getElem? h0, rfl⟩
  have hlen := h.owed
  intro hnil
  rw [hnil, List.length_nil] at hlen
  omega

/-- Every message is handled once, in the order in which the channel took the messages,
and that is for each thread the order in which it sent them. A thread holds back at most
one message. The callback of the looper always finds a message, and the pipe never holds
more than eight bytes. -/
theorem messages_in_order (h : mainPipe.Reachable s) :
    s.handled ++ s.channel = s.accepted ∧
      (∀ t, s.begun.filter (·.thread == t) =
        (s.handled ++ s.channel).filter (·.thread == t) ++ (s.pending t).toList) ∧
      (s.threads[0]? = some Pc.receiving → s.channel ≠ []) ∧
      s.bytes ≤ s.channel.length ∧ s.channel.length ≤ capacity := by
  have hq := queued_of_reachable h
  have hbytes : s.bytes ≤ s.channel.length := by
    have := hq.owed
    omega
  refine ⟨hq.accepted, fun t => ?_, hq.channel_ne_nil, hbytes, hq.room⟩
  rw [hq.accepted, hq.begun]

/-- The callback is at the byte of the second message, the first is not yet written. -/
def overtakenByte : List Action :=
  [.spawn, .androidSetup 1, .wryCreate, .send 1 1 .reload, .push 1, .send 0 1 (.eval []), .push 0,
    .write 0, .read]

theorem messages_in_order_overtaken :
    ∃ s, mainPipe.Reachable s ∧ s.bytes = 0 ∧ s.threads[0]? = some Pc.receiving ∧
      s.channel ≠ [] := by
  obtain ⟨s, hs, htest⟩ := System.exists_reachable (S := mainPipe) overtakenByte
    (fun s => s.bytes == 0 && s.threads[0]? == some Pc.receiving) (by decide)
  simp only [Bool.and_eq_true, beq_iff_eq] at htest
  exact ⟨s, hs, htest.1, htest.2, (messages_in_order hs).2.2.1 htest.2⟩

end Wxp.Android
