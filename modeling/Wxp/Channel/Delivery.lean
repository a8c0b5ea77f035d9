import Wxp.Channel.Transport
import Mathlib.Data.List.TakeWhile

/-!
# Channel — Delivery

What the handler of the page is called with.

* `channel_delivers_in_order`: with one Rust channel, the longest contiguous
  prefix of what has arrived, and in the end every message in send order.
* `failed_send_blocks_iff`: with one Rust channel and calls that fail to
  serialize, every successful message exactly if no failed call precedes one: the
  index is drawn before the payload is serialized, and never given back.
* `handles_deliver_once_iff`: with any number of Rust channels for the one
  JavaScript channel, every successful message exactly if the numbers the calls
  draw, each from the counter of its own channel, are 0, 1, 2, … without gap or
  repetition.
-/

namespace Wxp.Channel

variable {handler : List Message → Page.Reaction} {s s' : State} {a : Action}

namespace State

/-- The message of each call that returned `Ok`, none for the others. -/
def slots (s : State) : List (Option Message) :=
  s.calls.mapIdx fun k c => if c.result = some .ok then c.payload.body.map (Message.mk k) else none

/-- The messages whose calls returned `Ok`, in the order of the calls. -/
def accepted (s : State) : List Message := s.slots.reduceOption

/-- How many calls through the same Rust channel precede call `k`. -/
def number (s : State) (k : Nat) (c : Call) : Nat := (s.calls.take k).countP fun e => e.inner == c.inner

/-- The numbers of the calls that returned `Ok`. -/
def numbers (s : State) : List Nat :=
  (s.calls.mapIdx fun k c => if c.result = some .ok then some (s.number k c) else none).reduceOption

/-! ## What holds in every run -/

theorem system_step_cases (h : (channelSystem handler).step s a = some s') : Step s a s' :=
  step_cases h

theorem Step.sends_le (hst : Step s a s') : s.sends ≤ s'.sends := by
  cases hst with
  | endClose | endDrop => exact of_postEnd (P := fun t => s.sends ≤ t.sends) fun _ _ => le_rfl
  | send =>
      simp only [sends, List.length_append]
      omega
  | foreignStore =>
      simp only [sends, State.foreignStore]
      omega
  | _ => simp [sends, setResult, postMessage, State.arrive, State.extract, setPhase]

theorem numbered_of_reachable (hs : (channelSystem handler).Reachable s) : s.Numbered := by
  refine hs.invariant ⟨?_, ?_, ?_, ?_⟩ fun s a s' _ hi hst =>
    (system_step_cases hst).numbered hi
  · intro k a i hk
    cases hk
  · intro a n hn
    cases hn
  · intro t ht
    cases ht
  · intro a ha
    cases ha

theorem carried_of_reachable (hs : (channelSystem handler).Reachable s)
    (hb : s.sends < 2 ^ 32) : s.Carried := by
  revert hb
  refine hs.invariant (I := fun s => s.sends < 2 ^ 32 → s.Carried) ?_ ?_
  · intro _
    refine ⟨⟨?_, ?_, ?_, rfl⟩, ?_, ?_, List.nodup_nil, ?_, ?_⟩
    · intro k d hk
      cases hk
    · intro k k' d hk
      cases hk
    · intro d hd
      cases hd
    · intro t ht
      cases ht
    · intro p hp
      cases hp
    · intro _ k c hk
      cases hk
    · intro k c d hk
      cases hk
  · intro s a s' _ hi hst hb
    have hst := system_step_cases hst
    exact hst.carried (hi (by have := hst.sends_le; omega)) hb

/-- The JavaScript channel has seen what has arrived. -/
def Delivers (s : State) : Prop := s.channel.Settled fun i m => (i, m) ∈ s.arrived

theorem Step.delivers (hst : Step s a s') (h : s.Delivers) : s'.Delivers := by
  cases hst with
  | endClose | endDrop => exact of_postEnd fun _ _ => h
  | runEnd i index => exact h.runCallback_ended index
  | arrive i t body =>
      refine (h.runCallback_message ⟨t.call, body⟩ t.index).congr fun j m => ?_
      simp [State.arrive]
  | _ => exact h

theorem delivers_of_reachable (hh : ∀ l, handler l = {})
    (hs : (channelSystem handler).Reachable s) : s.Delivers := by
  refine hs.invariant ?_ fun s a s' _ hi hst => (system_step_cases hst).delivers hi
  exact (Page.Channel.settled_new hh).congr fun i m => by simp [channelSystem]

theorem transport_eq_none {p : Payload} {index : Nat} :
    p.transport index = none ↔ p.body = none := by
  cases hp : p.transport index with
  | some t => simp [body_of_transport hp]
  | none =>
      cases p with
      | json text =>
          cases text with
          | none => simp [Payload.body]
          | some text =>
              simp only [Payload.transport] at hp
              split at hp <;> cases hp
      | bytes data =>
          simp only [Payload.transport] at hp
          split at hp <;> cases hp

/-- A call reports a failed serialization exactly when there is one. -/
def Honest (s : State) : Prop :=
  ∀ c ∈ s.calls, (c.result = some .ok → c.payload.body ≠ none) ∧
    (c.result = some (.err .json) → c.payload.body = none)

theorem Honest.setResult (h : s.Honest) {k : Nat} {c : Call} (r : Result)
    (hk : s.calls[k]? = some c) (hok : r = .ok → c.payload.body ≠ none)
    (herr : r = .err .json → c.payload.body = none) {calls : List Call}
    (hc : calls = (s.setResult k r).calls) :
    ∀ c ∈ calls, (c.result = some .ok → c.payload.body ≠ none) ∧
      (c.result = some (.err .json) → c.payload.body = none) := by
  intro e he
  rw [hc] at he
  rcases mem_modify he with he | ⟨e', he', rfl⟩
  · exact h e he
  · rw [hk] at he'
    cases he'
    exact ⟨fun hr => hok (by simpa using hr), fun hr => herr (by simpa using hr)⟩

theorem Step.honest (hst : Step s a s') (h : s.Honest) : s'.Honest := by
  cases hst with
  | endClose | endDrop => exact of_postEnd fun _ _ => h
  | send v w index payload =>
      intro c hmem
      rcases List.mem_append.1 hmem with hmem | hmem
      · exact h c hmem
      · rw [List.mem_singleton.1 hmem]
        exact ⟨nofun, nofun⟩
  | store k c body =>
      intro e hmem
      rcases mem_modify hmem with hmem | ⟨e', he', rfl⟩
      · exact h e hmem
      · exact h e' (List.mem_of_getElem? he')
  | unposted k c accepted e hk _ hj =>
      refine h.setResult (.err e) hk nofun (fun he => ?_) rfl
      cases he
      exact transport_eq_none.1 (hj rfl)
  | cleanUp k c d accepted hk => exact h.setResult (.err .webViewClosed) hk nofun nofun rfl
  | postInline k c body hk _ ht =>
      exact h.setResult .ok hk (fun _ => by simp [body_of_transport ht]) nofun rfl
  | postFetch k c body d hk _ ht =>
      exact h.setResult .ok hk (fun _ => by simp [body_of_transport ht]) nofun rfl
  | _ => exact h

theorem honest_of_reachable (hs : (channelSystem handler).Reachable s) : s.Honest :=
  hs.invariant (fun c hc => by cases hc) fun _ _ _ _ hi hst => (system_step_cases hst).honest hi

/-! ## What has arrived -/

theorem slots_getElem?_eq {i : Nat} {m : Message} :
    s.slots[i]? = some (some m) ↔ ∃ c, s.calls[i]? = some c ∧ c.result = some .ok ∧
      c.payload.body = some m.body ∧ m.call = i := by
  simp only [slots, List.getElem?_mapIdx, Option.map_eq_some_iff]
  constructor
  · rintro ⟨c, hc, hm⟩
    split at hm
    · obtain ⟨body, hbody, rfl⟩ := Option.map_eq_some_iff.1 hm
      exact ⟨c, hc, ‹_›, hbody, rfl⟩
    · cases hm
  · rintro ⟨c, hc, hr, hbody, rfl⟩
    refine ⟨c, hc, ?_⟩
    rw [if_pos hr, hbody]
    rfl

theorem mem_accepted {m : Message} :
    m ∈ s.accepted ↔ ∃ c, s.calls[m.call]? = some c ∧ c.result = some .ok ∧
      c.payload.body = some m.body := by
  rw [accepted, List.reduceOption_mem_iff, List.mem_iff_getElem?]
  constructor
  · rintro ⟨i, hi⟩
    obtain ⟨c, hc, hr, hbody, rfl⟩ := slots_getElem?_eq.1 hi
    exact ⟨c, hc, hr, hbody⟩
  · rintro ⟨c, hc, hr, hbody⟩
    exact ⟨m.call, slots_getElem?_eq.2 ⟨c, hc, hr, hbody, rfl⟩⟩

theorem accepted_nodup (s : State) : s.accepted.Nodup := by
  refine List.pairwise_filterMap.2 (List.pairwise_iff_getElem.2 fun i j hi hj hij => ?_)
  intro m hm n hn
  have hm := slots_getElem?_eq.1 ((List.getElem?_eq_getElem hi).trans (congrArg some hm))
  have hn := slots_getElem?_eq.1 ((List.getElem?_eq_getElem hj).trans (congrArg some hn))
  obtain ⟨-, -, -, -, hm⟩ := hm
  obtain ⟨-, -, -, -, hn⟩ := hn
  rintro rfl
  omega

/-- A message arrives under the index of its call. -/
theorem Carried.arrived_call (h : s.Carried) {i : Nat} {m : Message} (hm : (i, m) ∈ s.arrived) :
    ∃ c, s.calls[m.call]? = some c ∧ c.result = some .ok ∧ c.index = i ∧
      c.payload.body = some m.body := by
  obtain ⟨c, hc, hr, hi, hbody⟩ := h.arrived _ hm
  exact ⟨c, hc, hr, hi, hbody⟩

theorem Carried.mem_arrived_of_call (h : s.Carried) {k : Nat} {c : Call} {m : Message}
    (hk : k ∈ s.arrived.map fun p => p.2.call) (hc : s.calls[k]? = some c) (hm : m.call = k)
    (hbody : c.payload.body = some m.body) : (c.index, m) ∈ s.arrived := by
  obtain ⟨⟨i, m'⟩, hmem, hcall⟩ := List.mem_map.1 hk
  obtain ⟨c', hc', -, hi, hbody'⟩ := h.arrived_call hmem
  have hcall : m'.call = k := hcall
  rw [hcall, hc] at hc'
  cases hc'
  have hmm : m' = m := by
    cases m
    cases m'
    simp_all
  exact hi ▸ hmm ▸ hmem

/-- Once every script has run, what has arrived is what was accepted. -/
theorem Carried.mem_arrived_iff (h : s.Carried) (halive : s.webviewAlive = true)
    (ht : s.transits = []) {i : Nat} {m : Message} :
    (i, m) ∈ s.arrived ↔ ∃ c, s.calls[m.call]? = some c ∧ c.result = some .ok ∧ c.index = i ∧
      c.payload.body = some m.body := by
  refine ⟨h.arrived_call, ?_⟩
  rintro ⟨c, hc, hr, rfl, hbody⟩
  have hlabel := h.complete halive _ c hc hr
  simp only [labels, ht, List.map_nil, List.nil_append] at hlabel
  exact h.mem_arrived_of_call hlabel hc rfl hbody

theorem Numbered.index_eq_number (h : s.Numbered) (hb : s.sends < 2 ^ 32) {k : Nat} {c : Call}
    (hk : s.calls[k]? = some c) : c.index = s.number k c := by
  have hlt : k < s.calls.length := (List.getElem?_eq_some_iff.1 hk).1
  have hle : s.number k c ≤ k := by
    have := List.countP_le_length (p := fun e : Call => e.inner == c.inner) (l := s.calls.take k)
    rw [List.length_take] at this
    simp only [number]
    omega
  have hindex := h.index k c.inner c.index (by simp [tickets, hk])
  have hdrawn : drawn (s.tickets.take k) c.inner = s.number k c := by
    rw [tickets, ← List.map_take, drawn, List.countP_map]
    rfl
  rw [hindex, hdrawn, Nat.mod_eq_of_lt]
  simp only [sends] at hb
  omega

/-- With one Rust channel the index of a call is its place in send order. -/
theorem Numbered.index_eq (h : s.Numbered) (hone : s.inners.length ≤ 1) (hb : s.sends < 2 ^ 32)
    {k : Nat} {c : Call} (hk : s.calls[k]? = some c) : c.index = k := by
  have hinner : ∀ e ∈ s.calls, e.inner = 0 := by
    intro e he
    have := h.owner (e.inner, e.index) (List.mem_map.2 ⟨e, he, rfl⟩)
    simp only at this
    omega
  have hlt : k < s.calls.length := (List.getElem?_eq_some_iff.1 hk).1
  rw [h.index_eq_number hb hk, number, List.countP_eq_length.2]
  · rw [List.length_take]
    omega
  · intro e he
    rw [hinner e (List.mem_of_mem_take he), hinner c (List.mem_of_getElem? hk)]
    rfl

/-! ## One Rust channel -/

/-- The message of each call. -/
def messages (s : State) : List (Option Message) :=
  s.calls.mapIdx fun k c => c.payload.body.map (Message.mk k)

/-- Once every call's message has arrived, what has arrived is the messages. -/
theorem Carried.mem_arrived_iff_messages (h : s.Carried)
    (hindex : ∀ (k : Nat) (c : Call), s.calls[k]? = some c → c.index = k)
    (hall : ∀ k < s.calls.length, k ∈ s.arrived.map fun p => p.2.call) {i : Nat} {m : Message} :
    (i, m) ∈ s.arrived ↔ s.messages[i]? = some (some m) := by
  simp only [messages, List.getElem?_mapIdx, Option.map_eq_some_iff]
  constructor
  · intro hm
    obtain ⟨c, hcall, -, hi, hbody⟩ := h.arrived_call hm
    have hmi : m.call = i := by
      rw [← hi]
      exact (hindex _ c hcall).symm
    exact ⟨c, hmi ▸ hcall, m.body, hbody, hmi ▸ rfl⟩
  · rintro ⟨c, hcall, body, hbody, rfl⟩
    have hlt := (List.getElem?_eq_some_iff.1 hcall).1
    have hmem := h.mem_arrived_of_call (m := ⟨i, body⟩) (hall i hlt) hcall rfl hbody
    rwa [hindex i c hcall] at hmem

/-- A call whose message has arrived has a message. -/
theorem Carried.messages_isSome (h : s.Carried)
    (hall : ∀ k < s.calls.length, k ∈ s.arrived.map fun p => p.2.call) :
    ∀ x ∈ s.messages, x.isSome := by
  intro x hx
  obtain ⟨k, hk⟩ := List.getElem?_of_mem hx
  simp only [messages, List.getElem?_mapIdx, Option.map_eq_some_iff] at hk
  obtain ⟨c, hcall, rfl⟩ := hk
  obtain ⟨p, hp, hpk⟩ := List.mem_map.1 (hall k (List.getElem?_eq_some_iff.1 hcall).1)
  obtain ⟨c', hc', -, -, hbody⟩ := h.arrived_call (m := p.2) (i := p.1) hp
  rw [show p.2.call = k from hpk, hcall] at hc'
  cases hc'
  simp [hbody]

/-- **Channel delivery is in order and exactly once.** With one Rust channel, its
handler has been called, after every step, with the longest contiguous prefix of
the messages that have arrived, which arrive under distinct indices; once all
have arrived, with the message of each call in send order. And if all calls
succeed and the page stays, all arrive once the scripts and fetches are done. -/
theorem channel_delivers_in_order (hh : ∀ l, handler l = {})
    (hs : (channelSystem handler).Reachable s) (hone : s.inners.length ≤ 1)
    (hb : s.sends < 2 ^ 32) :
    (ContiguousPrefix (fun i m => (i, m) ∈ s.arrived) s.channel.handled ∧
        (s.arrived.map Prod.fst).Nodup) ∧
      ((∀ k < s.calls.length, k ∈ s.arrived.map fun p => p.2.call) →
        s.channel.handled.map some = s.messages) ∧
      (s.webviewAlive = true → (∀ c ∈ s.calls, c.result = some .ok) → s.transits = [] →
        ∀ k < s.calls.length, k ∈ s.arrived.map fun p => p.2.call) := by
  have hc := carried_of_reachable hs hb
  have hn := numbered_of_reachable hs
  have hrun := (delivers_of_reachable hh hs).contiguousPrefix
  refine ⟨⟨hrun, ?_⟩, fun hall => ?_, fun halive hok ht k hk => ?_⟩
  · have heq : s.arrived.map Prod.fst = s.arrived.map fun p => p.2.call := by
      refine List.map_congr_left fun p hp => ?_
      obtain ⟨c, hc', -, hi, -⟩ := hc.arrived_call (m := p.2) (i := p.1) hp
      rw [← hi]
      exact hn.index_eq hone hb hc'
    rw [heq]
    exact (List.nodup_append.1 hc.once).2.1
  · have hA : ∀ i m, (i, m) ∈ s.arrived ↔ s.messages[i]? = some (some m) := fun i m =>
      hc.mem_arrived_iff_messages (fun k c hk => hn.index_eq hone hb hk) hall
    rw [hrun.map_some_eq_takeWhile hA]
    exact List.takeWhile_eq_self_iff.2 (hc.messages_isSome hall)
  · have hcall := List.getElem?_eq_getElem hk
    have hlabel := hc.complete halive k _ hcall (hok _ (List.getElem_mem hk))
    simpa [labels, ht] using hlabel

/-- A fetched message, a message of a clone, and the two arrive in the other
order. -/
def mixedRun : List Action :=
  [.extract, .clone 0, .send 0 (.bytes [7]), .send 1 (.bytes (List.replicate 1024 0)), .store 1,
    .finish 1 true, .finish 0 true, .advance 0, .advance 0, .advance 0, .advance 0]

theorem channel_delivers_in_order_mixed :
    ∃ s, (channelSystem fun _ => {}).Reachable s ∧ s.channel.handled.map Message.call = [0, 1] ∧
      s.arrived.map Prod.fst = [1, 0] ∧ s.channel.handled.map some = s.messages := by
  have hrun : ((channelSystem fun _ => {}).run (channelSystem fun _ => {}).init mixedRun).map
      (fun s => decide (s.inners.length ≤ 1 ∧ s.sends < 2 ^ 32 ∧
        (∀ k < s.calls.length, k ∈ s.arrived.map fun p => p.2.call) ∧
        s.channel.handled.map Message.call = [0, 1] ∧ s.arrived.map Prod.fst = [1, 0])) =
      some true := by
    decide +kernel
  obtain ⟨s, hs, hp⟩ := System.exists_reachable _ _ hrun
  obtain ⟨hone, hb, hall, hhandled, harrived⟩ := of_decide_eq_true hp
  exact ⟨s, hs, hhandled, harrived,
    (channel_delivers_in_order (fun _ => rfl) hs hone hb).2.1 hall⟩

theorem slots_length (s : State) : s.slots.length = s.calls.length := by
  simp [slots]

/-- All calls have returned and all scripts have run on a page that is still
there, and the only errors were payloads that cannot be serialized. -/
structure Done (s : State) : Prop extends Quiet s where
  alive : s.webviewAlive = true
  err : ∀ c ∈ s.calls, ∀ e, c.result = some (.err e) → e = .json

theorem Done.of_results (halive : s.webviewAlive = true) (ht : s.transits = [])
    (hr : ∀ c ∈ s.calls, c.result = some .ok ∨ c.result = some (.err .json)) : s.Done := by
  refine ⟨⟨fun c hc hnone => ?_, ht⟩, halive, fun c hc e he => ?_⟩
  · rcases hr c hc with h | h <;> simp [h] at hnone
  · rcases hr c hc with h | h <;> simp [h] at he
    exact he.symm

/-- The calls whose payload can be serialized are those with a slot. -/
theorem Done.slot_eq_none_iff (hd : s.Done) (hs : s.Honest) {k : Nat} {c : Call}
    (hc : c ∈ s.calls) :
    (if c.result = some .ok then c.payload.body.map (Message.mk k) else none) = none ↔
      c.payload.body = none := by
  cases hr : c.result with
  | none => exact absurd hr (hd.returned c hc)
  | some r =>
      cases r with
      | ok => simp
      | err e =>
          have he := hd.err c hc e hr
          subst he
          simp [(hs c hc).2 hr]

theorem Done.slots_pairwise_iff (hd : s.Done) (hs : s.Honest) :
    (s.slots.Pairwise fun x y => x = none → y = none) ↔
      s.calls.Pairwise fun c d => c.payload.body = none → d.payload.body = none := by
  have hlen := s.slots_length
  rw [List.pairwise_iff_getElem, List.pairwise_iff_getElem]
  constructor
  · intro h i j hi hj hij
    have hgap := h i j (hlen ▸ hi) (hlen ▸ hj) hij
    simp only [slots, List.getElem_mapIdx] at hgap
    rwa [hd.slot_eq_none_iff hs (List.getElem_mem hi),
      hd.slot_eq_none_iff hs (List.getElem_mem hj)] at hgap
  · intro h i j hi hj hij
    have hgap := h i j (hlen ▸ hi) (hlen ▸ hj) hij
    simp only [slots, List.getElem_mapIdx]
    rwa [hd.slot_eq_none_iff hs (List.getElem_mem _),
      hd.slot_eq_none_iff hs (List.getElem_mem _)]

theorem Done.slots_isSome_iff (hd : s.Done) (hs : s.Honest) :
    (∀ x ∈ s.slots, x.isSome) ↔ ∀ c ∈ s.calls, c.payload.body ≠ none := by
  have hlen := s.slots_length
  constructor
  · intro h c hmem hbody
    obtain ⟨k, hk, rfl⟩ := List.getElem_of_mem hmem
    have hx := h _ (List.getElem_mem (hlen ▸ hk : k < s.slots.length))
    simp only [slots, List.getElem_mapIdx] at hx
    rw [(hd.slot_eq_none_iff hs hmem).2 hbody] at hx
    cases hx
  · intro h x hmem
    obtain ⟨k, hk, rfl⟩ := List.getElem_of_mem hmem
    have hmem := List.getElem_mem (hlen ▸ hk : k < s.calls.length)
    simp only [slots, List.getElem_mapIdx, Option.isSome_iff_ne_none]
    exact fun hslot => h _ hmem ((hd.slot_eq_none_iff hs hmem).1 hslot)

/-- With one Rust channel its counter is the number of calls. -/
theorem Numbered.counter_eq_length (h : s.Numbered) (hone : s.inners.length ≤ 1)
    (hb : s.sends < 2 ^ 32) : ∀ n ∈ s.inners, n = s.calls.length := by
  intro n hmem
  obtain ⟨a, ha⟩ := List.getElem?_of_mem hmem
  have hlt : a < s.inners.length := (List.getElem?_eq_some_iff.1 ha).1
  have hall : drawn s.tickets a = s.calls.length := by
    rw [drawn, List.countP_eq_length.2, tickets, List.length_map]
    intro t ht
    have := h.owner t ht
    simp only [beq_iff_eq]
    omega
  rw [h.counter a n ha, hall, Nat.mod_eq_of_lt]
  simp only [sends] at hb
  omega

/-- With one Rust channel an accepted message arrives in the place of its call. -/
theorem Carried.mem_arrived_iff_slots (h : s.Carried) (halive : s.webviewAlive = true)
    (ht : s.transits = [])
    (hindex : ∀ (k : Nat) (c : Call), s.calls[k]? = some c → c.index = k) {i : Nat}
    {m : Message} : (i, m) ∈ s.arrived ↔ s.slots[i]? = some (some m) := by
  rw [h.mem_arrived_iff halive ht, slots_getElem?_eq]
  constructor
  · rintro ⟨c, hcall, hr, hi, hbody⟩
    have hmi : m.call = i := hi ▸ (hindex _ c hcall).symm
    exact ⟨c, hmi ▸ hcall, hr, hbody, hmi⟩
  · rintro ⟨c, hcall, hr, hbody, rfl⟩
    exact ⟨c, hcall, hr, hindex _ c hcall, hbody⟩

/-- **A failed send blocks the stream.** With one Rust channel, when all calls
have returned and all scripts have run: the handler has been called with every
message whose call returned `Ok`, in call order, exactly if no call that could not
be serialized comes before one that could; and the failed calls have left the
index sequence alone exactly if there are none. -/
theorem failed_send_blocks_iff (hh : ∀ l, handler l = {})
    (hs : (channelSystem handler).Reachable s) (hone : s.inners.length ≤ 1)
    (hb : s.sends < 2 ^ 32) (hd : s.Done) :
    (s.channel.handled = s.accepted ↔
        s.calls.Pairwise fun c d => c.payload.body = none → d.payload.body = none) ∧
      ((∀ n ∈ s.inners, n = s.accepted.length) ↔ ∀ c ∈ s.calls, c.payload.body ≠ none) := by
  have hc := carried_of_reachable hs hb
  have hn := numbered_of_reachable hs
  have hho := honest_of_reachable hs
  constructor
  · have hA : ∀ i m, (i, m) ∈ s.arrived ↔ s.slots[i]? = some (some m) := fun _ _ =>
      hc.mem_arrived_iff_slots hd.alive hd.transits fun k c hk => hn.index_eq hone hb hk
    have hrun := (delivers_of_reachable hh hs).contiguousPrefix
    rw [accepted, hrun.eq_reduceOption_iff hA, hd.slots_pairwise_iff hho]
  · have hcounter := hn.counter_eq_length hone hb
    rw [← hd.slots_isSome_iff hho, ← List.reduceOption_length_eq_iff, slots_length, accepted]
    constructor
    · intro h
      cases hinners : s.inners with
      | nil =>
          -- no channel has been extracted, so nothing has been called
          have hcalls : s.calls = [] := by
            refine List.eq_nil_iff_forall_not_mem.2 fun c hmem => ?_
            have := hn.owner (c.inner, c.index) (List.mem_map.2 ⟨c, hmem, rfl⟩)
            simp [hinners] at this
          simp [slots, hcalls]
      | cons n l =>
          have hmem : n ∈ s.inners := hinners ▸ List.mem_cons_self
          rw [← h n hmem, hcounter n hmem]
    · intro h n hmem
      rw [hcounter n hmem, h]

/-- The second message is there, and the handler is never called with it. -/
def failedSendRun : List Action :=
  [.extract, .send 0 (.json none), .finish 0 true, .send 0 (.bytes [7]), .finish 1 true, .advance 0]

theorem failed_send_blocks_stream :
    ∃ s, (channelSystem fun _ => {}).Reachable s ∧ s.inners = [2] ∧ s.sends < 2 ^ 32 ∧ s.Done ∧
      s.accepted = [⟨1, .raw [7]⟩] ∧ s.channel.handled = [] := by
  have hrun : ((channelSystem fun _ => {}).run (channelSystem fun _ => {}).init failedSendRun).map
      (fun s => decide (s.inners = [2] ∧ s.sends < 2 ^ 32 ∧ s.webviewAlive = true ∧
        s.transits = [] ∧ (∀ c ∈ s.calls, c.result = some .ok ∨ c.result = some (.err .json)) ∧
        s.accepted = [⟨1, .raw [7]⟩] ∧ s.channel.handled = [])) = some true := by
    decide
  obtain ⟨s, hs, hp⟩ := System.exists_reachable _ _ hrun
  obtain ⟨hinners, hb, halive, ht, hr, haccepted, hhandled⟩ := of_decide_eq_true hp
  exact ⟨s, hs, hinners, hb, .of_results halive ht hr, haccepted, hhandled⟩

def lateFailureRun : List Action :=
  [.extract, .send 0 (.bytes [7]), .send 0 (.json none), .finish 1 true, .finish 0 true, .advance 0]

theorem failed_send_blocks_iff_late :
    ∃ s, (channelSystem fun _ => {}).Reachable s ∧ s.accepted = [⟨0, .raw [7]⟩] ∧
      s.channel.handled = s.accepted := by
  have hrun : ((channelSystem fun _ => {}).run (channelSystem fun _ => {}).init lateFailureRun).map
      (fun s => decide (s.inners.length ≤ 1 ∧ s.sends < 2 ^ 32 ∧ s.webviewAlive = true ∧
        s.transits = [] ∧ (∀ c ∈ s.calls, c.result = some .ok ∨ c.result = some (.err .json)) ∧
        s.accepted = [⟨0, .raw [7]⟩] ∧
        (s.calls.Pairwise fun c d => c.payload.body = none → d.payload.body = none))) =
      some true := by
    decide
  obtain ⟨s, hs, hp⟩ := System.exists_reachable _ _ hrun
  obtain ⟨hone, hb, halive, ht, hr, haccepted, hpair⟩ := of_decide_eq_true hp
  have hiff := failed_send_blocks_iff (fun _ => rfl) hs hone hb (.of_results halive ht hr)
  exact ⟨s, hs, haccepted, hiff.1.2 hpair⟩

/-! ## Several Rust channels for one JavaScript channel -/

/-- The index of the call of a message. -/
def indexOf (s : State) (m : Message) : Nat := ((s.calls[m.call]?).map Call.index).getD 0

theorem numbers_eq (hho : s.Honest) (hn : s.Numbered) (hb : s.sends < 2 ^ 32) :
    s.numbers = s.accepted.map s.indexOf := by
  rw [accepted, numbers, ← List.reduceOption_map]
  refine congrArg _ (List.ext_getElem? fun k => ?_)
  simp only [slots, List.getElem?_mapIdx, List.getElem?_map, Option.map_map]
  cases hk : s.calls[k]? with
  | none => rfl
  | some c =>
      have hnum := hn.index_eq_number hb hk
      by_cases hr : c.result = some .ok
      · have hbody := (hho c (List.mem_of_getElem? hk)).1 hr
        obtain ⟨body, hbody⟩ := Option.ne_none_iff_exists'.1 hbody
        simp [hr, hbody, indexOf, hk, hnum]
      · simp [hr]

/-- Each accepted message is handled once exactly if the handled messages are the
accepted ones, up to their order. -/
theorem count_eq_one_iff_perm {l accepted : List Message} (hl : l.Nodup) (ha : accepted.Nodup)
    (hsub : l ⊆ accepted) : (∀ m ∈ accepted, l.count m = 1) ↔ l.Perm accepted := by
  constructor
  · intro h
    refine (List.perm_ext_iff_of_nodup hl ha).2 fun m => ⟨fun hm => hsub hm, fun hm => ?_⟩
    exact List.count_pos_iff.1 (by rw [h m hm]; omega)
  · intro hp m hm
    rw [hp.count_eq, List.count_eq_one_of_mem ha hm]

/-- The first call through each Rust channel has number 0. -/
theorem exists_number_zero {c : Call} (hc : c ∈ s.calls) :
    ∃ k e, s.calls[k]? = some e ∧ e.inner = c.inner ∧ s.number k e = 0 := by
  have hlt : s.calls.findIdx (fun e => e.inner == c.inner) < s.calls.length :=
    List.findIdx_lt_length_of_exists ⟨c, hc, by simp⟩
  have hinner : s.calls[s.calls.findIdx (fun e => e.inner == c.inner)].inner = c.inner := by
    simpa using List.findIdx_getElem (w := hlt)
  refine ⟨_, _, List.getElem?_eq_getElem hlt, hinner, List.countP_eq_zero.2 fun e he => ?_⟩
  rw [hinner]
  obtain ⟨j, hj, rfl⟩ := List.getElem_of_mem he
  have hjlt : j < s.calls.findIdx fun e => e.inner == c.inner := by
    rw [List.length_take] at hj
    omega
  rw [List.getElem_take]
  exact Bool.eq_false_iff.1 (List.not_of_lt_findIdx hjlt)

theorem numbers_of_all_ok (hall : ∀ c ∈ s.calls, c.result = some .ok) :
    s.numbers = s.calls.mapIdx s.number := by
  have hsome : (s.calls.mapIdx fun k c =>
      if c.result = some .ok then some (s.number k c) else none) =
        (s.calls.mapIdx s.number).map some := by
    refine List.ext_getElem? fun k => ?_
    simp only [List.getElem?_mapIdx, List.getElem?_map, Option.map_map]
    cases hk : s.calls[k]? with
    | none => rfl
    | some c => simp [hall c (List.mem_of_getElem? hk)]
  rw [numbers, hsome, List.reduceOption, List.filterMap_map]
  simp

/-- The numbers of all calls are 0, 1, 2, … exactly if all are of one channel. -/
theorem number_perm_range_iff (s : State) :
    (s.calls.mapIdx s.number).Perm (List.range (s.calls.mapIdx s.number).length) ↔
      ∀ c ∈ s.calls, ∀ d ∈ s.calls, c.inner = d.inner := by
  constructor
  · intro hp c hcm d hdm
    by_contra hne
    -- the first calls through the two channels both have number 0
    obtain ⟨i, e, hi, hei, hzi⟩ := exists_number_zero hcm
    obtain ⟨j, f, hj, hfj, hzj⟩ := exists_number_zero hdm
    have hnd : (s.calls.mapIdx s.number).Nodup := hp.nodup_iff.2 List.nodup_range
    have hij : i = j := by
      refine (List.getElem?_inj ?_ hnd).1 ?_
      · simpa using (List.getElem?_eq_some_iff.1 hi).1
      · simp [hi, hj, hzi, hzj]
    subst hij
    rw [hi] at hj
    cases hj
    exact hne (hei.symm.trans hfj)
  · intro hsame
    have hnumber : s.calls.mapIdx s.number = List.range s.calls.length := by
      refine List.ext_getElem (by simp) fun k hk _ => ?_
      have hk : k < s.calls.length := by simpa using hk
      rw [List.getElem_mapIdx, List.getElem_range, number, List.countP_eq_length.2]
      · rw [List.length_take]
        omega
      · intro e he
        simpa using hsame e (List.mem_of_mem_take he) _ (List.getElem_mem hk)
    rw [hnumber, List.length_range]

/-- Once every script has run, the accepted messages have arrived, each under the
index of its call. -/
theorem Carried.mem_arrived_iff_accepted (h : s.Carried) (halive : s.webviewAlive = true)
    (ht : s.transits = []) {i : Nat} {m : Message} :
    (i, m) ∈ s.arrived ↔ m ∈ s.accepted ∧ s.indexOf m = i := by
  rw [h.mem_arrived_iff halive ht, mem_accepted]
  constructor
  · rintro ⟨c, hcall, hr, hi, hbody⟩
    exact ⟨⟨c, hcall, hr, hbody⟩, by simpa [indexOf, hcall] using hi⟩
  · rintro ⟨⟨c, hcall, hr, hbody⟩, hi⟩
    exact ⟨c, hcall, hr, by simpa [indexOf, hcall] using hi, hbody⟩

/-- **One JavaScript channel, many Rust handles.** When all scripts have run, every
message whose call returned `Ok` has been handled exactly once if and only if the
successful calls, numbered within the Rust channel each was made through, have the
numbers 0, 1, 2, …, each once. Where no call fails this says that a single Rust
channel, with its clones, has sent. -/
theorem handles_deliver_once_iff (hh : ∀ l, handler l = {})
    (hs : (channelSystem handler).Reachable s) (hb : s.sends < 2 ^ 32)
    (halive : s.webviewAlive = true) (ht : s.transits = []) :
    ((∀ m ∈ s.accepted, s.channel.handled.count m = 1) ↔
        s.numbers.Perm (List.range s.numbers.length)) ∧
      ((∀ c ∈ s.calls, c.result = some .ok) →
        ((∀ m ∈ s.accepted, s.channel.handled.count m = 1) ↔
          ∀ c ∈ s.calls, ∀ d ∈ s.calls, c.inner = d.inner)) := by
  have hc := carried_of_reachable hs hb
  have hn := numbered_of_reachable hs
  have hho := honest_of_reachable hs
  have hrun := (delivers_of_reachable hh hs).contiguousPrefix
  have hA : ∀ i m, (i, m) ∈ s.arrived ↔ m ∈ s.accepted ∧ s.indexOf m = i := fun _ _ =>
    hc.mem_arrived_iff_accepted halive ht
  have hnodup := hrun.nodup fun i m hm => ((hA i m).1 hm).2
  have hsub : s.channel.handled ⊆ s.accepted := by
    intro m hm
    obtain ⟨i, hi⟩ := List.getElem?_of_mem hm
    exact ((hA i m).1 (hrun.arrived i m hi)).1
  have hiff : (∀ m ∈ s.accepted, s.channel.handled.count m = 1) ↔
      s.numbers.Perm (List.range s.numbers.length) := by
    rw [count_eq_one_iff_perm hnodup s.accepted_nodup hsub, hrun.perm_iff hA,
      numbers_eq hho hn hb, List.length_map]
  refine ⟨hiff, fun hall => hiff.trans ?_⟩
  rw [numbers_of_all_ok hall]
  exact s.number_perm_range_iff

/-- The token is passed to two commands, and each sends one message. -/
def twoHandlesRun : List Action :=
  [.extract, .extract, .send 0 (.bytes [7]), .finish 0 true, .send 1 (.bytes [8]), .finish 1 true,
    .advance 0, .advance 0]

theorem second_handle_loses_message :
    ∃ s, (channelSystem fun _ => {}).Reachable s ∧ s.sends < 2 ^ 32 ∧ s.webviewAlive = true ∧
      s.transits = [] ∧ s.calls.map Call.result = [some .ok, some .ok] ∧
      s.calls.map Call.index = [0, 0] ∧ s.channel.handled = [⟨0, .raw [7]⟩] ∧
      ¬ ∀ m ∈ s.accepted, s.channel.handled.count m = 1 := by
  have hrun : ((channelSystem fun _ => {}).run (channelSystem fun _ => {}).init twoHandlesRun).map
      (fun s => decide (s.sends < 2 ^ 32 ∧ s.webviewAlive = true ∧ s.transits = [] ∧
        s.calls.map Call.result = [some .ok, some .ok] ∧ s.calls.map Call.index = [0, 0] ∧
        s.channel.handled = [⟨0, .raw [7]⟩] ∧
        ¬ ∀ m ∈ s.accepted, s.channel.handled.count m = 1)) = some true := by
    decide
  obtain ⟨s, hs, hp⟩ := System.exists_reachable _ _ hrun
  exact ⟨s, hs, of_decide_eq_true hp⟩

/-- Only one of the two handles sends, with a clone. -/
def oneSenderRun : List Action :=
  [.extract, .extract, .clone 1, .send 1 (.bytes [7]), .send 2 (.bytes [8]), .finish 1 true,
    .finish 0 true, .advance 0, .advance 0]

theorem handles_deliver_once_iff_one_sender :
    ∃ s, (channelSystem fun _ => {}).Reachable s ∧ s.inners.length = 2 ∧ s.accepted.length = 2 ∧
      ∀ m ∈ s.accepted, s.channel.handled.count m = 1 := by
  have hrun : ((channelSystem fun _ => {}).run (channelSystem fun _ => {}).init oneSenderRun).map
      (fun s => decide (s.sends < 2 ^ 32 ∧ s.webviewAlive = true ∧ s.transits = [] ∧
        (∀ c ∈ s.calls, c.result = some .ok) ∧ (∀ c ∈ s.calls, ∀ d ∈ s.calls, c.inner = d.inner) ∧
        s.inners.length = 2 ∧ s.accepted.length = 2)) = some true := by
    decide
  obtain ⟨s, hs, hp⟩ := System.exists_reachable _ _ hrun
  obtain ⟨hb, halive, ht, hok, hsame, hinners, hlen⟩ := of_decide_eq_true hp
  have hiff := handles_deliver_once_iff (fun _ => rfl) hs hb halive ht
  exact ⟨s, hs, hinners, hlen, (hiff.2 hok).2 hsame⟩

end State

end Wxp.Channel
