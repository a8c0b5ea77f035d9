import Wxp.Channel.Transitions
import Wxp.Foundations.Lists

/-!
# Channel — Numbers

The numbers the sender draws, in all runs.

* `Numbered`: the index of a call is the number of the calls before it that share
  its `WxpChannelInner`, up to the wrap of the counter.
* `Ids`: while the process has sent fewer than `2 ^ 32` messages, no two of its
  large messages are in the store under one data id.
-/

namespace Wxp.Channel

namespace State

/-! ## The index of a call -/

/-- The inner and the index of every call, in the order of the `fetch_add`s. -/
def tickets (s : State) : List (Nat × Nat) := s.calls.map fun c => (c.inner, c.index)

def homes (s : State) : List Nat := s.values.map Value.inner

/-- How many of the tickets are of inner `a`. -/
def drawn (l : List (Nat × Nat)) (a : Nat) : Nat := l.countP fun t => t.1 == a

structure Numbered (s : State) : Prop where
  index : ∀ k a i, s.tickets[k]? = some (a, i) → i = drawn (s.tickets.take k) a % 2 ^ 32
  counter : ∀ a n, s.inners[a]? = some n → n = drawn s.tickets a % 2 ^ 32
  owner : ∀ t ∈ s.tickets, t.1 < s.inners.length
  home : ∀ a ∈ s.homes, a < s.inners.length

@[simp] theorem setResult_tickets (s : State) (k : Nat) (r : Result) :
    (s.setResult k r).tickets = s.tickets := by
  apply map_modify_eq
  intro c
  rfl

theorem setDataId_tickets (s : State) (k : Nat) (d : Nat) :
    (s.calls.modify k fun c => { c with dataId := some d }).map (fun c => (c.inner, c.index)) =
      s.tickets := by
  apply map_modify_eq
  intro c
  rfl

@[simp] theorem setPhase_homes (s : State) (v : Nat) (phase : ValuePhase) :
    (s.setPhase v phase).homes = s.homes := by
  apply map_modify_eq
  intro w
  rfl

theorem Numbered.of_eq {s s' : State} (h : s.Numbered) (ht : s'.tickets = s.tickets)
    (hi : s'.inners = s.inners) (hv : s'.homes = s.homes) : s'.Numbered := by
  refine ⟨?_, ?_, ?_, ?_⟩
  · rw [ht]
    exact h.index
  · rw [ht, hi]
    exact h.counter
  · rw [ht, hi]
    exact h.owner
  · rw [hv, hi]
    exact h.home

theorem drawn_eq_zero {l : List (Nat × Nat)} {n : Nat} (h : ∀ t ∈ l, t.1 < n) :
    drawn l n = 0 := by
  refine List.countP_eq_zero.2 fun t ht => ?_
  have := h t ht
  simp only [beq_iff_eq]
  omega

theorem Numbered.extract {s : State} (h : s.Numbered) : s.extract.Numbered where
  index := h.index
  counter a n hn := by
    rcases Nat.lt_trichotomy a s.inners.length with hlt | rfl | hgt
    · exact h.counter a n (by simpa [State.extract, List.getElem?_append_left hlt] using hn)
    · have hn : 0 = n := by simpa [State.extract] using hn
      show n = drawn s.tickets s.inners.length % 2 ^ 32
      rw [drawn_eq_zero h.owner, Nat.zero_mod]
      exact hn.symm
    · rw [State.extract, List.getElem?_eq_none (by simp; omega)] at hn
      cases hn
  owner t ht := by
    have := h.owner t ht
    simp only [State.extract, List.length_append, List.length_singleton]
    omega
  home a ha := by
    simp only [State.extract, homes, List.map_append, List.map_cons, List.map_nil,
      List.mem_append, List.mem_singleton] at ha
    simp only [State.extract, List.length_append, List.length_singleton]
    rcases ha with ha | rfl
    · have := h.home a ha
      omega
    · omega

theorem Numbered.clone {s : State} (h : s.Numbered) {v : Nat} {w : Value}
    (hw : s.values[v]? = some w) :
    Numbered { s with values := s.values ++ [{ inner := w.inner }] } where
  index := h.index
  counter := h.counter
  owner := h.owner
  home a ha := by
    simp only [homes, List.map_append, List.map_cons, List.map_nil, List.mem_append,
      List.mem_singleton] at ha
    rcases ha with ha | rfl
    · exact h.home a ha
    · exact h.home _ (List.mem_map.2 ⟨w, List.mem_of_getElem? hw, rfl⟩)

/-- A new call takes the ticket its counter shows, and the counter moves on. -/
theorem Numbered.send {s : State} (h : s.Numbered) {v a index : Nat} {payload : Payload}
    (hi : s.inners[a]? = some index) :
    Numbered { s with
      inners := s.inners.modify a fetchAdd
      calls := s.calls ++ [{ value := v, inner := a, index, payload }] } := by
  have ha : a < s.inners.length := (List.getElem?_eq_some_iff.1 hi).1
  have htickets : ∀ s' : State,
      s'.calls = s.calls ++ [{ value := v, inner := a, index, payload }] →
      s'.tickets = s.tickets ++ [(a, index)] := by
    intro s' hs'
    simp [tickets, hs']
  refine ⟨?_, ?_, ?_, ?_⟩
  · intro k b i hk
    rw [htickets _ rfl] at hk ⊢
    rcases Nat.lt_trichotomy k s.tickets.length with hlt | rfl | hgt
    · rw [List.getElem?_append_left hlt] at hk
      rw [List.take_append_of_le_length (Nat.le_of_lt hlt)]
      exact h.index k b i hk
    · simp only [List.getElem?_concat_length, Option.some.injEq, Prod.mk.injEq] at hk
      obtain ⟨rfl, rfl⟩ := hk
      rw [List.take_append_of_le_length le_rfl, List.take_length]
      exact h.counter a index hi
    · rw [List.getElem?_eq_none (by simp; omega)] at hk
      cases hk
  · intro b n hn
    rw [htickets _ rfl]
    simp only [List.getElem?_modify, Option.map_eq_map, Option.map_eq_some_iff] at hn
    obtain ⟨m, hm, hn⟩ := hn
    have hm := h.counter b m hm
    by_cases hab : a = b
    · subst hab
      simp only [if_true, fetchAdd] at hn
      simp only [drawn, List.countP_append, List.countP_singleton, beq_self_eq_true, if_true]
      simp only [drawn] at hm
      omega
    · simp only [hab, if_false] at hn
      simp [drawn, List.countP_append, hab, ← hn, hm]
  · intro t ht
    rw [htickets _ rfl] at ht
    simp only [List.length_modify]
    rcases List.mem_append.1 ht with ht | ht
    · exact h.owner t ht
    · rw [List.mem_singleton.1 ht]
      exact ha
  · intro b hb
    simp only [List.length_modify]
    exact h.home b hb

theorem Step.numbered {s s' : State} {a : Action} (hst : Step s a s') (h : s.Numbered) :
    s'.Numbered := by
  cases hst with
  | extract => exact h.extract
  | clone v w hw _ => exact h.clone hw
  | send v w index payload _ hi _ => exact h.send hi
  | endClose v | endDrop v =>
      exact of_postEnd fun ends posts => h.of_eq rfl rfl (setPhase_homes _ v _)
  | close v | drop v => exact h.of_eq rfl rfl (setPhase_homes s v _)
  | store k => exact h.of_eq (setDataId_tickets s k _) rfl rfl
  | unposted k | cleanUp k | postInline k | postFetch k =>
      exact h.of_eq (setResult_tickets s k _) rfl rfl
  | _ => exact h.of_eq rfl rfl rfl

/-! ## The data ids -/

def dataIds (s : State) : List (Option Nat) := s.calls.map Call.dataId

/-- Call `k` has put its payload into the store under `d`. -/
def Holds (s : State) (k : Nat) (d : Nat) : Prop := s.dataIds[k]? = some (some d)

/-- The next data id, if the counter did not wrap. -/
def nextDataId (s : State) : Nat := s.sends + 1 - s.dataIds.countP Option.isNone

structure Ids (s : State) : Prop where
  fresh : ∀ k d, s.Holds k d → d < s.nextDataId ∧ d ∉ s.foreign
  distinct : ∀ k k' d, s.Holds k d → s.Holds k' d → k = k'
  foreign : ∀ d ∈ s.foreign, d < s.nextDataId
  counter : s.dataCounter = s.nextDataId % 2 ^ 32

theorem nextDataId_le (s : State) : s.nextDataId ≤ s.sends + 1 := Nat.sub_le _ _

theorem countP_dataIds_le (s : State) : s.dataIds.countP Option.isNone ≤ s.sends := by
  have h := List.countP_le_length (p := Option.isNone) (l := s.dataIds)
  simp only [dataIds, List.length_map] at h
  simp only [dataIds, sends]
  omega

theorem Ids.of_eq {s s' : State} (h : s.Ids) (hd : s'.dataIds = s.dataIds)
    (hf : s'.foreign = s.foreign) (hn : s'.foreignSends = s.foreignSends)
    (hc : s'.dataCounter = s.dataCounter) : s'.Ids := by
  have hlen : s'.calls.length = s.calls.length := by
    simpa [dataIds] using congrArg List.length hd
  have hnext : s'.nextDataId = s.nextDataId := by
    simp only [nextDataId, sends, hd, hn, hlen]
  refine ⟨?_, ?_, ?_, ?_⟩
  · intro k d hk
    rw [hnext, hf]
    exact h.fresh k d (by simpa [Holds, hd] using hk)
  · intro k k' d hk hk'
    exact h.distinct k k' d (by simpa [Holds, hd] using hk) (by simpa [Holds, hd] using hk')
  · rw [hnext, hf]
    exact h.foreign
  · rw [hnext, hc]
    exact h.counter

@[simp] theorem setResult_dataIds (s : State) (k : Nat) (r : Result) :
    (s.setResult k r).dataIds = s.dataIds := by
  apply map_modify_eq
  intro c
  rfl

/-- A new call holds no data yet. -/
theorem Ids.send {s s' : State} (h : s.Ids) {x : Call} (hx : x.dataId = none)
    (hc : s'.calls = s.calls ++ [x]) (hf : s'.foreign = s.foreign)
    (hn : s'.foreignSends = s.foreignSends) (hd : s'.dataCounter = s.dataCounter) : s'.Ids := by
  have hids : s'.dataIds = s.dataIds ++ [none] := by simp [dataIds, hc, hx]
  have hnext : s'.nextDataId = s.nextDataId := by
    simp only [nextDataId, sends, hids, hn, hc, List.length_append, List.countP_append,
      List.length_singleton, List.countP_singleton, Option.isNone_none, if_true]
    omega
  have hold : ∀ k d, s'.Holds k d → s.Holds k d := by
    intro k d hk
    simp only [Holds, hids] at hk
    rcases Nat.lt_or_ge k s.dataIds.length with hlt | hge
    · rwa [List.getElem?_append_left hlt] at hk
    · rw [List.getElem?_append_right hge] at hk
      cases hkl : k - s.dataIds.length with
      | zero => simp [hkl] at hk
      | succ n => simp [hkl] at hk
  refine ⟨?_, ?_, ?_, ?_⟩
  · intro k d hk
    rw [hnext, hf]
    exact h.fresh k d (hold k d hk)
  · intro k k' d hk hk'
    exact h.distinct k k' d (hold k d hk) (hold k' d hk')
  · rw [hnext, hf]
    exact h.foreign
  · rw [hnext, hd]
    exact h.counter

/-- While the counter has not wrapped, the id it shows is held by nobody. -/
theorem Ids.counter_eq {s : State} (h : s.Ids) (hb : s.nextDataId < 2 ^ 32) :
    s.dataCounter = s.nextDataId := by
  rw [h.counter, Nat.mod_eq_of_lt hb]

theorem Ids.not_holds {s : State} (h : s.Ids) (hb : s.nextDataId < 2 ^ 32) (k : Nat) :
    ¬ s.Holds k s.dataCounter := by
  intro hk
  have := (h.fresh k _ hk).1
  have := h.counter_eq hb
  omega

theorem Ids.store {s s' : State} (h : s.Ids) {k : Nat} {c : Call} (hk : s.calls[k]? = some c)
    (hnone : c.dataId = none) (hb : s.sends < 2 ^ 32)
    (hc : s'.calls = s.calls.modify k fun c => { c with dataId := some s.dataCounter })
    (hf : s'.foreign = s.foreign) (hn : s'.foreignSends = s.foreignSends)
    (hd : s'.dataCounter = fetchAdd s.dataCounter) : s'.Ids := by
  have hcount : s'.dataIds.countP Option.isNone + 1 = s.dataIds.countP Option.isNone := by
    simp only [dataIds, List.countP_map, hc]
    exact countP_modify hk (by simp [hnone]) (by simp)
  have hle := s.countP_dataIds_le
  have hnext : s'.nextDataId = s.nextDataId + 1 := by
    simp only [nextDataId, sends, hn, hc, List.length_modify] at hle ⊢
    omega
  have hlt : s.nextDataId < 2 ^ 32 := by
    simp only [nextDataId]
    omega
  have hcounter := h.counter_eq hlt
  have hold : ∀ j d, s'.Holds j d → (j = k ∧ d = s.dataCounter) ∨ (j ≠ k ∧ s.Holds j d) := by
    intro j d hj
    by_cases hjk : j = k
    · subst hjk
      refine .inl ⟨rfl, ?_⟩
      simpa [Holds, dataIds, hc, hk, eq_comm] using hj
    · refine .inr ⟨hjk, ?_⟩
      simpa [Holds, dataIds, hc, List.getElem?_modify_ne _ _ (Ne.symm hjk)] using hj
  refine ⟨?_, ?_, ?_, ?_⟩
  · intro j d hj
    rw [hnext, hf]
    rcases hold j d hj with ⟨-, rfl⟩ | ⟨-, hj⟩
    · refine ⟨by omega, fun hmem => ?_⟩
      have := h.foreign _ hmem
      omega
    · have := h.fresh j d hj
      exact ⟨by omega, this.2⟩
  · intro j j' d hj hj'
    rcases hold j d hj with ⟨rfl, rfl⟩ | ⟨-, hj⟩
    · rcases hold j' _ hj' with ⟨rfl, -⟩ | ⟨-, hj'⟩
      · rfl
      · exact absurd hj' (h.not_holds hlt j')
    · rcases hold j' d hj' with ⟨rfl, rfl⟩ | ⟨-, hj'⟩
      · exact absurd hj (h.not_holds hlt j)
      · exact h.distinct j j' d hj hj'
  · intro d hmem
    rw [hf] at hmem
    have := h.foreign d hmem
    omega
  · rw [hd, hnext, fetchAdd, hcounter]

theorem Ids.foreignStore {s : State} (h : s.Ids) (body : Body) (hb : s.sends + 1 < 2 ^ 32) :
    (s.foreignStore body).Ids := by
  have hle := s.countP_dataIds_le
  have hnext : (s.foreignStore body).nextDataId = s.nextDataId + 1 := by
    simp only [nextDataId, sends, State.foreignStore, dataIds] at hle ⊢
    omega
  have hlt : s.nextDataId < 2 ^ 32 := by
    have := s.nextDataId_le
    omega
  have hcounter := h.counter_eq hlt
  refine ⟨?_, h.distinct, ?_, ?_⟩
  · intro k d hk
    have hk : s.Holds k d := hk
    have hf := h.fresh k d hk
    refine ⟨by omega, fun hmem => ?_⟩
    rcases List.mem_cons.1 hmem with rfl | hmem
    · exact h.not_holds hlt k hk
    · exact hf.2 hmem
  · intro d hmem
    rcases List.mem_cons.1 hmem with rfl | hmem
    · omega
    · have := h.foreign d hmem
      omega
  · show fetchAdd s.dataCounter = _
    rw [hnext, fetchAdd, hcounter]

theorem Ids.foreignTake {s : State} (h : s.Ids) (d : Nat) (store : Nat → Option Body) :
    Ids { s with store, foreign := s.foreign.erase d } where
  fresh k d' hk := ⟨(h.fresh k d' hk).1, fun hmem => (h.fresh k d' hk).2 (List.mem_of_mem_erase hmem)⟩
  distinct := h.distinct
  foreign d' hmem := h.foreign d' (List.mem_of_mem_erase hmem)
  counter := h.counter

end State

end Wxp.Channel
