import Wxp.Channel.Numbers

/-!
# Channel — End

The end of a Rust channel: `close`, `send_end_message` and the `Drop` of every
value of `src/wxp_channel/channel.rs`.

* `EndsWell a`: at most one end is posted for the channel of inner `a`, not by the
  drop of one value while another is usable, and no message is posted with an
  index at or above the index of the end.
* `channel_ends_well`: so it is in every run in which the channel is dropped only
  if it was never cloned, and not closed explicitly, while the WebView takes
  scripts.

`Drop` posts an end for every value, and also for one that `close` has consumed.
-/

namespace Wxp.Channel

variable {handler : List Message → Page.Reaction} {s s' : State} {act : Action} {a : Nat}

def Posted.isEnd (a : Nat) : Posted → Bool
  | .ended b _ _ _ => b == a
  | .message _ _ => false

namespace State

/-- What the posts of a run must be like, for the channel of inner `a`. -/
structure EndsWell (posts : List Posted) (a : Nat) : Prop where
  once : posts.countP (Posted.isEnd a) ≤ 1
  last : ∀ index shared, .ended a index true shared ∈ posts → shared = false
  below : ∀ i e byDrop shared, .message a i ∈ posts → .ended a e byDrop shared ∈ posts → i < e

/-- The channel a value belongs to. -/
def homeOf (s : State) (v : Nat) : Option Nat := (s.values[v]?).map Value.inner

/-- While the WebView takes scripts, no value of the channel is closed, and one is
dropped only if it is the only value there has been. Its counter does not wrap. -/
def EndsByDrop (a : Nat) (s : State) : Action → Prop
  | .send v _ => s.homeOf v = some a → (s.inners[a]?).getD 0 + 1 < 2 ^ 32
  | .close v => s.webviewAlive = true → s.homeOf v ≠ some a
  | .drop v => s.webviewAlive = true → s.homeOf v = some a →
      ∀ j < s.values.length, s.homeOf j = some a → j = v
  | _ => True

instance (a : Nat) (s : State) (act : Action) : Decidable (EndsByDrop a s act) := by
  cases act <;> unfold EndsByDrop <;> infer_instance

/-! ## The stages of a channel on a page that stays -/

structure Open (s : State) (a : Nat) : Prop where
  live : ∀ w ∈ s.values, w.inner = a → w.phase = .live
  ends : ∀ p ∈ s.posts, p.isEnd a = false

/-- The one value `v` of the channel is being dropped with end index `e`, or has
been. -/
structure Leaving (s : State) (a v e : Nat) : Prop where
  only : ∀ j w, s.values[j]? = some w → w.inner = a →
    j = v ∧ (w.phase = .dropping e ∨ w.phase = .gone)
  returned : ∀ c ∈ s.calls, c.inner = a → c.result ≠ none
  counter : s.inners[a]? = some e
  ends : ∀ p ∈ s.posts, p.isEnd a = true →
    p = .ended a e true false ∧ ∀ w ∈ s.values, w.inner = a → w.phase = .gone

structure Ending (a : Nat) (s : State) : Prop where
  owner : ∀ c ∈ s.calls, ∃ w, s.values[c.value]? = some w ∧ w.inner = c.inner
  index : ∀ c ∈ s.calls, c.inner = a → ∃ n, s.inners[a]? = some n ∧ c.index < n
  posted : ∀ i, .message a i ∈ s.posts → ∃ n, s.inners[a]? = some n ∧ i < n
  stage : s.webviewAlive = true → s.Open a ∨ ∃ v e, s.Leaving a v e
  well : EndsWell s.posts a

/-- Steps that touch neither the values nor the posts; calls may return. -/
theorem Ending.of_calls (h : s.Ending a) (hi : s'.inners = s.inners) (hv : s'.values = s.values)
    (hp : s'.posts = s.posts) (hw : s'.webviewAlive = true → s.webviewAlive = true)
    (hc : ∀ c ∈ s'.calls, ∃ c' ∈ s.calls, c.value = c'.value ∧ c.inner = c'.inner ∧
      c.index = c'.index ∧ (c'.result ≠ none → c.result ≠ none)) : s'.Ending a where
  owner c hmem := by
    obtain ⟨c', hc', hval, hin, -, -⟩ := hc c hmem
    rw [hv, hval, hin]
    exact h.owner c' hc'
  index c hmem ha := by
    obtain ⟨c', hc', -, hin, hidx, -⟩ := hc c hmem
    rw [hi, hidx]
    exact h.index c' hc' (hin ▸ ha)
  posted i hmem := by
    rw [hi]
    exact h.posted i (hp ▸ hmem)
  stage halive := by
    rcases h.stage (hw halive) with hopen | ⟨v, e, hleave⟩
    · exact .inl ⟨hv ▸ hopen.live, hp ▸ hopen.ends⟩
    · refine .inr ⟨v, e, hv ▸ hleave.only, fun c hmem ha => ?_, hi ▸ hleave.counter, ?_⟩
      · obtain ⟨c', hc', -, hin, -, hret⟩ := hc c hmem
        exact hret (hleave.returned c' hc' (hin ▸ ha))
      · rw [hp, hv]
        exact hleave.ends
  well := hp ▸ h.well

theorem Ending.quiet (h : s.Ending a) (hi : s'.inners = s.inners) (hv : s'.values = s.values)
    (hp : s'.posts = s.posts) (hw : s'.webviewAlive = true → s.webviewAlive = true)
    (hc : s'.calls = s.calls) : s'.Ending a :=
  h.of_calls hi hv hp hw fun c hmem => ⟨c, hc ▸ hmem, rfl, rfl, rfl, id⟩

theorem setResult_calls_mem {k : Nat} {r : Result} {c : Call}
    (hc : c ∈ (s.setResult k r).calls) : ∃ c' ∈ s.calls, c.value = c'.value ∧ c.inner = c'.inner ∧
      c.index = c'.index ∧ (c'.result ≠ none → c.result ≠ none) := by
  rcases mem_modify hc with hc | ⟨c', hc', rfl⟩
  · exact ⟨c, hc, rfl, rfl, rfl, id⟩
  · exact ⟨c', List.mem_of_getElem? hc', rfl, rfl, rfl, fun _ => by simp⟩

/-- A message is posted for a call that has not returned: the channel is open. -/
theorem Ending.postMessage (h : s.Ending a) {k : Nat} {c : Call} {stage : Stage}
    (hk : s.calls[k]? = some c) (hr : c.result = none) (hw : s.webviewAlive = true) :
    (s.postMessage k c stage).Ending a := by
  have hmem := List.mem_of_getElem? hk
  have hc := fun c hc => setResult_calls_mem (s := s) (k := k) (r := .ok) (c := c) hc
  have hold : (s.setResult k .ok).Ending a := h.of_calls rfl rfl rfl id hc
  refine ⟨hold.owner, hold.index, fun i hi => ?_, fun _ => ?_, ?_⟩
  · rcases List.mem_append.1 hi with hi | hi
    · exact h.posted i hi
    · cases List.mem_singleton.1 hi
      exact h.index c hmem rfl
  · rcases hold.stage hw with hopen | ⟨v, e, hleave⟩
    · refine .inl ⟨hopen.live, fun p hp => ?_⟩
      rcases List.mem_append.1 hp with hp | hp
      · exact hopen.ends p hp
      · rw [List.mem_singleton.1 hp]
        rfl
    · refine .inr ⟨v, e, hleave.only, hleave.returned, hleave.counter, fun p hp hend => ?_⟩
      rcases List.mem_append.1 hp with hp | hp
      · exact hleave.ends p hp hend
      · rw [List.mem_singleton.1 hp] at hend
        cases hend
  · refine ⟨?_, fun index shared hp => ?_, fun i e byDrop shared hi he => ?_⟩
    · show (s.posts ++ _).countP _ ≤ 1
      simpa [List.countP_append, Posted.isEnd] using h.well.once
    · rcases List.mem_append.1 hp with hp | hp
      · exact h.well.last index shared hp
      · cases List.mem_singleton.1 hp
    · have he : .ended a e byDrop shared ∈ s.posts := by
        rcases List.mem_append.1 he with he | he
        · exact he
        · cases List.mem_singleton.1 he
      rcases List.mem_append.1 hi with hi | hi
      · exact h.well.below i e byDrop shared hi he
      · cases List.mem_singleton.1 hi
        -- an end has been posted, so no call of the channel is open
        rcases h.stage hw with hopen | ⟨v, e', hleave⟩
        · exact absurd (hopen.ends _ he) (by simp [Posted.isEnd])
        · exact absurd hr (hleave.returned c hmem rfl)

/-! ## New values and calls -/

theorem Ending.addValue (h : s.Ending a) {w : Value} {l : List Nat}
    (hw : w.phase = .live) (hl : w.inner = a → s.webviewAlive = true → s.Open a)
    (hi : ∀ n, s.inners[a]? = some n → (s.inners ++ l)[a]? = some n) :
    Ending a { s with inners := s.inners ++ l, values := s.values ++ [w] } where
  owner c hmem := by
    obtain ⟨w', hw', hin⟩ := h.owner c hmem
    exact ⟨w', getElem?_append_of_some hw' _, hin⟩
  index c hmem ha := by
    obtain ⟨n, hn, hlt⟩ := h.index c hmem ha
    exact ⟨n, hi n hn, hlt⟩
  posted i hmem := by
    obtain ⟨n, hn, hlt⟩ := h.posted i hmem
    exact ⟨n, hi n hn, hlt⟩
  stage halive := by
    have hopen : s.Open a →
        Open { s with inners := s.inners ++ l, values := s.values ++ [w] } a := by
      intro hopen
      refine ⟨fun w' hmem ha => ?_, hopen.ends⟩
      rcases List.mem_append.1 hmem with hmem | hmem
      · exact hopen.live w' hmem ha
      · rw [List.mem_singleton.1 hmem]
        exact hw
    by_cases ha : w.inner = a
    · exact .inl (hopen (hl ha halive))
    · rcases h.stage halive with h' | ⟨v, e, hleave⟩
      · exact .inl (hopen h')
      · refine .inr ⟨v, e, fun j w' hj hin => ?_, hleave.returned, hi e hleave.counter,
          fun p hp hend => ⟨(hleave.ends p hp hend).1, fun w' hmem hin => ?_⟩⟩
        · rcases getElem?_append_new hj with hj | ⟨-, rfl⟩
          · exact hleave.only j w' hj hin
          · exact absurd hin ha
        · rcases List.mem_append.1 hmem with hmem | hmem
          · exact (hleave.ends p hp hend).2 w' hmem hin
          · rw [List.mem_singleton.1 hmem] at hin
            exact absurd hin ha
  well := h.well

/-- With a live value the channel is open. -/
theorem Ending.open_of_live (h : s.Ending a) {v : Nat} {w : Value} (hv : s.values[v]? = some w)
    (hw : w.phase = .live) (ha : w.inner = a) (halive : s.webviewAlive = true) : s.Open a := by
  rcases h.stage halive with hopen | ⟨u, e, hleave⟩
  · exact hopen
  · rcases (hleave.only v w hv ha).2 with hp | hp
    · rw [hw] at hp
      cases hp
    · rw [hw] at hp
      cases hp

theorem Ending.send (h : s.Ending a) {v index : Nat} {w : Value} {payload : Payload}
    (hv : s.values[v]? = some w) (hi : s.inners[w.inner]? = some index) (hw : w.phase = .live)
    (hb : w.inner = a → index + 1 < 2 ^ 32) :
    Ending a { s with
      inners := s.inners.modify w.inner fetchAdd
      calls := s.calls ++ [{ value := v, inner := w.inner, index, payload }] } := by
  have hcounter : ∀ n, s.inners[a]? = some n → ∃ m, (s.inners.modify w.inner fetchAdd)[a]? = some m ∧
      n ≤ m ∧ (w.inner = a → n < m) := by
    intro n hn
    by_cases ha : w.inner = a
    · have hb := hb ha
      subst ha
      rw [hi] at hn
      cases hn
      refine ⟨fetchAdd index, by simp [hi], ?_⟩
      simp only [fetchAdd]
      omega
    · exact ⟨n, by rw [modify_of_ne (Ne.symm ha)]; exact hn, le_rfl, fun h => absurd h ha⟩
  refine ⟨fun c hmem => ?_, fun c hmem ha => ?_, fun i hmem => ?_, fun halive => ?_, h.well⟩
  · rcases List.mem_append.1 hmem with hmem | hmem
    · exact h.owner c hmem
    · rw [List.mem_singleton.1 hmem]
      exact ⟨w, hv, rfl⟩
  · rcases List.mem_append.1 hmem with hmem | hmem
    · obtain ⟨n, hn, hlt⟩ := h.index c hmem ha
      obtain ⟨m, hm, hle, -⟩ := hcounter n hn
      exact ⟨m, hm, by omega⟩
    · rw [List.mem_singleton.1 hmem] at ha ⊢
      obtain ⟨m, hm, -, hlt⟩ := hcounter index (by rw [← ha]; exact hi)
      exact ⟨m, hm, hlt ha⟩
  · obtain ⟨n, hn, hlt⟩ := h.posted i hmem
    obtain ⟨m, hm, hle, -⟩ := hcounter n hn
    exact ⟨m, hm, by omega⟩
  · by_cases ha : w.inner = a
    · have hopen := h.open_of_live hv hw ha halive
      exact .inl ⟨hopen.live, hopen.ends⟩
    · rcases h.stage halive with hopen | ⟨u, e, hleave⟩
      · exact .inl ⟨hopen.live, hopen.ends⟩
      · refine .inr ⟨u, e, hleave.only, fun c hmem hc => ?_, ?_, hleave.ends⟩
        · rcases List.mem_append.1 hmem with hmem | hmem
          · exact hleave.returned c hmem hc
          · rw [List.mem_singleton.1 hmem] at hc
            exact absurd hc ha
        · show (s.inners.modify w.inner fetchAdd)[a]? = some e
          rw [modify_of_ne (Ne.symm ha)]
          exact hleave.counter

/-! ## The end of a value -/

theorem setPhase_value {v j : Nat} {phase : ValuePhase} {w' : Value}
    (h : (s.setPhase v phase).values[j]? = some w') :
    (j = v ∧ ∃ w, s.values[v]? = some w ∧ w' = { w with phase }) ∨
      (j ≠ v ∧ s.values[j]? = some w') := by
  by_cases hj : j = v
  · subst hj
    simp only [setPhase, List.getElem?_modify_eq, Option.map_eq_map, Option.map_eq_some_iff] at h
    obtain ⟨w, hw, rfl⟩ := h
    exact .inl ⟨rfl, w, hw, rfl⟩
  · rw [setPhase, modify_of_ne hj] at h
    exact .inr ⟨hj, h⟩

theorem setPhase_self {v : Nat} {phase : ValuePhase} {w : Value} (hv : s.values[v]? = some w) :
    (s.setPhase v phase).values[v]? = some { w with phase } := by
  simp [setPhase, hv]

/-- A step that changes the phase of value `v`, and posts no message. -/
structure Turn (s s' : State) (v : Nat) (phase : ValuePhase) (l : List Posted) : Prop where
  inners : s'.inners = s.inners
  calls : s'.calls = s.calls
  values : s'.values = (s.setPhase v phase).values
  posts : s'.posts = s.posts ++ l
  ends : ∀ p ∈ l, ∀ b i, p ≠ .message b i
  alive : s'.webviewAlive = s.webviewAlive

theorem Turn.setPhase (s : State) (v : Nat) (phase : ValuePhase) :
    Turn s (s.setPhase v phase) v phase [] :=
  ⟨rfl, rfl, rfl, (List.append_nil _).symm, nofun, rfl⟩

/-- What is posted of an end: nothing, or the end on a page that is there. -/
theorem turn_postEnd (s : State) (v b index : Nat) (byDrop accepted : Bool) (phase : ValuePhase) :
    ∃ l, Turn s ((s.postEndMessage v b index byDrop accepted).setPhase v phase) v phase l ∧
      (l = [] ∨ (s.webviewAlive = true ∧ l = [.ended b index byDrop (s.shared v b)])) := by
  cases hr : s.postResult accepted with
  | ok =>
      refine ⟨[.ended b index byDrop (s.shared v b)], ?_, .inr ⟨(postResult_eq_ok.1 hr).1, rfl⟩⟩
      simp only [postEndMessage, hr]
      exact ⟨rfl, rfl, rfl, rfl, by simp, rfl⟩
  | err e =>
      refine ⟨[], ?_, .inl rfl⟩
      simp only [postEndMessage, hr]
      exact .setPhase s v phase

section Turn

variable {v : Nat} {w : Value} {phase : ValuePhase} {l : List Posted}

theorem Turn.mem_values (ht : Turn s s' v phase l) {w' : Value} (h : w' ∈ s'.values) :
    w' ∈ s.values ∨ ∃ w, s.values[v]? = some w ∧ w' = { w with phase } := by
  rw [ht.values] at h
  exact mem_modify h

theorem Turn.ending (ht : Turn s s' v phase l) (h : s.Ending a) (hv : s.values[v]? = some w)
    (hstage : s'.webviewAlive = true → s'.Open a ∨ ∃ v e, s'.Leaving a v e)
    (hwell : EndsWell s'.posts a) : s'.Ending a where
  owner c hmem := by
    obtain ⟨w', hw', hin⟩ := h.owner c (ht.calls ▸ hmem)
    rw [ht.values]
    by_cases hcv : c.value = v
    · rw [hcv, hv] at hw'
      cases hw'
      rw [hcv]
      exact ⟨_, setPhase_self hv, hin⟩
    · refine ⟨w', ?_, hin⟩
      rwa [State.setPhase, modify_of_ne hcv]
  index c hmem ha := by
    rw [ht.inners]
    exact h.index c (ht.calls ▸ hmem) ha
  posted i hmem := by
    rw [ht.inners]
    rw [ht.posts] at hmem
    rcases List.mem_append.1 hmem with hmem | hmem
    · exact h.posted i hmem
    · exact absurd rfl (ht.ends _ hmem a i)
  stage := hstage
  well := hwell

theorem EndsWell.append {posts : List Posted} (h : EndsWell posts a)
    (hl : ∀ p ∈ l, p.isEnd a = false) (hm : ∀ p ∈ l, ∀ b i, p ≠ .message b i) :
    EndsWell (posts ++ l) a where
  once := by
    have hzero : l.countP (Posted.isEnd a) = 0 :=
      List.countP_eq_zero.2 fun p hp => by simp [hl p hp]
    rw [List.countP_append, hzero]
    exact h.once
  last index shared hp := by
    rcases List.mem_append.1 hp with hp | hp
    · exact h.last index shared hp
    · exact absurd (hl _ hp) (by simp [Posted.isEnd])
  below i e byDrop shared hi he := by
    rcases List.mem_append.1 hi with hi | hi
    · rcases List.mem_append.1 he with he | he
      · exact h.below i e byDrop shared hi he
      · exact absurd (hl _ he) (by simp [Posted.isEnd])
    · exact absurd rfl (hm _ hi a i)

/-- The end of a value of another channel. -/
theorem Turn.other (ht : Turn s s' v phase l) (h : s.Ending a) (hv : s.values[v]? = some w)
    (ha : w.inner ≠ a) (hl : ∀ p ∈ l, p.isEnd a = false) : s'.Ending a := by
  refine ht.ending h hv (fun halive => ?_) (ht.posts ▸ h.well.append hl ht.ends)
  have hends : ∀ p ∈ s'.posts, p.isEnd a = true → p ∈ s.posts := by
    intro p hp hend
    rw [ht.posts] at hp
    rcases List.mem_append.1 hp with hp | hp
    · exact hp
    · simp [hl p hp] at hend
  have hvalues : ∀ w' ∈ s'.values, w'.inner = a → w' ∈ s.values := by
    intro w' hmem hin
    rcases ht.mem_values hmem with hmem | ⟨u, hu, rfl⟩
    · exact hmem
    · rw [hv] at hu
      cases hu
      exact absurd hin ha
  rcases h.stage (ht.alive ▸ halive) with hopen | ⟨u, e, hleave⟩
  · refine .inl ⟨fun w' hmem hin => hopen.live w' (hvalues w' hmem hin) hin, fun p hp => ?_⟩
    by_contra hend
    have hend : p.isEnd a = true := by simpa using hend
    simp [hopen.ends p (hends p hp hend)] at hend
  · refine .inr ⟨u, e, fun j w' hj hin => ?_, ?_, ?_, fun p hp hend => ?_⟩
    · rw [ht.values] at hj
      rcases setPhase_value hj with ⟨rfl, w₀, hw₀, rfl⟩ | ⟨-, hj⟩
      · rw [hv] at hw₀
        cases hw₀
        exact absurd hin ha
      · exact hleave.only j w' hj hin
    · rw [ht.calls]
      exact hleave.returned
    · rw [ht.inners]
      exact hleave.counter
    · obtain ⟨hp, hgone⟩ := hleave.ends p (hends p hp hend) hend
      exact ⟨hp, fun w' hmem hin => hgone w' (hvalues w' hmem hin) hin⟩

/-- After the WebView is gone nothing more is posted. -/
theorem Turn.dead (ht : Turn s s' v phase []) (h : s.Ending a) (hv : s.values[v]? = some w)
    (hw : s.webviewAlive = false) : s'.Ending a := by
  refine ht.ending h hv (fun halive => ?_) ?_
  · rw [ht.alive, hw] at halive
    cases halive
  · rw [ht.posts, List.append_nil]
    exact h.well

/-- The only value of the channel is dropped. -/
theorem Ending.dropOnly (h : s.Ending a) {index : Nat} (hv : s.values[v]? = some w)
    (hi : s.inners[w.inner]? = some index) (ha : w.inner = a) (hopen : s.Open a)
    (hfree : s.unborrowed v = true)
    (honly : ∀ j < s.values.length, s.homeOf j = some a → j = v) :
    (s.setPhase v (.dropping index)).Ending a := by
  have ht := Turn.setPhase s v (.dropping index)
  have honly : ∀ j w', s.values[j]? = some w' → w'.inner = a → j = v := fun j w' hj hin =>
    honly j (List.getElem?_eq_some_iff.1 hj).1 (by simp [homeOf, hj, hin])
  refine ht.ending h hv (fun _ => .inr ⟨v, index, ?_, ?_, ?_, ?_⟩) h.well
  · intro j w' hj hin
    rcases setPhase_value hj with ⟨rfl, w₀, -, rfl⟩ | ⟨hne, hj⟩
    · exact ⟨rfl, .inl rfl⟩
    · exact absurd (honly j w' hj hin) hne
  · intro c hmem hin
    -- a call of the channel borrows its only value, and nobody does
    obtain ⟨w', hw', hin'⟩ := h.owner c hmem
    have hcv := honly c.value w' hw' (hin'.trans hin)
    have hret := List.all_eq_true.1 hfree c hmem
    intro hnone
    simp [hcv, hnone] at hret
  · exact ha ▸ hi
  · intro p hp hend
    exact absurd hend (by simp [hopen.ends p hp])

/-- The end of the only value is posted, or not. -/
theorem Ending.postOnly (h : s.Ending a) {index : Nat} (hv : s.values[v]? = some w)
    (hphase : w.phase = .dropping index) (ha : w.inner = a) (hw : s.webviewAlive = true)
    (ht : Turn s s' v .gone l) (hl : l = [] ∨ l = [.ended a index true (s.shared v a)]) :
    s'.Ending a := by
  obtain ⟨u, e, hleave⟩ : ∃ u e, s.Leaving a u e := by
    rcases h.stage hw with hopen | hleave
    · have := hopen.live w (List.mem_of_getElem? hv) ha
      rw [hphase] at this
      cases this
    · exact hleave
  obtain ⟨rfl, hdrop⟩ := hleave.only v w hv ha
  have he : e = index := by
    rcases hdrop with hdrop | hdrop <;> rw [hphase] at hdrop <;> cases hdrop
    rfl
  subst he
  have hnone : ∀ p ∈ s.posts, p.isEnd a = false := by
    intro p hp
    by_contra hend
    have := (hleave.ends p hp (by simpa using hend)).2 w (List.mem_of_getElem? hv) ha
    rw [hphase] at this
    cases this
  have hshared : s.shared v a = false := by
    refine List.any_eq_false.2 fun w' hmem => ?_
    obtain ⟨j, hj⟩ := List.getElem?_of_mem (List.mem_of_mem_eraseIdx hmem)
    intro hlive
    simp only [Bool.and_eq_true, beq_iff_eq] at hlive
    rcases (hleave.only j w' hj hlive.1).2 with hp | hp <;> rw [hlive.2] at hp <;> cases hp
  rw [hshared] at hl
  have hgone : ∀ w' ∈ s'.values, w'.inner = a → w'.phase = .gone := by
    intro w' hmem hin
    obtain ⟨j, hj⟩ := List.getElem?_of_mem hmem
    rw [ht.values] at hj
    rcases setPhase_value hj with ⟨-, w₀, -, rfl⟩ | ⟨hne, hj⟩
    · rfl
    · exact absurd (hleave.only j w' hj hin).1 hne
  have hposts : ∀ p ∈ s'.posts, p.isEnd a = true → p = .ended a e true false := by
    intro p hp hend
    rw [ht.posts] at hp
    rcases List.mem_append.1 hp with hp | hp
    · simp [hnone p hp] at hend
    · rcases hl with rfl | rfl
      · cases hp
      · exact List.mem_singleton.1 hp
  refine ht.ending h hv (fun _ => .inr ⟨v, e, fun j w' hj hin => ?_, ?_, ?_, ?_⟩) ⟨?_, ?_, ?_⟩
  · have hmem := List.mem_of_getElem? hj
    rw [ht.values] at hj
    rcases setPhase_value hj with ⟨rfl, -⟩ | ⟨hne, hj⟩
    · exact ⟨rfl, .inr (hgone w' hmem hin)⟩
    · exact absurd (hleave.only j w' hj hin).1 hne
  · rw [ht.calls]
    exact hleave.returned
  · rw [ht.inners]
    exact hleave.counter
  · exact fun p hp hend => ⟨hposts p hp hend, hgone⟩
  · have hzero : s.posts.countP (Posted.isEnd a) = 0 :=
      List.countP_eq_zero.2 fun p hp => by simp [hnone p hp]
    rw [ht.posts, List.countP_append, hzero, Nat.zero_add]
    rcases hl with rfl | rfl
    · exact Nat.zero_le _
    · exact List.countP_le_length
  · intro index shared hp
    have := hposts _ hp (by simp [Posted.isEnd])
    cases this
    rfl
  · intro i e' byDrop shared hi he
    have := hposts _ he (by simp [Posted.isEnd])
    cases this
    rw [ht.posts] at hi
    rcases List.mem_append.1 hi with hi | hi
    · obtain ⟨n, hn, hlt⟩ := h.posted i hi
      rw [hleave.counter] at hn
      cases hn
      exact hlt
    · exact absurd rfl (ht.ends _ hi a i)

end Turn

/-! ## Runs -/

/-- On a page that stays, a value of the channel is in use, being dropped, or
gone: nobody closes one. -/
theorem Ending.phase (h : s.Ending a) {v : Nat} {w : Value} (hv : s.values[v]? = some w)
    (ha : w.inner = a) (hw : s.webviewAlive = true) :
    w.phase = .live ∨ (∃ e, w.phase = .dropping e) ∨ w.phase = .gone := by
  rcases h.stage hw with hopen | ⟨u, e, hleave⟩
  · exact .inl (hopen.live w (List.mem_of_getElem? hv) ha)
  · rcases (hleave.only v w hv ha).2 with hp | hp
    · exact .inr (.inl ⟨e, hp⟩)
    · exact .inr (.inr hp)

theorem homeOf_eq {v : Nat} {w : Value} (hv : s.values[v]? = some w) : s.homeOf v = some w.inner := by
  simp [homeOf, hv]

theorem isEnd_other {b index : Nat} {byDrop shared : Bool} (hb : b ≠ a) :
    ∀ p ∈ [Posted.ended b index byDrop shared], p.isEnd a = false := by
  intro p hp
  rw [List.mem_singleton.1 hp]
  simp [Posted.isEnd, hb]

/-- The turn of a value of another channel, or after the WebView is gone. -/
theorem Turn.aside {v : Nat} {w : Value} {phase : ValuePhase} {l : List Posted}
    (ht : Turn s s' v phase l) (h : s.Ending a) (hv : s.values[v]? = some w)
    (hl : l = [] ∨ (s.webviewAlive = true ∧
      ∃ index byDrop shared, l = [.ended w.inner index byDrop shared]))
    (hno : w.inner = a → s.webviewAlive = false) : s'.Ending a := by
  by_cases ha : w.inner = a
  · rcases hl with rfl | ⟨hw, -⟩
    · exact ht.dead h hv (hno ha)
    · rw [hno ha] at hw
      cases hw
  · rcases hl with rfl | ⟨-, index, byDrop, shared, rfl⟩
    · exact ht.other h hv ha nofun
    · exact ht.other h hv ha (isEnd_other ha)

theorem Step.ending (hst : Step s act s') (h : s.Ending a) (hok : EndsByDrop a s act) :
    s'.Ending a := by
  cases hst with
  | extract =>
      refine h.addValue (w := { inner := s.inners.length }) (l := [0]) rfl (fun ha halive => ?_)
        fun n hn => getElem?_append_of_some hn _
      rcases h.stage halive with hopen | ⟨v, e, hleave⟩
      · exact hopen
      · have hlt := (List.getElem?_eq_some_iff.1 hleave.counter).1
        have ha : s.inners.length = a := ha
        omega
  | clone v w hv hw =>
      have hadd := h.addValue (w := { inner := w.inner }) (l := []) rfl
        (fun ha halive => h.open_of_live hv hw ha halive) (by simp)
      simpa using hadd
  | send v w index payload hv hi hw =>
      refine h.send hv hi hw fun ha => ?_
      subst ha
      simpa [hi] using hok (homeOf_eq hv)
  | close v w index hv =>
      refine (Turn.setPhase s v (.closing index)).aside h hv (.inl rfl) fun ha => ?_
      by_contra halive
      exact hok (by simpa using halive) (ha ▸ homeOf_eq hv)
  | drop v w index hv hi hphase =>
      by_cases hhere : w.inner = a ∧ s.webviewAlive = true
      · obtain ⟨ha, halive⟩ := hhere
        rcases hphase with ⟨hlive, hfree⟩ | hclosed
        · exact h.dropOnly hv hi ha (h.open_of_live hv hlive ha halive) hfree
            (hok halive (ha ▸ homeOf_eq hv))
        · rcases h.phase hv ha halive with hp | ⟨e, hp⟩ | hp <;> rw [hclosed] at hp <;> cases hp
      · exact (Turn.setPhase s v (.dropping index)).aside h hv (.inl rfl) (by simpa using hhere)
  | endClose v w index accepted hv hphase =>
      obtain ⟨l, ht, hl⟩ := turn_postEnd s v w.inner index false accepted .closed
      refine ht.aside h hv (hl.imp_right fun ⟨hw, hl⟩ => ⟨hw, _, _, _, hl⟩) fun ha => ?_
      by_contra halive
      have halive : s.webviewAlive = true := by simpa using halive
      rcases h.phase hv ha halive with hp | ⟨e, hp⟩ | hp <;> rw [hphase] at hp <;> cases hp
  | endDrop v w index accepted hv hphase =>
      obtain ⟨l, ht, hl⟩ := turn_postEnd s v w.inner index true accepted .gone
      by_cases hhere : w.inner = a ∧ s.webviewAlive = true
      · obtain ⟨rfl, halive⟩ := hhere
        exact h.postOnly hv hphase rfl halive ht (hl.imp_right And.right)
      · exact ht.aside h hv (hl.imp_right fun ⟨hw, hl⟩ => ⟨hw, _, _, _, hl⟩) (by simpa using hhere)
  | dropWebView => exact h.quiet rfl rfl rfl nofun rfl
  | unposted | cleanUp => exact h.of_calls rfl rfl rfl id fun c hc => setResult_calls_mem hc
  | store =>
      refine h.of_calls rfl rfl rfl id fun c hc => ?_
      rcases mem_modify hc with hc | ⟨c', hc', rfl⟩
      · exact ⟨c, hc, rfl, rfl, rfl, id⟩
      · exact ⟨c', List.mem_of_getElem? hc', rfl, rfl, rfl, id⟩
  | postInline k c body hk hr _ hw => exact h.postMessage hk hr hw
  | postFetch k c body d hk hr _ _ hw => exact h.postMessage hk hr hw
  | _ => exact h.quiet rfl rfl rfl id rfl

theorem ending_init : ((channelSystem handler).init).Ending a := by
  refine ⟨?_, ?_, ?_, fun _ => .inl ⟨?_, ?_⟩, Nat.zero_le _, ?_, ?_⟩
  · intro c hmem
    cases hmem
  · intro c hmem
    cases hmem
  · intro i hmem
    cases hmem
  · intro w hmem
    cases hmem
  · intro p hmem
    cases hmem
  · intro index shared hmem
    cases hmem
  · intro i e byDrop shared hmem
    cases hmem

/-- **The end protocol of a channel.** In every run in which no value of the
channel is closed, and one is dropped only if it is the only value there has been,
while the WebView takes scripts: at most one end is posted, not while another
value is usable, and every message posted has an index below it. -/
theorem channel_ends_well
    (hs : (channelSystem handler).ReachVia (EndsByDrop a) s) : EndsWell s.posts a := by
  have h : s.Ending a := by
    refine hs.invariant (I := Ending a) ending_init fun s act s' _ hi hok hst => ?_
    have hst : s.step act = some s' := hst
    exact (step_cases hst).ending hi hok
  exact h.well

/-- A channel that is used and dropped, and another that is closed. -/
def dropRun : List Action :=
  [.extract, .send 0 (.bytes [7]), .finish 0 true, .drop 0, .postEnd 0 true, .extract, .close 1,
    .postEnd 1 true]

theorem channel_ends_well_dropped :
    ∃ s, (channelSystem fun _ => {}).ReachVia (EndsByDrop 0) s ∧
      s.posts = [.message 0 0, .ended 0 1 true false, .ended 1 0 false false] ∧
      EndsWell s.posts 0 := by
  have hrun : ((channelSystem fun _ => {}).runVia (EndsByDrop 0) (channelSystem fun _ => {}).init
      dropRun).map (fun s => decide (s.posts =
        [.message 0 0, .ended 0 1 true false, .ended 1 0 false false])) = some true := by
    decide
  obtain ⟨s, hs, hp⟩ := System.exists_reachVia _ _ hrun
  exact ⟨s, hs, of_decide_eq_true hp, channel_ends_well hs⟩

/-- A clone is dropped while the other value is in use, which then sends. -/
def cloneDropRun : List Action :=
  [.extract, .clone 0, .drop 1, .postEnd 1 true, .send 0 (.bytes [7]), .finish 0 true, .close 0,
    .postEnd 0 true, .drop 0, .postEnd 0 true]

/-- Three ends: one by the drop of a clone in front of a message with the same
index, two by the `close` of the other value. -/
theorem channel_ends_more_than_once :
    ∃ s, (channelSystem fun _ => {}).Reachable s ∧
      s.posts = [.ended 0 0 true true, .message 0 0, .ended 0 1 false false, .ended 0 1 true false] ∧
      ¬ EndsWell s.posts 0 := by
  have hrun : ((channelSystem fun _ => {}).run (channelSystem fun _ => {}).init cloneDropRun).map
      (fun s => decide (s.posts = [.ended 0 0 true true, .message 0 0, .ended 0 1 false false,
        .ended 0 1 true false])) = some true := by
    decide
  obtain ⟨s, hs, hp⟩ := System.exists_reachable _ _ hrun
  have hposts := of_decide_eq_true hp
  refine ⟨s, hs, hposts, fun hwell => ?_⟩
  have := hwell.once
  rw [hposts] at this
  exact absurd this (by decide)

end State

end Wxp.Channel
