import Wxp.Channel.State

/-!
# Channel — Transitions

The branches of `State.step`, one constructor of `State.Step` each, with the
guard of the branch. The constructors after `unposted` are the ways a message
travels.
-/

namespace Wxp.Channel

namespace State

inductive Step (s : State) : Action → State → Prop
  | extract : Step s .extract s.extract
  | clone (v : Nat) (w : Value) : s.values[v]? = some w → w.phase = .live →
      Step s (.clone v) { s with values := s.values ++ [{ inner := w.inner }] }
  | send (v : Nat) (w : Value) (index : Nat) (payload : Payload) : s.values[v]? = some w →
      s.inners[w.inner]? = some index → w.phase = .live →
      Step s (.send v payload) { s with
        inners := s.inners.modify w.inner fetchAdd
        calls := s.calls ++ [{ value := v, inner := w.inner, index, payload }] }
  | close (v : Nat) (w : Value) (index : Nat) : s.values[v]? = some w →
      s.inners[w.inner]? = some index → w.phase = .live → s.unborrowed v = true →
      Step s (.close v) (s.setPhase v (.closing index))
  | drop (v : Nat) (w : Value) (index : Nat) : s.values[v]? = some w →
      s.inners[w.inner]? = some index →
      ((w.phase = .live ∧ s.unborrowed v = true) ∨ w.phase = .closed) →
      Step s (.drop v) (s.setPhase v (.dropping index))
  | endClose (v : Nat) (w : Value) (index : Nat) (accepted : Bool) : s.values[v]? = some w →
      w.phase = .closing index →
      Step s (.postEnd v accepted)
        ((s.postEndMessage v w.inner index false accepted).setPhase v .closed)
  | endDrop (v : Nat) (w : Value) (index : Nat) (accepted : Bool) : s.values[v]? = some w →
      w.phase = .dropping index →
      Step s (.postEnd v accepted)
        ((s.postEndMessage v w.inner index true accepted).setPhase v .gone)
  | runEnd (i index : Nat) : s.ends[i]? = some index → s.webviewAlive = true →
      Step s (.runEnd i)
        { s with ends := s.ends.eraseIdx i, channel := s.channel.runCallback (.ended index) }
  | abandonEnd (i : Nat) : Step s (.abandonEnd i) { s with ends := s.ends.eraseIdx i }
  | foreignStore (body : Body) : Step s (.foreignStore body) (s.foreignStore body)
  | foreignTake (d : Nat) : d ∈ s.foreign →
      Step s (.foreignTake d)
        { s with store := Function.update s.store d none, foreign := s.foreign.erase d }
  | dropWebView : Step s .dropWebView { s with webviewAlive := false }
  | unposted (k : Nat) (c : Call) (accepted : Bool) (e : Error) : s.calls[k]? = some c →
      c.result = none → (e = .json → c.payload.transport c.index = none) →
      (e ≠ .json → s.webviewAlive = false ∨ accepted = false) →
      Step s (.finish k accepted) (s.setResult k (.err e))
  | store (k : Nat) (c : Call) (body : Body) : s.calls[k]? = some c → c.result = none →
      c.dataId = none → c.payload.transport c.index = some (.large body) →
      Step s (.store k) { s with
        dataCounter := fetchAdd s.dataCounter
        store := Function.update s.store s.dataCounter (some body)
        calls := s.calls.modify k fun c => { c with dataId := some s.dataCounter } }
  | cleanUp (k : Nat) (c : Call) (d : Nat) (accepted : Bool) : s.calls[k]? = some c →
      c.result = none → c.dataId = some d → s.webviewAlive = false →
      Step s (.finish k accepted)
        { s.setResult k (.err .webViewClosed) with store := Function.update s.store d none }
  | postInline (k : Nat) (c : Call) (body : Body) : s.calls[k]? = some c → c.result = none →
      c.payload.transport c.index = some (.inline body) → s.webviewAlive = true →
      Step s (.finish k true) (s.postMessage k c (.script body))
  | postFetch (k : Nat) (c : Call) (body : Body) (d : Nat) : s.calls[k]? = some c →
      c.result = none → c.payload.transport c.index = some (.large body) → c.dataId = some d →
      s.webviewAlive = true → Step s (.finish k true) (s.postMessage k c (.fetchScript d))
  | arrive (i : Nat) (t : Transit) (body : Body) : s.transits[i]? = some t →
      (t.stage = .script body ∨ t.stage = .response body) →
      Step s (.advance i) (s.arrive i t body)
  | fetch (i : Nat) (t : Transit) (d : Nat) : s.transits[i]? = some t →
      t.stage = .fetchScript d →
      Step s (.advance i) { s with transits := s.transits.set i { t with stage := .request d } }
  | respond (i : Nat) (t : Transit) (d : Nat) (body : Body) : s.transits[i]? = some t →
      t.stage = .request d → s.store d = some body →
      Step s (.advance i) { s with
        store := Function.update s.store d none
        transits := s.transits.set i { t with stage := .response body } }
  | notFound (i : Nat) (t : Transit) (d : Nat) : s.transits[i]? = some t →
      t.stage = .request d → s.store d = none →
      Step s (.advance i) { s with transits := s.transits.eraseIdx i }
  | abandonFetch (i : Nat) (t : Transit) (d : Nat) : s.transits[i]? = some t →
      t.stage = .fetchScript d → s.webviewAlive = false →
      Step s (.abandon i) { s with
        store := Function.update s.store d none
        transits := s.transits.eraseIdx i }
  | abandon (i : Nat) (t : Transit) : s.transits[i]? = some t → s.webviewAlive = false →
      Step s (.abandon i) { s with transits := s.transits.eraseIdx i }

@[simp] theorem postResult_eq_ok {s : State} {accepted : Bool} :
    s.postResult accepted = .ok ↔ s.webviewAlive = true ∧ accepted = true := by
  cases hs : s.webviewAlive <;> cases accepted <;> simp [postResult, hs]

theorem postResult_eq_err {s : State} {accepted : Bool} {e : Error}
    (h : s.postResult accepted = .err e) :
    e ≠ .json ∧ (s.webviewAlive = false ∨ accepted = false) ∧
      (e = .webViewClosed → s.webviewAlive = false) := by
  cases hs : s.webviewAlive <;> cases accepted <;> simp [postResult, hs] at h <;> simp [← h]

/-- The post of an end adds to the end scripts and to the history only. -/
theorem of_postEnd {P : State → Prop} {s : State} {v a index : Nat} {byDrop accepted : Bool}
    {phase : ValuePhase} (h : ∀ ends posts, P (setPhase { s with ends, posts } v phase)) :
    P ((s.postEndMessage v a index byDrop accepted).setPhase v phase) := by
  unfold postEndMessage
  split
  · exact h _ _
  · exact h s.ends s.posts

theorem finish_cases {s s' : State} {k : Nat} {accepted : Bool}
    (h : s.finish k accepted = some s') : Step s (.finish k accepted) s' := by
  cases hc : s.calls[k]? with
  | none => simp [finish, hc] at h
  | some c =>
      by_cases hr : c.result = none
      · cases ht : c.payload.transport c.index with
        | none =>
            simp only [finish, hc, hr, ht, Option.bind_eq_bind, Option.bind_some] at h
            cases h
            exact .unposted k c accepted .json hc hr (fun _ => ht) (by simp)
        | some t =>
            cases hp : s.postResult accepted with
            | ok =>
                obtain ⟨hs, rfl⟩ := postResult_eq_ok.1 hp
                cases t with
                | inline body =>
                    simp only [finish, hc, hr, ht, hp, Option.bind_eq_bind, Option.bind_some] at h
                    cases h
                    exact .postInline k c body hc hr ht hs
                | large body =>
                    cases hd : c.dataId with
                    | none => simp [finish, hc, hr, ht, hd] at h
                    | some d =>
                        simp only [finish, hc, hr, ht, hd, hp, Option.bind_eq_bind,
                          Option.bind_some] at h
                        cases h
                        exact .postFetch k c body d hc hr ht hd hs
            | err e =>
                obtain ⟨hj, hno, hclosed⟩ := postResult_eq_err hp
                cases t with
                | inline body =>
                    simp only [finish, hc, hr, ht, hp, Option.bind_eq_bind, Option.bind_some] at h
                    cases h
                    exact .unposted k c accepted e hc hr (fun h => absurd h hj) fun _ => hno
                | large body =>
                    cases hd : c.dataId with
                    | none => simp [finish, hc, hr, ht, hd] at h
                    | some d =>
                        by_cases he : e = .webViewClosed
                        · subst he
                          simp only [finish, hc, hr, ht, hd, hp, Option.bind_eq_bind,
                            Option.bind_some] at h
                          cases h
                          exact .cleanUp k c d accepted hc hr hd (hclosed rfl)
                        · cases e <;> simp only [ne_eq, not_true_eq_false, reduceCtorEq] at hj he <;>
                            simp only [finish, hc, hr, ht, hd, hp, Option.bind_eq_bind,
                              Option.bind_some] at h <;> cases h <;>
                            exact .unposted k c accepted _ hc hr (by simp) fun _ => hno
      · simp [finish, hc, hr] at h

theorem advance_cases {s s' : State} {i : Nat} (h : s.advance i = some s') :
    Step s (.advance i) s' := by
  cases ht : s.transits[i]? with
  | none => simp [advance, ht] at h
  | some t =>
      simp only [advance, ht, Option.bind_eq_bind, Option.bind_some] at h
      split at h
      · cases hst : t.stage with
        | script body =>
            rw [hst] at h
            cases h
            exact .arrive i t body ht (.inl hst)
        | fetchScript d =>
            rw [hst] at h
            cases h
            exact .fetch i t d ht hst
        | request d =>
            cases hd : s.store d with
            | none =>
                simp only [hst, hd] at h
                cases h
                exact .notFound i t d ht hst hd
            | some body =>
                simp only [hst, hd] at h
                cases h
                exact .respond i t d body ht hst hd
        | response body =>
            rw [hst] at h
            cases h
            exact .arrive i t body ht (.inr hst)
      · cases h

theorem abandon_cases {s s' : State} {i : Nat} (h : s.abandon i = some s') :
    Step s (.abandon i) s' := by
  cases ht : s.transits[i]? with
  | none => simp [abandon, ht] at h
  | some t =>
      simp only [abandon, ht, Option.bind_eq_bind, Option.bind_some] at h
      split at h
      · cases h
      · rename_i halive
        have halive : s.webviewAlive = false := by simpa using halive
        cases hst : t.stage with
        | fetchScript d =>
            rw [hst] at h
            cases h
            exact .abandonFetch i t d ht hst halive
        | _ =>
            rw [hst] at h
            cases h
            exact .abandon i t ht halive

/-- The value an action names, and its counter. -/
theorem bind_value {s s' : State} {v : Nat} {f : Value → Nat → Option State}
    (h : (do let w ← s.values[v]?; let index ← s.inners[w.inner]?; f w index) = some s') :
    ∃ w index, s.values[v]? = some w ∧ s.inners[w.inner]? = some index ∧ f w index = some s' := by
  obtain ⟨w, hw, h⟩ := Option.bind_eq_some_iff.1 h
  obtain ⟨index, hi, h⟩ := Option.bind_eq_some_iff.1 h
  exact ⟨w, index, hw, hi, h⟩

theorem step_cases {s s' : State} {a : Action} (h : s.step a = some s') : Step s a s' := by
  cases a with
  | extract =>
      cases h
      exact .extract
  | clone v =>
      obtain ⟨w, hw, h⟩ := Option.bind_eq_some_iff.1 h
      split at h
      · cases h
        exact .clone v w hw ‹_›
      · cases h
  | send v payload =>
      obtain ⟨w, index, hw, hi, h⟩ := bind_value h
      split at h
      · cases h
        exact .send v w index payload hw hi ‹_›
      · cases h
  | store k =>
      obtain ⟨c, hc, h⟩ := Option.bind_eq_some_iff.1 h
      split at h
      · cases h
        exact .store k c _ hc ‹_› ‹_› ‹_›
      · cases h
  | finish k accepted => exact finish_cases h
  | close v =>
      obtain ⟨w, index, hw, hi, h⟩ := bind_value h
      split at h
      · rename_i hg
        cases h
        exact .close v w index hw hi hg.1 hg.2
      · cases h
  | drop v =>
      obtain ⟨w, index, hw, hi, h⟩ := bind_value h
      split at h
      · cases h
        exact .drop v w index hw hi ‹_›
      · cases h
  | postEnd v accepted =>
      obtain ⟨w, hw, h⟩ := Option.bind_eq_some_iff.1 h
      split at h
      · cases h
        exact .endClose v w _ accepted hw ‹_›
      · cases h
        exact .endDrop v w _ accepted hw ‹_›
      · cases h
  | advance i => exact advance_cases h
  | abandon i => exact abandon_cases h
  | runEnd i =>
      obtain ⟨index, hi, h⟩ := Option.bind_eq_some_iff.1 h
      split at h
      · cases h
        exact .runEnd i index hi ‹_›
      · cases h
  | abandonEnd i =>
      simp only [step, abandonEnd] at h
      split at h
      · cases h
      · cases h
        exact .abandonEnd i
  | foreignStore body =>
      cases h
      exact .foreignStore body
  | foreignTake d =>
      simp only [step, foreignTake] at h
      split at h
      · cases h
        exact .foreignTake d ‹_›
      · cases h
  | dropWebView =>
      cases h
      exact .dropWebView

end State

end Wxp.Channel
