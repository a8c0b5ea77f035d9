import Wxp.Bridge.State
import Mathlib.Data.Option.Basic

/-!
# Bridge — Transitions

The branches of `State.step`, one constructor of `State.Step` each, and which of
them add to the histories.
-/

namespace Wxp.Bridge

namespace State

inductive Step (commands : List String) (s : State) : Action → State → Prop
  | create : Step commands s .create s.create
  | install (w : Nat) (v : WebView) : s.webviews[w]? = some v →
      Step commands s (.install w) { s with slot := some w }
  | dropWebView (w : Nat) : Step commands s (.dropWebView w) (s.dropWebView w)
  | navigate (w : Nat) (v : WebView) : s.live w = some v →
      Step commands s (.navigate w) { s with
        webviews := s.webviews.modify w fun v => { v with document := s.documents.length }
        documents := s.documents ++ [{}] }
  | newChannel (w : Nat) (v : WebView) : s.live w = some v →
      Step commands s (.newChannel w) (s.onDocument v.document Page.Document.newChannel)
  | closeChannel (w id : Nat) (v : WebView) : s.live w = some v →
      Step commands s (.closeChannel w id) (s.onDocument v.document fun d => d.closeChannel id)
  | invoke (w : Nat) (cmd : String) (tokens : List Nat) (v : WebView) (d : Page.Document) :
      s.live w = some v → s.documents[v.document]? = some d →
      Step commands s (.invoke w cmd tokens)
        { s.onDocument v.document Page.Document.invokeCommand with
          requests := s.requests ++ [{
            webview := w
            document := v.document
            cmd
            callback := d.callbackIdCounter
            error := d.callbackIdCounter + 1
            tokens }] }
  | unparsed (r : Nat) (q : Request) : s.requests[r]? = some q → parses q = false →
      Step commands s (.start r) (s.setRequest r .finished)
  | run (r : Nat) (q : Request) (w : Nat) : s.requests[r]? = some q → q.phase = .posted →
      s.slot = some w → s.isAlive w = true → q.cmd ∈ commands →
      Step commands s (.start r) (s.setRequest r (.running w))
  | refuse (r : Nat) (q : Request) : s.requests[r]? = some q → q.phase = .posted →
      parses q = true → (∀ w, s.slot = some w → s.isAlive w = true → q.cmd ∉ commands) →
      Step commands s (.start r) (s.respond r q false)
  | complete (r : Nat) (q : Request) (w : Nat) (ok : Bool) : s.requests[r]? = some q →
      q.phase = .running w → Step commands s (.complete r ok) (s.respond r q ok)
  | extract (r id : Nat) (q : Request) (w : Nat) : s.requests[r]? = some q →
      q.phase = .running w → id ∈ q.tokens →
      Step commands s (.extract r id) { s with
        channels := s.channels ++ [{ id, webview := w, owner := q.document }] }
  | clone (c : Nat) (v : Channel) : s.channels[c]? = some v → v.live = true →
      Step commands s (.clone c) { s with channels := s.channels ++ [v] }
  | post (c : Nat) (v : Channel) (large : Bool) : s.channels[c]? = some v → v.live = true →
      Step commands s (.post c large) (s.postScript v large)
  | dropChannel (c : Nat) (v : Channel) : s.channels[c]? = some v → v.live = true →
      Step commands s (.dropChannel c) { s.postScript v false with
        channels := s.channels.modify c fun v => { v with live := false } }
  | abandon (i : Nat) (p : Script) : s.scripts[i]? = some p →
      Step commands s (.evaluate i) { s with scripts := s.scripts.eraseIdx i }
  | fetch (i : Nat) (p : Script) (v : WebView) : s.scripts[i]? = some p →
      s.live p.webview = some v →
      Step commands s (.evaluate i) { s with
        scripts := s.scripts.eraseIdx i
        fetches := s.fetches ++
          [{ webview := p.webview, document := v.document, id := p.id, owner := p.owner }] }
  | evaluate (i : Nat) (p : Script) (v : WebView) : s.scripts[i]? = some p →
      s.live p.webview = some v →
      Step commands s (.evaluate i)
        (deliver { s with scripts := s.scripts.eraseIdx i } v.document p.id p.owner)
  | settle (i : Nat) (p : Script) (v : WebView) : s.scripts[i]? = some p →
      s.live p.webview = some v →
      Step commands s (.evaluate i)
        (settle { s with scripts := s.scripts.eraseIdx i } v.document p.id p.owner)
  | lose (i : Nat) (f : Fetch) : s.fetches[i]? = some f →
      Step commands s (.fetched i) { s with fetches := s.fetches.eraseIdx i }
  | fetched (i : Nat) (f : Fetch) : s.fetches[i]? = some f →
      Step commands s (.fetched i)
        (deliver { s with fetches := s.fetches.eraseIdx i } f.document f.id f.owner)

variable {commands : List String} {s s' : State}

theorem start_cases {r : Nat} (h : s.start commands r = some s') :
    Step commands s (.start r) s' := by
  obtain ⟨q, hq, h⟩ := Option.bind_eq_some_iff.1 h
  by_cases hphase : q.phase = .posted
  · cases hparse : parses q with
    | false =>
        simp only [hphase, hparse] at h
        cases h
        exact .unparsed r q hq hparse
    | true =>
        cases hslot : s.slot with
        | none =>
            simp only [hphase, hparse, hslot] at h
            cases h
            refine .refuse r q hq hphase hparse fun w hw => ?_
            rw [hslot] at hw
            cases hw
        | some w =>
            have honly : ∀ u, s.slot = some u → u = w := fun u hu => by
              rw [hslot] at hu
              exact (Option.some.inj hu).symm
            cases halive : s.isAlive w with
            | false =>
                simp only [hphase, hparse, hslot, halive] at h
                cases h
                refine .refuse r q hq hphase hparse fun u hu hual => ?_
                rw [honly u hu, halive] at hual
                cases hual
            | true =>
                by_cases hcmd : q.cmd ∈ commands
                · simp only [hphase, hparse, hslot, halive, hcmd] at h
                  cases h
                  exact .run r q w hq hphase hslot halive hcmd
                · simp only [hphase, hparse, hslot, halive, hcmd] at h
                  cases h
                  exact .refuse r q hq hphase hparse fun _ _ _ => hcmd
  · simp [hphase] at h

theorem evaluate_cases {i : Nat} (h : s.evaluate i = some s') :
    Step commands s (.evaluate i) s' := by
  obtain ⟨p, hp, h⟩ := Option.bind_eq_some_iff.1 h
  cases hv : s.live p.webview with
  | none =>
      simp only [hv] at h
      cases h
      exact .abandon i p hp
  | some v =>
      cases hk : p.kind with
      | message =>
          simp only [hv, hk] at h
          cases h
          exact .evaluate i p v hp hv
      | large =>
          simp only [hv, hk] at h
          cases h
          exact .fetch i p v hp hv
      | response =>
          simp only [hv, hk] at h
          cases h
          exact .settle i p v hp hv

theorem fetched_cases {i : Nat} (h : s.fetched i = some s') :
    Step commands s (.fetched i) s' := by
  obtain ⟨f, hf, h⟩ := Option.bind_eq_some_iff.1 h
  cases hv : s.live f.webview with
  | none =>
      simp only [hv] at h
      cases h
      exact .lose i f hf
  | some v =>
      simp only [hv] at h
      split at h
      · cases h
        exact .fetched i f hf
      · cases h
        exact .lose i f hf

theorem step_cases {act : Action} (h : s.step commands act = some s') :
    Step commands s act s' := by
  cases act with
  | create =>
      cases h
      exact .create
  | install w =>
      obtain ⟨v, hv, h⟩ := Option.bind_eq_some_iff.1 h
      cases h
      exact .install w v hv
  | dropWebView w =>
      cases h
      exact .dropWebView w
  | navigate w =>
      obtain ⟨v, hv, h⟩ := Option.bind_eq_some_iff.1 h
      cases h
      exact .navigate w v hv
  | newChannel w =>
      obtain ⟨v, hv, h⟩ := Option.bind_eq_some_iff.1 h
      cases h
      exact .newChannel w v hv
  | closeChannel w id =>
      obtain ⟨v, hv, h⟩ := Option.bind_eq_some_iff.1 h
      cases h
      exact .closeChannel w id v hv
  | invoke w cmd tokens =>
      obtain ⟨v, hv, h⟩ := Option.bind_eq_some_iff.1 h
      obtain ⟨d, hd, h⟩ := Option.bind_eq_some_iff.1 h
      split at h
      · cases h
        exact .invoke w cmd tokens v d hv hd
      · cases h
  | start r => exact start_cases h
  | complete r ok =>
      obtain ⟨q, hq, h⟩ := Option.bind_eq_some_iff.1 h
      split at h
      · cases h
        exact .complete r q _ ok hq ‹_›
      · cases h
  | extract r id =>
      obtain ⟨q, hq, h⟩ := Option.bind_eq_some_iff.1 h
      split at h
      · split at h
        · rename_i hphase hid
          cases h
          exact .extract r id q _ hq hphase hid.1
        · cases h
      · cases h
  | clone c =>
      obtain ⟨v, hv, h⟩ := Option.bind_eq_some_iff.1 h
      split at h
      · cases h
        exact .clone c v hv ‹_›
      · cases h
  | post c large =>
      obtain ⟨v, hv, h⟩ := Option.bind_eq_some_iff.1 h
      split at h
      · cases h
        exact .post c v large hv ‹_›
      · cases h
  | dropChannel c =>
      obtain ⟨v, hv, h⟩ := Option.bind_eq_some_iff.1 h
      split at h
      · cases h
        exact .dropChannel c v hv ‹_›
      · cases h
  | evaluate i => exact evaluate_cases h
  | fetched i => exact fetched_cases h

/-! ## What the steps leave alone -/

/-- A post adds to the scripts on their way only. -/
theorem postScript_eq (s : State) (v : Channel) (large : Bool) :
    ∃ scripts, s.postScript v large = { s with scripts } := by
  unfold postScript
  split
  · exact ⟨_, rfl⟩
  · exact ⟨s.scripts, rfl⟩

@[simp] theorem postScript_evaluated (s : State) (v : Channel) (large : Bool) :
    (s.postScript v large).evaluated = s.evaluated := by
  obtain ⟨scripts, he⟩ := s.postScript_eq v large
  rw [he]

@[simp] theorem postScript_channels (s : State) (v : Channel) (large : Bool) :
    (s.postScript v large).channels = s.channels := by
  obtain ⟨scripts, he⟩ := s.postScript_eq v large
  rw [he]

@[simp] theorem postScript_webviews (s : State) (v : Channel) (large : Bool) :
    (s.postScript v large).webviews = s.webviews := by
  obtain ⟨scripts, he⟩ := s.postScript_eq v large
  rw [he]

@[simp] theorem postScript_documents (s : State) (v : Channel) (large : Bool) :
    (s.postScript v large).documents = s.documents := by
  obtain ⟨scripts, he⟩ := s.postScript_eq v large
  rw [he]

@[simp] theorem deliver_evaluated (s : State) (d id owner : Nat) :
    (s.deliver d id owner).evaluated = s.evaluated := by
  unfold deliver
  split
  · split <;> rfl
  · rfl

@[simp] theorem settle_evaluated (s : State) (d id owner : Nat) :
    (s.settle d id owner).evaluated = s.evaluated := by
  unfold settle
  split <;> rfl

theorem live_eq_some {w : Nat} {v : WebView} :
    s.live w = some v ↔ s.webviews[w]? = some v ∧ v.alive = true := by
  simp [live, Option.filter_eq_some_iff]

theorem isAlive_of_live {w : Nat} {v : WebView} (h : s.live w = some v) : s.isAlive w = true := by
  obtain ⟨hv, halive⟩ := live_eq_some.1 h
  simp [isAlive, hv, halive]

theorem live_of_isAlive {w : Nat} (h : s.isAlive w = true) : ∃ v, s.live w = some v := by
  cases hv : s.webviews[w]? with
  | none => simp [isAlive, hv] at h
  | some v => exact ⟨v, live_eq_some.2 ⟨hv, by simpa [isAlive, hv] using h⟩⟩

end State

end Wxp.Bridge
