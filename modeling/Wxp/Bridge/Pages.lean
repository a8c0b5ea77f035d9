import Wxp.Bridge.Transitions
import Wxp.Foundations.Lists
import Mathlib.Logic.Function.Iterate

/-!
# Bridge — Pages

One WebView that loads, reloads and navigates. Rust addresses a callback by its
bare number, and every document numbers its callbacks from 0.

* `no_cross_page_delivery`: what is sent to an id reaches a callback of the
  document that issued it, in every run in which the page is left only when no
  request is open, no Rust `Channel` of it is held and no script, of a message or
  of a response, is on its way.
-/

namespace Wxp.Bridge

variable {commands : List String} {s s' : State} {act : Action}

namespace State

def DeliversHome (s : State) : Prop := ∀ d ∈ s.deliveries, d.receiver = d.owner

/-- One WebView, whose page is left only when Rust holds nothing of it. -/
def SettledPages (s : State) : Action → Prop
  | .create => s.webviews = []
  | .navigate _ => (∀ q ∈ s.requests, q.phase = .finished) ∧ (∀ c ∈ s.channels, c.live = false) ∧
      s.scripts = []
  | _ => True

instance (s : State) (act : Action) : Decidable (SettledPages s act) := by
  cases act <;> unfold SettledPages <;> infer_instance

/-- The document the WebView shows. -/
def current (s : State) : Option Nat := (s.webviews[0]?).map WebView.document

structure Paged (s : State) : Prop where
  one : s.webviews.length ≤ 1
  requests : ∀ q ∈ s.requests, q.phase ≠ .finished → s.current = some q.document
  channels : ∀ c ∈ s.channels, c.live = true → s.current = some c.owner
  scripts : ∀ p ∈ s.scripts, s.current = some p.owner
  fetches : ∀ f ∈ s.fetches, f.owner = f.document
  deliveries : s.DeliversHome

/-- The live WebView is the one there is. -/
theorem Paged.current_of_live (h : s.Paged) {w : Nat} {v : WebView} (hv : s.live w = some v) :
    s.current = some v.document := by
  obtain ⟨hw, -⟩ := live_eq_some.1 hv
  have hlt := (List.getElem?_eq_some_iff.1 hw).1
  have hone := h.one
  have hzero : w = 0 := by omega
  subst hzero
  simp [current, hw]

/-- A script is evaluated in the document it is for. -/
theorem Paged.script_owner (h : s.Paged) {i : Nat} {p : Script} {v : WebView}
    (hp : s.scripts[i]? = some p) (hv : s.live p.webview = some v) : p.owner = v.document := by
  have hcur := h.scripts p (List.mem_of_getElem? hp)
  rw [h.current_of_live hv] at hcur
  exact (Option.some.inj hcur).symm

/-- Steps of a page that stays, without a delivery. -/
theorem Paged.stay (h : s.Paged) (hw : s'.webviews.length = s.webviews.length)
    (hcur : s'.current = s.current)
    (hq : ∀ q ∈ s'.requests, q.phase ≠ .finished → s.current = some q.document)
    (hc : ∀ c ∈ s'.channels, c.live = true → s.current = some c.owner)
    (hp : ∀ p ∈ s'.scripts, s.current = some p.owner)
    (hf : ∀ f ∈ s'.fetches, f.owner = f.document) (hd : s'.DeliversHome) : s'.Paged := by
  refine ⟨hw ▸ h.one, ?_, ?_, ?_, hf, hd⟩
  · rw [hcur]
    exact hq
  · rw [hcur]
    exact hc
  · rw [hcur]
    exact hp

theorem Paged.setRequest (h : s.Paged) {r : Nat} {q : Request} {phase : RequestPhase}
    (hq : s.requests[r]? = some q) (hopen : q.phase ≠ .finished ∨ phase = .finished) :
    (s.setRequest r phase).Paged := by
  refine h.stay rfl rfl (fun q' hmem hphase => ?_) h.channels h.scripts h.fetches h.deliveries
  rcases mem_modify hmem with hmem | ⟨q₀, hq₀, rfl⟩
  · exact h.requests q' hmem hphase
  · rw [hq] at hq₀
    cases hq₀
    rcases hopen with hopen | rfl
    · exact h.requests q (List.mem_of_getElem? hq) hopen
    · exact absurd rfl hphase

/-- The response of an open request is for the document that asked. -/
theorem Paged.respond (h : s.Paged) {r : Nat} {q : Request} {ok : Bool}
    (hq : s.requests[r]? = some q) (hopen : q.phase ≠ .finished) : (s.respond r q ok).Paged := by
  have hset : (s.setRequest r .finished).Paged := h.setRequest hq (.inr rfl)
  unfold State.respond
  split
  · exact hset
  · refine hset.stay rfl rfl hset.requests hset.channels (fun p hp => ?_) hset.fetches
      hset.deliveries
    rcases List.mem_append.1 hp with hp | hp
    · exact h.scripts p hp
    · rw [List.mem_singleton.1 hp]
      exact h.requests q (List.mem_of_getElem? hq) hopen

/-- A delivery to the document that issued the id. -/
theorem Paged.deliverHome (h : s.Paged) {ds : List Page.Document} {d owner : Nat}
    (hown : owner = d) :
    Paged { s with documents := ds, deliveries := s.deliveries ++ [{ owner, receiver := d }] } := by
  refine h.stay rfl rfl h.requests h.channels h.scripts h.fetches fun e he => ?_
  rcases List.mem_append.1 he with he | he
  · exact h.deliveries e he
  · rw [List.mem_singleton.1 he]
    exact hown.symm

theorem Paged.deliver (h : s.Paged) {d id owner : Nat} (hown : owner = d) :
    (s.deliver d id owner).Paged := by
  unfold State.deliver
  split
  · split
    · exact h.deliverHome hown
    · exact h
  · exact h

theorem Paged.settle (h : s.Paged) {d id owner : Nat} (hown : owner = d) :
    (s.settle d id owner).Paged := by
  unfold State.settle
  split
  · exact h.deliverHome hown
  · exact h

theorem Paged.postScript (h : s.Paged) {v : Channel} (hv : v ∈ s.channels) (hl : v.live = true)
    (large : Bool) : (s.postScript v large).Paged := by
  unfold State.postScript
  split
  · refine h.stay rfl rfl h.requests h.channels (fun p hp => ?_) h.fetches h.deliveries
    rcases List.mem_append.1 hp with hp | hp
    · exact h.scripts p hp
    · rw [List.mem_singleton.1 hp]
      exact h.channels v hv hl
  · exact h

theorem Paged.eraseScript (h : s.Paged) (i : Nat) :
    Paged { s with scripts := s.scripts.eraseIdx i } :=
  h.stay rfl rfl h.requests h.channels (fun p hp => h.scripts p (List.mem_of_mem_eraseIdx hp))
    h.fetches h.deliveries

theorem Paged.eraseFetch (h : s.Paged) (i : Nat) :
    Paged { s with fetches := s.fetches.eraseIdx i } :=
  h.stay rfl rfl h.requests h.channels h.scripts
    (fun f hf => h.fetches f (List.mem_of_mem_eraseIdx hf)) h.deliveries

theorem Step.paged (hst : Step commands s act s') (h : s.Paged) (hok : SettledPages s act) :
    s'.Paged := by
  cases hst with
  | create =>
      -- without a WebView nothing is open
      have hempty : s.webviews = [] := hok
      have hcur : s.current = none := by simp [current, hempty]
      refine ⟨by simp [State.create, hempty], ?_, ?_, ?_, h.fetches, h.deliveries⟩
      · intro q hq hphase
        have := h.requests q hq hphase
        rw [hcur] at this
        cases this
      · intro c hc hl
        have := h.channels c hc hl
        rw [hcur] at this
        cases this
      · intro p hp
        have := h.scripts p hp
        rw [hcur] at this
        cases this
  | navigate w v =>
      obtain ⟨hq, hc, hp⟩ := hok
      refine ⟨by simpa using h.one, ?_, ?_, ?_, h.fetches, h.deliveries⟩
      · intro q hmem hphase
        exact absurd (hq q hmem) hphase
      · intro c hmem hl
        rw [hc c hmem] at hl
        cases hl
      · intro p hmem
        have hmem : p ∈ s.scripts := hmem
        rw [hp] at hmem
        cases hmem
  | dropWebView w =>
      refine h.stay (List.length_modify _ _ _) ?_ h.requests h.channels h.scripts h.fetches
        h.deliveries
      show ((s.webviews.modify w _)[0]?).map WebView.document = s.current
      by_cases hw : 0 = w
      · subst hw
        simp [current, Function.comp_def]
      · rw [modify_of_ne hw]
        rfl
  | invoke w cmd tokens v d hv hd =>
      refine h.stay rfl rfl (fun q hmem hphase => ?_) h.channels h.scripts h.fetches h.deliveries
      rcases List.mem_append.1 hmem with hmem | hmem
      · exact h.requests q hmem hphase
      · rw [List.mem_singleton.1 hmem]
        exact h.current_of_live hv
  | unparsed r q hq => exact h.setRequest hq (.inr rfl)
  | run r q w hq hphase => exact h.setRequest hq (.inl (by simp [hphase]))
  | refuse r q hq hphase => exact h.respond hq (by simp [hphase])
  | complete r q w ok hq hphase => exact h.respond hq (by simp [hphase])
  | extract r id q w hq hphase =>
      refine h.stay rfl rfl h.requests (fun c hmem hl => ?_) h.scripts h.fetches h.deliveries
      rcases List.mem_append.1 hmem with hmem | hmem
      · exact h.channels c hmem hl
      · rw [List.mem_singleton.1 hmem]
        exact h.requests q (List.mem_of_getElem? hq) (by simp [hphase])
  | clone c v hv hl =>
      refine h.stay rfl rfl h.requests (fun c' hmem hl' => ?_) h.scripts h.fetches h.deliveries
      rcases List.mem_append.1 hmem with hmem | hmem
      · exact h.channels c' hmem hl'
      · rw [List.mem_singleton.1 hmem]
        exact h.channels v (List.mem_of_getElem? hv) hl
  | post c v large hv hl => exact h.postScript (List.mem_of_getElem? hv) hl large
  | dropChannel c v hv hl =>
      have hpost := h.postScript (List.mem_of_getElem? hv) hl false
      refine hpost.stay rfl rfl hpost.requests (fun c' hmem hl' => ?_) hpost.scripts hpost.fetches
        hpost.deliveries
      rcases mem_modify hmem with hmem | ⟨c₀, -, rfl⟩
      · exact hpost.channels c' (by rwa [postScript_channels]) hl'
      · cases hl'
  | abandon i => exact h.eraseScript i
  | fetch i p v hp hv =>
      have herase := h.eraseScript i
      refine herase.stay rfl rfl herase.requests herase.channels herase.scripts (fun f hmem => ?_)
        herase.deliveries
      rcases List.mem_append.1 hmem with hmem | hmem
      · exact h.fetches f hmem
      · rw [List.mem_singleton.1 hmem]
        exact h.script_owner hp hv
  | evaluate i p v hp hv => exact (h.eraseScript i).deliver (h.script_owner hp hv)
  | settle i p v hp hv => exact (h.eraseScript i).settle (h.script_owner hp hv)
  | lose i => exact h.eraseFetch i
  | fetched i f hf => exact (h.eraseFetch i).deliver (h.fetches f (List.mem_of_getElem? hf))
  | _ => exact h.stay rfl rfl h.requests h.channels h.scripts h.fetches h.deliveries

theorem paged_init : (bridgeSystem commands).init.Paged := by
  refine ⟨Nat.zero_le _, ?_, ?_, ?_, ?_, ?_⟩
  · intro q hmem
    cases hmem
  · intro c hmem
    cases hmem
  · intro p hmem
    cases hmem
  · intro f hmem
    cases hmem
  · intro d hmem
    cases hmem

/-- **No cross-page delivery**, in every run of one WebView in which a page is left
only when no request is open, no Rust `Channel` is held and no script is on its
way: a response or channel message reaches only a callback of the document that
issued its id. -/
theorem no_cross_page_delivery (hs : (bridgeSystem commands).ReachVia SettledPages s) :
    s.DeliversHome := by
  have h : s.Paged := by
    refine hs.invariant paged_init fun s act s' _ hi hok hst => ?_
    have hst : s.step commands act = some s' := hst
    exact (step_cases hst).paged hi hok
  exact h.deliveries

/-- A page with a command and a channel, left after all of it is over; the next
page uses the same numbers. -/
def reloadRun : List Action :=
  [.create, .install 0, .newChannel 0, .invoke 0 "watch" [0], .start 0, .extract 0 0, .post 0 false,
    .evaluate 0, .complete 0 true, .dropChannel 0, .evaluate 0, .evaluate 0, .navigate 0,
    .newChannel 0, .invoke 0 "watch" [0], .start 1, .extract 1 0, .complete 1 true, .post 1 true,
    .evaluate 0, .evaluate 0, .fetched 0]

theorem no_cross_page_delivery_reload :
    ∃ s, (bridgeSystem ["watch"]).ReachVia SettledPages s ∧
      s.deliveries = [⟨0, 0⟩, ⟨0, 0⟩, ⟨0, 0⟩, ⟨1, 1⟩, ⟨1, 1⟩] ∧ s.DeliversHome := by
  have hrun : ((bridgeSystem ["watch"]).runVia SettledPages (bridgeSystem ["watch"]).init
      reloadRun).map (fun s => decide (s.deliveries =
        [⟨0, 0⟩, ⟨0, 0⟩, ⟨0, 0⟩, ⟨1, 1⟩, ⟨1, 1⟩])) = some true := by
    decide
  obtain ⟨s, hs, hp⟩ := System.exists_reachVia _ _ hrun
  exact ⟨s, hs, of_decide_eq_true hp, no_cross_page_delivery hs⟩

/-- The page is reloaded while a command runs and its channel is held. -/
def staleRun : List Action :=
  [.create, .install 0, .newChannel 0, .invoke 0 "watch" [0], .start 0, .extract 0 0, .navigate 0,
    .newChannel 0, .invoke 0 "watch" [0], .post 0 false, .evaluate 0, .complete 0 true, .evaluate 0]

/-- A message and a response of the old document reach the new one. -/
theorem stale_delivery_after_reload :
    ∃ s, (bridgeSystem ["watch"]).Reachable s ∧ s.webviews.length = 1 ∧
      s.deliveries = [{ owner := 0, receiver := 1 }, { owner := 0, receiver := 1 }] ∧
      ¬ s.DeliversHome := by
  have hrun : ((bridgeSystem ["watch"]).run (bridgeSystem ["watch"]).init staleRun).map
      (fun s => decide (s.webviews.length = 1 ∧
        s.deliveries = [{ owner := 0, receiver := 1 }, { owner := 0, receiver := 1 }])) =
      some true := by
    decide
  obtain ⟨s, hs, hp⟩ := System.exists_reachable _ _ hrun
  obtain ⟨hone, hdeliveries⟩ := of_decide_eq_true hp
  refine ⟨s, hs, hone, hdeliveries, fun hhome => ?_⟩
  have hd : { owner := 0, receiver := 1 } ∈ s.deliveries := by simp [hdeliveries]
  have := hhome _ hd
  cases this

/-! ## The condition is needed -/

theorem onDocument_onDocument (s : State) (d : Nat) (f g : Page.Document → Page.Document) :
    (s.onDocument d f).onDocument d g = s.onDocument d (g ∘ f) := by
  simp only [onDocument, State.mk.injEq, true_and, and_true]
  refine List.ext_getElem? fun j => ?_
  by_cases hj : j = d
  · subst hj
    simp [Function.comp_def]
  · rw [modify_of_ne hj, modify_of_ne hj, modify_of_ne hj]

/-- A page creates channels. -/
theorem run_newChannels {w : Nat} {v : WebView} (k : Nat) (hv : s.live w = some v) :
    (bridgeSystem commands).run s (List.replicate k (.newChannel w)) =
      some (s.onDocument v.document Page.Document.newChannel^[k]) := by
  induction k generalizing s with
  | zero =>
      show some s = _
      rw [Function.iterate_zero, onDocument, List.modify_id]
  | succ k ih =>
      have hstep : (bridgeSystem commands).step s (.newChannel w) =
          some (s.onDocument v.document Page.Document.newChannel) := by
        show s.newChannel w = _
        simp [newChannel, hv]
      have hrest := ih (s := s.onDocument v.document Page.Document.newChannel) hv
      rw [List.replicate_succ, System.run_cons, hstep, Option.bind_some, hrest,
        onDocument_onDocument, Function.iterate_succ]

theorem newChannels_callbackIdCounter (k : Nat) :
    (Page.Document.newChannel^[k] {}).callbackIdCounter = k := by
  induction k with
  | zero => rfl
  | succ k ih =>
      rw [Function.iterate_succ_apply']
      show (Page.Document.newChannel^[k] {}).callbackIdCounter + 1 = k + 1
      rw [ih]

/-- Its last channel is registered under the id before its counter. -/
theorem newChannels_answersTo (k : Nat) :
    (Page.Document.newChannel^[k + 1] {}).answersTo k = true := by
  rw [Function.iterate_succ_apply']
  simp [Page.Document.newChannel, Page.Document.transformCallback, Page.Document.answersTo,
    newChannels_callbackIdCounter]

theorem evaluate_delivers {i : Nat} {p : Script} {v : WebView} {d : Page.Document}
    (hp : s.scripts[i]? = some p) (hv : s.live p.webview = some v) (hk : p.kind = .message)
    (hd : s.documents[v.document]? = some d) (ha : d.answersTo p.id = true) :
    ∃ s', s.evaluate i = some s' ∧ ⟨p.owner, v.document⟩ ∈ s'.deliveries := by
  refine ⟨deliver { s with scripts := s.scripts.eraseIdx i } v.document p.id p.owner, ?_, ?_⟩
  · simp [evaluate, hp, hv, hk]
  · simp [State.deliver, hd, ha]

/-- Whenever the page is left while a Rust `Channel` of it is held, the run can go
on to a delivery to the next page: as soon as that has registered as many
callbacks, a message of the old channel finds one of them. -/
theorem held_channel_reaches_next_page {c : Nat} {v : Channel} (hc : s.channels[c]? = some v)
    (hl : v.live = true) (ha : s.isAlive v.webview = true) :
    ∃ as s', (bridgeSystem commands).run s (.navigate v.webview :: as) = some s' ∧
      { owner := v.owner, receiver := s.documents.length } ∈ s'.deliveries := by
  obtain ⟨u, hu⟩ := live_of_isAlive ha
  obtain ⟨hw, halive⟩ := live_eq_some.1 hu
  let n := s.documents.length
  let left : State := { s with
    webviews := s.webviews.modify v.webview fun u => { u with document := n }
    documents := s.documents ++ [{}] }
  let page : State := left.onDocument n Page.Document.newChannel^[v.id + 1]
  have hleft : (bridgeSystem commands).step s (.navigate v.webview) = some left := by
    show s.navigate v.webview = some left
    simp [navigate, hu, left, n]
  have hlive : left.live v.webview = some { u with document := n } :=
    live_eq_some.2 ⟨by simp [left, hw], halive⟩
  have hpage : (bridgeSystem commands).run left (List.replicate (v.id + 1) _) = some page :=
    run_newChannels (v.id + 1) hlive
  have hdoc : page.documents[n]? = some (Page.Document.newChannel^[v.id + 1] {}) := by
    simp [page, left, onDocument, n]
  have hposted : page.post c false = some (page.postScript v false) := by
    have hc : page.channels[c]? = some v := hc
    simp [post, hc, hl]
  have hscripts : (page.postScript v false).scripts[s.scripts.length]? =
      some { webview := v.webview, id := v.id, owner := v.owner, kind := .message } := by
    have halive : page.isAlive v.webview = true := isAlive_of_live hlive
    have hs : page.scripts = s.scripts := rfl
    simp [postScript, halive, hs]
  have hlive' : (page.postScript v false).live v.webview = some { u with document := n } := by
    rw [live, postScript_webviews]
    exact hlive
  rw [← postScript_documents page v false] at hdoc
  obtain ⟨s', hs', hmem⟩ :=
    evaluate_delivers hscripts hlive' rfl hdoc (newChannels_answersTo v.id)
  refine ⟨List.replicate (v.id + 1) (.newChannel v.webview) ++
    [.post c false, .evaluate s.scripts.length], s', ?_, hmem⟩
  rw [System.run_cons, hleft, Option.bind_some, System.run_append, hpage, Option.bind_some,
    System.run_cons]
  show (page.post c false).bind _ = _
  rw [hposted, Option.bind_some, System.run_cons]
  show ((page.postScript v false).evaluate s.scripts.length).bind _ = _
  rw [hs']
  rfl

end State

end Wxp.Bridge
