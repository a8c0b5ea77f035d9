import Wxp.Android.MainPipe

/-!
# Android — Transitions

What one step can do (`step_cases`), and what the handling of a message leaves alone
(`SameQueue`): the channel, the pipe, the threads, and which thread made which request.
-/

namespace Wxp.Android

variable {s s' : State}

/-- The channel, the pipe and the threads are the same, and so are the requests but for what
became of them. -/
structure SameQueue (s s' : State) : Prop where
  channel : s'.channel = s.channel
  bytes : s'.bytes = s.bytes
  threads : s'.threads = s.threads
  begun : s'.begun = s.begun
  accepted : s'.accepted = s.accepted
  handled : s'.handled = s.handled
  nextRequest : s'.nextRequest = s.nextRequest
  nextView : s'.nextView = s.nextView
  thread : ∀ tx, (s'.requests tx).thread = (s.requests tx).thread

theorem SameQueue.refl (s : State) : SameQueue s s :=
  ⟨rfl, rfl, rfl, rfl, rfl, rfl, rfl, rfl, fun _ => rfl⟩

theorem SameQueue.trans {s₁ s₂ s₃ : State} (h : SameQueue s₁ s₂) (h' : SameQueue s₂ s₃) :
    SameQueue s₁ s₃ where
  channel := h'.channel.trans h.channel
  bytes := h'.bytes.trans h.bytes
  threads := h'.threads.trans h.threads
  begun := h'.begun.trans h.begun
  accepted := h'.accepted.trans h.accepted
  handled := h'.handled.trans h.handled
  nextRequest := h'.nextRequest.trans h.nextRequest
  nextView := h'.nextView.trans h.nextView
  thread tx := (h'.thread tx).trans (h.thread tx)

namespace State

@[simp] theorem setRequest_requests (s : State) (tx tx' : RequestId) (phase : RequestPhase) :
    (s.setRequest tx phase).requests tx' =
      if tx' = tx then { s.requests tx with phase } else s.requests tx' := by
  simp only [setRequest, Function.update_apply]

@[simp] theorem setProxy_proxies (s : State) (a b : ActivityId)
    (proxy : Option (Option ViewId)) :
    (s.setProxy a proxy).proxies b = if b = a then proxy else s.proxies b := by
  simp only [setProxy, Function.update_apply]

theorem sameQueue_setRequest (s : State) (tx : RequestId) (phase : RequestPhase) :
    SameQueue s (s.setRequest tx phase) where
  channel := rfl
  bytes := rfl
  threads := rfl
  begun := rfl
  accepted := rfl
  handled := rfl
  nextRequest := rfl
  nextView := rfl
  thread tx' := by
    rw [setRequest_requests]
    split
    · next h => rw [h]
    · rfl

theorem sameQueue_reply (s : State) (tx : RequestId) : SameQueue s (s.reply tx) := by
  simp only [reply]
  split
  · exact sameQueue_setRequest s tx _
  all_goals exact ⟨rfl, rfl, rfl, rfl, rfl, rfl, rfl, rfl, fun _ => rfl⟩

theorem sameQueue_disconnect (s : State) (m : WebViewMessage) : SameQueue s (s.disconnect m) := by
  simp only [disconnect]
  split
  · split
    · exact sameQueue_setRequest s _ _
    all_goals exact .refl s
  · exact .refl s

theorem sameQueue_perform (s : State) (v : ViewId) (m : WebViewMessage) (ok : Bool) :
    SameQueue s (s.perform v m ok) := by
  have hrecord : SameQueue s (s.record v m) := ⟨rfl, rfl, rfl, rfl, rfl, rfl, rfl, rfl, fun _ => rfl⟩
  have hreply := fun tx => hrecord.trans (sameQueue_reply (s.record v m) tx)
  have hother : SameQueue s (if ok then s.record v m else s.unregister) := by
    split
    · exact hrecord
    · exact ⟨rfl, rfl, rfl, rfl, rfl, rfl, rfl, rfl, fun _ => rfl⟩
  cases m with
  | getUrl tx => exact hreply tx
  | getCookies tx url =>
      simp only [perform]
      split
      · exact hreply tx
      · have hd := sameQueue_disconnect s (.getCookies tx url)
        exact ⟨hd.1, hd.2, hd.3, hd.4, hd.5, hd.6, hd.7, hd.8, hd.9⟩
  | createWebView | eval | setBackgroundColor | getWebViewVersion | jni | loadUrl | loadHtml
  | reload | clearAllBrowsingData | onDestroy => exact hother

theorem sameQueue_withWebview (s : State) (a : ActivityId) (m : WebViewMessage) (ok : Bool) :
    SameQueue s (s.withWebview a m ok) := by
  simp only [withWebview]
  split
  · exact ⟨rfl, rfl, rfl, rfl, rfl, rfl, rfl, rfl, fun _ => rfl⟩
  · exact sameQueue_disconnect s m
  · exact sameQueue_perform s _ m ok

theorem sameQueue_handle (s : State) (a : ActivityId) (m : WebViewMessage) (ok : Bool) :
    SameQueue s (s.handle a m ok) := by
  cases m with
  | createWebView v =>
      simp only [handle]
      split
      · exact .refl s
      · split <;> exact ⟨rfl, rfl, rfl, rfl, rfl, rfl, rfl, rfl, fun _ => rfl⟩
  | getWebViewVersion tx => exact sameQueue_reply s tx
  | jni => exact ⟨rfl, rfl, rfl, rfl, rfl, rfl, rfl, rfl, fun _ => rfl⟩
  | onDestroy v isChangingConfigurations =>
      simp only [handle]
      split <;> exact ⟨rfl, rfl, rfl, rfl, rfl, rfl, rfl, rfl, fun _ => rfl⟩
  | eval | setBackgroundColor | getUrl | getCookies | loadUrl | loadHtml | reload
  | clearAllBrowsingData => exact sameQueue_withWebview s a _ ok

end State

/-- What a send is preceded by, and where its thread is. -/
inductive Prepared (s : State) : Action → Pc → Sent → State → Prop
  | send (t : Nat) (a : ActivityId) (m : WebViewMessage) : m.isOperation = true →
      Prepared s (.send t a m) .idle ⟨t, a, m⟩ s
  | request (t : Nat) (a : ActivityId) (q : Query) :
      (q = .webviewVersion → (s.proxies a).isSome = true) →
      Prepared s (.request t a q) q.start ⟨t, a, q.message s.nextRequest⟩ (s.addRequest t)
  | new (t : Nat) (a : ActivityId) : (s.proxies a).isSome = true →
      Prepared s (.new t a) .idle ⟨t, a, .createWebView s.nextView⟩ { s with
        attributes := Function.update s.attributes a (some s.nextView)
        nextView := s.nextView + 1 }
  | androidSetup (a : ActivityId) (v : ViewId) : s.attributes a = some v →
      Prepared s (.androidSetup a) .idle ⟨0, a, .createWebView v⟩ (s.registerActivityProxy a)
  | onWebviewDestroy (a : ActivityId) (v : ViewId) (changing : Bool) :
      Prepared s (.onWebviewDestroy a v changing) .idle ⟨0, a, .onDestroy v changing⟩ s

/-- What one step can do. -/
inductive Step (s : State) : Action → State → Prop
  | spawn : Step s .spawn { s with threads := s.threads ++ [.idle] }
  | seek (t : Nat) : s.threads[t]? = some .idle → Step s (.seek t) (s.setPc t .seeking)
  | begin (act : Action) (pc : Pc) (x : Sent) (s₁ : State) : s.threads[x.thread]? = some pc →
      Prepared s act pc x s₁ → Step s act (s₁.begin x)
  | androidSetup (a : ActivityId) : s.threads[0]? = some .idle → s.attributes a = none →
      Step s (.androidSetup a) (s.registerActivityProxy a)
  | wryCreate : s.threads[0]? = some .idle → s.stack = [] →
      Step s .wryCreate { s with registered := true }
  | push (t : Nat) (x : Sent) : s.threads[t]? = some (.pushing x) →
      s.channel.length < capacity →
      Step s (.push t) { s.setPc t (.writing x) with
        channel := s.channel ++ [x], accepted := s.accepted ++ [x] }
  | write (t : Nat) (x : Sent) : s.threads[t]? = some (.writing x) →
      Step s (.write t)
        { s.setPc t (x.message.tx.elim .idle .awaiting) with bytes := s.bytes + 1 }
  | read : s.registered = true → s.threads[0]? = some .idle → 0 < s.bytes →
      Step s .read { s.setPc 0 .receiving with bytes := s.bytes - 1 }
  | recv (ok : Bool) (x : Sent) (rest : List Sent) : s.threads[0]? = some .receiving →
      s.channel = x :: rest →
      Step s (.recv ok) (State.handle
        { s.setPc 0 .idle with channel := rest, handled := s.handled ++ [x] }
        x.activity x.message ok)
  | endJni (ok : Bool) (rest : List Frame) : s.threads[0]? = some .idle →
      s.stack = .jni :: rest → Step s (.endFrame ok) { s with stack := rest }
  | created (a : ActivityId) (v : ViewId) (rest : List Frame) : s.threads[0]? = some .idle →
      s.stack = .creating a v :: rest → (s.proxies a).isSome = true →
      Step s (.endFrame true) (State.setProxy { s with stack := rest } a (some (some v)))
  | uncreated (a : ActivityId) (v : ViewId) (rest : List Frame) : s.threads[0]? = some .idle →
      s.stack = .creating a v :: rest → s.proxies a = none →
      Step s (.endFrame true) (State.panic { s with stack := rest })
  | failed (a : ActivityId) (v : ViewId) (rest : List Frame) : s.threads[0]? = some .idle →
      s.stack = .creating a v :: rest →
      Step s (.endFrame false) (State.unregister { s with stack := rest })
  | resume (t : Nat) (tx : RequestId) : s.threads[t]? = some (.awaiting tx) →
      (s.requests tx).phase ≠ .waiting → Step s (.resume t) (s.setPc t .idle)
  | timeout (t : Nat) (tx : RequestId) : s.threads[t]? = some (.awaiting tx) →
      (s.requests tx).phase = .waiting →
      Step s (.timeout t) ((s.setPc t .idle).setRequest tx .timedOut)

theorem Prepared.pc_cases {act : Action} {pc : Pc} {x : Sent} {s₁ : State}
    (h : Prepared s act pc x s₁) : pc = .idle ∨ pc = .seeking := by
  cases h with
  | request t a q =>
      cases q with
      | webviewVersion => exact .inr rfl
      | url | cookiesForUrl => exact .inl rfl
  | send | new | androidSetup | onWebviewDestroy => exact .inl rfl

theorem mainIdle_iff : s.mainIdle = true ↔ s.threads[0]? = some .idle := by
  simp [State.mainIdle]

theorem javaCalls_iff : s.javaCalls = true ↔ s.threads[0]? = some .idle ∧ s.stack = [] := by
  simp [State.javaCalls, mainIdle_iff]

theorem endFrame_cases {ok : Bool} (h0 : s.threads[0]? = some .idle)
    (h : s.endFrame ok = some s') : Step s (.endFrame ok) s' := by
  simp only [State.endFrame] at h
  split at h
  · next rest hs =>
      cases h
      exact .endJni ok rest h0 hs
  · next a v rest hs =>
      split at h
      · next hok =>
          subst hok
          split at h
          · next hp =>
              cases h
              exact .uncreated a v rest h0 hs hp
          · next w hp =>
              cases h
              exact .created a v rest h0 hs (by simp [show s.proxies a = some w from hp])
      · next hok =>
          cases h
          rw [Bool.not_eq_true] at hok
          subst hok
          exact .failed a v rest h0 hs
  · cases h

theorem step_cases {act : Action} (h : step s act = some s') :
    s.panicked = false ∧ Step s act s' := by
  simp only [step] at h
  split at h
  · cases h
  next hpanicked =>
  refine ⟨by simpa using hpanicked, ?_⟩
  cases act with
  | spawn =>
      cases h
      exact .spawn
  | send t a m =>
      simp only [Option.ite_none_right_eq_some, Option.some.injEq] at h
      obtain ⟨⟨ht, hm⟩, rfl⟩ := h
      exact .begin _ _ _ _ ht (.send t a m hm)
  | seek t =>
      simp only [Option.ite_none_right_eq_some, Option.some.injEq] at h
      obtain ⟨ht, rfl⟩ := h
      exact .seek t ht
  | request t a q =>
      simp only [Option.ite_none_right_eq_some, Option.some.injEq] at h
      obtain ⟨⟨ht, ha⟩, rfl⟩ := h
      exact .begin _ _ _ _ ht (.request t a q ha)
  | new t a =>
      simp only [Option.ite_none_right_eq_some, Option.some.injEq] at h
      obtain ⟨⟨ht, ha⟩, rfl⟩ := h
      exact .begin _ _ _ _ ht (.new t a ha)
  | androidSetup a =>
      simp only [Option.ite_none_right_eq_some, javaCalls_iff] at h
      obtain ⟨⟨h0, -⟩, h⟩ := h
      split at h
      · next v hv =>
          cases h
          exact .begin _ _ _ _ h0 (.androidSetup a v hv)
      · next hv =>
          cases h
          exact .androidSetup a h0 hv
  | onWebviewDestroy a v changing =>
      simp only [Option.ite_none_right_eq_some, javaCalls_iff, Option.some.injEq] at h
      obtain ⟨⟨h0, -⟩, rfl⟩ := h
      exact .begin _ _ _ _ h0 (.onWebviewDestroy a v changing)
  | wryCreate =>
      simp only [Option.ite_none_right_eq_some, javaCalls_iff, Option.some.injEq] at h
      obtain ⟨⟨h0, hs⟩, rfl⟩ := h
      exact .wryCreate h0 hs
  | push t =>
      simp only [State.push] at h
      split at h
      · next x hx =>
          simp only [Option.ite_none_right_eq_some, Option.some.injEq] at h
          obtain ⟨hroom, rfl⟩ := h
          exact .push t x hx hroom
      · cases h
  | write t =>
      simp only [State.write] at h
      split at h
      · next x hx =>
          cases h
          exact .write t x hx
      · cases h
  | read =>
      simp only [Option.ite_none_right_eq_some, Bool.and_eq_true, mainIdle_iff,
        decide_eq_true_eq, Option.some.injEq] at h
      obtain ⟨⟨⟨hr, h0⟩, hb⟩, rfl⟩ := h
      exact .read hr h0 hb
  | recv ok =>
      simp only [State.recv] at h
      split at h
      · next x rest h0 hc =>
          cases h
          exact .recv ok x rest h0 hc
      · cases h
  | endFrame ok =>
      simp only [Option.ite_none_right_eq_some, mainIdle_iff] at h
      exact endFrame_cases h.1 h.2
  | resume t =>
      simp only [State.resume] at h
      split at h
      · next tx ht =>
          split at h
          · cases h
          · next hp =>
              cases h
              exact .resume t tx ht hp
      · cases h
  | timeout t =>
      simp only [State.timeout] at h
      split at h
      · next tx ht =>
          simp only [Option.ite_none_right_eq_some, Option.some.injEq] at h
          obtain ⟨hp, rfl⟩ := h
          exact .timeout t tx ht hp
      · cases h

end Wxp.Android
