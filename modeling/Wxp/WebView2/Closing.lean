import Wxp.WebView2.Controllers

/-!
# WebView2 — nothing is asked of a closed controller

`Close` is the last call a controller receives, unless its owner is dropped while
`finish_create_controller` replays the operations that came too early: what is left of
them goes to the closed controller (`close_last`).
-/

namespace Wxp.WebView2

open State

variable (refused : WebViewId → Bool) {s s' : State} {w w' : WebViewId}

def Stage.isReplaying : Stage → Bool
  | .replaying _ _ => true
  | _ => false

/-- The condition on a step: no web view is dropped by the host while the last statements
of `finish_create_controller` run for it. -/
def dropsOutsideReplay (s : State) : Action → Prop
  | .op w .drop => (s.webviews w).stage.isReplaying = false
  | _ => True

instance (s : State) (a : Action) : Decidable (dropsOutsideReplay s a) :=
  match a with
  | .op w .drop => inferInstanceAs (Decidable ((s.webviews w).stage.isReplaying = false))
  | .op _ (.setBounds _) | .op _ (.setVisible _) | .op _ (.loadUrl _)
  | .op _ (.loadUrlWithHeaders _ _) | .op _ (.loadHtml _) | .op _ (.eval _) | .op _ .reload
  | .op _ (.zoom _) | .op _ .focus | .new _ _ | .environmentCompleted _ _
  | .controllerCompleted _ _ | .initialized _ _ | .replay _ => isTrue trivial

/-- The step calls open controllers only, and what it closes it does not call again. -/
structure Closing (s s' : State) : Prop where
  stays : ∀ c, s.closes c ≠ 0 → s'.controllers c = s.controllers c
  ends : ∀ c, s.closes c = 0 → s'.closes c ≠ 0 → (s'.controllers c).getLast? = some .close

theorem closing_of_eq (h : s'.controllers = s.controllers) : Closing s s' :=
  ⟨fun c _ => by rw [h], fun c hz hn => absurd hz (by rwa [closes, h] at hn)⟩

theorem closing_call {s₁ : State} {c : ControllerId} {calls : List Call} (hz : s.closes c = 0)
    (hl : calls.count .close = 0 ∨ calls.getLast? = some .close)
    (h : s'.controllers = (s₁.call c calls).controllers) (h₁ : s₁.controllers = s.controllers) :
    Closing s s' := by
  have hview : ∀ c', s'.controllers c' =
      if c' = c then s.controllers c ++ calls else s.controllers c' := by
    intro c'
    simp only [h, call, Function.update_apply, h₁]
  refine ⟨fun c' hn => ?_, fun c' hz' hn => ?_⟩
  · rw [hview, if_neg]
    rintro rfl
    exact hn hz
  · rw [closes, hview] at hn
    rw [hview]
    split at hn
    · next heq =>
        rw [if_pos heq]
        obtain hl | hl := hl
        · rw [List.count_append, hl, show (s.controllers c).count .close = 0 from hz] at hn
          exact absurd rfl hn
        · rw [List.getLast?_append, hl]
          rfl
    · exact absurd hz' hn

theorem applyOp_controllers (s : State) (w : WebViewId) (o : Op) :
    (s.applyOp w o).controllers = s.controllers ∨ ∃ c call,
      ((s.webviews w).state.controller = some c ∨ (s.webviews w).state.webview = some c) ∧
        (s.applyOp w o).controllers = (s.call c [call]).controllers := by
  have hready : ∀ (handle : Option ControllerId) (call : Call),
      (handle = (s.webviews w).state.controller ∨ handle = (s.webviews w).state.webview) →
        (s.callIfReady handle call).controllers = s.controllers ∨ ∃ c call',
          ((s.webviews w).state.controller = some c ∨ (s.webviews w).state.webview = some c) ∧
            (s.callIfReady handle call).controllers = (s.call c [call']).controllers := by
    intro handle call hh
    cases handle with
    | none => exact .inl rfl
    | some c => exact .inr ⟨c, call, hh.imp Eq.symm Eq.symm, rfl⟩
  have hload : ∀ n : PendingNavigation, (s.load w n).controllers = s.controllers ∨ ∃ c call,
      ((s.webviews w).state.controller = some c ∨ (s.webviews w).state.webview = some c) ∧
        (s.load w n).controllers = (s.call c [call]).controllers := by
    intro n
    simp only [load]
    split
    · next c hc => exact .inr ⟨c, _, .inr hc, rfl⟩
    · exact .inl rfl
  cases o with
  | setBounds b =>
      simp only [applyOp, setBoundsInner]
      split
      · next c hc => exact .inr ⟨c, _, .inl hc, rfl⟩
      · exact .inl rfl
  | setVisible visible =>
      simp only [applyOp, State.setVisible]
      split
      · next c hc => exact .inr ⟨c, _, .inl hc, rfl⟩
      · exact .inl rfl
  | loadUrl url => exact hload _
  | loadUrlWithHeaders url headers =>
      simp only [applyOp, loadUrlWithHeaders]
      split
      · next c _ hc => exact .inr ⟨c, _, .inr hc, rfl⟩
      · exact .inl rfl
  | loadHtml html => exact hload _
  | eval js => exact hready _ _ (.inr rfl)
  | reload => exact hready _ _ (.inr rfl)
  | zoom factor => exact hready _ _ (.inl rfl)
  | focus => exact hready _ _ (.inl rfl)
  | drop =>
      simp only [applyOp, State.drop]
      split
      · next c hc => exact .inr ⟨c, _, .inl hc, rfl⟩
      · exact .inl rfl

theorem perform_controllers (s : State) (w : WebViewId) (c : ControllerId) (r : Replay) :
    (s.perform w c r).controllers = s.controllers ∨
      ∃ call, (s.perform w c r).controllers = (s.call c [call]).controllers := by
  cases r with
  | showWindow visible => exact .inl rfl
  | setIsVisible visible => exact .inr ⟨_, rfl⟩
  | bounds b => exact .inr ⟨_, rfl⟩
  | navigation n => exact .inr ⟨_, rfl⟩

theorem count_or_getLast (call : Call) :
    [call].count .close = 0 ∨ [call].getLast? = some .close := by
  by_cases h : call = .close
  · exact .inr (by simp [h])
  · exact .inl (by simp [h])

theorem Closing.of_eq {s₁ : State} (h : Closing s₁ s') (he : s₁.controllers = s.controllers) :
    Closing s s' :=
  ⟨fun c hn => by
    rw [← he]
    exact h.stays c (by rwa [closes, he]),
  fun c hz hn => h.ends c (by rwa [closes, he]) hn⟩

theorem Owned.closing_applyOp (hs : Owned s) (w : WebViewId) (o : Op) :
    Closing s (s.applyOp w o) := by
  obtain h | ⟨c, call, hc, h⟩ := applyOp_controllers s w o
  · exact closing_of_eq h
  · rw [(hs.handles w).1, or_self] at hc
    exact closing_call (hs.held w c hc).2.2.2 (count_or_getLast call) h rfl

theorem call_call (s : State) (c : ControllerId) (l l' : List Call) :
    (s.call c l).call c l' = s.call c (l ++ l') := by
  simp [call]

theorem Owned.closing_initialized (hs : Owned s) {env : EnvironmentId} {c : ControllerId}
    {visible : Bool} (hw : (s.webviews w).stage = .initializing env c visible)
    (failedAfter : Option Nat) : Closing s (s.initialized w env c visible failedAfter) := by
  have hz := (hs.initializing w env c visible hw).2.2.2
  have hclose : ((s.webviews w).attributes.initCalls visible).count .close = 0 :=
    List.count_eq_zero.2 (initCalls_close _ visible)
  simp only [State.initialized]
  split
  · rw [call_call]
    exact closing_call hz (.inr (by simp)) rfl rfl
  · simp only [takePending]
    split
    · rw [call_call]
      exact closing_call hz (.inr (by simp)) rfl rfl
    · exact closing_call hz (.inl hclose) rfl rfl

theorem closing_step {a : Action} (hser : Serialised s) (hs : Owned s)
    (hr : ∀ w c rest, (s.webviews w).stage = .replaying c rest →
      (s.webviews w).state.alive = true)
    (hst : step refused s a = some s') : Closing s s' := by
  cases a with
  | new attrs b =>
      cases hst
      have hserv := hser.addWebView (v := .created attrs) rfl
      have hown := hs.addWebView (v := .created attrs) rfl ⟨rfl, rfl, rfl⟩
      simp only [State.new]
      split
      · refine ((owned_enqueue refused hserv hown ?_).closing_applyOp _ (.setBounds b)).of_eq ?_
        · simp [WebView.created]
        · exact (advanced_enqueue refused _ _).controllers
      · exact (hown.closing_applyOp _ (.setBounds b)).of_eq rfl
  | op w o =>
      simp only [step] at hst
      split at hst
      · cases hst
        exact hs.closing_applyOp w o
      · cases hst
  | environmentCompleted w env =>
      simp only [step] at hst
      split at hst
      · cases hst
        exact closing_of_eq (advanced_enqueue refused s _).controllers
      · cases hst
        exact closing_of_eq rfl
      · cases hst
  | controllerCompleted w ok =>
      simp only [step] at hst
      split at hst
      · next env hw =>
          cases hst
          have hadv := advanced_complete refused s.queue.pending (s.setStage w .settled)
          simp only [controllerCompleted]
          split
          · simp only [beginFinish]
            split
            · have hnew : s.closes s.nextController = 0 := hs.new _ (Nat.le_refl _)
              have hlast : ([.close] : List Call).getLast? = some .close := rfl
              refine closing_call hnew (.inr hlast) ?_ hadv.controllers
              rw [← show _ = s.nextController from hadv.nextController]
              rfl
            · exact closing_of_eq hadv.controllers
          · exact closing_of_eq hadv.controllers
      · cases hst
  | initialized w failedAfter =>
      simp only [step] at hst
      split at hst
      · next env c visible hw =>
          cases hst
          exact hs.closing_initialized hw failedAfter
      · cases hst
  | replay w =>
      simp only [step] at hst
      split at hst
      · next c r rest hw =>
          cases hst
          have hc := (hs.replaying w c _ hw).2.2 (hr w c _ hw)
          obtain h | ⟨call, h⟩ := perform_controllers s w c r
          · exact closing_of_eq h
          · exact closing_call (hs.held w c hc).2.2.2 (count_or_getLast call) h rfl
      · cases hst

/-- While the last statements of `finish_create_controller` run, the owner is there. -/
def ReplaysAlive (s : State) : Prop :=
  ∀ w c rest, (s.webviews w).stage = .replaying c rest → (s.webviews w).state.alive = true

theorem State.Advanced.replaysAlive {ts : List Task} (h : Advanced ts s s')
    (hr : ReplaysAlive s) : ReplaysAlive s' := by
  intro w c rest hw
  have hst : (s'.webviews w).stage = (s.webviews w).stage := by
    obtain hst | ⟨_, hq⟩ := h.stage w
    · exact hst
    · obtain he | he := early_of_queued hq <;> simp [hw, Stage.early] at he
  rw [h.webview w]
  exact hr w c rest (hst ▸ hw)

theorem State.KeepsHandles.replaysAlive (h : KeepsHandles s s') (hr : ReplaysAlive s) :
    ReplaysAlive s' := by
  intro w c rest hw
  rw [h.alive]
  exact hr w c rest (h.stage w ▸ hw)

theorem ReplaysAlive.setStage (hr : ReplaysAlive s) {g : Stage}
    (hg : g.isReplaying = true → (s.webviews w).state.alive = true) :
    ReplaysAlive (s.setStage w g) := by
  intro w' c rest hw'
  rw [setStage_webviews] at hw' ⊢
  split at hw'
  · next heq =>
      have hgr : g = .replaying c rest := hw'
      rw [if_pos heq]
      exact hg (by rw [hgr]; rfl)
  · next hne =>
      rw [if_neg hne]
      exact hr w' c rest hw'

theorem replaysAlive_step {a : Action} (hr : ReplaysAlive s) (hok : dropsOutsideReplay s a)
    (hst : step refused s a = some s') : ReplaysAlive s' := by
  cases a with
  | new attrs b =>
      cases hst
      have hnew : ReplaysAlive (s.addWebView (.created attrs)) := by
        intro w c rest hw
        rw [addWebView_webviews] at hw ⊢
        split at hw
        · cases hw
        · next hne =>
            rw [if_neg hne]
            exact hr w c rest hw
      simp only [State.new]
      refine (keepsHandles_setBoundsInner _ _ b).replaysAlive ?_
      split
      · exact (advanced_enqueue refused _ _).replaysAlive hnew
      · exact hnew
  | op w o =>
      simp only [step] at hst
      split at hst
      · cases hst
        by_cases ho : o = .drop
        · subst ho
          intro w' c rest hw'
          rw [show s.applyOp w .drop = s.drop w from rfl, (operates_drop s w).stage] at hw'
          have hne : w' ≠ w := by
            rintro rfl
            simp [dropsOutsideReplay, hw', Stage.isReplaying] at hok
          have hstate : ((s.drop w).webviews w').state = (s.webviews w').state := by
            simp only [State.drop]
            split <;> simp only [call_webviews, setInner_webviews, if_neg hne]
          rw [show s.applyOp w .drop = s.drop w from rfl, hstate]
          exact hr w' c rest hw'
        · exact (keepsHandles_applyOp s w ho).replaysAlive hr
      · cases hst
  | environmentCompleted w env =>
      simp only [step] at hst
      split at hst
      · cases hst
        exact (advanced_enqueue refused s _).replaysAlive hr
      · cases hst
        exact hr.setStage (by simp [Stage.isReplaying])
      · cases hst
  | controllerCompleted w ok =>
      simp only [step] at hst
      split at hst
      · cases hst
        have hcomplete := (advanced_complete refused s.queue.pending
          (s.setStage w .settled)).replaysAlive (hr.setStage (by simp [Stage.isReplaying]))
        simp only [controllerCompleted]
        split
        · have hnew : ReplaysAlive ((completeControllerCreation refused s.queue.pending
              (s.setStage w .settled)).newController w) := hcomplete
          simp only [beginFinish]
          split
          · refine ReplaysAlive.setStage ?_ (by simp [Stage.isReplaying])
            exact hnew
          · exact hnew.setStage (by simp [Stage.isReplaying])
        · exact hcomplete
      · cases hst
  | initialized w failedAfter =>
      simp only [step] at hst
      split at hst
      · next env c visible hw =>
          cases hst
          simp only [State.initialized]
          split
          · exact ReplaysAlive.setStage (s := State.call (State.call s c _) c _) hr
              (by simp [Stage.isReplaying])
          · simp only [takePending]
            split
            · exact ReplaysAlive.setStage (s := State.call (State.call s c _) c _) hr
                (by simp [Stage.isReplaying])
            · next ha =>
                have halive : (s.webviews w).state.alive = true := by simpa using ha
                intro w' c' rest hw'
                simp only [setStage_webviews, setInner_webviews, call_webviews] at hw' ⊢
                split
                · simpa using halive
                · next hne =>
                    rw [if_neg hne, if_neg hne] at hw'
                    exact hr w' c' rest hw'
      · cases hst
  | replay w =>
      simp only [step] at hst
      split at hst
      · next c r rest hw =>
          cases hst
          have hk := keepsHandles_perform s w c r
          refine (hk.replaysAlive hr).setStage fun _ => ?_
          rw [hk.alive]
          exact hr w c _ hw
      · cases hst

/-- In every run in which no web view is dropped while `finish_create_controller` replays
for it, `Close` is the last call a controller receives. -/
theorem close_last (refused : WebViewId → Bool) {s : State}
    (hs : (thread refused).ReachVia dropsOutsideReplay s) {c : ControllerId}
    (hc : s.closes c ≠ 0) : (s.controllers c).getLast? = some .close := by
  have h : ReplaysAlive s ∧ ∀ c, s.closes c ≠ 0 → (s.controllers c).getLast? = some .close := by
    refine System.ReachVia.invariant (S := thread refused)
      (I := fun s => ReplaysAlive s ∧ ∀ c, s.closes c ≠ 0 →
        (s.controllers c).getLast? = some .close) ⟨?_, ?_⟩ ?_ hs
    · intro w c rest hw
      simp [thread] at hw
    · intro c hc
      exact absurd rfl hc
    · intro s a s' hreach h hok hst
      have hser := serialised_of_reachable refused hreach.reachable
      have hown := owned_of_reachable refused hreach.reachable
      have hclosing := closing_step refused hser hown h.1 hst
      refine ⟨replaysAlive_step refused h.1 hok hst, fun c hn => ?_⟩
      by_cases hz : s.closes c = 0
      · exact hclosing.ends c hz hn
      · rw [hclosing.stays c hz]
        exact h.2 c hz
  exact h.2 c hc

/-- A web view is dropped when its creation is done. -/
theorem close_last_dropped :
    ∃ s, (thread fun _ => false).ReachVia dropsOutsideReplay s ∧ s.closes 0 ≠ 0 ∧
      (s.controllers 0).getLast? = some .close := by
  obtain ⟨s, hs, hp⟩ : ∃ s, (thread fun _ => false).ReachVia dropsOutsideReplay s ∧
      (s.closes 0 == 1) = true :=
    System.exists_reachVia (S := thread fun _ => false)
      [.new {} ⟨0, 0, 0, 0⟩, .environmentCompleted 0 (some 0), .controllerCompleted 0 true,
        .initialized 0 none, .replay 0, .replay 0, .replay 0, .op 0 .drop]
      (fun s => s.closes 0 == 1) (by decide)
  have hc : s.closes 0 = 1 := by simpa using hp
  exact ⟨s, hs, by simp [hc], close_last (fun _ => false) hs (by simp [hc])⟩

end Wxp.WebView2
