import Wxp.WebView2.State

/-!
# WebView2 — what the operations leave alone

An operation on a web view touches neither the queue nor the stage of a creation
(`Operates`). Apart from the drop it leaves the handles alone, too, and closes nothing
(`KeepsHandles`).
-/

namespace Wxp.WebView2

variable {s s' : State}

namespace State

@[simp] theorem setWebView_webviews (s : State) (w : WebViewId) (v : WebView) (w' : WebViewId) :
    (s.setWebView w v).webviews w' = if w' = w then v else s.webviews w' := by
  simp only [setWebView, Function.update_apply]

@[simp] theorem addWebView_webviews (s : State) (v : WebView) (w' : WebViewId) :
    (s.addWebView v).webviews w' = if w' = s.nextWebView then v else s.webviews w' := by
  simp only [addWebView, setWebView_webviews]

@[simp] theorem setStage_webviews (s : State) (w : WebViewId) (g : Stage) (w' : WebViewId) :
    (s.setStage w g).webviews w' =
      if w' = w then { s.webviews w with stage := g } else s.webviews w' := by
  simp only [setStage, setWebView_webviews]

theorem setStage_stage (s : State) (w : WebViewId) (g : Stage) :
    ((s.setStage w g).webviews w).stage = g := by
  simp

@[simp] theorem setInner_webviews (s : State) (w : WebViewId) (i : WebViewState)
    (w' : WebViewId) :
    (s.setInner w i).webviews w' =
      if w' = w then { s.webviews w with state := i } else s.webviews w' := by
  simp only [setInner, setWebView_webviews]

@[simp] theorem setHwnd_webviews (s : State) (w : WebViewId) (h : Window) (w' : WebViewId) :
    (s.setHwnd w h).webviews w' =
      if w' = w then { s.webviews w with hwnd := h } else s.webviews w' := by
  simp only [setHwnd, setWebView_webviews]

@[simp] theorem call_webviews (s : State) (c : ControllerId) (calls : List Call) :
    (s.call c calls).webviews = s.webviews := rfl

@[simp] theorem setInner_controllers (s : State) (w : WebViewId) (i : WebViewState) :
    (s.setInner w i).controllers = s.controllers := rfl

@[simp] theorem setInner_panicked (s : State) (w : WebViewId) (i : WebViewState) :
    (s.setInner w i).panicked = s.panicked := rfl

@[simp] theorem setHwnd_controllers (s : State) (w : WebViewId) (h : Window) :
    (s.setHwnd w h).controllers = s.controllers := rfl

@[simp] theorem setHwnd_panicked (s : State) (w : WebViewId) (h : Window) :
    (s.setHwnd w h).panicked = s.panicked := rfl

@[simp] theorem call_panicked (s : State) (c : ControllerId) (calls : List Call) :
    (s.call c calls).panicked = s.panicked := rfl

/-! ## What is not part of the queue -/

/-- The step leaves the queue and its history alone, and the stages, too. -/
structure KeepsQueue (s s' : State) : Prop where
  queue : s'.queue = s.queue
  nextWebView : s'.nextWebView = s.nextWebView
  stage : ∀ w, (s'.webviews w).stage = (s.webviews w).stage

/-- Nor does it hand over a controller. -/
structure Operates (s s' : State) : Prop extends KeepsQueue s s' where
  nextController : s'.nextController = s.nextController
  owner : s'.owner = s.owner

theorem Operates.trans {s₁ s₂ s₃ : State} (h : Operates s₁ s₂) (h' : Operates s₂ s₃) :
    Operates s₁ s₃ where
  queue := h'.queue.trans h.queue
  nextWebView := h'.nextWebView.trans h.nextWebView
  nextController := h'.nextController.trans h.nextController
  owner := h'.owner.trans h.owner
  stage w := (h'.stage w).trans (h.stage w)

theorem operates_setInner (s : State) (w : WebViewId) (i : WebViewState) :
    Operates s (s.setInner w i) := by
  refine ⟨⟨rfl, rfl, fun w' => ?_⟩, rfl, rfl⟩
  rw [setInner_webviews]
  split <;> simp_all

theorem operates_setHwnd (s : State) (w : WebViewId) (h : Window) :
    Operates s (s.setHwnd w h) := by
  refine ⟨⟨rfl, rfl, fun w' => ?_⟩, rfl, rfl⟩
  rw [setHwnd_webviews]
  split <;> simp_all

theorem operates_call (s : State) (c : ControllerId) (calls : List Call) :
    Operates s (s.call c calls) :=
  ⟨⟨rfl, rfl, fun _ => rfl⟩, rfl, rfl⟩

theorem operates_drop (s : State) (w : WebViewId) : Operates s (s.drop w) := by
  have h := operates_setInner s w
    { (s.webviews w).state with alive := false, controller := none, webview := none, env := none }
  simp only [drop]
  split
  · exact h.trans (operates_call _ _ _)
  · exact h

/-! ## The handles -/

/-- How often the controller was closed. -/
def closes (s : State) (c : ControllerId) : Nat := (s.controllers c).count .close

/-- The step leaves the handles alone, and closes nothing. -/
structure KeepsHandles (s s' : State) : Prop extends Operates s s' where
  alive : ∀ w, (s'.webviews w).state.alive = (s.webviews w).state.alive
  controller : ∀ w, (s'.webviews w).state.controller = (s.webviews w).state.controller
  webview : ∀ w, (s'.webviews w).state.webview = (s.webviews w).state.webview
  env : ∀ w, (s'.webviews w).state.env = (s.webviews w).state.env
  closes : ∀ c, s'.closes c = s.closes c

theorem KeepsHandles.trans {s₁ s₂ s₃ : State} (h : KeepsHandles s₁ s₂)
    (h' : KeepsHandles s₂ s₃) : KeepsHandles s₁ s₃ where
  toOperates := h.toOperates.trans h'.toOperates
  alive w := (h'.alive w).trans (h.alive w)
  controller w := (h'.controller w).trans (h.controller w)
  webview w := (h'.webview w).trans (h.webview w)
  env w := (h'.env w).trans (h.env w)
  closes c := (h'.closes c).trans (h.closes c)

@[simp] theorem closes_call (s : State) (c c' : ControllerId) (calls : List Call) :
    (s.call c calls).closes c' =
      if c' = c then s.closes c + calls.count .close else s.closes c' := by
  simp only [closes, call, Function.update_apply]
  split
  · rw [List.count_append]
  · rfl

theorem keepsHandles_call (s : State) (c : ControllerId) {calls : List Call}
    (h : calls.count .close = 0) : KeepsHandles s (s.call c calls) where
  toOperates := operates_call s c calls
  alive _ := rfl
  controller _ := rfl
  webview _ := rfl
  env _ := rfl
  closes c' := by
    rw [closes_call, h]
    split
    · next heq => rw [heq]; rfl
    · rfl

theorem keepsHandles_setHwnd (s : State) (w : WebViewId) (h : Window) :
    KeepsHandles s (s.setHwnd w h) := by
  have hstate : ∀ w', ((s.setHwnd w h).webviews w').state = (s.webviews w').state := by
    intro w'
    rw [setHwnd_webviews]
    split <;> simp_all
  exact ⟨operates_setHwnd s w h, fun w' => by rw [hstate], fun w' => by rw [hstate],
    fun w' => by rw [hstate], fun w' => by rw [hstate], fun _ => rfl⟩

theorem keepsHandles_setInner (s : State) (w : WebViewId) {i : WebViewState}
    (ha : i.alive = (s.webviews w).state.alive)
    (hc : i.controller = (s.webviews w).state.controller)
    (hv : i.webview = (s.webviews w).state.webview) (he : i.env = (s.webviews w).state.env) :
    KeepsHandles s (s.setInner w i) := by
  refine ⟨operates_setInner s w i, fun w' => ?_, fun w' => ?_, fun w' => ?_, fun w' => ?_,
    fun _ => rfl⟩ <;>
  · rw [setInner_webviews]
    split <;> simp_all

theorem keepsHandles_refl (s : State) : KeepsHandles s s :=
  ⟨⟨⟨rfl, rfl, fun _ => rfl⟩, rfl, rfl⟩, fun _ => rfl, fun _ => rfl, fun _ => rfl, fun _ => rfl,
    fun _ => rfl⟩

theorem keepsHandles_setBoundsInner (s : State) (w : WebViewId) (b : Bounds) :
    KeepsHandles s (s.setBoundsInner w b) := by
  simp only [setBoundsInner]
  split
  · exact (keepsHandles_call s _ rfl).trans (keepsHandles_setHwnd _ _ _)
  · exact (keepsHandles_setInner s w (i := { (s.webviews w).state with pendingBounds := some b })
      rfl rfl rfl rfl).trans (keepsHandles_setHwnd _ _ _)

theorem keepsHandles_setVisible (s : State) (w : WebViewId) (visible : Bool) :
    KeepsHandles s (s.setVisible w visible) := by
  have h := (keepsHandles_setInner s w (i := { (s.webviews w).state with visible })
    rfl rfl rfl rfl).trans (keepsHandles_setHwnd _ w
      { ((s.setInner w { (s.webviews w).state with visible }).webviews w).hwnd with
        shown := visible })
  simp only [setVisible]
  split
  · exact h.trans (keepsHandles_call _ _ rfl)
  · exact h

theorem keepsHandles_load (s : State) (w : WebViewId) (n : PendingNavigation) :
    KeepsHandles s (s.load w n) := by
  simp only [load]
  split
  · exact keepsHandles_call _ _ rfl
  · exact ⟨⟨⟨rfl, rfl, fun _ => rfl⟩, rfl, rfl⟩, fun _ => rfl, fun _ => rfl, fun _ => rfl,
      fun _ => rfl, fun _ => rfl⟩

theorem keepsHandles_loadUrlWithHeaders (s : State) (w : WebViewId) (n : PendingNavigation) :
    KeepsHandles s (s.loadUrlWithHeaders w n) := by
  simp only [loadUrlWithHeaders]
  split
  · exact keepsHandles_call _ _ rfl
  · exact keepsHandles_setInner _ _ rfl rfl rfl rfl

theorem keepsHandles_callIfReady (s : State) (handle : Option ControllerId) {call : Call}
    (h : call ≠ .close) : KeepsHandles s (s.callIfReady handle call) := by
  cases handle with
  | none => exact keepsHandles_refl s
  | some c => exact keepsHandles_call s c (by simp [h])

theorem keepsHandles_applyOp (s : State) (w : WebViewId) {o : Op} (ho : o ≠ .drop) :
    KeepsHandles s (s.applyOp w o) := by
  cases o with
  | setBounds b => exact keepsHandles_setBoundsInner s w b
  | setVisible visible => exact keepsHandles_setVisible s w visible
  | loadUrl url => exact keepsHandles_load s w _
  | loadUrlWithHeaders url headers => exact keepsHandles_loadUrlWithHeaders s w _
  | loadHtml html => exact keepsHandles_load s w _
  | eval js => exact keepsHandles_callIfReady s _ (by simp)
  | reload => exact keepsHandles_callIfReady s _ (by simp)
  | zoom factor => exact keepsHandles_callIfReady s _ (by simp)
  | focus => exact keepsHandles_callIfReady s _ (by simp)
  | drop => exact absurd rfl ho

theorem keepsHandles_perform (s : State) (w : WebViewId) (c : ControllerId) (r : Replay) :
    KeepsHandles s (s.perform w c r) := by
  cases r with
  | showWindow visible => exact keepsHandles_setHwnd s w _
  | setIsVisible visible => exact keepsHandles_call s c rfl
  | bounds b => exact (keepsHandles_call s c rfl).trans (keepsHandles_setHwnd _ w _)
  | navigation n => exact keepsHandles_call s c rfl

theorem operates_applyOp (s : State) (w : WebViewId) (o : Op) : Operates s (s.applyOp w o) := by
  by_cases ho : o = .drop
  · rw [ho]
    exact operates_drop s w
  · exact (keepsHandles_applyOp s w ho).toOperates

end State

end Wxp.WebView2
