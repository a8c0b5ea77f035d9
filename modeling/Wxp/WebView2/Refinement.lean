import Wxp.WebView2.Closing
import Wxp.Foundations.Simulation

/-!
# WebView2 — the asynchronous web view against a synchronous one

`Sync` says what the operations on a web view are for: it is there when `new` returns,
and each operation takes effect at once. The thread simulates it in every run that is
`undisturbed`: no operation comes while `finish_create_controller` is still replaying an
older one of its kind, and the operations that are not buffered come only when the web
view is there. A web view whose creation is done then shows what was asked for last
(`creation_refines_sync`).
-/

namespace Wxp.WebView2

open State

/-! ## The synchronous web view -/

namespace Sync

structure View where
  alive : Bool := false
  visible : Bool := false
  bounds : Option Bounds := none
  page : Option PendingNavigation := none
  /-- The other calls, in order. -/
  direct : List Call := []

structure State where
  views : WebViewId → View := fun _ => {}
  next : WebViewId := 0

inductive Action
  | new (a : Attributes) (b : Bounds)
  | op (w : WebViewId) (o : Op)

/-- The effect of an operation. -/
def View.apply (v : View) : Op → View
  | .setBounds b => { v with bounds := some b }
  | .setVisible visible => { v with visible }
  | .loadUrl url => { v with page := some (.url url) }
  | .loadUrlWithHeaders url headers => { v with page := some (.urlWithHeaders url headers) }
  | .loadHtml html => { v with page := some (.html html) }
  | .eval js => { v with direct := v.direct ++ [.executeScript js] }
  | .reload => { v with direct := v.direct ++ [.reload] }
  | .zoom factor => { v with direct := v.direct ++ [.setZoomFactor factor] }
  | .focus => { v with direct := v.direct ++ [.moveFocus] }
  | .drop => { v with alive := false }

/-- A web view with its first page, and the focus if it asks for it. -/
def View.ofAttributes (a : Attributes) (b : Bounds) : View where
  alive := true
  visible := a.visible
  bounds := some b
  page := a.navigation
  direct := if a.focused then [.moveFocus] else []

def step (t : State) : Action → Option State
  | .new a b =>
      some { views := Function.update t.views t.next (.ofAttributes a b), next := t.next + 1 }
  | .op w o =>
      if (t.views w).alive then
        some { t with views := Function.update t.views w ((t.views w).apply o) }
      else none

end Sync

/-- The synchronous thread. -/
def sync : System Sync.State Sync.Action where
  init := {}
  step := Sync.step

/-! ## What a controller shows -/

def Call.boundsOf : Call → Option (Int × Int)
  | .setBounds width height => some (width, height)
  | _ => none

def Call.visibleOf : Call → Option Bool
  | .setIsVisible visible => some visible
  | _ => none

def Call.pageOf : Call → Option PendingNavigation
  | .navigate n => some n
  | _ => none

def Call.isDirect : Call → Bool
  | .moveFocus | .setZoomFactor _ | .executeScript _ | .reload => true
  | .setBounds .. | .setIsVisible _ | .navigate _ | .close => false

/-- The last of the calls that `f` is about. -/
def lastOf {α : Type} (f : Call → Option α) (calls : List Call) : Option α :=
  (calls.filterMap f).getLast?

/-- The controller shows the view, where the last calls are yet to come. -/
structure Shows (v : Sync.View) (calls rest : List Call) : Prop where
  bounds : lastOf Call.boundsOf (calls ++ rest) = v.bounds.map fun b => (b.width, b.height)
  visible : lastOf Call.visibleOf (calls ++ rest) = some v.visible
  page : lastOf Call.pageOf (calls ++ rest) = v.page
  direct : (calls ++ rest).filter Call.isDirect = v.direct

/-! ## The undisturbed runs -/

/-- Does the replay concern what the operation sets? -/
def Replay.concerns : Replay → Op → Bool
  | .showWindow _, .setVisible _ | .setIsVisible _, .setVisible _ => true
  | .bounds _, .setBounds _ => true
  | .navigation _, .loadUrl _ | .navigation _, .loadUrlWithHeaders _ _
  | .navigation _, .loadHtml _ => true
  | _, _ => false

/-- The operations that are not buffered. -/
def Op.needsWebView : Op → Bool
  | .loadUrl _ | .loadHtml _ | .eval _ | .reload | .zoom _ | .focus => true
  | .setBounds _ | .setVisible _ | .loadUrlWithHeaders .. | .drop => false

def Stage.rest : Stage → List Replay
  | .replaying _ rest => rest
  | _ => []

/-- The condition on a step. -/
def undisturbed (s : State) : Action → Bool
  | .op w o =>
      (s.webviews w).stage.rest.all (fun r => !r.concerns o) &&
        (!o.needsWebView || (s.webviews w).state.webview.isSome)
  | _ => true

def label : Action → List Sync.Action
  | .new a b => [.new a b]
  | .op w o => [.op w o]
  | _ => []

/-! ## The relation -/

/-- The call of a replay on the controller. -/
def Replay.toCall : Replay → Option Call
  | .showWindow _ => none
  | .setIsVisible visible => some (.setIsVisible visible)
  | .bounds b => some (.setBounds b.width b.height)
  | .navigation n => some (.navigate n)

/-- A living web view and what it stands for. -/
structure Refines (calls : ControllerId → List Call) (v : WebView) (u : Sync.View) : Prop where
  shown : v.hwnd.shown = u.visible
  moved : v.hwnd.bounds = u.bounds
  visible : v.state.visible = u.visible
  /-- Before the controller is there, the state buffers the rest. -/
  buffered : v.state.controller = none → v.stage ≠ .settled →
    v.state.pendingBounds = u.bounds ∧
      v.state.pendingNavigation.or v.attributes.navigation = u.page ∧
        (if v.attributes.focused then [Call.moveFocus] else []) = u.direct
  shows : ∀ c, v.state.controller = some c →
    Shows u (calls c) (v.stage.rest.filterMap Replay.toCall)
  /-- What is left to replay is what was asked for last. -/
  rest : ∀ r ∈ v.stage.rest, (∀ b, r = .bounds b → u.bounds = some b) ∧
    (∀ visible, r = .showWindow visible → u.visible = visible)

structure Related (s : State) (t : Sync.State) : Prop where
  next : s.nextWebView = t.next
  alive : ∀ w, (s.webviews w).state.alive = (t.views w).alive
  refines : ∀ w, (s.webviews w).state.alive = true →
    Refines s.controllers (s.webviews w) (t.views w)
  /-- A controller in the hands of `init_webview` was not called. -/
  uncalled : ∀ w env c visible, (s.webviews w).stage = .initializing env c visible →
    s.controllers c = []
  new : ∀ c, s.nextController ≤ c → s.controllers c = []
  panicked : s.panicked = false

variable (refused : WebViewId → Bool) {s s' : State} {w w' : WebViewId} {t : Sync.State}

/-! ## Calls -/

section Calls

variable {α : Type} {f : Call → Option α} {calls rest : List Call} {x : Call} {y : α}

theorem lastOf_append (f : Call → Option α) (l l' : List Call) :
    lastOf f (l ++ l') = (lastOf f l').or (lastOf f l) := by
  rw [lastOf, List.filterMap_append, List.getLast?_append, lastOf, lastOf]

theorem lastOf_singleton (f : Call → Option α) (x : Call) : lastOf f [x] = f x := by
  cases h : f x <;> simp [lastOf, h]

theorem lastOf_none (h : ∀ z ∈ rest, f z = none) : lastOf f rest = none := by
  rw [lastOf, List.filterMap_eq_nil_iff.2 h]
  rfl

/-- Another call does not change what the last one of a kind is. -/
theorem lastOf_insert_none (h : f x = none) :
    lastOf f ((calls ++ [x]) ++ rest) = lastOf f (calls ++ rest) := by
  simp only [lastOf_append, lastOf_singleton, h, Option.none_or]

theorem lastOf_insert_some (h : f x = some y) (hr : ∀ z ∈ rest, f z = none) :
    lastOf f ((calls ++ [x]) ++ rest) = some y := by
  simp only [lastOf_append, lastOf_singleton, h, lastOf_none hr, Option.none_or, Option.some_or]

end Calls

/-- The calls of a replay are none of the others. -/
theorem toCall_not_direct {rest : List Replay} :
    ∀ z ∈ rest.filterMap Replay.toCall, z.isDirect = false := by
  intro z hz
  obtain ⟨r, _, hr⟩ := List.mem_filterMap.1 hz
  cases r <;> cases hr <;> rfl

theorem filter_direct_replays (rest : List Replay) :
    (rest.filterMap Replay.toCall).filter Call.isDirect = [] :=
  List.filter_eq_nil_iff.2 fun z hz => by simp [toCall_not_direct z hz]

section Concerns

variable {rest : List Replay} {o : Op} (h : ∀ r ∈ rest, r.concerns o = false)
include h

theorem boundsOf_replays {b : Bounds} (ho : o = .setBounds b) :
    ∀ z ∈ rest.filterMap Replay.toCall, z.boundsOf = none := by
  intro z hz
  obtain ⟨r, hmem, hr⟩ := List.mem_filterMap.1 hz
  have hc := h r hmem
  subst ho
  cases r <;> cases hr <;> simp_all [Replay.concerns, Call.boundsOf]

theorem visibleOf_replays {visible : Bool} (ho : o = .setVisible visible) :
    ∀ z ∈ rest.filterMap Replay.toCall, z.visibleOf = none := by
  intro z hz
  obtain ⟨r, hmem, hr⟩ := List.mem_filterMap.1 hz
  have hc := h r hmem
  subst ho
  cases r <;> cases hr <;> simp_all [Replay.concerns, Call.visibleOf]

theorem pageOf_replays (ho : (Replay.navigation (.url [])).concerns o = true) :
    ∀ z ∈ rest.filterMap Replay.toCall, z.pageOf = none := by
  intro z hz
  obtain ⟨r, hmem, hr⟩ := List.mem_filterMap.1 hz
  have hc := h r hmem
  cases r <;> cases hr <;> cases o <;> simp_all [Replay.concerns, Call.pageOf]

end Concerns

/-! ## The operations -/

/-- The call of an operation on a web view that is there. -/
def Op.toCall : Op → Call
  | .setBounds b => .setBounds b.width b.height
  | .setVisible visible => .setIsVisible visible
  | .loadUrl url => .navigate (.url url)
  | .loadUrlWithHeaders url headers => .navigate (.urlWithHeaders url headers)
  | .loadHtml html => .navigate (.html html)
  | .eval js => .executeScript js
  | .reload => .reload
  | .zoom factor => .setZoomFactor factor
  | .focus => .moveFocus
  | .drop => .close

theorem Shows.direct_calls {u : Sync.View} {calls : List Call} {rest : List Replay}
    (h : Shows u calls (rest.filterMap Replay.toCall)) :
    calls.filter Call.isDirect = u.direct := by
  have hd := h.direct
  rwa [List.filter_append, filter_direct_replays, List.append_nil] at hd

theorem filter_insert (calls : List Call) (rest : List Replay) (x : Call) :
    ((calls ++ [x]) ++ rest.filterMap Replay.toCall).filter Call.isDirect =
      calls.filter Call.isDirect ++ if x.isDirect then [x] else [] := by
  simp only [List.filter_append, filter_direct_replays, List.append_nil, List.filter_cons,
    List.filter_nil]

theorem apply_direct (u : Sync.View) (o : Op) :
    (u.apply o).direct = u.direct ++ if o.toCall.isDirect then [o.toCall] else [] := by
  cases o <;> simp [Sync.View.apply, Op.toCall, Call.isDirect]

/-- The call of an operation that the replays do not concern takes effect. -/
theorem Shows.insert {u : Sync.View} {calls : List Call} {rest : List Replay} {o : Op}
    (h : Shows u calls (rest.filterMap Replay.toCall))
    (hr : ∀ r ∈ rest, r.concerns o = false) :
    Shows (u.apply o) (calls ++ [o.toCall]) (rest.filterMap Replay.toCall) := by
  have hb : o.toCall.boundsOf = none → lastOf Call.boundsOf ((calls ++ [o.toCall]) ++
      rest.filterMap Replay.toCall) = u.bounds.map fun b => (b.width, b.height) :=
    fun hn => (lastOf_insert_none hn).trans h.bounds
  have hv : o.toCall.visibleOf = none → lastOf Call.visibleOf ((calls ++ [o.toCall]) ++
      rest.filterMap Replay.toCall) = some u.visible :=
    fun hn => (lastOf_insert_none hn).trans h.visible
  have hp : o.toCall.pageOf = none → lastOf Call.pageOf ((calls ++ [o.toCall]) ++
      rest.filterMap Replay.toCall) = u.page :=
    fun hn => (lastOf_insert_none hn).trans h.page
  have hd := filter_insert calls rest o.toCall
  rw [h.direct_calls, ← apply_direct] at hd
  cases o with
  | setBounds b =>
      exact ⟨lastOf_insert_some rfl (boundsOf_replays hr rfl), hv rfl, hp rfl, hd⟩
  | setVisible visible =>
      exact ⟨hb rfl, lastOf_insert_some rfl (visibleOf_replays hr rfl), hp rfl, hd⟩
  | loadUrl url =>
      exact ⟨hb rfl, hv rfl, lastOf_insert_some rfl (pageOf_replays hr rfl), hd⟩
  | loadUrlWithHeaders url headers =>
      exact ⟨hb rfl, hv rfl, lastOf_insert_some rfl (pageOf_replays hr rfl), hd⟩
  | loadHtml html =>
      exact ⟨hb rfl, hv rfl, lastOf_insert_some rfl (pageOf_replays hr rfl), hd⟩
  | eval js => exact ⟨hb rfl, hv rfl, hp rfl, hd⟩
  | reload => exact ⟨hb rfl, hv rfl, hp rfl, hd⟩
  | zoom factor => exact ⟨hb rfl, hv rfl, hp rfl, hd⟩
  | focus => exact ⟨hb rfl, hv rfl, hp rfl, hd⟩
  | drop =>
      exact ⟨hb rfl, hv rfl, hp rfl, hd⟩

theorem applyOp_webviews_of_ne (s : State) (o : Op) (h : w' ≠ w) :
    (s.applyOp w o).webviews w' = s.webviews w' := by
  cases o with
  | setBounds b =>
      simp only [applyOp, setBoundsInner]
      split <;> simp [applyBounds, h]
  | setVisible visible =>
      simp only [applyOp, State.setVisible, showWindow]
      split <;> simp [h]
  | loadUrl url | loadHtml html =>
      simp only [applyOp, load]
      split <;> rfl
  | loadUrlWithHeaders url headers =>
      simp only [applyOp, loadUrlWithHeaders]
      split <;> simp [h]
  | eval js | reload | zoom factor | focus =>
      simp only [applyOp, callIfReady]
      split <;> rfl
  | drop =>
      simp only [applyOp, State.drop]
      split <;> simp [h]

/-- On a web view that is there, an operation is one call. -/
theorem applyOp_ready (s : State) (o : Op) {c : ControllerId}
    (hc : (s.webviews w).state.controller = some c) (hv : (s.webviews w).state.webview = some c)
    (he : (s.webviews w).state.env.isSome = true) :
    (s.applyOp w o).controllers = (s.call c [o.toCall]).controllers ∧
      (s.applyOp w o).panicked = s.panicked := by
  obtain ⟨env, he⟩ := Option.isSome_iff_exists.1 he
  cases o <;>
    simp [applyOp, setBoundsInner, State.setVisible, load, loadUrlWithHeaders, callIfReady,
      State.drop, hc, hv, he, Op.toCall, applyBounds, showWindow, call]

/-- What an operation does to the web view itself, besides the calls. -/
def WebView.apply (v : WebView) : Op → WebView
  | .setBounds b =>
      { v with
        hwnd := { v.hwnd with bounds := some b }
        state :=
          if v.state.controller.isSome then v.state else { v.state with pendingBounds := some b } }
  | .setVisible visible =>
      { v with
        hwnd := { v.hwnd with shown := visible }
        state := { v.state with visible } }
  | .loadUrlWithHeaders url headers =>
      if v.state.controller.isSome then v
      else
        { v with state :=
            { v.state with pendingNavigation := some (.urlWithHeaders url headers) } }
  | _ => v

theorem Owned.applyOp_webviews (hs : Owned s) {o : Op} (ho : o ≠ .drop) :
    (s.applyOp w o).webviews w = (s.webviews w).apply o := by
  obtain ⟨hv, he⟩ := hs.handles w
  cases o with
  | setBounds b =>
      cases hc : (s.webviews w).state.controller with
      | none => simp [applyOp, setBoundsInner, hc, WebView.apply]
      | some c => simp [applyOp, setBoundsInner, applyBounds, hc, WebView.apply]
  | setVisible visible =>
      cases hc : (s.webviews w).state.controller with
      | none => simp [applyOp, State.setVisible, showWindow, hc, WebView.apply]
      | some c => simp [applyOp, State.setVisible, showWindow, hc, WebView.apply]
  | loadUrlWithHeaders url headers =>
      cases hc : (s.webviews w).state.controller with
      | none =>
          rw [hc] at hv
          simp [applyOp, loadUrlWithHeaders, hv, hc, WebView.apply]
      | some c =>
          rw [hc] at hv he
          obtain ⟨env, he⟩ := Option.isSome_iff_exists.1 he
          simp [applyOp, loadUrlWithHeaders, hv, he, hc, WebView.apply]
  | loadUrl url | loadHtml html =>
      simp only [applyOp, load]
      split <;> rfl
  | eval js | reload | zoom factor | focus =>
      simp only [applyOp, callIfReady]
      split <;> rfl
  | drop => exact absurd rfl ho

/-- Without a controller nothing is called. -/
theorem Owned.applyOp_none (hs : Owned s) {o : Op}
    (hc : (s.webviews w).state.controller = none) (ho : o.needsWebView = false) :
    (s.applyOp w o).controllers = s.controllers ∧ (s.applyOp w o).panicked = s.panicked := by
  obtain ⟨hv, _⟩ := hs.handles w
  rw [hc] at hv
  cases o <;> first
    | (cases ho; done)
    | simp [applyOp, setBoundsInner, State.setVisible, showWindow, loadUrlWithHeaders, State.drop,
        hc, hv]

theorem rest_apply (v : WebView) (o : Op) : (v.apply o).stage = v.stage := by
  cases o <;> simp only [WebView.apply]
  split <;> rfl

theorem controller_apply (v : WebView) (o : Op) :
    (v.apply o).state.controller = v.state.controller := by
  cases o <;> simp only [WebView.apply] <;> split <;> rfl

/-- The window follows each operation at once. -/
theorem Refines.window {calls : ControllerId → List Call} {v : WebView} {u : Sync.View}
    (h : Refines calls v u) (o : Op) :
    (v.apply o).hwnd.shown = (u.apply o).visible ∧ (v.apply o).hwnd.bounds = (u.apply o).bounds ∧
      (v.apply o).state.visible = (u.apply o).visible := by
  have h₁ := h.shown
  have h₂ := h.moved
  have h₃ := h.visible
  cases o <;> simp only [WebView.apply, Sync.View.apply] <;> (try split) <;> simp [h₁, h₂, h₃]

/-- Before the controller is there, the state follows the operations that are buffered. -/
theorem Refines.buffer {calls : ControllerId → List Call} {v : WebView} {u : Sync.View}
    (h : Refines calls v u) {o : Op} (hc : v.state.controller = none) (hg : v.stage ≠ .settled)
    (ho : o.needsWebView = false) :
    (v.apply o).state.pendingBounds = (u.apply o).bounds ∧
      (v.apply o).state.pendingNavigation.or (v.apply o).attributes.navigation =
        (u.apply o).page ∧
      (if (v.apply o).attributes.focused then [Call.moveFocus] else []) = (u.apply o).direct := by
  obtain ⟨h₁, h₂, h₃⟩ := h.buffered hc hg
  cases o <;> first
    | (cases ho; done)
    | exact ⟨h₁, h₂, h₃⟩
    | simp [WebView.apply, Sync.View.apply, hc, h₁, h₂, h₃]

/-- What is left to replay is still right. -/
theorem Refines.rest_apply {calls : ControllerId → List Call} {v : WebView} {u : Sync.View}
    (h : Refines calls v u) {o : Op} (hr : ∀ r ∈ v.stage.rest, r.concerns o = false) :
    ∀ r ∈ v.stage.rest, (∀ b, r = .bounds b → (u.apply o).bounds = some b) ∧
      (∀ visible, r = .showWindow visible → (u.apply o).visible = visible) := by
  intro r hmem
  obtain ⟨h₁, h₂⟩ := h.rest r hmem
  have hc := hr r hmem
  refine ⟨fun b hb => ?_, fun visible hv => ?_⟩
  · subst hb
    cases o <;> first
      | (cases hc; done)
      | exact h₁ b rfl
  · subst hv
    cases o <;> first
      | (cases hc; done)
      | exact h₂ visible rfl

/-- An undisturbed operation. -/
theorem refines_applyOp (hs : Owned s) {o : Op} {u : Sync.View}
    (h : Refines s.controllers (s.webviews w) u) (hok : undisturbed s (.op w o) = true)
    (ho : o ≠ .drop) :
    Refines (s.applyOp w o).controllers ((s.applyOp w o).webviews w) (u.apply o) := by
  obtain ⟨hr, hneeds⟩ : (∀ r ∈ (s.webviews w).stage.rest, r.concerns o = false) ∧
      (o.needsWebView = false ∨ (s.webviews w).state.webview.isSome = true) := by
    simpa [undisturbed] using hok
  obtain ⟨hv, he⟩ := hs.handles w
  rw [hs.applyOp_webviews ho]
  obtain ⟨h₁, h₂, h₃⟩ := h.window o
  refine ⟨h₁, h₂, h₃, fun hc hg => ?_, fun c hc => ?_, ?_⟩
  · rw [controller_apply] at hc
    rw [WebView2.rest_apply] at hg
    refine h.buffer hc hg (hneeds.resolve_right ?_)
    rw [hv, hc]
    simp
  · rw [controller_apply] at hc
    rw [WebView2.rest_apply, (applyOp_ready s o hc (hv.trans hc) (by rw [he, hc]; rfl)).1]
    have hcalls : (s.call c [o.toCall]).controllers c = s.controllers c ++ [o.toCall] := by
      simp [call]
    rw [hcalls]
    exact (h.shows c hc).insert hr
  · rw [WebView2.rest_apply]
    exact h.rest_apply hr

/-! ## The creation -/

/-- Only the controllers that a web view holds matter. -/
theorem Refines.congr {calls calls' : ControllerId → List Call} {v : WebView} {u : Sync.View}
    (h : Refines calls v u) (hc : ∀ c, v.state.controller = some c → calls' c = calls c) :
    Refines calls' v u :=
  ⟨h.shown, h.moved, h.visible, h.buffered, fun c hv => by
    rw [hc c hv]
    exact h.shows c hv, h.rest⟩

theorem rest_of_early {g : Stage} (h : g.early = true) : g.rest = [] := by
  cases g <;> first
    | rfl
    | cases h

/-- The stage moves on, and nothing is left to replay. -/
theorem Refines.setStage {calls : ControllerId → List Call} {v : WebView} {u : Sync.View}
    (h : Refines calls v u) {g : Stage} (hv : v.stage.rest = []) (hg : g.rest = [])
    (hs : g ≠ .settled → v.stage ≠ .settled) : Refines calls { v with stage := g } u := by
  refine ⟨h.shown, h.moved, h.visible, fun hc hne => h.buffered hc (hs hne), fun c hc => ?_, ?_⟩
  · have hshows := h.shows c hc
    rw [hv] at hshows
    show Shows u (calls c) (g.rest.filterMap Replay.toCall)
    rwa [hg]
  · show ∀ r ∈ g.rest, _
    rw [hg]
    simp

/-- `Related`, but for the numbers of the web views. -/
theorem State.Advanced.related {ts : List Task} (h : Advanced ts s s')
    (hts : ∀ w ∈ ts.map Task.webview, (s.webviews w).stage.early = true)
    (hr : Related s t) : Related s' t := by
  have hstate : ∀ w, (s'.webviews w).state = (s.webviews w).state := by
    intro w
    rw [h.webview w]
  refine ⟨h.nextWebView.trans hr.next, fun w => ?_, fun w hw => ?_,
    fun w env c visible hw => ?_, fun c hc => ?_, h.panicked.trans hr.panicked⟩
  · rw [hstate]
    exact hr.alive w
  · rw [hstate] at hw
    have href := hr.refines w hw
    rw [h.controllers, h.webview w]
    obtain hst | ⟨hmem, hq⟩ := h.stage w
    · rw [hst]
      exact href
    · have he := hts w hmem
      have hne : (s.webviews w).stage ≠ .settled := by
        intro heq
        simp [heq, Stage.early] at he
      refine href.setStage (rest_of_early he) ?_ fun _ => hne
      obtain he' | he' := early_of_queued hq
      · rw [he']
        rfl
      · exact rest_of_early he'
  · rw [h.controllers]
    obtain hst | ⟨_, hq⟩ := h.stage w
    · exact hr.uncalled w env c visible (hst ▸ hw)
    · obtain he | he := early_of_queued hq <;> simp [hw, Stage.early] at he
  · rw [h.controllers]
    exact hr.new c (h.nextController ▸ hc)

/-- An operation calls no controller of another web view. -/
theorem applyOp_controllers_of_ne (s : State) (o : Op) (hs : Owned s) {c : ControllerId}
    (hc : (s.webviews w).state.controller ≠ some c) :
    (s.applyOp w o).controllers c = s.controllers c := by
  obtain h | ⟨c', call', hc', h⟩ := applyOp_controllers s w o
  · rw [h]
  · rw [(hs.handles w).1, or_self] at hc'
    have hne : c ≠ c' := by
      rintro rfl
      exact hc hc'
    rw [h]
    simp [call, hne]

theorem alive_apply (u : Sync.View) (o : Op) :
    (u.apply o).alive = if o = .drop then false else u.alive := by
  cases o <;> simp [Sync.View.apply]

theorem related_op (hs : Owned s) (hr : Related s t) {o : Op}
    (ha : (s.webviews w).state.alive = true) (hok : undisturbed s (.op w o) = true) :
    Related (s.applyOp w o)
      { t with views := Function.update t.views w ((t.views w).apply o) } := by
  have hops := operates_applyOp s w o
  have hother : ∀ w' c, w' ≠ w → (s.webviews w').state.controller = some c →
      (s.webviews w).state.controller ≠ some c := fun w' c hne hc hcw =>
    hne ((hs.held w' c hc).2.1.symm.trans (hs.held w c hcw).2.1)
  refine ⟨hops.nextWebView.trans hr.next, fun w' => ?_, fun w' ha' => ?_,
    fun w' env c visible hw => ?_, fun c hc => ?_, ?_⟩
  · show _ = (Function.update t.views w ((t.views w).apply o) w').alive
    rw [Function.update_apply]
    by_cases heq : w' = w
    · subst heq
      rw [if_pos rfl, alive_apply]
      by_cases ho : o = .drop
      · subst ho
        simp only [applyOp, State.drop]
        split <;> simp
      · rw [if_neg ho, (keepsHandles_applyOp s w' ho).alive]
        exact hr.alive w'
    · rw [if_neg heq, applyOp_webviews_of_ne s o heq]
      exact hr.alive w'
  · show Refines _ _ (Function.update t.views w ((t.views w).apply o) w')
    rw [Function.update_apply]
    by_cases heq : w' = w
    · subst heq
      have ho : o ≠ .drop := by
        rintro rfl
        simp only [applyOp, State.drop] at ha'
        split at ha' <;> simp at ha'
      rw [if_pos rfl]
      exact refines_applyOp hs (hr.refines w' ha) hok ho
    · rw [if_neg heq]
      rw [applyOp_webviews_of_ne s o heq] at ha' ⊢
      exact (hr.refines w' ha').congr fun c hc =>
        applyOp_controllers_of_ne s o hs (hother w' c heq hc)
  · rw [hops.stage] at hw
    have hinit := hs.initializing w' env c visible hw
    rw [applyOp_controllers_of_ne s o hs]
    · exact hr.uncalled w' env c visible hw
    · intro hcw
      have heq : w' = w := hinit.2.1.symm.trans (hs.held w c hcw).2.1
      subst heq
      rw [hinit.2.2.1] at hcw
      cases hcw
  · rw [hops.nextController] at hc
    rw [applyOp_controllers_of_ne s o hs fun hcw => absurd (hs.held w c hcw).1 (Nat.not_lt.2 hc)]
    exact hr.new c hc
  · obtain ⟨hv, he⟩ := hs.handles w
    cases hc : (s.webviews w).state.controller with
    | some c =>
        rw [(applyOp_ready s o hc (hv.trans hc) (by rw [he, hc]; rfl)).2]
        exact hr.panicked
    | none =>
        have hneeds : o.needsWebView = false := by
          rw [hc] at hv
          simp only [undisturbed, hv, Bool.and_eq_true, Bool.or_eq_true, Option.isSome_none] at hok
          simpa using hok.2
        rw [(hs.applyOp_none hc hneeds).2]
        exact hr.panicked

/-- The creation ends while `init_webview` has the controller. -/
theorem related_fail (hs : Owned s) (hr : Related s t) {env : EnvironmentId} {c : ControllerId}
    {visible : Bool} (hw : (s.webviews w).stage = .initializing env c visible)
    (calls : List Call) : Related ((s.call c calls).setStage w .settled) t := by
  obtain ⟨hc, ho, hnone, _⟩ := hs.initializing w env c visible hw
  have hview : ∀ w', ((s.call c calls).setStage w .settled).webviews w' =
      if w' = w then { s.webviews w with stage := .settled } else s.webviews w' := by
    intro w'
    rw [setStage_webviews]
    rfl
  have hcalls : ∀ c', c' ≠ c → ((s.call c calls).setStage w .settled).controllers c' =
      s.controllers c' := fun c' hne => Function.update_of_ne hne _ _
  refine ⟨hr.next, fun w' => ?_, fun w' ha => ?_, fun w' env' c' visible' hw' => ?_,
    fun c' hc' => ?_, hr.panicked⟩
  · rw [hview]
    split
    · next heq => rw [heq]; exact hr.alive w
    · exact hr.alive w'
  · rw [hview] at ha ⊢
    split at ha
    · next heq =>
        subst heq
        have h := (hr.refines w' ha).setStage (g := .settled) (by rw [hw]; rfl) rfl (by simp)
        rw [if_pos rfl]
        refine h.congr fun c' hc' => ?_
        rw [show (s.webviews w').state.controller = some c' from hc'] at hnone
        cases hnone
    · next hne =>
        rw [if_neg hne]
        refine (hr.refines w' ha).congr fun c' hc' => hcalls c' ?_
        rintro rfl
        exact hne ((hs.held w' c' hc').2.1.symm.trans ho)
  · rw [hview] at hw'
    split at hw'
    · cases hw'
    · next hne =>
        rw [hcalls c']
        · exact hr.uncalled w' env' c' visible' hw'
        · rintro rfl
          exact hne ((hs.initializing w' env' c' visible' hw').2.1.symm.trans ho)
  · rw [hcalls c' (Nat.ne_of_gt (Nat.lt_of_lt_of_le hc hc'))]
    exact hr.new c' hc'

/-- What `init_webview` has done and what is to be replayed show what was asked for. -/
theorem shows_take {a : Attributes} {i : WebViewState} {u : Sync.View} (visible : Bool)
    (hb : i.pendingBounds = u.bounds) (hv : i.visible = u.visible)
    (hp : i.pendingNavigation.or a.navigation = u.page)
    (hd : (if a.focused then [Call.moveFocus] else []) = u.direct) :
    Shows u (a.initCalls visible) ((replays i).filterMap Replay.toCall) := by
  constructor <;> simp only [Attributes.initCalls, replays, ← hb, ← hv, ← hp, ← hd] <;>
    cases i.pendingBounds <;> cases i.pendingNavigation <;> cases a.navigation <;>
      cases a.focused <;> rfl

/-- The web view gets its controller. -/
theorem related_wire (hs : Owned s) (hr : Related s t) {env : EnvironmentId} {c : ControllerId}
    {visible : Bool} (hw : (s.webviews w).stage = .initializing env c visible)
    (ha : (s.webviews w).state.alive = true) {i : WebViewState} (hi : i.alive = true)
    (hic : i.controller = some c) (hiv : i.visible = (s.webviews w).state.visible) :
    Related (((s.call c ((s.webviews w).attributes.initCalls visible)).setInner w i).setStage w
      (.replaying c (replays (s.webviews w).state))) t := by
  obtain ⟨hc, ho, hnone, _⟩ := hs.initializing w env c visible hw
  have href := hr.refines w ha
  obtain ⟨hpb, hpn, hpd⟩ := href.buffered hnone (by simp [hw])
  have hview : ∀ w', (((s.call c ((s.webviews w).attributes.initCalls visible)).setInner w
      i).setStage w (.replaying c (replays (s.webviews w).state))).webviews w' =
        if w' = w then { s.webviews w with
          state := i, stage := .replaying c (replays (s.webviews w).state) }
        else s.webviews w' := by
    intro w'
    simp only [setStage_webviews, setInner_webviews, call_webviews]
    split <;> simp_all
  have hcalls : ∀ c', c' ≠ c → (((s.call c ((s.webviews w).attributes.initCalls
      visible)).setInner w i).setStage w (.replaying c (replays
        (s.webviews w).state))).controllers c' = s.controllers c' :=
    fun c' hne => Function.update_of_ne hne _ _
  have hcall : (((s.call c ((s.webviews w).attributes.initCalls visible)).setInner w i).setStage w
      (.replaying c (replays (s.webviews w).state))).controllers c =
        (s.webviews w).attributes.initCalls visible := by
    show Function.update s.controllers c _ c = _
    rw [Function.update_self, hr.uncalled w env c visible hw, List.nil_append]
  refine ⟨hr.next, fun w' => ?_, fun w' ha' => ?_, fun w' env' c' visible' hw' => ?_,
    fun c' hc' => ?_, hr.panicked⟩
  · rw [hview]
    split
    · next heq => rw [heq, ← hr.alive w, ha]; exact hi
    · exact hr.alive w'
  · rw [hview] at ha' ⊢
    split at ha'
    · next heq =>
        subst heq
        rw [if_pos rfl]
        refine ⟨href.shown, href.moved, hiv.trans href.visible, fun hn _ => ?_, fun c' hc' => ?_, ?_⟩
        · rw [show i.controller = none from hn] at hic
          cases hic
        · cases hic.symm.trans hc'
          rw [hcall]
          exact shows_take visible hpb href.visible hpn hpd
        · intro r hmem
          refine ⟨fun b hb => ?_, fun v hv => ?_⟩
          · subst hb
            rw [← hpb]
            simpa [Stage.rest, replays, eq_comm] using hmem
          · subst hv
            rw [← href.visible]
            simpa [Stage.rest, replays, eq_comm] using hmem
    · next hne =>
        rw [if_neg hne]
        refine (hr.refines w' ha').congr fun c' hc' => hcalls c' ?_
        rintro rfl
        exact hne ((hs.held w' c' hc').2.1.symm.trans ho)
  · rw [hview] at hw'
    split at hw'
    · cases hw'
    · next hne =>
        rw [hcalls c']
        · exact hr.uncalled w' env' c' visible' hw'
        · rintro rfl
          exact hne ((hs.initializing w' env' c' visible' hw').2.1.symm.trans ho)
  · rw [hcalls c' (Nat.ne_of_gt (Nat.lt_of_lt_of_le hc hc'))]
    exact hr.new c' hc'

theorem related_initialized (hs : Owned s) (hr : Related s t) {env : EnvironmentId}
    {c : ControllerId} {visible : Bool} (hw : (s.webviews w).stage = .initializing env c visible)
    (failedAfter : Option Nat) : Related (s.initialized w env c visible failedAfter) t := by
  simp only [State.initialized]
  split
  · rw [call_call]
    exact related_fail hs hr hw _
  · simp only [takePending]
    split
    · rw [call_call]
      exact related_fail hs hr hw _
    · next ha =>
        have halive : (s.webviews w).state.alive = true := by simpa using ha
        exact related_wire hs hr hw halive halive rfl rfl

theorem rest_replayStage (c : ControllerId) (rest : List Replay) :
    (replayStage c rest).rest = rest := by
  cases rest <;> rfl

/-- What a replay does to the window. -/
def WebView.replay (v : WebView) : Replay → WebView
  | .showWindow visible => { v with hwnd := { v.hwnd with shown := visible } }
  | .bounds b => { v with hwnd := { v.hwnd with bounds := some b } }
  | _ => v

theorem perform_webviews (s : State) (w : WebViewId) (c : ControllerId) (r : Replay)
    (w' : WebViewId) :
    (s.perform w c r).webviews w' = if w' = w then (s.webviews w).replay r else s.webviews w' := by
  cases r with
  | showWindow visible => simp [perform, showWindow, WebView.replay]
  | bounds b => simp [perform, applyBounds, WebView.replay]
  | setIsVisible visible | navigation n =>
      simp only [perform, WebView.replay, call_webviews]
      split <;> simp_all

theorem perform_calls (s : State) (w : WebViewId) (c : ControllerId) (r : Replay)
    (c' : ControllerId) :
    (s.perform w c r).controllers c' =
      if c' = c then s.controllers c ++ r.toCall.toList else s.controllers c' := by
  cases r with
  | showWindow visible =>
      simp only [perform, showWindow, setHwnd_controllers, Replay.toCall, Option.toList_none,
        List.append_nil]
      split <;> simp_all
  | setIsVisible visible | bounds b | navigation n =>
      simp [perform, applyBounds, call, Replay.toCall, Function.update_apply]

/-- A statement behind the second check. -/
theorem related_replay (hs : Owned s) (hr : Related s t) {c : ControllerId} {r : Replay}
    {rest : List Replay} (hw : (s.webviews w).stage = .replaying c (r :: rest)) :
    Related ((s.perform w c r).setStage w (replayStage c rest)) t := by
  obtain ⟨hc, ho, hheld⟩ := hs.replaying w c _ hw
  have hops := (keepsHandles_perform s w c r).toOperates
  have hview : ∀ w', ((s.perform w c r).setStage w (replayStage c rest)).webviews w' =
      if w' = w then { (s.webviews w).replay r with stage := replayStage c rest }
      else s.webviews w' := by
    intro w'
    rw [setStage_webviews]
    split
    · rw [perform_webviews, if_pos rfl]
    · next hne => rw [perform_webviews, if_neg hne]
  have hstate : ((s.webviews w).replay r).state = (s.webviews w).state := by cases r <;> rfl
  have hcalls : ∀ c', c' ≠ c → ((s.perform w c r).setStage w (replayStage c rest)).controllers c' =
      s.controllers c' := fun c' hne => (perform_calls s w c r c').trans (if_neg hne)
  refine ⟨hops.nextWebView.trans hr.next, fun w' => ?_, fun w' ha => ?_,
    fun w' env' c' visible' hw' => ?_, fun c' hc' => ?_, ?_⟩
  · rw [hview]
    split
    · next heq => rw [heq, ← hr.alive w, ← hstate]
    · exact hr.alive w'
  · rw [hview] at ha ⊢
    split at ha
    · next heq =>
        subst heq
        have ha' : (s.webviews w').state.alive = true := by rw [← hstate]; exact ha
        have href := hr.refines w' ha'
        have hcon := hheld ha'
        have hrest := href.rest r (by rw [hw]; exact List.mem_cons_self)
        rw [if_pos rfl]
        refine ⟨?_, ?_, ?_, fun hn _ => ?_, fun c' hc' => ?_, ?_⟩
        · show ((s.webviews w').replay r).hwnd.shown = _
          cases r with
          | showWindow visible => exact (hrest.2 visible rfl).symm
          | bounds b | setIsVisible visible | navigation n => exact href.shown
        · show ((s.webviews w').replay r).hwnd.bounds = _
          cases r with
          | bounds b => exact (hrest.1 b rfl).symm
          | showWindow visible | setIsVisible visible | navigation n => exact href.moved
        · show ((s.webviews w').replay r).state.visible = _
          rw [hstate]
          exact href.visible
        · change ((s.webviews w').replay r).state.controller = none at hn
          rw [hstate, hcon] at hn
          cases hn
        · change ((s.webviews w').replay r).state.controller = some c' at hc'
          rw [hstate] at hc'
          cases hcon.symm.trans hc'
          have hshows := href.shows c hcon
          rw [hw] at hshows
          have hcat : s.controllers c ++ (Stage.replaying c (r :: rest)).rest.filterMap
              Replay.toCall = (s.controllers c ++ r.toCall.toList) ++
                rest.filterMap Replay.toCall := by
            cases hr : r.toCall <;> simp [Stage.rest, hr]
          show Shows _ ((s.perform w' c r).controllers c)
            ((replayStage c rest).rest.filterMap Replay.toCall)
          rw [perform_calls, if_pos rfl, rest_replayStage]
          exact ⟨hcat ▸ hshows.bounds, hcat ▸ hshows.visible, hcat ▸ hshows.page,
            hcat ▸ hshows.direct⟩
        · show ∀ r' ∈ (replayStage c rest).rest, _
          rw [rest_replayStage]
          exact fun r' hmem => href.rest r' (by rw [hw]; exact List.mem_cons_of_mem _ hmem)
    · next hne =>
        rw [if_neg hne]
        refine (hr.refines w' ha).congr fun c' hc' => hcalls c' ?_
        rintro rfl
        exact hne ((hs.held w' c' hc').2.1.symm.trans ho)
  · rw [hview] at hw'
    split at hw'
    · next heq =>
        obtain he | he := replayStage_eq c rest <;> simp [he] at hw'
    · next hne =>
        rw [hcalls c']
        · exact hr.uncalled w' env' c' visible' hw'
        · rintro rfl
          exact hne ((hs.initializing w' env' c' visible' hw').2.1.symm.trans ho)
  · have hc'' : s.nextController ≤ c' := by
      rw [← hops.nextController]
      exact hc'
    rw [hcalls c' (Nat.ne_of_gt (Nat.lt_of_lt_of_le hc hc''))]
    exact hr.new c' hc''
  · show (s.perform w c r).panicked = false
    rw [← hr.panicked]
    cases r <;> rfl

/-- A new web view, before its bounds are set. -/
theorem related_addWebView (hr : Related s t) (a : Attributes) (b : Bounds) :
    Related (s.addWebView (.created a))
      { views := Function.update t.views t.next { Sync.View.ofAttributes a b with bounds := none },
        next := t.next + 1 } := by
  have hnext := hr.next
  refine ⟨by rw [← hnext]; rfl, fun w => ?_, fun w ha => ?_, fun w env c visible hw => ?_, hr.new,
    hr.panicked⟩
  · show _ = (Function.update t.views t.next _ w).alive
    rw [addWebView_webviews, Function.update_apply, hnext]
    split
    · rfl
    · exact hr.alive w
  · show Refines s.controllers _ (Function.update t.views t.next _ w)
    rw [addWebView_webviews] at ha ⊢
    rw [Function.update_apply, ← hnext]
    split at ha
    · next heq =>
        rw [if_pos heq, if_pos heq]
        refine ⟨rfl, rfl, rfl, fun _ _ => ⟨rfl, Option.none_or, rfl⟩, ?_, ?_⟩
        · intro c hc
          cases hc
        · intro r hmem
          cases hmem
    · next hne =>
        rw [if_neg hne, if_neg hne]
        exact hr.refines w ha
  · rw [addWebView_webviews] at hw
    split at hw
    · cases hw
    · exact hr.uncalled w env c visible hw

/-- The last statement of `new_in_hwnd` sets the bounds, as the operation does. -/
theorem related_bounds (hs : Owned s) {a : Attributes} {b : Bounds}
    (hr : Related s
      { views := Function.update t.views t.next { Sync.View.ofAttributes a b with bounds := none },
        next := t.next + 1 })
    (hrest : (s.webviews t.next).stage.rest = []) :
    Related (s.setBoundsInner t.next b)
      { views := Function.update t.views t.next (Sync.View.ofAttributes a b),
        next := t.next + 1 } := by
  have halive : (s.webviews t.next).state.alive = true := by
    rw [hr.alive]
    simp [Sync.View.ofAttributes]
  have hop := related_op hs hr (o := .setBounds b) halive (by
    simp [undisturbed, hrest, Op.needsWebView])
  simp only [Function.update_idem, Function.update_self] at hop
  exact hop

theorem related_new (hser : Serialised s) (hs : Owned s) (hr : Related s t) (a : Attributes)
    (b : Bounds) :
    Related (s.new refused a b)
      { views := Function.update t.views t.next (Sync.View.ofAttributes a b),
        next := t.next + 1 } := by
  have hview := related_addWebView hr a b
  have hserv := hser.addWebView (v := .created a) rfl
  have hown := hs.addWebView (v := .created a) rfl ⟨rfl, rfl, rfl⟩
  simp only [State.new, hr.next]
  split
  · next env _ =>
      have hadv := advanced_enqueue refused (s.addWebView (.created a)) ⟨t.next, env⟩
      have hstage : ((s.addWebView (.created a)).webviews t.next).stage = .environment := by
        rw [addWebView_webviews, if_pos hr.next.symm]
        rfl
      have hearly : ∀ w ∈ (⟨t.next, env⟩ :: s.queue.pending).map Task.webview,
          ((s.addWebView (.created a)).webviews w).stage.early = true := by
        intro w hw
        rw [List.map_cons, List.mem_cons] at hw
        obtain rfl | hw := hw
        · rw [hstage]
          rfl
        · exact early_of_pending hserv w hw
      refine related_bounds (owned_enqueue refused hserv hown hstage)
        (hadv.related hearly hview) ?_
      obtain hst | ⟨_, hq⟩ := hadv.stage t.next
      · rw [hst, hstage]
        rfl
      · obtain he | he := early_of_queued hq
        · rw [he]
          rfl
        · exact rest_of_early he
  · refine related_bounds hown hview ?_
    rw [addWebView_webviews, if_pos hr.next.symm]
    rfl

/-- The callback of `CreateCoreWebView2Controller`. -/
theorem related_controllerCompleted (hser : Serialised s) (hs : Owned s) (hr : Related s t)
    {env : EnvironmentId} (hw : (s.webviews w).stage = .creating env) (ok : Bool) :
    Related (s.controllerCompleted refused w env ok) t := by
  have hset : Advanced [⟨w, env⟩] s (s.setStage w .settled) :=
    (advanced_refl _ _).of_setStage (by simp) (.inl rfl)
  have hrset : Related (s.setStage w .settled) t := by
    refine hset.related (fun w' hw' => ?_) hr
    rw [List.map_singleton, List.mem_singleton] at hw'
    rw [hw', hw]
    rfl
  have hpending : ∀ w' ∈ s.queue.pending.map Task.webview, w' ≠ w ∧
      ((s.setStage w .settled).webviews w').stage.early = true := by
    intro w' hmem
    have hq := (hser.queued w').2 hmem
    have hne : w' ≠ w := by
      rintro rfl
      simp [hw] at hq
    rw [setStage_webviews, if_neg hne, hq]
    exact ⟨hne, rfl⟩
  have hadv := advanced_complete refused s.queue.pending (s.setStage w .settled)
  have hr₁ := hadv.related (fun w' hmem => (hpending w' hmem).2) hrset
  have hview : ∀ g, { (completeControllerCreation refused s.queue.pending
      (s.setStage w .settled)).webviews w with stage := g } = { s.webviews w with stage := g } := by
    intro g
    rw [hadv.webview w, setStage_webviews, if_pos rfl]
  have hcalls : (completeControllerCreation refused s.queue.pending
      (s.setStage w .settled)).controllers = s.controllers := hadv.controllers
  have hown := owned_complete refused hser hs hw
  simp only [controllerCompleted]
  split
  · generalize completeControllerCreation refused s.queue.pending (s.setStage w .settled) = s₁
      at hr₁ hview hcalls hown
    simp only [beginFinish]
    split
    · next ha =>
        have hdead : ((s₁.newController w).webviews w).state.alive = false := by simpa using ha
        have hother : ∀ c, c ≠ s₁.nextController →
            (((s₁.newController w).call s₁.nextController [.close]).setStage w
              .settled).controllers c = s₁.controllers c :=
          fun c hne => Function.update_of_ne hne _ _
        refine ⟨hr₁.next, fun w' => ?_, fun w' ha' => ?_, fun w' env' c visible hw' => ?_,
          fun c hc => ?_, hr₁.panicked⟩
        · rw [setStage_webviews]
          split
          · next heq => rw [heq]; exact hr₁.alive w
          · exact hr₁.alive w'
        · rw [setStage_webviews] at ha' ⊢
          split at ha'
          · exact absurd (hdead.symm.trans ha') (by simp)
          · next hne =>
              rw [if_neg hne]
              exact (hr₁.refines w' ha').congr fun c hc =>
                hother c (Nat.ne_of_lt (hown.held w' c hc).1)
        · rw [setStage_webviews] at hw'
          split at hw'
          · cases hw'
          · rw [hother c (Nat.ne_of_lt (hown.initializing w' env' c visible hw').1)]
            exact hr₁.uncalled w' env' c visible hw'
        · rw [hother c (Nat.ne_of_gt (Nat.lt_of_succ_le hc))]
          exact hr₁.new c (Nat.le_of_succ_le hc)
    · refine ⟨hr₁.next, fun w' => ?_, fun w' ha' => ?_, fun w' env' c visible hw' => ?_,
        fun c hc => hr₁.new c (Nat.le_of_succ_le hc), hr₁.panicked⟩
      · rw [setStage_webviews]
        split
        · next heq => rw [heq]; exact hr₁.alive w
        · exact hr₁.alive w'
      · rw [setStage_webviews] at ha' ⊢
        split at ha'
        · next heq =>
            subst heq
            have hg := hview (.initializing env s₁.nextController (s₁.webviews w').state.visible)
            have halive : (s.webviews w').state.alive = true := by
              rw [hr.alive, ← hr₁.alive]
              exact ha'
            rw [if_pos rfl]
            show Refines s₁.controllers { s₁.webviews w' with
              stage := .initializing env s₁.nextController (s₁.webviews w').state.visible } _
            rw [hg, hcalls]
            exact (hr.refines w' halive).setStage (by rw [hw]; rfl) rfl (by simp [hw])
        · next hne =>
            rw [if_neg hne]
            exact hr₁.refines w' ha'
      · rw [setStage_webviews] at hw'
        split at hw'
        · cases hw'
          exact hr₁.new _ (Nat.le_refl _)
        · exact hr₁.uncalled w' env' c visible hw'
  · exact hr₁

/-- Each step is matched by the operation it is, or by nothing. -/
theorem related_step {a : Action} (hser : Serialised s) (hs : Owned s) (hr : Related s t)
    (hok : undisturbed s a = true) (hst : step refused s a = some s') :
    ∃ t', sync.run t (label a) = some t' ∧ Related s' t' := by
  cases a with
  | new attrs b =>
      cases hst
      exact ⟨_, rfl, related_new refused hser hs hr attrs b⟩
  | op w o =>
      simp only [step] at hst
      split at hst
      · next ha =>
          cases hst
          have hta : (t.views w).alive = true := hr.alive w ▸ ha
          refine ⟨_, ?_, related_op hs hr ha hok⟩
          simp [label, System.run, System.runVia, sync, Sync.step, hta]
      · cases hst
  | environmentCompleted w env =>
      simp only [step] at hst
      split at hst
      · next env hw =>
          cases hst
          refine ⟨t, rfl, (advanced_enqueue refused s ⟨w, env⟩).related (fun w' hw' => ?_) hr⟩
          rw [List.map_cons, List.mem_cons] at hw'
          obtain rfl | hw' := hw'
          · rw [hw]
            rfl
          · exact early_of_pending hser w' hw'
      · next hw =>
          cases hst
          have hset : Advanced [⟨w, 0⟩] s (s.setStage w .settled) :=
            (advanced_refl _ _).of_setStage (by simp) (.inl rfl)
          refine ⟨t, rfl, hset.related (fun w' hw' => ?_) hr⟩
          rw [List.map_singleton, List.mem_singleton] at hw'
          rw [hw', hw]
          rfl
      · cases hst
  | controllerCompleted w ok =>
      simp only [step] at hst
      split at hst
      · next env hw =>
          cases hst
          exact ⟨t, rfl, related_controllerCompleted refused hser hs hr hw ok⟩
      · cases hst
  | initialized w failedAfter =>
      simp only [step] at hst
      split at hst
      · next env c visible hw =>
          cases hst
          exact ⟨t, rfl, related_initialized hs hr hw failedAfter⟩
      · cases hst
  | replay w =>
      simp only [step] at hst
      split at hst
      · next c r rest hw =>
          cases hst
          exact ⟨t, rfl, related_replay hs hr hw⟩
      · cases hst

/-- The thread is simulated by the synchronous one, while its runs are undisturbed. -/
def simulation : Simulation (thread refused) sync (fun s a => undisturbed s a = true) where
  label _ a := label a
  rel := Related
  init := ⟨rfl, fun _ => rfl, fun _ ha => absurd ha (by simp [thread]), fun _ _ _ _ hw => by
    simp [thread] at hw, fun _ _ => rfl, rfl⟩
  step hreach hr hok hst :=
    related_step refused (serialised_of_reachable refused hreach.reachable)
      (owned_of_reachable refused hreach.reachable) hr hok hst

/-- The asynchronous web view refines the synchronous one: in every undisturbed run no
operation panics, the container window shows what was asked for last, and so does the
controller once the creation is done. -/
theorem creation_refines_sync (refused : WebViewId → Bool) {s : State} {as : List Action}
    (h : (thread refused).runVia (fun s a => undisturbed s a = true) {} as = some s) :
    ∃ t, sync.run {} (as.flatMap label) = some t ∧ s.panicked = false ∧
      ∀ w, (s.webviews w).state.alive = (t.views w).alive ∧
        ((s.webviews w).state.alive = true →
          (s.webviews w).hwnd.shown = (t.views w).visible ∧
          (s.webviews w).hwnd.bounds = (t.views w).bounds) ∧
        ∀ c, (s.webviews w).state.controller = some c → (s.webviews w).stage = .settled →
          lastOf Call.boundsOf (s.controllers c) =
              (t.views w).bounds.map (fun b => (b.width, b.height)) ∧
            lastOf Call.visibleOf (s.controllers c) = some (t.views w).visible ∧
            lastOf Call.pageOf (s.controllers c) = (t.views w).page ∧
            (s.controllers c).filter Call.isDirect = (t.views w).direct := by
  obtain ⟨t, ht, hr⟩ := (simulation refused).run h
  have hrun : (thread refused).run {} as = some s := System.run_of_runVia h
  refine ⟨t, ?_, hr.panicked, fun w => ⟨hr.alive w, fun ha => ?_, fun c hc hg => ?_⟩⟩
  · rw [← System.labels_eq_flatMap hrun]
    exact ht
  · exact ⟨(hr.refines w ha).shown, (hr.refines w ha).moved⟩
  · have hown := owned_of_reachable refused (System.reachVia_runVia .init h).reachable
    have hshows := (hr.refines w (hown.held w c hc).2.2.1).shows c hc
    rw [hg] at hshows
    obtain ⟨h₁, h₂, h₃, h₄⟩ := hshows
    simp only [Stage.rest, List.filterMap_nil, List.append_nil] at h₁ h₂ h₃ h₄
    exact ⟨h₁, h₂, h₃, h₄⟩

/-- Bounds, visibility and a page are asked for before the controller is there. -/
theorem creation_refines_sync_early :
    ∃ as s t, (thread fun _ => false).runVia (fun s a => undisturbed s a = true) {} as = some s ∧
      sync.run {} (as.flatMap label) = some t ∧ s.panicked = false := by
  obtain ⟨s, hs⟩ := Option.isSome_iff_exists.1 (show ((thread fun _ => false).runVia
    (fun s a => undisturbed s a = true) {} [.new {} ⟨1, 1, 0, 0⟩,
      .op 0 (.loadUrlWithHeaders ['a'] []), .environmentCompleted 0 (some 0),
      .op 0 (.setBounds ⟨2, 2, 0, 0⟩), .controllerCompleted 0 true, .op 0 (.setVisible false),
      .initialized 0 none, .replay 0, .replay 0, .replay 0, .replay 0]).isSome = true by decide)
  obtain ⟨t, ht, hp, _⟩ := creation_refines_sync (fun _ => false) hs
  exact ⟨_, s, t, hs, ht, hp⟩

end Wxp.WebView2
