import Wxp.CustomProtocol.WorkAround
import Wxp.Foundations.System
import Mathlib.Logic.Function.Basic

/-!
# WebView2 — the asynchronous creation

`crates/wry/src/webview2/mod.rs` of the fork never pumps messages while it waits for
WebView2: `InnerWebView::new` returns at once, and the creation goes on in the completion
callbacks of the environment and of the controller. The model is the thread of the host
window, with all the web views on it; every callback, every operation and every drop is
a step, in any order. They are child web views (`new_as_child`): one that fills its parent
also subclasses it (`attach_parent_subclass`), and the parent's messages call the controller
by themselves.

* Creations of controllers are serialised by the thread's queue
  (`WEBVIEW2_CONTROLLER_CREATION_QUEUE`). A task whose owner is gone, or whose call is
  `refused`, completes within the same step, and the next one runs.
* `init_webview` and the operations that `finish_create_controller` replays are calls
  into WebView2 and Win32 that may let the host in again, so other steps may come
  between (`initializing`, `replaying`).
* `load_url` and `load_html` hold the borrow of `if let Some(..) = self.state.borrow()..`
  through the `else` branch (edition 2021), where `borrow_mut` panics.

Left out are the settings, event handlers and scripts of `init_webview`, and the destruction
of the container window. The native calls of an operation succeed, and nothing comes between
them: an operation nested in those of another one, which may hold the borrow of the state, is
not modelled.
-/

namespace Wxp.WebView2

open CustomProtocol (navigationUrl httpOrHttps)

abbrev WebViewId := Nat
abbrev ControllerId := Nat
abbrev EnvironmentId := Nat
abbrev Headers := List (List Char × List Char)

/-- `(PhysicalSize<i32>, PhysicalPosition<i32>)`. -/
structure Bounds where
  width : Int
  height : Int
  x : Int
  y : Int
  deriving DecidableEq, Repr

inductive PendingNavigation
  | url (url : List Char)
  | urlWithHeaders (url : List Char) (headers : Headers)
  | html (html : List Char)
  deriving DecidableEq, Repr

/-- What the code asks of an `ICoreWebView2Controller` and its `ICoreWebView2`. -/
inductive Call
  | setBounds (width height : Int)
  | setIsVisible (visible : Bool)
  | moveFocus
  /-- The factor is an `f64`, given by its bits. -/
  | setZoomFactor (factor : UInt64)
  | navigate (navigation : PendingNavigation)
  | executeScript (js : List Char)
  | reload
  | close
  deriving DecidableEq, Repr

/-- The `WebViewAttributes` that the creation reads. -/
structure Attributes where
  visible : Bool := true
  focused : Bool := true
  url : Option (List Char) := none
  headers : Option Headers := none
  html : Option (List Char) := none
  customProtocols : List (List Char) := []
  useHttps : Bool := false
  /-- `pl_attrs.environment`. -/
  environment : Option EnvironmentId := none

/-- The navigation that `init_webview` starts. -/
def Attributes.navigation (a : Attributes) : Option PendingNavigation :=
  match a.url with
  | some url =>
      let url := navigationUrl a.customProtocols (httpOrHttps a.useHttps) url
      match a.headers with
      | some headers => some (.urlWithHeaders url headers)
      | none => some (.url url)
  | none => a.html.map .html

/-- The calls of `init_webview`, up to the ones left out. -/
def Attributes.initCalls (a : Attributes) (visible : Bool) : List Call :=
  (a.navigation.map .navigate).toList ++ [.setIsVisible visible] ++
    if a.focused then [.moveFocus] else []

structure WebViewState where
  alive : Bool := false
  visible : Bool := false
  controller : Option ControllerId := none
  /-- The `ICoreWebView2` of a controller. -/
  webview : Option ControllerId := none
  env : Option EnvironmentId := none
  pendingBounds : Option Bounds := none
  pendingNavigation : Option PendingNavigation := none
  deriving DecidableEq, Repr

/-- The last statements of `finish_create_controller`. -/
inductive Replay
  | showWindow (visible : Bool)
  | setIsVisible (visible : Bool)
  | bounds (bounds : Bounds)
  | navigation (navigation : PendingNavigation)
  deriving DecidableEq, Repr

/-- How far the creation is. -/
inductive Stage
  /-- The environment is asked for. -/
  | environment
  /-- The task waits in the queue. -/
  | queued
  /-- The controller is asked for. -/
  | creating (env : EnvironmentId)
  /-- `init_webview` runs with this visibility. -/
  | initializing (env : EnvironmentId) (c : ControllerId) (visible : Bool)
  | replaying (c : ControllerId) (rest : List Replay)
  /-- Nothing is left to do, or the creation has failed. -/
  | settled
  deriving DecidableEq, Repr

/-- The container window. -/
structure Window where
  shown : Bool := false
  bounds : Option Bounds := none
  deriving DecidableEq, Repr

structure WebView where
  state : WebViewState := {}
  hwnd : Window := {}
  attributes : Attributes := {}
  stage : Stage := .settled

/-- The web view of `new_in_hwnd` before its creation is begun. -/
def WebView.created (a : Attributes) : WebView where
  state := { alive := true, visible := a.visible }
  hwnd := { shown := a.visible }
  attributes := a
  stage := .environment

/-- A task of the creation queue: the web view, and the environment it captures. -/
structure Task where
  webview : WebViewId
  env : EnvironmentId
  deriving DecidableEq, Repr

/-- `WebView2ControllerCreationQueue`. -/
structure Queue where
  active : Bool := false
  pending : List Task := []
  /-- History: the tasks in the order they came, and those that were run. -/
  enqueued : List Task := []
  started : List Task := []

/-- The web views and controllers from the next numbers on do not exist yet. -/
structure State where
  webviews : WebViewId → WebView := fun _ => {}
  nextWebView : WebViewId := 0
  /-- The calls each controller has received. -/
  controllers : ControllerId → List Call := fun _ => []
  nextController : ControllerId := 0
  queue : Queue := {}
  panicked : Bool := false
  /-- History: the web view each controller was created for. -/
  owner : ControllerId → WebViewId := fun _ => 0

/-- The public operations on a web view. -/
inductive Op
  | setBounds (b : Bounds)
  | setVisible (visible : Bool)
  | loadUrl (url : List Char)
  | loadUrlWithHeaders (url : List Char) (headers : Headers)
  | loadHtml (html : List Char)
  | eval (js : List Char)
  | reload
  | zoom (factor : UInt64)
  | focus
  | drop
  deriving DecidableEq, Repr

inductive Action
  /-- `InnerWebView::new`; the bounds are those of its last statement. -/
  | new (a : Attributes) (b : Bounds)
  | op (w : WebViewId) (o : Op)
  | environmentCompleted (w : WebViewId) (env : Option EnvironmentId)
  | controllerCompleted (w : WebViewId) (ok : Bool)
  /-- `init_webview` returns, or fails after so many of its calls. -/
  | initialized (w : WebViewId) (failedAfter : Option Nat)
  | replay (w : WebViewId)

namespace State

def setWebView (s : State) (w : WebViewId) (v : WebView) : State :=
  { s with webviews := Function.update s.webviews w v }

def addWebView (s : State) (v : WebView) : State :=
  { s.setWebView s.nextWebView v with nextWebView := s.nextWebView + 1 }

def setStage (s : State) (w : WebViewId) (g : Stage) : State :=
  s.setWebView w { s.webviews w with stage := g }

def setHwnd (s : State) (w : WebViewId) (h : Window) : State :=
  s.setWebView w { s.webviews w with hwnd := h }

def setInner (s : State) (w : WebViewId) (i : WebViewState) : State :=
  s.setWebView w { s.webviews w with state := i }

/-- The controller receives calls. -/
def call (s : State) (c : ControllerId) (calls : List Call) : State :=
  { s with controllers := Function.update s.controllers c (s.controllers c ++ calls) }

/-! ## The queue -/

def setQueue (s : State) (q : Queue) : State :=
  { s with queue := q }

/-- A task of `begin_create_controller`. Where it fails it calls
`complete_controller_creation`, given by `complete`. -/
def runTask (refused : WebViewId → Bool) (complete : State → State) (t : Task) (s : State) :
    State :=
  let s := s.setQueue { s.queue with started := s.queue.started ++ [t] }
  if !(s.webviews t.webview).state.alive then complete (s.setStage t.webview .settled)
  else if refused t.webview then complete (s.setStage t.webview .settled)
  else s.setStage t.webview (.creating t.env)

/-- `complete_controller_creation`, with the pending tasks as an argument. -/
def completeControllerCreation (refused : WebViewId → Bool) : List Task → State → State
  | [], s => s.setQueue { s.queue with active := false, pending := [] }
  | t :: rest, s =>
      runTask refused (completeControllerCreation refused rest) t
        (s.setQueue { s.queue with pending := rest })

/-- `enqueue_controller_creation`. -/
def enqueueControllerCreation (refused : WebViewId → Bool) (s : State) (t : Task) : State :=
  let q := { s.queue with enqueued := s.queue.enqueued ++ [t] }
  let s := s.setStage t.webview .queued
  if q.active then s.setQueue { q with pending := q.pending ++ [t] }
  else
    runTask refused (completeControllerCreation refused q.pending) t
      (s.setQueue { q with active := true })

/-! ## The operations -/

def applyBounds (s : State) (w : WebViewId) (c : ControllerId) (b : Bounds) : State :=
  (s.call c [.setBounds b.width b.height]).setHwnd w
    { (s.webviews w).hwnd with bounds := some b }

def showWindow (s : State) (w : WebViewId) (visible : Bool) : State :=
  s.setHwnd w { (s.webviews w).hwnd with shown := visible }

/-- `set_bounds_inner`. -/
def setBoundsInner (s : State) (w : WebViewId) (b : Bounds) : State :=
  let v := s.webviews w
  match v.state.controller with
  | some c => s.applyBounds w c b
  | none =>
      (s.setInner w { v.state with pendingBounds := some b }).setHwnd w
        { v.hwnd with bounds := some b }

def setVisible (s : State) (w : WebViewId) (visible : Bool) : State :=
  let i := (s.webviews w).state
  let s := (s.setInner w { i with visible }).showWindow w visible
  match i.controller with
  | some c => s.call c [.setIsVisible visible]
  | none => s

/-- `load_url` and `load_html`: before the web view is there they panic. -/
def load (s : State) (w : WebViewId) (n : PendingNavigation) : State :=
  match (s.webviews w).state.webview with
  | some c => s.call c [.navigate n]
  | none => { s with panicked := true }

def loadUrlWithHeaders (s : State) (w : WebViewId) (n : PendingNavigation) : State :=
  let i := (s.webviews w).state
  match i.env, i.webview with
  | some _, some c => s.call c [.navigate n]
  | _, _ => s.setInner w { i with pendingNavigation := some n }

/-- `eval`, `reload`, `zoom` and `focus`: before the handle is there they do nothing. -/
def callIfReady (s : State) (handle : Option ControllerId) (call : Call) : State :=
  match handle with
  | some c => s.call c [call]
  | none => s

/-- `InnerWebView::drop`. -/
def drop (s : State) (w : WebViewId) : State :=
  let i := (s.webviews w).state
  let s := s.setInner w { i with alive := false, controller := none, webview := none, env := none }
  match i.controller with
  | some c => s.call c [.close]
  | none => s

def applyOp (s : State) (w : WebViewId) : Op → State
  | .setBounds b => s.setBoundsInner w b
  | .setVisible visible => s.setVisible w visible
  | .loadUrl url => s.load w (.url url)
  | .loadUrlWithHeaders url headers => s.loadUrlWithHeaders w (.urlWithHeaders url headers)
  | .loadHtml html => s.load w (.html html)
  | .eval js => s.callIfReady (s.webviews w).state.webview (.executeScript js)
  | .reload => s.callIfReady (s.webviews w).state.webview .reload
  | .zoom factor => s.callIfReady (s.webviews w).state.controller (.setZoomFactor factor)
  | .focus => s.callIfReady (s.webviews w).state.controller .moveFocus
  | .drop => s.drop w

/-! ## The creation -/

/-- `InnerWebView::new_in_hwnd`. -/
def new (refused : WebViewId → Bool) (s : State) (a : Attributes) (b : Bounds) : State :=
  let w := s.nextWebView
  let s := s.addWebView (.created a)
  let s := match a.environment with
    | some env => s.enqueueControllerCreation refused ⟨w, env⟩
    | none => s
  s.setBoundsInner w b

/-- WebView2 hands over a controller. -/
def newController (s : State) (w : WebViewId) : State :=
  { s with
    nextController := s.nextController + 1
    owner := Function.update s.owner s.nextController w }

/-- `finish_create_controller` up to `init_webview`. -/
def beginFinish (s : State) (w : WebViewId) (env : EnvironmentId) (c : ControllerId) : State :=
  let i := (s.webviews w).state
  if !i.alive then (s.call c [.close]).setStage w .settled
  else s.setStage w (.initializing env c i.visible)

/-- The callback of `CreateCoreWebView2Controller`. -/
def controllerCompleted (refused : WebViewId → Bool) (s : State) (w : WebViewId)
    (env : EnvironmentId) (ok : Bool) : State :=
  let s := completeControllerCreation refused s.queue.pending (s.setStage w .settled)
  if ok then (s.newController w).beginFinish w env s.nextController else s

/-- The statements that `finish_create_controller` ends with. -/
def replays (i : WebViewState) : List Replay :=
  [.showWindow i.visible, .setIsVisible i.visible] ++ (i.pendingBounds.map .bounds).toList ++
    (i.pendingNavigation.map .navigation).toList

/-- `finish_create_controller` from the second check of `alive` on. -/
def takePending (s : State) (w : WebViewId) (env : EnvironmentId) (c : ControllerId) : State :=
  let i := (s.webviews w).state
  if !i.alive then (s.call c [.close]).setStage w .settled
  else
    (s.setInner w
      { i with
        env := some env
        controller := some c
        webview := some c
        pendingBounds := none
        pendingNavigation := none }).setStage w (.replaying c (replays i))

/-- `init_webview` is over. -/
def initialized (s : State) (w : WebViewId) (env : EnvironmentId) (c : ControllerId)
    (visible : Bool) (failedAfter : Option Nat) : State :=
  let calls := (s.webviews w).attributes.initCalls visible
  match failedAfter with
  | some n => ((s.call c (calls.take n)).call c [.close]).setStage w .settled
  | none => (s.call c calls).takePending w env c

def perform (s : State) (w : WebViewId) (c : ControllerId) : Replay → State
  | .showWindow visible => s.showWindow w visible
  | .setIsVisible visible => s.call c [.setIsVisible visible]
  | .bounds b => s.applyBounds w c b
  | .navigation n => s.call c [.navigate n]

/-- Behind the last statement nothing is left to do. -/
def replayStage (c : ControllerId) : List Replay → Stage
  | [] => .settled
  | rest => .replaying c rest

end State

open State in
/-- One step of the thread. -/
def step (refused : WebViewId → Bool) (s : State) : Action → Option State
  | .new a b => some (s.new refused a b)
  | .op w o => if (s.webviews w).state.alive then some (s.applyOp w o) else none
  | .environmentCompleted w env =>
      match (s.webviews w).stage, env with
      | .environment, some env => some (s.enqueueControllerCreation refused ⟨w, env⟩)
      | .environment, none => some (s.setStage w .settled)
      | _, _ => none
  | .controllerCompleted w ok =>
      match (s.webviews w).stage with
      | .creating env => some (s.controllerCompleted refused w env ok)
      | _ => none
  | .initialized w failedAfter =>
      match (s.webviews w).stage with
      | .initializing env c visible => some (s.initialized w env c visible failedAfter)
      | _ => none
  | .replay w =>
      match (s.webviews w).stage with
      | .replaying c (r :: rest) => some ((s.perform w c r).setStage w (replayStage c rest))
      | _ => none

/-- The thread. `refused` says for which web views `CreateCoreWebView2Controller` fails
at once. -/
def thread (refused : WebViewId → Bool) : System State Action where
  init := {}
  step := step refused

end Wxp.WebView2
