import Wxp.Foundations.System
import Mathlib.Logic.Function.Basic

/-!
# Android — the main pipe

On Android every operation on a web view is a message to the main thread. `MainPipe::send`
puts it into a channel for eight messages and writes one byte into a pipe; the looper of
the main thread calls back while there is a byte to read, and the callback takes one
message from the channel and does what it says. Any thread can send, the main thread
included, and a send waits while the channel is full.

What a message finds depends on `ACTIVITY_PROXY`: an activity is registered by
`android_setup`, gets its web view when the message for its creation is handled, and is
removed by the message of `onWebviewDestroy`.
-/

namespace Wxp.Android

abbrev ActivityId := Nat
/-- A web view; the name of the `id` that `InnerWebView::new` gives it. -/
abbrev ViewId := Nat
/-- A call that waits for an answer; the name of its `tx`. -/
abbrev RequestId := Nat
abbrev Headers := List (List Char × List Char)

inductive WebViewMessage
  | createWebView (v : ViewId)
  | eval (script : List Char)
  | setBackgroundColor (r g b a : UInt8)
  | getWebViewVersion (tx : RequestId)
  | getUrl (tx : RequestId)
  | getCookies (tx : RequestId) (url : List Char)
  | jni
  | loadUrl (url : List Char) (headers : Option Headers)
  | loadHtml (html : List Char)
  | reload
  | clearAllBrowsingData
  | onDestroy (v : ViewId) (isChangingConfigurations : Bool)
  deriving DecidableEq, Repr

/-- Where the answer goes. -/
def WebViewMessage.tx : WebViewMessage → Option RequestId
  | .getWebViewVersion tx | .getUrl tx | .getCookies tx _ => some tx
  | .createWebView _ | .eval _ | .setBackgroundColor .. | .jni | .loadUrl .. | .loadHtml _
  | .reload | .clearAllBrowsingData | .onDestroy .. => none

/-- What user code sends without waiting for an answer. -/
def WebViewMessage.isOperation : WebViewMessage → Bool
  | .eval _ | .setBackgroundColor .. | .jni | .loadUrl .. | .loadHtml _ | .reload
  | .clearAllBrowsingData => true
  | .createWebView _ | .getWebViewVersion _ | .getUrl _ | .getCookies .. | .onDestroy .. => false

/-- The messages that are handled by `get_webview`. -/
def WebViewMessage.getsWebview : WebViewMessage → Bool
  | .eval _ | .setBackgroundColor .. | .getUrl _ | .getCookies .. | .loadUrl .. | .loadHtml _
  | .reload | .clearAllBrowsingData => true
  | .createWebView _ | .getWebViewVersion _ | .jni | .onDestroy .. => false

/-- `platform_webview_version`, `url` and `cookies_for_url`. -/
inductive Query
  | webviewVersion
  | url
  | cookiesForUrl (uri : List Char)
  deriving DecidableEq, Repr

def Query.message (q : Query) (tx : RequestId) : WebViewMessage :=
  match q with
  | .webviewVersion => .getWebViewVersion tx
  | .url => .getUrl tx
  | .cookiesForUrl uri => .getCookies tx uri

/-- A message with who sends it. -/
structure Sent where
  thread : Nat
  activity : ActivityId
  message : WebViewMessage
  deriving DecidableEq, Repr

/-- Where a thread is. -/
inductive Pc
  | idle
  /-- In the loop of `platform_webview_version`, which sleeps until there is an activity. -/
  | seeking
  /-- At `CHANNEL.0.send`. -/
  | pushing (x : Sent)
  /-- At the write of the byte. -/
  | writing (x : Sent)
  /-- At `rx.recv_timeout`. -/
  | awaiting (tx : RequestId)
  /-- In the callback of the looper, which has read its byte. -/
  | receiving
  deriving DecidableEq, Repr

/-- User code that runs while a message is handled. -/
inductive Frame
  | jni
  /-- `on_webview_created`, before the web view is registered. -/
  | creating (a : ActivityId) (v : ViewId)
  deriving DecidableEq, Repr

/-- Where a thread is when it sends the message of the query. -/
def Query.start : Query → Pc
  | .webviewVersion => .seeking
  | .url | .cookiesForUrl _ => .idle

inductive RequestPhase
  | waiting
  | answered
  /-- The `tx` is dropped without an answer. -/
  | disconnected
  | timedOut
  deriving DecidableEq, Repr

structure Request where
  thread : Nat := 0
  phase : RequestPhase := .waiting
  deriving DecidableEq, Repr

structure State where
  channel : List Sent := []
  /-- The bytes in `MAIN_PIPE`. -/
  bytes : Nat := 0
  /-- The threads by number; the main thread is the first. -/
  threads : List Pc := [.idle]
  /-- What the main thread is inside of, innermost first. -/
  stack : List Frame := []
  /-- The pipe is registered with the looper. -/
  registered : Bool := false
  /-- `ACTIVITY_PROXY`: the activities, with their web view. -/
  proxies : ActivityId → Option (Option ViewId) := fun _ => none
  /-- `WEBVIEW_ATTRIBUTES`, by the web view they are for. -/
  attributes : ActivityId → Option ViewId := fun _ => none
  nextView : ViewId := 0
  requests : RequestId → Request := fun _ => {}
  nextRequest : RequestId := 0
  /-- A callback of the looper has panicked. -/
  panicked : Bool := false
  /-- The sends that were begun, that the channel took, and that the callback took. -/
  begun : List Sent := []
  accepted : List Sent := []
  handled : List Sent := []
  /-- What the web views were told. -/
  performed : List (ViewId × WebViewMessage) := []

inductive Action
  | spawn
  /-- `MainPipe::send` from user code. -/
  | send (t : Nat) (a : ActivityId) (m : WebViewMessage)
  /-- `platform_webview_version` is called. -/
  | seek (t : Nat)
  /-- `a` is the activity of the web view, or the one that `first_activity_id` gives. -/
  | request (t : Nat) (a : ActivityId) (q : Query)
  /-- `InnerWebView::new` -/
  | new (t : Nat) (a : ActivityId)
  | androidSetup (a : ActivityId)
  | onWebviewDestroy (a : ActivityId) (v : ViewId) (isChangingConfigurations : Bool)
  | wryCreate
  | push (t : Nat)
  | write (t : Nat)
  /-- The looper calls back: `libc::read` of one byte. -/
  | read
  /-- `MainPipe::recv`; without `ok` a call through JNI fails on the way. -/
  | recv (ok : Bool)
  | endFrame (ok : Bool)
  | resume (t : Nat)
  | timeout (t : Nat)
  deriving DecidableEq, Repr

/-- `bounded(8)` -/
def capacity : Nat := 8

namespace State

def setPc (s : State) (t : Nat) (pc : Pc) : State := { s with threads := s.threads.set t pc }

/-- `MainPipe::send`, up to the channel. -/
def begin (s : State) (x : Sent) : State :=
  { s.setPc x.thread (.pushing x) with begun := s.begun ++ [x] }

def setRequest (s : State) (tx : RequestId) (phase : RequestPhase) : State :=
  { s with requests := Function.update s.requests tx { s.requests tx with phase } }

def addRequest (s : State) (t : Nat) : State :=
  { s with
    requests := Function.update s.requests s.nextRequest { thread := t }
    nextRequest := s.nextRequest + 1 }

def setProxy (s : State) (a : ActivityId) (proxy : Option (Option ViewId)) : State :=
  { s with proxies := Function.update s.proxies a proxy }

def panic (s : State) : State := { s with panicked := true }

/-- The callback returns `false`. -/
def unregister (s : State) : State := { s with registered := false }

def enter (s : State) (f : Frame) : State := { s with stack := f :: s.stack }

def record (s : State) (v : ViewId) (m : WebViewMessage) : State :=
  { s with performed := s.performed ++ [(v, m)] }

/-- `tx.send(_).unwrap()` -/
def reply (s : State) (tx : RequestId) : State :=
  match (s.requests tx).phase with
  | .waiting => s.setRequest tx .answered
  | .answered | .disconnected | .timedOut => s.panic

/-- The message is dropped, with its `tx`. -/
def disconnect (s : State) (m : WebViewMessage) : State :=
  match m.tx with
  | some tx =>
      match (s.requests tx).phase with
      | .waiting => s.setRequest tx .disconnected
      | .answered | .disconnected | .timedOut => s
  | none => s

/-- The message is for the web view `v`. -/
def perform (s : State) (v : ViewId) (m : WebViewMessage) (ok : Bool) : State :=
  match m with
  | .getUrl tx => (s.record v m).reply tx
  | .getCookies tx _ => if ok then (s.record v m).reply tx else (s.disconnect m).unregister
  | .createWebView _ | .eval _ | .setBackgroundColor .. | .getWebViewVersion _ | .jni
  | .loadUrl .. | .loadHtml _ | .reload | .clearAllBrowsingData | .onDestroy .. =>
      if ok then s.record v m else s.unregister

/-- The message is for the web view of the activity, by `get_webview`, which unwraps the proxy. -/
def withWebview (s : State) (a : ActivityId) (m : WebViewMessage) (ok : Bool) : State :=
  match s.proxies a with
  | none => s.panic
  | some none => s.disconnect m
  | some (some v) => s.perform v m ok

/-- `super::destroy_webview` and `remove_activity_proxy` -/
def destroyWebview (s : State) (a : ActivityId) : State :=
  { s.setProxy a none with attributes := Function.update s.attributes a none }

/-- What `MainPipe::recv` does with a message. -/
def handle (s : State) (a : ActivityId) (m : WebViewMessage) (ok : Bool) : State :=
  match m with
  | .createWebView v =>
      match s.proxies a with
      | none => s
      | some _ => if ok then s.enter (.creating a v) else s.unregister
  | .getWebViewVersion tx => s.reply tx
  | .jni => s.enter .jni
  | .onDestroy _ isChangingConfigurations =>
      if isChangingConfigurations then s else s.destroyWebview a
  | .eval _ | .setBackgroundColor .. | .getUrl _ | .getCookies .. | .loadUrl .. | .loadHtml _
  | .reload | .clearAllBrowsingData => s.withWebview a m ok

/-- `register_activity_proxy` keeps the web view of an activity it knows. -/
def registerActivityProxy (s : State) (a : ActivityId) : State :=
  s.setProxy a (some ((s.proxies a).getD none))

/-- The main thread is neither at a send nor in the callback. -/
def mainIdle (s : State) : Bool := s.threads[0]? == some .idle

/-- Java calls the activity. -/
def javaCalls (s : State) : Bool := s.mainIdle && s.stack.isEmpty

/-- `MainPipe::recv`, whose channel has a message. -/
def recv (s : State) (ok : Bool) : Option State :=
  match s.threads[0]?, s.channel with
  | some Pc.receiving, x :: rest =>
      some (handle { s.setPc 0 .idle with channel := rest, handled := s.handled ++ [x] }
        x.activity x.message ok)
  | _, _ => none

/-- User code within the handling of a message returns. -/
def endFrame (s : State) (ok : Bool) : Option State :=
  match s.stack with
  | .jni :: rest => some { s with stack := rest }
  | .creating a v :: rest =>
      let s := { s with stack := rest }
      if ok then
        match s.proxies a with
        | none => some s.panic
        | some _ => some (s.setProxy a (some (some v)))
      else some s.unregister
  | [] => none

def push (s : State) (t : Nat) : Option State :=
  match s.threads[t]? with
  | some (.pushing x) =>
      if s.channel.length < capacity then
        some { s.setPc t (.writing x) with
          channel := s.channel ++ [x], accepted := s.accepted ++ [x] }
      else none
  | _ => none

def write (s : State) (t : Nat) : Option State :=
  match s.threads[t]? with
  | some (.writing x) =>
      some { s.setPc t (x.message.tx.elim .idle .awaiting) with bytes := s.bytes + 1 }
  | _ => none

/-- `rx.recv_timeout` returns what came. -/
def resume (s : State) (t : Nat) : Option State :=
  match s.threads[t]? with
  | some (.awaiting tx) =>
      if (s.requests tx).phase = .waiting then none else some (s.setPc t .idle)
  | _ => none

/-- `rx.recv_timeout` returns without an answer. -/
def timeout (s : State) (t : Nat) : Option State :=
  match s.threads[t]? with
  | some (.awaiting tx) =>
      if (s.requests tx).phase = .waiting then
        some ((s.setPc t .idle).setRequest tx .timedOut)
      else none
  | _ => none

end State

open State in
def step (s : State) (act : Action) : Option State :=
  if s.panicked then none else
  match act with
  | .spawn => some { s with threads := s.threads ++ [.idle] }
  | .send t a m =>
      if s.threads[t]? = some .idle ∧ m.isOperation = true then some (s.begin ⟨t, a, m⟩) else none
  | .seek t => if s.threads[t]? = some .idle then some (s.setPc t .seeking) else none
  | .request t a q =>
      if s.threads[t]? = some q.start ∧ (q = .webviewVersion → (s.proxies a).isSome = true) then
        some ((s.addRequest t).begin ⟨t, a, q.message s.nextRequest⟩)
      else none
  | .new t a =>
      if s.threads[t]? = some .idle ∧ (s.proxies a).isSome = true then
        some (State.begin { s with
          attributes := Function.update s.attributes a (some s.nextView)
          nextView := s.nextView + 1 } ⟨t, a, .createWebView s.nextView⟩)
      else none
  | .androidSetup a =>
      if s.javaCalls then
        match s.attributes a with
        | some v => some ((s.registerActivityProxy a).begin ⟨0, a, .createWebView v⟩)
        | none => some (s.registerActivityProxy a)
      else none
  | .onWebviewDestroy a v isChangingConfigurations =>
      if s.javaCalls then some (s.begin ⟨0, a, .onDestroy v isChangingConfigurations⟩) else none
  | .wryCreate => if s.javaCalls then some { s with registered := true } else none
  | .push t => s.push t
  | .write t => s.write t
  | .read =>
      if s.registered && s.mainIdle && decide (0 < s.bytes) then
        some { s.setPc 0 .receiving with bytes := s.bytes - 1 }
      else none
  | .recv ok => s.recv ok
  | .endFrame ok => if s.mainIdle then s.endFrame ok else none
  | .resume t => s.resume t
  | .timeout t => s.timeout t

/-- The main thread, any number of other threads, and the activities of the process. -/
def mainPipe : System State Action where
  init := {}
  step := step

end Wxp.Android
