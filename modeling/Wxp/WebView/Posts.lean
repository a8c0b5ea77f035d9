import Wxp.RunLoop.Process
import Wxp.Channel.State

/-!
# WebView — Posts

`WebViewDispatch::post_webview_op_or_else` of `src/webview.rs`, and the large payloads
that `Channel::send_large_data` hands over through it (`src/wxp_channel/channel.rs`,
`internals.rs`). Any number of threads post to any number of WebViews; every access to
something shared is a step of its own, so a run is one interleaving.

* A post builds the closure `run`. On the thread of the run loop it runs `run` in place;
  elsewhere `RunLoopSender::send` puts it into the queue of the run loop (`Target`), whose
  dispatch passes are those of `RunLoop.Platform`.
* `run` has the `AbandonedPostCleanup` as a local variable (`armed`), upgrades its weak
  handle of the WebView, and runs `op`. wry answers with `ok`, with an error, or panics.
  Off the thread of the WebView the `SendWrapper` panics.
* `ok` does not say that a script was evaluated. Before it has its web view, WebView2's
  `eval` does nothing; WKWebView's and WebKitGTK's put the script into `pending_scripts` and
  evaluate it when the first page is committed. Android's `eval` sends it through the main
  pipe, where it waits for the creation of the web view, and is lost after the activity is
  destroyed; in between it counts as evaluated when it is sent.
* The run loop may be shut down, and its last strong reference may go, at any time. The
  queue goes with it, except for the sources of the GLib context.

What a panic does to the run loop above `run` is left out.
-/

namespace Wxp.WebView

open RunLoop (Gen Thread TimerId Loop Act Backend SendOutcome)
open Channel (Body fetchAdd)

abbrev WebViewId := Nat
abbrev PostId := Nat

/-- `crate::Error`, as far as posting returns it. -/
inductive Error
  | webViewClosed
  | runLoopNotInitialized
  deriving DecidableEq, Repr

/-- What the senders put into the queue: the closure `run` of a post, or another one. -/
inductive Sent
  | post (k : PostId)
  | other (n : Nat)
  deriving DecidableEq, Repr

def Sent.isPost : Sent → Bool
  | .post _ => true
  | .other _ => false

/-- The run loop of a `RunLoopSender`. -/
structure Target where
  owner : Thread := 0
  shutdownToken : Bool := false
  dropped : Bool := false
  loop : Loop Sent TimerId := {}

/-- What becomes of a script that wry's `eval` is given. -/
inductive Eval
  | evaluated
  /-- It waits in `pending_scripts`, or in the main pipe. -/
  | pending
  | dropped
  deriving DecidableEq, Repr

/-- What a WebView does with scripts when it is new. -/
def newEval : Backend → Eval
  | .win32 => .dropped
  | .darwin | .linux | .android => .pending

/-- The `Arc` in a `WxpWebView`. -/
structure Native where
  sender : Gen := 0
  /-- The `WxpWebView` is there. -/
  owned : Bool := false
  strong : Nat := 0
  eval : Eval := .evaluated

/-- Where the posting thread is inside `post_webview_op_or_else`. -/
inductive CallPc
  | idle
  | entered
  | built
  /-- It runs the closure in place. -/
  | inline
  /-- `RunLoopSender::send` has found the token unset. -/
  | checked
  /-- `g_main_context_invoke_full` runs the closure in place. -/
  | invoking
  /-- The platform sender has taken the closure. -/
  | enqueued
  | returned (r : Except Error Unit)
  /-- The closure panicked on this thread. -/
  | unwound
  deriving DecidableEq, Repr

/-- Where the closure `run` is. -/
inductive RunPc
  | none
  | held
  | sent
  | started
  /-- The WebView is upgraded and `op` runs. -/
  | upgraded
  | ended
  /-- It was dropped and never ran. -/
  | destroyed
  deriving DecidableEq, Repr

structure Post where
  webview : WebViewId := 0
  sender : Gen := 0
  thread : Thread := 0
  /-- What its `on_webview_closed` removes from the store. -/
  dataId : Option Nat := .none
  pc : CallPc := .idle
  run : RunPc := .none
  /-- `AbandonedPostCleanup::callback` is there. -/
  armed : Bool := false
  panicked : Bool := false
  /-- wry has the script, for when the WebView is ready. -/
  pending : Bool := false
  /-- History: how often the script was evaluated. -/
  evaluated : Nat := 0
  /-- History: how often `on_webview_closed` was called. -/
  cleaned : Nat := 0

structure Entry where
  body : Body
  /-- History: the post that tells the page of it. -/
  post : PostId

structure State where
  targets : Gen → Target := fun _ => {}
  nextGen : Gen := 0
  webviews : WebViewId → Native := fun _ => {}
  nextWebView : WebViewId := 0
  posts : PostId → Post := fun _ => {}
  nextPost : PostId := 0
  /-- `CHANNEL_DATA_COUNTER`. -/
  dataCounter : Nat := 1
  /-- `CHANNEL_DATA_STORE`. -/
  store : Nat → Option Entry := fun _ => none

/-- `op` evaluates a script that fetches what is in the store. What becomes of the scripts of
other posts does not matter here. -/
def Post.fetches (p : Post) : Bool := p.dataId.isSome

/-- wry's `eval` returns. -/
def Post.eval (p : Post) : Eval → Post
  | .evaluated => { p with evaluated := p.evaluated + 1 }
  | .pending => { p with pending := true }
  | .dropped => p

/-- How `op` ends. -/
inductive OpResult
  | ok
  | err
  | panic
  deriving DecidableEq, Repr

inductive Action
  | newLoop (t : Thread)
  | newWebView (g : Gen)
  | dropWebView (w : WebViewId)
  /-- The web view is created (WebView2, Android), or its first page is committed. -/
  | ready (w : WebViewId)
  /-- With that the script of the post is evaluated. -/
  | evalPending (k : PostId)
  /-- The activity of the web view is destroyed. -/
  | activityDestroyed (w : WebViewId)
  /-- `shutdown` sets the token. -/
  | shutdown (g : Gen)
  | dropLoop (g : Gen)
  | loop (g : Gen) (a : Act Sent TimerId)
  /-- Any other post. -/
  | post (w : WebViewId) (t : Thread)
  | sendLargeData (w : WebViewId) (t : Thread) (body : Body)
  /-- The posting thread goes on. -/
  | call (k : PostId)
  | enqueue (k : PostId) (outcome : SendOutcome)
  /-- The closure goes on. -/
  | run (k : PostId) (r : OpResult)
  /-- The page fetches channel data. -/
  | fetch (d : Nat)

namespace State

def setTarget (s : State) (g : Gen) (t : Target) : State :=
  { s with targets := Function.update s.targets g t }

def setWebView (s : State) (w : WebViewId) (v : Native) : State :=
  { s with webviews := Function.update s.webviews w v }

def setPost (s : State) (k : PostId) (p : Post) : State :=
  { s with posts := Function.update s.posts k p }

/-! ## The closure -/

/-- `remove_channel_data`. -/
def removeChannelData (s : State) (d : Nat) : State :=
  { s with store := Function.update s.store d none }

/-- `on_webview_closed()` of post `k`. -/
def onWebviewClosed (s : State) (k : PostId) : State :=
  let p := s.posts k
  let s' := s.setPost k { p with cleaned := p.cleaned + 1 }
  match p.dataId with
  | some d => s'.removeChannelData d
  | none => s'

/-- `AbandonedPostCleanup::new`. -/
def newCleanup (s : State) (k : PostId) : State :=
  s.setPost k { s.posts k with armed := true }

/-- `AbandonedPostCleanup::run`; also its drop. -/
def runCleanup (s : State) (k : PostId) : State :=
  if (s.posts k).armed then (s.setPost k { s.posts k with armed := false }).onWebviewClosed k
  else s

/-- `AbandonedPostCleanup::disarm`. -/
def disarm (s : State) (k : PostId) : State :=
  s.setPost k { s.posts k with armed := false }

/-- `inner.upgrade()`. -/
def upgrade (s : State) (w : WebViewId) : Option State :=
  let v := s.webviews w
  if v.strong = 0 then none else some (s.setWebView w { v with strong := v.strong + 1 })

/-- A strong reference goes. -/
def release (s : State) (w : WebViewId) : State :=
  s.setWebView w { s.webviews w with strong := (s.webviews w).strong - 1 }

/-- The closure is at its end: its local variables are dropped. -/
def endRun (s : State) (k : PostId) : State :=
  let s' := s.runCleanup k
  s'.setPost k { s'.posts k with run := .ended }

/-- What becomes of the script of post `k`. -/
def evalOf (s : State) (k : PostId) : Eval :=
  if (s.posts k).fetches then (s.webviews (s.posts k).webview).eval else .evaluated

/-- The closure `run`: up to `op`, or `op` and what follows it. -/
def stepRun (s : State) (k : PostId) (r : OpResult) : Option State :=
  let p := s.posts k
  match p.run with
  | .started =>
      let s' := s.newCleanup k
      match s'.upgrade p.webview with
      | none => some ((s'.runCleanup k).endRun k)
      | some s' => some (s'.setPost k { s'.posts k with run := .upgraded })
  | .upgraded =>
      if p.pc = .invoking ∧ r ≠ .panic then none
      else
        let s' := s.release p.webview
        match r with
        | .ok =>
            let s' := s'.setPost k (p.eval (s.evalOf k))
            some ((s'.disarm k).endRun k)
        | .err => some ((s'.disarm k).endRun k)
        | .panic => some ((s'.setPost k { p with panicked := true }).endRun k)
  | _ => none

/-! ## The posting thread -/

def setReturned (s : State) (k : PostId) (r : Except Error Unit) : State :=
  s.setPost k { s.posts k with pc := .returned r }

/-- A post is begun. -/
def begin (s : State) (w : WebViewId) (t : Thread) (dataId : Option Nat) : State :=
  { s.setPost s.nextPost
      { webview := w, sender := (s.webviews w).sender, thread := t, dataId, pc := .entered } with
    nextPost := s.nextPost + 1 }

/-- `send_large_data` up to the post. -/
def sendLargeData (s : State) (w : WebViewId) (t : Thread) (body : Body) : State :=
  let d := s.dataCounter
  { s.begin w t (some d) with
    dataCounter := fetchAdd d
    store := Function.update s.store d (some ⟨body, s.nextPost⟩) }

/-- `post_webview_op_or_else`, but for the platform sender. -/
def stepCall (s : State) (k : PostId) : Option State :=
  let p := s.posts k
  let t := s.targets p.sender
  match p.pc with
  | .entered =>
      if (s.webviews p.webview).strong = 0 then
        some ((s.onWebviewClosed k).setReturned k (.error .webViewClosed))
      else some (s.setPost k { p with pc := .built, run := .held })
  | .built =>
      if p.thread = t.owner then some (s.setPost k { p with pc := .inline, run := .started })
      else if t.dropped || t.shutdownToken then
        some (s.setPost k
          { p with pc := .returned (.error .runLoopNotInitialized), run := .destroyed })
      else some (s.setPost k { p with pc := .checked })
  | .inline =>
      if p.run = .ended then
        some (s.setPost k { p with pc := if p.panicked then .unwound else .returned (.ok ()) })
      else none
  | .invoking =>
      if p.run = .ended then
        some (s.setPost k { p with pc := if p.panicked then .unwound else .enqueued })
      else none
  | .enqueued =>
      some (s.setReturned k (if t.shutdownToken then .error .runLoopNotInitialized else .ok ()))
  | _ => none

/-- `PlatformRunLoopSender::send`. -/
def enqueue (s : State) (b : Backend) (k : PostId) (outcome : SendOutcome) : Option State :=
  let p := s.posts k
  let t := s.targets p.sender
  if p.pc = .checked ∧ b.mayEnd t.dropped outcome then
    match outcome with
    | .queued =>
        some ((s.setTarget p.sender { t with loop := t.loop.push (.post k) }).setPost k
          { p with pc := .enqueued, run := .sent })
    | .lost => some (s.setPost k { p with pc := .enqueued, run := .destroyed })
    | .refused =>
        some (s.setPost k
          { p with pc := .returned (.error .runLoopNotInitialized), run := .destroyed })
    | .inline => some (s.setPost k { p with pc := .invoking, run := .started })
  else none

/-! ## The run loop -/

/-- The closure begins to run on the run loop. -/
def startRun (s : State) : Sent → State
  | .post k => s.setPost k { s.posts k with run := .started }
  | .other _ => s

/-- The action sends the closure of a post; only `enqueue` does that. -/
def sendsPost : Act Sent TimerId → Bool
  | .send c | .wakeBlockOn c => c.isPost
  | _ => false

/-- A closure of a post returns to its dispatch pass at its end only. -/
def mayStep (s : State) (l : Loop Sent TimerId) : Act Sent TimerId → Bool
  | .finish =>
      match l.stack with
      | .callback (.post k) :: _ => decide ((s.posts k).run = .ended)
      | _ => true
  | a => !sendsPost a

def stepLoop (s : State) (b : Backend) (g : Gen) (a : Act Sent TimerId) : Option State :=
  let t := s.targets g
  if g < s.nextGen ∧ s.mayStep t.loop a then
    (t.loop.step b a).map fun l =>
      (l.started.drop t.loop.started.length).foldl startRun (s.setTarget g { t with loop := l })
  else none

/-- The last strong reference to the run loop goes, or to its queue again after a sender
that was past its upgrade. -/
def dropLoop (s : State) (b : Backend) (g : Gen) : Option State :=
  let t := s.targets g
  if g < s.nextGen then
    if b = .linux then some (s.setTarget g { t with dropped := true })
    else some { s.setTarget g { t with dropped := true, loop := t.loop.discard } with
      posts := fun k =>
        if .post k ∈ t.loop.state.callbacks then { s.posts k with run := .destroyed }
        else s.posts k }
  else none

def step (b : Backend) (s : State) : Action → Option State
  | .newLoop t =>
      some { s.setTarget s.nextGen { owner := t } with nextGen := s.nextGen + 1 }
  | .newWebView g =>
      if g < s.nextGen then
        let v : Native := { sender := g, owned := true, strong := 1, eval := newEval b }
        some { s.setWebView s.nextWebView v with nextWebView := s.nextWebView + 1 }
      else none
  | .dropWebView w =>
      if (s.webviews w).owned then
        some ((s.setWebView w { s.webviews w with owned := false }).release w)
      else none
  | .ready w =>
      if (s.webviews w).strong = 0 then none
      else some (s.setWebView w { s.webviews w with eval := .evaluated })
  | .evalPending k =>
      let p := s.posts k
      let v := s.webviews p.webview
      if p.pending ∧ v.eval = .evaluated ∧ v.strong ≠ 0 then
        some (s.setPost k { p with pending := false, evaluated := p.evaluated + 1 })
      else none
  | .activityDestroyed w =>
      if b = .android then some (s.setWebView w { s.webviews w with eval := .dropped }) else none
  | .shutdown g =>
      if g < s.nextGen then some (s.setTarget g { s.targets g with shutdownToken := true })
      else none
  | .dropLoop g => s.dropLoop b g
  | .loop g a => s.stepLoop b g a
  | .post w t => if w < s.nextWebView then some (s.begin w t none) else none
  | .sendLargeData w t body =>
      if w < s.nextWebView then some (s.sendLargeData w t body) else none
  | .call k => s.stepCall k
  | .enqueue k outcome => s.enqueue b k outcome
  | .run k r => s.stepRun k r
  | .fetch d => some (s.removeChannelData d)

end State

/-- Any number of threads, WebViews and run loops of one process on backend `b`. -/
def postSystem (b : Backend) : System State Action where
  init := {}
  step := State.step b

end Wxp.WebView
