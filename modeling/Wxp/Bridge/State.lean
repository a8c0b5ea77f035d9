import Wxp.Foundations.System
import Wxp.Page.Document
import Mathlib.Algebra.Group.Nat.Defs

/-!
# Bridge — State

The traffic between documents and Rust: one `WxpCommandHandler`
(`src/wxp_command/handler.rs`, `setup.rs`) shared by any number of WebViews
(`src/builder.rs`), their documents, the requests of `window.invoke`, and the Rust
`Channel` values (`src/wxp_channel`). Rust knows a callback by its number and a
WebView; which document issued the number is history here (`document`, `owner`).

* `create` and `install` are the two halves of `build_as_child`: the native
  WebView, which may send requests at once, and `set_webview`.
* A request is posted by the IPC callback, started when its task is first polled,
  and completed when its command has its result, or answered with an error right
  away. The handler's task runs on the run loop thread, so `evaluate_script` of its
  response is called where it is posted.
* A channel script is posted from any thread. wry evaluates scripts asynchronously,
  so each of them, a response as well, is on its way until `evaluate`. A large
  message starts a fetch, which belongs to the document that runs the script.

The text of a request is what `window.invoke` makes, with object arguments; of
those only the channel tokens are kept. A response or message is known by the
callback id it is sent to.
-/

namespace Wxp.Bridge

structure WebView where
  alive : Bool := true
  /-- The document it shows. -/
  document : Nat
  deriving DecidableEq, Repr

inductive RequestPhase
  | posted
  /-- The command runs with this WebView in its context. -/
  | running (webview : Nat)
  | finished
  deriving DecidableEq, Repr

/-- `InvokeRequest`, with the WebView and the document it comes from. -/
structure Request where
  webview : Nat
  document : Nat
  cmd : String
  callback : Nat
  error : Nat
  tokens : List Nat := []
  phase : RequestPhase := .posted
  deriving DecidableEq, Repr

/-- A Rust `Channel` value. -/
structure Channel where
  id : Nat
  webview : Nat
  owner : Nat
  live : Bool := true
  deriving DecidableEq, Repr

inductive ScriptKind
  /-- `runCallback(id, ..)` -/
  | message
  /-- The same, once its data is fetched. -/
  | large
  /-- `invoke[id](..)` -/
  | response
  deriving DecidableEq, Repr

/-- A script that is posted and not evaluated yet. -/
structure Script where
  webview : Nat
  id : Nat
  owner : Nat
  kind : ScriptKind
  deriving DecidableEq, Repr

/-- A fetch of `document` that ends in `runCallback(id, ..)`. -/
structure Fetch where
  webview : Nat
  document : Nat
  id : Nat
  owner : Nat
  deriving DecidableEq, Repr

/-- History: `evaluate_script` of a response was called on `webview`. -/
structure Evaluated where
  asker : Nat
  webview : Nat
  askerAlive : Bool
  deriving DecidableEq, Repr

/-- History: something sent to an id of document `owner` was received by a
callback of document `receiver`. -/
structure Delivery where
  owner : Nat
  receiver : Nat
  deriving DecidableEq, Repr

structure State where
  webviews : List WebView := []
  documents : List Page.Document := []
  /-- `WxpCommandHandler::webview`. -/
  slot : Option Nat := none
  requests : List Request := []
  channels : List Channel := []
  scripts : List Script := []
  fetches : List Fetch := []
  evaluated : List Evaluated := []
  deliveries : List Delivery := []

inductive Action
  | create
  | install (w : Nat)
  | dropWebView (w : Nat)
  /-- Load, reload or navigation to another page. -/
  | navigate (w : Nat)
  | newChannel (w : Nat)
  | closeChannel (w id : Nat)
  | invoke (w : Nat) (cmd : String) (tokens : List Nat)
  | start (r : Nat)
  | complete (r : Nat) (ok : Bool)
  | extract (r id : Nat)
  | clone (c : Nat)
  /-- `send`, `send_bytes` or an end message. -/
  | post (c : Nat) (large : Bool)
  | dropChannel (c : Nat)
  | evaluate (i : Nat)
  | fetched (i : Nat)
  deriving DecidableEq, Repr

namespace State

def isAlive (s : State) (w : Nat) : Bool :=
  match s.webviews[w]? with
  | some v => v.alive
  | none => false

/-- The WebView, if its owner has not dropped it. -/
def live (s : State) (w : Nat) : Option WebView :=
  (s.webviews[w]?).filter WebView.alive

def onDocument (s : State) (d : Nat) (f : Page.Document → Page.Document) : State :=
  { s with documents := s.documents.modify d f }

def setRequest (s : State) (r : Nat) (phase : RequestPhase) : State :=
  { s with requests := s.requests.modify r fun q => { q with phase } }

def create (s : State) : State :=
  { s with
    webviews := s.webviews ++ [{ document := s.documents.length }]
    documents := s.documents ++ [{}] }

def install (s : State) (w : Nat) : Option State := do
  let _ ← s.webviews[w]?
  some { s with slot := some w }

def dropWebView (s : State) (w : Nat) : State :=
  { s with webviews := s.webviews.modify w fun v => { v with alive := false } }

def navigate (s : State) (w : Nat) : Option State := do
  let _ ← s.live w
  some { s with
    webviews := s.webviews.modify w fun v => { v with document := s.documents.length }
    documents := s.documents ++ [{}] }

def newChannel (s : State) (w : Nat) : Option State := do
  let v ← s.live w
  some (s.onDocument v.document Page.Document.newChannel)

def closeChannel (s : State) (w id : Nat) : Option State := do
  let v ← s.live w
  some (s.onDocument v.document fun d => d.closeChannel id)

/-- `window.invoke`; the tokens are of channels of the same document. -/
def invoke (s : State) (w : Nat) (cmd : String) (tokens : List Nat) : Option State := do
  let v ← s.live w
  let d ← s.documents[v.document]?
  if tokens.all fun id => id < d.callbackIdCounter then
    some { s.onDocument v.document Page.Document.invokeCommand with
      requests := s.requests ++ [{
        webview := w
        document := v.document
        cmd
        callback := d.callbackIdCounter
        error := d.callbackIdCounter + 1
        tokens }] }
  else none

/-- The end of `handle_ipc`: the slot is read again, and the script is for the WebView it
holds, unless that is gone. -/
def respond (s : State) (r : Nat) (q : Request) (ok : Bool) : State :=
  match s.slot.filter s.isAlive with
  | none => s.setRequest r .finished
  | some w =>
      { s.setRequest r .finished with
        evaluated := s.evaluated ++
          [{ asker := q.webview, webview := w, askerAlive := s.isAlive q.webview }]
        scripts := s.scripts ++
          [{ webview := w, id := if ok then q.callback else q.error, owner := q.document,
             kind := .response }] }

/-- `serde_json::from_str::<InvokeRequest>`: the ids are `u32`s. -/
def parses (q : Request) : Bool := q.callback < 2 ^ 32 && q.error < 2 ^ 32

/-- The first poll of `handle_ipc`: without a WebView, or without the command, it
answers at once. -/
def start (commands : List String) (s : State) (r : Nat) : Option State := do
  let q ← s.requests[r]?
  if q.phase ≠ .posted then none
  else if !parses q then some (s.setRequest r .finished)
  else
    match s.slot with
    | none => some (s.respond r q false)
    | some w =>
        if !s.isAlive w then some (s.respond r q false)
        else if q.cmd ∈ commands then some (s.setRequest r (.running w))
        else some (s.respond r q false)

def complete (s : State) (r : Nat) (ok : Bool) : Option State := do
  let q ← s.requests[r]?
  match q.phase with
  | .running _ => some (s.respond r q ok)
  | _ => none

/-- `TryFromDeserializeContext for Channel`, in a running command. -/
def extract (s : State) (r id : Nat) : Option State := do
  let q ← s.requests[r]?
  match q.phase with
  | .running w =>
      if id ∈ q.tokens ∧ id < 2 ^ 32 then
        some { s with
          channels := s.channels ++ [{ id, webview := w, owner := q.document }] }
      else none
  | _ => none

def clone (s : State) (c : Nat) : Option State := do
  let v ← s.channels[c]?
  if v.live then some { s with channels := s.channels ++ [v] } else none

/-- `post_eval_script` of a channel script. -/
def postScript (s : State) (v : Channel) (large : Bool) : State :=
  if s.isAlive v.webview then
    { s with scripts := s.scripts ++
        [{ webview := v.webview, id := v.id, owner := v.owner,
           kind := if large then .large else .message }] }
  else s

def post (s : State) (c : Nat) (large : Bool) : Option State := do
  let v ← s.channels[c]?
  if v.live then some (s.postScript v large) else none

/-- `Drop`, which posts an end. -/
def dropChannel (s : State) (c : Nat) : Option State := do
  let v ← s.channels[c]?
  if v.live then
    some { s.postScript v false with
      channels := s.channels.modify c fun v => { v with live := false } }
  else none

/-- `runCallback(id, ..)` in document `d`, for something sent to `owner`. -/
def deliver (s : State) (d id owner : Nat) : State :=
  match s.documents[d]? with
  | some doc =>
      if doc.answersTo id then
        { s.onDocument d fun doc => doc.runCallback id with
          deliveries := s.deliveries ++ [{ owner, receiver := d }] }
      else s
  | none => s

/-- `invoke[id](..)` in document `d`: it resolves or rejects the promise of that id. -/
def settle (s : State) (d id owner : Nat) : State :=
  if (s.documents[d]?).any fun doc => doc.invoke id then
    { s with deliveries := s.deliveries ++ [{ owner, receiver := d }] }
  else s

/-- A posted script runs in whatever document its WebView shows. -/
def evaluate (s : State) (i : Nat) : Option State := do
  let p ← s.scripts[i]?
  let s' := { s with scripts := s.scripts.eraseIdx i }
  match s.live p.webview with
  | none => some s'
  | some v =>
      match p.kind with
      | .message => some (s'.deliver v.document p.id p.owner)
      | .large =>
          some { s' with
            fetches := s.fetches ++
              [{ webview := p.webview, document := v.document, id := p.id, owner := p.owner }] }
      | .response => some (s'.settle v.document p.id p.owner)

/-- A fetch completes, or is lost with its document. -/
def fetched (s : State) (i : Nat) : Option State := do
  let f ← s.fetches[i]?
  let s' := { s with fetches := s.fetches.eraseIdx i }
  match s.live f.webview with
  | none => some s'
  | some v =>
      if v.document = f.document then some (s'.deliver f.document f.id f.owner) else some s'

def step (commands : List String) (s : State) : Action → Option State
  | .create => some s.create
  | .install w => s.install w
  | .dropWebView w => some (s.dropWebView w)
  | .navigate w => s.navigate w
  | .newChannel w => s.newChannel w
  | .closeChannel w id => s.closeChannel w id
  | .invoke w cmd tokens => s.invoke w cmd tokens
  | .start r => s.start commands r
  | .complete r ok => s.complete r ok
  | .extract r id => s.extract r id
  | .clone c => s.clone c
  | .post c large => s.post c large
  | .dropChannel c => s.dropChannel c
  | .evaluate i => s.evaluate i
  | .fetched i => s.fetched i

end State

/-- The bridge of a handler with these commands registered. -/
def bridgeSystem (commands : List String) : System State Action where
  init := {}
  step := State.step commands

end Wxp.Bridge
