import Wxp.Foundations.System
import Wxp.Page.Channel
import Mathlib.Algebra.Group.Nat.Defs
import Mathlib.Logic.Function.Basic

/-!
# Channel — State

One JavaScript channel and the Rust `Channel` values that send to it
(`src/wxp_channel/channel.rs`, `internals.rs`, `try_from.rs`), as a transition
system. Every access to a shared variable is a step of its own, so a run is one
interleaving of any number of threads.

* `extract` turns the token of the JavaScript channel into a `Channel` value with
  a `WxpChannelInner` of its own; `clone` makes a value that shares the `inner`.
* A message is `send`, then `store` if it is large, then `finish`, which posts its
  script. The scripts run, and the fetches of the large messages complete, in any
  order (`advance`). A script that is evaluated on the posting thread is one that
  runs right after it is posted.
* `foreignStore` and `foreignTake` are the large messages of the other channels of
  the process: they share `CHANNEL_DATA_COUNTER` and `CHANNEL_DATA_STORE`.
* After `dropWebView` nothing is posted and what was posted is abandoned.

Inners, values and calls are known by their places in the lists of the state. A
`u32` is a `Nat` below `2 ^ 32`; `serde_json` gives the text of a payload, or none
where it cannot be serialized, and the same one each time it is asked. The page
keeps its channel open, unless its handler closes it.
-/

namespace Wxp.Channel

/-- `AtomicU32::fetch_add(1)`: the new value. -/
def fetchAdd (n : Nat) : Nat := (n + 1) % 2 ^ 32

def maxJsonDirectExecuteThreshold : Nat := 8192
def maxRawDirectExecuteThreshold : Nat := 1024

/-- `ChannelResponseBody`; also what the handler receives: the value of the JSON
text, or an `ArrayBuffer` of the bytes. -/
inductive Body
  | json (text : String)
  | raw (bytes : List UInt8)
  deriving DecidableEq, Repr

/-- `wxp_channel::Error`, as far as sending is concerned. -/
inductive Error
  | webView
  | webViewClosed
  | json
  | channelClosed
  deriving DecidableEq, Repr

/-- What a call returns. -/
inductive Result
  | ok
  | err (e : Error)
  deriving DecidableEq, Repr

/-- The argument of `send` (as the JSON text `serde_json` makes of it) or of
`send_bytes`. -/
inductive Payload
  | json (text : Option String)
  | bytes (data : List UInt8)
  deriving DecidableEq, Repr

/-- `WxpChannelMessage` as JSON text. -/
def envelope (text : String) (index : Nat) : String :=
  "\x7b\"message\":" ++ text ++ ",\"index\":" ++ toString index ++ "\x7d"

/-- Inline in the script, or through the fetch store. -/
inductive Transport
  | inline (body : Body)
  | large (body : Body)
  deriving DecidableEq, Repr

def Transport.body : Transport → Body
  | .inline body => body
  | .large body => body

/-- How `send` and `send_bytes` deliver; `none` is `Error::Json`. -/
def Payload.transport (index : Nat) : Payload → Option Transport
  | .json none => none
  | .json (some text) =>
      if (envelope text index).utf8ByteSize < maxJsonDirectExecuteThreshold then
        some (.inline (.json text))
      else
        some (.large (.json text))
  | .bytes data =>
      if data.length < maxRawDirectExecuteThreshold then
        some (.inline (.raw data))
      else
        some (.large (.raw data))

def Payload.body : Payload → Option Body
  | .json text => text.map .json
  | .bytes data => some (.raw data)

/-- A message as the page receives it. `call` is a label: it says which call
posted the message. -/
structure Message where
  call : Nat
  body : Body
  deriving DecidableEq, Repr

/-- Where the owner of a `Channel` value is. `close` consumes the value and its
`Drop` still runs; each of the two reads the counter, then posts. -/
inductive ValuePhase
  | live
  | closing (index : Nat)
  | closed
  | dropping (index : Nat)
  | gone
  deriving DecidableEq, Repr

structure Value where
  inner : Nat
  phase : ValuePhase := .live
  deriving DecidableEq, Repr

/-- A call of `send` or `send_bytes`, after its `fetch_add`. -/
structure Call where
  value : Nat
  inner : Nat
  index : Nat
  payload : Payload
  /-- `data_id`, once the payload is in the store. -/
  dataId : Option Nat := none
  result : Option Result := none
  deriving DecidableEq, Repr

/-- Where a posted message is on its way to the page. -/
inductive Stage
  | script (body : Body)
  | fetchScript (dataId : Nat)
  /-- `fetchChannelData` has sent its request. -/
  | request (dataId : Nat)
  /-- The protocol handler has answered with status 200. -/
  | response (body : Body)
  deriving DecidableEq, Repr

structure Transit where
  call : Nat
  index : Nat
  stage : Stage
  deriving DecidableEq, Repr

/-- History of what was posted. `shared`: another value of the channel was still
usable. -/
inductive Posted
  | message (inner : Nat) (index : Nat)
  | ended (inner : Nat) (index : Nat) (byDrop shared : Bool)
  deriving DecidableEq, Repr

structure State where
  /-- `current_index` of every `WxpChannelInner`. -/
  inners : List Nat := []
  values : List Value := []
  calls : List Call := []
  /-- `CHANNEL_DATA_COUNTER`. -/
  dataCounter : Nat := 1
  /-- `CHANNEL_DATA_STORE`. -/
  store : Nat → Option Body := fun _ => none
  /-- The entries of other channels, and how many there have been. -/
  foreign : List Nat := []
  foreignSends : Nat := 0
  webviewAlive : Bool := true
  transits : List Transit := []
  /-- The end scripts that have not run. -/
  ends : List Nat := []
  posts : List Posted := []
  /-- History: the messages `runCallback` was called with. -/
  arrived : List (Nat × Message) := []
  channel : Page.Channel Message

inductive Action
  | extract
  | clone (v : Nat)
  | send (v : Nat) (payload : Payload)
  | store (k : Nat)
  /-- `accepted` is the answer of `RunLoopSender::send`. A refusal posts nothing: the one
  that comes after the closure was enqueued, when the run loop is shut down meanwhile
  (`RunLoop.Call`, `WebView.Posts`), is left out. -/
  | finish (k : Nat) (accepted : Bool)
  | close (v : Nat)
  | drop (v : Nat)
  | postEnd (v : Nat) (accepted : Bool)
  | advance (i : Nat)
  | abandon (i : Nat)
  | runEnd (i : Nat)
  | abandonEnd (i : Nat)
  | foreignStore (body : Body)
  | foreignTake (d : Nat)
  | dropWebView
  deriving DecidableEq, Repr

namespace State

/-- How `post_webview_op_or_else` ends. -/
def postResult (s : State) (accepted : Bool) : Result :=
  if !s.webviewAlive then .err .webViewClosed else if accepted then .ok else .err .webView

def setResult (s : State) (k : Nat) (r : Result) : State :=
  { s with calls := s.calls.modify k fun c => { c with result := some r } }

def setPhase (s : State) (v : Nat) (phase : ValuePhase) : State :=
  { s with values := s.values.modify v fun w => { w with phase } }

/-- No call borrows the value. -/
def unborrowed (s : State) (v : Nat) : Bool :=
  s.calls.all fun c => c.value != v || c.result.isSome

/-- Another value of the same channel is usable. -/
def shared (s : State) (v : Nat) (a : Nat) : Bool :=
  (s.values.eraseIdx v).any fun w => w.inner == a && w.phase == .live

/-- `TryFromDeserializeContext for Channel`. -/
def extract (s : State) : State :=
  { s with inners := s.inners ++ [0], values := s.values ++ [{ inner := s.inners.length }] }

def clone (s : State) (v : Nat) : Option State := do
  let w ← s.values[v]?
  if w.phase = .live then some { s with values := s.values ++ [{ inner := w.inner }] } else none

/-- `send` and `send_bytes` up to and with the `fetch_add` of `current_index`. -/
def send (s : State) (v : Nat) (payload : Payload) : Option State := do
  let w ← s.values[v]?
  let index ← s.inners[w.inner]?
  if w.phase = .live then
    some { s with
      inners := s.inners.modify w.inner fetchAdd
      calls := s.calls ++ [{ value := v, inner := w.inner, index, payload }] }
  else none

/-- `send_large_data` up to the post. -/
def storeData (s : State) (k : Nat) : Option State := do
  let c ← s.calls[k]?
  match c.result, c.dataId, c.payload.transport c.index with
  | none, none, some (.large body) =>
      some { s with
        dataCounter := fetchAdd s.dataCounter
        store := Function.update s.store s.dataCounter (some body)
        calls := s.calls.modify k fun c => { c with dataId := some s.dataCounter } }
  | _, _, _ => none

/-- The script of call `k` is posted and the call returns `Ok`. -/
def postMessage (s : State) (k : Nat) (c : Call) (stage : Stage) : State :=
  { s.setResult k .ok with
    transits := s.transits ++ [{ call := k, index := c.index, stage }]
    posts := s.posts ++ [.message c.inner c.index] }

/-- The rest of the call. The clean-up of a large message runs if the WebView is
gone, but not if the sender refuses the closure. -/
def finish (s : State) (k : Nat) (accepted : Bool) : Option State := do
  let c ← s.calls[k]?
  if c.result ≠ none then none
  else
    match c.payload.transport c.index, c.dataId with
    | none, _ => some (s.setResult k (.err .json))
    | some (.inline body), _ =>
        match s.postResult accepted with
        | .ok => some (s.postMessage k c (.script body))
        | r => some (s.setResult k r)
    | some (.large _), some d =>
        match s.postResult accepted with
        | .ok => some (s.postMessage k c (.fetchScript d))
        | .err .webViewClosed =>
            some { s.setResult k (.err .webViewClosed) with
              store := Function.update s.store d none }
        | r => some (s.setResult k r)
    | some (.large _), none => none

/-- `close`: the value is consumed and `send_end_message` reads the counter. -/
def close (s : State) (v : Nat) : Option State := do
  let w ← s.values[v]?
  let index ← s.inners[w.inner]?
  if w.phase = .live ∧ s.unborrowed v then some (s.setPhase v (.closing index)) else none

/-- `Drop`, of a value in use or of one that `close` has consumed. -/
def drop (s : State) (v : Nat) : Option State := do
  let w ← s.values[v]?
  let index ← s.inners[w.inner]?
  if (w.phase = .live ∧ s.unborrowed v) ∨ w.phase = .closed then
    some (s.setPhase v (.dropping index))
  else none

/-- The post of `send_end_message`; its error is returned by `close` and ignored
by `drop`. -/
def postEndMessage (s : State) (v a index : Nat) (byDrop : Bool)
    (accepted : Bool) : State :=
  match s.postResult accepted with
  | .ok =>
      { s with
        ends := s.ends ++ [index]
        posts := s.posts ++ [.ended a index byDrop (s.shared v a)] }
  | _ => s

def postEnd (s : State) (v : Nat) (accepted : Bool) : Option State := do
  let w ← s.values[v]?
  match w.phase with
  | .closing index =>
      some ((s.postEndMessage v w.inner index false accepted).setPhase v .closed)
  | .dropping index =>
      some ((s.postEndMessage v w.inner index true accepted).setPhase v .gone)
  | _ => none

/-- `runCallback(id, { message, index })`. -/
def arrive (s : State) (i : Nat) (t : Transit) (body : Body) : State :=
  { s with
    transits := s.transits.eraseIdx i
    arrived := s.arrived ++ [(t.index, ⟨t.call, body⟩)]
    channel := s.channel.runCallback (.message ⟨t.call, body⟩ t.index) }

/-- The next thing that happens to a posted message. A fetch that finds no data
is answered with 404 and ends in `console.error`. -/
def advance (s : State) (i : Nat) : Option State := do
  let t ← s.transits[i]?
  if s.webviewAlive then
    match t.stage with
    | .script body => some (s.arrive i t body)
    | .fetchScript d => some { s with transits := s.transits.set i { t with stage := .request d } }
    | .request d =>
        match s.store d with
        | some body =>
            some { s with
              store := Function.update s.store d none
              transits := s.transits.set i { t with stage := .response body } }
        | none => some { s with transits := s.transits.eraseIdx i }
    | .response body => some (s.arrive i t body)
  else none

/-- The WebView is gone: an accepted closure cleans up, a page's fetch is lost. -/
def abandon (s : State) (i : Nat) : Option State := do
  let t ← s.transits[i]?
  if s.webviewAlive then none
  else
    match t.stage with
    | .fetchScript d =>
        some { s with
          store := Function.update s.store d none
          transits := s.transits.eraseIdx i }
    | _ => some { s with transits := s.transits.eraseIdx i }

def runEnd (s : State) (i : Nat) : Option State := do
  let index ← s.ends[i]?
  if s.webviewAlive then
    some { s with ends := s.ends.eraseIdx i, channel := s.channel.runCallback (.ended index) }
  else none

def abandonEnd (s : State) (i : Nat) : Option State :=
  if s.webviewAlive then none else some { s with ends := s.ends.eraseIdx i }

def foreignStore (s : State) (body : Body) : State :=
  { s with
    dataCounter := fetchAdd s.dataCounter
    store := Function.update s.store s.dataCounter (some body)
    foreign := s.dataCounter :: s.foreign
    foreignSends := s.foreignSends + 1 }

def foreignTake (s : State) (d : Nat) : Option State :=
  if d ∈ s.foreign then
    some { s with store := Function.update s.store d none, foreign := s.foreign.erase d }
  else none

def step (s : State) : Action → Option State
  | .extract => some s.extract
  | .clone v => s.clone v
  | .send v payload => s.send v payload
  | .store k => s.storeData k
  | .finish k accepted => s.finish k accepted
  | .close v => s.close v
  | .drop v => s.drop v
  | .postEnd v accepted => s.postEnd v accepted
  | .advance i => s.advance i
  | .abandon i => s.abandon i
  | .runEnd i => s.runEnd i
  | .abandonEnd i => s.abandonEnd i
  | .foreignStore body => some (s.foreignStore body)
  | .foreignTake d => s.foreignTake d
  | .dropWebView => some { s with webviewAlive := false }

/-- How many messages the process has sent. -/
def sends (s : State) : Nat := s.calls.length + s.foreignSends

/-- Every call has returned and every script and fetch has completed. -/
structure Quiet (s : State) : Prop where
  returned : ∀ c ∈ s.calls, c.result ≠ none
  transits : s.transits = []

end State

/-- The channel of a page that handles its messages with `handler`. -/
def channelSystem (handler : List Message → Page.Reaction) : System State Action where
  init := { channel := { onmessage := some handler } }
  step := State.step

end Wxp.Channel
