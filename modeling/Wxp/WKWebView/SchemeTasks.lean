import Wxp.Foundations.System
import Mathlib.Logic.Function.Basic

/-!
# WKWebView — URL scheme tasks

WebKit hands a request for a custom protocol to `start_task`, as a task object, and tells
`stop_task` when it gives the task up. The handler answers through a responder, at any
time and from any thread. The responder asks before every call on the task whether the
task is still the one it was made for: `custom_protocol_task_ids` maps the address of a
task to the UUID it was started under, and `stop_task` removes the address.

Another thread can stop the task between that question and the call. WebKit answers a
call on a stopped task with an exception, which the responder catches.
-/

namespace Wxp.WKWebView

/-- A `WryWebView` with its `InnerWebView`. -/
abbrev ViewId := Nat
abbrev TaskId := Nat
/-- `task.hash()` -/
abbrev Address := Nat
/-- An `NSUUID`, numbered in the order they are made. -/
abbrev Uuid := Nat

structure HttpResponse where
  status : Nat
  body : List UInt8 := []
  deriving DecidableEq, Repr

/-- A call on a task. -/
inductive Call
  | didReceiveResponse (r : HttpResponse)
  | didReceiveData (body : List UInt8)
  | didFinish
  deriving DecidableEq, Repr

/-- What the responder does, in order. It returns where a check fails. -/
inductive Instr
  | checkWebviewId
  | checkTask
  | call (c : Call)
  | removeTaskKey
  deriving DecidableEq, Repr

/-- The checks before the calls. -/
def validate : List Instr := [.checkWebviewId, .checkTask]

/-- The responder: `validate`, then `response`. -/
def responder (r : HttpResponse) : List Instr :=
  validate ++ validate ++ validate ++ [.call (.didReceiveResponse r)] ++
    validate ++ [.call (.didReceiveData r.body)] ++ validate ++ [.call .didFinish] ++
    [.checkWebviewId, .removeTaskKey]

inductive Responder
  /-- No handler was called for the task. -/
  | none
  /-- The handler has it. -/
  | waiting
  | running (code : List Instr)
  /-- It has returned, or was dropped. -/
  | done
  deriving DecidableEq, Repr

structure Task where
  webview : ViewId := 0
  /-- The web view that the URL scheme handler was made for; another one than `webview` if
  they share a configuration. -/
  owner : ViewId := 0
  address : Address := 0
  uuid : Uuid := 0
  /-- The web view whose function in `protocol_ptrs` was called. -/
  function : Option ViewId := .none
  /-- WebKit has given the task up. -/
  stopped : Bool := false
  calls : List Call := []
  /-- The calls that came after the stop. -/
  late : List Call := []
  responder : Responder := .none
  deriving DecidableEq, Repr

/-- WebKit is done with the task. -/
def Task.finished (x : Task) : Bool := decide (.didFinish ∈ x.calls)

/-- The responder has a reference to the task. -/
def Responder.retains : Responder → Bool
  | .waiting | .running _ => true
  | .none | .done => false

/-- The object is there, and keeps its address. -/
def Task.alive (x : Task) : Bool := (!x.stopped && !x.finished) || x.responder.retains

structure View where
  id : List Char := []
  /-- The length of its `protocol_ptrs`. -/
  protocols : Nat := 0
  /-- The `InnerWebView` is dropped. -/
  dropped : Bool := false
  customProtocolTaskIds : Address → Option Uuid := fun _ => .none

structure State where
  views : ViewId → View := fun _ => {}
  nextView : ViewId := 0
  /-- `WEBVIEW_STATE`, by the web view that put the entry. -/
  webviewState : List Char → Option ViewId := fun _ => .none
  tasks : TaskId → Task := fun _ => {}
  nextTask : TaskId := 0
  nextUuid : Uuid := 0

inductive Action
  /-- `InnerWebView::new` -/
  | new (id : List Char) (protocols : Nat)
  /-- `Drop for InnerWebView` -/
  | drop (v : ViewId)
  /-- `start_task`; the request can be built if it is `wellFormed`. -/
  | startTask (v owner : ViewId) (address : Address) (protocolIndex : Nat) (wellFormed : Bool)
  | stopTask (t : TaskId)
  /-- The handler calls the responder. -/
  | respond (t : TaskId) (r : HttpResponse)
  /-- The handler drops the responder. -/
  | discard (t : TaskId)
  /-- The responder goes on. -/
  | advance (t : TaskId)
  deriving DecidableEq, Repr

namespace State

def setView (s : State) (v : ViewId) (x : View) : State :=
  { s with views := Function.update s.views v x }

def setTask (s : State) (t : TaskId) (x : Task) : State :=
  { s with tasks := Function.update s.tasks t x }

def setKey (s : State) (v : ViewId) (a : Address) (uuid : Option Uuid) : State :=
  s.setView v { s.views v with
    customProtocolTaskIds := Function.update (s.views v).customProtocolTaskIds a uuid }

def addCustomTaskKey (s : State) (v : ViewId) (a : Address) : State :=
  { s.setKey v a (some s.nextUuid) with nextUuid := s.nextUuid + 1 }

def removeCustomTaskKey (s : State) (v : ViewId) (a : Address) : State := s.setKey v a .none

def getCustomTaskUuid (s : State) (v : ViewId) (a : Address) : Option Uuid :=
  (s.views v).customProtocolTaskIds a

/-- `check_webview_id_valid` -/
def checkWebviewIdValid (s : State) (id : List Char) : Bool := (s.webviewState id).isSome

/-- `check_task_is_valid` -/
def checkTaskIsValid (s : State) (x : Task) : Bool :=
  s.getCustomTaskUuid x.webview x.address == some x.uuid

/-- The function of `protocol_ptrs` that `start_task` finds. -/
def function (s : State) (owner : ViewId) (protocolIndex : Nat) : Option ViewId :=
  match s.webviewState (s.views owner).id with
  | some u => if protocolIndex < (s.views u).protocols then some u else .none
  | .none => .none

/-- `respond_with_404` -/
def notFound : List Call := [.didReceiveResponse { status := 404 }, .didFinish]

/-- The task that `start_task` makes of the object. -/
def newTask (s : State) (v owner : ViewId) (a : Address) (protocolIndex : Nat)
    (wellFormed : Bool) : Task :=
  let x : Task := { webview := v, owner, address := a, uuid := s.nextUuid }
  match s.function owner protocolIndex with
  | some u =>
      if wellFormed then { x with function := some u, responder := .waiting }
      else { x with calls := notFound }
  | .none => x

def startTask (s : State) (v owner : ViewId) (a : Address) (protocolIndex : Nat)
    (wellFormed : Bool) : State :=
  { (s.addCustomTaskKey v a).setTask s.nextTask (s.newTask v owner a protocolIndex wellFormed) with
    nextTask := s.nextTask + 1 }

/-- WebKit lets the task go, and `stop_task`. -/
def stopTask (s : State) (t : TaskId) : State :=
  let x := s.tasks t
  (s.setTask t { x with stopped := true }).removeCustomTaskKey x.webview x.address

/-- One instruction of the responder of `t`. -/
def exec (s : State) (t : TaskId) (i : Instr) (rest : List Instr) : State :=
  let x := s.tasks t
  match i with
  | .checkWebviewId =>
      s.setTask t { x with responder :=
        if s.checkWebviewIdValid (s.views x.owner).id then .running rest else .done }
  | .checkTask =>
      s.setTask t { x with responder := if s.checkTaskIsValid x then .running rest else .done }
  | .call c =>
      if x.stopped then s.setTask t { x with late := x.late ++ [c], responder := .done }
      else s.setTask t { x with calls := x.calls ++ [c], responder := .running rest }
  | .removeTaskKey =>
      (s.setTask t { x with responder := .running rest }).removeCustomTaskKey x.webview x.address

/-- No object that is there has the address. -/
def free (s : State) (a : Address) : Bool :=
  (List.range s.nextTask).all fun t => !((s.tasks t).alive && (s.tasks t).address == a)

end State

open State in
def step (s : State) (act : Action) : Option State :=
  match act with
  | .new id protocols =>
      some { s.setView s.nextView { id, protocols } with
        nextView := s.nextView + 1
        webviewState := Function.update s.webviewState id (some s.nextView) }
  | .drop v =>
      if v < s.nextView ∧ (s.views v).dropped = false then
        some { s.setView v { s.views v with dropped := true } with
          webviewState := Function.update s.webviewState (s.views v).id .none }
      else none
  | .startTask v owner a protocolIndex wellFormed =>
      if v < s.nextView ∧ owner < s.nextView ∧ s.free a = true then
        some (s.startTask v owner a protocolIndex wellFormed)
      else none
  | .stopTask t =>
      if t < s.nextTask ∧ (s.tasks t).stopped = false ∧ (s.tasks t).finished = false then
        some (s.stopTask t)
      else none
  | .respond t r =>
      match (s.tasks t).responder with
      | .waiting => some (s.setTask t { s.tasks t with responder := .running (responder r) })
      | .none | .running _ | .done => none
  | .discard t =>
      match (s.tasks t).responder with
      | .waiting => some (s.setTask t { s.tasks t with responder := .done })
      | .none | .running _ | .done => none
  | .advance t =>
      match (s.tasks t).responder with
      | .running (i :: rest) => some (s.exec t i rest)
      | .running [] => some (s.setTask t { s.tasks t with responder := .done })
      | .none | .waiting | .done => none

/-- The web views of the process, with their tasks and the responders of these. -/
def schemeTasks : System State Action where
  init := {}
  step := step

end Wxp.WKWebView
