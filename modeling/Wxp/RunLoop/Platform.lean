import Wxp.Foundations.System
import Mathlib.Algebra.Group.Nat.Defs
import Mathlib.Data.List.Basic

/-!
# RunLoop — Platform

The dispatch side of the four platform backends (`src/platform/*`), for one
run loop: the queue the senders fill, the timer map, and the stack of the run
loop thread while native wake-ups, user callbacks and `RunLoopLocal::block_on`
nest inside each other.

* Darwin: `on_source` and `on_timer` both call `State::poll`, whose `drain`
  takes the whole queue AND every due timer into a local `StatePendingExecution`
  before it runs any of them.
* Win32 (`WM_USER`) and Android (`looper_cb`): `process_callbacks` takes the
  whole queue into a local `Vec`; `process_timers` looks each due handle up
  again before it runs it.
* Linux: every callback and every timer is a GLib source of its own. A source
  stays attached until it is dispatched, also when the dispatch is nested.

What a dispatch pass has taken out of the shared state and not run yet lives in
a `Frame` of the stack. `accepted`, `started` and `finished` record the history
of the sent callbacks and `fired` that of the timers; no step reads them except
for the freshness of a new callback.
-/

namespace Wxp.RunLoop

/-- The implementations selected by `src/platform/mod.rs`. -/
inductive Backend
  | darwin
  | win32
  | android
  | linux
  deriving DecidableEq, Repr

abbrev HandleType := Nat

def INVALID_HANDLE : HandleType := 0

/-- Nanoseconds of the monotonic clock; a `Duration` is counted the same way. -/
abbrev Instant := Nat

structure Timer (τ : Type) where
  scheduled : Instant
  callback : τ

/-- The shared part of the backends' `State`: the sender queue and the timer
map. On Linux these are the sources attached to the `GMainContext`. -/
structure State (κ τ : Type) where
  callbacks : List κ := []
  timers : List (HandleType × Timer τ) := []
  nextHandle : HandleType := INVALID_HANDLE + 1

/-- Where `RunLoopLocal::block_on` is: at the head of its loop, inside the poll
of its future, or inside `poll_once`. -/
inductive BlockOnPhase
  | head
  | polling
  | waiting
  deriving DecidableEq, Repr

/-- What the run loop thread is inside of, innermost first. -/
inductive Frame (κ τ : Type)
  /-- A dispatch pass iterating the vectors it drained: `StatePendingExecution`
  on Darwin, the local `Vec` of `process_callbacks` elsewhere. -/
  | batch (callbacks : List κ) (timers : List (Timer τ))
  /-- `process_timers`, with the due handles it has not looked up yet. -/
  | timers (pending : List HandleType)
  /-- A sent callback is running. -/
  | callback (c : κ)
  /-- A timer callback is running. -/
  | timer (t : τ)
  | blockOn (phase : BlockOnPhase)
  /-- User code pumps a native loop of its own (`run`, `run_app`, a modal loop). -/
  | native

structure Loop (κ τ : Type) where
  state : State κ τ := {}
  stack : List (Frame κ τ) := []
  now : Instant := 0
  /-- `BLOCK_ON_ACTIVE`. -/
  blockOnActive : Bool := false
  /-- `BlockOnWaker::queued` of the active `block_on`. -/
  queued : Bool := false
  accepted : List κ := []
  started : List κ := []
  finished : List κ := []
  fired : List τ := []

inductive Act (κ τ : Type)
  | tick (d : Nat)
  | send (c : κ)
  | wakeBlockOn (c : κ)
  | schedule (inTime : Nat) (t : τ)
  | unschedule (h : HandleType)
  | dispatchCallbacks (order : List HandleType)
  | dispatchTimers
  | dispatchSource (c : κ)
  | dispatchTimeout (h : HandleType)
  | next (order : List HandleType)
  | finish
  | enterBlockOn
  | takeQueued
  | pollReady
  | pollPending
  | pollOnceReturns
  | enterNative
  | exitNative

variable {κ τ : Type}

/-! ## The shared state -/

/-- The handles a pass at `now` finds due. -/
def State.dueTimers (s : State κ τ) (now : Instant) : List HandleType :=
  (s.timers.filter fun v => decide (v.2.scheduled ≤ now)).map (·.1)

def State.removeTimer (s : State κ τ) (h : HandleType) : State κ τ :=
  { s with timers := s.timers.filter fun v => v.1 != h }

/-- `get_pending_execution`: the whole queue, and the due timers in the order
`order` in which the hash map yields them. -/
def State.getPendingExecution (s : State κ τ) (order : List HandleType) :
    (List κ × List (Timer τ)) × State κ τ :=
  ((s.callbacks, order.filterMap fun h => s.timers.lookup h),
    { s with callbacks := [], timers := s.timers.filter fun v => !order.contains v.1 })

/-- The deadline of a timer. GLib takes whole milliseconds in a `c_uint`; the
other backends add the duration to the clock. -/
def Backend.deadline (b : Backend) (now : Instant) (inTime : Nat) : Instant :=
  match b with
  | .linux => now + inTime / 1000000 % 2 ^ 32 * 1000000
  | _ => now + inTime

/-- `PlatformRunLoop::schedule`. -/
def State.schedule (s : State κ τ) (b : Backend) (now : Instant) (inTime : Nat) (t : τ) :
    State κ τ :=
  { s with
    timers := s.timers ++ [(s.nextHandle, ⟨b.deadline now inTime, t⟩)],
    nextHandle := s.nextHandle + 1 }

/-! ## The stack of the run loop thread -/

/-- The callbacks a frame has taken out of the queue and not started. -/
def Frame.parked : Frame κ τ → List κ
  | .batch cs _ => cs
  | _ => []

/-- The timers a frame has taken out of the timer map and not started. -/
def Frame.parkedTimers : Frame κ τ → List τ
  | .batch _ ts => ts.map (·.callback)
  | _ => []

def Frame.runs : Frame κ τ → List κ
  | .callback c => [c]
  | _ => []

/-- The native loop is being pumped: by the host, by `poll_once`, or by a loop
that user code runs. -/
def canPump : List (Frame κ τ) → Bool
  | [] => true
  | .blockOn .waiting :: _ => true
  | .native :: _ => true
  | _ => false

/-- User code is in control and may call into the run loop. -/
def userCode : List (Frame κ τ) → Bool
  | [] => true
  | .callback _ :: _ => true
  | .timer _ :: _ => true
  | .blockOn .polling :: _ => true
  | _ => false

def Loop.parked (l : Loop κ τ) : List κ := l.stack.flatMap Frame.parked

def Loop.parkedTimers (l : Loop κ τ) : List τ := l.stack.flatMap Frame.parkedTimers

def Loop.running (l : Loop κ τ) : List κ := l.stack.flatMap Frame.runs

/-- The sent callbacks still waiting to be started. -/
def Loop.unstarted (l : Loop κ τ) : List κ := l.state.callbacks ++ l.parked

/-- The run loop thread is inside `poll_once` on behalf of `block_on`. -/
def Loop.waiting (l : Loop κ τ) : Bool :=
  match l.stack with
  | .blockOn .waiting :: _ => true
  | _ => false

/-- The callback enters the queue. -/
def Loop.push (l : Loop κ τ) (c : κ) : Loop κ τ :=
  { l with
    state := { l.state with callbacks := l.state.callbacks ++ [c] },
    accepted := l.accepted ++ [c] }

/-- Start the timer callback of `t` on top of `stack`. -/
def Loop.fire (l : Loop κ τ) (t : Timer τ) (stack : List (Frame κ τ)) : Loop κ τ :=
  { l with stack := .timer t.callback :: stack, fired := l.fired ++ [t.callback] }

/-! ## The steps -/

section Steps

variable [DecidableEq κ]

/-- `PlatformRunLoopSender::send` of a callback that was not sent before. -/
def Loop.send (l : Loop κ τ) (c : κ) : Option (Loop κ τ) :=
  if c ∈ l.accepted then none else some (l.push c)

/-- `BlockOnWaker::wake_by_ref`: the flag coalesces wakes, the first one sends
an empty callback. -/
def Loop.wakeBlockOn (l : Loop κ τ) (c : κ) : Option (Loop κ τ) :=
  if l.queued then some l else Loop.send { l with queued := true } c

/-- The wake-up of the sender queue: `State::drain` on Darwin (which takes the
due timers too), `State::process_callbacks` on Win32 and Android. -/
def Loop.dispatchCallbacks (l : Loop κ τ) (b : Backend) (order : List HandleType) :
    Option (Loop κ τ) :=
  if !canPump l.stack then none
  else match b with
    | .darwin =>
        if order.isPerm (l.state.dueTimers l.now) then
          let (execution, state) := l.state.getPendingExecution order
          some { l with state, stack := .batch execution.1 execution.2 :: l.stack }
        else none
    | .win32 | .android =>
        some { l with
          state := { l.state with callbacks := [] },
          stack := .batch l.state.callbacks [] :: l.stack }
    | .linux => none

/-- The timer wake-up of Win32 (`WM_TIMER`) and Android (`looper_timer_cb`). -/
def Loop.dispatchTimers (l : Loop κ τ) (b : Backend) : Option (Loop κ τ) :=
  if canPump l.stack && (b == .win32 || b == .android) then
    some { l with stack := .timers [] :: l.stack }
  else none

/-- Start callback `c` on top of `stack`. -/
def Loop.start (l : Loop κ τ) (c : κ) (stack : List (Frame κ τ)) : Loop κ τ :=
  { l with stack := .callback c :: stack, started := l.started ++ [c] }

/-- GLib dispatches one attached callback source. -/
def Loop.dispatchSource (l : Loop κ τ) (b : Backend) (c : κ) : Option (Loop κ τ) :=
  if canPump l.stack && b == .linux && l.state.callbacks.contains c then
    some (Loop.start { l with
      state := { l.state with callbacks := l.state.callbacks.erase c } } c l.stack)
  else none

/-- GLib dispatches one due timeout source. -/
def Loop.dispatchTimeout (l : Loop κ τ) (b : Backend) (h : HandleType) : Option (Loop κ τ) :=
  if canPump l.stack && b == .linux then
    match l.state.timers.lookup h with
    | some t =>
        if t.scheduled ≤ l.now then
          some (Loop.fire { l with state := l.state.removeTimer h } t l.stack)
        else none
    | none => none
  else none

/-- The innermost dispatch pass goes on: it starts its next callback or timer,
reads the due timers again (`process_timers`), or returns. -/
def Loop.next (l : Loop κ τ) (order : List HandleType) : Option (Loop κ τ) :=
  match l.stack with
  | .batch (c :: cs) ts :: rest => some (l.start c (.batch cs ts :: rest))
  | .batch [] (t :: ts) :: rest => some (l.fire t (.batch [] ts :: rest))
  | .batch [] [] :: rest => some { l with stack := rest }
  | .timers [] :: rest =>
      if order.isPerm (l.state.dueTimers l.now) then
        some { l with stack := if order.isEmpty then rest else .timers order :: rest }
      else none
  | .timers (h :: hs) :: rest =>
      match l.state.timers.lookup h with
      | some t =>
          some (Loop.fire { l with state := l.state.removeTimer h } t (.timers hs :: rest))
      | none => some { l with stack := .timers hs :: rest }
  | _ => none

/-- The running callback returns to its dispatch pass. -/
def Loop.finish (l : Loop κ τ) : Option (Loop κ τ) :=
  match l.stack with
  | .callback c :: rest => some { l with stack := rest, finished := l.finished ++ [c] }
  | .timer _ :: rest => some { l with stack := rest }
  | _ => none

/-- `block_on` up to its loop. A call while another one is active panics in
`BlockOnActiveGuard::enter`; the run ends there. -/
def Loop.enterBlockOn (l : Loop κ τ) : Option (Loop κ τ) :=
  if userCode l.stack && !l.blockOnActive then
    some { l with stack := .blockOn .head :: l.stack, blockOnActive := true, queued := true }
  else none

/-- The head of the loop of `block_on`: poll the future if `take_queued`, else
go to `poll_once`. -/
def Loop.takeQueued (l : Loop κ τ) : Option (Loop κ τ) :=
  match l.stack with
  | .blockOn .head :: rest =>
      some { l with
        stack := .blockOn (if l.queued then .polling else .waiting) :: rest, queued := false }
  | _ => none

/-- The future of `block_on` is ready (or panics): the call returns (or unwinds). -/
def Loop.pollReady (l : Loop κ τ) : Option (Loop κ τ) :=
  match l.stack with
  | .blockOn .polling :: rest => some { l with stack := rest, blockOnActive := false }
  | _ => none

/-- The future of `block_on` is pending: the thread enters `poll_once`. -/
def Loop.pollPending (l : Loop κ τ) : Option (Loop κ τ) :=
  match l.stack with
  | .blockOn .polling :: rest => some { l with stack := .blockOn .waiting :: rest }
  | _ => none

def Loop.pollOnceReturns (l : Loop κ τ) : Option (Loop κ τ) :=
  match l.stack with
  | .blockOn .waiting :: rest => some { l with stack := .blockOn .head :: rest }
  | _ => none

def Loop.enterNative (l : Loop κ τ) : Option (Loop κ τ) :=
  if userCode l.stack then some { l with stack := .native :: l.stack } else none

def Loop.exitNative (l : Loop κ τ) : Option (Loop κ τ) :=
  match l.stack with
  | .native :: rest => some { l with stack := rest }
  | _ => none

def Loop.schedule (l : Loop κ τ) (b : Backend) (inTime : Nat) (t : τ) : Option (Loop κ τ) :=
  if userCode l.stack then some { l with state := l.state.schedule b l.now inTime t } else none

def Loop.unschedule (l : Loop κ τ) (h : HandleType) : Option (Loop κ τ) :=
  if userCode l.stack then some { l with state := l.state.removeTimer h } else none

def Loop.step (b : Backend) (l : Loop κ τ) : Act κ τ → Option (Loop κ τ)
  | .tick d => some { l with now := l.now + d }
  | .send c => l.send c
  | .wakeBlockOn c => l.wakeBlockOn c
  | .schedule inTime t => l.schedule b inTime t
  | .unschedule h => l.unschedule h
  | .dispatchCallbacks order => l.dispatchCallbacks b order
  | .dispatchTimers => l.dispatchTimers b
  | .dispatchSource c => l.dispatchSource b c
  | .dispatchTimeout h => l.dispatchTimeout b h
  | .next order => l.next order
  | .finish => l.finish
  | .enterBlockOn => l.enterBlockOn
  | .takeQueued => l.takeQueued
  | .pollReady => l.pollReady
  | .pollPending => l.pollPending
  | .pollOnceReturns => l.pollOnceReturns
  | .enterNative => l.enterNative
  | .exitNative => l.exitNative

/-- One run loop of backend `b`, with any number of sender threads. -/
def loopSystem (κ τ : Type) [DecidableEq κ] (b : Backend) : System (Loop κ τ) (Act κ τ) where
  init := {}
  step := Loop.step b

end Steps

end Wxp.RunLoop
