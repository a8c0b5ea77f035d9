import Wxp.Foundations.Lists
import Wxp.Foundations.System

/-!
# RunLoop — the state of the Darwin backend

Who keeps the `Arc<Mutex<State>>` of a Darwin run loop (`src/platform/darwin/mod.rs`). Core
Foundation has it as the `info` of the sources and timers that `State` makes: `retain` and
`release` count it for each of these objects, from its creation until it is deallocated or,
for a timer that has fired, invalidated. `State` in turn has references to its source and
its timer, so it keeps itself until `Drop for PlatformRunLoop` has taken both out.

The two are taken out under two locks, and a sender that has upgraded its `Weak` can come
in between: its `schedule` makes a new source.

Core Foundation retains an object during its callout, does not call a timer that is in its
callout, and invalidates a timer without an interval after it. A step that holds the lock is
one step. User code runs while a callout is drained, on the thread of the run loop; it can run
the loop again.
-/

namespace Wxp.RunLoop.Darwin

/-- A `CFRunLoopSource` or a `CFRunLoopTimer`. -/
structure Object where
  isTimer : Bool
  /-- `State` has a reference. -/
  field : Bool := true
  /-- The run loop has one for each of the two modes. -/
  registered : Bool := true
  callouts : Nat := 0
  valid : Bool := true
  signalled : Bool := false
  deriving DecidableEq, Repr

/-- The object holds the `Arc`. -/
def Object.retains (o : Object) : Bool :=
  o.valid && (o.field || o.registered || decide (0 < o.callouts))

/-- `PlatformRunLoop`: its `drop` takes the source out, then the timer. -/
inductive LoopPhase
  | alive
  | dropping
  | dropped
  deriving DecidableEq, Repr

/-- A callout (`on_source`, `on_timer`) is `poll`: `drain`, then `schedule` if timers are left. -/
inductive CalloutPhase
  | called
  | drained
  | polled
  deriving DecidableEq, Repr

structure State where
  loop : LoopPhase := .alive
  /-- The strong count of the `Arc`; `State` is dropped at 0. -/
  strong : Nat := 1
  /-- How many. -/
  callbacks : Nat := 0
  timers : Nat := 0
  source : Option Nat := none
  timer : Option Nat := none
  objects : List Object := []
  /-- The senders that have upgraded their `Weak`, before and after their `schedule`. -/
  upgraded : Nat := 0
  sent : Nat := 0
  /-- The callouts, innermost first, with their objects. -/
  callouts : List (Nat × CalloutPhase) := []
  deriving DecidableEq, Repr

inductive Action
  /-- `PlatformRunLoop::schedule` -/
  | schedule
  /-- `PlatformRunLoop::unschedule`; is the timer still there? -/
  | unschedule (found : Bool)
  /-- `PlatformRunLoopSender::send` up to its lock, the locked part, and the end. -/
  | upgrade
  | push
  | sendReturns
  /-- Core Foundation calls the object. -/
  | call (i : Nat)
  /-- `drain` takes the callbacks and the due timers. -/
  | drain (due : Nat)
  | pollEnds
  | calloutReturns
  /-- The two parts of `Drop for PlatformRunLoop`. -/
  | dropSource
  | dropTimer
  deriving DecidableEq, Repr

namespace State

def retain (s : State) : State := { s with strong := s.strong + 1 }

def release (s : State) : State := { s with strong := s.strong - 1 }

/-- Change an object; if it does not hold the `Arc` any more, it calls `release`. -/
def update (s : State) (i : Nat) (f : Object → Object) : State :=
  match s.objects[i]? with
  | none => s
  | some o =>
      let s := { s with objects := s.objects.modify i f }
      if o.retains && !(f o).retains then s.release else s

def takeOut (o : Object) : Object := { o with field := false, registered := false }

def removeTimer (s : State) : State :=
  match s.timer with
  | some i => { s.update i takeOut with timer := none }
  | none => s

def removeSource (s : State) : State :=
  match s.source with
  | some i => { s.update i takeOut with source := none }
  | none => s

def createSource (s : State) : State :=
  { s.retain with
    objects := s.objects ++ [{ isTimer := false }]
    source := some s.objects.length }

def createTimer (s : State) : State :=
  { s.retain with
    objects := s.objects ++ [{ isTimer := true }]
    timer := some s.objects.length }

def setSignalled (o : Object) : Object := { o with signalled := true }

def signal (s : State) : State :=
  match s.source with
  | some i => s.update i setSignalled
  | none => s

/-- `State::schedule` -/
def schedule (s : State) : State :=
  let s := s.removeTimer
  if s.callbacks = 0 then s.createTimer
  else (if s.source = none then s.createSource else s).signal

/-- The thread of the run loop waits, or is in user code. -/
def idle (s : State) : Bool :=
  s.loop != .dropping && (s.callouts.head?.map (·.2)).all (· == .drained)

def enter (o : Object) : Object :=
  { o with callouts := o.callouts + 1, signalled := false }

/-- The callout is over. -/
def leave (o : Object) : Object :=
  if o.isTimer then { o with callouts := o.callouts - 1, valid := false, registered := false }
  else { o with callouts := o.callouts - 1 }

/-- Core Foundation may call the object. -/
def callable (o : Object) : Bool :=
  o.registered && o.valid && (if o.isTimer then o.callouts == 0 else o.signalled)

end State

open State in
def step (s : State) (a : Action) : Option State :=
  match a with
  | .schedule =>
      if s.loop = .alive ∧ s.idle then
        some { s.retain with timers := s.timers + 1 }.schedule.release
      else none
  | .unschedule found =>
      if s.loop = .alive ∧ s.idle then
        some { s.retain with timers := s.timers - found.toNat }.schedule.release
      else none
  | .upgrade =>
      if 0 < s.strong then some { s.retain with upgraded := s.upgraded + 1 } else none
  | .push =>
      if 0 < s.upgraded then
        some { ({ s.retain with callbacks := s.callbacks + 1 }.schedule).release with
          upgraded := s.upgraded - 1
          sent := s.sent + 1 }
      else none
  | .sendReturns =>
      if 0 < s.sent then some { s.release with sent := s.sent - 1 } else none
  | .call i =>
      match s.objects[i]? with
      | some o =>
          if s.idle && callable o then
            some { s.update i enter with callouts := (i, .called) :: s.callouts }
          else none
      | none => none
  | .drain due =>
      match s.callouts with
      | (i, .called) :: rest =>
          if s.loop ≠ .dropping ∧ due ≤ s.timers then
            some { s with
              callbacks := 0, timers := s.timers - due, callouts := (i, .drained) :: rest }
          else none
      | _ => none
  | .pollEnds =>
      match s.callouts with
      | (i, .drained) :: rest =>
          if s.loop = .dropping then none
          else if s.timers = 0 then some { s with callouts := (i, .polled) :: rest }
          else some { s.retain.schedule.release with callouts := (i, .polled) :: rest }
      | _ => none
  | .calloutReturns =>
      match s.callouts with
      | (i, .polled) :: rest =>
          if s.loop = .dropping then none
          else some { s.update i leave with callouts := rest }
      | _ => none
  | .dropSource =>
      if s.loop = .alive ∧ s.idle then some { s.removeSource with loop := .dropping } else none
  | .dropTimer =>
      if s.loop = .dropping then some { s.removeTimer.release with loop := .dropped } else none

/-- A Darwin run loop with its senders. -/
def darwinState : System State Action where
  init := {}
  step := step

end Wxp.RunLoop.Darwin
