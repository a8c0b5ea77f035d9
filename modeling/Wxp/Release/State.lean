import Wxp.Foundations.Halting
import Wxp.Foundations.Lists
import Wxp.RunLoop.Platform

/-!
# Release — State

`RunLoop::release_guard` of the last guard, with the code that the abort loop of `shutdown` runs:
`Task::abort` drops the future, and every destructor in it may call the crate again, on the same
thread, under the locks of `release_guard`.

* A value is dropped by the destructors in it, in their order. A panic ends the one that it comes
  from; the others still run, and a panic that leaves one of them ends the process.
* `has_shutdown` and the shutdown token are set before the loop. So `post` and `call` give their
  closure up unused, and `spawn` panics and drops the future on the way.
* A handle that a destructor cancels destroys the callback of the timer (`RunLoop.Cancel`): under
  the state mutex on Darwin, under the borrow of the timer map on Win32 and Android, and from a
  C function on Linux, which a panic cannot leave.
* The loop calls `abort` in `catch_unwind`. What it drops itself is outside of it: the payload of a
  panic, and its reference to the task, which may be the last.
-/

namespace Wxp.Release

open Wxp.RunLoop

abbrev TaskId := Nat

/-- What the code of a destructor does. A value that is dropped is given by its destructors. -/
inductive Op
  /-- The payload is dropped where the panic is caught. -/
  | panic (payload : List (List Op))
  | init
  | isInitialized
  | post (callback : List (List Op))
  | call (callback : List (List Op))
  | spawn (future : List (List Op))
  | schedule (callback : List (List Op))
  /-- A `Handle` that was neither cancelled nor detached is cancelled or dropped. -/
  | cancel (h : HandleType)
  /-- `JoinHandle::abort`. -/
  | abort (t : TaskId)
  /-- A `JoinHandle` of the task is dropped, or a waker. -/
  | dropJoinHandle (t : TaskId)
  | catchUnwind (ops : List Op)

abbrev Destructors := List (List Op)

inductive Lock
  | initMutex
  | pendingCalls
  | activeTasks
  | runLoopThreadId
  | runLoopSender
  /-- The mutex of the platform state on Darwin; the borrow of the timer map elsewhere. -/
  | state
  deriving DecidableEq, Repr

/-- `Task::future`. -/
inductive Slot
  | full (future : Destructors)
  /-- `*future_opt = None` is dropping what was there. -/
  | dropping
  | empty

def Slot.isDropping : Slot → Bool
  | .dropping => true
  | _ => false

def Slot.future : Slot → Destructors
  | .full future => future
  | .dropping | .empty => []

structure Task where
  future : Slot
  /-- `value` and `waker`, until the task is freed. -/
  rest : Option Destructors
  aborted : Bool := false
  /-- The strong references that `JoinHandle`s, wakers and queued closures hold. -/
  refs : Nat
  /-- Those that calls under way hold. -/
  calls : Nat := 0

/-- A `Weak` of the task upgrades. -/
def Task.alive (x : Task) : Bool := 0 < x.refs + x.calls

/-- A task before the guard is dropped. -/
structure Spawned where
  /-- None after an `abort`. -/
  future : Option Destructors
  rest : Destructors
  refs : Nat

def Spawned.toTask (v : Spawned) : Task where
  future := match v.future with
    | some ds => .full ds
    | none => .empty
  rest := some v.rest
  aborted := v.future.isNone
  refs := v.refs

/-- What `release_guard` does after it has taken `INIT_MUTEX`. -/
inductive Phase
  | takePendingCalls
  | abortTasks
  | clearTasks
  | clearThreadId
  | clearInstance
  | clearSender
  /-- The guard of `INIT_MUTEX` is dropped. -/
  | unlock
  deriving DecidableEq, Repr

def shutdown : List Phase :=
  [.takePendingCalls, .abortTasks, .clearTasks, .clearThreadId, .clearInstance, .clearSender]

inductive Frame
  /-- The rest of the code of a destructor. -/
  | code (ops : List Op)
  /-- The destructors of a value that have still to run. -/
  | drop (ds : Destructors)
  /-- A destructor runs while a panic goes up, which goes on afterwards. -/
  | cleanup (payload : Destructors)
  | catchUnwind
  /-- `extern "C"`. -/
  | noUnwind
  /-- The end of `unschedule`: the mutex guard or the borrow is dropped. -/
  | release
  /-- The end of `*future_opt = None`. -/
  | clearSlot (t : TaskId)
  /-- A reference to the task is dropped. -/
  | unref (t : TaskId)
  /-- The abort loop, with the tasks that it has not come to. -/
  | abortLoop (ts : List TaskId)
  | phase (p : Phase)

inductive Fault
  | deadlock (l : Lock)
  /-- A future is dropped that is being dropped. -/
  | doubleDrop (t : TaskId)
  /-- A panic leaves a destructor that runs because of a panic, or a C function. -/
  | abort
  /-- A panic leaves `release_guard`. -/
  | escaped
  deriving DecidableEq, Repr

structure State where
  initCount : Nat := 1
  tasks : List Task
  /-- `active_tasks`. -/
  activeTasks : List TaskId
  /-- The pending timers, each with what its callback owns. -/
  timers : List (HandleType × Destructors) := []
  nextHandle : HandleType := INVALID_HANDLE + 1
  /-- Somebody else holds the instance, so that `clear` does not drop it. In the program that is
  always so: the `RunLoopGuard` whose drop calls `release_guard` has a `RunLoopLocal`. -/
  shared : Bool := false
  /-- `RUN_LOOP_INSTANCE` is set, and so on. -/
  runLoopInstance : Bool := true
  runLoopThreadId : Bool := true
  runLoopSender : Bool := true
  /-- The locks that the thread holds. -/
  held : List Lock := []
  /-- The state mutex of Darwin is poisoned. -/
  poisoned : Bool := false
  /-- The panic that goes up. -/
  unwinding : Option Destructors := none
  stack : List Frame := []
  fault : Option Fault := none

namespace State

/-- A lock is taken for a statement, which does `next`. -/
def withLock (s : State) (l : Lock) (next : State) : State :=
  if l ∈ s.held then { s with fault := some (.deadlock l) } else next

def push (s : State) (fs : List Frame) : State := { s with stack := fs ++ s.stack }

def drop (s : State) (ds : Destructors) : State := s.push [.drop ds]

def panic (s : State) (payload : Destructors) : State := { s with unwinding := some payload }

def update (s : State) (t : TaskId) (f : Task → Task) : State :=
  { s with tasks := s.tasks.modify t f }

/-- `Task::abort`. -/
def abort (s : State) (t : TaskId) : State :=
  match s.tasks[t]?.map Task.future with
  | some (.full ds) =>
      (s.update t fun x => { x with aborted := true, future := .dropping }).push
        [.drop ds, .clearSlot t]
  | some .dropping => { s with fault := some (.doubleDrop t) }
  | some .empty | none => s.update t fun x => { x with aborted := true }

/-- `abort` through a reference that the caller has, and gives up then. -/
def abortWith (s : State) (t : TaskId) (fs : List Frame) : State :=
  ((s.update t fun x => { x with calls := x.calls + 1 }).push (fs ++ [.unref t])).abort t

def alive (s : State) (t : TaskId) : Bool := s.tasks[t]?.any Task.alive

/-- The task is dropped when nobody holds it any more. -/
def free (s : State) (t : TaskId) : State :=
  match s.tasks[t]? with
  | some { future, rest := some rest, refs := 0, calls := 0, .. } =>
      (s.update t fun x => { x with future := .empty, rest := none }).push
        [.drop future.future, .drop rest]
  | _ => s

/-- What the callback of a timer owns. -/
def owned (s : State) (h : HandleType) : Destructors := (s.timers.lookup h).getD []

/-- `PlatformRunLoop::schedule`. -/
def schedule (b : Backend) (s : State) (callback : Destructors) : State :=
  if .state ∈ s.held then
    if b = .darwin then { s with fault := some (.deadlock .state) }
    else (s.drop callback).panic []
  else if s.poisoned then (s.drop callback).panic []
  else
    { s with
      timers := s.timers ++ [(s.nextHandle, callback)],
      nextHandle := s.nextHandle + 1 }

/-- `PlatformRunLoop::unschedule`. -/
def unschedule (b : Backend) (s : State) (h : HandleType) : State :=
  if .state ∈ s.held then
    if b = .darwin then { s with fault := some (.deadlock .state) } else s.panic []
  else if s.poisoned then s.panic []
  else
    match b with
    | .linux =>
        { s with
          timers := s.timers.filter fun v => v.1 != h,
          stack := .drop (s.owned h) :: .noUnwind :: s.stack }
    | .darwin | .win32 | .android =>
        { s with
          timers := s.timers.filter fun v => v.1 != h,
          held := .state :: s.held,
          stack := .drop (s.owned h) :: .release :: s.stack }

def exec (b : Backend) (s : State) : Op → State
  | .panic payload => s.panic payload
  -- with the instance still set it would return `AlreadyInitialized`
  | .init => s.withLock .initMutex s
  | .isInitialized => s
  | .post callback => s.withLock .runLoopSender (s.drop callback)
  | .call callback => s.withLock .runLoopThreadId (s.drop callback)
  | .spawn future => (s.drop future).panic []
  | .schedule callback => s.schedule b callback
  | .cancel h => s.unschedule b h
  | .abort t => if s.tasks[t]?.any (0 < ·.refs) then s.abortWith t [] else s
  | .dropJoinHandle t =>
      if s.tasks[t]?.any (0 < ·.refs) then
        (s.update t fun x => { x with refs := x.refs - 1 }).free t
      else s
  | .catchUnwind ops => s.push [.code ops, .catchUnwind]

def perform (b : Backend) (s : State) : Phase → State
  | .takePendingCalls => s.withLock .pendingCalls s
  | .abortTasks =>
      s.withLock .activeTasks
        { s with held := .activeTasks :: s.held, stack := .abortLoop s.activeTasks :: s.stack }
  | .clearTasks => s.withLock .activeTasks { s with activeTasks := [] }
  | .clearThreadId => s.withLock .runLoopThreadId { s with runLoopThreadId := false }
  | .clearInstance =>
      -- `Drop for PlatformRunLoop` locks the state
      if b = .darwin ∧ s.poisoned ∧ ¬ s.shared then { s with runLoopInstance := false }.panic []
      else { s with runLoopInstance := false }
  | .clearSender => s.withLock .runLoopSender { s with runLoopSender := false }
  | .unlock => { s with held := s.held.erase .initMutex }

/-- The next turn of the abort loop. -/
def abortNext (s : State) (t : TaskId) (ts : List TaskId) : State :=
  if s.alive t then (s.push [.abortLoop ts]).abortWith t [.catchUnwind]
  else s.push [.abortLoop ts]

/-- What the innermost frame does; it is off the stack. -/
def resume (b : Backend) (s : State) : Frame → State
  | .code [] | .drop [] | .catchUnwind | .noUnwind => s
  | .code (op :: ops) => (s.push [.code ops]).exec b op
  | .drop (d :: ds) => s.push [.code d, .drop ds]
  | .cleanup payload => s.panic payload
  | .release => { s with held := s.held.erase .state }
  | .clearSlot t => s.update t fun x => { x with future := .empty }
  | .unref t => (s.update t fun x => { x with calls := x.calls - 1 }).free t
  | .abortLoop [] => { s with held := s.held.erase .activeTasks }
  | .abortLoop (t :: ts) => s.abortNext t ts
  | .phase p => s.perform b p

/-- What a panic does to the innermost frame. -/
def unwind (b : Backend) (s : State) (payload : Destructors) : Frame → State
  | .code _ | .drop [] => s
  | .drop (d :: ds) => { s with unwinding := none }.push [.code d, .cleanup payload, .drop ds]
  | .cleanup _ | .noUnwind => { s with fault := some .abort }
  | .catchUnwind => { s with unwinding := none }.drop payload
  | .release =>
      { s with held := s.held.erase .state, poisoned := s.poisoned || b == .darwin }
  | .clearSlot t => s.update t fun x => { x with future := .empty }
  | .unref t => (s.update t fun x => { x with calls := x.calls - 1 }).free t
  | .abortLoop _ | .phase _ => { s with fault := some .escaped }

def step (b : Backend) (s : State) : Option State :=
  match s.fault, s.stack with
  | some _, _ | none, [] => none
  | none, f :: rest =>
      match s.unwinding with
      | none => some ({ s with stack := rest }.resume b f)
      | some payload => some ({ s with stack := rest }.unwind b payload f)

/-- `RunLoop::release_guard`, up to the end of the statement that takes `INIT_MUTEX`. -/
def releaseGuard (s : State) : State :=
  s.withLock .initMutex
    { s with
      initCount := s.initCount - 1,
      held := .initMutex :: s.held,
      stack := ((if s.initCount = 1 then shutdown else []) ++ [Phase.unlock]).map Frame.phase ++
        s.stack }

/-- The last guard is dropped, while these tasks and timers are there. -/
def start (tasks : List Spawned) (activeTasks : List TaskId)
    (timers : List (HandleType × Destructors)) (nextHandle : HandleType) (shared : Bool) : State :=
  releaseGuard { tasks := tasks.map Spawned.toTask, activeTasks, timers, nextHandle, shared }

/-! ## What is to hold, and when it does -/

/-- `release_guard` has returned, every task is aborted or gone, and nothing is left set or
locked. -/
structure Released (activeTasks : List TaskId) (s : State) : Prop where
  returned : s.fault = none ∧ s.stack = []
  aborted : ∀ t ∈ activeTasks, ∀ x, s.tasks[t]? = some x →
    x.alive = false ∨ x.aborted = true ∧ x.future = .empty
  cleared : s.runLoopInstance = false ∧ s.runLoopThreadId = false ∧ s.runLoopSender = false
  unlocked : s.held = []

/-- The step that comes next is one that `release_guard` does not survive: `init`, under
`INIT_MUTEX`; `abort` of a task whose future is being dropped; `schedule` or `unschedule` under the
state mutex of Darwin; a panic that leaves a destructor run by a panic, or a C function, or what
`release_guard` does outside of `catch_unwind`. -/
def strays (b : Backend) (s : State) : Bool :=
  match s.unwinding, s.stack with
  | none, .code (.init :: _) :: _ => s.held.contains .initMutex
  | none, .code (.abort t :: _) :: _ =>
      s.tasks[t]?.any fun x => x.future.isDropping && decide (0 < x.refs)
  | none, .code (.schedule _ :: _) :: _ | none, .code (.cancel _ :: _) :: _ =>
      b == .darwin && s.held.contains .state
  | some _, .cleanup _ :: _ | some _, .noUnwind :: _ | some _, .abortLoop _ :: _
  | some _, .phase _ :: _ => true
  | _, _ => false

/-! ## Steps -/

variable {b : Backend} {s : State}

theorem step_resume {f : Frame} {rest : List Frame} (hf : s.fault = none)
    (hu : s.unwinding = none) (hs : s.stack = f :: rest) :
    s.step b = some (State.resume b { s with stack := rest } f) := by
  obtain ⟨⟩ := s
  cases hf
  cases hu
  cases hs
  rfl

theorem step_unwind {f : Frame} {rest : List Frame} {payload : Destructors}
    (hf : s.fault = none) (hu : s.unwinding = some payload) (hs : s.stack = f :: rest) :
    s.step b = some (State.unwind b { s with stack := rest } payload f) := by
  obtain ⟨⟩ := s
  cases hf
  cases hu
  cases hs
  rfl

theorem step_eq_none (hs : s.stack = []) : s.step b = none := by
  unfold State.step
  rw [hs]
  cases s.fault <;> rfl

end State

end Wxp.Release
