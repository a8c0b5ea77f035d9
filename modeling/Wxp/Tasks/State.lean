import Wxp.Foundations.System
import Wxp.Foundations.Lists

/-!
# Tasks — State

The executor behind `RunLoopLocal::spawn` (`src/task.rs`) on one run loop thread:
the tasks, the poll closures their wakers send, and the stack of the polls and
shutdowns that are under way.

* A wake sends a closure that polls the task on the run loop thread. Which queued
  closure is dispatched next is left open, so that every backend is covered, and
  so is nested dispatch: user code may pump the loop (`block_on`, `run`) from
  inside a poll or a destructor.
* User code is in control whenever a step of its own is enabled: at top level,
  inside the poll of a future, and inside the destructor of a future that `abort`
  drops.
* `init` and the guards are those of one thread. An `init` after a shutdown starts
  a new generation with a queue of its own; the tasks of an old generation keep
  their sender, which refuses once the shutdown token is set.
* A poll closure runs on the run loop thread. GLib's `g_main_context_invoke_full` can run
  it in place on another thread, but only when the platform run loop is gone; that is left
  out here, and modelled for calls and posts.

The last fields of `Task` and `clashes` record history. No step reads them.
-/

namespace Wxp.Tasks

abbrev TaskId := Nat

abbrev Generation := Nat

/-- `JoinError`, with panic payloads in `π`. -/
inductive JoinError (π : Type)
  | aborted
  | panic (payload : π)
  deriving DecidableEq, Repr

/-- `Result<T, JoinError>`. -/
abbrev JoinResult (τ π : Type) := Except (JoinError π) τ

/-- How the poll of a future ends. `Task::poll` catches a panic. -/
inductive FuturePoll (τ π : Type)
  | pending
  | ready (value : τ)
  | panics (payload : π)
  deriving DecidableEq, Repr

/-- The last thing that happened to the `JoinHandle` of a task. -/
inductive Joiner (ω : Type)
  | unpolled
  /-- Its last poll was given `waker` and returned `Pending`; `woken` are the
  wakers the task has woken since. -/
  | pending (waker : ω) (woken : List ω)
  | ready
  | dropped
  deriving DecidableEq, Repr

structure Task (τ π ω : Type) where
  generation : Generation
  /-- The `UnsafeCell` holds the future. -/
  future : Bool := true
  value : Option (JoinResult τ π) := none
  waker : Option ω := none
  aborted : Bool := false
  /-- What the polls of the future returned, `Pending` apart. -/
  outcomes : List (JoinResult τ π) := []
  /-- What was assigned to `value`. -/
  stored : List (JoinResult τ π) := []
  /-- Polls of the future that began after it had finished. -/
  repolls : Nat := 0
  /-- The `JoinHandle` has taken `value`. -/
  collected : Bool := false
  joiner : Joiner ω := .unpolled
  deriving DecidableEq

/-- What is under way on the run loop thread, innermost first. -/
inductive Frame
  /-- `future.as_mut().poll(context)`. -/
  | polling (t : TaskId)
  /-- The abort loop of `shutdown`, with the tasks it has not reached yet. -/
  | shutdown (tasks : List TaskId)
  deriving DecidableEq, Repr

structure Executor (τ π ω : Type) where
  tasks : List (Task τ π ω) := []
  /-- The poll closures in the queues of the run loops, by task. -/
  queue : List TaskId := []
  /-- The wakes on other threads between `shutdown_token.load` and the queue. -/
  sending : List TaskId := []
  stack : List Frame := []
  generation : Generation := 0
  /-- `INIT_COUNT`. -/
  initCount : Nat := 0
  /-- The generations whose platform run loop is gone with its queue. -/
  destroyed : List Generation := []
  /-- The tasks whose future slot was polled or cleared under a running poll of it. -/
  clashes : List TaskId := []
  deriving DecidableEq

inductive Act (τ π ω : Type)
  | init
  | dropGuard
  | spawn
  | wake (t : TaskId)
  | wakeElsewhere (t : TaskId)
  | enqueue (t : TaskId)
  | dispatch (t : TaskId)
  | pollReturns (p : FuturePoll τ π)
  | pollHandle (t : TaskId) (w : ω)
  | dropHandle (t : TaskId)
  | abort (t : TaskId)
  | abortNext
  | destroyQueue (g : Generation)

variable {τ π ω : Type}

/-! ## One task -/

/-- What `Task::poll` makes of the end of the future's poll. -/
def FuturePoll.outcome : FuturePoll τ π → Option (JoinResult τ π)
  | .pending => none
  | .ready v => some (.ok v)
  | .panics p => some (.error (.panic p))

def Joiner.wake : Joiner ω → Option ω → Joiner ω
  | .pending w woken, some w' => .pending w (woken ++ [w'])
  | j, _ => j

/-- `Task::poll` up to the poll of the future: its answer if it does not get there. -/
def Task.pollEarly (x : Task τ π ω) : Option (JoinResult τ π) :=
  if x.aborted then some (.error .aborted)
  else if x.future then none
  else some (.error .aborted)

/-- `future.as_mut().poll(context)` is called. -/
def Task.enterFuture (x : Task τ π ω) : Task τ π ω :=
  { x with repolls := if x.outcomes.isEmpty then x.repolls else x.repolls + 1 }

/-- The poll of the future ends with `r`. -/
def Task.finish (x : Task τ π ω) (r : JoinResult τ π) : Task τ π ω :=
  { x with outcomes := x.outcomes ++ [r] }

/-- `*arc_self.value.borrow_mut() = Some(result)`. -/
def Task.store (x : Task τ π ω) (r : JoinResult τ π) : Task τ π ω :=
  { x with value := some r, stored := x.stored ++ [r] }

/-- A poll of the `JoinHandle` would return `Ready`. -/
def Task.available (x : Task τ π ω) : Bool := x.value.isSome || x.aborted

/-- The end of the poll closure: wake the joiner if the result is now available. -/
def Task.notify (x : Task τ π ω) : Task τ π ω :=
  if x.available then { x with waker := none, joiner := x.joiner.wake x.waker } else x

/-- The poll closure after the future's poll: store the outcome, then notify. -/
def Task.settle (x : Task τ π ω) (p : FuturePoll τ π) : Task τ π ω :=
  match p.outcome with
  | none => x.notify
  | some r => ((x.finish r).store r).notify

/-- `Task::abort`. -/
def Task.abort (x : Task τ π ω) : Task τ π ω := { x with aborted := true, future := false }

/-- `JoinHandle::poll` with the waker `w`. -/
def Task.pollHandle (x : Task τ π ω) (w : ω) : Task τ π ω × Option (JoinResult τ π) :=
  if x.aborted then ({ x with joiner := .ready }, some (.error .aborted))
  else match x.value with
    | some r => ({ x with value := none, collected := true, joiner := .ready }, some r)
    | none => ({ x with waker := some (x.waker.getD w), joiner := .pending w [] }, none)

/-! ## The steps -/

namespace Executor

/-- The run loop of generation `g` is initialized and not shut down. -/
def live (s : Executor τ π ω) (g : Generation) : Bool := g == s.generation && 0 < s.initCount

def polling (s : Executor τ π ω) (t : TaskId) : Bool := s.stack.contains (.polling t)

def update (s : Executor τ π ω) (t : TaskId) (f : Task τ π ω → Task τ π ω) : Executor τ π ω :=
  { s with tasks := s.tasks.modify t f }

/-- The future slot of `t` is touched. -/
def touch (s : Executor τ π ω) (t : TaskId) : Executor τ π ω :=
  { s with clashes := if s.polling t then s.clashes ++ [t] else s.clashes }

/-- The tasks of generation `g`, as `active_tasks` lists them. -/
def tasksOf (s : Executor τ π ω) (g : Generation) : List TaskId :=
  (List.range s.tasks.length).filter fun t => s.tasks[t]?.any fun x => x.generation == g

/-- A shutdown holds `INIT_MUTEX`. -/
def shuttingDown (s : Executor τ π ω) : Bool :=
  s.stack.any fun
    | .shutdown _ => true
    | .polling _ => false

/-- `RunLoop::init`. -/
def init (s : Executor τ π ω) : Option (Executor τ π ω) :=
  if s.shuttingDown then none
  else some { s with
    generation := if s.initCount = 0 then s.generation + 1 else s.generation,
    initCount := s.initCount + 1 }

/-- `release_guard`; the last one begins the abort loop of `shutdown`. -/
def dropGuard (s : Executor τ π ω) : Option (Executor τ π ω) :=
  match s.initCount with
  | 0 => none
  | 1 => some { s with initCount := 0, stack := .shutdown (s.tasksOf s.generation) :: s.stack }
  | n + 2 => some { s with initCount := n + 1 }

/-- `RunLoopLocal::spawn`: the task and its first wake. -/
def spawn (s : Executor τ π ω) : Option (Executor τ π ω) :=
  if 0 < s.initCount then
    some { s with
      tasks := s.tasks ++ [{ generation := s.generation }],
      queue := s.queue ++ [s.tasks.length] }
  else none

/-- `wake_by_ref` on the run loop thread. -/
def wake (s : Executor τ π ω) (t : TaskId) : Option (Executor τ π ω) :=
  match s.tasks[t]? with
  | none => none
  | some x => some (if s.live x.generation then { s with queue := s.queue ++ [t] } else s)

/-- `wake_by_ref` on another thread, up to the first look at the token. -/
def wakeElsewhere (s : Executor τ π ω) (t : TaskId) : Option (Executor τ π ω) :=
  match s.tasks[t]? with
  | none => none
  | some x => some (if s.live x.generation then { s with sending := s.sending ++ [t] } else s)

/-- `platform_sender.send` on another thread; it fails once the queue is gone. -/
def enqueue (s : Executor τ π ω) (t : TaskId) : Option (Executor τ π ω) :=
  match s.tasks[t]? with
  | none => none
  | some x =>
      if s.sending.contains t then
        some { s with
          sending := s.sending.erase t,
          queue := if s.destroyed.contains x.generation then s.queue else s.queue ++ [t] }
      else none

/-- A poll closure of `t` is run, up to the poll of the future where it gets there. -/
def dispatch (s : Executor τ π ω) (t : TaskId) : Option (Executor τ π ω) :=
  match s.tasks[t]? with
  | none => none
  | some x =>
      if s.queue.contains t then
        let s := { s with queue := s.queue.erase t }
        if x.available then some (s.update t Task.notify)
        else match x.pollEarly with
          | some r => some (s.update t fun x => (x.store r).notify)
          | none =>
              let s := (s.touch t).update t Task.enterFuture
              some { s with stack := .polling t :: s.stack }
      else none

/-- The innermost poll returns to its closure, which runs to its end. -/
def pollReturns (s : Executor τ π ω) (p : FuturePoll τ π) : Option (Executor τ π ω) :=
  match s.stack with
  | .polling t :: rest => some { s.update t (·.settle p) with stack := rest }
  | _ => none

/-- The handle of `t` exists. -/
def hasHandle (s : Executor τ π ω) (t : TaskId) : Bool :=
  match s.tasks[t]? with
  | none => false
  | some x => match x.joiner with
    | .dropped => false
    | _ => true

def pollHandle (s : Executor τ π ω) (t : TaskId) (w : ω) : Option (Executor τ π ω) :=
  if s.hasHandle t then some (s.update t fun x => (x.pollHandle w).1) else none

def dropHandle (s : Executor τ π ω) (t : TaskId) : Option (Executor τ π ω) :=
  if s.hasHandle t then some (s.update t fun x => { x with joiner := .dropped }) else none

/-- The slot of `t` is cleared. -/
def clear (s : Executor τ π ω) (t : TaskId) : Executor τ π ω := (s.touch t).update t Task.abort

/-- `JoinHandle::abort`. -/
def abort (s : Executor τ π ω) (t : TaskId) : Option (Executor τ π ω) :=
  if s.hasHandle t then some (s.clear t) else none

/-- The abort loop of `shutdown` goes on. -/
def abortNext (s : Executor τ π ω) : Option (Executor τ π ω) :=
  match s.stack with
  | .shutdown [] :: rest => some { s with stack := rest }
  | .shutdown (t :: ts) :: rest => some { s.clear t with stack := .shutdown ts :: rest }
  | _ => none

/-- The platform run loop of a generation that was shut down is dropped. -/
def destroyQueue (s : Executor τ π ω) (g : Generation) : Option (Executor τ π ω) :=
  if g ≤ s.generation ∧ s.live g = false then
    some { s with
      queue := s.queue.filter fun t => !s.tasks[t]?.any fun x => x.generation == g,
      destroyed := s.destroyed ++ [g] }
  else none

def step (s : Executor τ π ω) : Act τ π ω → Option (Executor τ π ω)
  | .init => s.init
  | .dropGuard => s.dropGuard
  | .spawn => s.spawn
  | .wake t => s.wake t
  | .wakeElsewhere t => s.wakeElsewhere t
  | .enqueue t => s.enqueue t
  | .dispatch t => s.dispatch t
  | .pollReturns p => s.pollReturns p
  | .pollHandle t w => s.pollHandle t w
  | .dropHandle t => s.dropHandle t
  | .abort t => s.abort t
  | .abortNext => s.abortNext
  | .destroyQueue g => s.destroyQueue g

end Executor

/-- The executor of one thread, over all generations of its run loop. -/
def executorSystem (τ π ω : Type) : System (Executor τ π ω) (Act τ π ω) where
  init := {}
  step := Executor.step

end Wxp.Tasks
