import Wxp.RunLoop.Dispatch
import Mathlib.Logic.Function.Basic

/-!
# RunLoop — Process

The process-wide run loop of `src/run_loop.rs`: the statics, the transitions of
`RunLoop::init` and `RunLoopGuard::drop` under `INIT_MUTEX`, and the operations
`RunLoop::post` and `RunLoop::call` of any number of threads. Every access to a
shared variable is a step of its own, so a run is one interleaving.

* A generation is one `RunLoopInner`: it is created by `initialize`, shut down
  when the last guard goes, and dropped when no strong reference is left. A
  pending timer holds one (`RunLoopLocal::schedule`), the others are up to the
  program, so the drop may come at any time after that.
* Each generation has the `Loop` of its platform run loop. On Linux a dropped
  generation leaves its sources attached to the context of the host; on the
  other backends the queue goes with it, except for a sender that was already
  past its `Weak::upgrade` (`SendOutcome`).
* An operation carries the local variables of its thread and, as a history, the
  `RunLoopLocal` its callback was given (`current`).

A callback does not panic and returns a value of `ρ`.
-/

namespace Wxp.RunLoop

abbrev Gen := Nat
abbrev Thread := Nat
abbrev OpId := Nat
abbrev TimerId := Nat

/-- `run_loop::Error`, as far as `post` and `call` return it. -/
inductive Error
  | notInitialized
  | notRunLoopThread
  deriving DecidableEq, Repr

inductive OpKind
  | post
  | call
  deriving DecidableEq, Repr

/-- What `post` (`posted`) or `call` (`value`) returns. -/
inductive Returned (ρ : Type)
  | posted
  | value (r : ρ)
  | err (e : Error)
  deriving DecidableEq, Repr

/-- Where a thread is inside `post` or `call`. -/
inductive Pc (ρ : Type)
  | idle
  | entered
  /-- `call` on the run loop thread runs its callback in place. -/
  | inline
  | gotSender
  /-- `call` has pushed its completion to `PENDING_CALLS`. -/
  | registered
  /-- `RunLoopSender::send` has found the token unset. -/
  | checked
  /-- The platform sender has taken the closure. -/
  | enqueued
  /-- `call` is inside `get_blocking`. -/
  | blocked
  | returned (r : Returned ρ)
  deriving DecidableEq, Repr

structure Op (ρ : Type) where
  kind : OpKind := .post
  thread : Thread := 0
  pc : Pc ρ := .idle
  /-- The generation of the sender it cloned, or of the local it ran with. -/
  gen : Gen := 0
  /-- `CallCompletion::completed`. -/
  completed : Bool := false
  /-- The `BlockingVariable`. -/
  slot : Option (Except Error ρ) := none
  fills : Nat := 0
  /-- What `current_local` returned to its closure. -/
  current : Option (Except Error Gen) := none
  produced : Option ρ := none

/-- What the senders put into a platform queue: the closure of an operation, or
a wake-up of a task or of `block_on`. -/
inductive Closure
  | op (o : OpId)
  | wake (n : Nat)
  deriving DecidableEq, Repr

structure RunLoopInner where
  owner : Thread := 0
  hasShutdown : Bool := false
  shutdownToken : Bool := false
  dropped : Bool := false
  loop : Loop Closure TimerId := {}

/-- Where the holder of `INIT_MUTEX` is: in `initialize` on behalf of `init`, or
in `shutdown`. -/
inductive Transition
  | initSender (t : Thread) (g : Gen)
  | initThread (t : Thread) (g : Gen)
  | initCount (t : Thread) (g : Gen)
  | setShutdown
  | setToken (g : Gen)
  | takePending (g : Gen)
  | cancel (g : Gen) (os : List OpId)
  | clearThread
  | clearInstance
  | clearSender
  deriving DecidableEq, Repr

structure Process (ρ : Type) where
  /-- `RUN_LOOP_INSTANCE`. -/
  runLoopInstance : Option Gen := none
  /-- `RUN_LOOP_SENDER`. -/
  runLoopSender : Option Gen := none
  /-- `RUN_LOOP_THREAD_ID`. -/
  runLoopThreadId : Option Thread := none
  /-- `INIT_COUNT`; also the number of `RunLoopGuard`s that exist. -/
  initCount : Nat := 0
  /-- `INIT_MUTEX`. -/
  initMutex : Option Transition := none
  /-- `PENDING_CALLS`. -/
  pendingCalls : List OpId := []
  gens : Gen → RunLoopInner := fun _ => {}
  nextGen : Gen := 0
  ops : OpId → Op ρ := fun _ => {}
  nextOp : OpId := 0
  /-- Each `RunLoopLocal` given to a callback, with its `has_shutdown` then. -/
  handed : List (Gen × Bool) := []

/-- How `PlatformRunLoopSender::send` ends. -/
inductive SendOutcome
  | queued
  /-- The queue was upgraded just before it went: `true`, but nothing runs it. -/
  | lost
  /-- The queue could not be upgraded: `false`. -/
  | refused
  /-- `g_main_context_invoke_full` found the context without an owner and ran
  the closure in place. -/
  | inline
  deriving DecidableEq, Repr

inductive Action (ρ : Type)
  | init (t : Thread)
  | dropGuard (t : Thread)
  | advance
  | begin (k : OpKind) (t : Thread)
  | op (o : OpId)
  | enqueue (o : OpId) (outcome : SendOutcome) (v : ρ)
  | inlineReturn (o : OpId) (v : ρ)
  | loop (g : Gen) (a : Act Closure TimerId) (v : ρ)
  | dropLoop (g : Gen)

variable {ρ : Type}

/-! ## Operations -/

/-- The thread is inside the code of `post` or `call`, not in a callback. -/
def Pc.busy : Pc ρ → Bool
  | .entered | .gotSender | .registered | .checked | .enqueued | .blocked => true
  | _ => false

/-- `CallCompletion::complete`. -/
def Op.complete (p : Op ρ) (r : Except Error ρ) : Op ρ :=
  if p.completed then p
  else { p with completed := true, slot := some r, fills := p.fills + 1 }

/-- `CallCompletion::cancel`. -/
def Op.cancel (p : Op ρ) : Op ρ := p.complete (.error .notInitialized)

/-- The closure of the operation ends; the callback, if it ran, produced `v`. -/
def Op.finish (p : Op ρ) (v : ρ) : Op ρ :=
  match p.kind, p.current with
  | .call, some (.ok _) => Op.complete { p with produced := some v } (.ok v)
  | .call, some (.error e) => p.complete (.error e)
  | _, _ => p

/-- `BlockingVariable::get_blocking` takes the value. -/
def Op.get (p : Op ρ) (r : Except Error ρ) : Op ρ :=
  { p with
    slot := none,
    pc := .returned (match r with | .ok v => .value v | .error e => .err e) }

namespace Process

def setOp (s : Process ρ) (o : OpId) (p : Op ρ) : Process ρ :=
  { s with ops := Function.update s.ops o p }

def setGen (s : Process ρ) (g : Gen) (i : RunLoopInner) : Process ρ :=
  { s with gens := Function.update s.gens g i }

def setPc (s : Process ρ) (o : OpId) (pc : Pc ρ) : Process ρ :=
  s.setOp o { s.ops o with pc }

def busy (s : Process ρ) (t : Thread) : Bool :=
  (List.range s.nextOp).any fun o => (s.ops o).thread == t && (s.ops o).pc.busy

def initializing (s : Process ρ) (t : Thread) : Bool :=
  match s.initMutex with
  | some (.initSender t' _) | some (.initThread t' _) | some (.initCount t' _) => t' == t
  | _ => false

/-- `Weak::upgrade` of the completion of a call: its caller or its closure still
holds it. -/
def upgrades (s : Process ρ) (o : OpId) : Bool :=
  (s.ops o).pc.busy || (s.gens (s.ops o).gen).loop.unstarted.contains (.op o) ||
    (s.gens (s.ops o).gen).loop.running.contains (.op o)

/-- `RunLoop::current_local` on thread `t`. -/
def currentLocal (s : Process ρ) (t : Thread) : Except Error Gen :=
  match s.runLoopThreadId with
  | none => .error .notInitialized
  | some t' =>
      if t ≠ t' then .error .notRunLoopThread
      else match s.runLoopInstance with
        | none => .error .notInitialized
        | some g => if (s.gens g).hasShutdown then .error .notInitialized else .ok g

/-- A closure is started on thread `t`. The closure of an operation goes on to
its callback if `current_local` succeeds. -/
def startClosure (s : Process ρ) (t : Thread) : Closure → Process ρ
  | .op o =>
      let s' := s.setOp o { s.ops o with current := some (s.currentLocal t) }
      match s.currentLocal t with
      | .ok g => { s' with handed := s.handed ++ [(g, (s.gens g).hasShutdown)] }
      | .error _ => s'
  | .wake _ => s

def finishClosure (s : Process ρ) (v : ρ) : Closure → Process ρ
  | .op o => s.setOp o ((s.ops o).finish v)
  | .wake _ => s

/-! ## `init` and `shutdown` -/

/-- `RunLoop::init`, up to the point where `initialize` has set the instance. -/
def init (s : Process ρ) (t : Thread) : Option (Process ρ) :=
  if s.initMutex.isSome || s.busy t then none
  else if s.initCount = 0 then
    match s.runLoopInstance with
    | some _ => some s
    | none =>
        some { s with
          gens := Function.update s.gens s.nextGen { owner := t },
          nextGen := s.nextGen + 1,
          runLoopInstance := some s.nextGen,
          initMutex := some (.initSender t s.nextGen) }
  else if s.runLoopThreadId = some t then some { s with initCount := s.initCount + 1 }
  else some s

/-- `RunLoopGuard::drop`, on the thread that owns the guard, up to `shutdown`. -/
def dropGuard (s : Process ρ) (t : Thread) : Option (Process ρ) :=
  if s.initMutex.isSome || s.busy t || s.runLoopThreadId ≠ some t then none
  else match s.initCount with
    | 0 => none
    | 1 => some { s with initCount := 0, initMutex := some .setShutdown }
    | n + 1 => some { s with initCount := n }

/-- The holder of `INIT_MUTEX` goes on. Aborting the tasks of the generation,
between `cancel` and `clearThread`, touches none of these variables. -/
def advance (s : Process ρ) : Option (Process ρ) :=
  match s.initMutex with
  | some (.initSender t g) =>
      some { s with runLoopSender := some g, initMutex := some (.initThread t g) }
  | some (.initThread t g) =>
      some { s with runLoopThreadId := some t, initMutex := some (.initCount t g) }
  | some (.initCount _ _) => some { s with initCount := 1, initMutex := none }
  | some .setShutdown =>
      match s.runLoopInstance with
      | some g =>
          some { s.setGen g { s.gens g with hasShutdown := true } with
            initMutex := some (.setToken g) }
      | none => some { s with initMutex := some .clearThread }
  | some (.setToken g) =>
      some { s.setGen g { s.gens g with shutdownToken := true } with
        initMutex := some (.takePending g) }
  | some (.takePending g) =>
      some { s with pendingCalls := [], initMutex := some (.cancel g s.pendingCalls) }
  | some (.cancel g (o :: os)) =>
      some { (if s.upgrades o then s.setOp o (s.ops o).cancel else s) with
        initMutex := some (.cancel g os) }
  | some (.cancel _ []) => some { s with initMutex := some .clearThread }
  | some .clearThread => some { s with runLoopThreadId := none, initMutex := some .clearInstance }
  | some .clearInstance => some { s with runLoopInstance := none, initMutex := some .clearSender }
  | some .clearSender => some { s with runLoopSender := none, initMutex := none }
  | none => none

/-! ## `post` and `call` -/

def begin (s : Process ρ) (k : OpKind) (t : Thread) : Option (Process ρ) :=
  if s.busy t || s.initializing t then none
  else some { s.setOp s.nextOp { kind := k, thread := t, pc := .entered } with
    nextOp := s.nextOp + 1 }

/-- The first token check of `RunLoopSender::send`. -/
def checkToken (s : Process ρ) (o : OpId) : Process ρ :=
  let inner := s.gens (s.ops o).gen
  s.setPc o (if inner.dropped || inner.shutdownToken then .returned (.err .notInitialized)
    else .checked)

/-- The second token check, after the platform sender has returned `true`. -/
def recheckToken (s : Process ρ) (o : OpId) : Process ρ :=
  s.setPc o (if (s.gens (s.ops o).gen).shutdownToken then .returned (.err .notInitialized)
    else match (s.ops o).kind with
      | .post => .returned .posted
      | .call => .blocked)

/-- `is_run_loop_thread` and `RunLoop::sender`. -/
def enter (s : Process ρ) (o : OpId) : Process ρ :=
  let p := s.ops o
  if p.kind = .call ∧ s.runLoopThreadId = some p.thread then
    match s.currentLocal p.thread with
    | .ok g =>
        { s.setOp o { p with pc := .inline, gen := g, current := some (.ok g) } with
          handed := s.handed ++ [(g, (s.gens g).hasShutdown)] }
    | .error e => s.setPc o (.returned (.err e))
  else match s.runLoopSender with
    | some g => s.setOp o { p with pc := .gotSender, gen := g }
    | none => s.setPc o (.returned (.err .notInitialized))

/-- A new completion goes to `PENDING_CALLS`; entries that nothing holds any
more are removed. -/
def register (s : Process ρ) (o : OpId) : Process ρ :=
  { s.setOp o { s.ops o with pc := .registered, completed := false, slot := none, fills := 0 } with
    pendingCalls := s.pendingCalls.filter s.upgrades ++ [o] }

def stepOp (s : Process ρ) (o : OpId) : Option (Process ρ) :=
  match (s.ops o).pc with
  | .entered => some (s.enter o)
  | .gotSender =>
      match (s.ops o).kind with
      | .post => some (s.checkToken o)
      | .call => some (s.register o)
  | .registered => some (s.checkToken o)
  | .enqueued => some (s.recheckToken o)
  | .blocked => (s.ops o).slot.map fun r => s.setOp o ((s.ops o).get r)
  | _ => none

def inlineReturn (s : Process ρ) (o : OpId) (v : ρ) : Option (Process ρ) :=
  match (s.ops o).pc with
  | .inline => some (s.setOp o { s.ops o with produced := some v, pc := .returned (.value v) })
  | _ => none

end Process

/-- The outcomes of a platform send to a generation that is there, or dropped. -/
def Backend.mayEnd (b : Backend) (dropped : Bool) : SendOutcome → Bool
  | .queued => !dropped || b == .darwin || b == .linux
  | .lost => dropped && (b == .win32 || b == .android)
  | .refused => dropped && b != .linux
  | .inline => dropped && b == .linux

/-- The action sends the closure of an operation; only `enqueue` does that. -/
def sendsOp : Act Closure TimerId → Bool
  | .send (.op _) | .wakeBlockOn (.op _) => true
  | _ => false

/-- The queue goes with its platform run loop, and with it the callbacks that
were not taken into a batch. -/
def Loop.discard {κ τ : Type} (l : Loop κ τ) : Loop κ τ :=
  { l with state := { l.state with callbacks := [] }, accepted := l.started ++ l.parked }

namespace Process

def pushTo (s : Process ρ) (g : Gen) (c : Closure) : Process ρ :=
  s.setGen g { s.gens g with loop := (s.gens g).loop.push c }

/-- `PlatformRunLoopSender::send`. -/
def enqueue (s : Process ρ) (b : Backend) (o : OpId) (outcome : SendOutcome) (v : ρ) :
    Option (Process ρ) :=
  let p := s.ops o
  match p.pc with
  | .checked =>
      if b.mayEnd (s.gens p.gen).dropped outcome then
        match outcome with
        | .queued => some ((s.pushTo p.gen (.op o)).setPc o .enqueued)
        | .lost => some (s.setPc o .enqueued)
        | .refused => some (s.setPc o (.returned (.err .notInitialized)))
        | .inline =>
            let s' := (s.startClosure p.thread (.op o)).finishClosure v (.op o)
            some (s'.setPc o .enqueued)
      else none
  | _ => none

/-- Generation `g` has the platform run loop `l`, whose newly fired timers are
given a `RunLoopLocal` of `g`. -/
def withLoop (s : Process ρ) (g : Gen) (l : Loop Closure TimerId) : Process ρ :=
  let inner := s.gens g
  { s.setGen g { inner with loop := l } with
    handed := s.handed ++
      (l.fired.drop inner.loop.fired.length).map fun _ => (g, inner.hasShutdown) }

/-- One step of the platform run loop of generation `g`, with what the closures
it starts or finishes do to the process. -/
def stepLoop (s : Process ρ) (b : Backend) (g : Gen) (a : Act Closure TimerId) (v : ρ) :
    Option (Process ρ) :=
  let inner := s.gens g
  if g < s.nextGen ∧ ¬ sendsOp a then
    (inner.loop.step b a).map fun l =>
      let s' := (l.started.drop inner.loop.started.length).foldl
        (fun s c => s.startClosure inner.owner c) (s.withLoop g l)
      (l.finished.drop inner.loop.finished.length).foldl (fun s c => s.finishClosure v c) s'
  else none

/-- The last strong reference to generation `g` goes. -/
def dropLoop (s : Process ρ) (b : Backend) (g : Gen) : Option (Process ρ) :=
  let inner := s.gens g
  if g < s.nextGen ∧ ¬ inner.dropped ∧ s.runLoopInstance ≠ some g ∧
      inner.loop.pendingTimers.isEmpty then
    some (s.setGen g { inner with
      dropped := true, loop := if b = .linux then inner.loop else inner.loop.discard })
  else none

def step (b : Backend) (s : Process ρ) : Action ρ → Option (Process ρ)
  | .init t => s.init t
  | .dropGuard t => s.dropGuard t
  | .advance => s.advance
  | .begin k t => s.begin k t
  | .op o => s.stepOp o
  | .enqueue o outcome v => s.enqueue b o outcome v
  | .inlineReturn o v => s.inlineReturn o v
  | .loop g a v => s.stepLoop b g a v
  | .dropLoop g => s.dropLoop b g

end Process

/-- Any number of threads over the statics of one process on backend `b`. -/
def processSystem (ρ : Type) (b : Backend) : System (Process ρ) (Action ρ) where
  init := {}
  step := Process.step b

end Wxp.RunLoop
