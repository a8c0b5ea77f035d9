import Wxp.RunLoop.Armed
import Wxp.RunLoop.Shutdown

/-!
# RunLoop — Futures

The futures of `RunLoop::delay` over the process-wide run loop.

* The first poll of a future posts the registration of its timer; a future is known here by that
  operation, and it has no state before. The poll is over when `post` returns, and later polls
  read `completed` and do not post again (`scheduled`).
* The closure of the post calls `schedule` and nothing else, so that its start and the
  registration are one step. The callback of the timer stores `completed` and wakes the waker
  of the first poll; a poll that falls between the two is ready like one after both.
* Nobody has the handle of such a timer (`detach`), and the thread that is inside `initialize`
  runs no callback.
* The clock has no end: a registration past the last `Instant` panics under a native function,
  which aborts the process.

A future that is `Kept` has been woken, or a run loop that is live has its registration or its
timer. A step that `abandons` a future is about to leave it without either.
-/

namespace Wxp.RunLoop

variable {ρ : Type}

/-- What a waker wakes. -/
abbrev WakerId := Nat

/-- What a poll of `RunLoop::delay` returns. -/
inductive Poll
  | pending
  | ready (result : Except Error Unit)

/-- A future that was polled. -/
structure Delay where
  duration : Nat
  /-- The waker of the first poll, which the callback of the timer wakes. -/
  waker : WakerId
  /-- The waker of the last poll. -/
  polled : WakerId
  completed : Bool := false
  /-- What the callback has woken. -/
  woken : List WakerId := []
  /-- The future has returned `Ready`, or it was dropped. -/
  ended : Bool := false

structure DelayProcess (ρ : Type) where
  process : Process ρ := {}
  delays : OpId → Option Delay := fun _ => none
  /-- The future a timer belongs to. -/
  timers : TimerId → Option OpId := fun _ => none
  nextTimer : TimerId := 0

inductive DelayAction (ρ : Type)
  | poll (duration : Nat) (t : Thread) (w : WakerId)
  | pollAgain (o : OpId) (w : WakerId)
  | drop (o : OpId)
  | process (a : Action ρ)

/-- A later poll of a future. -/
def Delay.poll (d : Delay) (w : WakerId) : Poll × Delay :=
  if d.completed then (.ready (.ok ()), { d with ended := true })
  else (.pending, { d with polled := w })

/-- `post` has returned `Ok`. -/
def Pc.posted : Pc ρ → Bool
  | .returned .posted => true
  | _ => false

namespace Process

/-- The closure that the step starts. -/
def starting (s : Process ρ) : Action ρ → Option Closure
  | .loop g a _ => (s.gens g).loop.starting a
  | .enqueue o .inline _ => some (.op o)
  | _ => none

/-- The timer whose callback the step starts. -/
def firing (s : Process ρ) : Action ρ → Option TimerId
  | .loop g a _ => (s.gens g).loop.firing a
  | _ => none

/-- `RunLoopLocal::schedule` on generation `g`. -/
def schedule (s : Process ρ) (b : Backend) (g : Gen) (inTime : Nat) (t : TimerId) : Process ρ :=
  let l := (s.gens g).loop
  s.withLoop g { l with state := l.state.schedule b l.now inTime t }

end Process

/-- The run loop thread takes the step. -/
def Act.onRunLoopThread {κ τ : Type} : Act κ τ → Bool
  | .tick _ | .send _ | .wakeBlockOn _ => false
  | _ => true

namespace DelayProcess

def setDelay (s : DelayProcess ρ) (o : OpId) (d : Delay) : DelayProcess ρ :=
  { s with delays := Function.update s.delays o (some d) }

/-- The first poll of a future, up to the first step of `post`. -/
def poll (s : DelayProcess ρ) (duration : Nat) (t : Thread) (w : WakerId) :
    Option (DelayProcess ρ) :=
  (s.process.begin .post t).map fun p =>
    setDelay { s with process := p } s.process.nextOp { duration, waker := w, polled := w }

def pollAgain (s : DelayProcess ρ) (o : OpId) (w : WakerId) : Option (DelayProcess ρ) :=
  match s.delays o with
  | some d =>
      if (s.process.ops o).pc.posted && !d.ended then some (s.setDelay o (d.poll w).2) else none
  | none => none

def drop (s : DelayProcess ρ) (o : OpId) : Option (DelayProcess ρ) :=
  match s.delays o with
  | some d =>
      if (s.process.ops o).pc.posted && !d.ended then
        some (s.setDelay o { d with ended := true })
      else none
  | none => none

/-- The callback of a timer runs. -/
def complete (s : DelayProcess ρ) (t : TimerId) : DelayProcess ρ :=
  match s.timers t with
  | some o =>
      match s.delays o with
      | some d => s.setDelay o { d with completed := true, woken := d.woken ++ [d.waker] }
      | none => s
  | none => s

/-- The closure of a post runs. It registers the timer if `current_local` succeeds. -/
def register (s : DelayProcess ρ) (b : Backend) (o : OpId) : DelayProcess ρ :=
  match s.delays o, (s.process.ops o).current with
  | some d, some (.ok g) =>
      { s with
        process := s.process.schedule b g d.duration s.nextTimer
        timers := Function.update s.timers s.nextTimer (some o)
        nextTimer := s.nextTimer + 1 }
  | _, _ => s

/-- A timer of the program has a name of its own, and a handle of the program is not one of a
future. -/
def allows (s : DelayProcess ρ) : Action ρ → Bool
  | .loop g a _ =>
      let inner := s.process.gens g
      !(a.onRunLoopThread && s.process.initializing inner.owner) &&
        match a with
        | .schedule _ t => t == s.nextTimer
        | .unschedule h =>
            match inner.loop.state.timers.lookup h with
            | some timer => (s.timers timer.callback).isNone
            | none => true
        | _ => true
  | _ => true

def completeFired (s : DelayProcess ρ) : Option TimerId → DelayProcess ρ
  | some t => s.complete t
  | none => s

def registerStarted (s : DelayProcess ρ) (b : Backend) : Option Closure → DelayProcess ρ
  | some (.op o) => s.register b o
  | _ => s

/-- What the callbacks of the futures do in a step of the process that ends in `p`. -/
def follow (s : DelayProcess ρ) (b : Backend) (a : Action ρ) (p : Process ρ) : DelayProcess ρ :=
  let nextTimer := if (Process.schedulesOn a).isSome then s.nextTimer + 1 else s.nextTimer
  (completeFired { s with process := p, nextTimer } (s.process.firing a)).registerStarted b
    (s.process.starting a)

def step (b : Backend) (s : DelayProcess ρ) : DelayAction ρ → Option (DelayProcess ρ)
  | .poll duration t w => s.poll duration t w
  | .pollAgain o w => s.pollAgain o w
  | .drop o => s.drop o
  | .process a =>
      if s.allows a then (s.process.step b a).map fun p => s.follow b a p else none

end DelayProcess

/-- Any number of threads, with any number of futures, over the statics of one process. -/
def delaySystem (ρ : Type) (b : Backend) : System (DelayProcess ρ) (DelayAction ρ) where
  init := {}
  step := DelayProcess.step b

/-! ## What is to hold -/

namespace Process

/-- Generation `g` is live: it is in the instance, and no `shutdown` of it has begun. -/
def Live (s : Process ρ) (g : Gen) : Prop :=
  s.runLoopInstance = some g ∧ (s.gens g).hasShutdown = false

end Process

namespace DelayProcess

/-- The last poll of the future has returned `Pending`. -/
structure Pending (s : DelayProcess ρ) (o : OpId) (d : Delay) : Prop where
  delay : s.delays o = some d
  posted : (s.process.ops o).pc.posted = true
  awaited : d.ended = false

/-- The registration of the timer is queued in generation `g`, or the timer is pending there. -/
def HeldBy (s : DelayProcess ρ) (o : OpId) (g : Gen) : Prop :=
  .op o ∈ (s.process.gens g).loop.unstarted ∨
    ∃ t ∈ (s.process.gens g).loop.pendingTimers, s.timers t = some o

def Kept (s : DelayProcess ρ) (o : OpId) (d : Delay) : Prop :=
  (d.polled ∈ d.woken ∧ ∀ w, (d.poll w).1 = .ready (.ok ())) ∨
    ∃ g, s.process.Live g ∧ s.HeldBy o g

/-! ## What goes wrong -/

/-- The future is pending and not completed, and was posted to generation `g`. -/
def awaits (s : DelayProcess ρ) (g : Gen) (o : OpId) : Bool :=
  match s.delays o with
  | some d =>
      !d.ended && !d.completed && (s.process.ops o).pc.posted && (s.process.ops o).gen == g
  | none => false

/-- `post` is about to return `Ok` to a future from a generation whose `shutdown` has begun. -/
def postsLate (s : DelayProcess ρ) (o : OpId) : Bool :=
  match s.delays o, (s.process.ops o).pc with
  | some d, .enqueued =>
      let inner := s.process.gens (s.process.ops o).gen
      !d.completed && inner.hasShutdown && !inner.shutdownToken
  | _, _ => false

/-- The timer belongs to a future that was last polled with another waker than at first. -/
def wakesAnother (s : DelayProcess ρ) (t : TimerId) : Bool :=
  match (s.timers t).bind s.delays with
  | some d => !d.ended && d.polled != d.waker
  | none => false

/-- The step shuts down the generation a future waits for, lets `post` succeed after that, or
fires a timer that wakes the wrong waker. -/
def abandons (s : DelayProcess ρ) : DelayAction ρ → Bool
  | .process a =>
      (match s.process.shutsDown a with
        | some g => (List.range s.process.nextOp).any (s.awaits g)
        | none => false) ||
      (match a with
        | .op o => s.postsLate o
        | _ => false) ||
      match s.process.firing a with
      | some t => s.wakesAnother t
      | none => false
  | _ => false

end DelayProcess

end Wxp.RunLoop
