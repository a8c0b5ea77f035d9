import Wxp.Foundations.System
import Wxp.RunLoop.Platform

/-!
# RunLoop — Runs

`PlatformRunLoop::run` and `stop` of the four backends (`src/platform/*/mod.rs`). A callback
can run the loop again, and it can pump a native loop that is not `run` (`poll_once` of
`RunLoopLocal::block_on`, a modal loop), so these calls nest.

Each `run` looks at one flag of its run loop before each native wait: `running` on Darwin and
Android, `!stopping` on Win32, and `is_running` of the `GMainLoop` on Linux. They differ in how
`stop` gets there:

* Android and Linux: `stop` clears the flag and wakes the native wait.
* Win32: `stop` posts `WM_RUNLOOP_STOP`, and the window procedure clears the flag when some
  native loop of the thread dispatches the message. The message outlives a `run` that has
  already been stopped.
* Darwin: `stop` clears the flag and calls `CFRunLoopStop`, which marks the innermost call of
  `CFRunLoopRunInMode`. `run` looks at its flag only after that call has returned; for one that
  was stopped it drains the callbacks first.
-/

namespace Wxp.RunLoop.Runs

inductive Stage
  /-- Before the condition of `while`. -/
  | check
  /-- In the native call, outside of callbacks. -/
  | native
  /-- In a callback of the native call. -/
  | callback
  /-- `State::drain` after the native call has returned (Darwin). -/
  | drain
  deriving DecidableEq, Repr

/-- A native loop on the stack of the thread. -/
structure Frame where
  /-- A call of `run`. -/
  isRun : Bool
  stage : Stage
  /-- `CFRunLoopStop` has marked the native call (Darwin). -/
  stopped : Bool := false
  /-- How many stops had been handled when the loop was entered. -/
  entered : Nat
  deriving DecidableEq, Repr

structure State where
  /-- Innermost first. -/
  frames : List Frame := []
  /-- `running`, `!stopping`, `is_running`. -/
  running : Bool
  /-- `WM_RUNLOOP_STOP` messages (Win32). -/
  posted : Nat := 0
  /-- How many times the flag was cleared for a `stop`. -/
  handled : Nat := 0
  /-- How many times `stop` was called. -/
  stops : Nat := 0
  /-- The calls of `run` that have returned, with `handled` then. -/
  returned : List (Frame × Nat) := []
  deriving DecidableEq, Repr

inductive Action
  /-- User code calls `run`, pumps another native loop, or calls `stop`. -/
  | run
  | poll
  | stop
  /-- The `while` of `run` goes on, or is over. -/
  | enter
  | exit
  /-- The native call begins and ends a callback. -/
  | call
  | callReturns
  /-- The native call returns. -/
  | nativeReturns
  /-- `WM_RUNLOOP_STOP` is dispatched (Win32). -/
  | dispatchStop
  /-- The end of `drain` (Darwin). -/
  | drained
  /-- The native call fails: `WM_QUIT`, `ALOOPER_POLL_ERROR`, `kCFRunLoopRunFinished`. -/
  | fails
  deriving DecidableEq, Repr

def Frame.inNative (f : Frame) : Bool := f.stage == .native || f.stage == .callback

/-- `CFRunLoopStop`: it marks the innermost native call. -/
def markInnermost : List Frame → List Frame
  | [] => []
  | f :: fs => if f.inNative then { f with stopped := true } :: fs else f :: markInnermost fs

namespace State

/-- User code runs. -/
def inUserCode (s : State) : Bool :=
  match s.frames with
  | [] => true
  | f :: _ => f.stage == .callback || f.stage == .drain

/-- The frame of the innermost loop moves on. -/
def setStage (s : State) (f : Frame) (fs : List Frame) (stage : Stage) : State :=
  { s with frames := { f with stage } :: fs }

/-- The flag is cleared for a `stop`. -/
def clear (s : State) : State := { s with running := false, handled := s.handled + 1 }

/-- `PlatformRunLoop::stop` -/
def stop (s : State) (b : Backend) : State :=
  match b with
  | .android | .linux => { s.clear with stops := s.stops + 1 }
  | .win32 => { s with posted := s.posted + 1, stops := s.stops + 1 }
  | .darwin => { s.clear with frames := markInnermost s.frames, stops := s.stops + 1 }

end State

def step (b : Backend) (s : State) (a : Action) : Option State :=
  match a with
  | .run =>
      if s.inUserCode then
        some { s with
          frames := { isRun := true, stage := .check, entered := s.handled } :: s.frames
          running := true }
      else none
  | .poll =>
      if s.inUserCode then
        some { s with
          frames := { isRun := false, stage := .native, entered := s.handled } :: s.frames }
      else none
  | .stop => if s.inUserCode then some (s.stop b) else none
  | .enter =>
      match s.frames with
      | f :: fs => if f.stage = .check ∧ s.running then some (s.setStage f fs .native) else none
      | [] => none
  | .exit =>
      match s.frames with
      | f :: fs =>
          if f.stage = .check ∧ s.running = false then
            some { s with frames := fs, returned := s.returned ++ [(f, s.handled)] }
          else none
      | [] => none
  | .call =>
      match s.frames with
      | f :: fs => if f.stage = .native then some (s.setStage f fs .callback) else none
      | [] => none
  | .callReturns =>
      match s.frames with
      | f :: fs => if f.stage = .callback then some (s.setStage f fs .native) else none
      | [] => none
  | .nativeReturns =>
      match s.frames with
      | f :: fs =>
          if f.stage ≠ .native then none
          else if f.isRun = false then some { s with frames := fs }
          else if b ≠ .darwin then some (s.setStage f fs .check)
          else if f.stopped then some (s.setStage f fs .drain)
          else none
      | [] => none
  | .dispatchStop =>
      match s.frames with
      | f :: fs =>
          -- the listeners of the window come after the flag
          if f.stage = .native ∧ 0 < s.posted then
            some { (s.clear.setStage f fs .callback) with posted := s.posted - 1 }
          else none
      | [] => none
  | .drained =>
      match s.frames with
      | f :: fs =>
          if f.stage = .drain then some { (s.setStage f fs .check) with running := false } else none
      | [] => none
  | .fails =>
      match s.frames with
      | f :: fs =>
          if f.stage = .native ∧ f.isRun then
            match b with
            | .darwin => some (s.setStage f fs .drain)
            | .android => some { (s.setStage f fs .check) with running := false }
            -- the message is taken, and the flag stays
            | .win32 => some { s with frames := fs, returned := s.returned ++ [(f, s.handled)] }
            | .linux => none
          else none
      | [] => none

/-- What a step does. -/
inductive Step (b : Backend) (s : State) : Action → State → Prop
  | run : s.inUserCode = true → Step b s .run { s with
      frames := { isRun := true, stage := .check, entered := s.handled } :: s.frames
      running := true }
  | poll : s.inUserCode = true → Step b s .poll { s with
      frames := { isRun := false, stage := .native, entered := s.handled } :: s.frames }
  | stop : s.inUserCode = true → Step b s .stop (s.stop b)
  | enter {f : Frame} {fs : List Frame} : s.frames = f :: fs → f.stage = .check →
      s.running = true → Step b s .enter (s.setStage f fs .native)
  | exit {f : Frame} {fs : List Frame} : s.frames = f :: fs → f.stage = .check →
      s.running = false →
      Step b s .exit { s with frames := fs, returned := s.returned ++ [(f, s.handled)] }
  | call {f : Frame} {fs : List Frame} : s.frames = f :: fs → f.stage = .native →
      Step b s .call (s.setStage f fs .callback)
  | callReturns {f : Frame} {fs : List Frame} : s.frames = f :: fs → f.stage = .callback →
      Step b s .callReturns (s.setStage f fs .native)
  | pollReturns {f : Frame} {fs : List Frame} : s.frames = f :: fs → f.stage = .native →
      f.isRun = false → Step b s .nativeReturns { s with frames := fs }
  | waitReturns {f : Frame} {fs : List Frame} : s.frames = f :: fs → f.stage = .native →
      f.isRun = true → b ≠ .darwin → Step b s .nativeReturns (s.setStage f fs .check)
  | stopReturns {f : Frame} {fs : List Frame} : s.frames = f :: fs → f.stage = .native →
      f.isRun = true → b = .darwin → f.stopped = true →
      Step b s .nativeReturns (s.setStage f fs .drain)
  | dispatchStop {f : Frame} {fs : List Frame} : s.frames = f :: fs → f.stage = .native →
      0 < s.posted →
      Step b s .dispatchStop { (s.clear.setStage f fs .callback) with posted := s.posted - 1 }
  | drained {f : Frame} {fs : List Frame} : s.frames = f :: fs → f.stage = .drain →
      Step b s .drained { (s.setStage f fs .check) with running := false }
  | finished {f : Frame} {fs : List Frame} : s.frames = f :: fs → f.stage = .native →
      f.isRun = true → b = .darwin → Step b s .fails (s.setStage f fs .drain)
  | error {f : Frame} {fs : List Frame} : s.frames = f :: fs → f.stage = .native →
      f.isRun = true → b = .android →
      Step b s .fails { (s.setStage f fs .check) with running := false }
  | quit {f : Frame} {fs : List Frame} : s.frames = f :: fs → f.stage = .native →
      f.isRun = true → b = .win32 →
      Step b s .fails { s with frames := fs, returned := s.returned ++ [(f, s.handled)] }

theorem step_cases {b : Backend} {s s' : State} {a : Action} (h : step b s a = some s') :
    Step b s a s' := by
  cases a with
  | run | poll | stop =>
      obtain ⟨huser, h⟩ := Option.ite_none_right_eq_some.1 h
      cases h
      constructor
      exact huser
  | enter | exit | dispatchStop =>
      simp only [step] at h
      split at h
      · next f fs hframes =>
          obtain ⟨⟨hstage, hr⟩, h⟩ := Option.ite_none_right_eq_some.1 h
          cases h
          constructor
          · exact hframes
          · exact hstage
          · exact hr
      · cases h
  | call | callReturns | drained =>
      simp only [step] at h
      split at h
      · next f fs hframes =>
          obtain ⟨hstage, h⟩ := Option.ite_none_right_eq_some.1 h
          cases h
          constructor
          · exact hframes
          · exact hstage
      · cases h
  | nativeReturns =>
      simp only [step] at h
      split at h
      · next f fs hframes =>
          split at h
          · cases h
          · next hstage =>
              have hstage : f.stage = .native := by simpa using hstage
              split at h
              · next hisRun =>
                  cases h
                  exact .pollReturns hframes hstage hisRun
              · next hisRun =>
                  have hisRun : f.isRun = true := by simpa using hisRun
                  split at h
                  · next hb =>
                      cases h
                      exact .waitReturns hframes hstage hisRun hb
                  · next hb =>
                      obtain ⟨hstopped, h⟩ := Option.ite_none_right_eq_some.1 h
                      cases h
                      exact .stopReturns hframes hstage hisRun (by simpa using hb) hstopped
      · cases h
  | fails =>
      simp only [step] at h
      split at h
      · next f fs hframes =>
          obtain ⟨⟨hstage, hisRun⟩, h⟩ := Option.ite_none_right_eq_some.1 h
          cases b with
          | darwin =>
              cases h
              exact .finished hframes hstage hisRun rfl
          | android =>
              cases h
              exact .error hframes hstage hisRun rfl
          | win32 =>
              cases h
              exact .quit hframes hstage hisRun rfl
          | linux => cases h
      · cases h

/-- A run loop of the backend `b`. `stopping` is false at first. -/
def runSystem (b : Backend) : System State Action where
  init := { running := b == .win32 }
  step := step b

/-- No native call fails. -/
def works : Action → Bool
  | .fails => false
  | .run | .poll | .stop | .enter | .exit | .call | .callReturns | .nativeReturns | .dispatchStop
  | .drained => true

abbrev Works (_ : State) (a : Action) : Prop := works a = true

end Wxp.RunLoop.Runs
