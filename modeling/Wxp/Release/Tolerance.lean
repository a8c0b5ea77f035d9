import Wxp.Release.Sound
import Wxp.Release.Weight

/-!
# Release — Tolerance

`release_guard` under the destructors that its abort loop runs.

Result: `shutdown_tolerates_iff`.
-/

namespace Wxp.Release

open Wxp.RunLoop

namespace State

variable {b : Backend} {activeTasks : List TaskId} {s : State}

/-- Such a step ends in a fault. -/
theorem fault_of_strays (hf : s.fault = none) (h : s.strays b = true) :
    ∃ s', s.step b = some s' ∧ s'.fault ≠ none := by
  cases hs : s.stack with
  | nil => cases hu : s.unwinding <;> simp [strays, hs, hu] at h
  | cons f rest =>
      cases hu : s.unwinding with
      | some payload =>
          refine ⟨_, step_unwind hf hu hs, ?_⟩
          cases f <;> simp [strays, hs, hu] at h <;> simp [State.unwind]
      | none =>
          refine ⟨_, step_resume hf hu hs, ?_⟩
          cases f with
          | code ops =>
              cases ops with
              | nil => simp [strays, hs, hu] at h
              | cons op ops =>
                  cases op with
                  | init =>
                      have hheld : Lock.initMutex ∈ s.held := by simpa [strays, hs, hu] using h
                      simp [State.resume, State.exec, State.withLock, State.push, hheld]
                  | abort t =>
                      obtain ⟨x, hx, hd, hpos⟩ : ∃ x, s.tasks[t]? = some x ∧
                          x.future.isDropping = true ∧ 0 < x.refs := by
                        cases hx : s.tasks[t]? <;> simp [strays, hs, hu, hx] at h
                        exact ⟨_, rfl, h⟩
                      have hfuture : x.future = .dropping := by
                        cases hf : x.future <;> first | rfl | simp [hf, Slot.isDropping] at hd
                      simp [State.resume, State.exec, State.push, State.abortWith, State.update,
                        State.abort, hx, hfuture, hpos]
                  | schedule callback =>
                      obtain ⟨rfl, hheld⟩ : b = .darwin ∧ Lock.state ∈ s.held := by
                        simpa [strays, hs, hu] using h
                      simp [State.resume, State.exec, State.push, State.schedule, hheld]
                  | cancel k =>
                      obtain ⟨rfl, hheld⟩ : b = .darwin ∧ Lock.state ∈ s.held := by
                        simpa [strays, hs, hu] using h
                      simp [State.resume, State.exec, State.push, State.unschedule, hheld]
                  | panic | isInitialized | post | call | spawn | dropJoinHandle | catchUnwind =>
                      simp [strays, hs, hu] at h
          | drop | cleanup | catchUnwind | noUnwind | release | clearSlot | unref | abortLoop
          | phase => simp [strays, hs, hu] at h

/-- After a fault nothing is released. -/
theorem not_released_of_fault {n m : Nat} (hf : (runFor (step b) m s).fault ≠ none) :
    ¬ (runFor (step b) n s).Released activeTasks := by
  intro h
  have hn : step b (runFor (step b) n s) = none := step_eq_none h.returned.2
  have hm : step b (runFor (step b) m s) = none := by
    obtain ⟨f, hf⟩ := Option.ne_none_iff_exists'.1 hf
    rw [State.step, hf]
  -- Both runs have stopped, and the machine is deterministic.
  have hsame : runFor (step b) n s = runFor (step b) m s := by
    rcases Nat.le_total n m with hle | hle
    · exact (runFor_of_le hn hle).symm
    · exact runFor_of_le hm hle
  exact hf (hsame ▸ h.returned.1)

/-- **`release_guard` of the last guard returns, with every task aborted and nothing left set or
locked, exactly if none of its steps strays.** It never goes on for ever. -/
theorem shutdown_tolerates_iff (b : Backend) (tasks : List Spawned) (activeTasks : List TaskId)
    (timers : List (HandleType × Destructors)) (nextHandle : HandleType) (shared : Bool) :
    ((∃ n, (runFor (step b) n (start tasks activeTasks timers nextHandle shared)).Released
        activeTasks) ↔
      ∀ n, (runFor (step b) n (start tasks activeTasks timers nextHandle shared)).strays b =
        false) ∧
    ∃ n, step b (runFor (step b) n (start tasks activeTasks timers nextHandle shared)) = none := by
  have hstart := sound_start tasks activeTasks timers nextHandle shared
  generalize start tasks activeTasks timers nextHandle shared = s at hstart
  have hstop : step b (runFor (step b) s.weight s) = none :=
    runFor_final (fun _ _ => weight_step_lt) (Nat.le_refl _)
  refine ⟨⟨?_, fun hstray => ⟨s.weight, ?_⟩⟩, s.weight, hstop⟩
  -- A step that strays ends in a fault, and a machine with a fault has stopped.
  · rintro ⟨n, hreleased⟩ m
    by_contra hstray
    have hf : (runFor (step b) m s).fault = none := by
      by_contra hf
      exact not_released_of_fault hf hreleased
    obtain ⟨s', hst, hf'⟩ := fault_of_strays hf (Bool.not_eq_false _ ▸ hstray)
    rw [← runFor_succ hst] at hf'
    exact not_released_of_fault hf' hreleased
  · have hsound : (runFor (step b) s.weight s).Sound activeTasks :=
      runFor_keeps_of (fun _ _ h => h.step) hstray hstart s.weight
    exact hsound.released hstop

/-- A future whose destructor initializes the run loop locks up the last guard. -/
theorem init_deadlocks :
    let s := runFor (step .linux) 6 (start [⟨some [[.init]], [], 1⟩] [0] [] 1 false)
    s.fault = some (.deadlock .initMutex) ∧ step .linux s = none ∧ s.runLoopInstance = true ∧
      s.runLoopSender = true :=
  ⟨rfl, rfl, rfl, rfl⟩

end State

end Wxp.Release
