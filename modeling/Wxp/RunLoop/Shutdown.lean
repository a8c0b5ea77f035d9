import Wxp.RunLoop.Generations

/-!
# RunLoop — Shutdown

`shutdown` aborts the tasks of its generation and leaves the timers to the
`Drop` of the platform run loop. That drop does not come while a timer is
pending: the closure of the timer holds the run loop itself. The host goes on to
fire it, with a `RunLoopLocal` on which `spawn` and `block_on` panic.

In runs that are `TimersOff` no callback is handed such a `RunLoopLocal`: no
timer is pending when `shutdown` begins, and nothing is scheduled after it.
-/

namespace Wxp.RunLoop

variable {ρ : Type}

namespace Process

/-- The generation that the step shuts down. -/
def shutsDown (s : Process ρ) : Action ρ → Option Gen
  | .advance => if s.initMutex = some .setShutdown then s.runLoopInstance else none
  | _ => none

/-- The generation that the step schedules a timer on. -/
def schedulesOn : Action ρ → Option Gen
  | .loop g (.schedule _ _) _ => some g
  | _ => none

structure TimersOff (s : Process ρ) (a : Action ρ) : Prop where
  none_pending : ∀ g ∈ s.shutsDown a, (s.gens g).loop.pendingTimers = []
  not_after : ∀ g ∈ schedulesOn a, (s.gens g).hasShutdown = false

instance (s : Process ρ) (a : Action ρ) : Decidable (s.TimersOff a) :=
  decidable_of_iff ((∀ g ∈ s.shutsDown a, (s.gens g).loop.pendingTimers = []) ∧
      ∀ g ∈ schedulesOn a, (s.gens g).hasShutdown = false)
    ⟨fun ⟨h1, h2⟩ => ⟨h1, h2⟩, fun ⟨h1, h2⟩ => ⟨h1, h2⟩⟩

/-- A generation that is shut down has no timer left, and no callback was handed
one. -/
structure Off (s : Process ρ) : Prop where
  timers : ∀ g, (s.gens g).hasShutdown = true → (s.gens g).loop.pendingTimers = []
  handed : ∀ h ∈ s.handed, h.2 = false

/-- A step that fires no timer. -/
theorem Off.congr {s s' : Process ρ} (h : s.Off)
    (ht : ∀ g, (s'.gens g).hasShutdown = true → (s'.gens g).loop.pendingTimers = [] ∨
      ((s.gens g).hasShutdown = true ∧
        (s'.gens g).loop.pendingTimers ⊆ (s.gens g).loop.pendingTimers))
    (hh : ∀ x ∈ s'.handed, x ∈ s.handed ∨ x.2 = false) : s'.Off where
  timers g hg := by
    rcases ht g hg with hnil | ⟨hs, hsub⟩
    · exact hnil
    · rw [h.timers g hs] at hsub
      exact List.subset_nil.mp hsub
  handed x hx := (hh x hx).elim (h.handed x) id

/-- A timer fires only while its generation is not shut down. -/
theorem Off.withLoop {b : Backend} {s : Process ρ} (h : s.Off) {g : Gen}
    {a : Act Closure TimerId} {l : Loop Closure TimerId}
    (hst : Loop.Step b (s.gens g).loop a l)
    (hok : ∀ inTime t, a = .schedule inTime t → (s.gens g).hasShutdown = false) :
    (s.withLoop g l).Off := by
  have e := SameStatics.withLoop s g l
  have hsub : (s.gens g).hasShutdown = true →
      l.pendingTimers ⊆ (s.gens g).loop.pendingTimers := by
    intro hs
    cases hst.timerEffect with
    | quiet hp _ => exact hp
    | fire t _ hp _ => exact hp
    | schedule inTime t ha _ _ => rw [hok inTime t ha] at hs; cases hs
  refine h.congr (fun g' hg' => .inr ?_) fun x hx => ?_
  · rw [e.hasShutdown] at hg'
    refine ⟨hg', ?_⟩
    rw [withLoop_loop]
    split
    · rename_i hgg
      subst hgg
      exact hsub hg'
    · exact List.Subset.refl _
  · rcases List.mem_append.mp hx with hx | hx
    · exact .inl hx
    · right
      cases hst.timerEffect with
      | quiet _ hf | schedule _ _ _ _ hf => simp [hf] at hx
      | fire t ht _ hf =>
          -- the pending timer shows that the generation is not shut down
          simp only [hf, List.drop_left, List.map_cons, List.map_nil, List.mem_singleton] at hx
          rw [hx]
          cases hs : (s.gens g).hasShutdown with
          | false => rfl
          | true => rw [h.timers g hs] at ht; cases ht

theorem Off.startClosure {s : Process ρ} (h : s.Off) (t : Thread) (c : Closure) :
    (s.startClosure t c).Off := by
  cases c with
  | wake n => exact h
  | op o =>
      simp only [Process.startClosure]
      split
      · rename_i g hg
        refine h.congr (fun g' hg' => .inr ⟨hg', List.Subset.refl _⟩) fun x hx => ?_
        rcases List.mem_append.mp hx with hx | hx
        · exact .inl hx
        · rw [List.mem_singleton] at hx
          exact .inr (hx ▸ (currentLocal_eq_ok.mp hg).2.2)
      · exact ⟨h.timers, h.handed⟩

theorem Off.finishClosure {s : Process ρ} (h : s.Off) (v : ρ) (c : Closure) :
    (s.finishClosure v c).Off := by
  cases c with
  | wake n => exact h
  | op o => exact ⟨h.timers, h.handed⟩

/-- **Every step of such a run keeps `Off`.** -/
theorem Off.step {b : Backend} {s s' : Process ρ} {a : Action ρ} (h : s.Off)
    (hok : s.TimersOff a) (hst : Step b s a s') : s'.Off := by
  cases hst with
  | stay => exact h
  | initAgain | dropMore | dropLast | setSender | setThread | setCount | noInstance | takePending
  | cancelDead | cancelled | clearThread | clearInstance | clearSender | cancel | begin
  | register => exact ⟨h.timers, h.handed⟩
  | newGen t =>
      refine h.congr (fun g hg => .inr ?_) fun x hx => .inl hx
      by_cases hgn : g = s.nextGen
      · simp [hgn] at hg
      · simpa [hgn] using hg
  | setShutdown g hm hi =>
      refine h.congr (fun g' hg' => ?_) fun x hx => .inl hx
      by_cases hgg : g' = g
      · subst hgg
        exact .inl (by simpa [setGen] using hok.none_pending g' (by simp [shutsDown, hm, hi]))
      · exact .inr (by simpa [setGen, hgg] using hg')
  | setToken g hm =>
      refine h.congr (fun g' hg' => .inr ?_) fun x hx => .inl hx
      by_cases hgg : g' = g <;> simpa [setGen, hgg] using hg'
  | op a o p handed hop hh => exact ⟨h.timers, fun x hx => (hh x hx).elim (h.handed x) id⟩
  | enqueue o v hpc hd =>
      have e := SameStatics.setLoop s (s.ops o).gen
        ((s.gens (s.ops o).gen).loop.push (.op o))
      refine h.congr (fun g hg => .inr ⟨(e.hasShutdown g).symm.trans hg, ?_⟩) fun x hx => .inl hx
      rw [pushTo_loop]
      split <;> exact List.Subset.refl _
  | loopQuiet g a v l _ hstep =>
      exact h.withLoop hstep fun _ _ ha => hok.not_after g (by subst ha; rfl)
  | loopStart g a v l c _ hstep =>
      exact (h.withLoop hstep fun _ _ ha => hok.not_after g (by subst ha; rfl)).startClosure _ c
  | loopFinish g a v l c _ hstep =>
      exact (h.withLoop hstep fun _ _ ha => hok.not_after g (by subst ha; rfl)).finishClosure v c
  | dropLoop g =>
      refine h.congr (fun g' hg' => .inr ?_) fun x hx => .inl hx
      by_cases hgg : g' = g
      · subst hgg
        simp only [setGen, Function.update_self] at hg' ⊢
        refine ⟨hg', ?_⟩
        split <;> exact List.Subset.refl _
      · simpa [setGen, hgg] using hg'

/-- **No callback is handed a run loop that is shut down**, in runs that leave
it no timers. -/
theorem no_callback_after_shutdown (b : Backend) {s : Process ρ}
    (h : (processSystem ρ b).ReachVia TimersOff s) : ∀ x ∈ s.handed, x.2 = false := by
  have hoff : s.Off := by
    refine h.invariant (I := Off) ⟨fun g hg => ?_, fun x hx => ?_⟩
      fun _ _ _ _ hi hok hst => hi.step hok (step_cases hst)
    · cases hg
    · cases hx
  exact hoff.handed

end Process

/-- A timer fires, and the guard of its generation is dropped after it. -/
def timerThenShutdownRun : List (Action Nat) :=
  initRun ++ [.loop 0 (.schedule 5 7) 0, .loop 0 (.tick 5) 0, .loop 0 .dispatchTimers 0,
    .loop 0 (.next [1]) 0, .loop 0 (.next []) 0, .loop 0 .finish 0] ++ shutdownRun

theorem no_callback_after_shutdown_fired :
    ∃ s : Process Nat, s.handed = [(0, false)] ∧ (s.gens 0).hasShutdown = true ∧
      ∀ x ∈ s.handed, x.2 = false := by
  have hrun : ((processSystem Nat .win32).runVia Process.TimersOff {} timerThenShutdownRun).map
      (fun s => decide (s.handed = [(0, false)]) && (s.gens 0).hasShutdown) = some true := by
    decide
  obtain ⟨s, hs, hp⟩ := System.exists_reachVia _ _ hrun
  simp only [Bool.and_eq_true, decide_eq_true_eq] at hp
  exact ⟨s, hp.1, hp.2, Process.no_callback_after_shutdown .win32 hs⟩

/-- A timer of five milliseconds is pending when the last guard goes; the host keeps pumping. -/
def lateTimerRun (dispatch : List (Act Closure TimerId)) : List (Action Nat) :=
  initRun ++ [.loop 0 (.schedule 5000000 7) 0] ++ shutdownRun ++ [.loop 0 (.tick 5000000) 0] ++
    dispatch.map fun a => .loop 0 a 0

theorem late_timer_of_run {b : Backend} (dispatch : List (Act Closure TimerId))
    (h : ((processSystem Nat b).run {} (lateTimerRun dispatch)).map
      (fun s => decide (s.handed = [(0, true)])) = some true) :
    ∃ s : Process Nat, (processSystem Nat b).Reachable s ∧ s.handed = [(0, true)] := by
  obtain ⟨s, hs, hp⟩ := System.exists_reachable _ _ h
  exact ⟨s, hs, of_decide_eq_true hp⟩

/-- The callback of a timer gets a run loop that is shut down, on every backend. -/
theorem timer_fires_after_shutdown :
    (∃ s : Process Nat, (processSystem Nat .darwin).Reachable s ∧ s.handed = [(0, true)]) ∧
    (∃ s : Process Nat, (processSystem Nat .win32).Reachable s ∧ s.handed = [(0, true)]) ∧
    (∃ s : Process Nat, (processSystem Nat .android).Reachable s ∧ s.handed = [(0, true)]) ∧
    (∃ s : Process Nat, (processSystem Nat .linux).Reachable s ∧ s.handed = [(0, true)]) :=
  ⟨late_timer_of_run [.dispatchCallbacks [1], .next []] (by decide),
    late_timer_of_run [.dispatchTimers, .next [1], .next []] (by decide),
    late_timer_of_run [.dispatchTimers, .next [1], .next []] (by decide),
    late_timer_of_run [.dispatchTimeout 1] (by decide)⟩

end Wxp.RunLoop
