import Wxp.Tasks.Transitions

/-!
# Tasks — Exclusive

`Task::poll` and `Task::abort` both take `&mut *self.future.get()`. The `SAFETY`
comment argues that only the run loop thread gets there; it says nothing about
that thread getting there twice. Code inside a poll of a task can

* pump the loop, which may run another queued poll closure of the same task;
* call `abort` on the task's own handle;
* drop the last guard, and `shutdown` aborts every task of the generation.

`NotReentrant` excludes exactly these three.
-/

namespace Wxp.Tasks

variable {τ π ω : Type}

namespace Executor

/-- A poll closure of `t` would get to the poll of the future. -/
def reachesFuture (s : Executor τ π ω) (t : TaskId) : Bool :=
  s.tasks[t]?.any fun x => !x.available && x.pollEarly.isNone

/-- The step does not reach a task from inside a poll of its future: a closure that
would poll, an `abort`, and the drop of the last guard. -/
def NotReentrant (s : Executor τ π ω) : Act τ π ω → Prop
  | .dispatch t => s.reachesFuture t = true → s.polling t = false
  | .abort t => s.polling t = false
  | .dropGuard => s.initCount = 1 → ∀ t ∈ s.tasksOf s.generation, s.polling t = false
  | _ => True

instance (s : Executor τ π ω) (a : Act τ π ω) : Decidable (s.NotReentrant a) :=
  match a with
  | .dispatch t => inferInstanceAs (Decidable (s.reachesFuture t = true → s.polling t = false))
  | .abort t => inferInstanceAs (Decidable (s.polling t = false))
  | .dropGuard => inferInstanceAs
      (Decidable (s.initCount = 1 → ∀ t ∈ s.tasksOf s.generation, s.polling t = false))
  | .init | .spawn | .wake _ | .wakeElsewhere _ | .enqueue _ | .pollReturns _ | .pollHandle _ _
  | .dropHandle _ | .abortNext | .destroyQueue _ => isTrue trivial

/-- No task that a shutdown has still to abort is being polled below it. -/
def ClearBelow : List Frame → Prop
  | [] => True
  | .polling _ :: rest => ClearBelow rest
  | .shutdown ts :: rest => (∀ t ∈ ts, Frame.polling t ∉ rest) ∧ ClearBelow rest

/-- A poll of the future that follows the rules is not nested in another one. -/
theorem not_polling_of_poll {s : Executor τ π ω} {t : TaskId} {x : Task τ π ω}
    (hok : s.NotReentrant (.dispatch t)) (hx : s.tasks[t]? = some x)
    (ha : x.available = false) (he : x.pollEarly = none) : s.polling t = false :=
  hok (by simp [reachesFuture, hx, ha, he])

/-- The invariant: no clash so far, and none ahead in a shutdown. -/
structure Undisturbed (s : Executor τ π ω) : Prop where
  clashes : s.clashes = []
  clear : ClearBelow s.stack

theorem Undisturbed.step {s s' : Executor τ π ω} {a : Act τ π ω} (hi : s.Undisturbed)
    (hok : s.NotReentrant a) (h : Step s a s') : s'.Undisturbed := by
  obtain ⟨hc, hs⟩ := hi
  cases h with
  | init | guardKept | spawn | wake | refused | checked | enqueue | lost | skip | answer
  | pollHandle | dropHandle | destroyQueue => exact ⟨hc, hs⟩
  | lastGuard h1 =>
      refine ⟨hc, ?_, hs⟩
      intro t ht
      exact polling_eq_false.1 (hok h1 t ht)
  | poll t x hx hq ha he =>
      have hp : s.polling t = false := not_polling_of_poll hok hx ha he
      refine ⟨?_, hs⟩
      exact (touch_clashes_of_not (s := { s with queue := s.queue.erase t }) hp).trans hc
  | returns t p rest hst =>
      rw [hst] at hs
      exact ⟨hc, hs⟩
  | abort t => exact ⟨(touch_clashes_of_not hok).trans hc, hs⟩
  | abortNext t ts rest hst =>
      -- the tasks in progress above the shutdown have returned when its loop goes on
      rw [hst] at hs
      have hp : s.polling t = false := by
        rw [polling_eq_false, hst]
        simpa using hs.1 t (by simp)
      refine ⟨(touch_clashes_of_not hp).trans hc, ?_, hs.2⟩
      intro k hk
      exact hs.1 k (List.mem_cons_of_mem t hk)
  | shutdownDone rest hst =>
      rw [hst] at hs
      exact ⟨hc, hs.2⟩

theorem undisturbed_of_reachVia {s : Executor τ π ω}
    (h : (executorSystem τ π ω).ReachVia NotReentrant s) : s.Undisturbed :=
  h.invariant ⟨rfl, trivial⟩ fun _ _ _ _ hi hok hst => hi.step hok (step_cases hst)

/-! ## Steps that break the rule -/

/-- The abort loop gets to every task it was started with. -/
theorem shutdown_clash {ts : List TaskId} {t : TaskId} {rest : List Frame}
    (ht : t ∈ ts) (hp : Frame.polling t ∈ rest) {s : Executor τ π ω}
    (hst : s.stack = .shutdown ts :: rest) :
    ∃ as s', (executorSystem τ π ω).run s as = some s' ∧ t ∈ s'.clashes := by
  induction ts generalizing s with
  | nil => cases ht
  | cons k ts ih =>
      have hstep : (executorSystem τ π ω).step s .abortNext =
          some { s.clear k with stack := .shutdown ts :: rest } := by
        simp [executorSystem, step, abortNext, hst]
      rcases List.mem_cons.1 ht with rfl | ht
      · refine ⟨[.abortNext], { s.clear t with stack := .shutdown ts :: rest }, ?_, ?_⟩
        · rw [System.run_cons, hstep]
          rfl
        · exact mem_touch_clashes (polling_iff.2 (hst ▸ List.mem_cons_of_mem _ hp))
      · obtain ⟨as, s', hrun, hc⟩ := ih ht (s := { s.clear k with stack := .shutdown ts :: rest }) rfl
        refine ⟨.abortNext :: as, s', ?_, hc⟩
        rw [System.run_cons, hstep]
        exact hrun

/-- A step against the rule clashes at once or, for the drop of the last guard,
when the abort loop gets to the polled task. -/
theorem clash_of_reentrant {s s' : Executor τ π ω} {a : Act τ π ω} (hok : ¬ s.NotReentrant a)
    (h : s.step a = some s') :
    ∃ as s'', (executorSystem τ π ω).run s' as = some s'' ∧ s''.clashes ≠ [] := by
  cases a with
  | dispatch t =>
      simp only [NotReentrant, Classical.not_imp, Bool.not_eq_false] at hok
      obtain ⟨hr, hp⟩ := hok
      refine ⟨[], s', rfl, List.ne_nil_of_mem (a := t) ?_⟩
      simp only [reachesFuture, Option.any_eq_true, Bool.and_eq_true, Bool.not_eq_true',
        Option.isNone_iff_eq_none] at hr
      obtain ⟨x, hx, ha, he⟩ := hr
      simp only [step, dispatch, hx, ha, he] at h
      split at h
      · cases h
        exact mem_touch_clashes (s := { s with queue := s.queue.erase t }) hp
      · cases h
  | abort t =>
      simp only [NotReentrant, Bool.not_eq_false] at hok
      simp only [step, abort, Option.ite_none_right_eq_some, Option.some.injEq] at h
      obtain ⟨-, rfl⟩ := h
      exact ⟨[], _, rfl, List.ne_nil_of_mem (mem_touch_clashes hok)⟩
  | dropGuard =>
      simp only [NotReentrant, Classical.not_imp, not_forall, Bool.not_eq_false] at hok
      obtain ⟨h1, t, ht, hp⟩ := hok
      simp only [step, dropGuard, h1, Option.some.injEq] at h
      subst h
      obtain ⟨as, s'', hrun, hc⟩ := shutdown_clash ht (polling_iff.1 hp)
        (s := { s with
          initCount := 0, stack := .shutdown (s.tasksOf s.generation) :: s.stack }) rfl
      exact ⟨as, s'', hrun, List.ne_nil_of_mem hc⟩
  | init | spawn | wake | wakeElsewhere | enqueue | pollReturns | pollHandle | dropHandle
  | abortNext | destroyQueue => exact absurd trivial hok

/-! ## The result -/

/-- **A future has its slot to itself while it is polled** in every run that does not
reach a task from inside its own poll, and a step that does leads to a clash. -/
theorem future_slot_exclusive :
    (∀ s : Executor τ π ω, (executorSystem τ π ω).ReachVia NotReentrant s → s.clashes = []) ∧
    (∀ (s s' : Executor τ π ω) (a : Act τ π ω), (executorSystem τ π ω).Reachable s →
      ¬ s.NotReentrant a → s.step a = some s' →
      ∃ as s'', (executorSystem τ π ω).run s' as = some s'' ∧ s''.clashes ≠ []) :=
  ⟨fun _ h => (undisturbed_of_reachVia h).clashes, fun _ _ _ _ hok h => clash_of_reentrant hok h⟩

/-- A task pumps the loop, which polls another task inside its own poll; it aborts
that one, finishes, and the last guard is dropped at top level. -/
def nestedPumpRun : List (Act Nat Nat Nat) :=
  [.init, .spawn, .spawn, .dispatch 0, .dispatch 1, .pollReturns .pending, .abort 1,
    .pollReturns (.ready 7), .dropGuard, .abortNext, .abortNext, .abortNext]

theorem future_slot_exclusive_nestedPump :
    ∃ s : Executor Nat Nat Nat, s.tasks.length = 2 ∧ s.initCount = 0 ∧ s.clashes = [] := by
  have hrun : ((executorSystem Nat Nat Nat).runVia NotReentrant {} nestedPumpRun).map
      (fun s => s.tasks.length == 2 && s.initCount == 0) = some true := by decide
  obtain ⟨s, hs, hp⟩ := System.exists_reachVia _ _ hrun
  simp only [Bool.and_eq_true, beq_iff_eq] at hp
  exact ⟨s, hp.1, hp.2, future_slot_exclusive.1 s hs⟩

/-- A task aborts its own handle. -/
def abortOwnRun : List (Act Nat Nat Nat) := [.init, .spawn, .dispatch 0, .abort 0]

/-- A task drops the last guard. -/
def dropLastGuardRun : List (Act Nat Nat Nat) :=
  [.init, .spawn, .dispatch 0, .dropGuard, .abortNext]

/-- A task wakes itself and pumps the loop. -/
def pollNestedRun : List (Act Nat Nat Nat) :=
  [.init, .spawn, .dispatch 0, .wake 0, .dispatch 0]

/-- The slot of a future is cleared, by its own `abort` or by a shutdown, or polled
while a poll of it is on the stack. -/
theorem future_slot_shared :
    ((executorSystem Nat Nat Nat).run {} abortOwnRun).map (·.clashes) = some [0] ∧
    ((executorSystem Nat Nat Nat).run {} dropLastGuardRun).map (·.clashes) = some [0] ∧
    ((executorSystem Nat Nat Nat).run {} pollNestedRun).map (·.clashes) = some [0] := by
  decide

end Executor

end Wxp.Tasks
