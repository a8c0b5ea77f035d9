import Wxp.Tasks.State

/-!
# Tasks — Transitions

What one step of the executor can do, said once (`Executor.step_cases`), and how
a step changes the table of tasks (`getElem?_update`).
-/

namespace Wxp.Tasks

variable {τ π ω : Type}

namespace Executor

/-! ## Frame lemmas -/

section Frames

variable (s : Executor τ π ω) (t : TaskId) (f : Task τ π ω → Task τ π ω)

@[simp] theorem update_queue : (s.update t f).queue = s.queue := rfl
@[simp] theorem update_stack : (s.update t f).stack = s.stack := rfl
@[simp] theorem update_clashes : (s.update t f).clashes = s.clashes := rfl
@[simp] theorem update_polling (k : TaskId) : (s.update t f).polling k = s.polling k := rfl
@[simp] theorem touch_tasks : (s.touch t).tasks = s.tasks := rfl
@[simp] theorem touch_queue : (s.touch t).queue = s.queue := rfl
@[simp] theorem touch_stack : (s.touch t).stack = s.stack := rfl
@[simp] theorem clear_queue : (s.clear t).queue = s.queue := rfl
@[simp] theorem clear_stack : (s.clear t).stack = s.stack := rfl
@[simp] theorem clear_clashes : (s.clear t).clashes = (s.touch t).clashes := rfl

theorem touch_clashes_of_not {s : Executor τ π ω} {t : TaskId} (h : s.polling t = false) :
    (s.touch t).clashes = s.clashes := by
  simp [touch, h]

theorem mem_touch_clashes {s : Executor τ π ω} {t : TaskId} (h : s.polling t = true) :
    t ∈ (s.touch t).clashes := by
  simp [touch, h]

theorem polling_iff {s : Executor τ π ω} {t : TaskId} :
    s.polling t = true ↔ Frame.polling t ∈ s.stack := by
  simp [polling]

theorem polling_eq_false {s : Executor τ π ω} {t : TaskId} :
    s.polling t = false ↔ Frame.polling t ∉ s.stack := by
  simp [polling]

end Frames

/-- A task after a change of task `t`: the changed one, or one that is as before. -/
theorem getElem?_update {s : Executor τ π ω} {t k : TaskId} {f : Task τ π ω → Task τ π ω}
    {y : Task τ π ω} (h : (s.update t f).tasks[k]? = some y) :
    (k = t ∧ ∃ x, s.tasks[t]? = some x ∧ y = f x) ∨ (k ≠ t ∧ s.tasks[k]? = some y) := by
  by_cases hk : k = t
  · subst hk
    simp only [update, List.getElem?_modify_eq, Option.map_eq_map, Option.map_eq_some_iff] at h
    obtain ⟨x, hx, rfl⟩ := h
    exact .inl ⟨rfl, x, hx, rfl⟩
  · rw [update, modify_of_ne hk] at h
    exact .inr ⟨hk, h⟩

/-- What every change of a task keeps holds of all tasks after the change of one. -/
theorem forall_update {P : Task τ π ω → Prop} {s : Executor τ π ω} {t : TaskId}
    {f : Task τ π ω → Task τ π ω} (h : ∀ (k : TaskId) x, s.tasks[k]? = some x → P x)
    (hf : ∀ x, P x → P (f x)) (k : TaskId) (y : Task τ π ω)
    (hy : (s.update t f).tasks[k]? = some y) : P y := by
  rcases getElem?_update hy with ⟨rfl, x, hx, rfl⟩ | ⟨-, hy⟩
  · exact hf x (h _ x hx)
  · exact h k y hy

/-! ## What one step can do -/

/-- The transitions of the executor, one constructor for each branch of
`Executor.step`, with its guard. -/
inductive Step (s : Executor τ π ω) : Act τ π ω → Executor τ π ω → Prop
  | init : s.shuttingDown = false →
      Step s .init { s with
        generation := if s.initCount = 0 then s.generation + 1 else s.generation,
        initCount := s.initCount + 1 }
  | guardKept (n : Nat) : s.initCount = n + 2 → Step s .dropGuard { s with initCount := n + 1 }
  | lastGuard : s.initCount = 1 →
      Step s .dropGuard { s with
        initCount := 0, stack := .shutdown (s.tasksOf s.generation) :: s.stack }
  | spawn : 0 < s.initCount →
      Step s .spawn { s with
        tasks := s.tasks ++ [{ generation := s.generation }],
        queue := s.queue ++ [s.tasks.length] }
  | wake (t : TaskId) (x : Task τ π ω) : s.tasks[t]? = some x → s.live x.generation = true →
      Step s (.wake t) { s with queue := s.queue ++ [t] }
  | refused (a : Act τ π ω) (t : TaskId) : a = .wake t ∨ a = .wakeElsewhere t → Step s a s
  | checked (t : TaskId) : Step s (.wakeElsewhere t) { s with sending := s.sending ++ [t] }
  | enqueue (t : TaskId) (x : Task τ π ω) : s.tasks[t]? = some x →
      Step s (.enqueue t) { s with sending := s.sending.erase t, queue := s.queue ++ [t] }
  | lost (t : TaskId) : Step s (.enqueue t) { s with sending := s.sending.erase t }
  | skip (t : TaskId) (x : Task τ π ω) : s.tasks[t]? = some x → t ∈ s.queue →
      x.available = true →
      Step s (.dispatch t) (update { s with queue := s.queue.erase t } t Task.notify)
  | answer (t : TaskId) (x : Task τ π ω) (r : JoinResult τ π) : s.tasks[t]? = some x →
      t ∈ s.queue → x.available = false → x.pollEarly = some r →
      Step s (.dispatch t)
        (update { s with queue := s.queue.erase t } t fun x => (x.store r).notify)
  | poll (t : TaskId) (x : Task τ π ω) : s.tasks[t]? = some x → t ∈ s.queue →
      x.available = false → x.pollEarly = none →
      Step s (.dispatch t)
        { (touch { s with queue := s.queue.erase t } t).update t Task.enterFuture with
          stack := .polling t :: s.stack }
  | returns (t : TaskId) (p : FuturePoll τ π) (rest : List Frame) :
      s.stack = .polling t :: rest →
      Step s (.pollReturns p) { s.update t (·.settle p) with stack := rest }
  | pollHandle (t : TaskId) (w : ω) :
      Step s (.pollHandle t w) (s.update t fun x => (x.pollHandle w).1)
  | dropHandle (t : TaskId) :
      Step s (.dropHandle t) (s.update t fun x => { x with joiner := .dropped })
  | abort (t : TaskId) : s.hasHandle t = true → Step s (.abort t) (s.clear t)
  | abortNext (t : TaskId) (ts : List TaskId) (rest : List Frame) :
      s.stack = .shutdown (t :: ts) :: rest →
      Step s .abortNext { s.clear t with stack := .shutdown ts :: rest }
  | shutdownDone (rest : List Frame) : s.stack = .shutdown [] :: rest →
      Step s .abortNext { s with stack := rest }
  | destroyQueue (g : Generation) :
      Step s (.destroyQueue g) { s with
        queue := s.queue.filter fun t => !s.tasks[t]?.any fun x => x.generation == g,
        destroyed := s.destroyed ++ [g] }

theorem Step.of_dropGuard {s s' : Executor τ π ω} (h : s.dropGuard = some s') :
    Step s .dropGuard s' := by
  unfold Executor.dropGuard at h
  split at h <;> cases h
  · exact .lastGuard ‹_›
  · exact .guardKept _ ‹_›

theorem Step.of_wake {s s' : Executor τ π ω} {t : TaskId} (h : s.wake t = some s') :
    Step s (.wake t) s' := by
  unfold Executor.wake at h
  split at h <;> cases h
  split
  · exact .wake t _ ‹_› ‹_›
  · exact .refused _ t (.inl rfl)

theorem Step.of_wakeElsewhere {s s' : Executor τ π ω} {t : TaskId}
    (h : s.wakeElsewhere t = some s') : Step s (.wakeElsewhere t) s' := by
  unfold Executor.wakeElsewhere at h
  split at h <;> cases h
  split
  · exact .checked t
  · exact .refused _ t (.inr rfl)

theorem Step.of_enqueue {s s' : Executor τ π ω} {t : TaskId} (h : s.enqueue t = some s') :
    Step s (.enqueue t) s' := by
  unfold Executor.enqueue at h
  split at h
  · cases h
  · split at h
    · cases h
      split
      · exact .lost t
      · exact .enqueue t _ ‹_›
    · cases h

theorem Step.of_dispatch {s s' : Executor τ π ω} {t : TaskId} (h : s.dispatch t = some s') :
    Step s (.dispatch t) s' := by
  unfold Executor.dispatch at h
  split at h
  · cases h
  · rename_i x hx
    split at h
    · rename_i hq
      rw [List.contains_iff_mem] at hq
      split at h
      · cases h
        exact .skip t x hx hq ‹_›
      · rename_i ha
        rw [Bool.not_eq_true] at ha
        split at h
        · rename_i r hr
          cases h
          exact .answer t x r hx hq ha hr
        · rename_i hr
          cases h
          exact .poll t x hx hq ha hr
    · cases h

theorem Step.of_abortNext {s s' : Executor τ π ω} (h : s.abortNext = some s') :
    Step s .abortNext s' := by
  unfold Executor.abortNext at h
  split at h <;> cases h
  · exact .shutdownDone _ ‹_›
  · exact .abortNext _ _ _ ‹_›

/-- **Every step is one of the transitions.** -/
theorem step_cases {s s' : Executor τ π ω} {a : Act τ π ω} (h : s.step a = some s') :
    Step s a s' := by
  cases a with
  | init =>
      simp only [step, init, Option.ite_none_left_eq_some, Option.some.injEq,
        Bool.not_eq_true] at h
      obtain ⟨hd, rfl⟩ := h
      exact .init hd
  | dropGuard => exact .of_dropGuard h
  | spawn =>
      simp only [step, spawn, Option.ite_none_right_eq_some, Option.some.injEq] at h
      obtain ⟨hc, rfl⟩ := h
      exact .spawn hc
  | wake t => exact .of_wake h
  | wakeElsewhere t => exact .of_wakeElsewhere h
  | enqueue t => exact .of_enqueue h
  | dispatch t => exact .of_dispatch h
  | pollReturns p =>
      simp only [step, pollReturns] at h
      split at h <;> cases h
      exact .returns _ p _ ‹_›
  | pollHandle t w =>
      simp only [step, pollHandle, Option.ite_none_right_eq_some, Option.some.injEq] at h
      obtain ⟨-, rfl⟩ := h
      exact .pollHandle t w
  | dropHandle t =>
      simp only [step, dropHandle, Option.ite_none_right_eq_some, Option.some.injEq] at h
      obtain ⟨-, rfl⟩ := h
      exact .dropHandle t
  | abort t =>
      simp only [step, abort, Option.ite_none_right_eq_some, Option.some.injEq] at h
      obtain ⟨ht, rfl⟩ := h
      exact .abort t ht
  | abortNext => exact .of_abortNext h
  | destroyQueue g =>
      simp only [step, destroyQueue, Option.ite_none_right_eq_some, Option.some.injEq] at h
      obtain ⟨-, rfl⟩ := h
      exact .destroyQueue g

end Executor

end Wxp.Tasks
