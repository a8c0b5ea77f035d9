import Wxp.Tasks.Exclusive

/-!
# Tasks — Outcome

The poll closure skips the poll "if the task already produced a value or was
aborted", and takes the stored value for the sign that it did. `JoinHandle::poll`
takes the value out again, so a wake that was still queued then, or that comes
later, polls a future that has finished; the future stays in its slot.

`ResultKept` is the condition on a step under which this does not happen. Its
second case is about polls nested in one another, which `Tasks.Exclusive` excludes
altogether: the outer one would store a second outcome.
-/

namespace Wxp.Tasks

variable {τ π ω : Type}

/-- The future was not polled after it finished, and the first outcome it produced
is the only one that was stored. -/
structure Task.SettledOnce (x : Task τ π ω) : Prop where
  repolls : x.repolls = 0
  once : x.stored.length ≤ 1
  first : ∀ r ∈ x.stored, x.outcomes.head? = some r

namespace Executor

/-- The `JoinHandle` of `t` has taken a result. -/
def collected (s : Executor τ π ω) (t : TaskId) : Bool := s.tasks[t]?.any (·.collected)

/-- The innermost poll was entered from inside another poll of the same future. -/
def nestedPoll (s : Executor τ π ω) : Bool :=
  match s.stack with
  | .polling t :: rest => rest.contains (.polling t)
  | _ => false

/-- A closure that gets to the future finds the result not collected, and a poll that
finishes the future is not nested in another one of it. -/
def ResultKept (s : Executor τ π ω) : Act τ π ω → Prop
  | .dispatch t => s.reachesFuture t = true → s.collected t = false
  | .pollReturns p => p.outcome.isSome = true → s.nestedPoll = false
  | _ => True

instance (s : Executor τ π ω) (a : Act τ π ω) : Decidable (s.ResultKept a) :=
  match a with
  | .dispatch t => inferInstanceAs (Decidable (s.reachesFuture t = true → s.collected t = false))
  | .pollReturns p => inferInstanceAs
      (Decidable (p.outcome.isSome = true → s.nestedPoll = false))
  | .init | .dropGuard | .spawn | .wake _ | .wakeElsewhere _ | .enqueue _ | .pollHandle _ _
  | .dropHandle _ | .abort _ | .abortNext | .destroyQueue _ => isTrue trivial

end Executor

/-! ## What holds in every run -/

/-- An empty slot means an abort, and a result is one the future produced. -/
structure Task.Sound (x : Task τ π ω) : Prop where
  future : x.future = false → x.aborted = true
  value : x.value.isSome = true → x.outcomes ≠ []
  collected : x.collected = true → x.outcomes ≠ []

section Notify

@[simp] theorem Task.notify_repolls (x : Task τ π ω) : x.notify.repolls = x.repolls := by
  unfold Task.notify
  split <;> rfl

@[simp] theorem Task.notify_outcomes (x : Task τ π ω) : x.notify.outcomes = x.outcomes := by
  unfold Task.notify
  split <;> rfl

@[simp] theorem Task.notify_stored (x : Task τ π ω) : x.notify.stored = x.stored := by
  unfold Task.notify
  split <;> rfl

@[simp] theorem Task.notify_value (x : Task τ π ω) : x.notify.value = x.value := by
  unfold Task.notify
  split <;> rfl

@[simp] theorem Task.notify_future (x : Task τ π ω) : x.notify.future = x.future := by
  unfold Task.notify
  split <;> rfl

@[simp] theorem Task.notify_aborted (x : Task τ π ω) : x.notify.aborted = x.aborted := by
  unfold Task.notify
  split <;> rfl

@[simp] theorem Task.notify_collected (x : Task τ π ω) : x.notify.collected = x.collected := by
  unfold Task.notify
  split <;> rfl

end Notify

theorem Task.Sound.notify {x : Task τ π ω} (h : x.Sound) : x.notify.Sound :=
  ⟨by simpa using h.future, by simpa using h.value, by simpa using h.collected⟩

theorem Task.Sound.settle {x : Task τ π ω} (h : x.Sound) (p : FuturePoll τ π) :
    (x.settle p).Sound := by
  unfold Task.settle
  split
  · exact h.notify
  · refine Task.Sound.notify ⟨h.future, ?_, ?_⟩
    · intro _
      simp [Task.store, Task.finish]
    · intro _
      simp [Task.store, Task.finish]

theorem Task.Sound.pollHandle {x : Task τ π ω} (h : x.Sound) (w : ω) :
    (x.pollHandle w).1.Sound := by
  unfold Task.pollHandle
  split
  · exact ⟨h.future, h.value, h.collected⟩
  · split
    · rename_i r hv
      exact ⟨h.future, by simp, fun _ => h.value (by simp [hv])⟩
    · rename_i hv
      exact ⟨h.future, by simp [hv], h.collected⟩

/-- In a sound task the closure's poll gets to the future or is not made. -/
theorem Task.Sound.pollEarly {x : Task τ π ω} (h : x.Sound) (ha : x.available = false) :
    x.pollEarly = none := by
  simp only [Task.available, Bool.or_eq_false_iff] at ha
  have hf : x.future = true := by
    by_contra hf
    exact absurd (h.future (by simpa using hf)) (by simp [ha.2])
  simp [Task.pollEarly, ha.2, hf]

namespace Executor

def Sound (s : Executor τ π ω) : Prop :=
  ∀ (t : TaskId) (x : Task τ π ω), s.tasks[t]? = some x → x.Sound

theorem Sound.update {s : Executor τ π ω} (h : s.Sound) {t : TaskId}
    {f : Task τ π ω → Task τ π ω} (hf : ∀ x : Task τ π ω, x.Sound → (f x).Sound) :
    (s.update t f).Sound :=
  forall_update h hf

theorem Sound.step {s s' : Executor τ π ω} {a : Act τ π ω} (hi : s.Sound) (h : Step s a s') :
    s'.Sound := by
  cases h with
  | init | guardKept | lastGuard | wake | refused | checked | enqueue | lost | shutdownDone
  | destroyQueue => exact hi
  | spawn =>
      intro k y hy
      rcases getElem?_append_new hy with hy | ⟨-, rfl⟩
      · exact hi k y hy
      · exact ⟨by simp, by simp, by simp⟩
  | skip t =>
      exact Sound.update (s := { s with queue := s.queue.erase t }) hi fun _ hx => hx.notify
  | answer t x r hx hq ha hr =>
      rw [(hi t x hx).pollEarly ha] at hr
      cases hr
  | poll t x hx hq ha =>
      exact Sound.update (s := touch { s with queue := s.queue.erase t } t) hi
        fun _ hx => ⟨hx.future, hx.value, hx.collected⟩
  | returns t p => exact hi.update fun _ hx => hx.settle p
  | pollHandle t w => exact hi.update fun _ hx => hx.pollHandle w
  | dropHandle t => exact hi.update fun _ hx => ⟨hx.future, hx.value, hx.collected⟩
  | abort t | abortNext t =>
      exact Sound.update (s := s.touch t) hi fun _ hx => ⟨fun _ => rfl, hx.value, hx.collected⟩

theorem sound_of_reachable {s : Executor τ π ω} (h : (executorSystem τ π ω).Reachable s) :
    s.Sound :=
  h.invariant (by intro t x hx; simp [executorSystem] at hx)
    fun _ _ _ _ hi hst => hi.step (step_cases hst)

end Executor

/-! ## The invariant of the guarded runs -/

/-- A task whose future was not polled again: what it produced is what it stored, a
poll in progress is of an unfinished future, and a result is there until it is
collected. -/
structure Task.Fresh (polled : Prop) (x : Task τ π ω) : Prop where
  repolls : x.repolls = 0
  once : x.outcomes.length ≤ 1
  stored : x.stored = x.outcomes
  polled : polled → x.outcomes = []
  kept : x.outcomes ≠ [] → x.value.isSome = true ∨ x.collected = true

theorem Task.Fresh.settledOnce {p : Prop} {x : Task τ π ω} (h : x.Fresh p) : x.SettledOnce := by
  refine ⟨h.repolls, h.stored ▸ h.once, ?_⟩
  intro r hr
  rw [h.stored] at hr
  obtain ⟨r', hr'⟩ := List.length_eq_one_iff.1
    (Nat.le_antisymm h.once (List.length_pos_of_mem hr))
  rw [hr', List.mem_singleton] at hr
  simp [hr', hr]

theorem Task.Fresh.notify {p : Prop} {x : Task τ π ω} (h : x.Fresh p) : x.notify.Fresh p :=
  ⟨by simpa using h.repolls, by simpa using h.once, by simpa using h.stored,
    by simpa using h.polled, by simpa using h.kept⟩

theorem Task.Fresh.mono {p q : Prop} {x : Task τ π ω} (h : x.Fresh p) (hqp : q → p) :
    x.Fresh q :=
  ⟨h.repolls, h.once, h.stored, fun hq => h.polled (hqp hq), h.kept⟩

/-- The future ends its only poll. -/
theorem Task.Fresh.settle {q : Prop} {x : Task τ π ω} (h : x.Fresh True) (p : FuturePoll τ π)
    (hq : p.outcome.isSome = true → ¬ q) : (x.settle p).Fresh q := by
  have hnil : x.outcomes = [] := h.polled trivial
  unfold Task.settle
  split
  · exact h.notify.mono fun _ => trivial
  · rename_i r hr
    refine Task.Fresh.notify ⟨h.repolls, ?_, ?_, ?_, fun _ => .inl rfl⟩
    · simp [Task.store, Task.finish, hnil]
    · simp [Task.store, Task.finish, hnil, h.stored]
    · intro hq'
      exact absurd hq' (hq (by simp [hr]))

theorem Task.Fresh.pollHandle {p : Prop} {x : Task τ π ω} (h : x.Fresh p) (w : ω) :
    (x.pollHandle w).1.Fresh p := by
  unfold Task.pollHandle
  split
  · exact ⟨h.repolls, h.once, h.stored, h.polled, h.kept⟩
  · split
    · exact ⟨h.repolls, h.once, h.stored, h.polled, fun _ => .inr rfl⟩
    · exact ⟨h.repolls, h.once, h.stored, h.polled, h.kept⟩

/-- A closure that follows the rule polls a future that has not finished. -/
theorem Task.Fresh.enterFuture {p q : Prop} {x : Task τ π ω} (h : x.Fresh p)
    (ha : x.available = false) (hc : x.collected = false) : x.enterFuture.Fresh q := by
  have hnil : x.outcomes = [] := by
    by_contra hne
    simp only [Task.available, Bool.or_eq_false_iff] at ha
    rcases h.kept hne with hv | hv
    · rw [ha.1] at hv
      cases hv
    · rw [hc] at hv
      cases hv
  refine ⟨?_, h.once, h.stored, fun _ => hnil, h.kept⟩
  simp [Task.enterFuture, hnil, h.repolls]

namespace Executor

def Fresh (s : Executor τ π ω) : Prop :=
  ∀ (t : TaskId) (x : Task τ π ω), s.tasks[t]? = some x → x.Fresh (Frame.polling t ∈ s.stack)

/-- A change of task `t` that keeps it fresh, with a stack that polls no other task
than before. -/
theorem Fresh.update {s : Executor τ π ω} (h : s.Fresh) {t : TaskId}
    {f : Task τ π ω → Task τ π ω} {stack : List Frame}
    (hf : ∀ x, s.tasks[t]? = some x → (f x).Fresh (Frame.polling t ∈ stack))
    (hst : ∀ k, k ≠ t → Frame.polling k ∈ stack → Frame.polling k ∈ s.stack) :
    Fresh { s.update t f with stack := stack } := by
  intro k y hy
  rcases getElem?_update hy with ⟨rfl, x, hx, rfl⟩ | ⟨hk, hy⟩
  · exact hf x hx
  · exact (h k y hy).mono (hst k hk)

theorem Fresh.step {s s' : Executor τ π ω} {a : Act τ π ω} (hs : s.Sound) (hi : s.Fresh)
    (hok : s.ResultKept a) (h : Step s a s') : s'.Fresh := by
  cases h with
  | init | guardKept | wake | refused | checked | enqueue | lost | destroyQueue => exact hi
  | lastGuard =>
      intro k y hy
      exact (hi k y hy).mono (by simp)
  | spawn =>
      intro k y hy
      rcases getElem?_append_new hy with hy | ⟨-, rfl⟩
      · exact hi k y hy
      · exact ⟨rfl, by simp, rfl, fun _ => rfl, by simp⟩
  | skip t =>
      exact Fresh.update (s := { s with queue := s.queue.erase t }) hi
        (fun x hx => (hi t x hx).notify) fun _ _ h => h
  | answer t x r hx hq ha hr =>
      rw [(hs t x hx).pollEarly ha] at hr
      cases hr
  | poll t x hx hq ha he =>
      refine Fresh.update (s := touch { s with queue := s.queue.erase t } t) hi ?_ ?_
      · intro y hy
        cases hx.symm.trans hy
        have hc : s.collected t = false := hok (by simp [reachesFuture, hx, ha, he])
        exact (hi t x hx).enterFuture ha (by simpa [collected, hx] using hc)
      · intro k hk hm
        simpa [hk] using hm
  | returns t p rest hst =>
      refine hi.update ?_ ?_
      · intro x hx
        have hp : Frame.polling t ∈ s.stack := by simp [hst]
        refine ((hi t x hx).mono fun _ => hp).settle p ?_
        intro ho
        simpa [nestedPoll, hst] using hok ho
      · intro k _ hm
        rw [hst]
        exact List.mem_cons_of_mem _ hm
  | pollHandle t w => exact hi.update (fun x hx => (hi t x hx).pollHandle w) fun _ _ h => h
  | dropHandle t =>
      refine hi.update (fun x hx => ?_) fun _ _ h => h
      obtain ⟨h1, h2, h3, h4, h5⟩ := hi t x hx
      exact ⟨h1, h2, h3, h4, h5⟩
  | abort t =>
      refine Fresh.update (s := s.touch t) hi (fun x hx => ?_) fun _ _ h => h
      obtain ⟨h1, h2, h3, h4, h5⟩ := hi t x hx
      exact ⟨h1, h2, h3, h4, h5⟩
  | abortNext t ts rest hst =>
      refine Fresh.update (s := s.touch t) hi (fun x hx => ?_) fun k _ h => ?_
      · obtain ⟨h1, h2, h3, h4, h5⟩ := hi t x hx
        exact ⟨h1, h2, h3, fun hp => h4 (by simpa [hst] using hp), h5⟩
      · simpa [hst] using h
  | shutdownDone rest hst =>
      intro k y hy
      exact (hi k y hy).mono fun hp => by simpa [hst] using hp

theorem fresh_of_reachVia {s : Executor τ π ω}
    (h : (executorSystem τ π ω).ReachVia ResultKept s) : s.Fresh :=
  h.invariant (by intro t x hx; simp [executorSystem] at hx)
    fun _ _ _ hr hi hok hst => hi.step (sound_of_reachable hr.reachable) hok (step_cases hst)

/-! ## The result -/

/-- **A finished future is not polled again** in every run whose steps keep the rule,
and a closure that gets to a future whose result was collected polls it again. -/
theorem finished_future_not_polled :
    (∀ s : Executor τ π ω, (executorSystem τ π ω).ReachVia ResultKept s →
      ∀ (t : TaskId) (x : Task τ π ω), s.tasks[t]? = some x → x.SettledOnce) ∧
    (∀ (s s' : Executor τ π ω) (t : TaskId), (executorSystem τ π ω).Reachable s →
      ¬ s.ResultKept (.dispatch t) → s.step (.dispatch t) = some s' →
      ∃ x, s'.tasks[t]? = some x ∧ 0 < x.repolls) := by
  constructor
  · intro s h t x hx
    exact (fresh_of_reachVia h t x hx).settledOnce
  · intro s s' t hr hok h
    simp only [ResultKept, Classical.not_imp, Bool.not_eq_false] at hok
    obtain ⟨hreach, hc⟩ := hok
    simp only [reachesFuture, Option.any_eq_true, Bool.and_eq_true, Bool.not_eq_true',
      Option.isNone_iff_eq_none] at hreach
    obtain ⟨x, hx, ha, he⟩ := hreach
    have hne : x.outcomes ≠ [] :=
      (sound_of_reachable hr t x hx).collected (by simpa [collected, hx] using hc)
    refine ⟨x.enterFuture, ?_, by simp [Task.enterFuture, hne]⟩
    simp only [step, dispatch, hx, ha, he] at h
    split at h
    · cases h
      simp [update, touch, hx]
    · cases h

/-- A task wakes itself twice and finishes. The joiner collects the result between the
two closures, and aborts the task before the second one runs. -/
def collectedRun : List (Act Nat Nat Nat) :=
  [.init, .spawn, .dispatch 0, .wake 0, .wake 0, .pollReturns (.ready 7), .dispatch 0,
    .pollHandle 0 1, .abort 0, .dispatch 0]

theorem finished_future_not_polled_collected :
    ∃ (s : Executor Nat Nat Nat) (x : Task Nat Nat Nat), s.tasks[0]? = some x ∧
      x.collected = true ∧ s.queue = [] ∧ x.SettledOnce := by
  have hrun : ((executorSystem Nat Nat Nat).runVia ResultKept {} collectedRun).map
      (fun s => s.queue.isEmpty && s.collected 0) = some true := by decide
  obtain ⟨s, hs, hp⟩ := System.exists_reachVia _ _ hrun
  simp only [Bool.and_eq_true, List.isEmpty_iff, collected, Option.any_eq_true] at hp
  obtain ⟨hq, x, hx, hc⟩ := hp
  exact ⟨s, x, hx, hc, hq, finished_future_not_polled.1 s hs 0 x hx⟩

/-- A task wakes itself and finishes, its joiner collects the result, and the closure
of that wake runs; the second poll panics. -/
def repollRun : List (Act Nat Nat Nat) :=
  [.init, .spawn, .dispatch 0, .wake 0, .pollReturns (.ready 7), .pollHandle 0 1, .dispatch 0,
    .pollReturns (.panics 0)]

/-- The finished future is polled again, and a second outcome is stored. -/
theorem finished_future_polled_again :
    ((executorSystem Nat Nat Nat).run {} repollRun).bind (·.tasks[0]?.map fun x =>
      (x.repolls, x.stored)) = some (1, [.ok 7, .error (.panic 0)]) := by
  decide

end Executor

end Wxp.Tasks
