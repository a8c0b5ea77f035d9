import Wxp.Tasks.Outcome

/-!
# Tasks — Joiner

The stored waker bridges "result is ready" back to whoever awaits the handle. It is
woken at the end of a poll closure, "if the result is now available", which counts an
abort as a result. `Task::abort` itself wakes nobody: neither `JoinHandle::abort` nor
the abort loop of `shutdown` sends a closure, and the closures that are queued die
with the queue.

`WakeLeft` is the exact condition on a step: an abort that finds the joiner waiting
also finds a closure of the task queued or running, and a queue that is destroyed
holds no closure that such a joiner still depends on.
-/

namespace Wxp.Tasks

variable {τ π ω : Type}

/-- The last poll of the handle returned `Pending` and its waker was not woken since. -/
def Task.waiting [DecidableEq ω] (x : Task τ π ω) : Bool :=
  match x.joiner with
  | .pending w woken => !woken.contains w
  | _ => false

/-- While its last waker is not woken, it is the one in the slot. -/
def Task.Registered (x : Task τ π ω) : Prop :=
  ∀ w woken, x.joiner = .pending w woken → w ∈ woken ∨ x.waker = some w

namespace Executor

/-- A poll closure of `t` is queued, or has begun and not notified the joiner yet. -/
def hasClosure (s : Executor τ π ω) (t : TaskId) : Bool := s.queue.contains t || s.polling t

/-- Where the handle of a task would return `Ready` and its last poll returned
`Pending`, the waker of that poll was woken or a closure that will wake it is left. -/
def NoneAsleep (s : Executor τ π ω) : Prop :=
  ∀ (t : TaskId) (x : Task τ π ω) (w : ω) (woken : List ω), s.tasks[t]? = some x →
    x.available = true → x.joiner = .pending w woken →
    w ∈ woken ∨ (s.hasClosure t = true ∧ x.waker = some w)

section Guards

variable [DecidableEq ω]

/-- One task awaits each handle: a poll that finds a waker in the slot brings it again. -/
def OneJoiner (s : Executor τ π ω) : Act τ π ω → Prop
  | .pollHandle t w => ∀ w' ∈ s.tasks[t]?.bind (·.waker), w' = w
  | _ => True

/-- The joiner of `t` waits and no closure of `t` is left to wake it. -/
def stranded (s : Executor τ π ω) (t : TaskId) : Bool :=
  s.tasks[t]?.any (·.waiting) && !s.hasClosure t

/-- The result of `t` is available, its joiner waits, and the closures of `t` that are
left sit in the queue of generation `g`. -/
def dependsOn (s : Executor τ π ω) (t : TaskId) (g : Generation) : Bool :=
  s.tasks[t]?.any (fun x => x.generation == g && x.available && x.waiting) && !s.polling t

/-- The task whose slot a step clears. -/
def abortedBy (s : Executor τ π ω) : Act τ π ω → Option TaskId
  | .abort t => some t
  | .abortNext => match s.stack with
    | .shutdown (t :: _) :: _ => some t
    | _ => none
  | _ => none

/-- An abort finds no joiner that waits without a closure to wake it, and a destroyed
queue holds no closure that a waiting joiner depends on. -/
def WakeLeft (s : Executor τ π ω) : Act τ π ω → Prop
  | .destroyQueue g => ∀ t ∈ s.queue, s.dependsOn t g = false
  | a => ∀ t ∈ s.abortedBy a, s.stranded t = false

instance (s : Executor τ π ω) (a : Act τ π ω) : Decidable (s.OneJoiner a) :=
  match a with
  | .pollHandle t w => inferInstanceAs (Decidable (∀ w' ∈ s.tasks[t]?.bind (·.waker), w' = w))
  | .init | .dropGuard | .spawn | .wake _ | .wakeElsewhere _ | .enqueue _ | .dispatch _
  | .pollReturns _ | .dropHandle _ | .abort _ | .abortNext | .destroyQueue _ => isTrue trivial

instance (s : Executor τ π ω) (a : Act τ π ω) : Decidable (s.WakeLeft a) :=
  match a with
  | .destroyQueue g => inferInstanceAs (Decidable (∀ t ∈ s.queue, s.dependsOn t g = false))
  | .abort t => inferInstanceAs (Decidable (∀ k ∈ some t, s.stranded k = false))
  | .abortNext => inferInstanceAs
      (Decidable (∀ k ∈ s.abortedBy (.abortNext : Act τ π ω), s.stranded k = false))
  | .init | .dropGuard | .spawn | .wake _ | .wakeElsewhere _ | .enqueue _ | .dispatch _
  | .pollReturns _ | .pollHandle _ _ | .dropHandle _ => isTrue (by simp [WakeLeft, abortedBy])

end Guards

end Executor

/-! ## One task -/

section Task

variable {x : Task τ π ω}

@[simp] theorem Task.notify_available (x : Task τ π ω) : x.notify.available = x.available := by
  simp [Task.available]

theorem Task.Registered.notify (h : x.Registered) : x.notify.Registered := by
  unfold Task.notify
  split
  · intro w woken hj
    cases hx : x.joiner with
    | pending w₀ woken₀ =>
        simp only [hx] at hj
        rcases h w₀ woken₀ hx with hw | hw
        · cases hwk : x.waker with
          | none =>
              simp only [hwk, Joiner.wake, Joiner.pending.injEq] at hj
              obtain ⟨rfl, rfl⟩ := hj
              exact .inl hw
          | some w' =>
              simp only [hwk, Joiner.wake, Joiner.pending.injEq] at hj
              obtain ⟨rfl, rfl⟩ := hj
              exact .inl (List.mem_append_left _ hw)
        · simp only [hw, Joiner.wake, Joiner.pending.injEq] at hj
          obtain ⟨rfl, rfl⟩ := hj
          exact .inl (by simp)
    | _ => simp [hx, Joiner.wake] at hj
  · exact h

theorem Task.Registered.settle (h : x.Registered) (p : FuturePoll τ π) :
    (x.settle p).Registered := by
  unfold Task.settle
  split
  · exact h.notify
  · exact Task.Registered.notify h

/-- A pending poll that brings the waker of the slot again, or finds it empty. -/
theorem Task.registered_pollHandle {w : ω} (hw : ∀ w' ∈ x.waker, w' = w) :
    (x.pollHandle w).1.Registered := by
  unfold Task.pollHandle
  split
  · intro _ _ hj
    cases hj
  · split
    · intro _ _ hj
      cases hj
    · intro _ _ hj
      cases hj
      cases hx : x.waker with
      | none => exact .inr rfl
      | some w' => exact .inr (by simp [hw w' hx])

variable [DecidableEq ω]

theorem Task.waiting_iff :
    x.waiting = true ↔ ∃ w woken, x.joiner = .pending w woken ∧ w ∉ woken := by
  unfold Task.waiting
  split
  · rename_i w woken hj
    simp [hj]
  · rename_i hj
    constructor
    · simp
    · rintro ⟨w, woken, hw, -⟩
      exact absurd hw (hj w woken)

/-- The end of the poll closure leaves nobody asleep. -/
theorem Task.Registered.notify_waiting (h : x.Registered) (ha : x.available = true) :
    x.notify.waiting = false := by
  by_contra hw
  obtain ⟨w, woken, hj, hn⟩ := Task.waiting_iff.1 (by simpa using hw)
  rcases h.notify w woken hj with hmem | hwk
  · exact hn hmem
  · simp [Task.notify, ha] at hwk

theorem Task.Registered.settle_waiting (h : x.Registered) (p : FuturePoll τ π)
    (ha : (x.settle p).available = true) : (x.settle p).waiting = false := by
  unfold Task.settle at ha ⊢
  split
  · rename_i ho
    simp only [ho, Task.notify_available] at ha
    exact h.notify_waiting ha
  · exact Task.Registered.notify_waiting h rfl

theorem Task.pollHandle_waiting (w : ω) (ha : (x.pollHandle w).1.available = true) :
    (x.pollHandle w).1.waiting = false := by
  unfold Task.pollHandle at ha ⊢
  split
  · rfl
  · rename_i hab
    split
    · rfl
    · rename_i hv
      simp [hab, hv, Task.available] at ha

end Task

/-! ## The invariant of the guarded runs -/

/-- The waker of a waiting joiner is in the slot, and once the result is available a
closure is left to wake it (`closure`). -/
structure Task.Attended [DecidableEq ω] (closure : Prop) (x : Task τ π ω) : Prop where
  registered : x.Registered
  left : x.available = true → x.waiting = true → closure

/-- Nobody waits for an available result. -/
theorem Task.Attended.awake [DecidableEq ω] {closure : Prop} {x : Task τ π ω}
    (registered : x.Registered) (h : x.available = true → x.waiting = false) :
    x.Attended closure where
  registered := registered
  left ha hw := by
    rw [h ha] at hw
    cases hw

namespace Executor

/-- A closure of `t` is queued or running. -/
def ClosureLeft (s : Executor τ π ω) (t : TaskId) : Prop :=
  t ∈ s.queue ∨ Frame.polling t ∈ s.stack

theorem hasClosure_iff {s : Executor τ π ω} {t : TaskId} :
    s.hasClosure t = true ↔ s.ClosureLeft t := by
  simp [hasClosure, ClosureLeft, polling_iff]

section Steps

variable [DecidableEq ω]

def Attended (s : Executor τ π ω) : Prop :=
  ∀ (t : TaskId) (x : Task τ π ω), s.tasks[t]? = some x → x.Attended (s.ClosureLeft t)

theorem Attended.noneAsleep {s : Executor τ π ω} (h : s.Attended) : s.NoneAsleep := by
  intro t x w woken hx ha hj
  obtain ⟨hreg, hleft⟩ := h t x hx
  by_cases hw : w ∈ woken
  · exact .inl hw
  · have hc : s.ClosureLeft t := hleft ha (Task.waiting_iff.2 ⟨w, woken, hj, hw⟩)
    exact .inr ⟨hasClosure_iff.2 hc, (hreg w woken hj).resolve_left hw⟩

/-- A step that leaves the table of tasks alone and loses no closure. -/
theorem Attended.same {s s' : Executor τ π ω} (h : s.Attended) (ht : s'.tasks = s.tasks)
    (hc : ∀ t, s.ClosureLeft t → s'.ClosureLeft t) : s'.Attended := by
  intro t x hx
  rw [ht] at hx
  obtain ⟨hreg, hleft⟩ := h t x hx
  exact ⟨hreg, fun ha hw => hc t (hleft ha hw)⟩

/-- A step that changes task `t` and loses no closure of another task. -/
theorem Attended.update {s s' : Executor τ π ω} (h : s.Attended) {t : TaskId}
    {f : Task τ π ω → Task τ π ω} (ht : s'.tasks = (s.update t f).tasks)
    (hf : ∀ x, s.tasks[t]? = some x → (f x).Attended (s'.ClosureLeft t))
    (hc : ∀ k, k ≠ t → s.ClosureLeft k → s'.ClosureLeft k) : s'.Attended := by
  intro k y hy
  rw [ht] at hy
  rcases getElem?_update hy with ⟨rfl, x, hx, rfl⟩ | ⟨hk, hy⟩
  · exact hf x hx
  · obtain ⟨hreg, hleft⟩ := h k y hy
    exact ⟨hreg, fun ha hw => hc k hk (hleft ha hw)⟩

/-- An abort that finds no stranded joiner. -/
theorem Attended.abort {s : Executor τ π ω} (h : s.Attended) {t : TaskId} {x : Task τ π ω}
    (hx : s.tasks[t]? = some x) (hok : s.stranded t = false) : x.abort.Attended (s.ClosureLeft t) := by
  refine ⟨(h t x hx).registered, fun _ hw => ?_⟩
  have hw : x.waiting = true := hw
  rw [← hasClosure_iff]
  simpa [stranded, hx, hw] using hok

theorem Attended.step {s s' : Executor τ π ω} {a : Act τ π ω} (hi : s.Attended)
    (hone : s.OneJoiner a) (hok : s.WakeLeft a) (h : Step s a s') : s'.Attended := by
  cases h with
  | init | guardKept | refused | checked | lost => exact hi.same rfl fun _ h => h
  | lastGuard => exact hi.same rfl fun _ h => h.imp_right (List.mem_cons_of_mem _)
  | wake | enqueue => exact hi.same rfl fun _ h => h.imp_left (List.mem_append_left _)
  | spawn =>
      intro k y hy
      rcases getElem?_append_new hy with hy | ⟨-, rfl⟩
      · obtain ⟨hreg, hleft⟩ := hi k y hy
        exact ⟨hreg, fun ha hw => (hleft ha hw).imp_left (List.mem_append_left _)⟩
      · exact ⟨fun _ _ hj => (nomatch hj), fun ha => nomatch ha⟩
  | skip t x hx hq ha =>
      refine hi.update rfl (fun y hy => ?_) fun k hk hc => ?_
      · cases hx.symm.trans hy
        have hreg : x.Registered := (hi t x hx).registered
        exact .awake hreg.notify fun _ => hreg.notify_waiting ha
      · exact hc.imp_left (List.mem_erase_of_ne hk).2
  | answer t x r hx hq ha hr =>
      refine hi.update rfl (fun y hy => ?_) fun k hk hc => ?_
      · cases hx.symm.trans hy
        have hreg : (x.store r).Registered := (hi t x hx).registered
        exact .awake hreg.notify fun _ => hreg.notify_waiting rfl
      · exact hc.imp_left (List.mem_erase_of_ne hk).2
  | poll t x hx hq ha =>
      refine hi.update rfl (fun y hy => ?_) fun k hk hc => ?_
      · exact ⟨(hi t y hy).registered, fun _ _ => .inr List.mem_cons_self⟩
      · exact hc.imp (List.mem_erase_of_ne hk).2 (List.mem_cons_of_mem _)
  | returns t p rest hst =>
      refine hi.update rfl (fun x hx => ?_) fun k hk hc => ?_
      · have hreg : x.Registered := (hi t x hx).registered
        exact .awake (hreg.settle p) (hreg.settle_waiting p)
      · exact hc.imp_right fun hm => by simpa [hst, hk] using hm
  | pollHandle t w =>
      refine hi.update rfl (fun x hx => ?_) fun _ _ h => h
      refine .awake (Task.registered_pollHandle fun w' hw' => ?_) (Task.pollHandle_waiting w)
      exact hone w' (by simpa [hx] using hw')
  | dropHandle t =>
      refine hi.update rfl (fun x _ => ?_) fun _ _ h => h
      exact ⟨fun _ _ hj => (nomatch hj), fun _ hw => nomatch hw⟩
  | abort t =>
      exact hi.update rfl (fun x hx => hi.abort hx (hok t rfl)) fun _ _ h => h
  | abortNext t ts rest hst =>
      have hs : s.stranded t = false := hok t (by simp [abortedBy, hst])
      have hc : ∀ k, s.ClosureLeft k →
          ClosureLeft { s.clear t with stack := .shutdown ts :: rest } k := by
        intro k hk
        simpa [ClosureLeft, hst] using hk
      refine hi.update rfl (fun x hx => ?_) fun k _ hk => hc k hk
      obtain ⟨hreg, hleft⟩ := hi.abort hx hs
      exact ⟨hreg, fun ha hw => hc t (hleft ha hw)⟩
  | shutdownDone rest hst =>
      exact hi.same rfl fun _ h => h.imp_right fun hm => by simpa [hst] using hm
  | destroyQueue g =>
      intro t x hx
      obtain ⟨hreg, hleft⟩ := hi t x hx
      refine ⟨hreg, fun ha hw => ?_⟩
      rcases hleft ha hw with hq | hp
      · by_cases hg : x.generation = g
        · have hd : s.dependsOn t g = false := hok t hq
          have hp : s.polling t = true := by
            have hx : s.tasks[t]? = some x := hx
            simpa [dependsOn, hx, hg, ha, hw] using hd
          exact .inr (polling_iff.1 hp)
        · have hx : s.tasks[t]? = some x := hx
          exact .inl (List.mem_filter.2 ⟨hq, by simp [hx, hg]⟩)
      · exact .inr hp

theorem attended_of_reachVia {s : Executor τ π ω}
    (h : (executorSystem τ π ω).ReachVia (fun s a => s.OneJoiner a ∧ s.WakeLeft a) s) :
    s.Attended :=
  h.invariant (by intro t x hx; simp [executorSystem] at hx)
    fun _ _ _ _ hi hok hst => hi.step hok.1 hok.2 (step_cases hst)

/-! ## Steps that break the rule -/

theorem not_noneAsleep {s : Executor τ π ω} {t : TaskId} {x : Task τ π ω}
    (hx : s.tasks[t]? = some x) (ha : x.available = true) (hw : x.waiting = true)
    (hc : s.hasClosure t = false) : ¬ s.NoneAsleep := by
  intro h
  obtain ⟨w, woken, hj, hn⟩ := Task.waiting_iff.1 hw
  rcases h t x w woken hx ha hj with hmem | ⟨hleft, -⟩
  · exact hn hmem
  · rw [hc] at hleft
    cases hleft

omit [DecidableEq ω] in
theorem clear_tasks {s : Executor τ π ω} {t : TaskId} {x : Task τ π ω}
    (hx : s.tasks[t]? = some x) : (s.clear t).tasks[t]? = some x.abort := by
  simp [clear, update, hx]

theorem not_noneAsleep_of_stranded {s s' : Executor τ π ω} {t : TaskId}
    (hs : s.stranded t = true) (ht : s'.tasks = (s.clear t).tasks)
    (hc : s'.hasClosure t = s.hasClosure t) : ¬ s'.NoneAsleep := by
  simp only [stranded, Bool.and_eq_true, Bool.not_eq_true', Option.any_eq_true] at hs
  obtain ⟨⟨x, hx, hw⟩, hn⟩ := hs
  exact not_noneAsleep (x := x.abort) (ht ▸ clear_tasks hx)
    (by simp [Task.available, Task.abort]) hw (hc.trans hn)

/-- A step against the rule leaves a joiner asleep. -/
theorem not_noneAsleep_of_step {s s' : Executor τ π ω} {a : Act τ π ω} (hok : ¬ s.WakeLeft a)
    (h : s.step a = some s') : ¬ s'.NoneAsleep := by
  cases a with
  | abort t =>
      simp only [WakeLeft, abortedBy, Option.mem_def, Option.some.injEq, forall_eq',
        Bool.not_eq_false] at hok
      simp only [step, abort, Option.ite_none_right_eq_some, Option.some.injEq] at h
      obtain ⟨-, rfl⟩ := h
      exact not_noneAsleep_of_stranded hok rfl rfl
  | abortNext =>
      simp only [WakeLeft, not_forall, Bool.not_eq_false] at hok
      obtain ⟨t, ht, hs⟩ := hok
      simp only [abortedBy] at ht
      split at ht
      · rename_i t' ts rest hst
        cases ht
        simp only [step, abortNext, hst, Option.some.injEq] at h
        subst h
        refine not_noneAsleep_of_stranded hs rfl ?_
        simp [hasClosure, polling, hst]
      · cases ht
  | destroyQueue g =>
      simp only [WakeLeft, not_forall, Bool.not_eq_false] at hok
      obtain ⟨t, hq, hd⟩ := hok
      simp only [dependsOn, Bool.and_eq_true, Bool.not_eq_true', Option.any_eq_true] at hd
      obtain ⟨⟨x, hx, ⟨hg, ha⟩, hw⟩, hp⟩ := hd
      simp only [step, destroyQueue, Option.ite_none_right_eq_some, Option.some.injEq] at h
      obtain ⟨-, rfl⟩ := h
      refine not_noneAsleep hx ha hw ?_
      simpa [hasClosure, polling, hx, hg] using hp
  | init | dropGuard | spawn | wake | wakeElsewhere | enqueue | dispatch | pollReturns
  | pollHandle | dropHandle => exact absurd (by simp [WakeLeft, abortedBy]) hok

/-! ## The result -/

/-- **No joiner is left asleep** in every run in which one task awaits each handle and
whose aborts and destroyed queues leave waiting joiners their closure; a step that
takes it from them leaves one asleep. -/
theorem no_joiner_asleep :
    (∀ s : Executor τ π ω,
      (executorSystem τ π ω).ReachVia (fun s a => s.OneJoiner a ∧ s.WakeLeft a) s →
      s.NoneAsleep) ∧
    (∀ (s s' : Executor τ π ω) (a : Act τ π ω), (executorSystem τ π ω).Reachable s →
      ¬ s.WakeLeft a → s.step a = some s' → ¬ s'.NoneAsleep) :=
  ⟨fun _ h => (attended_of_reachVia h).noneAsleep, fun _ _ _ _ hok h =>
    not_noneAsleep_of_step hok h⟩

end Steps

/-- A task is aborted while its joiner waits and a wake of it is queued; the closure
of that wake runs. -/
def abortQueuedRun : List (Act Nat Nat Nat) :=
  [.init, .spawn, .dispatch 0, .pollReturns .pending, .pollHandle 0 1, .wake 0, .abort 0,
    .dispatch 0]

theorem no_joiner_asleep_abortQueued :
    ∃ (s : Executor Nat Nat Nat) (x : Task Nat Nat Nat), s.tasks[0]? = some x ∧
      x.aborted = true ∧ x.joiner = .pending 1 [1] ∧ s.NoneAsleep := by
  have hrun : ((executorSystem Nat Nat Nat).runVia (fun s a => s.OneJoiner a ∧ s.WakeLeft a) {}
      abortQueuedRun).map (fun s => s.tasks[0]?.any fun x =>
        x.aborted && x.joiner == .pending 1 [1]) = some true := by decide
  obtain ⟨s, hs, hp⟩ := System.exists_reachVia _ _ hrun
  simp only [Option.any_eq_true, Bool.and_eq_true, beq_iff_eq] at hp
  obtain ⟨x, hx, ha, hj⟩ := hp
  exact ⟨s, x, hx, ha, hj, no_joiner_asleep.1 s hs⟩

/-- The joiner of a suspended task waits, and no closure of the task is queued. -/
def waitingRun : List (Act Nat Nat Nat) :=
  [.init, .spawn, .dispatch 0, .pollReturns .pending, .pollHandle 0 1]

def abortWaitingRun : List (Act Nat Nat Nat) := waitingRun ++ [.abort 0]

def shutdownWaitingRun : List (Act Nat Nat Nat) := waitingRun ++ [.dropGuard, .abortNext]

/-- The closure that would have told the joiner is queued and dies with its queue. -/
def destroyWaitingRun : List (Act Nat Nat Nat) :=
  waitingRun ++ [.wake 0, .abort 0, .dropGuard, .abortNext, .abortNext, .destroyQueue 1]

theorem asleep_of_run (as : List (Act Nat Nat Nat))
    (h : ((executorSystem Nat Nat Nat).runVia OneJoiner {} as).map (fun s =>
      s.tasks[0]?.any (fun x => x.available && x.waiting) && !s.hasClosure 0) = some true) :
    ∃ s, (executorSystem Nat Nat Nat).runVia OneJoiner {} as = some s ∧ ¬ s.NoneAsleep := by
  obtain ⟨s, hs, hp⟩ := Option.map_eq_some_iff.1 h
  simp only [Bool.and_eq_true, Bool.not_eq_true', Option.any_eq_true] at hp
  obtain ⟨⟨x, hx, ha, hw⟩, hc⟩ := hp
  exact ⟨s, hs, not_noneAsleep hx ha hw hc⟩

/-- `JoinHandle::abort`, a shutdown, and the end of a queue leave a joiner asleep. -/
theorem joiner_left_asleep :
    (∃ s, (executorSystem Nat Nat Nat).runVia OneJoiner {} abortWaitingRun = some s ∧
      ¬ s.NoneAsleep) ∧
    (∃ s, (executorSystem Nat Nat Nat).runVia OneJoiner {} shutdownWaitingRun = some s ∧
      ¬ s.NoneAsleep) ∧
    (∃ s, (executorSystem Nat Nat Nat).runVia OneJoiner {} destroyWaitingRun = some s ∧
      ¬ s.NoneAsleep) :=
  ⟨asleep_of_run _ (by decide), asleep_of_run _ (by decide), asleep_of_run _ (by decide)⟩

end Executor

end Wxp.Tasks
