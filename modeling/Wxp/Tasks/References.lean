import Wxp.Tasks.Outcome

/-!
# Tasks — References

The references to the tasks. `active_tasks` lists the tasks of a generation as
`Weak`, so what `shutdown` gets to abort depends on who still holds a task:

* its `JoinHandle`, which stays on the run loop thread;
* the poll closures, queued or on their way to the queue, and the one that runs;
* the clones of its `Waker`, which may be on any thread.

A task goes with its last reference, on the thread that drops it, and takes what is
left in its future slot and in `value` along.

`left`, `cancelled` and `spilled` record history. No step reads them.
-/

namespace Wxp.Tasks

variable {τ π ω : Type}

/-- The executor with the references to its tasks. -/
structure Refs (τ π ω : Type) where
  executor : Executor τ π ω := {}
  /-- `active_tasks` of the current generation. -/
  activeTasks : List TaskId := []
  /-- The wakers on the run loop thread. -/
  wakers : List TaskId := []
  /-- The wakers on the other threads. -/
  wakersElsewhere : List TaskId := []
  /-- The results that nobody had collected when the last guard was dropped. -/
  left : List (TaskId × JoinResult τ π) := []
  /-- The tasks aborted through their `JoinHandle`. -/
  cancelled : List TaskId := []
  /-- The tasks whose future or value was destroyed on another thread. -/
  spilled : List TaskId := []
  deriving DecidableEq

inductive Move (τ π ω : Type)
  | exec (a : Act τ π ω)
  | cloneWaker (t : TaskId)
  | dropWaker (t : TaskId)
  /-- A waker is moved to another thread, or back. -/
  | sendWaker (t : TaskId)
  | returnWaker (t : TaskId)
  | cloneElsewhere (t : TaskId)
  | dropElsewhere (t : TaskId)
  /-- The send of a poll closure of `t` held on to the platform queue while its run
  loop was dropped; the queue goes when the send is over. -/
  | orphanQueue (t : TaskId)

/-- What `shutdown` and `Drop` decide by. -/
def Task.key (x : Task τ π ω) : Generation × Bool × Bool := (x.generation, x.aborted, x.future)

/-- The future or a value is still in the task. -/
def Task.occupied (x : Task τ π ω) : Bool := x.future || x.value.isSome

/-- The steps of the executor that neither spawn nor abort nor drop a guard. -/
def Act.plain : Act τ π ω → Bool
  | .spawn | .dropGuard | .abort _ | .abortNext => false
  | _ => true

namespace Refs

/-- A `Weak` of `t` can be upgraded. -/
def strong (s : Refs τ π ω) (t : TaskId) : Bool :=
  s.executor.hasHandle t || s.executor.queue.contains t || s.executor.sending.contains t ||
    s.executor.polling t || s.wakers.contains t || s.wakersElsewhere.contains t

/-- Code on the run loop thread has a waker of `t` at hand: one of its own, or the one
in the `Context` of the poll. -/
def hasWaker (s : Refs τ π ω) (t : TaskId) : Bool := s.executor.polling t || s.wakers.contains t

/-- The only waker of `t` on the other threads is borrowed by a wake in progress. -/
def borrowed (s : Refs τ π ω) (t : TaskId) : Bool :=
  s.executor.sending.contains t && s.wakersElsewhere.count t == 1

/-- `tasks.push(..)`, and `tasks.retain(..)` once there are more than 100. -/
def track (s : Refs τ π ω) (t : TaskId) : Refs τ π ω :=
  { s with activeTasks :=
      if 100 < (s.activeTasks ++ [t]).length then (s.activeTasks ++ [t]).filter s.strong
      else s.activeTasks ++ [t] }

/-- A step of the executor that the references do not depend on. -/
def lift (s : Refs τ π ω) (a : Act τ π ω) : Option (Refs τ π ω) :=
  (s.executor.step a).map fun e => { s with executor := e }

/-- `RunLoopLocal::spawn`. -/
def spawn (s : Refs τ π ω) : Option (Refs τ π ω) :=
  (s.executor.step .spawn).map fun e =>
    track { s with executor := e } s.executor.tasks.length

/-- The results that wait in a task for its `JoinHandle`. -/
def uncollected (s : Refs τ π ω) : List (TaskId × JoinResult τ π) :=
  (List.range s.executor.tasks.length).filterMap fun t =>
    s.executor.tasks[t]?.bind fun x =>
      if s.executor.hasHandle t && !x.aborted && !s.executor.polling t then
        x.value.map fun r => (t, r)
      else none

/-- `release_guard`. The abort loop of `shutdown` goes by `active_tasks`. -/
def dropGuard (s : Refs τ π ω) : Option (Refs τ π ω) :=
  match s.executor.initCount with
  | 0 => none
  | 1 => some { s with
      executor := { s.executor with
        initCount := 0, stack := .shutdown s.activeTasks :: s.executor.stack },
      left := s.left ++ s.uncollected }
  | n + 2 => some { s with executor := { s.executor with initCount := n + 1 } }

/-- `JoinHandle::abort`. -/
def abort (s : Refs τ π ω) (t : TaskId) : Option (Refs τ π ω) :=
  (s.executor.step (.abort t)).map fun e =>
    { s with executor := e, cancelled := s.cancelled ++ [t] }

/-- The abort loop of `shutdown` goes on: it aborts the tasks it can upgrade, and ends
with `tasks.clear()`. -/
def abortNext (s : Refs τ π ω) : Option (Refs τ π ω) :=
  match s.executor.stack with
  | .shutdown [] :: rest =>
      some { s with executor := { s.executor with stack := rest }, activeTasks := [] }
  | .shutdown (t :: ts) :: rest =>
      if s.strong t then
        some { s with executor := { s.executor.clear t with stack := .shutdown ts :: rest } }
      else some { s with executor := { s.executor with stack := .shutdown ts :: rest } }
  | _ => none

/-- The rest of the send of `t` after the platform run loop of its generation is gone:
the queue takes the closure and is dropped with all it holds. -/
def orphanQueue (s : Refs τ π ω) (t : TaskId) : Option (Refs τ π ω) :=
  match s.executor.tasks[t]? with
  | none => none
  | some x =>
      if s.executor.sending.contains t ∧ s.executor.live x.generation = false ∧
          (x.generation = s.executor.generation → s.executor.shuttingDown = false) ∧
          s.executor.destroyed.contains x.generation = false then
        some { s with executor := { s.executor with
          sending := s.executor.sending.erase t,
          queue := s.executor.queue.filter fun t =>
            !s.executor.tasks[t]?.any fun y => y.generation == x.generation,
          destroyed := s.executor.destroyed ++ [x.generation] } }
      else none

def move (s : Refs τ π ω) : Move τ π ω → Option (Refs τ π ω)
  | .exec .spawn => s.spawn
  | .exec .dropGuard => s.dropGuard
  | .exec (.abort t) => s.abort t
  | .exec .abortNext => s.abortNext
  | .exec (.wake t) => if s.hasWaker t then s.lift (.wake t) else none
  | .exec (.wakeElsewhere t) =>
      if s.wakersElsewhere.contains t then s.lift (.wakeElsewhere t) else none
  | .exec a => s.lift a
  | .cloneWaker t => if s.hasWaker t then some { s with wakers := t :: s.wakers } else none
  | .dropWaker t =>
      if s.wakers.contains t then some { s with wakers := s.wakers.erase t } else none
  | .sendWaker t =>
      if s.wakers.contains t then
        some { s with wakers := s.wakers.erase t, wakersElsewhere := t :: s.wakersElsewhere }
      else none
  | .returnWaker t =>
      if s.wakersElsewhere.contains t ∧ s.borrowed t = false then
        some { s with
          wakers := t :: s.wakers, wakersElsewhere := s.wakersElsewhere.erase t }
      else none
  | .cloneElsewhere t =>
      if s.wakersElsewhere.contains t then
        some { s with wakersElsewhere := t :: s.wakersElsewhere }
      else none
  | .dropElsewhere t =>
      if s.wakersElsewhere.contains t ∧ s.borrowed t = false then
        some { s with wakersElsewhere := s.wakersElsewhere.erase t }
      else none
  | .orphanQueue t => s.orphanQueue t

end Refs

/-- The step is made by another thread. -/
def Move.elsewhere : Move τ π ω → Bool
  | .exec (.wakeElsewhere _) | .exec (.enqueue _) | .cloneElsewhere _ | .dropElsewhere _
  | .orphanQueue _ => true
  | _ => false

namespace Refs

/-- The tasks that lose their last reference from `s` to `s'` with something in them. -/
def freed (s s' : Refs τ π ω) : List TaskId :=
  (List.range s.executor.tasks.length).filter fun t =>
    s.strong t && !s'.strong t && s'.executor.tasks[t]?.any (·.occupied)

def step (s : Refs τ π ω) (m : Move τ π ω) : Option (Refs τ π ω) :=
  (s.move m).map fun s' =>
    if m.elsewhere then { s' with spilled := s'.spilled ++ s.freed s' } else s'

end Refs

/-- The tasks of one run loop thread, with their references on all threads. -/
def refsSystem (τ π ω : Type) : System (Refs τ π ω) (Move τ π ω) where
  init := {}
  step := Refs.step

namespace Refs

/-! ## What one step can do -/

/-- The moves, one constructor for each way the references can change, with its guard. -/
inductive Moved (s : Refs τ π ω) : Move τ π ω → Refs τ π ω → Prop
  | lift (a : Act τ π ω) (e : Executor τ π ω) : a.plain = true →
      (∀ t, a = .wake t → s.hasWaker t = true) →
      (∀ t, a = .wakeElsewhere t → t ∈ s.wakersElsewhere) →
      s.executor.step a = some e → Moved s (.exec a) { s with executor := e }
  | spawn : 0 < s.executor.initCount →
      Moved s (.exec .spawn) (track { s with
        executor := { s.executor with
          tasks := s.executor.tasks ++ [{ generation := s.executor.generation }],
          queue := s.executor.queue ++ [s.executor.tasks.length] } } s.executor.tasks.length)
  | guardKept (n : Nat) : s.executor.initCount = n + 2 →
      Moved s (.exec .dropGuard) { s with executor := { s.executor with initCount := n + 1 } }
  | lastGuard : s.executor.initCount = 1 →
      Moved s (.exec .dropGuard) { s with
        executor := { s.executor with
          initCount := 0, stack := .shutdown s.activeTasks :: s.executor.stack },
        left := s.left ++ s.uncollected }
  | abort (t : TaskId) : s.executor.hasHandle t = true →
      Moved s (.exec (.abort t)) { s with
        executor := s.executor.clear t, cancelled := s.cancelled ++ [t] }
  | abortNext (t : TaskId) (ts : List TaskId) (rest : List Frame) :
      s.executor.stack = .shutdown (t :: ts) :: rest → s.strong t = true →
      Moved s (.exec .abortNext) { s with
        executor := { s.executor.clear t with stack := .shutdown ts :: rest } }
  | notUpgraded (t : TaskId) (ts : List TaskId) (rest : List Frame) :
      s.executor.stack = .shutdown (t :: ts) :: rest → s.strong t = false →
      Moved s (.exec .abortNext) { s with
        executor := { s.executor with stack := .shutdown ts :: rest } }
  | shutdownDone (rest : List Frame) : s.executor.stack = .shutdown [] :: rest →
      Moved s (.exec .abortNext) { s with
        executor := { s.executor with stack := rest }, activeTasks := [] }
  | cloneWaker (t : TaskId) : s.hasWaker t = true →
      Moved s (.cloneWaker t) { s with wakers := t :: s.wakers }
  | dropWaker (t : TaskId) : Moved s (.dropWaker t) { s with wakers := s.wakers.erase t }
  | sendWaker (t : TaskId) : t ∈ s.wakers →
      Moved s (.sendWaker t) { s with
        wakers := s.wakers.erase t, wakersElsewhere := t :: s.wakersElsewhere }
  | returnWaker (t : TaskId) : t ∈ s.wakersElsewhere → s.borrowed t = false →
      Moved s (.returnWaker t) { s with
        wakers := t :: s.wakers, wakersElsewhere := s.wakersElsewhere.erase t }
  | cloneElsewhere (t : TaskId) : t ∈ s.wakersElsewhere →
      Moved s (.cloneElsewhere t) { s with wakersElsewhere := t :: s.wakersElsewhere }
  | dropElsewhere (t : TaskId) : t ∈ s.wakersElsewhere → s.borrowed t = false →
      Moved s (.dropElsewhere t) { s with wakersElsewhere := s.wakersElsewhere.erase t }
  | orphanQueue (t : TaskId) (x : Task τ π ω) : s.executor.tasks[t]? = some x →
      t ∈ s.executor.sending → s.executor.live x.generation = false →
      (x.generation = s.executor.generation → s.executor.shuttingDown = false) →
      Moved s (.orphanQueue t) { s with executor := { s.executor with
        sending := s.executor.sending.erase t,
        queue := s.executor.queue.filter fun t =>
          !s.executor.tasks[t]?.any fun y => y.generation == x.generation,
        destroyed := s.executor.destroyed ++ [x.generation] } }

theorem Moved.of_lift {s s' : Refs τ π ω} {a : Act τ π ω} (hp : a.plain = true)
    (hw : ∀ t, a = .wake t → s.hasWaker t = true)
    (he : ∀ t, a = .wakeElsewhere t → t ∈ s.wakersElsewhere) (h : s.lift a = some s') :
    Moved s (.exec a) s' := by
  simp only [Refs.lift, Option.map_eq_some_iff] at h
  obtain ⟨e, hs, rfl⟩ := h
  exact .lift a e hp hw he hs

theorem Moved.of_dropGuard {s s' : Refs τ π ω} (h : s.dropGuard = some s') :
    Moved s (.exec .dropGuard) s' := by
  unfold Refs.dropGuard at h
  split at h <;> cases h
  · exact .lastGuard ‹_›
  · exact .guardKept _ ‹_›

theorem Moved.of_abortNext {s s' : Refs τ π ω} (h : s.abortNext = some s') :
    Moved s (.exec .abortNext) s' := by
  unfold Refs.abortNext at h
  split at h
  · cases h
    exact .shutdownDone _ ‹_›
  · split at h <;> cases h
    · exact .abortNext _ _ _ ‹_› ‹_›
    · rename_i hst hs
      exact .notUpgraded _ _ _ hst (Bool.eq_false_iff.2 hs)
  · cases h

theorem Moved.of_orphanQueue {s s' : Refs τ π ω} {t : TaskId} (h : s.orphanQueue t = some s') :
    Moved s (.orphanQueue t) s' := by
  unfold Refs.orphanQueue at h
  split at h
  · cases h
  · rename_i x hx
    split at h <;> cases h
    rename_i hg
    exact .orphanQueue t x hx (List.contains_iff_mem.1 hg.1) hg.2.1 hg.2.2.1

/-- **Every move is one of these.** -/
theorem move_cases {s s' : Refs τ π ω} {m : Move τ π ω} (h : s.move m = some s') :
    Moved s m s' := by
  cases m with
  | exec a =>
      cases a with
      | spawn =>
          simp only [move, spawn, Executor.step, Executor.spawn, Option.map_eq_some_iff,
            Option.ite_none_right_eq_some, Option.some.injEq] at h
          obtain ⟨e, ⟨hc, rfl⟩, rfl⟩ := h
          exact .spawn hc
      | dropGuard => exact .of_dropGuard h
      | abort t =>
          simp only [move, abort, Executor.step, Executor.abort, Option.map_eq_some_iff,
            Option.ite_none_right_eq_some, Option.some.injEq] at h
          obtain ⟨e, ⟨ht, rfl⟩, rfl⟩ := h
          exact .abort t ht
      | abortNext => exact .of_abortNext h
      | wake t =>
          simp only [move, Option.ite_none_right_eq_some] at h
          refine .of_lift rfl ?_ (by simp) h.2
          intro k hk
          cases hk
          exact h.1
      | wakeElsewhere t =>
          simp only [move, Option.ite_none_right_eq_some] at h
          refine .of_lift rfl (by simp) ?_ h.2
          intro k hk
          cases hk
          exact List.contains_iff_mem.1 h.1
      | init | enqueue | dispatch | pollReturns | pollHandle | dropHandle | destroyQueue =>
          exact .of_lift rfl (by simp) (by simp) h
  | cloneWaker t =>
      simp only [move, Option.ite_none_right_eq_some, Option.some.injEq] at h
      obtain ⟨hw, rfl⟩ := h
      exact .cloneWaker t hw
  | dropWaker t =>
      simp only [move, Option.ite_none_right_eq_some, Option.some.injEq] at h
      obtain ⟨-, rfl⟩ := h
      exact .dropWaker t
  | sendWaker t =>
      simp only [move, Option.ite_none_right_eq_some, Option.some.injEq] at h
      obtain ⟨hw, rfl⟩ := h
      exact .sendWaker t (List.contains_iff_mem.1 hw)
  | returnWaker t =>
      simp only [move, Option.ite_none_right_eq_some, Option.some.injEq] at h
      obtain ⟨⟨hw, hb⟩, rfl⟩ := h
      exact .returnWaker t (List.contains_iff_mem.1 hw) hb
  | cloneElsewhere t =>
      simp only [move, Option.ite_none_right_eq_some, Option.some.injEq] at h
      obtain ⟨hw, rfl⟩ := h
      exact .cloneElsewhere t (List.contains_iff_mem.1 hw)
  | dropElsewhere t =>
      simp only [move, Option.ite_none_right_eq_some, Option.some.injEq] at h
      obtain ⟨⟨hw, hb⟩, rfl⟩ := h
      exact .dropElsewhere t (List.contains_iff_mem.1 hw) hb
  | orphanQueue t => exact .of_orphanQueue h

/-- A step is a move; beside it only the history of what was spilled changes. -/
theorem step_cases {s s' : Refs τ π ω} {m : Move τ π ω} (h : s.step m = some s') :
    ∃ s₁ l, Moved s m s₁ ∧ s' = { s₁ with spilled := l } := by
  simp only [step, Option.map_eq_some_iff] at h
  obtain ⟨s₁, hm, rfl⟩ := h
  split
  · exact ⟨s₁, _, move_cases hm, rfl⟩
  · exact ⟨s₁, _, move_cases hm, rfl⟩

end Refs

/-! ## What a plain step of the executor leaves alone -/

theorem Task.notify_key (x : Task τ π ω) : x.notify.key = x.key := by
  unfold Task.notify
  split <;> rfl

theorem Task.settle_key (x : Task τ π ω) (p : FuturePoll τ π) :
    (x.settle p).key = x.key := by
  unfold Task.settle
  split
  · exact x.notify_key
  · exact Task.notify_key _

theorem Task.pollHandle_key (x : Task τ π ω) (w : ω) : (x.pollHandle w).1.key = x.key := by
  unfold Task.pollHandle
  split
  · rfl
  · split <;> rfl

theorem Joiner.wake_dropped {j : Joiner ω} {w : Option ω} : j.wake w = .dropped ↔ j = .dropped := by
  cases j <;> cases w <;> simp [Joiner.wake]

theorem Task.notify_dropped {x : Task τ π ω} :
    x.notify.joiner = .dropped ↔ x.joiner = .dropped := by
  unfold Task.notify
  split
  · exact Joiner.wake_dropped
  · rfl

theorem Task.settle_dropped {x : Task τ π ω} {p : FuturePoll τ π} :
    (x.settle p).joiner = .dropped ↔ x.joiner = .dropped := by
  unfold Task.settle
  split
  · exact Task.notify_dropped
  · exact Task.notify_dropped

namespace Executor

theorem hasHandle_iff {s : Executor τ π ω} {t : TaskId} :
    s.hasHandle t = true ↔ ∃ x, s.tasks[t]? = some x ∧ x.joiner ≠ .dropped := by
  unfold hasHandle
  split
  · simp_all
  · rename_i x hx
    split <;> simp_all

/-- A change that brings no handle back. -/
theorem hasHandle_of_update {s : Executor τ π ω} {t k : TaskId} {f : Task τ π ω → Task τ π ω}
    (hf : ∀ x : Task τ π ω, x.joiner = .dropped → (f x).joiner = .dropped)
    (h : (s.update t f).hasHandle k = true) : s.hasHandle k = true := by
  obtain ⟨y, hy, hj⟩ := hasHandle_iff.1 h
  rcases getElem?_update hy with ⟨rfl, x, hx, rfl⟩ | ⟨-, hy⟩
  · exact hasHandle_iff.2 ⟨x, hx, fun hd => hj (hf x hd)⟩
  · exact hasHandle_iff.2 ⟨y, hy, hj⟩

theorem hasHandle_clear {s : Executor τ π ω} {t k : TaskId} :
    (s.clear t).hasHandle k = true ↔ s.hasHandle k = true := by
  constructor
  · exact hasHandle_of_update (s := s.touch t) fun _ h => h
  · intro h
    obtain ⟨x, hx, hj⟩ := hasHandle_iff.1 h
    by_cases hk : k = t
    · subst hk
      exact hasHandle_iff.2 ⟨x.abort, by simp [clear, update, hx], hj⟩
    · exact hasHandle_iff.2 ⟨x, by rw [clear, update, modify_of_ne hk, touch_tasks, hx], hj⟩

section Plain

variable {s e : Executor τ π ω} {a : Act τ π ω}

theorem key_of_plain (hp : a.plain = true) (h : Step s a e) :
    e.tasks.map Task.key = s.tasks.map Task.key := by
  cases h with
  | init | wake | refused | checked | enqueue | lost | destroyQueue => rfl
  | guardKept | lastGuard | spawn | abort | abortNext | shutdownDone => cases hp
  | skip => exact map_modify_eq Task.notify_key _ _
  | answer => exact map_modify_eq (fun x => (x.store _).notify_key) _ _
  | poll => exact map_modify_eq (f := Task.enterFuture) (fun _ => rfl) _ _
  | dropHandle t =>
      exact map_modify_eq (f := fun x : Task τ π ω => { x with joiner := .dropped })
        (fun _ => rfl) _ _
  | returns t p => exact map_modify_eq (fun x => x.settle_key p) _ _
  | pollHandle t w => exact map_modify_eq (fun x => x.pollHandle_key w) _ _

theorem hasHandle_of_plain (hp : a.plain = true) (hs : s.step a = some e) {k : TaskId}
    (hk : e.hasHandle k = true) : s.hasHandle k = true := by
  have h := step_cases hs
  cases h with
  | init | wake | refused | checked | enqueue | lost | destroyQueue => exact hk
  | guardKept | lastGuard | spawn | abort | abortNext | shutdownDone => cases hp
  | skip t =>
      exact hasHandle_of_update (s := { s with queue := s.queue.erase t })
        (fun _ hd => Task.notify_dropped.2 hd) hk
  | answer t x r =>
      exact hasHandle_of_update (s := { s with queue := s.queue.erase t })
        (f := fun x => (x.store r).notify) (fun _ hd => Task.notify_dropped.2 hd) hk
  | poll t =>
      exact hasHandle_of_update (s := touch { s with queue := s.queue.erase t } t)
        (f := Task.enterFuture) (fun _ hd => hd) hk
  | returns t p => exact hasHandle_of_update (fun _ hd => Task.settle_dropped.2 hd) hk
  | pollHandle t w =>
      simp only [step, Executor.pollHandle, Option.ite_none_right_eq_some] at hs
      obtain ⟨y, hy, hj⟩ := hasHandle_iff.1 hk
      rcases getElem?_update hy with ⟨rfl, -⟩ | ⟨-, hy⟩
      · exact hs.1
      · exact hasHandle_iff.2 ⟨y, hy, hj⟩
  | dropHandle t => exact hasHandle_of_update (fun _ _ => rfl) hk

theorem polling_of_plain (hp : a.plain = true) (h : Step s a e) {k : TaskId}
    (hk : e.polling k = true) : s.polling k = true ∨ k ∈ s.queue := by
  rw [polling_iff] at hk ⊢
  cases h with
  | init | wake | refused | checked | enqueue | lost | destroyQueue | skip | answer
  | pollHandle | dropHandle => exact .inl hk
  | guardKept | lastGuard | spawn | abort | abortNext | shutdownDone => cases hp
  | poll t x hx hq =>
      rcases List.mem_cons.1 hk with hk | hk
      · cases hk
        exact .inr hq
      · exact .inl hk
  | returns t p rest hst =>
      rw [hst]
      exact .inl (List.mem_cons_of_mem _ hk)

theorem sending_of_plain (hp : a.plain = true) (h : Step s a e) {k : TaskId}
    (hk : k ∈ e.sending) : k ∈ s.sending ∨ a = .wakeElsewhere k := by
  cases h with
  | init | wake | refused | destroyQueue | skip | answer | poll | returns | pollHandle
  | dropHandle => exact .inl hk
  | guardKept | lastGuard | spawn | abort | abortNext | shutdownDone => cases hp
  | checked t =>
      rcases List.mem_append.1 hk with hk | hk
      · exact .inl hk
      · exact .inr (List.mem_singleton.1 hk ▸ rfl)
  | enqueue | lost => exact .inl (List.mem_of_mem_erase hk)

theorem queue_of_plain (hp : a.plain = true) (hs : s.step a = some e) {k : TaskId}
    (hk : k ∈ e.queue) : k ∈ s.queue ∨ k ∈ s.sending ∨ a = .wake k := by
  have h := step_cases hs
  cases h with
  | init | refused | checked | lost | returns | pollHandle | dropHandle => exact .inl hk
  | guardKept | lastGuard | spawn | abort | abortNext | shutdownDone => cases hp
  | skip | answer | poll => exact .inl (List.mem_of_mem_erase hk)
  | destroyQueue => exact .inl (List.mem_of_mem_filter hk)
  | wake t =>
      rcases List.mem_append.1 hk with hk | hk
      · exact .inl hk
      · exact .inr (.inr (List.mem_singleton.1 hk ▸ rfl))
  | enqueue t x hx =>
      rcases List.mem_append.1 hk with hk | hk
      · exact .inl hk
      · cases List.mem_singleton.1 hk
        simp only [step, Executor.enqueue, hx, Option.ite_none_right_eq_some] at hs
        exact .inr (.inl (List.contains_iff_mem.1 hs.1))

end Plain

end Executor

namespace Refs

/-! ## References are not regained -/

/-- What can keep a task. -/
inductive Held (s : Refs τ π ω) (t : TaskId) : Prop
  | handle : s.executor.hasHandle t = true → Held s t
  | queued : t ∈ s.executor.queue → Held s t
  | sending : t ∈ s.executor.sending → Held s t
  | polling : s.executor.polling t = true → Held s t
  | waker : t ∈ s.wakers → Held s t
  | elsewhere : t ∈ s.wakersElsewhere → Held s t

theorem strong_iff {s : Refs τ π ω} {t : TaskId} : s.strong t = true ↔ s.Held t := by
  simp only [strong, Bool.or_eq_true, List.contains_iff_mem]
  constructor
  · rintro (((((h | h) | h) | h) | h) | h)
    exacts [.handle h, .queued h, .sending h, .polling h, .waker h, .elsewhere h]
  · intro h
    cases h with
    | handle h | queued h | sending h | polling h | waker h | elsewhere h => simp [h]

theorem Held.strong {s : Refs τ π ω} {t : TaskId} (h : s.Held t) : s.strong t = true :=
  strong_iff.2 h

theorem strong_of_hasWaker {s : Refs τ π ω} {t : TaskId} (h : s.hasWaker t = true) :
    s.strong t = true := by
  simp only [hasWaker, Bool.or_eq_true, List.contains_iff_mem] at h
  rcases h with h | h
  exacts [Held.strong (.polling h), Held.strong (.waker h)]

theorem strong_of_lift {s : Refs τ π ω} {a : Act τ π ω} {e : Executor τ π ω}
    (hp : a.plain = true) (hw : ∀ t, a = .wake t → s.hasWaker t = true)
    (he : ∀ t, a = .wakeElsewhere t → t ∈ s.wakersElsewhere)
    (hs : s.executor.step a = some e) {t : TaskId}
    (ht : strong { s with executor := e } t = true) : s.strong t = true := by
  have hst := Executor.step_cases hs
  cases strong_iff.1 ht with
  | handle h => exact Held.strong (.handle (Executor.hasHandle_of_plain hp hs h))
  | queued h =>
      rcases Executor.queue_of_plain hp hs h with h | h | h
      · exact Held.strong (.queued h)
      · exact Held.strong (.sending h)
      · exact strong_of_hasWaker (hw t h)
  | sending h =>
      rcases Executor.sending_of_plain hp hst h with h | h
      · exact Held.strong (.sending h)
      · exact Held.strong (.elsewhere (he t h))
  | polling h =>
      rcases Executor.polling_of_plain hp hst h with h | h
      · exact Held.strong (.polling h)
      · exact Held.strong (.queued h)
  | waker h => exact Held.strong (.waker h)
  | elsewhere h => exact Held.strong (.elsewhere h)

/-- Growing the task table leaves the older tasks alone. -/
theorem hasHandle_spawned {s : Executor τ π ω} {x : Task τ π ω} {t : TaskId}
    {q : List TaskId} (hk : t < s.tasks.length)
    (h : ({ s with tasks := s.tasks ++ [x], queue := q } : Executor τ π ω).hasHandle t = true) :
    s.hasHandle t = true := by
  obtain ⟨y, hy, hj⟩ := Executor.hasHandle_iff.1 h
  rw [List.getElem?_append_left hk] at hy
  exact Executor.hasHandle_iff.2 ⟨y, hy, hj⟩

/-- Fewer references in the executor, and the same wakers. -/
theorem strong_of_executor {s s' : Refs τ π ω} {t : TaskId} (ht : s'.strong t = true)
    (hh : s'.executor.hasHandle t = true → s.executor.hasHandle t = true)
    (hq : t ∈ s'.executor.queue → t ∈ s.executor.queue)
    (hs : t ∈ s'.executor.sending → t ∈ s.executor.sending)
    (hp : Frame.polling t ∈ s'.executor.stack → Frame.polling t ∈ s.executor.stack)
    (hw : s'.wakers = s.wakers) (he : s'.wakersElsewhere = s.wakersElsewhere) :
    s.strong t = true := by
  cases strong_iff.1 ht with
  | handle h => exact Held.strong (.handle (hh h))
  | queued h => exact Held.strong (.queued (hq h))
  | sending h => exact Held.strong (.sending (hs h))
  | polling h =>
      exact Held.strong (.polling (Executor.polling_iff.2 (hp (Executor.polling_iff.1 h))))
  | waker h => exact Held.strong (.waker (hw ▸ h))
  | elsewhere h => exact Held.strong (.elsewhere (he ▸ h))

/-- Wakers only of tasks that are held. -/
theorem strong_of_wakers {s : Refs τ π ω} {t : TaskId} {ws es : List TaskId}
    (h : t ∈ ws ∨ t ∈ es → s.strong t = true)
    (ht : strong { s with wakers := ws, wakersElsewhere := es } t = true) :
    s.strong t = true := by
  cases strong_iff.1 ht with
  | handle ht => exact Held.strong (.handle ht)
  | queued ht => exact Held.strong (.queued ht)
  | sending ht => exact Held.strong (.sending ht)
  | polling ht => exact Held.strong (.polling ht)
  | waker ht => exact h (.inl ht)
  | elsewhere ht => exact h (.inr ht)

theorem strong_of_mem_wakers {s : Refs τ π ω} {t : TaskId}
    (h : t ∈ s.wakers ∨ t ∈ s.wakersElsewhere) : s.strong t = true :=
  h.elim (fun h => Held.strong (.waker h)) fun h => Held.strong (.elsewhere h)

/-- A known task that nobody holds stays that way. -/
theorem strong_of_moved {s s' : Refs τ π ω} {m : Move τ π ω} (h : Moved s m s') {t : TaskId}
    (hk : t < s.executor.tasks.length) (ht : s'.strong t = true) : s.strong t = true := by
  cases h with
  | lift a e hp hw he hs => exact strong_of_lift hp hw he hs ht
  | spawn =>
      refine strong_of_executor ht (hasHandle_spawned hk) ?_ id id rfl rfl
      intro hq
      rcases List.mem_append.1 hq with hq | hq
      · exact hq
      · exact absurd hk (List.mem_singleton.1 hq ▸ Nat.lt_irrefl _)
  | guardKept => exact strong_of_executor ht id id id id rfl rfl
  | lastGuard => exact strong_of_executor ht id id id (by simp) rfl rfl
  | abort k => exact strong_of_executor ht Executor.hasHandle_clear.1 id id id rfl rfl
  | abortNext k ts rest hst =>
      exact strong_of_executor ht Executor.hasHandle_clear.1 id id (by simp [hst]) rfl rfl
  | notUpgraded k ts rest hst | shutdownDone rest hst =>
      exact strong_of_executor ht id id id (by simp [hst]) rfl rfl
  | cloneWaker k hw =>
      refine strong_of_wakers ?_ ht
      rintro (h | h)
      · rcases List.mem_cons.1 h with rfl | h
        · exact strong_of_hasWaker hw
        · exact strong_of_mem_wakers (.inl h)
      · exact strong_of_mem_wakers (.inr h)
  | dropWaker k =>
      exact strong_of_wakers (fun h => strong_of_mem_wakers (h.imp_left List.mem_of_mem_erase)) ht
  | sendWaker k hw =>
      refine strong_of_wakers ?_ ht
      rintro (h | h)
      · exact strong_of_mem_wakers (.inl (List.mem_of_mem_erase h))
      · rcases List.mem_cons.1 h with rfl | h
        · exact strong_of_mem_wakers (.inl hw)
        · exact strong_of_mem_wakers (.inr h)
  | returnWaker k hw =>
      refine strong_of_wakers ?_ ht
      rintro (h | h)
      · rcases List.mem_cons.1 h with rfl | h
        · exact strong_of_mem_wakers (.inr hw)
        · exact strong_of_mem_wakers (.inl h)
      · exact strong_of_mem_wakers (.inr (List.mem_of_mem_erase h))
  | cloneElsewhere k hw =>
      refine strong_of_wakers ?_ ht
      rintro (h | h)
      · exact strong_of_mem_wakers (.inl h)
      · rcases List.mem_cons.1 h with rfl | h
        · exact strong_of_mem_wakers (.inr hw)
        · exact strong_of_mem_wakers (.inr h)
  | dropElsewhere k hw =>
      exact strong_of_wakers (fun h => strong_of_mem_wakers (h.imp_right List.mem_of_mem_erase)) ht
  | orphanQueue k x =>
      exact strong_of_executor ht id List.mem_of_mem_filter List.mem_of_mem_erase id rfl rfl

end Refs

end Wxp.Tasks
