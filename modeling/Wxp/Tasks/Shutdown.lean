import Wxp.Tasks.References

/-!
# Tasks — Shutdown

`active_tasks` "exists purely so `deinit`/`shutdown` can abort stragglers". The abort
loop of `shutdown` reaches every task that is still held (`Tracked`): the list is
compacted by dropping only tasks that nobody can upgrade. It makes no difference
between a straggler and a task that has finished, and `JoinHandle::poll` looks at
`aborted` before it looks at `value`. So a result that was there when the last guard
was dropped is lost, unless it is collected before the loop gets to its task.
-/

namespace Wxp.Tasks

variable {τ π ω : Type}

namespace Refs

/-- The `JoinHandle` of `t` is still to give the result that was left in `t`. -/
def owed (s : Refs τ π ω) (t : TaskId) : Bool :=
  s.executor.hasHandle t && !s.executor.collected t && !s.cancelled.contains t

/-- The results left at the drop of the last guard come out of their handles. -/
def KeepsResults (s : Refs τ π ω) : Prop :=
  ∀ p ∈ s.left, s.owed p.1 = true → ∀ x, s.executor.tasks[p.1]? = some x →
    ∀ w, (x.pollHandle w).2 = some p.2

/-- After the shutdown of its generation the future of a task is gone, no closure polls
it again, and the handle of a task that had no result yet gives `Aborted`. -/
def StragglersAborted (s : Refs τ π ω) : Prop :=
  s.executor.shuttingDown = false → ∀ t x, s.executor.tasks[t]? = some x →
    s.executor.live x.generation = false →
    (s.strong t = true → x.future = false) ∧
    (∀ e, s.executor.step (.dispatch t) = some e → e.stack = s.executor.stack) ∧
    (s.executor.hasHandle t = true → (∀ p ∈ s.left, p.1 ≠ t) →
      ∀ w, (x.pollHandle w).2 = some (.error .aborted))

/-- The task that the abort loop takes up next. -/
def nextAborted (s : Refs τ π ω) : Option TaskId :=
  match s.executor.stack with
  | .shutdown (t :: _) :: _ => some t
  | _ => none

/-- The abort loop does not take up a task whose result is still owed. -/
def SparesResults (s : Refs τ π ω) : Move τ π ω → Prop
  | .exec .abortNext => ∀ t ∈ s.nextAborted, ∀ p ∈ s.left, p.1 = t → s.owed t = false
  | _ => True

instance (s : Refs τ π ω) (m : Move τ π ω) : Decidable (s.SparesResults m) := by
  unfold SparesResults
  split <;> infer_instance

end Refs

/-! ## What holds in every run -/

/-- The slot is emptied by `abort` alone, and `Aborted` is never stored. -/
structure Task.Intact (x : Task τ π ω) : Prop where
  cell : x.future = !x.aborted
  value : x.value ≠ some (.error .aborted)

theorem Task.Intact.notify {x : Task τ π ω} (h : x.Intact) : x.notify.Intact :=
  ⟨by simpa using h.cell, by simpa using h.value⟩

theorem Task.Intact.settle {x : Task τ π ω} (h : x.Intact) (p : FuturePoll τ π) :
    (x.settle p).Intact := by
  unfold Task.settle
  split
  · exact h.notify
  · rename_i r hr
    refine Task.Intact.notify ⟨h.cell, ?_⟩
    -- the poll of a future ends with a value or a panic
    cases p <;> cases hr <;> simp [Task.store]

theorem Task.Intact.pollHandle {x : Task τ π ω} (h : x.Intact) (w : ω) :
    (x.pollHandle w).1.Intact := by
  unfold Task.pollHandle
  split
  · exact ⟨h.cell, h.value⟩
  · split
    · exact ⟨h.cell, by simp⟩
    · exact ⟨h.cell, h.value⟩

theorem Task.Intact.pollEarly {x : Task τ π ω} (h : x.Intact) (ha : x.available = false) :
    x.pollEarly = none := by
  simp only [Task.available, Bool.or_eq_false_iff] at ha
  simp [Task.pollEarly, h.cell, ha.2]

namespace Executor

def Intact (s : Executor τ π ω) : Prop :=
  ∀ (t : TaskId) (x : Task τ π ω), s.tasks[t]? = some x → x.Intact

theorem Intact.step {s s' : Executor τ π ω} {a : Act τ π ω} (hi : s.Intact) (h : Step s a s') :
    s'.Intact := by
  cases h with
  | init | guardKept | lastGuard | wake | refused | checked | enqueue | lost | shutdownDone
  | destroyQueue => exact hi
  | spawn =>
      intro k y hy
      rcases getElem?_append_new hy with hy | ⟨-, rfl⟩
      · exact hi k y hy
      · exact ⟨rfl, by simp⟩
  | skip t => exact forall_update hi fun _ hx => hx.notify
  | answer t x r hx hq ha hr =>
      rw [(hi t x hx).pollEarly ha] at hr
      cases hr
  | poll t => exact forall_update (f := Task.enterFuture) hi fun _ hx => ⟨hx.cell, hx.value⟩
  | returns t p => exact forall_update hi fun _ hx => hx.settle p
  | pollHandle t w => exact forall_update hi fun _ hx => hx.pollHandle w
  | dropHandle t =>
      exact forall_update (f := fun x => { x with joiner := .dropped }) hi
        fun _ hx => ⟨hx.cell, hx.value⟩
  | abort t | abortNext t =>
      exact forall_update (f := Task.abort) hi fun _ hx => ⟨rfl, hx.value⟩

section Plain

variable {s e : Executor τ π ω} {a : Act τ π ω}

theorem exists_key_of_plain (hp : a.plain = true) (h : Step s a e) {t : TaskId} {y : Task τ π ω}
    (hy : e.tasks[t]? = some y) : ∃ x, s.tasks[t]? = some x ∧ x.key = y.key := by
  have hk : (s.tasks.map Task.key)[t]? = some y.key := by
    rw [← key_of_plain hp h, List.getElem?_map, hy]
    rfl
  rw [List.getElem?_map, Option.map_eq_some_iff] at hk
  exact hk

theorem shutdown_of_plain (hp : a.plain = true) (h : Step s a e) {ts : List TaskId} :
    Frame.shutdown ts ∈ e.stack ↔ Frame.shutdown ts ∈ s.stack := by
  cases h with
  | init | wake | refused | checked | enqueue | lost | destroyQueue | skip | answer
  | pollHandle | dropHandle => rfl
  | guardKept | lastGuard | spawn | abort | abortNext | shutdownDone => cases hp
  | poll => simp
  | returns t p rest hst => simp [hst]

theorem generation_of_plain (hp : a.plain = true) (h : Step s a e) :
    s.generation ≤ e.generation ∧
    (0 < s.initCount → e.generation = s.generation ∧ 0 < e.initCount) ∧
    (s.shuttingDown = true → e.initCount = s.initCount) := by
  cases h with
  | wake | refused | checked | enqueue | lost | destroyQueue | skip | answer | poll | returns
  | pollHandle | dropHandle => exact ⟨Nat.le_refl _, fun h => ⟨rfl, h⟩, fun _ => rfl⟩
  | guardKept | lastGuard | spawn | abort | abortNext | shutdownDone => cases hp
  | init hd =>
      refine ⟨?_, ?_, ?_⟩
      · dsimp only
        split
        · exact Nat.le_succ _
        · exact Nat.le_refl _
      · intro hc
        simp [Nat.ne_of_gt hc]
      · rw [hd]
        nofun

end Plain

theorem shuttingDown_iff {s : Executor τ π ω} :
    s.shuttingDown = true ↔ ∃ ts, Frame.shutdown ts ∈ s.stack := by
  simp only [shuttingDown, List.any_eq_true]
  constructor
  · rintro ⟨f, hf, hs⟩
    cases f with
    | shutdown ts => exact ⟨ts, hf⟩
    | polling t => cases hs
  · rintro ⟨ts, hts⟩
    exact ⟨_, hts, rfl⟩

end Executor

namespace Refs

/-- A task that can be upgraded and was not aborted is in `active_tasks` of the run loop
that is up, or the abort loop has still to get to it. -/
structure Tracked (s : Refs τ π ω) : Prop where
  held : ∀ t x, s.executor.tasks[t]? = some x → s.strong t = true → x.aborted = false →
    (s.executor.live x.generation = true ∧ t ∈ s.activeTasks) ∨
      ∃ ts, Frame.shutdown ts ∈ s.executor.stack ∧ t ∈ ts
  down : s.executor.shuttingDown = true → s.executor.initCount = 0
  past : ∀ (t : TaskId) x, s.executor.tasks[t]? = some x → x.generation ≤ s.executor.generation
  intact : s.executor.Intact

/-- A task stays in the frames of the abort loop until the loop gets to it. -/
theorem mem_shutdown_of_ne {rest : List Frame} {t k : TaskId} {ts : List TaskId}
    (h : ∃ ts', Frame.shutdown ts' ∈ .shutdown (k :: ts) :: rest ∧ t ∈ ts') (hne : t ≠ k) :
    ∃ ts', Frame.shutdown ts' ∈ .shutdown ts :: rest ∧ t ∈ ts' := by
  obtain ⟨ts', hts, hm⟩ := h
  rcases List.mem_cons.1 hts with heq | hts
  · cases heq
    exact ⟨ts, List.mem_cons_self, (List.mem_cons.1 hm).resolve_left hne⟩
  · exact ⟨ts', List.mem_cons_of_mem _ hts, hm⟩

theorem mem_track {s : Refs τ π ω} {t k : TaskId} (h : t ∈ s.activeTasks ∨ t = k)
    (hs : s.strong t = true) : t ∈ (s.track k).activeTasks := by
  have ht : t ∈ s.activeTasks ++ [k] := by simpa using h
  unfold track
  dsimp only
  split
  · exact List.mem_filter.2 ⟨ht, hs⟩
  · exact ht

/-- Only references come and go. -/
theorem Tracked.same {s s' : Refs τ π ω} (hi : s.Tracked)
    (hs : ∀ t < s.executor.tasks.length, s'.strong t = true → s.strong t = true)
    (ht : s'.executor.tasks = s.executor.tasks) (hg : s'.executor.generation = s.executor.generation)
    (hc : s'.executor.initCount = s.executor.initCount) (hk : s'.executor.stack = s.executor.stack)
    (ha : s'.activeTasks = s.activeTasks) : s'.Tracked := by
  refine ⟨?_, ?_, ?_, ?_⟩
  · intro t x hx hst hab
    rw [ht] at hx
    have hlt : t < s.executor.tasks.length := (List.getElem?_eq_some_iff.1 hx).1
    have := hi.held t x hx (hs t hlt hst) hab
    rwa [Executor.live, hg, hc, hk, ha]
  · rw [Executor.shuttingDown, hk, hc]
    exact hi.down
  · rw [ht, hg]
    exact hi.past
  · rw [Executor.Intact, ht]
    exact hi.intact

theorem Tracked.lift {s : Refs τ π ω} {a : Act τ π ω} {e : Executor τ π ω} (hi : s.Tracked)
    (hp : a.plain = true) (h : Executor.Step s.executor a e)
    (hs : ∀ t < s.executor.tasks.length,
      strong { s with executor := e } t = true → s.strong t = true) :
    Tracked { s with executor := e } := by
  obtain ⟨hg, hc, hd⟩ := Executor.generation_of_plain hp h
  refine ⟨?_, ?_, ?_, hi.intact.step h⟩
  · intro t y hy hst hab
    obtain ⟨x, hx, hk⟩ := Executor.exists_key_of_plain hp h hy
    simp only [Task.key, Prod.mk.injEq] at hk
    have hlt : t < s.executor.tasks.length := (List.getElem?_eq_some_iff.1 hx).1
    rcases hi.held t x hx (hs t hlt hst) (hk.2.1.trans hab) with ⟨hl, hm⟩ | ⟨ts, hts, hm⟩
    · simp only [Executor.live, Bool.and_eq_true, beq_iff_eq, decide_eq_true_eq] at hl
      have hc := hc hl.2
      refine .inl ⟨?_, hm⟩
      simp [Executor.live, ← hk.1, hl.1, hc.1, hc.2]
    · exact .inr ⟨ts, (Executor.shutdown_of_plain hp h).2 hts, hm⟩
  · intro hsd
    obtain ⟨ts, hts⟩ := Executor.shuttingDown_iff.1 hsd
    have hsd : s.executor.shuttingDown = true :=
      Executor.shuttingDown_iff.2 ⟨ts, (Executor.shutdown_of_plain hp h).1 hts⟩
    exact (hd hsd).trans (hi.down hsd)
  · intro t y hy
    obtain ⟨x, hx, hk⟩ := Executor.exists_key_of_plain hp h hy
    simp only [Task.key, Prod.mk.injEq] at hk
    exact hk.1 ▸ Nat.le_trans (hi.past t x hx) hg

/-- The task of an aborted slot needs nobody to reach it. -/
theorem Tracked.clear {s s' : Refs τ π ω} {k : TaskId} (hi : s.Tracked)
    (hs : ∀ t < s.executor.tasks.length, s'.strong t = true → s.strong t = true)
    (ht : s'.executor.tasks = (s.executor.clear k).tasks)
    (hg : s'.executor.generation = s.executor.generation)
    (hc : s'.executor.initCount = s.executor.initCount)
    (hk : ∀ t, t ≠ k → (∃ ts, Frame.shutdown ts ∈ s.executor.stack ∧ t ∈ ts) →
      ∃ ts, Frame.shutdown ts ∈ s'.executor.stack ∧ t ∈ ts)
    (hd : s'.executor.shuttingDown = true → s.executor.shuttingDown = true)
    (ha : s'.activeTasks = s.activeTasks) : s'.Tracked := by
  refine ⟨?_, ?_, ?_, ?_⟩
  · intro t y hy hst hab
    rw [ht] at hy
    rcases Executor.getElem?_update hy with ⟨rfl, x, hx, rfl⟩ | ⟨hne, hx⟩
    · cases hab
    · have hlt : t < s.executor.tasks.length := (List.getElem?_eq_some_iff.1 hx).1
      rw [Executor.live, hg, hc, ha]
      exact (hi.held t y hx (hs t hlt hst) hab).imp_right (hk t hne)
  · intro hsd
    rw [hc]
    exact hi.down (hd hsd)
  · intro t y hy
    rw [ht] at hy
    rw [hg]
    exact Executor.forall_update (f := Task.abort)
      (P := fun y => y.generation ≤ s.executor.generation) hi.past (fun _ hx => hx) t y hy
  · intro t y hy
    rw [ht] at hy
    exact Executor.forall_update (f := Task.abort) hi.intact
      (fun x hx => ⟨rfl, hx.value⟩) t y hy

theorem Tracked.spawn {s : Refs τ π ω} (hi : s.Tracked) (hc : 0 < s.executor.initCount)
    {s' : Refs τ π ω} (hs : ∀ t < s.executor.tasks.length, s'.strong t = true → s.strong t = true)
    (h : s' = track { s with
      executor := { s.executor with
        tasks := s.executor.tasks ++ [{ generation := s.executor.generation }],
        queue := s.executor.queue ++ [s.executor.tasks.length] } } s.executor.tasks.length) :
    s'.Tracked := by
  subst h
  refine ⟨?_, hi.down, ?_, hi.intact.step (.spawn hc)⟩
  · intro t y hy hst hab
    rcases getElem?_append_new hy with hy | ⟨ht, rfl⟩
    · have hlt : t < s.executor.tasks.length := (List.getElem?_eq_some_iff.1 hy).1
      refine (hi.held t y hy (hs t hlt hst) hab).imp_left ?_
      rintro ⟨hl, hm⟩
      exact ⟨hl, mem_track (.inl hm) hst⟩
    · exact .inl ⟨by simp [Executor.live, track, hc], mem_track (.inr ht) hst⟩
  · intro t y hy
    rcases getElem?_append_new hy with hy | ⟨-, rfl⟩
    · exact hi.past t y hy
    · exact Nat.le_refl _

theorem Tracked.moved {s s' : Refs τ π ω} {m : Move τ π ω} (hi : s.Tracked)
    (h : Moved s m s') : s'.Tracked := by
  have hs : ∀ t < s.executor.tasks.length, s'.strong t = true → s.strong t = true :=
    fun t hlt hst => strong_of_moved h hlt hst
  cases h with
  | lift a e hp hw he hst => exact hi.lift hp (Executor.step_cases hst) hs
  | spawn hc => exact hi.spawn hc hs rfl
  | guardKept n hn =>
      refine ⟨?_, ?_, hi.past, hi.intact⟩
      · intro t x hx hst hab
        refine (hi.held t x hx (hs t (List.getElem?_eq_some_iff.1 hx).1 hst) hab).imp_left ?_
        simp [Executor.live, hn]
      · intro hd
        have := hi.down hd
        omega
  | lastGuard h1 =>
      refine ⟨?_, fun _ => rfl, hi.past, hi.intact⟩
      intro t x hx hst hab
      -- what was in `active_tasks` is in the new frame now
      rcases hi.held t x hx (hs t (List.getElem?_eq_some_iff.1 hx).1 hst) hab with
        ⟨-, hm⟩ | ⟨ts, hts, hm⟩
      · exact .inr ⟨s.activeTasks, List.mem_cons_self, hm⟩
      · exact .inr ⟨ts, List.mem_cons_of_mem _ hts, hm⟩
  | abort k => exact hi.clear hs rfl rfl rfl (fun _ _ h => h) id rfl
  | abortNext k ts rest hst =>
      refine hi.clear (k := k) hs rfl rfl rfl ?_ ?_ rfl
      · rintro t hne hm
        exact mem_shutdown_of_ne (hst ▸ hm) hne
      · intro _
        exact Executor.shuttingDown_iff.2 ⟨_, hst ▸ List.mem_cons_self⟩
  | notUpgraded k ts rest hst hk =>
      refine ⟨?_, ?_, hi.past, hi.intact⟩
      · intro t x hx hstr hab
        have hstr := hs t (List.getElem?_eq_some_iff.1 hx).1 hstr
        have hne : t ≠ k := by
          rintro rfl
          rw [hk] at hstr
          cases hstr
        exact (hi.held t x hx hstr hab).imp_right fun hm => mem_shutdown_of_ne (hst ▸ hm) hne
      · intro _
        exact hi.down (Executor.shuttingDown_iff.2 ⟨_, hst ▸ List.mem_cons_self⟩)
  | shutdownDone rest hst =>
      have hd : s.executor.initCount = 0 :=
        hi.down (Executor.shuttingDown_iff.2 ⟨_, hst ▸ List.mem_cons_self⟩)
      refine ⟨?_, fun _ => hd, hi.past, hi.intact⟩
      intro t x hx hstr hab
      rcases hi.held t x hx (hs t (List.getElem?_eq_some_iff.1 hx).1 hstr) hab with
        ⟨hl, -⟩ | ⟨ts, hts, hm⟩
      · simp [Executor.live, hd] at hl
      · rw [hst] at hts
        rcases List.mem_cons.1 hts with heq | hts
        · cases heq
          cases hm
        · exact .inr ⟨ts, hts, hm⟩
  | cloneWaker | dropWaker | sendWaker | returnWaker | cloneElsewhere | dropElsewhere
  | orphanQueue => exact hi.same hs rfl rfl rfl rfl rfl

theorem Tracked.step {s s' : Refs τ π ω} {m : Move τ π ω} (hi : s.Tracked)
    (h : s.step m = some s') : s'.Tracked := by
  obtain ⟨s₁, l, hm, rfl⟩ := step_cases h
  obtain ⟨held, down, past, intact⟩ := hi.moved hm
  exact ⟨held, down, past, intact⟩

theorem tracked_of_reachable {s : Refs τ π ω} (h : (refsSystem τ π ω).Reachable s) : s.Tracked :=
  h.invariant ⟨by simp [refsSystem], nofun, by simp [refsSystem],
    by simp [refsSystem, Executor.Intact]⟩ fun _ _ _ _ hi hst => hi.step hst

/-- Whoever still holds a task after the shutdown of its generation holds an aborted one. -/
theorem Tracked.aborted {s : Refs τ π ω} (hi : s.Tracked)
    (hd : s.executor.shuttingDown = false) {t : TaskId} {x : Task τ π ω}
    (hx : s.executor.tasks[t]? = some x) (hl : s.executor.live x.generation = false)
    (hst : s.strong t = true) : x.aborted = true := by
  by_contra hab
  rcases hi.held t x hx hst (Bool.eq_false_iff.2 hab) with ⟨hl', -⟩ | ⟨ts, hts, -⟩
  · rw [hl] at hl'
    cases hl'
  · rw [Executor.shuttingDown_iff.2 ⟨ts, hts⟩] at hd
    cases hd

theorem Tracked.stragglersAborted {s : Refs τ π ω} (hi : s.Tracked) : s.StragglersAborted := by
  intro hd t x hx hl
  refine ⟨?_, ?_, ?_⟩
  · intro hst
    rw [(hi.intact t x hx).cell, hi.aborted hd hx hl hst]
    rfl
  · intro e he
    -- a queued closure of an aborted task only notifies
    have h := Executor.step_cases he
    cases h with
    | refused | skip | answer => rfl
    | poll _ x' hx' hq ha =>
        rw [hx] at hx'
        cases hx'
        have hab := hi.aborted hd hx hl (Held.strong (.queued hq))
        simp [Task.available, hab] at ha
  · intro hh _ w
    have hab := hi.aborted hd hx hl (Held.strong (.handle hh))
    simp [Task.pollHandle, hab]

end Refs

/-! ## The results that were left -/

namespace Executor

/-- A plain step leaves a result in its task until the `JoinHandle` takes it or goes. -/
theorem kept_of_plain {s e : Executor τ π ω} {a : Act τ π ω} (hp : a.plain = true)
    (h : Step s a e) {t : TaskId} {x y : Task τ π ω} {r : JoinResult τ π}
    (hx : s.tasks[t]? = some x) (hv : x.value = some r) (hab : x.aborted = false)
    (hpol : s.polling t = false) (hy : e.tasks[t]? = some y) (hc : y.collected = false)
    (hj : y.joiner ≠ .dropped) :
    y.value = some r ∧ e.polling t = false := by
  have hav : x.available = true := by simp [Task.available, hv]
  cases h with
  | init | wake | refused | checked | enqueue | lost | destroyQueue =>
      cases hx.symm.trans hy
      exact ⟨hv, hpol⟩
  | guardKept | lastGuard | spawn | abort | abortNext | shutdownDone => cases hp
  | skip k =>
      rcases getElem?_update hy with ⟨rfl, x', hx', rfl⟩ | ⟨-, hy⟩
      · cases hx.symm.trans hx'
        exact ⟨x.notify_value.trans hv, hpol⟩
      · cases hx.symm.trans hy
        exact ⟨hv, hpol⟩
  | answer k x' r' hx' hq ha =>
      rcases getElem?_update hy with ⟨rfl, -⟩ | ⟨-, hy⟩
      · cases hx.symm.trans hx'
        rw [hav] at ha
        cases ha
      · cases hx.symm.trans hy
        exact ⟨hv, hpol⟩
  | poll k x' hx' hq ha =>
      have hne : t ≠ k := by
        rintro rfl
        cases hx.symm.trans hx'
        rw [hav] at ha
        cases ha
      rcases getElem?_update (f := Task.enterFuture) hy with ⟨rfl, -⟩ | ⟨-, hy⟩
      · exact absurd rfl hne
      · cases hx.symm.trans hy
        refine ⟨hv, ?_⟩
        rw [polling_eq_false] at hpol ⊢
        simpa [hne] using hpol
  | returns k p rest hst =>
      rw [polling_eq_false, hst] at hpol
      have hne : t ≠ k := by
        rintro rfl
        exact hpol List.mem_cons_self
      rcases getElem?_update hy with ⟨rfl, -⟩ | ⟨-, hy⟩
      · exact absurd rfl hne
      · cases hx.symm.trans hy
        exact ⟨hv, polling_eq_false.2 fun hm => hpol (List.mem_cons_of_mem _ hm)⟩
  | pollHandle k w =>
      rcases getElem?_update hy with ⟨rfl, x', hx', rfl⟩ | ⟨-, hy⟩
      · cases hx.symm.trans hx'
        simp [Task.pollHandle, hab, hv] at hc
      · cases hx.symm.trans hy
        exact ⟨hv, hpol⟩
  | dropHandle k =>
      rcases getElem?_update (f := fun x => { x with joiner := .dropped }) hy with
        ⟨rfl, x', hx', rfl⟩ | ⟨-, hy⟩
      · exact absurd rfl hj
      · cases hx.symm.trans hy
        exact ⟨hv, hpol⟩

theorem collected_of_update {s : Executor τ π ω} {t k : TaskId}
    {f : Task τ π ω → Task τ π ω}
    (hf : ∀ x : Task τ π ω, (f x).collected = false → x.collected = false)
    (h : (s.update t f).collected k = false) : s.collected k = false := by
  by_cases hk : k = t
  · subst hk
    unfold collected at h ⊢
    cases hx : s.tasks[k]? with
    | none => rfl
    | some x =>
        simp only [update, List.getElem?_modify_eq, hx] at h
        exact hf x h
  · unfold collected at h ⊢
    rwa [update, modify_of_ne hk] at h

theorem collected_of_plain {s e : Executor τ π ω} {a : Act τ π ω} (hp : a.plain = true)
    (h : Step s a e) {t : TaskId} (hc : e.collected t = false) : s.collected t = false := by
  cases h with
  | init | wake | refused | checked | enqueue | lost | destroyQueue => exact hc
  | guardKept | lastGuard | spawn | abort | abortNext | shutdownDone => cases hp
  | skip k => exact collected_of_update (fun x h => x.notify_collected ▸ h) hc
  | answer k x r =>
      exact collected_of_update (f := fun x => (x.store r).notify)
        (fun x h => (x.store r).notify_collected ▸ h) hc
  | poll k => exact collected_of_update (f := Task.enterFuture) (fun _ h => h) hc
  | returns k p =>
      refine collected_of_update (fun x h => ?_) hc
      unfold Task.settle at h
      split at h
      · exact x.notify_collected ▸ h
      · exact Task.notify_collected _ ▸ h
  | pollHandle k w =>
      refine collected_of_update (fun x h => ?_) hc
      unfold Task.pollHandle at h
      split at h
      · exact h
      · split at h
        · cases h
        · exact h
  | dropHandle k =>
      exact collected_of_update (f := fun x => { x with joiner := .dropped }) (fun _ h => h) hc

end Executor

namespace Refs

theorem owed_iff {s : Refs τ π ω} {t : TaskId} : s.owed t = true ↔
    s.executor.hasHandle t = true ∧ s.executor.collected t = false ∧ t ∉ s.cancelled := by
  simp [owed, and_assoc]

theorem mem_uncollected {s : Refs τ π ω} {p : TaskId × JoinResult τ π} :
    p ∈ s.uncollected ↔ ∃ x, s.executor.tasks[p.1]? = some x ∧
      s.executor.hasHandle p.1 = true ∧ x.aborted = false ∧ s.executor.polling p.1 = false ∧
      x.value = some p.2 := by
  simp only [uncollected, List.mem_filterMap, List.mem_range, Option.bind_eq_some_iff]
  constructor
  · rintro ⟨t, -, x, hx, h⟩
    simp only [Option.ite_none_right_eq_some, Bool.and_eq_true, Bool.not_eq_true',
      Option.map_eq_some_iff] at h
    obtain ⟨⟨⟨hh, ha⟩, hp⟩, r, hr, rfl⟩ := h
    exact ⟨x, hx, hh, ha, hp, hr⟩
  · rintro ⟨x, hx, hh, ha, hp, hr⟩
    exact ⟨p.1, (List.getElem?_eq_some_iff.1 hx).1, x, hx, by simp [hh, ha, hp, hr]⟩

/-- A result that is still owed is in its task, and nothing is about to replace it. -/
structure Kept (s : Refs τ π ω) : Prop where
  known : ∀ p ∈ s.left, p.1 < s.executor.tasks.length
  value : ∀ p ∈ s.left, s.owed p.1 = true → ∀ x, s.executor.tasks[p.1]? = some x →
    x.value = some p.2 ∧ x.aborted = false ∧ s.executor.polling p.1 = false

theorem Kept.keepsResults {s : Refs τ π ω} (hi : s.Kept) : s.KeepsResults := by
  intro p hp ho x hx w
  obtain ⟨hv, ha, -⟩ := hi.value p hp ho x hx
  simp [Task.pollHandle, ha, hv]

/-- The tasks and their handles are as before, and no poll begins. -/
theorem Kept.same {s s' : Refs τ π ω} (hi : s.Kept) (hl : s'.left = s.left)
    (ht : s'.executor.tasks = s.executor.tasks) (hc : s'.cancelled = s.cancelled)
    (hp : ∀ t, Frame.polling t ∈ s'.executor.stack → Frame.polling t ∈ s.executor.stack) :
    s'.Kept := by
  refine ⟨?_, ?_⟩
  · rw [hl, ht]
    exact hi.known
  · intro p hm ho x hx
    rw [hl] at hm
    rw [owed, Executor.hasHandle, Executor.collected, ht, hc] at ho
    rw [ht] at hx
    obtain ⟨hv, ha, hpol⟩ := hi.value p hm ho x hx
    exact ⟨hv, ha, Executor.polling_eq_false.2 fun h => Executor.polling_eq_false.1 hpol (hp _ h)⟩

/-- The slot of a task that owes nothing is cleared. -/
theorem Kept.clear {s s' : Refs τ π ω} {k : TaskId} (hi : s.Kept) (hl : s'.left = s.left)
    (ht : s'.executor.tasks = (s.executor.clear k).tasks)
    (hc : ∀ t ∈ s.cancelled, t ∈ s'.cancelled)
    (hp : ∀ t, Frame.polling t ∈ s'.executor.stack → Frame.polling t ∈ s.executor.stack)
    (hk : ∀ p ∈ s.left, p.1 = k → s.owed k = true → k ∈ s'.cancelled) : s'.Kept := by
  refine ⟨?_, ?_⟩
  · rw [hl, ht]
    simpa [Executor.clear, Executor.update] using hi.known
  · intro p hm ho y hy
    rw [hl] at hm
    obtain ⟨hh, hcol, hn⟩ := owed_iff.1 ho
    have hh : s.executor.hasHandle p.1 = true := by
      rw [Executor.hasHandle, ht] at hh
      exact Executor.hasHandle_clear.1 hh
    have hcol : s.executor.collected p.1 = false := by
      rw [Executor.collected, ht] at hcol
      exact Executor.collected_of_update (s := s.executor.touch k) (f := Task.abort)
        (fun _ h => h) hcol
    have ho : s.owed p.1 = true := owed_iff.2 ⟨hh, hcol, fun h => hn (hc _ h)⟩
    rw [ht] at hy
    rcases Executor.getElem?_update hy with ⟨hpk, -⟩ | ⟨hne, hx⟩
    · exact absurd (hpk ▸ hk p hm hpk (hpk ▸ ho)) hn
    · obtain ⟨hv, ha, hpol⟩ := hi.value p hm ho y hx
      exact ⟨hv, ha,
        Executor.polling_eq_false.2 fun h => Executor.polling_eq_false.1 hpol (hp _ h)⟩

theorem Kept.lift {s : Refs τ π ω} {a : Act τ π ω} {e : Executor τ π ω} (hi : s.Kept)
    (hp : a.plain = true) (hs : s.executor.step a = some e) :
    Kept { s with executor := e } := by
  have h := Executor.step_cases hs
  refine ⟨?_, ?_⟩
  · intro p hm
    have hlen : e.tasks.length = s.executor.tasks.length := by
      simpa using congrArg List.length (Executor.key_of_plain hp h)
    exact hlen ▸ hi.known p hm
  · intro p hm ho y hy
    obtain ⟨hh, hcol, hn⟩ := owed_iff.1 ho
    obtain ⟨x, hx, hk⟩ := Executor.exists_key_of_plain hp h hy
    have ho : s.owed p.1 = true := owed_iff.2
      ⟨Executor.hasHandle_of_plain hp hs hh, Executor.collected_of_plain hp h hcol, hn⟩
    obtain ⟨hv, ha, hpol⟩ := hi.value p hm ho x hx
    have hcol : y.collected = false := by simpa [Executor.collected, hy] using hcol
    have hj : y.joiner ≠ .dropped := by
      obtain ⟨y', hy', hj⟩ := Executor.hasHandle_iff.1 hh
      cases hy.symm.trans hy'
      exact hj
    obtain ⟨hv', hpol'⟩ := Executor.kept_of_plain hp h hx hv ha hpol hy hcol hj
    simp only [Task.key, Prod.mk.injEq] at hk
    exact ⟨hv', hk.2.1 ▸ ha, hpol'⟩

theorem Kept.moved {s s' : Refs τ π ω} {m : Move τ π ω} (hi : s.Kept)
    (hok : s.SparesResults m) (h : Moved s m s') : s'.Kept := by
  cases h with
  | lift a e hp hw he hs => exact hi.lift hp hs
  | spawn hc =>
      refine ⟨?_, ?_⟩
      · intro p hm
        simpa [track] using Nat.lt_succ_of_lt (hi.known p hm)
      · intro p hm ho y hy
        have hlt := hi.known p hm
        have hy' : s.executor.tasks[p.1]? = some y := by
          rw [← hy]
          exact (List.getElem?_append_left hlt).symm
        refine hi.value p hm ?_ y hy'
        obtain ⟨hh, hcol, hn⟩ := owed_iff.1 ho
        refine owed_iff.2 ⟨hasHandle_spawned hlt hh, ?_, hn⟩
        simpa [Executor.collected, hy', track, List.getElem?_append_left hlt] using hcol
  | guardKept | cloneWaker | dropWaker | sendWaker | returnWaker | cloneElsewhere
  | dropElsewhere | orphanQueue => exact hi.same rfl rfl rfl fun _ h => h
  | lastGuard h1 =>
      refine ⟨?_, ?_⟩
      · intro p hm
        rcases List.mem_append.1 hm with hm | hm
        · exact hi.known p hm
        · obtain ⟨x, hx, -⟩ := mem_uncollected.1 hm
          exact (List.getElem?_eq_some_iff.1 hx).1
      · intro p hm ho x hx
        have hpol : Executor.polling { s.executor with
            initCount := 0, stack := .shutdown s.activeTasks :: s.executor.stack } p.1 =
              s.executor.polling p.1 := by
          simp [Executor.polling]
        rw [hpol]
        rcases List.mem_append.1 hm with hm | hm
        · exact hi.value p hm ho x hx
        · obtain ⟨x', hx', -, ha, hp, hv⟩ := mem_uncollected.1 hm
          cases hx.symm.trans hx'
          exact ⟨hv, ha, hp⟩
  | abort k =>
      refine hi.clear rfl rfl (fun t ht => List.mem_append_left _ ht) (fun _ h => h) ?_
      intro _ _ _ _
      exact List.mem_append_right _ (List.mem_singleton_self k)
  | abortNext k ts rest hst =>
      refine hi.clear (k := k) rfl rfl (fun _ h => h) (by simp [hst]) ?_
      intro p hm hpk ho
      have := hok k (by simp [nextAborted, hst]) p hm hpk
      rw [ho] at this
      cases this
  | notUpgraded k ts rest hst | shutdownDone rest hst =>
      exact hi.same rfl rfl rfl (by simp [hst])

theorem Kept.step {s s' : Refs τ π ω} {m : Move τ π ω} (hi : s.Kept) (hok : s.SparesResults m)
    (h : s.step m = some s') : s'.Kept := by
  obtain ⟨s₁, l, hm, rfl⟩ := step_cases h
  obtain ⟨known, value⟩ := hi.moved hok hm
  exact ⟨known, value⟩

theorem kept_of_reachVia {s : Refs τ π ω}
    (h : (refsSystem τ π ω).ReachVia SparesResults s) : s.Kept :=
  h.invariant ⟨by simp [refsSystem], by simp [refsSystem]⟩
    fun _ _ _ _ hi hok hst => hi.step hok hst

/-! ## Losing a result -/

/-- No future has finished with `Aborted`. -/
theorem left_of_reachable {s : Refs τ π ω} (h : (refsSystem τ π ω).Reachable s) :
    ∀ p ∈ s.left, p.2 ≠ .error .aborted := by
  refine h.invariant (I := fun s => ∀ p ∈ s.left, p.2 ≠ .error .aborted)
    (by simp [refsSystem]) ?_
  intro s m s' hr hi hst
  obtain ⟨s₁, l, hm, rfl⟩ := step_cases hst
  cases hm with
  | lift | spawn | guardKept | abort | abortNext | notUpgraded | shutdownDone | cloneWaker
  | dropWaker | sendWaker | returnWaker | cloneElsewhere | dropElsewhere | orphanQueue =>
      exact hi
  | lastGuard =>
      intro p hp
      rcases List.mem_append.1 hp with hp | hp
      · exact hi p hp
      · obtain ⟨x, hx, -, -, -, hv⟩ := mem_uncollected.1 hp
        rintro ha
        exact ((tracked_of_reachable hr).intact _ x hx).value (ha ▸ hv)

/-- A step of the abort loop that takes up a task whose result is owed loses it. -/
theorem loses_result [Nonempty ω] {s s' : Refs τ π ω} {m : Move τ π ω}
    (hr : (refsSystem τ π ω).Reachable s) (hok : ¬ s.SparesResults m)
    (h : s.step m = some s') : ¬ s'.KeepsResults := by
  unfold SparesResults at hok
  split at hok
  · simp only [not_forall, Bool.not_eq_false] at hok
    obtain ⟨t, ht, p, hm, rfl, ho⟩ := hok
    simp only [nextAborted, Option.mem_def] at ht
    split at ht
    · rename_i t ts rest hst
      cases ht
      obtain ⟨hh, hcol, hn⟩ := owed_iff.1 ho
      obtain ⟨x, hx, hj⟩ := Executor.hasHandle_iff.1 hh
      have hstr : s.strong p.1 = true := Held.strong (.handle hh)
      simp only [step, move, abortNext, hst, hstr, if_true, Option.map_some, Move.elsewhere,
        Option.some.injEq] at h
      subst h
      intro hkeep
      have hx' : (s.executor.clear p.1).tasks[p.1]? = some x.abort := by
        simp [Executor.clear, Executor.update, hx]
      have ho' : owed { s with
          executor := { s.executor.clear p.1 with stack := .shutdown ts :: rest } } p.1 = true := by
        refine owed_iff.2 ⟨Executor.hasHandle_clear.2 hh, ?_, hn⟩
        simp only [Executor.collected, hx, Option.any_some] at hcol
        simp only [Executor.collected, hx', Option.any_some]
        exact hcol
      have hgot := hkeep p hm ho' x.abort hx' (Classical.arbitrary ω)
      simp only [Task.pollHandle, Task.abort, if_true, Option.some.injEq] at hgot
      exact left_of_reachable hr p hm hgot.symm
    · cases ht
  · exact absurd trivial hok

/-! ## The result -/

/-- **Shutdown gives each task its true outcome** in every run whose abort loop does not
take up a task whose result is still owed: when it is over the stragglers are aborted,
and the results that were left come out of their handles. A loop that takes one up
loses it. -/
theorem shutdown_gives_outcomes [Nonempty ω] {s : Refs τ π ω}
    (h : (refsSystem τ π ω).ReachVia SparesResults s) :
    s.StragglersAborted ∧ s.KeepsResults ∧
    ∀ m s', s.step m = some s' → ¬ s.SparesResults m → ¬ s'.KeepsResults :=
  ⟨(tracked_of_reachable h.reachable).stragglersAborted, (kept_of_reachVia h).keepsResults,
    fun _ _ hst hok => loses_result h.reachable hok hst⟩

/-- Four tasks at a shutdown: one never polled, one pending with a waker elsewhere, one
whose result was collected, and one that is detached after it finished. -/
def mixedRun : List (Move Nat Nat Nat) :=
  [.exec .init, .exec .spawn, .exec .spawn, .exec .spawn, .exec .spawn, .exec (.dispatch 1),
    .cloneWaker 1, .sendWaker 1, .exec (.pollReturns .pending), .exec (.dispatch 2),
    .exec (.pollReturns (.ready 7)), .exec (.pollHandle 2 0), .exec (.dispatch 3),
    .exec (.pollReturns (.panics 9)), .exec (.dropHandle 3), .exec .dropGuard,
    .exec .abortNext, .exec .abortNext, .exec .abortNext, .exec .abortNext, .exec .abortNext]

/-- After the run the handles of the two stragglers give `Aborted`. -/
theorem shutdown_gives_outcomes_mixed :
    ∃ s : Refs Nat Nat Nat, (∀ t < 2, ∃ x, s.executor.tasks[t]? = some x ∧
      (x.pollHandle 5).2 = some (.error .aborted)) ∧ s.KeepsResults := by
  have hrun : ((refsSystem Nat Nat Nat).runVia SparesResults {} mixedRun).map
      (fun s => s.executor.shuttingDown == false && s.left == [] &&
        (List.range 2).all fun t => s.executor.hasHandle t && s.executor.tasks[t]?.any fun x =>
          s.executor.live x.generation == false) = some true := by decide
  obtain ⟨s, hs, hp⟩ := System.exists_reachVia _ _ hrun
  simp only [Bool.and_eq_true, beq_iff_eq, List.all_eq_true, List.mem_range,
    Option.any_eq_true] at hp
  obtain ⟨⟨hd, hl⟩, hall⟩ := hp
  obtain ⟨hab, hkeep, -⟩ := shutdown_gives_outcomes hs
  refine ⟨s, ?_, hkeep⟩
  intro t ht
  obtain ⟨hh, x, hx, hlive⟩ := hall t ht
  exact ⟨x, hx, (hab hd t x hx hlive).2.2 hh (by simp [hl]) 5⟩

/-- A task finishes with 7; the last guard is dropped before anyone joins it. -/
def uncollectedRun : List (Move Nat Nat Nat) :=
  [.exec .init, .exec .spawn, .exec (.dispatch 0), .exec (.pollReturns (.ready 7)),
    .exec .dropGuard, .exec .abortNext, .exec .abortNext]

/-- The shutdown turns the result into `Aborted`. -/
theorem shutdown_loses_result :
    ∃ s : Refs Nat Nat Nat, (refsSystem Nat Nat Nat).Reachable s ∧
      s.left = [(0, .ok 7)] ∧ ¬ s.KeepsResults := by
  have hrun : ((refsSystem Nat Nat Nat).run {} uncollectedRun).map (fun s =>
      (s.left, s.owed 0, s.executor.tasks.map fun x => (x.pollHandle 5).2)) =
      some ([(0, .ok 7)], true, [some (.error .aborted)]) := rfl
  obtain ⟨s, hs, hp⟩ := Option.map_eq_some_iff.1 hrun
  simp only [Prod.mk.injEq, List.map_eq_singleton_iff] at hp
  obtain ⟨hl, ho, x, hx, hgot⟩ := hp
  refine ⟨s, System.reachVia_runVia .init hs, hl, ?_⟩
  intro hkeep
  have := hkeep (0, .ok 7) (by simp [hl]) ho x (by simp [hx]) 5
  rw [hgot] at this
  cases this

end Refs

end Wxp.Tasks
