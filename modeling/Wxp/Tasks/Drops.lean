import Wxp.Tasks.Shutdown

/-!
# Tasks — Drops

Where the future and the value of a task are destroyed. The `SAFETY` comment of
`Task` leaves it to "callers that move a `JoinHandle` across threads"; but a waker is a
reference to the whole task as well, and it goes to any thread. If it outlasts the
others, the thread that drops it destroys

* a future that still waits, with what it captured;
* the value of a task that was detached and has finished;
* a finished future, which nobody takes out of its slot, even where the value was
  collected.

Steps of other threads free a task in two ways: they drop its last waker, or they
finish a send that was holding on to the platform queue of a run loop that is gone.
-/

namespace Wxp.Tasks

variable {τ π ω : Type}

namespace Refs

/-- A waker on another thread is the only reference of `t`. -/
def soleWaker (s : Refs τ π ω) (t : TaskId) : Bool :=
  s.wakersElsewhere.count t == 1 && !s.executor.hasHandle t && !s.executor.queue.contains t &&
    !s.executor.sending.contains t && !s.executor.polling t && !s.wakers.contains t

/-- `t` is of the generation of `k`, and no reference of it is outside the queue. -/
def onlyQueued (s : Refs τ π ω) (k t : TaskId) : Bool :=
  (s.executor.tasks[k]?.any fun x => s.executor.tasks[t]?.any fun y =>
    y.generation == x.generation) && !s.executor.hasHandle t && !s.executor.polling t &&
    !s.wakers.contains t && !s.wakersElsewhere.contains t

/-- `t` was aborted and holds no value. -/
def emptied (s : Refs τ π ω) (t : TaskId) : Bool :=
  s.executor.tasks[t]?.all fun x => x.aborted && x.value.isNone

/-- A thread other than the run loop's drops the last reference only of emptied tasks. -/
def ReleasedEmpty (s : Refs τ π ω) : Move τ π ω → Prop
  | .dropElsewhere t => s.soleWaker t = true → s.emptied t = true
  | .orphanQueue k => ∀ t ∈ s.executor.queue, s.onlyQueued k t = true → s.emptied t = true
  | _ => True

instance (s : Refs τ π ω) (m : Move τ π ω) : Decidable (s.ReleasedEmpty m) :=
  match m with
  | .dropElsewhere _ => inferInstanceAs (Decidable (_ → _))
  | .orphanQueue _ => inferInstanceAs (Decidable (∀ t ∈ s.executor.queue, _ → _))
  | .exec _ | .cloneWaker _ | .dropWaker _ | .sendWaker _ | .returnWaker _ | .cloneElsewhere _ =>
      isTrue trivial

/-! ## A wake in progress borrows its waker -/

theorem mem_erase_of_not_borrowed {s : Refs τ π ω} {t : TaskId} (hb : s.borrowed t = false)
    (hs : t ∈ s.executor.sending) (hw : t ∈ s.wakersElsewhere) :
    t ∈ s.wakersElsewhere.erase t := by
  have hpos : 0 < s.wakersElsewhere.count t := List.count_pos_iff.2 hw
  have hne : s.wakersElsewhere.count t ≠ 1 := by
    simpa [borrowed, hs] using hb
  rw [← List.count_pos_iff, List.count_erase_self]
  omega

/-- The sends in progress have their wakers. -/
def Borrowing (s : Refs τ π ω) : Prop := ∀ t ∈ s.executor.sending, t ∈ s.wakersElsewhere

theorem Borrowing.moved {s s' : Refs τ π ω} {m : Move τ π ω} (hi : s.Borrowing)
    (h : Moved s m s') : s'.Borrowing := by
  intro t ht
  cases h with
  | lift a e hp hw he hs =>
      rcases Executor.sending_of_plain hp (Executor.step_cases hs) ht with ht | ha
      · exact hi t ht
      · exact he t ha
  | spawn | guardKept | lastGuard | abort | abortNext | notUpgraded | shutdownDone
  | cloneWaker | dropWaker => exact hi t ht
  | sendWaker | cloneElsewhere => exact List.mem_cons_of_mem _ (hi t ht)
  | returnWaker k hk hb | dropElsewhere k hk hb =>
      by_cases hkt : t = k
      · subst hkt
        exact mem_erase_of_not_borrowed hb ht hk
      · exact (List.mem_erase_of_ne hkt).2 (hi t ht)
  | orphanQueue k x => exact hi t (List.mem_of_mem_erase ht)

theorem Borrowing.step {s s' : Refs τ π ω} {m : Move τ π ω} (hi : s.Borrowing)
    (h : s.step m = some s') : s'.Borrowing := by
  obtain ⟨s₁, l, hm, rfl⟩ := step_cases h
  have hmoved : s₁.Borrowing := hi.moved hm
  exact hmoved

theorem borrowing_of_reachable {s : Refs τ π ω} (h : (refsSystem τ π ω).Reachable s) :
    s.Borrowing :=
  h.invariant (by simp [refsSystem, Borrowing]) fun _ _ _ _ hi hst => hi.step hst

/-! ## What another thread can free -/

theorem mem_freed {s s' : Refs τ π ω} {t : TaskId} : t ∈ s.freed s' ↔
    t < s.executor.tasks.length ∧ s.strong t = true ∧ s'.strong t = false ∧
      s'.executor.tasks[t]?.any (·.occupied) = true := by
  simp [freed, and_assoc]

/-- A wake on another thread frees nothing: its waker is still there. -/
theorem strong_of_wakeElsewhere {s : Refs τ π ω} {e : Executor τ π ω} {k t : TaskId}
    (h : Executor.Step s.executor (.wakeElsewhere k) e) (ht : s.strong t = true) :
    strong { s with executor := e } t = true := by
  cases h with
  | refused => exact ht
  | checked =>
      cases strong_iff.1 ht with
      | handle ht => exact Held.strong (.handle ht)
      | queued ht => exact Held.strong (.queued ht)
      | sending ht => exact Held.strong (.sending (List.mem_append_left _ ht))
      | polling ht => exact Held.strong (.polling ht)
      | waker ht => exact Held.strong (.waker ht)
      | elsewhere ht => exact Held.strong (.elsewhere ht)

theorem strong_of_enqueue {s : Refs τ π ω} {e : Executor τ π ω} {k t : TaskId}
    (hi : s.Borrowing) (h : Executor.Step s.executor (.enqueue k) e) (ht : s.strong t = true) :
    strong { s with executor := e } t = true := by
  -- the waker that the send is about goes last
  have hheld := strong_iff.1 ht
  cases h with
  | refused | lost =>
      cases hheld with
      | handle ht => exact Held.strong (.handle ht)
      | queued ht => exact Held.strong (.queued ht)
      | sending ht => exact Held.strong (.elsewhere (hi t ht))
      | polling ht => exact Held.strong (.polling ht)
      | waker ht => exact Held.strong (.waker ht)
      | elsewhere ht => exact Held.strong (.elsewhere ht)
  | enqueue =>
      cases hheld with
      | handle ht => exact Held.strong (.handle ht)
      | queued ht => exact Held.strong (.queued (List.mem_append_left _ ht))
      | sending ht => exact Held.strong (.elsewhere (hi t ht))
      | polling ht => exact Held.strong (.polling ht)
      | waker ht => exact Held.strong (.waker ht)
      | elsewhere ht => exact Held.strong (.elsewhere ht)

/-- The last reference of a task goes with a waker only where that was the sole one. -/
theorem soleWaker_of_freed {s : Refs τ π ω} {k t : TaskId} (hk : k ∈ s.wakersElsewhere)
    (ht : s.strong t = true)
    (hf : strong { s with wakersElsewhere := s.wakersElsewhere.erase k } t = false) :
    t = k ∧ s.soleWaker k = true := by
  simp only [strong, Bool.or_eq_false_iff] at hf
  obtain ⟨⟨⟨⟨⟨hh, hq⟩, hs⟩, hp⟩, hw⟩, he⟩ := hf
  have hmem : t ∈ s.wakersElsewhere := by
    simp only [strong, hh, hq, hs, hp, hw, Bool.false_or, List.contains_iff_mem] at ht
    exact ht
  rw [Bool.eq_false_iff, ne_eq, List.contains_iff_mem] at he
  have htk : t = k := by
    by_contra hne
    exact he ((List.mem_erase_of_ne hne).2 hmem)
  subst htk
  refine ⟨rfl, ?_⟩
  have hcount : s.wakersElsewhere.count t = 1 := by
    have hpos : 0 < s.wakersElsewhere.count t := List.count_pos_iff.2 hmem
    rw [← List.count_pos_iff, List.count_erase_self] at he
    omega
  rw [soleWaker, hcount, hh, hq, hs, hp, hw]
  rfl

/-- The last reference of a task goes with an orphaned queue only where it was queued
there, and nowhere else. -/
theorem onlyQueued_of_freed {s s' : Refs τ π ω} {k t : TaskId} {x : Task τ π ω}
    (hi : s.Borrowing) (hx : s.executor.tasks[k]? = some x) (ht : s.strong t = true)
    (hf : s'.strong t = false)
    (hq : s'.executor.queue = s.executor.queue.filter fun t =>
      !s.executor.tasks[t]?.any fun y => y.generation == x.generation)
    (hh : s'.executor.hasHandle t = s.executor.hasHandle t)
    (hp : s'.executor.polling t = s.executor.polling t) (hw : s'.wakers = s.wakers)
    (he : s'.wakersElsewhere = s.wakersElsewhere) :
    t ∈ s.executor.queue ∧ s.onlyQueued k t = true := by
  simp only [strong, Bool.or_eq_false_iff, hh, hp, hw, he, hq] at hf
  obtain ⟨⟨⟨⟨⟨hh, hq⟩, -⟩, hp⟩, hw⟩, he⟩ := hf
  have hs : t ∉ s.executor.sending := by
    intro hs
    rw [Bool.eq_false_iff, ne_eq, List.contains_iff_mem] at he
    exact he (hi t hs)
  have hmem : t ∈ s.executor.queue := by
    cases strong_iff.1 ht with
    | handle h =>
        rw [hh] at h
        cases h
    | queued h => exact h
    | sending h => exact absurd h hs
    | polling h =>
        rw [hp] at h
        cases h
    | waker h =>
        rw [List.contains_iff_mem.2 h] at hw
        cases hw
    | elsewhere h =>
        rw [List.contains_iff_mem.2 h] at he
        cases he
  refine ⟨hmem, ?_⟩
  have hg : (s.executor.tasks[t]?.any fun y => y.generation == x.generation) = true := by
    by_contra hg
    rw [Bool.eq_false_iff, ne_eq, List.contains_iff_mem] at hq
    exact hq (List.mem_filter.2 ⟨hmem, by simpa using hg⟩)
  rw [onlyQueued, hx, Option.any_some, hg, hh, hp, hw, he]
  rfl

/-- An emptied task has nothing left to destroy. -/
theorem occupied_of_emptied {s : Refs τ π ω} {t : TaskId} (hi : s.executor.Intact)
    (h : s.emptied t = true) : s.executor.tasks[t]?.any (·.occupied) = false := by
  cases hx : s.executor.tasks[t]? with
  | none => rfl
  | some x =>
      simp only [emptied, hx, Option.all_some, Bool.and_eq_true, Option.isNone_iff_eq_none] at h
      simp [Task.occupied, (hi t x hx).cell, h.1, h.2]

theorem occupied_of_not_emptied {s : Refs τ π ω} {t : TaskId} (hi : s.executor.Intact)
    (h : s.emptied t = false) : s.executor.tasks[t]?.any (·.occupied) = true := by
  cases hx : s.executor.tasks[t]? with
  | none => simp [emptied, hx] at h
  | some x =>
      simp only [emptied, hx, Option.all_some, Bool.and_eq_false_iff] at h
      simp only [Task.occupied, Option.any_some, Bool.or_eq_true, (hi t x hx).cell]
      exact h.imp (by simp) (by simp [Option.isSome_iff_ne_none])

/-- A step of another thread that follows the rule frees no task with something in it. -/
theorem freed_eq_nil {s s' : Refs τ π ω} {m : Move τ π ω} (hi : s.Tracked) (hb : s.Borrowing)
    (hok : s.ReleasedEmpty m) (h : Moved s m s') (he : m.elsewhere = true) :
    s.freed s' = [] := by
  rw [List.eq_nil_iff_forall_not_mem]
  intro t hmem
  obtain ⟨-, ht, hf, hocc⟩ := mem_freed.1 hmem
  cases h with
  | lift a e hp hw hel hs =>
      have hstep := Executor.step_cases hs
      have hstrong : strong { s with executor := e } t = true := by
        cases a with
        | wakeElsewhere k => exact strong_of_wakeElsewhere hstep ht
        | enqueue k => exact strong_of_enqueue hb hstep ht
        | init | dropGuard | spawn | wake | dispatch | pollReturns | pollHandle | dropHandle
        | abort | abortNext | destroyQueue => cases he
      rw [hf] at hstrong
      cases hstrong
  | spawn | guardKept | lastGuard | abort | abortNext | notUpgraded | shutdownDone
  | cloneWaker | dropWaker | sendWaker | returnWaker => cases he
  | cloneElsewhere k hk =>
      have hstrong : strong { s with wakersElsewhere := k :: s.wakersElsewhere } t = true := by
        cases strong_iff.1 ht with
        | handle h => exact Held.strong (.handle h)
        | queued h => exact Held.strong (.queued h)
        | sending h => exact Held.strong (.sending h)
        | polling h => exact Held.strong (.polling h)
        | waker h => exact Held.strong (.waker h)
        | elsewhere h => exact Held.strong (.elsewhere (List.mem_cons_of_mem k h))
      rw [hf] at hstrong
      cases hstrong
  | dropElsewhere k hk =>
      obtain ⟨rfl, hsole⟩ := soleWaker_of_freed hk ht hf
      have hempty := occupied_of_emptied hi.intact (hok hsole)
      rw [hempty] at hocc
      cases hocc
  | orphanQueue k x hx =>
      obtain ⟨hq, honly⟩ := onlyQueued_of_freed hb hx ht hf rfl rfl rfl rfl rfl
      have hempty := occupied_of_emptied hi.intact (hok t hq honly)
      rw [hempty] at hocc
      cases hocc

/-! ## The runs -/

theorem spilled_of_moved {s s' : Refs τ π ω} {m : Move τ π ω} (h : Moved s m s') :
    s'.spilled = s.spilled := by
  cases h <;> rfl

theorem spilled_eq_nil {s : Refs τ π ω} (h : (refsSystem τ π ω).ReachVia ReleasedEmpty s) :
    s.spilled = [] := by
  refine h.invariant (I := fun s => s.spilled = []) rfl ?_
  intro s m s' hr hi hok hst
  simp only [refsSystem, step, Option.map_eq_some_iff] at hst
  obtain ⟨s', hm, rfl⟩ := hst
  have hmoved := move_cases hm
  have hsp : s'.spilled = [] := (spilled_of_moved hmoved).trans hi
  split
  · rename_i he
    have hfreed := freed_eq_nil (tracked_of_reachable hr.reachable)
      (borrowing_of_reachable hr.reachable) hok hmoved he
    rw [hsp, hfreed]
    rfl
  · exact hsp

/-- A step against the rule destroys something on another thread. -/
theorem spilled_ne_nil {s s' : Refs τ π ω} {m : Move τ π ω}
    (hr : (refsSystem τ π ω).Reachable s) (hok : ¬ s.ReleasedEmpty m)
    (h : s.step m = some s') : s'.spilled ≠ [] := by
  simp only [step, Option.map_eq_some_iff] at h
  obtain ⟨s', hm, rfl⟩ := h
  have hintact := (tracked_of_reachable hr).intact
  have hmoved := move_cases hm
  -- it is enough to name a task that the step frees
  have hspill : ∀ t, m.elsewhere = true → t ∈ s.freed s' →
      (if m.elsewhere then { s' with spilled := s'.spilled ++ s.freed s' } else s').spilled ≠ [] := by
    intro t he hfreed
    rw [if_pos he]
    exact List.ne_nil_of_mem (List.mem_append_right _ hfreed)
  unfold ReleasedEmpty at hok
  split at hok
  · rename_i t
    rw [Classical.not_imp, Bool.not_eq_true] at hok
    obtain ⟨hsole, hne⟩ := hok
    refine hspill t rfl ?_
    have hocc := occupied_of_not_emptied hintact hne
    simp only [soleWaker, Bool.and_eq_true, Bool.not_eq_true', beq_iff_eq] at hsole
    obtain ⟨⟨⟨⟨⟨hc, hh⟩, hq⟩, hs⟩, hp⟩, hw⟩ := hsole
    cases hmoved with
    | dropElsewhere _ hk =>
        refine mem_freed.2 ⟨?_, Held.strong (.elsewhere hk), ?_, hocc⟩
        · rw [Option.any_eq_true] at hocc
          obtain ⟨x, hx, -⟩ := hocc
          exact (List.getElem?_eq_some_iff.1 hx).1
        · have hgone : t ∉ s.wakersElsewhere.erase t := by
            rw [← List.count_pos_iff, List.count_erase_self, hc]
            exact Nat.lt_irrefl 0
          simp only [strong, hh, hq, hs, hp, hw, Bool.false_or]
          rw [Bool.eq_false_iff, ne_eq, List.contains_iff_mem]
          exact hgone
  · rename_i k
    simp only [not_forall, Bool.not_eq_true] at hok
    obtain ⟨t, hq, honly, hne⟩ := hok
    refine hspill t rfl ?_
    have hocc := occupied_of_not_emptied hintact hne
    simp only [onlyQueued, Bool.and_eq_true, Bool.not_eq_true'] at honly
    obtain ⟨⟨⟨⟨hg, hh⟩, hp⟩, hw⟩, he⟩ := honly
    cases hmoved with
    | orphanQueue _ x hx =>
        rw [hx, Option.any_some] at hg
        refine mem_freed.2 ⟨?_, Held.strong (.queued hq), ?_, hocc⟩
        · rw [Option.any_eq_true] at hocc
          obtain ⟨x, hx, -⟩ := hocc
          exact (List.getElem?_eq_some_iff.1 hx).1
        · rw [Bool.eq_false_iff, ne_eq, strong_iff]
          intro hheld
          cases hheld with
          | handle h => exact absurd (h.symm.trans hh) (by decide)
          | queued h => simpa [hg] using (List.mem_filter.1 h).2
          | sending h =>
              have hmem := borrowing_of_reachable hr t (List.mem_of_mem_erase h)
              rw [List.contains_iff_mem.2 hmem] at he
              cases he
          | polling h => exact absurd (h.symm.trans hp) (by decide)
          | waker h =>
              rw [List.contains_iff_mem.2 h] at hw
              cases hw
          | elsewhere h =>
              rw [List.contains_iff_mem.2 h] at he
              cases he
  · exact absurd trivial hok

/-! ## The result -/

/-- **Futures and values are destroyed on the run loop thread** in every run in which
the other threads drop the last reference only of emptied tasks; a step that does not
keep to this destroys one elsewhere. -/
theorem contents_dropped_on_run_loop {s : Refs τ π ω}
    (h : (refsSystem τ π ω).ReachVia ReleasedEmpty s) :
    s.spilled = [] ∧ ∀ m s', s.step m = some s' → ¬ s.ReleasedEmpty m → s'.spilled ≠ [] :=
  ⟨spilled_eq_nil h, fun _ _ hst hok => spilled_ne_nil h.reachable hok hst⟩

/-- A thread wakes a task and drops the waker while the `JoinHandle` is still there; the
task finishes, is joined, and goes with its handle. -/
def heldRun : List (Move Nat Nat Nat) :=
  [.exec .init, .exec .spawn, .exec (.dispatch 0), .cloneWaker 0, .sendWaker 0,
    .exec (.pollReturns .pending), .exec (.wakeElsewhere 0), .exec (.enqueue 0),
    .dropElsewhere 0, .exec (.dispatch 0), .exec (.pollReturns (.ready 7)),
    .exec (.pollHandle 0 0), .exec (.dropHandle 0)]

theorem contents_dropped_on_run_loop_held :
    ∃ s : Refs Nat Nat Nat, s.strong 0 = false ∧ s.spilled = [] := by
  have hrun : ((refsSystem Nat Nat Nat).runVia ReleasedEmpty {} heldRun).map
      (fun s => s.strong 0 == false) = some true := by decide
  obtain ⟨s, hs, hp⟩ := System.exists_reachVia _ _ hrun
  exact ⟨s, by simpa using hp, (contents_dropped_on_run_loop hs).1⟩

/-- The poll of a task gives its waker to another thread. -/
def wakerSentRun : List (Move Nat Nat Nat) :=
  [.exec .init, .exec .spawn, .exec (.dispatch 0), .cloneWaker 0, .sendWaker 0]

/-- The task is detached and waits; the thread gives up. -/
def waitingDroppedRun : List (Move Nat Nat Nat) :=
  wakerSentRun ++ [.exec (.pollReturns .pending), .exec (.dropHandle 0), .dropElsewhere 0]

/-- The task is detached and finishes before the thread is done with the waker. -/
def finishedDroppedRun : List (Move Nat Nat Nat) :=
  wakerSentRun ++ [.exec (.pollReturns (.ready 7)), .exec (.dropHandle 0), .dropElsewhere 0]

/-- The task finishes and is joined before the thread is done with the waker. -/
def joinedDroppedRun : List (Move Nat Nat Nat) :=
  wakerSentRun ++ [.exec (.pollReturns (.ready 7)), .exec (.pollHandle 0 0),
    .exec (.dropHandle 0), .dropElsewhere 0]

/-- A future that waits, a value, and a future that has finished are destroyed on the
thread that drops the last waker. -/
theorem contents_dropped_elsewhere :
    ((refsSystem Nat Nat Nat).run {} waitingDroppedRun).map (·.spilled) = some [0] ∧
    ((refsSystem Nat Nat Nat).run {} finishedDroppedRun).map (·.spilled) = some [0] ∧
    ((refsSystem Nat Nat Nat).run {} joinedDroppedRun).map (·.spilled) = some [0] := by
  decide

end Refs

end Wxp.Tasks
