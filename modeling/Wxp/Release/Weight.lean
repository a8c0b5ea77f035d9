import Wxp.Release.State
import Mathlib.Algebra.Order.BigOperators.Group.List
import Mathlib.Algebra.Order.Group.Nat

/-!
# Release — Weight

The machine stops. Every destructor runs once: a future leaves its slot before it is dropped, a
callback the timer map, and what a task holds the task. So the code that is still to run weighs
less after every step (`weight_step_lt`).
-/

namespace Wxp.Release

open Wxp.RunLoop

namespace State

variable {b : Backend} {s s' : State}

/-! ## What is still to run -/

mutual

def opSize : Op → Nat
  | .panic ds | .post ds | .call ds | .spawn ds | .schedule ds => dropSize ds + 1
  | .catchUnwind ops => codeSize ops + 1
  | .init | .isInitialized | .cancel _ | .abort _ | .dropJoinHandle _ => 1

def codeSize : List Op → Nat
  | [] => 0
  | op :: ops => opSize op + codeSize ops + 1

def dropSize : List (List Op) → Nat
  | [] => 0
  | d :: ds => codeSize d + dropSize ds + 1

end

/-- With `n` active tasks. -/
def frameWeight (n : Nat) : Frame → Nat
  | .code ops => 8 * codeSize ops + 1
  | .drop ds => 8 * dropSize ds + 1
  | .cleanup payload => 8 * dropSize payload + 2
  | .catchUnwind | .noUnwind | .release | .clearSlot _ | .unref _ => 1
  | .abortLoop ts => 4 * ts.length + 1
  | .phase .abortTasks => 4 * n + 16
  | .phase _ => 16

def taskWeight (x : Task) : Nat :=
  (match x.future with
    | .full ds => 8 * dropSize ds + 4
    | .dropping | .empty => 0) +
  match x.rest with
    | some ds => 8 * dropSize ds + 16
    | none => 0

def unwindingWeight : Option Destructors → Nat
  | some payload => 8 * dropSize payload + 1
  | none => 0

def faultWeight : Option Fault → Nat
  | some _ => 0
  | none => 1

/-- A bound on the number of steps. -/
def weight (s : State) : Nat :=
  (s.tasks.map taskWeight).sum + (s.timers.map fun v => 8 * dropSize v.2 + 4).sum +
    (s.stack.map (frameWeight s.activeTasks.length)).sum + unwindingWeight s.unwinding +
    faultWeight s.fault

/-! ## What the operations add -/

theorem weight_push (fs : List Frame) :
    (s.push fs).weight = (fs.map (frameWeight s.activeTasks.length)).sum + s.weight := by
  simp only [weight, push, List.map_append, List.sum_append]
  omega

theorem weight_drop (ds : Destructors) : (s.drop ds).weight = 8 * dropSize ds + 1 + s.weight := by
  rw [drop, weight_push]
  rfl

theorem weight_panic (hu : s.unwinding = none) (payload : Destructors) :
    (s.panic payload).weight = s.weight + (8 * dropSize payload + 1) := by
  simp only [weight, panic, unwindingWeight, hu]
  omega

theorem weight_withLock_le {l : Lock} {k : Nat} (hs : s.weight ≤ k) (hs' : s'.weight ≤ k) :
    (s.withLock l s').weight ≤ k := by
  unfold withLock
  split
  · refine Nat.le_trans ?_ hs
    simp only [weight, faultWeight]
    omega
  · exact hs'

theorem weight_fault_le (f : Fault) : weight { s with fault := some f } ≤ s.weight := by
  simp only [weight, faultWeight]
  omega

theorem weight_update {t : TaskId} {x : Task} {f : Task → Task} (hx : s.tasks[t]? = some x) :
    (s.update t f).weight + taskWeight x = s.weight + taskWeight (f x) := by
  have hsum := sum_modify (f := f) taskWeight hx
  simp only [weight, update]
  omega

theorem update_of_none {t : TaskId} {f : Task → Task} (hx : s.tasks[t]? = none) :
    s.update t f = s := by
  have hlen : s.tasks.length ≤ t := List.getElem?_eq_none_iff.1 hx
  simp [update, List.modify_eq_self hlen]

theorem weight_update_eq (t : TaskId) {f : Task → Task}
    (hf : ∀ x, taskWeight (f x) = taskWeight x) : (s.update t f).weight = s.weight := by
  cases hx : s.tasks[t]? with
  | none => rw [update_of_none hx]
  | some x =>
      have := weight_update (f := f) hx
      rw [hf] at this
      omega

theorem weight_abort_le (t : TaskId) : (s.abort t).weight ≤ s.weight := by
  unfold abort
  cases hx : s.tasks[t]? with
  | none => exact Nat.le_of_eq (weight_update_eq t fun _ => rfl)
  | some x =>
      cases hf : x.future with
      | full ds =>
          simp only [Option.map_some, hf]
          have := weight_update (f := fun x => { x with aborted := true, future := .dropping }) hx
          simp only [taskWeight, hf] at this
          rw [weight_push]
          simp only [List.map_cons, List.map_nil, List.sum_cons, List.sum_nil, frameWeight]
          omega
      | dropping =>
          simp only [Option.map_some, hf]
          exact weight_fault_le _
      | empty =>
          simp only [Option.map_some, hf]
          exact Nat.le_of_eq (weight_update_eq t fun _ => rfl)

theorem weight_abortWith_le (t : TaskId) (fs : List Frame) : (s.abortWith t fs).weight ≤
    (fs.map (frameWeight s.activeTasks.length)).sum + 1 + s.weight := by
  refine Nat.le_trans (weight_abort_le t) ?_
  have hsame : (s.update t fun x => { x with calls := x.calls + 1 }).weight = s.weight :=
    weight_update_eq t fun _ => rfl
  rw [weight_push, hsame]
  simp [update, frameWeight]

theorem weight_free_le (t : TaskId) : (s.free t).weight ≤ s.weight := by
  unfold free
  split
  · rename_i future rest aborted hx
    have := weight_update (f := fun x => { x with future := .empty, rest := none }) hx
    rw [weight_push]
    cases future <;>
      simp only [taskWeight, List.map_cons, List.map_nil, List.sum_cons, List.sum_nil,
        frameWeight, Slot.future, dropSize] at this ⊢ <;>
      omega
  · exact Nat.le_refl _

theorem weight_timers_le (h : HandleType) :
    ((s.timers.filter fun v => v.1 != h).map fun v => 8 * dropSize v.2 + 4).sum +
      8 * dropSize (s.owned h) ≤ (s.timers.map fun v => 8 * dropSize v.2 + 4).sum := by
  unfold owned
  induction s.timers with
  | nil => simp [dropSize]
  | cons v timers ih =>
      obtain ⟨k, ds⟩ := v
      by_cases hk : k = h
      · subst hk
        have hfilter : ((timers.filter fun v => v.1 != k).map fun v => 8 * dropSize v.2 + 4).sum ≤
            (timers.map fun v => 8 * dropSize v.2 + 4).sum := by omega
        simp only [List.filter_cons, bne_self_eq_false, Bool.false_eq_true, if_false,
          List.lookup_cons, beq_self_eq_true, Option.getD_some, List.map_cons, List.sum_cons]
        omega
      · simp only [List.filter_cons, bne_iff_ne, ne_eq, hk, not_false_eq_true, if_true,
          List.lookup_cons, beq_false_of_ne (Ne.symm hk), List.map_cons, List.sum_cons]
        omega

theorem weight_schedule_le (hu : s.unwinding = none) (callback : Destructors) :
    (s.schedule b callback).weight ≤ s.weight + 8 * dropSize callback + 6 := by
  have hpanic : ((s.drop callback).panic []).weight ≤ s.weight + 8 * dropSize callback + 6 := by
    rw [weight_panic (by exact hu), weight_drop, dropSize]
    omega
  unfold schedule
  split
  · split
    · have := weight_fault_le (s := s) (.deadlock .state)
      omega
    · exact hpanic
  · split
    · exact hpanic
    · simp only [weight, List.map_append, List.sum_append, List.map_cons, List.map_nil,
        List.sum_cons, List.sum_nil]
      omega

theorem weight_unschedule_le (hu : s.unwinding = none) (h : HandleType) :
    (s.unschedule b h).weight ≤ s.weight + 6 := by
  have hpanic : (s.panic []).weight ≤ s.weight + 6 := by
    rw [weight_panic hu, dropSize]
    omega
  have htimers := weight_timers_le (s := s) h
  unfold unschedule
  split
  · split
    · have := weight_fault_le (s := s) (.deadlock .state)
      omega
    · exact hpanic
  · split
    · exact hpanic
    · cases b <;>
        simp only [weight, List.map_cons, List.sum_cons, frameWeight] <;>
        omega

theorem weight_exec_le (hu : s.unwinding = none) (op : Op) :
    (s.exec b op).weight ≤ s.weight + 8 * opSize op := by
  cases op with
  | panic payload =>
      rw [exec, weight_panic hu, opSize]
      omega
  | init => exact weight_withLock_le (by omega) (by omega)
  | isInitialized => exact Nat.le_add_right _ _
  | post callback | call callback =>
      refine weight_withLock_le (by omega) ?_
      rw [weight_drop, opSize]
      omega
  | spawn future =>
      rw [exec, weight_panic (by exact hu), weight_drop, opSize, dropSize]
      omega
  | schedule callback =>
      have := weight_schedule_le (b := b) hu callback
      rw [exec, opSize]
      omega
  | cancel k =>
      have := weight_unschedule_le (b := b) hu k
      rw [exec, opSize]
      omega
  | abort t =>
      rw [exec, opSize]
      split
      · have := weight_abortWith_le (s := s) t []
        simp only [List.map_nil, List.sum_nil] at this
        omega
      · omega
  | dropJoinHandle t =>
      rw [exec, opSize]
      split
      · have hsame : (s.update t fun x => { x with refs := x.refs - 1 }).weight = s.weight :=
          weight_update_eq t fun _ => rfl
        have := weight_free_le (s := s.update t fun x => { x with refs := x.refs - 1 }) t
        omega
      · omega
  | catchUnwind ops =>
      rw [exec, weight_push, opSize]
      simp only [List.map_cons, List.map_nil, List.sum_cons, List.sum_nil, frameWeight]
      omega

theorem frameWeight_le (n : Nat) (f : Frame) : frameWeight 0 f ≤ frameWeight n f := by
  cases f with
  | phase p => cases p <;> simp [frameWeight]
  | _ => exact Nat.le_refl _

theorem weight_perform_lt (hu : s.unwinding = none) (p : Phase) :
    (s.perform b p).weight < s.weight + frameWeight s.activeTasks.length (.phase p) := by
  have hlock : ∀ {l : Lock} {s' : State}, s'.weight ≤ s.weight →
      (s.withLock l s').weight < s.weight + 16 := by
    intro l s' hs'
    have := weight_withLock_le (l := l) (Nat.le_refl _) hs'
    omega
  cases p with
  | takePendingCalls => exact hlock (Nat.le_refl _)
  | abortTasks =>
      rw [perform, frameWeight]
      refine Nat.lt_of_le_of_lt
        (weight_withLock_le (k := s.weight + (4 * s.activeTasks.length + 1)) (by omega) ?_) (by omega)
      simp only [weight, List.map_cons, List.sum_cons, frameWeight]
      omega
  | clearTasks =>
      refine hlock ?_
      -- A pending loop weighs as much as the tasks it will find; now it finds none.
      have hsum : (s.stack.map (frameWeight 0)).sum ≤
          (s.stack.map (frameWeight s.activeTasks.length)).sum :=
        List.sum_le_sum fun f _ => frameWeight_le _ f
      simp only [weight, List.length_nil]
      omega
  | clearThreadId => exact hlock (Nat.le_refl _)
  | clearInstance =>
      change _ < s.weight + 16
      rw [perform]
      split
      · rw [weight_panic (by exact hu), dropSize]
        simp only [weight]
        omega
      · simp only [weight]
        omega
  | clearSender => exact hlock (Nat.le_refl _)
  | unlock =>
      change _ < s.weight + 16
      simp only [perform, weight]
      omega

theorem weight_abortNext_lt (t : TaskId) (ts : List TaskId) : (s.abortNext t ts).weight <
    s.weight + frameWeight s.activeTasks.length (.abortLoop (t :: ts)) := by
  have hpush : (s.push [.abortLoop ts]).weight = s.weight + (4 * ts.length + 1) := by
    rw [weight_push]
    simp only [List.map_cons, List.map_nil, List.sum_cons, List.sum_nil, frameWeight]
    omega
  -- Each task pays for the frames that aborting it pushes.
  have habort := weight_abortWith_le (s := s.push [.abortLoop ts]) t [.catchUnwind]
  simp only [List.map_cons, List.map_nil, List.sum_cons, List.sum_nil, frameWeight] at habort
  unfold abortNext
  simp only [frameWeight, List.length_cons]
  split <;> omega

theorem weight_unref_le (t : TaskId) :
    ((s.update t fun x => { x with calls := x.calls - 1 }).free t).weight ≤ s.weight := by
  have hsame : (s.update t fun x => { x with calls := x.calls - 1 }).weight = s.weight :=
    weight_update_eq t fun _ => rfl
  exact hsame ▸ weight_free_le t

theorem weight_clearSlot_le (t : TaskId) :
    (s.update t fun x => { x with future := .empty }).weight ≤ s.weight := by
  cases hx : s.tasks[t]? with
  | none => exact Nat.le_of_eq (congrArg weight (update_of_none hx))
  | some x =>
      have := weight_update (f := fun x => { x with future := .empty }) hx
      simp only [taskWeight] at this
      omega

theorem weight_resume_lt (hu : s.unwinding = none) (f : Frame) :
    (s.resume b f).weight < s.weight + frameWeight s.activeTasks.length f := by
  cases f with
  | code ops =>
      cases ops with
      | nil => simp [resume, frameWeight]
      | cons op ops =>
          have hexec := weight_exec_le (b := b) (s := s.push [.code ops]) hu op
          rw [weight_push] at hexec
          simp only [List.map_cons, List.map_nil, List.sum_cons, List.sum_nil, frameWeight]
            at hexec
          simp only [resume, frameWeight, codeSize]
          omega
  | drop ds =>
      cases ds with
      | nil => simp [resume, frameWeight]
      | cons d ds =>
          rw [resume, weight_push]
          simp only [List.map_cons, List.map_nil, List.sum_cons, List.sum_nil, frameWeight,
            dropSize]
          omega
  | cleanup payload =>
      rw [resume, weight_panic hu, frameWeight]
      omega
  | catchUnwind | noUnwind => simp [resume, frameWeight]
  | release =>
      simp only [resume, weight, frameWeight]
      omega
  | clearSlot t =>
      have := weight_clearSlot_le (s := s) t
      simp only [resume, frameWeight]
      omega
  | unref t =>
      have := weight_unref_le (s := s) t
      simp only [resume, frameWeight]
      omega
  | abortLoop ts =>
      cases ts with
      | nil =>
          simp only [resume, weight, frameWeight]
          omega
      | cons t ts => exact weight_abortNext_lt t ts
  | phase p => exact weight_perform_lt hu p

theorem weight_unwind_lt {payload : Destructors} (hu : s.unwinding = some payload)
    (f : Frame) :
    (s.unwind b payload f).weight < s.weight + frameWeight s.activeTasks.length f := by
  have hnone : weight { s with unwinding := none } + (8 * dropSize payload + 1) = s.weight := by
    simp only [weight, hu, unwindingWeight]
    omega
  cases f with
  | code ops => simp [unwind, frameWeight]
  | drop ds =>
      cases ds with
      | nil => simp [unwind, frameWeight]
      | cons d ds =>
          rw [unwind, weight_push]
          simp only [List.map_cons, List.map_nil, List.sum_cons, List.sum_nil, frameWeight,
            dropSize]
          omega
  | cleanup payload' =>
      have := weight_fault_le (s := s) .abort
      simp only [unwind, frameWeight]
      omega
  | noUnwind =>
      have := weight_fault_le (s := s) .abort
      simp only [unwind, frameWeight]
      omega
  | catchUnwind =>
      rw [unwind, weight_drop, frameWeight]
      omega
  | release =>
      simp only [unwind, weight, frameWeight]
      omega
  | clearSlot t =>
      have := weight_clearSlot_le (s := s) t
      simp only [unwind, frameWeight]
      omega
  | unref t =>
      have := weight_unref_le (s := s) t
      simp only [unwind, frameWeight]
      omega
  | abortLoop ts =>
      have := weight_fault_le (s := s) .escaped
      simp only [unwind, frameWeight]
      omega
  | phase p =>
      have := weight_fault_le (s := s) .escaped
      have hpos : 0 < frameWeight s.activeTasks.length (.phase p) := by
        cases p <;> simp [frameWeight]
      simp only [unwind]
      omega

/-- Every step takes something away. -/
theorem weight_step_lt (h : s.step b = some s') : s'.weight < s.weight := by
  cases hf : s.fault with
  | some f =>
      rw [State.step, hf] at h
      cases h
  | none =>
      cases hs : s.stack with
      | nil =>
          rw [step_eq_none hs] at h
          cases h
      | cons f rest =>
          -- The frame is taken off first, so what it leaves behind has to weigh less than it did.
          have hpop : s.weight = weight { s with stack := rest } +
              frameWeight s.activeTasks.length f := by
            simp only [weight, hs, List.map_cons, List.sum_cons]
            omega
          cases hu : s.unwinding with
          | none =>
              rw [step_resume hf hu hs] at h
              cases h
              exact hpop ▸ weight_resume_lt (by exact hu) f
          | some payload =>
              rw [step_unwind hf hu hs] at h
              cases h
              exact hpop ▸ weight_unwind_lt (by exact hu) f

end State

end Wxp.Release
