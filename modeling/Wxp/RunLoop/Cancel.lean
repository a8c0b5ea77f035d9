import Wxp.Foundations.Halting
import Wxp.Foundations.Traversal
import Wxp.RunLoop.Platform

/-!
# RunLoop — Cancel

`PlatformRunLoop::unschedule`, with the destructors it runs. The callback that leaves the timer
map is destroyed, and what it owns with it: the `Handle`s in it unschedule further timers while
the first call is still on the stack.

* Darwin: `state.timers.remove(&handle);` destroys the callback at the end of the statement,
  while `state` holds the mutex until the end of the function.
* Win32, Android: in `self.timers.borrow_mut().remove(&handle);` both the borrow and the removed
  timer are temporaries of the statement. They are dropped in the opposite order of their
  creation, the timer first.
* Linux: the map holds GLib source ids. The borrow has ended when `context_remove_source`
  destroys the closure.

Result: `cancel_is_safe_iff`.
-/

namespace Wxp.RunLoop

/-- `Handle` of `src/handle.rs`: the timer that its `on_cancel` unschedules, until `cancel` or
`detach` has consumed it. -/
structure Handle where
  onCancel : Option HandleType
  deriving DecidableEq, Repr

/-- A value with a destructor that a callback owns. What such a value owns in turn is listed after
it. -/
inductive Owned (δ : Type)
  | handle (h : Handle)
  | data (d : δ)
  deriving DecidableEq, Repr

variable {δ : Type}

/-- The timer that dropping the value cancels: `Drop for Handle` is `cancel`. -/
def Owned.cancels : Owned δ → Option HandleType
  | .handle h => h.onCancel
  | .data _ => none

/-- The pending timers, each with what its callback owns, in the order in which it is dropped. -/
abbrev TimerMap (δ : Type) := List (HandleType × List (Owned δ))

/-- What the callback of a timer owns; nothing where the timer is not pending. -/
def TimerMap.owned (timers : TimerMap δ) (h : HandleType) : List (Owned δ) :=
  (timers.lookup h).getD []

inductive Fault
  /-- `borrow` or `borrow_mut` on a `RefCell` that is mutably borrowed. -/
  | borrowPanic
  /-- `lock` on a mutex that this thread has locked. -/
  | deadlock
  deriving DecidableEq, Repr

/-- What is left to be done of a call of `unschedule`. -/
inductive CancelFrame (δ : Type)
  | unschedule (h : HandleType)
  | destroy (owned : List (Owned δ))
  /-- The borrow or the mutex guard is dropped. -/
  | release
  /-- `state.schedule(state_clone)`. -/
  | schedule
  /-- `self.wake_up_at(self.next_timer())`. -/
  | wakeUpAt
  deriving DecidableEq, Repr

structure Cancelling (δ : Type) where
  timers : TimerMap δ
  stack : List (CancelFrame δ)
  /-- The timer map is borrowed; on Darwin, the state mutex is locked. -/
  held : Bool := false
  fault : Option Fault := none
  unscheduled : List HandleType := []
  /-- History: the values destroyed, each with what `held` was. -/
  destroyed : List (Owned δ × Bool) := []
  deriving DecidableEq, Repr

/-- What comes of taking the borrow or the mutex once more. -/
def Backend.takenTwice : Backend → Fault
  | .darwin => .deadlock
  | _ => .borrowPanic

/-- `PlatformRunLoop::unschedule`, up to the destructor of the callback. -/
def Cancelling.unschedule (b : Backend) (s : Cancelling δ) (h : HandleType)
    (rest : List (CancelFrame δ)) : Cancelling δ :=
  if s.held then { s with fault := some b.takenTwice }
  else
    { s with
      timers := s.timers.filter fun v => v.1 != h,
      unscheduled := s.unscheduled ++ [h],
      held := b != .linux,
      stack := .destroy (s.timers.owned h) ::
        match b with
        | .darwin => .schedule :: .release :: rest
        | .win32 | .android => .release :: .wakeUpAt :: rest
        | .linux => rest }

def Cancelling.step (b : Backend) (s : Cancelling δ) : Option (Cancelling δ) :=
  match s.fault, s.stack with
  | some _, _ | none, [] => none
  | none, .unschedule h :: rest => some (s.unschedule b h rest)
  | none, .destroy [] :: rest => some { s with stack := rest }
  | none, .destroy (o :: os) :: rest =>
      some { s with
        destroyed := s.destroyed ++ [(o, s.held)],
        stack := (o.cancels.map CancelFrame.unschedule).toList ++ .destroy os :: rest }
  | none, .release :: rest => some { s with held := false, stack := rest }
  | none, .schedule :: rest => some { s with stack := rest }
  | none, .wakeUpAt :: rest =>
      some (if s.held then { s with fault := some .borrowPanic } else { s with stack := rest })

/-- The state after `n` steps, or where the machine stops before. -/
def Cancelling.run (b : Backend) : Nat → Cancelling δ → Cancelling δ
  | 0, s => s
  | n + 1, s =>
      match s.step b with
      | none => s
      | some s' => run b n s'

def CancelFrame.weight : CancelFrame δ → Nat
  | .unschedule _ => 4
  | .destroy owned => 6 * owned.length + 1
  | _ => 1

/-- A bound on the number of steps. -/
def Cancelling.weight (s : Cancelling δ) : Nat :=
  (s.timers.map fun v => 6 * v.2.length).sum + (s.stack.map CancelFrame.weight).sum +
    if s.fault.isSome then 0 else 1

/-- `Handle::cancel` or `Drop for Handle`, from code that holds neither borrow nor mutex. -/
def Handle.cancel (h : Handle) (timers : TimerMap δ) : Cancelling δ :=
  { timers, stack := (h.onCancel.map CancelFrame.unschedule).toList }

/-- What cancelling the handle ends in. -/
def Handle.cancelled (b : Backend) (h : Handle) (timers : TimerMap δ) : Cancelling δ :=
  (h.cancel timers).run b (h.cancel timers).weight

/-! ## Ownership -/

/-- The callback of the pending timer `h` owns a handle of the timer `k`. -/
def TimerMap.Owns (timers : TimerMap δ) (h k : HandleType) : Prop :=
  ∃ o ∈ timers.owned h, o.cancels = some k

/-- Cancelling the handle cancels the timer `k`: it is the handle's, or owned by it to some
depth. -/
def Handle.Reaches (h : Handle) (timers : TimerMap δ) (k : HandleType) : Prop :=
  ∃ r, h.onCancel = some r ∧ Relation.ReflTransGen timers.Owns r k

/-- The call has returned, every timer of the handle is gone and no other, and no destructor has
run under the borrow or the mutex. -/
structure Cancelling.Safe (h : Handle) (timers : TimerMap δ) (s : Cancelling δ) : Prop where
  returned : s.fault = none ∧ s.stack = []
  removed : ∀ v, v ∈ s.timers ↔ v ∈ timers ∧ ¬ h.Reaches timers v.1
  free : ∀ v ∈ s.destroyed, v.2 = false

/-! ## The machine stops -/

section Machine

variable {b : Backend} {s s' : Cancelling δ}

/-- Taking a timer out pays for the destruction of its callback. -/
theorem sum_filter_le (timers : TimerMap δ) (h : HandleType) :
    ((timers.filter fun v => v.1 != h).map fun v => 6 * v.2.length).sum +
      6 * (timers.owned h).length ≤ (timers.map fun v => 6 * v.2.length).sum := by
  induction timers with
  | nil => simp [TimerMap.owned]
  | cons v timers ih =>
      obtain ⟨k, owned⟩ := v
      by_cases hk : k = h
      · subst hk
        simp only [TimerMap.owned, List.lookup_cons, beq_self_eq_true, Option.getD_some,
          List.filter_cons, bne_self_eq_false, List.map_cons, List.sum_cons]
        simp only [Bool.false_eq_true, if_false]
        omega
      · have hlook : TimerMap.owned ((k, owned) :: timers) h = TimerMap.owned timers h := by
          simp [TimerMap.owned, List.lookup_cons, beq_false_of_ne (Ne.symm hk)]
        rw [hlook]
        simp only [List.filter_cons, bne_iff_ne, ne_eq, hk, not_false_eq_true, if_true,
          List.map_cons, List.sum_cons]
        omega

theorem Cancelling.step_weight (h : s.step b = some s') : s'.weight < s.weight := by
  obtain ⟨timers, stack, held, fault, unscheduled, destroyed⟩ := s
  cases fault with
  | some f => simp [step] at h
  | none =>
      cases stack with
      | nil => simp [step] at h
      | cons f rest =>
          cases f with
          | unschedule k =>
              have hsum := sum_filter_le timers k
              simp only [step, Cancelling.unschedule, Option.some.injEq] at h
              subst h
              -- A second borrow ends the run: only the fault is counted less.
              cases held with
              | true => simp [weight]
              | false => cases b <;> (simp [weight, CancelFrame.weight]; omega)
          | destroy owned =>
              cases owned with
              | nil =>
                  simp only [step, Option.some.injEq] at h
                  subst h
                  simp [weight, CancelFrame.weight]
              | cons o os =>
                  simp only [step, Option.some.injEq] at h
                  subst h
                  cases o.cancels with
                  | none => simp [weight, CancelFrame.weight]
                  | some k =>
                      simp [weight, CancelFrame.weight]
                      omega
          | release | schedule =>
              simp only [step, Option.some.injEq] at h
              subst h
              simp [weight, CancelFrame.weight]
          | wakeUpAt =>
              simp only [step, Option.some.injEq] at h
              subst h
              cases held <;> simp [weight, CancelFrame.weight]

theorem Cancelling.run_eq (n : Nat) : s.run b n = runFor (step b) n s := by
  induction n generalizing s with
  | zero => rfl
  | succ n ih =>
      cases hs : s.step b with
      | none => simp only [run, hs, runFor_of_final hs]
      | some s' => simp only [run, hs, runFor_of_step hs, ih]

theorem Cancelling.run_final {n : Nat} (h : s.weight ≤ n) : (s.run b n).step b = none := by
  rw [run_eq]
  exact runFor_final (fun _ _ => step_weight) h

/-- What every step keeps holds where the machine stops. -/
theorem Cancelling.run_keeps {I : Cancelling δ → Prop}
    (hI : ∀ s s', I s → s.step b = some s' → I s') {n : Nat} (h : I s) : I (s.run b n) := by
  rw [run_eq]
  exact runFor_keeps hI h n

/-- The machine stops where the call has returned, or at a fault. -/
theorem Cancelling.stack_of_final (h : s.step b = none) (hf : s.fault = none) : s.stack = [] := by
  obtain ⟨timers, stack, held, fault, unscheduled, destroyed⟩ := s
  cases hf
  cases stack with
  | nil => rfl
  | cons f rest => rcases f with _ | ⟨_ | _⟩ | _ | _ | _ <;> cases h

end Machine

/-! ## Linux -/

/-- The timers that the frame is still going to unschedule. -/
def CancelFrame.todo : CancelFrame δ → List HandleType
  | .unschedule h => [h]
  | .destroy owned => owned.filterMap Owned.cancels
  | _ => []

def Cancelling.todo (s : Cancelling δ) : List HandleType := s.stack.flatMap CancelFrame.todo

theorem owned_filter (timers : TimerMap δ) (p : HandleType → Bool) (h : HandleType) :
    TimerMap.owned (timers.filter fun v => p v.1) h =
      if p h then TimerMap.owned timers h else [] := by
  induction timers with
  | nil => simp [TimerMap.owned]
  | cons v timers ih =>
      obtain ⟨k, owned⟩ := v
      simp only [TimerMap.owned] at ih ⊢
      by_cases hk : h = k
      · subst hk
        by_cases hp : p h
        · simp [hp]
        · simpa [hp] using ih
      · by_cases hp : p k
        · simpa [hp, List.lookup_cons, beq_false_of_ne hk] using ih
        · simpa [hp, List.lookup_cons, beq_false_of_ne hk] using ih

/-- Cancelling the timer `r` on Linux: the calls of `unschedule` traverse what owns what, and none
of them is made under the borrow. -/
structure Traversed (timers : TimerMap δ) (r : HandleType) (s : Cancelling δ) : Prop where
  fault : s.fault = none
  held : s.held = false
  free : ∀ v ∈ s.destroyed, v.2 = false
  left : s.timers = timers.filter fun v => decide (v.1 ∉ s.unscheduled)
  traverses : Traverses timers.Owns r (· ∈ s.unscheduled) (· ∈ s.todo)

theorem Traversed.step {timers : TimerMap δ} {r : HandleType} {s s' : Cancelling δ}
    (h : Traversed timers r s) (hst : s.step .linux = some s') : Traversed timers r s' := by
  obtain ⟨left, stack, held, fault, unscheduled, destroyed⟩ := s
  obtain ⟨hf, hh, hfree, hleft, htrav⟩ := h
  cases hf
  cases hh
  change left = timers.filter fun v => decide (v.1 ∉ unscheduled) at hleft
  subst hleft
  cases stack with
  | nil => cases hst
  | cons f rest =>
      cases f with
      | unschedule k =>
          cases hst
          have howned := owned_filter timers (fun h => decide (h ∉ unscheduled)) k
          -- The timers still to be unscheduled, after the step and before it: `k` is visited, and what its
          -- callback owns comes in, unless `k` had been taken out before.
          have htodo : ∀ j, j ∈ Cancelling.todo (Cancelling.unschedule .linux
              { timers := timers.filter fun v => decide (v.1 ∉ unscheduled),
                stack := .unschedule k :: rest, unscheduled, destroyed } k rest) ↔
              (k ∉ unscheduled ∧ timers.Owns k j) ∨ j ∈ rest.flatMap CancelFrame.todo := by
            intro j
            simp only [Cancelling.unschedule, Cancelling.todo, Bool.false_eq_true, if_false,
              List.flatMap_cons, List.mem_append, howned]
            by_cases hk : k ∈ unscheduled <;> simp [CancelFrame.todo, hk, TimerMap.Owns]
          have hold : ∀ j, j ∈ Cancelling.todo (δ := δ)
              { timers := timers.filter fun v => decide (v.1 ∉ unscheduled),
                stack := .unschedule k :: rest, unscheduled, destroyed } ↔
              j = k ∨ j ∈ rest.flatMap CancelFrame.todo := by
            intro j
            simp only [Cancelling.todo, List.flatMap_cons, List.mem_append]
            simp [CancelFrame.todo]
          refine ⟨rfl, rfl, hfree, ?_, htrav.visit ((hold k).2 (.inl rfl))
            (by simp [Cancelling.unschedule]) ?_ ?_ ?_⟩
          · simp only [Cancelling.unschedule, List.filter_filter]
            refine List.filter_congr fun v _ => ?_
            rw [Bool.eq_iff_iff]
            simp [and_comm]
          · intro j hj
            exact ((hold j).1 hj).imp_right fun hj => (htodo j).2 (.inr hj)
          · intro j hj
            by_cases hk : k ∈ unscheduled
            · rcases htrav.closed hk hj with hv | ht
              · exact .inl hv
              · rcases (hold j).1 ht with rfl | ht
                · exact .inl hk
                · exact .inr ((htodo j).2 (.inr ht))
            · exact .inr ((htodo j).2 (.inl ⟨hk, hj⟩))
          · intro j hj
            rcases (htodo j).1 hj with ⟨_, hj⟩ | hj
            · exact .inr hj
            · exact .inl ((hold j).2 (.inr hj))
      | destroy owned =>
          cases owned with
          | nil =>
              cases hst
              exact ⟨rfl, rfl, hfree, rfl, htrav.congr fun k => by
                simp [Cancelling.todo, CancelFrame.todo]⟩
          | cons o os =>
              cases hst
              refine ⟨rfl, rfl, by simpa using hfree, rfl, htrav.congr fun k => ?_⟩
              cases ho : o.cancels <;> simp [Cancelling.todo, CancelFrame.todo, ho]
      | release | schedule | wakeUpAt =>
          cases hst
          exact ⟨rfl, rfl, hfree, rfl, htrav⟩

theorem Handle.cancelled_final (b : Backend) (h : Handle) (timers : TimerMap δ) :
    (h.cancelled b timers).step b = none :=
  Cancelling.run_final (Nat.le_refl _)

theorem Handle.reaches_iff {h : Handle} {timers : TimerMap δ} {r k : HandleType}
    (hr : h.onCancel = some r) :
    h.Reaches timers k ↔ Relation.ReflTransGen timers.Owns r k := by
  simp [Handle.Reaches, hr]

/-- A handle that was cancelled or detached before cancels nothing. -/
theorem safe_of_none {b : Backend} {h : Handle} {timers : TimerMap δ} (hr : h.onCancel = none) :
    (h.cancelled b timers).Safe h timers := by
  have hstop : h.cancelled b timers = h.cancel timers := by
    simp only [Handle.cancelled]
    cases (h.cancel timers).weight with
    | zero => rfl
    | succ n => simp [Cancelling.run, Cancelling.step, Handle.cancel, hr]
  rw [hstop]
  constructor <;> simp [Handle.cancel, Handle.Reaches, hr]

theorem safe_linux (h : Handle) (timers : TimerMap δ) :
    (h.cancelled .linux timers).Safe h timers := by
  cases hr : h.onCancel with
  | none => exact safe_of_none hr
  | some r =>
      have hinit : Traversed timers r (h.cancel timers) := by
        refine ⟨rfl, rfl, by simp [Handle.cancel], by simp [Handle.cancel], ?_⟩
        have htodo : (h.cancel timers).todo = [r] := by
          simp [Handle.cancel, hr, Cancelling.todo, CancelFrame.todo]
        rw [htodo]
        simpa [Handle.cancel] using (Traverses.start : Traverses timers.Owns r _ _)
      have hfin : Traversed timers r (h.cancelled .linux timers) :=
        Cancelling.run_keeps (fun _ _ => Traversed.step) hinit
      have hstack := Cancelling.stack_of_final (h.cancelled_final .linux timers) hfin.fault
      -- Nothing is left to visit, so the visited timers are the reachable ones.
      have hdone : ∀ k, k ∉ (h.cancelled .linux timers).todo := by
        simp [Cancelling.todo, hstack]
      refine ⟨⟨hfin.fault, hstack⟩, fun v => ?_, hfin.free⟩
      rw [hfin.left, List.mem_filter, decide_eq_true_iff, hfin.traverses.done hdone,
        Handle.reaches_iff hr]

/-! ## The other backends -/

/-- A callback without destructors is destroyed under the borrow or the mutex, and that shows
nowhere. -/
theorem safe_of_plain {b : Backend} {h : Handle} {timers : TimerMap δ} {r : HandleType}
    (hb : b ≠ .linux) (hr : h.onCancel = some r) (ho : timers.owned r = []) :
    (h.cancelled b timers).Safe h timers := by
  have hrun : h.cancelled b timers =
      { timers := timers.filter fun v => v.1 != r, stack := [], unscheduled := [r] } := by
    cases b with
    | linux => exact absurd rfl hb
    | darwin | win32 | android =>
        simp [Handle.cancelled, Cancelling.weight, Handle.cancel, hr, CancelFrame.weight,
          Cancelling.run, Cancelling.step, Cancelling.unschedule, ho]
  have hreach : ∀ k, h.Reaches timers k ↔ k = r := by
    intro k
    rw [Handle.reaches_iff hr]
    refine ⟨fun hk => ?_, fun hk => hk ▸ .refl⟩
    rcases Relation.ReflTransGen.cases_head hk with rfl | ⟨j, ⟨o, hmem, _⟩, _⟩
    · rfl
    · simp [ho] at hmem
  rw [hrun]
  constructor <;> simp [hreach]

/-- No destructor is forgotten. -/
theorem Cancelling.destroyed_step {b : Backend} {s s' : Cancelling δ} {v : Owned δ × Bool}
    (hv : v ∈ s.destroyed) (h : s.step b = some s') : v ∈ s'.destroyed := by
  obtain ⟨left, stack, held, fault, unscheduled, destroyed⟩ := s
  cases fault with
  | some f => cases h
  | none =>
      rcases stack with _ | ⟨_ | ⟨_ | _⟩ | _ | _ | _, rest⟩ <;> cases h <;>
        first | exact hv | exact List.mem_append_left _ hv | skip
      · cases held <;> exact hv
      · cases held <;> exact hv

/-- The machine after the first step: the callback is about to be destroyed. -/
theorem Handle.cancelled_eq (b : Backend) {h : Handle} (timers : TimerMap δ) {r : HandleType}
    (hr : h.onCancel = some r) :
    ∃ n, h.cancelled b timers = (Cancelling.unschedule b (h.cancel timers) r []).run b (n + 1) := by
  refine ⟨(timers.map fun v => 6 * v.2.length).sum + 3, ?_⟩
  have hweight : (h.cancel timers).weight = (timers.map fun v => 6 * v.2.length).sum + 3 + 2 := by
    simp [Cancelling.weight, Handle.cancel, hr, CancelFrame.weight]
  have hstep : (h.cancel timers).step b =
      some (Cancelling.unschedule b (h.cancel timers) r []) := by
    simp [Cancelling.step, Handle.cancel, hr]
  rw [Handle.cancelled, hweight, Cancelling.run, hstep]

/-- Elsewhere the first value that the callback owns is destroyed under the borrow or the
mutex. -/
theorem not_safe_of_owned {b : Backend} {h : Handle} {timers : TimerMap δ} {r : HandleType}
    (hb : b ≠ .linux) (hr : h.onCancel = some r) (ho : timers.owned r ≠ []) :
    ¬ (h.cancelled b timers).Safe h timers := by
  obtain ⟨o, os, ho⟩ := List.exists_cons_of_ne_nil ho
  obtain ⟨n, hn⟩ := h.cancelled_eq b timers hr
  have hheld : (o, true) ∈ (h.cancelled b timers).destroyed := by
    have hstep : ∃ s, (Cancelling.unschedule b (h.cancel timers) r []).step b = some s ∧
        (o, true) ∈ s.destroyed := by
      refine ⟨_, by simp [Cancelling.unschedule, Handle.cancel, ho, Cancelling.step]; rfl, ?_⟩
      simp [hb]
    obtain ⟨s, hs, hmem⟩ := hstep
    rw [hn, Cancelling.run, hs]
    exact Cancelling.run_keeps (fun _ _ => Cancelling.destroyed_step) hmem
  intro hsafe
  exact absurd (hsafe.free _ hheld) (by simp)

/-- A handle is about to be dropped under the borrow or the mutex, or was. -/
inductive Doomed (b : Backend) (s : Cancelling δ) : Prop
  | fault : s.fault = some b.takenTwice → Doomed b s
  | destroy (owned : List (Owned δ)) (rest : List (CancelFrame δ)) : s.fault = none →
      s.held = true → s.stack = .destroy owned :: rest → (∃ o ∈ owned, o.cancels ≠ none) →
      Doomed b s
  | unschedule (k : HandleType) (rest : List (CancelFrame δ)) : s.fault = none →
      s.held = true → s.stack = .unschedule k :: rest → Doomed b s

theorem Doomed.step {b : Backend} {s s' : Cancelling δ} (h : Doomed b s)
    (hst : s.step b = some s') : Doomed b s' := by
  cases h with
  | fault hf => simp [Cancelling.step, hf] at hst
  | destroy owned rest hf hh hs ho =>
      obtain ⟨o, hmem, ho⟩ := ho
      cases owned with
      | nil => cases hmem
      | cons u us =>
          simp only [Cancelling.step, hf, hs, Option.some.injEq] at hst
          subst hst
          cases hu : u.cancels with
          | some k => exact .unschedule k (.destroy us :: rest) rfl hh (by simp)
          | none =>
              rcases List.mem_cons.1 hmem with rfl | hmem
              · exact absurd hu ho
              · exact .destroy us rest rfl hh (by simp) ⟨o, hmem, ho⟩
  | unschedule k rest hf hh hs =>
      simp only [Cancelling.step, hf, hs, Option.some.injEq] at hst
      subst hst
      exact .fault (by simp [Cancelling.unschedule, hh])

theorem fault_of_handle {b : Backend} {h : Handle} {timers : TimerMap δ} {r : HandleType}
    (hb : b ≠ .linux) (hr : h.onCancel = some r)
    (ho : ∃ o ∈ timers.owned r, o.cancels ≠ none) :
    (h.cancelled b timers).fault = some b.takenTwice := by
  have hdoomed : Doomed b (h.cancelled b timers) := by
    obtain ⟨n, hn⟩ := h.cancelled_eq b timers hr
    rw [hn]
    refine Cancelling.run_keeps (fun _ _ => Doomed.step) ?_
    exact .destroy (timers.owned r) _ rfl (by simp [Cancelling.unschedule, Handle.cancel, hb])
      rfl ho
  have hfinal := h.cancelled_final b timers
  cases hdoomed with
  | fault hf => exact hf
  | destroy owned rest hf _ hs _ => simp [Cancelling.stack_of_final hfinal hf] at hs
  | unschedule k rest hf _ hs => simp [Cancelling.stack_of_final hfinal hf] at hs

/-- **Cancelling a handle removes its timer and every timer it owns, and runs no destructor under
the timer-map borrow or the state mutex**, exactly where the backend is Linux, or the callback of
the timer owns nothing with a destructor. Elsewhere a handle that the callback owns panics, or
deadlocks on Darwin. The calls never go on for ever. -/
theorem cancel_is_safe_iff (b : Backend) (h : Handle) (timers : TimerMap δ) :
    ((h.cancelled b timers).Safe h timers ↔
      b = .linux ∨ ∀ r, h.onCancel = some r → timers.owned r = []) ∧
    (h.cancelled b timers).step b = none ∧
    ∀ r, b ≠ .linux → h.onCancel = some r → (∃ o ∈ timers.owned r, o.cancels ≠ none) →
      (h.cancelled b timers).fault = some b.takenTwice := by
  refine ⟨⟨fun hsafe => ?_, ?_⟩, h.cancelled_final b timers, fun r => fault_of_handle⟩
  · by_contra hnot
    push Not at hnot
    obtain ⟨hb, r, hr, ho⟩ := hnot
    exact not_safe_of_owned hb hr ho hsafe
  · rintro (rfl | ho)
    · exact safe_linux h timers
    · by_cases hb : b = .linux
      · subst hb
        exact safe_linux h timers
      · cases hr : h.onCancel with
        | none => exact safe_of_none hr
        | some r => exact safe_of_plain hb hr (ho r hr)

/-- Timer 1 owns the handle of timer 2. Cancelling timer 1 panics on Win32 and Android and
deadlocks on Darwin; on Linux both timers go. -/
theorem owner_is_cancelled :
    let timers : TimerMap Unit := [(1, [.handle ⟨some 2⟩]), (2, [])]
    (Handle.cancelled .win32 ⟨some 1⟩ timers).fault = some .borrowPanic ∧
    (Handle.cancelled .android ⟨some 1⟩ timers).fault = some .borrowPanic ∧
    (Handle.cancelled .darwin ⟨some 1⟩ timers).fault = some .deadlock ∧
    (Handle.cancelled .linux ⟨some 1⟩ timers).timers = [] := by
  decide

end Wxp.RunLoop
