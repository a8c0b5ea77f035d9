import Wxp.RunLoop.Dispatch
import Mathlib.Data.List.Nodup

/-!
# RunLoop — Handles

`RunLoopLocal::schedule` and the `Handle` it returns (`src/handle.rs`), over the run
loop of any backend. The callback of a timer is named by the handle of the timer.

Cancelling takes the timer out of the timer map. Win32 and Android look every due
handle up again before they run it, and Linux removes the source, so a cancelled timer
is gone. On Darwin `get_pending_execution` has moved every due timer into the batch of
the pass before the first callback runs: a callback that cancels a timer further on in
that batch comes too late. `StillScheduled` is the exact condition on a cancellation.
-/

namespace Wxp.RunLoop

structure Handled (κ : Type) where
  loop : Loop κ HandleType := {}
  /-- The handles whose `on_cancel` is still there. -/
  live : List HandleType := []
  /-- History: cancelled, by `cancel` or by drop, before the callback started. -/
  cancelled : List HandleType := []

inductive HandleAct (κ : Type)
  | schedule (inTime : Nat)
  | cancel (h : HandleType)
  | drop (h : HandleType)
  | detach (h : HandleType)
  /-- Any other step of the run loop. -/
  | loop (a : Act κ HandleType)

variable {κ : Type}

/-- The steps that user code makes through a `Handle` or `RunLoopLocal::schedule` only. -/
def Act.isTimerCall {τ : Type} : Act κ τ → Bool
  | .schedule _ _ => true
  | .unschedule _ => true
  | _ => false

namespace Handled

/-- `RunLoopLocal::schedule`. -/
def schedule (s : Handled κ) (b : Backend) (inTime : Nat) : Option (Handled κ) :=
  (s.loop.schedule b inTime s.loop.state.nextHandle).map fun l =>
    { s with loop := l, live := s.live ++ [s.loop.state.nextHandle] }

/-- `Handle::cancel`, which is also what `Drop for Handle` does. -/
def cancel (s : Handled κ) (h : HandleType) : Option (Handled κ) :=
  if s.live.contains h then
    (s.loop.unschedule h).map fun l =>
      { loop := l,
        live := s.live.filter (· != h),
        cancelled := if s.loop.fired.contains h then s.cancelled else s.cancelled ++ [h] }
  else if userCode s.loop.stack then some s else none

/-- `Handle::detach`. -/
def detach (s : Handled κ) (h : HandleType) : Option (Handled κ) :=
  if userCode s.loop.stack then some { s with live := s.live.filter (· != h) } else none

variable [DecidableEq κ]

def step (b : Backend) (s : Handled κ) : HandleAct κ → Option (Handled κ)
  | .schedule inTime => s.schedule b inTime
  | .cancel h => s.cancel h
  | .drop h => s.cancel h
  | .detach h => s.detach h
  | .loop a => if a.isTimerCall then none else (s.loop.step b a).map fun l => { s with loop := l }

end Handled

/-- The timers of one run loop and their handles. -/
def handleSystem (κ : Type) [DecidableEq κ] (b : Backend) :
    System (Handled κ) (HandleAct κ) where
  init := {}
  step := Handled.step b

/-! ## What the steps of the run loop do to the timer map -/

section Steps

variable [DecidableEq κ] {τ : Type} {b : Backend} {l l' : Loop κ τ} {a : Act κ τ}

theorem Loop.Step.nextHandle_le (h : Loop.Step b l a l') :
    l.state.nextHandle ≤ l'.state.nextHandle := by
  cases h with
  | schedule => exact Nat.le_succ _
  | _ => exact Nat.le_refl _

theorem Loop.Step.now_le (h : Loop.Step b l a l') : l.now ≤ l'.now := by
  cases h with
  | tick => exact Nat.le_add_right _ _
  | _ => exact Nat.le_refl _

/-- A timer of the map was there before, unless it was just scheduled. -/
theorem Loop.Step.mem_timers (h : Loop.Step b l a l') (ha : a.isTimerCall = false)
    {v : HandleType × Timer τ} (hv : v ∈ l'.state.timers) : v ∈ l.state.timers := by
  cases h with
  | schedule | unschedule => cases ha
  | drain | timeout | nextHandle => exact List.mem_of_mem_filter hv
  | _ => exact hv

/-- Only Darwin takes timers out of the map before it runs them. -/
theorem parkedTimers_step (hb : b ≠ .darwin) (hi : l.parkedTimers = [])
    (h : Loop.Step b l a l') : l'.parkedTimers = [] := by
  cases h with
  | drain _ hd => exact absurd hd hb
  | nextCallback _ _ _ _ _ hst | nextTimer _ _ _ _ hst | nextHandle _ _ _ _ _ hst
  | batchDone _ _ hst | timersDone _ _ hst | timersRead _ _ hst | handleGone _ _ _ _ hst
  | finishCallback _ _ hst | finishTimer _ _ hst | takeQueued _ hst | pollReady _ hst
  | pollPending _ hst | pollOnceReturns _ hst | exitNative _ hst =>
      simp_all [Loop.parkedTimers, Loop.start, Loop.fire]
  | _ => simpa [Loop.parkedTimers, Loop.push, Loop.start, Loop.fire] using hi

end Steps

/-! ## The handles of the timer map -/

section Lookup

variable {σ : Type} {ts : List (HandleType × σ)} {h : HandleType} {t u : σ}

theorem mem_of_lookup (ht : ts.lookup h = some t) : (h, t) ∈ ts := by
  obtain ⟨l₁, l₂, rfl, -⟩ := List.lookup_eq_some_iff.1 ht
  simp

theorem eq_of_mem_timers (hn : (ts.map (·.1)).Nodup) (ht : (h, t) ∈ ts) (hu : (h, u) ∈ ts) :
    t = u := by
  have hv : (h, t) = (h, u) := List.inj_on_of_nodup_map hn ht hu rfl
  exact congrArg Prod.snd hv

end Lookup

section Distinct

variable {τ : Type} {l l' : Loop κ τ}

/-- The timer map shows each handle once. -/
structure Loop.Distinct (l : Loop κ τ) : Prop where
  nodup : (l.state.timers.map (·.1)).Nodup
  fresh : ∀ v ∈ l.state.timers, v.1 < l.state.nextHandle

theorem Loop.Distinct.empty : Loop.Distinct ({} : Loop κ τ) := ⟨List.nodup_nil, by simp⟩

theorem Loop.Distinct.sublist (hd : l.Distinct) (hsub : l'.state.timers.Sublist l.state.timers)
    (hnext : l'.state.nextHandle = l.state.nextHandle) : l'.Distinct :=
  ⟨(hsub.map _).nodup hd.nodup, fun v hv => hnext ▸ hd.fresh v (hsub.subset hv)⟩

/-- A new timer has a handle of its own. -/
theorem Loop.Distinct.schedule (hd : l.Distinct) (b : Backend) (inTime : Nat) (t : τ) :
    Loop.Distinct { l with state := l.state.schedule b l.now inTime t } := by
  refine ⟨?_, fun v hv => ?_⟩
  · simp only [State.schedule, List.map_append, List.map_cons, List.map_nil]
    refine List.nodup_append.2 ⟨hd.nodup, by simp, fun x hx y hy hxy => ?_⟩
    obtain ⟨v, hv, rfl⟩ := List.mem_map.1 hx
    have hlt := hd.fresh v hv
    rw [hxy, List.mem_singleton.1 hy] at hlt
    exact Nat.lt_irrefl _ hlt
  · rcases List.mem_append.1 hv with hv | hv
    · exact Nat.lt_succ_of_lt (hd.fresh v hv)
    · rw [List.mem_singleton.1 hv]
      exact Nat.lt_succ_self _

theorem Loop.Distinct.step [DecidableEq κ] {b : Backend} {a : Act κ τ} (hd : l.Distinct)
    (h : Loop.Step b l a l') : l'.Distinct := by
  cases h with
  | schedule inTime t _ => exact hd.schedule b inTime t
  | unschedule | drain | timeout | nextHandle => exact hd.sublist List.filter_sublist rfl
  | _ => exact ⟨hd.nodup, hd.fresh⟩

end Distinct

theorem Loop.unscheduled_subset {τ : Type} (l : Loop κ τ) (h : HandleType) :
    Loop.pendingTimers { l with state := l.state.removeTimer h } ⊆ l.pendingTimers :=
  Loop.pendingTimers_subset (State.removeTimer_subset _ _) (List.Subset.refl _)

namespace Handled

variable {b : Backend}

/-- A timer that is cancelled has not been moved into the batch of a dispatch pass. -/
def StillScheduled (s : Handled κ) : HandleAct κ → Prop
  | .cancel h => h ∈ s.live → h ∉ s.loop.parkedTimers
  | .drop h => h ∈ s.live → h ∉ s.loop.parkedTimers
  | _ => True

instance (s : Handled κ) (a : HandleAct κ) : Decidable (s.StillScheduled a) :=
  match a with
  | .cancel h => inferInstanceAs (Decidable (h ∈ s.live → h ∉ s.loop.parkedTimers))
  | .drop h => inferInstanceAs (Decidable (h ∈ s.live → h ∉ s.loop.parkedTimers))
  | .schedule _ | .detach _ | .loop _ => isTrue trivial

/-- The invariant: timers are named by their handles, and a cancelled one is neither
pending nor started. -/
structure Stopped (s : Handled κ) : Prop where
  named : ∀ v ∈ s.loop.state.timers, v.2.callback = v.1
  live : ∀ h ∈ s.live, h < s.loop.state.nextHandle
  old : ∀ h ∈ s.cancelled, h < s.loop.state.nextHandle
  pending : ∀ h ∈ s.cancelled, h ∉ s.loop.pendingTimers
  fired : ∀ h ∈ s.cancelled, h ∉ s.loop.fired

theorem Stopped.schedule {s s' : Handled κ} (hi : s.Stopped) {inTime : Nat}
    (h : s.schedule b inTime = some s') : s'.Stopped := by
  obtain ⟨l, hl, rfl⟩ := Option.map_eq_some_iff.1 h
  simp only [Loop.schedule, Option.ite_none_right_eq_some, Option.some.injEq] at hl
  obtain ⟨-, rfl⟩ := hl
  refine ⟨?_, ?_, ?_, ?_, hi.fired⟩
  · intro v hv
    rcases List.mem_append.1 hv with hv | hv
    · exact hi.named v hv
    · rw [List.mem_singleton.1 hv]
  · intro h hh
    rcases List.mem_append.1 hh with hh | hh
    · exact Nat.lt_succ_of_lt (hi.live h hh)
    · rw [List.mem_singleton.1 hh]
      exact Nat.lt_succ_self _
  · exact fun h hh => Nat.lt_succ_of_lt (hi.old h hh)
  · intro h hh hp
    have hne : h ≠ s.loop.state.nextHandle := Nat.ne_of_lt (hi.old h hh)
    refine hi.pending h hh ?_
    simpa [Loop.pendingTimers, State.schedule, Loop.parkedTimers, hne] using hp

theorem Stopped.cancel {s s' : Handled κ} (hi : s.Stopped) {h : HandleType}
    (hok : h ∈ s.live → h ∉ s.loop.parkedTimers) (hc : s.cancel h = some s') :
    s'.Stopped := by
  unfold Handled.cancel at hc
  split at hc
  · rename_i hlive
    rw [List.contains_iff_mem] at hlive
    obtain ⟨l, hl, rfl⟩ := Option.map_eq_some_iff.1 hc
    simp only [Loop.unschedule, Option.ite_none_right_eq_some, Option.some.injEq] at hl
    obtain ⟨-, rfl⟩ := hl
    have hsub := s.loop.unscheduled_subset h
    refine ⟨?_, ?_, ?_, ?_, ?_⟩
    · exact fun v hv => hi.named v (List.mem_of_mem_filter hv)
    · exact fun k hk => hi.live k (List.mem_of_mem_filter hk)
    · intro k hk
      dsimp only at hk
      split at hk
      · exact hi.old k hk
      · rcases List.mem_append.1 hk with hk | hk
        · exact hi.old k hk
        · rw [List.mem_singleton.1 hk]
          exact hi.live h hlive
    · intro k hk hp
      dsimp only at hk
      split at hk
      · exact hi.pending k hk (hsub hp)
      · rcases List.mem_append.1 hk with hk | hk
        · exact hi.pending k hk (hsub hp)
        · -- the map holds no timer named `h` any more, and no batch does by the condition
          rw [List.mem_singleton.1 hk] at hp
          rcases List.mem_append.1 hp with hp | hp
          · obtain ⟨v, hv, hvh⟩ := List.mem_map.1 hp
            obtain ⟨hv, hne⟩ := List.mem_filter.1 hv
            have heq : v.1 = h := (hi.named v hv).symm.trans hvh
            simp [heq] at hne
          · exact hok hlive hp
    · intro k hk
      dsimp only at hk
      split at hk
      · exact hi.fired k hk
      · rename_i hf
        rcases List.mem_append.1 hk with hk | hk
        · exact hi.fired k hk
        · rw [List.mem_singleton.1 hk]
          simpa using hf
  · simp only [Option.ite_none_right_eq_some, Option.some.injEq] at hc
    obtain ⟨-, rfl⟩ := hc
    exact hi

variable [DecidableEq κ]

theorem Stopped.loop {s : Handled κ} (hi : s.Stopped) {a : Act κ HandleType}
    {l : Loop κ HandleType} (ha : a.isTimerCall = false) (h : Loop.Step b s.loop a l) :
    Stopped { s with loop := l } := by
  have hle : s.loop.state.nextHandle ≤ l.state.nextHandle := h.nextHandle_le
  have hnamed : ∀ v ∈ l.state.timers, v.2.callback = v.1 := fun v hv =>
    hi.named v (h.mem_timers ha hv)
  have hlive : ∀ k ∈ s.live, k < l.state.nextHandle := fun k hk =>
    Nat.lt_of_lt_of_le (hi.live k hk) hle
  have hold : ∀ k ∈ s.cancelled, k < l.state.nextHandle := fun k hk =>
    Nat.lt_of_lt_of_le (hi.old k hk) hle
  cases h.timerEffect with
  | quiet hp hf =>
      exact ⟨hnamed, hlive, hold, fun k hk hm => hi.pending k hk (hp hm),
        fun k hk => hf ▸ hi.fired k hk⟩
  | fire t ht hp hf =>
      refine ⟨hnamed, hlive, hold, fun k hk hm => hi.pending k hk (hp hm), ?_⟩
      intro k hk hm
      rw [hf] at hm
      rcases List.mem_append.1 hm with hm | hm
      · exact hi.fired k hk hm
      · exact hi.pending k hk (List.mem_singleton.1 hm ▸ ht)
  | schedule inTime t hact =>
      subst hact
      cases ha

omit [DecidableEq κ] in
theorem detach_cases {s s' : Handled κ} {h : HandleType} (hst : s.detach h = some s') :
    s' = { s with live := s.live.filter (· != h) } := by
  simp only [Handled.detach, Option.ite_none_right_eq_some, Option.some.injEq] at hst
  exact hst.2.symm

theorem loop_cases {s s' : Handled κ} {a : Act κ HandleType}
    (hst : s.step b (.loop a) = some s') :
    a.isTimerCall = false ∧ ∃ l, s.loop.step b a = some l ∧ s' = { s with loop := l } := by
  simp only [Handled.step, Option.ite_none_left_eq_some, Bool.not_eq_true,
    Option.map_eq_some_iff] at hst
  obtain ⟨ha, l, hl, rfl⟩ := hst
  exact ⟨ha, l, hl, rfl⟩

theorem Stopped.step {s s' : Handled κ} {a : HandleAct κ} (hi : s.Stopped)
    (hok : s.StillScheduled a) (h : s.step b a = some s') : s'.Stopped := by
  cases a with
  | schedule inTime => exact hi.schedule h
  | cancel h' => exact hi.cancel hok h
  | drop h' => exact hi.cancel hok h
  | detach h' =>
      obtain rfl := detach_cases h
      exact ⟨hi.named, fun k hk => hi.live k (List.mem_of_mem_filter hk), hi.old, hi.pending,
        hi.fired⟩
  | loop a =>
      obtain ⟨ha, l, hl, rfl⟩ := loop_cases h
      exact hi.loop ha (Loop.step_cases hl)

theorem stopped_of_reachVia {s : Handled κ}
    (h : (handleSystem κ b).ReachVia StillScheduled s) : s.Stopped := by
  refine h.invariant ⟨?_, ?_, ?_, ?_, ?_⟩ fun _ _ _ _ hi hok hst => hi.step hok hst
  all_goals
    intro x hx
    cases hx

/-! ## The backends that look a timer up again -/

theorem parkedTimers_handled {s s' : Handled κ} {a : HandleAct κ} (hb : b ≠ .darwin)
    (hi : s.loop.parkedTimers = []) (h : s.step b a = some s') : s'.loop.parkedTimers = [] := by
  cases a with
  | schedule inTime =>
      obtain ⟨l, hl, rfl⟩ := Option.map_eq_some_iff.1 h
      exact parkedTimers_step hb hi (Loop.step_cases (a := .schedule inTime _) hl)
  | cancel h' | drop h' =>
      simp only [Handled.step, Handled.cancel] at h
      split at h
      · obtain ⟨l, hl, rfl⟩ := Option.map_eq_some_iff.1 h
        exact parkedTimers_step hb hi (Loop.step_cases (a := .unschedule h') hl)
      · simp only [Option.ite_none_right_eq_some, Option.some.injEq] at h
        exact h.2 ▸ hi
  | detach h' =>
      obtain rfl := detach_cases h
      exact hi
  | loop a =>
      obtain ⟨-, l, hl, rfl⟩ := loop_cases h
      exact parkedTimers_step hb hi (Loop.step_cases hl)

theorem parkedTimers_of_reachable (hb : b ≠ .darwin) {s : Handled κ}
    (h : (handleSystem κ b).Reachable s) : s.loop.parkedTimers = [] :=
  h.invariant (I := fun s : Handled κ => s.loop.parkedTimers = []) rfl
    fun _ _ _ _ hi hst => parkedTimers_handled hb hi hst

/-- Where no batch ever holds a timer, every cancellation meets the condition. -/
theorem reachVia_of_reachable (hb : b ≠ .darwin) {s : Handled κ}
    (h : (handleSystem κ b).Reachable s) : (handleSystem κ b).ReachVia StillScheduled s := by
  induction h with
  | init => exact .init
  | @step s s' a hr _ hst ih =>
      have hp : s.loop.parkedTimers = [] := parkedTimers_of_reachable hb hr
      refine .step ih ?_ hst
      cases a with
      | cancel h => simp [StillScheduled, hp]
      | drop h => simp [StillScheduled, hp]
      | _ => trivial

/-! ## The result -/

omit [DecidableEq κ] in
/-- Cancelling a timer of a batch leaves it there. -/
theorem cancel_leaves_parked {s s' : Handled κ} {h : HandleType} (hlive : h ∈ s.live)
    (hp : h ∈ s.loop.parkedTimers) (hc : s.cancel h = some s') :
    h ∈ s'.loop.parkedTimers ∧ (h ∉ s.loop.fired → h ∈ s'.cancelled) := by
  have hcont : s.live.contains h = true := List.contains_iff_mem.2 hlive
  simp only [Handled.cancel, hcont, if_true] at hc
  obtain ⟨l, hl, rfl⟩ := Option.map_eq_some_iff.1 hc
  simp only [Loop.unschedule, Option.ite_none_right_eq_some, Option.some.injEq] at hl
  obtain ⟨-, rfl⟩ := hl
  exact ⟨hp, fun hf => by simp [hf]⟩

/-- **A cancelled timer never fires** in every run whose cancellations find the timer
not yet in a batch, which on Win32, Android and Linux is every run; a cancellation that
finds it in a batch leaves it there to be run. -/
theorem cancelled_timer_never_fires :
    (∀ (b : Backend) (s : Handled κ), (handleSystem κ b).ReachVia StillScheduled s →
      ∀ h ∈ s.cancelled, h ∉ s.loop.fired) ∧
    (∀ (b : Backend) (s : Handled κ), b ≠ .darwin → (handleSystem κ b).Reachable s →
      ∀ h ∈ s.cancelled, h ∉ s.loop.fired) ∧
    (∀ (b : Backend) (s s' : Handled κ) (a : HandleAct κ), (handleSystem κ b).Reachable s →
      ¬ s.StillScheduled a → s.step b a = some s' →
      ∃ h ∈ s'.loop.parkedTimers, h ∉ s.loop.fired → h ∈ s'.cancelled) := by
  refine ⟨fun b s h => (stopped_of_reachVia h).fired, fun b s hb h =>
    (stopped_of_reachVia (reachVia_of_reachable hb h)).fired, ?_⟩
  intro b s s' a _ hok h
  cases a with
  | cancel t | drop t =>
      simp only [StillScheduled, Classical.not_imp, Classical.not_not] at hok
      exact ⟨t, cancel_leaves_parked hok.1 hok.2 h⟩
  | schedule | detach | loop => exact absurd trivial hok

/-- On Darwin the callback of timer 1 cancels timer 2, which is due later. -/
def cancelLaterRun : List (HandleAct Nat) :=
  [.schedule 10, .schedule 20, .loop (.tick 15), .loop (.dispatchCallbacks [1]),
    .loop (.next []), .cancel 2, .loop .finish, .loop (.next []), .loop (.tick 15),
    .loop (.dispatchCallbacks []), .loop (.next [])]

theorem cancelled_timer_never_fires_later :
    ∃ s : Handled Nat, s.cancelled = [2] ∧ s.loop.fired = [1] ∧
      ∀ h ∈ s.cancelled, h ∉ s.loop.fired := by
  have hrun : ((handleSystem Nat .darwin).runVia StillScheduled {} cancelLaterRun).map
      (fun s => s.cancelled == [2] && s.loop.fired == [1]) = some true := by decide
  obtain ⟨s, hs, hp⟩ := System.exists_reachVia _ _ hrun
  simp only [Bool.and_eq_true, beq_iff_eq] at hp
  exact ⟨s, hp.1, hp.2, cancelled_timer_never_fires.1 .darwin s hs⟩

/-- On Darwin the callback of timer 1 cancels timer 2, which is due in the same pass. -/
def cancelInBatchRun : List (HandleAct Nat) :=
  [.schedule 10, .schedule 10, .loop (.tick 15), .loop (.dispatchCallbacks [1, 2]),
    .loop (.next []), .cancel 2, .loop .finish, .loop (.next [])]

/-- The cancelled timer fires. -/
theorem cancelled_timer_fires :
    ((handleSystem Nat .darwin).run {} cancelInBatchRun).map
      (fun s => (s.cancelled, s.loop.fired)) = some ([2], [1, 2]) := by
  decide

end Handled

end Wxp.RunLoop
