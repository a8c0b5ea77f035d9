import Wxp.RunLoop.Delays

/-!
# RunLoopTimer — Timer

The repeating `Timer` of the crate `run_loop_timer` (`src/lib.rs`), on a run loop that
never fires a cancelled handle. Everything happens on one thread, but the callback may
start, stop or drop its own timer, and may pump the loop, in which another tick runs
inside the tick that runs the callback.

A `Handle` cancels its tick when it is dropped, so writing `current_handle` leaves one
tick at most, whichever of `start` and `run_timer_tick` wrote it last: `Slot`. What is
left of the timer after its drop goes with the last tick that runs.

Result: `repeating_timer_discipline`.
-/

namespace Wxp.RunLoopTimer

open RunLoop (Backend HandleType Instant INVALID_HANDLE)

/-- History: one call of `callback.execute`. -/
structure Invocation where
  time : Instant
  startedAt : Instant
  endedAt : Option Instant
  isRunning : Bool
  dropped : Bool
  deriving DecidableEq, Repr

/-- `TimerInner`, and the ticks of it that the run loop holds. -/
structure State where
  isRunning : Bool := false
  currentHandle : Option HandleType := none
  /-- The `Timer` was dropped. -/
  dropped : Bool := false
  /-- How many calls of `run_timer_tick` are inside the callback; each holds the
  `TimerInner`. -/
  ticks : Nat := 0
  /-- The scheduled ticks, with their deadlines. -/
  pending : List (HandleType × Instant) := []
  nextHandle : HandleType := INVALID_HANDLE + 1
  now : Instant := 0
  /-- History: the `start` that made the timer run. -/
  startedAt : Instant := 0
  /-- History: the end of the last finished callback. -/
  endedAt : Option Instant := none
  invoked : List Invocation := []

inductive Action
  | advance (d : Nat)
  | start
  | stop
  | drop
  /-- The run loop calls `run_timer_tick`. -/
  | fire (h : HandleType)
  /-- The innermost callback returns to its tick. -/
  | endTick
  deriving DecidableEq, Repr

namespace State

def unschedule (s : State) (h : HandleType) : State :=
  { s with pending := s.pending.filter fun p => p.1 != h }

/-- `*current_handle = handle`; the handle that was there is dropped. -/
def setHandle (s : State) (handle : Option HandleType) : State :=
  match s.currentHandle with
  | some h => { s.unschedule h with currentHandle := handle }
  | none => { s with currentHandle := handle }

/-- `schedule_next`; also the end of `run_timer_tick`. -/
def scheduleNext (s : State) (b : Backend) (interval : Nat) : State :=
  setHandle { s with
    pending := s.pending ++ [(s.nextHandle, b.deadline s.now interval)]
    nextHandle := s.nextHandle + 1 } (some s.nextHandle)

def start (s : State) (b : Backend) (interval : Nat) : State :=
  if s.isRunning then s
  else scheduleNext { s with isRunning := true, startedAt := s.now } b interval

def stop (s : State) : State := setHandle { s with isRunning := false } none

/-- `Drop for Timer`. -/
def drop (s : State) : State := { s.stop with dropped := true }

/-- `weak_inner.upgrade()` finds the `TimerInner`. -/
def upgrades (s : State) : Bool := !s.dropped || decide (0 < s.ticks)

/-- `run_timer_tick` up to the callback. -/
def runTimerTick (s : State) : State :=
  if s.upgrades then
    if s.isRunning then
      { s with
        ticks := s.ticks + 1
        invoked := s.invoked ++ [⟨s.now, s.startedAt, s.endedAt, s.isRunning, s.dropped⟩] }
    else s
  else s

/-- `run_timer_tick` after the callback. Its `TimerInner` goes if nothing else holds it. -/
def endTick (s : State) (b : Backend) (interval : Nat) : State :=
  let s := { scheduleNext s b interval with ticks := s.ticks - 1, endedAt := some s.now }
  if s.upgrades then s else s.setHandle none

def step (b : Backend) (interval : Nat) (s : State) : Action → Option State
  | .advance d => some { s with now := s.now + d }
  | .start => if s.dropped then none else some (s.start b interval)
  | .stop => if s.dropped then none else some s.stop
  | .drop => if s.dropped then none else some s.drop
  | .fire h =>
      match s.pending.lookup h with
      | some deadline => if deadline ≤ s.now then some (s.unschedule h).runTimerTick else none
      | none => none
  | .endTick => if s.ticks = 0 then none else some (s.endTick b interval)

end State

/-- One timer with this interval. -/
def timerSystem (b : Backend) (interval : Nat) : System State Action where
  init := {}
  step := State.step b interval

/-! ## The slot of the timer -/

namespace State

variable {b : Backend} {interval : Nat} {s s' : State}

/-- At most one tick is scheduled, and its handle is the current one. -/
structure Slot (s : State) : Prop where
  held : s.pending = [] ∨ ∃ h d, s.pending = [(h, d)] ∧ s.currentHandle = some h
  fresh : ∀ h, s.currentHandle = some h → h < s.nextHandle

theorem Slot.length_le (h : s.Slot) : s.pending.length ≤ 1 := by
  rcases h.held with he | ⟨_, _, he, -⟩ <;> simp [he]

/-- Dropping the current handle leaves no tick. -/
theorem Slot.filter_eq_nil (h : s.Slot) {hd : HandleType} (hc : s.currentHandle = some hd) :
    s.pending.filter (fun p => p.1 != hd) = [] := by
  rcases h.held with he | ⟨hd', d, he, hc'⟩
  · simp [he]
  · rw [hc, Option.some.injEq] at hc'
    simp [he, hc']

theorem Slot.pending_eq_nil (h : s.Slot) (hc : s.currentHandle = none) : s.pending = [] := by
  rcases h.held with he | ⟨_, _, -, hc'⟩
  · exact he
  · exact (nomatch hc.symm.trans hc')

/-- `current_handle` takes the new tick and lets go of the old one. -/
theorem Slot.scheduleNext_eq (h : s.Slot) (b : Backend) (interval : Nat) :
    s.scheduleNext b interval = { s with
      pending := [(s.nextHandle, b.deadline s.now interval)]
      nextHandle := s.nextHandle + 1
      currentHandle := some s.nextHandle } := by
  cases hc : s.currentHandle with
  | none => simp [scheduleNext, setHandle, hc, h.pending_eq_nil hc]
  | some hd =>
      have hne : s.nextHandle ≠ hd := Nat.ne_of_gt (h.fresh hd hc)
      simp [scheduleNext, setHandle, unschedule, hc, h.filter_eq_nil hc, hne]

theorem Slot.setHandle_none_eq (h : s.Slot) :
    s.setHandle none = { s with pending := [], currentHandle := none } := by
  cases hc : s.currentHandle with
  | none => simp [setHandle, hc, h.pending_eq_nil hc]
  | some hd => simp [setHandle, unschedule, hc, h.filter_eq_nil hc]

/-! ## What one step can do -/

/-- The transitions of a timer with one slot. -/
inductive Step (b : Backend) (interval : Nat) (s : State) : Action → State → Prop
  | advance (d : Nat) : Step b interval s (.advance d) { s with now := s.now + d }
  | startAgain : s.isRunning = true → Step b interval s .start s
  | start : s.isRunning = false → s.dropped = false →
      Step b interval s .start { s with
        isRunning := true
        startedAt := s.now
        pending := [(s.nextHandle, b.deadline s.now interval)]
        nextHandle := s.nextHandle + 1
        currentHandle := some s.nextHandle }
  | stop : Step b interval s .stop
      { s with isRunning := false, pending := [], currentHandle := none }
  | drop : Step b interval s .drop
      { s with isRunning := false, dropped := true, pending := [], currentHandle := none }
  | discard (h : HandleType) : s.upgrades = false ∨ s.isRunning = false →
      Step b interval s (.fire h) { s with pending := [] }
  | invoke (h : HandleType) (d : Instant) : s.pending = [(h, d)] → d ≤ s.now →
      s.isRunning = true →
      Step b interval s (.fire h) { s with
        pending := []
        ticks := s.ticks + 1
        invoked := s.invoked ++ [⟨s.now, s.startedAt, s.endedAt, s.isRunning, s.dropped⟩] }
  | endTick : s.dropped = false ∨ s.ticks - 1 ≠ 0 →
      Step b interval s .endTick { s with
        ticks := s.ticks - 1
        endedAt := some s.now
        pending := [(s.nextHandle, b.deadline s.now interval)]
        nextHandle := s.nextHandle + 1
        currentHandle := some s.nextHandle }
  | endLast : s.dropped = true →
      Step b interval s .endTick { s with
        ticks := s.ticks - 1
        endedAt := some s.now
        pending := []
        nextHandle := s.nextHandle + 1
        currentHandle := none }

theorem Slot.schedule (b : Backend) (interval : Nat) {s' : State}
    (hp : s'.pending = [(s.nextHandle, b.deadline s.now interval)])
    (hn : s'.nextHandle = s.nextHandle + 1) (hc : s'.currentHandle = some s.nextHandle) :
    s'.Slot where
  held := .inr ⟨_, _, hp, hc⟩
  fresh h hh := by
    rw [hc, Option.some.injEq] at hh
    rw [hn, ← hh]
    exact Nat.lt_succ_self _

theorem Slot.clear (h : s.Slot) (hp : s'.pending = [])
    (hc : s'.currentHandle = s.currentHandle) (hn : s.nextHandle = s'.nextHandle) : s'.Slot where
  held := .inl hp
  fresh hd hh := hn ▸ h.fresh hd (hc ▸ hh)

theorem Slot.none (hp : s.pending = []) (hc : s.currentHandle = none) : s.Slot where
  held := .inl hp
  fresh _ hh := (nomatch hc.symm.trans hh)

theorem Slot.step (h : s.Slot) {a : Action} (hst : Step b interval s a s') : s'.Slot := by
  cases hst with
  | advance => exact ⟨h.held, h.fresh⟩
  | startAgain => exact h
  | start | endTick => exact .schedule b interval rfl rfl rfl
  | stop | drop | endLast => exact .none rfl rfl
  | discard | invoke => exact h.clear rfl rfl rfl

/-- **Every step is one of the transitions.** -/
theorem Slot.step_cases (h : s.Slot) {a : Action} (hst : s.step b interval a = some s') :
    Step b interval s a s' := by
  cases a with
  | advance d =>
      cases hst
      exact .advance d
  | start =>
      simp only [State.step, Option.ite_none_left_eq_some, Option.some.injEq,
        Bool.not_eq_true] at hst
      obtain ⟨hd, rfl⟩ := hst
      unfold State.start
      split
      · rename_i hr
        exact .startAgain hr
      · rename_i hr
        have hslot : Slot { s with isRunning := true, startedAt := s.now } := ⟨h.held, h.fresh⟩
        rw [hslot.scheduleNext_eq]
        exact .start (by simpa using hr) hd
  | stop =>
      simp only [State.step, Option.ite_none_left_eq_some, Option.some.injEq] at hst
      obtain ⟨-, rfl⟩ := hst
      have hslot : Slot { s with isRunning := false } := ⟨h.held, h.fresh⟩
      rw [State.stop, hslot.setHandle_none_eq]
      exact .stop
  | drop =>
      simp only [State.step, Option.ite_none_left_eq_some, Option.some.injEq] at hst
      obtain ⟨-, rfl⟩ := hst
      have hslot : Slot { s with isRunning := false } := ⟨h.held, h.fresh⟩
      rw [State.drop, State.stop, hslot.setHandle_none_eq]
      exact .drop
  | fire hd =>
      simp only [State.step] at hst
      split at hst
      · rename_i d hl
        simp only [Option.ite_none_right_eq_some, Option.some.injEq] at hst
        obtain ⟨hle, rfl⟩ := hst
        have hp : s.pending = [(hd, d)] := by
          rcases h.held with he | ⟨hd', d', he, -⟩
          · simp [he] at hl
          · rw [he, List.lookup_cons] at hl
            split at hl
            · rename_i heq
              obtain rfl := beq_iff_eq.1 heq
              cases hl
              exact he
            · cases hl
        have hun : s.unschedule hd = { s with pending := [] } := by
          simp [unschedule, hp]
        rw [hun, runTimerTick]
        split
        · split
          · rename_i hr
            exact .invoke hd d hp hle hr
          · rename_i hr
            exact .discard hd (.inr (by simpa using hr))
        · rename_i hu
          exact .discard hd (.inl (by simpa [upgrades] using hu))
      · cases hst
  | endTick =>
      simp only [State.step, Option.ite_none_left_eq_some, Option.some.injEq] at hst
      obtain ⟨-, rfl⟩ := hst
      simp only [State.endTick, h.scheduleNext_eq]
      split
      · rename_i hu
        refine .endTick ?_
        rcases (by simpa [upgrades] using hu) with hd | ht
        · exact .inl hd
        · exact .inr (by omega)
      · rename_i hu
        have hd : s.dropped = true := by
          by_contra hn
          simp [upgrades, hn] at hu
        rw [Slot.setHandle_none_eq (.schedule (s := s) b interval rfl rfl rfl)]
        exact .endLast hd

/-! ## The discipline -/

structure Sound (s : State) : Prop extends Slot s where
  armed : s.isRunning = true → s.ticks = 0 → s.pending ≠ []
  stopped : s.dropped = true → s.isRunning = false
  invoked : ∀ v ∈ s.invoked, v.isRunning = true ∧ v.dropped = false

theorem Sound.init : Sound {} where
  held := .inl rfl
  fresh _ h := nomatch h
  armed h := nomatch h
  stopped h := nomatch h
  invoked _ h := nomatch h

theorem Sound.next (h : s.Sound) {a : Action} (hst : Step b interval s a s') : s'.Sound := by
  have hslot := h.toSlot.step hst
  cases hst with
  | advance => exact ⟨hslot, h.armed, h.stopped, h.invoked⟩
  | startAgain => exact h
  | start hr hd =>
      exact ⟨hslot, fun _ _ => List.cons_ne_nil _ _, fun hd' => (nomatch hd.symm.trans hd'),
        h.invoked⟩
  | stop => exact ⟨hslot, fun hr => (nomatch hr), fun _ => rfl, h.invoked⟩
  | drop => exact ⟨hslot, fun hr => (nomatch hr), fun _ => rfl, h.invoked⟩
  | discard hd hno =>
      refine ⟨hslot, fun hr ht => ?_, h.stopped, h.invoked⟩
      -- a running timer was not dropped, so its tick upgrades
      rcases hno with hu | hr'
      · cases hd : s.dropped with
        | true => exact (nomatch (h.stopped hd).symm.trans hr)
        | false => simp [upgrades, hd] at hu
      · exact (nomatch hr'.symm.trans hr)
  | invoke hd d hp hle hr =>
      refine ⟨hslot, fun _ ht => absurd ht (Nat.succ_ne_zero _), h.stopped, fun v hv => ?_⟩
      rcases List.mem_append.1 hv with hv | hv
      · exact h.invoked v hv
      · obtain rfl := List.mem_singleton.1 hv
        refine ⟨hr, ?_⟩
        cases hd : s.dropped with
        | true => exact (nomatch (h.stopped hd).symm.trans hr)
        | false => rfl
  | endTick => exact ⟨hslot, fun _ _ => List.cons_ne_nil _ _, h.stopped, h.invoked⟩
  | endLast hd =>
      exact ⟨hslot, fun hr => (nomatch (h.stopped hd).symm.trans hr), h.stopped, h.invoked⟩

theorem sound_of_reachable (h : (timerSystem b interval).Reachable s) : s.Sound :=
  h.invariant .init fun _ _ _ _ hi hst => hi.next (hi.toSlot.step_cases hst)

/-! ## The interval -/

/-- The backend does not round the interval down. -/
def Waits (b : Backend) (interval : Nat) : Prop :=
  b = .linux → interval % 1000000 = 0 ∧ interval < 2 ^ 32 * 1000000

instance (b : Backend) (interval : Nat) : Decidable (Waits b interval) :=
  inferInstanceAs (Decidable (_ → _))

theorem le_deadline_iff (b : Backend) (now : Instant) (interval : Nat) :
    now + interval ≤ b.deadline now interval ↔ Waits b interval :=
  b.le_deadline_iff now interval

/-- An interval has passed since the start that made the timer run, and since the end of
the last finished callback. -/
def OnTime (interval : Nat) (v : Invocation) : Prop :=
  v.startedAt + interval ≤ v.time ∧ ∀ e, v.endedAt = some e → e + interval ≤ v.time

structure Timed (interval : Nat) (s : State) : Prop where
  startedAt : s.startedAt ≤ s.now
  endedAt : ∀ e, s.endedAt = some e → e ≤ s.now
  due : ∀ p ∈ s.pending, s.startedAt + interval ≤ p.2 ∧
    ∀ e, s.endedAt = some e → e + interval ≤ p.2
  invoked : ∀ v ∈ s.invoked, OnTime interval v

theorem Timed.init (interval : Nat) : Timed interval {} where
  startedAt := Nat.le_refl 0
  endedAt _ h := nomatch h
  due _ h := nomatch h
  invoked _ h := nomatch h

/-- A tick scheduled now is due an interval after everything that has happened. -/
theorem due_deadline (hw : Waits b interval) {started now : Instant} {ended : Option Instant}
    (hs : started ≤ now) (he : ∀ e, ended = some e → e ≤ now) (h : HandleType) :
    ∀ p ∈ [(h, b.deadline now interval)], started + interval ≤ p.2 ∧
      ∀ e, ended = some e → e + interval ≤ p.2 := by
  have hle := (le_deadline_iff b now interval).2 hw
  intro p hp
  obtain rfl := List.mem_singleton.1 hp
  exact ⟨Nat.le_trans (Nat.add_le_add_right hs _) hle,
    fun e hes => Nat.le_trans (Nat.add_le_add_right (he e hes) _) hle⟩

theorem Timed.next (hw : Waits b interval) (h : s.Timed interval) {a : Action}
    (hst : Step b interval s a s') : s'.Timed interval := by
  have hnow : ∀ e, some s.now = some e → e ≤ s.now := fun e he => by
    rw [Option.some.injEq] at he
    exact Nat.le_of_eq he.symm
  cases hst with
  | advance d =>
      exact ⟨Nat.le_trans h.startedAt (Nat.le_add_right _ _),
        fun e he => Nat.le_trans (h.endedAt e he) (Nat.le_add_right _ _), h.due, h.invoked⟩
  | startAgain => exact h
  | start =>
      exact ⟨Nat.le_refl _, h.endedAt, due_deadline hw (Nat.le_refl _) h.endedAt _, h.invoked⟩
  | stop | drop | discard =>
      exact ⟨h.startedAt, h.endedAt, fun p hp => (nomatch hp), h.invoked⟩
  | invoke hd d hp hle hr =>
      obtain ⟨hs, he⟩ := h.due (hd, d) (hp ▸ List.mem_singleton_self _)
      refine ⟨h.startedAt, h.endedAt, fun p hp => (nomatch hp), fun v hv => ?_⟩
      rcases List.mem_append.1 hv with hv | hv
      · exact h.invoked v hv
      · obtain rfl := List.mem_singleton.1 hv
        exact ⟨Nat.le_trans hs hle, fun e hes => Nat.le_trans (he e hes) hle⟩
  | endTick => exact ⟨h.startedAt, hnow, due_deadline hw h.startedAt hnow _, h.invoked⟩
  | endLast => exact ⟨h.startedAt, hnow, fun p hp => (nomatch hp), h.invoked⟩

/-- The first tick fires at its deadline. -/
theorem first_tick (b : Backend) (interval : Nat) : ∃ s, (timerSystem b interval).Reachable s ∧
    s.invoked = [⟨b.deadline 0 interval, 0, none, true, false⟩] := by
  have hrun : (timerSystem b interval).run (timerSystem b interval).init
      [.start, .advance (b.deadline 0 interval), .fire 1] = some {
        isRunning := true
        currentHandle := some 1
        ticks := 1
        nextHandle := 2
        now := b.deadline 0 interval
        invoked := [⟨b.deadline 0 interval, 0, none, true, false⟩] } := by
    simp [System.run, System.runVia, timerSystem, State.step, State.start, State.scheduleNext,
      setHandle, INVALID_HANDLE, unschedule, runTimerTick, upgrades]
  exact ⟨_, System.reachVia_runVia .init hrun, rfl⟩

/-- **The discipline of a repeating timer**, in every run: at most one tick is scheduled;
the callback is called only while the timer runs and was not dropped; and a timer that
runs has a tick scheduled unless one runs. The callback is never called before its
interval has passed exactly if the backend does not round the interval down. -/
theorem repeating_timer_discipline (b : Backend) (interval : Nat) :
    (∀ s, (timerSystem b interval).Reachable s →
      s.pending.length ≤ 1 ∧
      (∀ v ∈ s.invoked, v.isRunning = true ∧ v.dropped = false) ∧
      (s.isRunning = true → s.ticks = 0 → s.pending.length = 1)) ∧
    ((∀ s, (timerSystem b interval).Reachable s → ∀ v ∈ s.invoked, OnTime interval v) ↔
      Waits b interval) := by
  refine ⟨fun s hs => ?_, fun h => ?_, fun hw s hs => ?_⟩
  · have hsound := sound_of_reachable hs
    refine ⟨hsound.length_le, hsound.invoked, fun hr ht => ?_⟩
    exact Nat.le_antisymm hsound.length_le (List.length_pos_iff.2 (hsound.armed hr ht))
  · obtain ⟨s, hs, hv⟩ := first_tick b interval
    have := (h s hs _ (hv ▸ List.mem_singleton_self _)).1
    exact (le_deadline_iff b 0 interval).1 this
  · have : s.Sound ∧ s.Timed interval :=
      hs.invariant (I := fun s => s.Sound ∧ s.Timed interval) ⟨.init, .init interval⟩
        fun _ _ _ _ hi hst =>
        ⟨hi.1.next (hi.1.toSlot.step_cases hst), hi.2.next hw (hi.1.toSlot.step_cases hst)⟩
    exact this.2.invoked

/-- The callback stops and starts its timer, pumps the loop for a tick, and then drops it;
the next tick is not scheduled. -/
theorem repeating_timer_discipline_reentrant : ∃ s,
    (timerSystem .linux 2000000).Reachable s ∧ s.invoked.length = 2 ∧ s.pending = [] ∧
      ∀ v ∈ s.invoked, OnTime 2000000 v := by
  obtain ⟨s, hs, hp⟩ := System.exists_reachable (S := timerSystem .linux 2000000)
    [.start, .advance 2000000, .fire 1, .stop, .start, .advance 2000000, .fire 2, .endTick,
      .drop, .endTick] (fun s => decide (s.invoked.length = 2 ∧ s.pending = []))
    (by decide)
  obtain ⟨hi, hpend⟩ := of_decide_eq_true hp
  exact ⟨s, hs, hi, hpend,
    (repeating_timer_discipline .linux 2000000).2.2 (by decide) s hs⟩

/-- On Linux an interval of 1.5 ms is over after 1 ms. -/
theorem timer_fires_early : ∃ s, (timerSystem .linux 1500000).Reachable s ∧
    ∃ v ∈ s.invoked, v.startedAt = 0 ∧ v.time = 1000000 ∧ ¬ OnTime 1500000 v := by
  obtain ⟨s, hs, hv⟩ := first_tick .linux 1500000
  refine ⟨s, hs, _, hv ▸ List.mem_singleton_self _, rfl, by decide, fun h => ?_⟩
  exact absurd ((le_deadline_iff .linux 0 1500000).1 h.1) (by decide)

end State

end Wxp.RunLoopTimer
