import Wxp.RunLoop.Handles

/-!
# RunLoop — Armed

No step loses a timer: a timer that is pending stays so until its callback is started
(`Loop.firing`) or its handle is unscheduled. This is the other half of `TimerEffect`. The map
has to show each handle once (`Loop.Distinct`), as a removal goes by the handle.
-/

namespace Wxp.RunLoop

variable {κ τ : Type}

/-- The callback that the step starts. -/
def Loop.starting (l : Loop κ τ) : Act κ τ → Option κ
  | .dispatchSource c => some c
  | .next _ =>
      match l.stack with
      | .batch (c :: _) _ :: _ => some c
      | _ => none
  | _ => none

/-- The timer whose callback the step starts. -/
def Loop.firing (l : Loop κ τ) : Act κ τ → Option τ
  | .dispatchTimeout h => (l.state.timers.lookup h).map (·.callback)
  | .next _ =>
      match l.stack with
      | .batch [] (t :: _) :: _ => some t.callback
      | .timers (h :: _) :: _ => (l.state.timers.lookup h).map (·.callback)
      | _ => none
  | _ => none

/-- The map holds under a handle what it was asked for. -/
theorem Loop.Distinct.lookup {l : Loop κ τ} (hd : l.Distinct) {v : HandleType × Timer τ}
    (hv : v ∈ l.state.timers) : l.state.timers.lookup v.1 = some v.2 := by
  cases hl : l.state.timers.lookup v.1 with
  | none => exact absurd (beq_self_eq_true v.1) (by simpa using List.lookup_eq_none_iff.1 hl v hv)
  | some u => exact congrArg some (eq_of_mem_timers hd.nodup (mem_of_lookup hl) hv)

/-- The removal of a handle takes one timer. -/
theorem Loop.Distinct.mem_removeTimer {l : Loop κ τ} (hd : l.Distinct) {t : τ}
    (ht : t ∈ l.state.timers.map (·.2.callback)) (h : HandleType) :
    t ∈ (l.state.removeTimer h).timers.map (·.2.callback) ∨
      (l.state.timers.lookup h).map (·.callback) = some t := by
  obtain ⟨v, hv, rfl⟩ := List.mem_map.1 ht
  by_cases hvh : v.1 = h
  · right
    rw [← hvh, hd.lookup hv]
    rfl
  · left
    exact List.mem_map.2 ⟨v, List.mem_filter.2 ⟨hv, by simpa using hvh⟩, rfl⟩

/-- A timer that Darwin drains goes to the batch, the others stay in the map. -/
theorem Loop.Distinct.mem_drained {l : Loop κ τ} (hd : l.Distinct) {t : τ}
    (ht : t ∈ l.state.timers.map (·.2.callback)) (order : List HandleType) :
    t ∈ (l.state.getPendingExecution order).2.timers.map (·.2.callback) ∨
      t ∈ (l.state.getPendingExecution order).1.2.map (·.callback) := by
  obtain ⟨v, hv, rfl⟩ := List.mem_map.1 ht
  by_cases ho : v.1 ∈ order
  · right
    exact List.mem_map.2 ⟨v.2, List.mem_filterMap.2 ⟨v.1, ho, hd.lookup hv⟩, rfl⟩
  · left
    exact List.mem_map.2 ⟨v, List.mem_filter.2 ⟨hv, by simpa using ho⟩, rfl⟩

section Steps

variable [DecidableEq κ] {b : Backend} {l l' : Loop κ τ} {a : Act κ τ}

theorem Loop.Step.started_eq (h : Loop.Step b l a l') :
    l'.started = l.started ++ (l.starting a).toList := by
  cases h with
  | nextCallback _ _ _ _ _ hst | nextTimer _ _ _ _ hst | nextHandle _ _ _ _ _ hst
  | batchDone _ _ hst | timersDone _ _ hst | timersRead _ _ hst | handleGone _ _ _ _ hst =>
      simp [Loop.starting, Loop.start, Loop.fire, hst]
  | _ => simp [Loop.starting, Loop.start, Loop.fire, Loop.push]

/-- No step loses a callback either. -/
theorem Loop.Step.keeps_callback (h : Loop.Step b l a l') {c : κ} (hc : c ∈ l.unstarted) :
    c ∈ l'.unstarted ∨ l.starting a = some c := by
  cases h.effect with
  | quiet hu => exact .inl (hu.mem_iff.2 hc)
  | accept c' _ _ hu => exact .inl (hu.mem_iff.2 (List.mem_cons_of_mem _ hc))
  | finish c' hu => exact .inl (hu ▸ hc)
  | start c' hu _ _ hs =>
      rcases List.mem_cons.1 (hu.mem_iff.1 hc) with rfl | hc
      · right
        have hstart := List.append_cancel_left (h.started_eq.symm.trans hs)
        exact Option.toList_eq_singleton_iff.1 hstart
      · exact .inl hc

/-- **No step loses a timer.** -/
theorem Loop.Step.keeps_timer (h : Loop.Step b l a l') (hd : l.Distinct) {t : τ}
    (ht : t ∈ l.pendingTimers)
    (hu : ∀ k, a = .unschedule k → (l.state.timers.lookup k).map (·.callback) ≠ some t) :
    t ∈ l'.pendingTimers ∨ l.firing a = some t := by
  have hmap : ∀ k, t ∈ l.state.timers.map (·.2.callback) →
      (l.state.timers.lookup k).map (·.callback) ≠ some t →
      t ∈ (l.state.removeTimer k).timers.map (·.2.callback) := fun k hm hk =>
    (hd.mem_removeTimer hm k).resolve_right hk
  rw [Loop.pendingTimers, List.mem_append] at ht
  cases h with
  | tick | send | wake | wakeCoalesced | source | processCallbacks | dispatchTimers
  | enterBlockOn | enterNative => exact .inl (List.mem_append.2 ht)
  | schedule inTime u =>
      left
      simp only [Loop.pendingTimers, State.schedule, List.map_append, List.mem_append]
      exact ht.imp_left .inl
  | unschedule k =>
      exact .inl (List.mem_append.2 (ht.imp_left fun hm => hmap k hm (hu k rfl)))
  | drain order =>
      left
      simp only [Loop.pendingTimers, Loop.parkedTimers, List.flatMap_cons, List.mem_append,
        Frame.parkedTimers_batch]
      rcases ht with hm | hp
      · exact (hd.mem_drained hm order).imp_right .inl
      · exact .inr (.inr hp)
  | timeout k u _ hl =>
      by_cases hk : (l.state.timers.lookup k).map (·.callback) = some t
      · exact .inr hk
      · exact .inl (List.mem_append.2 (ht.imp_left fun hm => hmap k hm hk))
  | nextHandle order k ks u rest hst hl =>
      by_cases hk : (l.state.timers.lookup k).map (·.callback) = some t
      · right
        simpa [Loop.firing, hst] using hk
      -- the handle stood for another timer
      · refine .inl (List.mem_append.2 (ht.imp (fun hm => hmap k hm hk) fun hp => ?_))
        simpa [Loop.parkedTimers, Loop.fire, hst] using hp
  | nextTimer order u us rest hst =>
      simp only [Loop.parkedTimers, hst, List.flatMap_cons, Frame.parkedTimers_batch,
        List.map_cons, List.mem_append, List.mem_cons] at ht
      by_cases hk : t = u.callback
      · right
        simp [Loop.firing, hst, hk]
      · left
        simp only [Loop.pendingTimers, Loop.parkedTimers, Loop.fire, List.flatMap_cons,
          Frame.parkedTimers_batch, Frame.parkedTimers_timer, List.mem_append]
        tauto
  | nextCallback _ _ _ _ _ hst | batchDone _ _ hst | timersDone _ _ hst | timersRead _ _ hst
  | handleGone _ _ _ _ hst | finishCallback _ _ hst | finishTimer _ _ hst | takeQueued _ hst
  | pollReady _ hst | pollPending _ hst | pollOnceReturns _ hst | exitNative _ hst =>
      left
      simpa [Loop.pendingTimers, Loop.parkedTimers, Loop.start, hst] using ht

end Steps

end Wxp.RunLoop
