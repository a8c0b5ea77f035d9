import Wxp.RunLoop.Handles

/-!
# RunLoop — Delays

When a callback passed to `schedule` may run. Every timer carries the record of the call that
made it (`ScheduleCall`): its handle, the time of the call and the delay. A record is a
history; no step reads it.

Darwin, Win32 and Android keep the deadline as an `Instant` and compare it with the clock when
they take a timer up. Linux hands GLib the delay as whole milliseconds in a `c_uint` and does
not look at the clock again.

Result: `no_callback_early_iff`.
-/

namespace Wxp.RunLoop

/-- A call of `PlatformRunLoop::schedule`, and the handle it returned. -/
structure ScheduleCall (τ : Type) where
  handle : HandleType
  calledAt : Instant
  delay : Nat
  callback : τ
  deriving DecidableEq, Repr

variable {κ τ : Type}

/-- The record of a call tells the truth. -/
def Act.recorded (l : Loop κ (ScheduleCall τ)) : Act κ (ScheduleCall τ) → Bool
  | .schedule inTime t =>
      t.handle == l.state.nextHandle && t.calledAt == l.now && t.delay == inTime
  | _ => true

section

variable [DecidableEq κ]

def Loop.recordedStep (b : Backend) (l : Loop κ (ScheduleCall τ)) (a : Act κ (ScheduleCall τ)) :
    Option (Loop κ (ScheduleCall τ)) :=
  if a.recorded l then l.step b a else none

/-- A run loop whose timers carry the records of their calls. -/
def recordedSystem (κ τ : Type) [DecidableEq κ] (b : Backend) :
    System (Loop κ (ScheduleCall τ)) (Act κ (ScheduleCall τ)) where
  init := {}
  step := Loop.recordedStep b

end

/-- `b` waits for the whole of a delay. -/
def Backend.WaitsFor (b : Backend) (delay : Nat) : Prop :=
  b = .linux → delay % 1000000 = 0 ∧ delay < 2 ^ 32 * 1000000

instance (b : Backend) (delay : Nat) : Decidable (b.WaitsFor delay) :=
  inferInstanceAs (Decidable (_ → _))

theorem Backend.le_deadline_iff (b : Backend) (now : Instant) (delay : Nat) :
    now + delay ≤ b.deadline now delay ↔ b.WaitsFor delay := by
  have hwhole : delay ≤ delay / 1000000 % 2 ^ 32 * 1000000 ↔
      delay % 1000000 = 0 ∧ delay < 2 ^ 32 * 1000000 := by
    have hsplit := Nat.div_add_mod delay 1000000
    have hle := Nat.mod_le (delay / 1000000) (2 ^ 32)
    have hlt := Nat.mod_lt (delay / 1000000) (y := 2 ^ 32) (Nat.two_pow_pos 32)
    have hsmall : delay / 1000000 < 2 ^ 32 →
        delay / 1000000 % 2 ^ 32 = delay / 1000000 := Nat.mod_eq_of_lt
    -- `omega` is to see neither the power nor the product.
    generalize 2 ^ 32 = bound at *
    generalize delay / 1000000 % bound = q at *
    omega
  cases b with
  | linux =>
      have : Backend.linux.WaitsFor delay ↔ delay % 1000000 = 0 ∧ delay < 2 ^ 32 * 1000000 :=
        ⟨fun h => h rfl, fun h _ => h⟩
      rw [this, ← hwhole, Backend.deadline, Nat.add_le_add_iff_left]
  | darwin | win32 | android => simp [Backend.WaitsFor, Backend.deadline]

/-! ## Timers are taken up when they are due -/

/-- The deadline of the timer is that of its call. -/
def Timer.Recorded (b : Backend) (t : Timer (ScheduleCall τ)) : Prop :=
  t.scheduled = b.deadline t.callback.calledAt t.callback.delay

/-- What a dispatch pass has taken up is due. -/
def Frame.Punctual (b : Backend) (l : Loop κ (ScheduleCall τ)) : Frame κ (ScheduleCall τ) → Prop
  | .batch _ ts => ∀ t ∈ ts, t.Recorded b ∧ t.scheduled ≤ l.now
  | .timers hs => ∀ h ∈ hs, h < l.state.nextHandle ∧
      ∀ v ∈ l.state.timers, v.1 = h → v.2.scheduled ≤ l.now
  | _ => True

/-- The timers of the map, with the records of their calls. -/
structure Loop.Recorded (b : Backend) (l : Loop κ (ScheduleCall τ)) : Prop where
  nodup : (l.state.timers.map (·.1)).Nodup
  fresh : ∀ v ∈ l.state.timers, v.1 < l.state.nextHandle
  named : ∀ v ∈ l.state.timers, v.2.callback.handle = v.1
  recorded : ∀ v ∈ l.state.timers, v.2.Recorded b

structure Loop.Punctual (b : Backend) (l : Loop κ (ScheduleCall τ)) : Prop
    extends Loop.Recorded b l where
  frames : ∀ f ∈ l.stack, f.Punctual b l

/-- A handle that was read stands for the same timer ever after, and time goes on. -/
theorem Frame.Punctual.mono {b : Backend} {l l' : Loop κ (ScheduleCall τ)}
    {f : Frame κ (ScheduleCall τ)} (h : f.Punctual b l)
    (hnext : l.state.nextHandle ≤ l'.state.nextHandle) (hnow : l.now ≤ l'.now)
    (hmem : ∀ v ∈ l'.state.timers, v ∈ l.state.timers ∨ v.1 = l.state.nextHandle) :
    f.Punctual b l' := by
  cases f with
  | batch cs ts => exact fun t ht => ⟨(h t ht).1, Nat.le_trans (h t ht).2 hnow⟩
  | timers hs =>
      intro k hk
      refine ⟨Nat.lt_of_lt_of_le (h k hk).1 hnext, fun v hv hvk => ?_⟩
      rcases hmem v hv with hv | hv
      · exact Nat.le_trans ((h k hk).2 v hv hvk) hnow
      · exact absurd ((h k hk).1) (by rw [← hvk, hv]; exact Nat.lt_irrefl _)
  | callback | timer | blockOn | native => trivial

section Steps

variable [DecidableEq κ] {b : Backend} {l l' : Loop κ (ScheduleCall τ)}
  {a : Act κ (ScheduleCall τ)}

/-- A timer of the map was there before or has the next handle. -/
theorem Loop.Step.timers_subset {σ : Type} {l l' : Loop κ σ} {a : Act κ σ}
    (h : Loop.Step b l a l') {v : HandleType × Timer σ} (hv : v ∈ l'.state.timers) :
    v ∈ l.state.timers ∨ v.1 = l.state.nextHandle := by
  have hother : a.isTimerCall = false → v ∈ l.state.timers := fun ha => h.mem_timers ha hv
  cases h with
  | schedule inTime t _ =>
      rcases List.mem_append.1 hv with hv | hv
      · exact .inl hv
      · rw [List.mem_singleton.1 hv]
        exact .inr rfl
  | unschedule => exact .inl (List.mem_of_mem_filter hv)
  | _ => exact .inl (hother rfl)

end Steps

section Due

variable {σ : Type} {b : Backend} {l l' : Loop κ σ}

theorem State.mem_dueTimers {s : State κ σ} {now : Instant} {h : HandleType} :
    h ∈ s.dueTimers now ↔ ∃ t, (h, t) ∈ s.timers ∧ t.scheduled ≤ now := by
  simp [State.dueTimers]

/-- What `process_timers` reads is due. -/
theorem Loop.due_of_read {order : List HandleType} {rest : List (Frame κ σ)}
    (hst : l.stack = .timers [] :: rest) (h : l.next order = some l') :
    order.Perm (l.state.dueTimers l.now) := by
  simp only [Loop.next, hst, Option.ite_none_right_eq_some] at h
  exact List.isPerm_iff.1 h.1

/-- GLib dispatches a timeout that is due. -/
theorem Loop.due_of_timeout {h : HandleType} {t : Timer σ} (ht : l.state.timers.lookup h = some t)
    (hst : l.dispatchTimeout b h = some l') : t.scheduled ≤ l.now := by
  simp only [Loop.dispatchTimeout, ht, Option.ite_none_right_eq_some] at hst
  exact hst.2.1

end Due

section Runs

variable [DecidableEq κ] {b : Backend} {l l' : Loop κ (ScheduleCall τ)}
  {a : Act κ (ScheduleCall τ)}

omit [DecidableEq κ] in
theorem Loop.Recorded.init : ({} : Loop κ (ScheduleCall τ)).Recorded b where
  nodup := List.nodup_nil
  fresh := by simp
  named := by simp
  recorded := by simp

theorem Loop.Recorded.step (hi : l.Recorded b) (h : l.recordedStep b a = some l') :
    l'.Recorded b := by
  simp only [Loop.recordedStep, Option.ite_none_right_eq_some] at h
  obtain ⟨hrec, h⟩ := h
  have hst := Loop.step_cases h
  have hd : l'.Distinct := Loop.Distinct.step ⟨hi.nodup, hi.fresh⟩ hst
  have hkeep : l'.state.timers ⊆ l.state.timers → l'.Recorded b := fun hsub =>
    ⟨hd.nodup, hd.fresh, fun v hv => hi.named v (hsub hv), fun v hv => hi.recorded v (hsub hv)⟩
  cases hst with
  | schedule inTime t _ =>
      simp only [Act.recorded, Bool.and_eq_true, beq_iff_eq] at hrec
      obtain ⟨⟨hhandle, hcalled⟩, hdelay⟩ := hrec
      refine ⟨hd.nodup, hd.fresh, fun v hv => ?_, fun v hv => ?_⟩
      · rcases List.mem_append.1 hv with hv | hv
        · exact hi.named v hv
        · rw [List.mem_singleton.1 hv]
          exact hhandle
      · rcases List.mem_append.1 hv with hv | hv
        · exact hi.recorded v hv
        · rw [List.mem_singleton.1 hv]
          simp [Timer.Recorded, hcalled, hdelay]
  | unschedule | drain | timeout | nextHandle => exact hkeep (List.filter_subset_self _)
  | _ => exact hkeep (List.Subset.refl _)

omit [DecidableEq κ] in
/-- What Darwin drains is due. -/
theorem Loop.Recorded.drained (hi : l.Recorded b) {order : List HandleType}
    (ho : order.isPerm (l.state.dueTimers l.now) = true) {t : Timer (ScheduleCall τ)}
    (ht : t ∈ (l.state.getPendingExecution order).1.2) : t.Recorded b ∧ t.scheduled ≤ l.now := by
  obtain ⟨k, hk, hl⟩ := List.mem_filterMap.1 ht
  have hmem := mem_of_lookup hl
  obtain ⟨u, hu, hdue⟩ := State.mem_dueTimers.1 ((List.isPerm_iff.1 ho).mem_iff.1 hk)
  obtain rfl := eq_of_mem_timers hi.nodup hmem hu
  exact ⟨hi.recorded _ hmem, hdue⟩

omit [DecidableEq κ] in
/-- What is read is due, and the handles stand for these timers. -/
theorem Loop.Recorded.read (hi : l.Recorded b) {order : List HandleType}
    (ho : order.Perm (l.state.dueTimers l.now)) {k : HandleType} (hk : k ∈ order) :
    k < l.state.nextHandle ∧ ∀ v ∈ l.state.timers, v.1 = k → v.2.scheduled ≤ l.now := by
  obtain ⟨u, hu, hdue⟩ := State.mem_dueTimers.1 (ho.mem_iff.1 hk)
  refine ⟨hi.fresh _ hu, ?_⟩
  rintro ⟨_, t⟩ hv rfl
  obtain rfl := eq_of_mem_timers hi.nodup hv hu
  exact hdue

theorem Loop.Punctual.step (hi : l.Punctual b) (h : l.recordedStep b a = some l') :
    l'.Punctual b := by
  refine ⟨hi.toRecorded.step h, ?_⟩
  simp only [Loop.recordedStep, Option.ite_none_right_eq_some] at h
  obtain ⟨-, h⟩ := h
  have hst := Loop.step_cases h
  have hkeep : ∀ f ∈ l.stack, f.Punctual b l' := fun f hf =>
    (hi.frames f hf).mono hst.nextHandle_le hst.now_le fun v hv => hst.timers_subset hv
  -- Below the frame that the step is about, the frames are punctual by `hkeep`.
  cases hst with
  | tick | send | wake | wakeCoalesced | schedule | unschedule => exact hkeep
  | drain order _ _ ho =>
      exact List.forall_mem_cons.2 ⟨fun t ht => hi.toRecorded.drained ho ht, hkeep⟩
  | processCallbacks | dispatchTimers =>
      exact List.forall_mem_cons.2 ⟨by simp [Frame.Punctual], hkeep⟩
  | source | timeout | enterBlockOn | enterNative =>
      exact List.forall_mem_cons.2 ⟨trivial, hkeep⟩
  | nextCallback order c cs ts rest hs =>
      rw [hs] at hkeep
      obtain ⟨hf, hrest⟩ := List.forall_mem_cons.1 hkeep
      exact List.forall_mem_cons.2 ⟨trivial, List.forall_mem_cons.2 ⟨hf, hrest⟩⟩
  | nextTimer order t ts rest hs =>
      rw [hs] at hkeep
      obtain ⟨hf, hrest⟩ := List.forall_mem_cons.1 hkeep
      exact List.forall_mem_cons.2 ⟨trivial,
        List.forall_mem_cons.2 ⟨fun u hu => hf u (List.mem_cons_of_mem _ hu), hrest⟩⟩
  | nextHandle order k hs t rest hs' _ =>
      rw [hs'] at hkeep
      obtain ⟨hf, hrest⟩ := List.forall_mem_cons.1 hkeep
      exact List.forall_mem_cons.2 ⟨trivial,
        List.forall_mem_cons.2 ⟨fun u hu => hf u (List.mem_cons_of_mem _ hu), hrest⟩⟩
  | timersRead order rest hs =>
      rw [hs] at hkeep
      exact List.forall_mem_cons.2 ⟨fun k hk => hi.toRecorded.read (Loop.due_of_read hs h) hk,
        (List.forall_mem_cons.1 hkeep).2⟩
  | handleGone order k hs rest hs' =>
      rw [hs'] at hkeep
      obtain ⟨hf, hrest⟩ := List.forall_mem_cons.1 hkeep
      exact List.forall_mem_cons.2 ⟨fun u hu => hf u (List.mem_cons_of_mem _ hu), hrest⟩
  | batchDone _ _ hs | timersDone _ _ hs | finishCallback _ _ hs | finishTimer _ _ hs
  | pollReady _ hs | exitNative _ hs =>
      rw [hs] at hkeep
      exact (List.forall_mem_cons.1 hkeep).2
  | takeQueued _ hs | pollPending _ hs | pollOnceReturns _ hs =>
      rw [hs] at hkeep
      exact List.forall_mem_cons.2 ⟨trivial, (List.forall_mem_cons.1 hkeep).2⟩

theorem punctual_of_reachable (h : (recordedSystem κ τ b).Reachable l) : l.Punctual b :=
  h.invariant ⟨.init, by simp [recordedSystem]⟩ fun _ _ _ _ hi hst => hi.step hst

/-! ## The result -/

/-- A timer that fires has reached the deadline of its call. -/
theorem Loop.Punctual.fired (hi : l.Punctual b) (h : l.recordedStep b a = some l')
    {t : ScheduleCall τ} (hf : l'.fired = l.fired ++ [t]) :
    b.deadline t.calledAt t.delay ≤ l.now := by
  simp only [Loop.recordedStep, Option.ite_none_right_eq_some] at h
  obtain ⟨-, h⟩ := h
  have hst := Loop.step_cases h
  have hfire : ∀ {u : Timer (ScheduleCall τ)}, l.fired ++ [u.callback] = l.fired ++ [t] →
      u.Recorded b → u.scheduled ≤ l.now → b.deadline t.calledAt t.delay ≤ l.now := by
    intro u he hrec hdue
    obtain rfl : u.callback = t := by simpa using he
    rwa [← hrec]
  cases hst with
  | timeout k u _ hu =>
      exact hfire hf (hi.recorded _ (mem_of_lookup hu)) (Loop.due_of_timeout hu h)
  | nextTimer order u us rest hs =>
      have hframe := hi.frames _ (hs ▸ List.mem_cons_self)
      obtain ⟨hrec, hdue⟩ := hframe u List.mem_cons_self
      exact hfire hf hrec hdue
  | nextHandle order k ks u rest hs hu =>
      have hframe := hi.frames _ (hs ▸ List.mem_cons_self)
      have hmem := mem_of_lookup hu
      exact hfire hf (hi.recorded _ hmem) ((hframe k List.mem_cons_self).2 _ hmem rfl)
  | _ => exact absurd hf (by simp [Loop.push, Loop.start])

end Runs

/-- On Linux a timer that is the only one fires at its deadline. -/
def onTimeRun (delay : Nat) (callback : τ) : List (Act κ (ScheduleCall τ)) :=
  [.schedule delay ⟨1, 0, delay, callback⟩, .tick (Backend.linux.deadline 0 delay)]

/-- **A backend waits for the whole delay of every callback exactly if it does not round the
delay down**, in every run and whatever else is scheduled, cancelled and pumped. -/
theorem no_callback_early_iff (κ τ : Type) [DecidableEq κ] [Inhabited τ] (b : Backend)
    (delay : Nat) :
    (∀ (l l' : Loop κ (ScheduleCall τ)) (a : Act κ (ScheduleCall τ)) (t : ScheduleCall τ),
      (recordedSystem κ τ b).Reachable l → (recordedSystem κ τ b).step l a = some l' →
      l'.fired = l.fired ++ [t] → t.delay = delay → t.calledAt + delay ≤ l.now) ↔
    b.WaitsFor delay := by
  constructor
  · intro h
    by_contra hw
    obtain rfl : b = .linux := by
      by_contra hne
      exact hw fun he => absurd he hne
    -- GLib was given the rounded delay: the timer fires when that has passed.
    let t : ScheduleCall τ := ⟨1, 0, delay, default⟩
    have hrun : (recordedSystem κ τ .linux).run {} (onTimeRun delay default) = some
        { state := State.schedule {} .linux 0 delay t, now := Backend.linux.deadline 0 delay } := by
      simp [onTimeRun, recordedSystem, Loop.recordedStep, Act.recorded, Loop.step,
        Loop.schedule, userCode, State.schedule, t, INVALID_HANDLE, System.run, System.runVia]
    have hreach := System.reachVia_runVia .init hrun
    have hearly := h _ _ (.dispatchTimeout 1) t hreach
      (by simp [recordedSystem, Loop.recordedStep, Act.recorded, Loop.step, Loop.dispatchTimeout,
        canPump, State.schedule, INVALID_HANDLE, t]; rfl) rfl rfl
    exact hw ((Backend.le_deadline_iff .linux 0 delay).1 hearly)
  · rintro hw l l' a t hl hst hf rfl
    exact Nat.le_trans ((b.le_deadline_iff t.calledAt t.delay).2 hw)
      ((punctual_of_reachable hl).fired hst hf)

/-- On Linux a delay of 1.5 ms has passed after 1 ms, and one of 2 ^ 32 ms at once. -/
theorem callback_runs_early :
    ((recordedSystem Nat Unit .linux).run {}
      [.schedule 1500000 ⟨1, 0, 1500000, ()⟩, .tick 1000000, .dispatchTimeout 1]).map
      (fun l => l.fired.map fun t => (t.calledAt + t.delay, l.now)) = some [(1500000, 1000000)] ∧
    ((recordedSystem Nat Unit .linux).run {}
      [.schedule (2 ^ 32 * 1000000) ⟨1, 0, 2 ^ 32 * 1000000, ()⟩, .dispatchTimeout 1]).map
      (fun l => l.fired.map fun t => (t.calledAt + t.delay, l.now)) =
        some [(4294967296000000, 0)] := by
  decide

end Wxp.RunLoop
