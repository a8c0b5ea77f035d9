import Wxp.RunLoop.Wakeup

/-!
# RunLoop — Deadlines

The arithmetic of `schedule` and of arming the native timer. `Instant::now() + in_time` panics
past the last `Instant`, on Darwin while the state mutex is locked: the mutex is poisoned, and
`lock().unwrap()` panics from then on. The wait is narrowed to a `u32` of milliseconds on Win32
(`as`, which loses bits) and to a `time_t` of seconds on Android (`try_into().unwrap()`). A map
without timers stands for a deadline in one hour.

Result: `schedule_accepts_iff`.
-/

namespace Wxp.RunLoop

variable {κ τ : Type}

/-- What the platform can count. -/
structure Limits where
  /-- The last `Instant`. -/
  instantMax : Instant
  /-- The largest `time_t`. -/
  timeMax : Nat
  hour_le : 3600 ≤ timeMax

/-- `Duration::from_secs(60 * 60)`. -/
def hour : Nat := 3600000000000

/-- `Instant + Duration`. -/
def Limits.add (lim : Limits) (t : Instant) (d : Nat) : Option Instant :=
  if t + d ≤ lim.instantMax then some (t + d) else none

/-- `next_timer`, on Darwin `next_instant` without callbacks. -/
def Limits.nextTimer (lim : Limits) (now : Instant) (deadlines : List Instant) : Option Instant :=
  match deadlines.min? with
  | some t => some t
  | none => lim.add now hour

/-- The wait in the unit of the native timer, before it is narrowed. -/
def Backend.nativeWait : Backend → Nat → Nat
  | .win32, wait => wait / 1000000
  | _, wait => wait

/-- `wake_up_at`, on Darwin the `CFRunLoopTimer` of `State::schedule`: what the native timer is
set to. -/
def Backend.wakeUpAt (b : Backend) (lim : Limits) (now time : Instant) : Option Nat :=
  match b with
  | .win32 => some (b.nativeWait (time - now) % 2 ^ 32)
  | .android =>
      if (time - now) / 1000000000 ≤ lim.timeMax then some (b.nativeWait (time - now)) else none
  | .darwin | .linux => some (b.nativeWait (time - now))

/-- The deadlines in the timer map after the step. -/
def Loop.deadlinesAfter (b : Backend) (l : Loop κ τ) : Act κ τ → List Instant
  | .schedule inTime t => (l.state.schedule b l.now inTime t).timers.map (·.2.scheduled)
  | .unschedule h => (l.state.removeTimer h).timers.map (·.2.scheduled)
  | _ => l.state.timers.map (·.2.scheduled)

/-- The deadlines by which the step sets the native timer. Darwin signals its source instead
where a callback is queued. -/
def Loop.nativeDeadlines (b : Backend) (l : Loop κ τ) (a : Act κ τ) : Option (List Instant) :=
  match b, a with
  | .linux, _ => none
  | .darwin, .send _ | .darwin, .wakeBlockOn _ => none
  | .darwin, _ =>
      if l.arms b a && l.state.callbacks.isEmpty then some (l.deadlinesAfter b a) else none
  | .win32, _ | .android, _ => if l.arms b a then some (l.deadlinesAfter b a) else none

/-- The step locks the state mutex of Darwin. -/
def Loop.locks (b : Backend) (l : Loop κ τ) : Act κ τ → Bool
  | .send _ | .schedule _ _ | .unschedule _ | .dispatchCallbacks _ => b == .darwin
  | .wakeBlockOn _ => b == .darwin && !l.queued
  | .next _ =>
      match l.stack with
      | .batch [] [] :: _ => b == .darwin
      | _ => false
  -- `poll_once` reads the mode of the run loop.
  | .takeQueued => b == .darwin && !l.queued
  | .pollPending => b == .darwin
  | _ => false

/-- What is left of a step that panics at its first `lock` or addition. -/
def Loop.unwound (l : Loop κ τ) : Act κ τ → Loop κ τ
  | .schedule _ _ => { l with state := { l.state with nextHandle := l.state.nextHandle + 1 } }
  | .takeQueued | .pollPending => { l with stack := l.stack.tail, blockOnActive := false }
  | _ => l

/-- The native loop has called the step, through a function that may not unwind. -/
def Act.fromNative : Act κ τ → Bool
  | .dispatchCallbacks _ | .next _ | .finish => true
  | _ => false

/-- The deadline of `schedule` is past the last `Instant`. GLib takes the interval itself. -/
def Loop.deadlineOverflows (b : Backend) (lim : Limits) (l : Loop κ τ) : Act κ τ → Bool
  | .schedule inTime _ => b != .linux && (lim.add l.now inTime).isNone
  | _ => false

structure Clocked (κ τ : Type) where
  loop : Loop κ τ := {}
  /-- What the native timer was set to last. -/
  native : Option Nat := none
  /-- How often an operation has panicked. -/
  panics : Nat := 0
  /-- A wait has lost bits. -/
  truncated : Bool := false
  /-- The state mutex of Darwin is poisoned. -/
  poisoned : Bool := false
  aborted : Bool := false

/-- The operation `a` panics and leaves `l` behind. User code catches the panic. -/
def Clocked.panic (s : Clocked κ τ) (a : Act κ τ) (l : Loop κ τ) : Clocked κ τ :=
  { s with loop := l, panics := s.panics + 1, aborted := a.fromNative }

section

variable [DecidableEq κ]

def Clocked.step (b : Backend) (lim : Limits) (s : Clocked κ τ) (a : Act κ τ) :
    Option (Clocked κ τ) :=
  match s.loop.step b a with
  | none => none
  | some l =>
      if s.aborted || decide (lim.instantMax < l.now) then none
      else if s.poisoned && s.loop.locks b a then some (s.panic a (s.loop.unwound a))
      else if s.loop.deadlineOverflows b lim a then
        some { s.panic a (s.loop.unwound a) with poisoned := b == .darwin }
      else match s.loop.nativeDeadlines b a with
        | none => some { s with loop := l }
        | some deadlines =>
            match lim.nextTimer s.loop.now deadlines with
            | none => some { s.panic a l with poisoned := b == .darwin }
            | some time =>
                match b.wakeUpAt lim s.loop.now time with
                | none => some (s.panic a l)
                | some native =>
                    some { s with
                      loop := l, native,
                      truncated := s.truncated || native != b.nativeWait (time - s.loop.now) }

/-- A run loop on a clock of finite range. -/
def clockedSystem (κ τ : Type) [DecidableEq κ] (b : Backend) (lim : Limits) :
    System (Clocked κ τ) (Act κ τ) where
  init := {}
  step := Clocked.step b lim

end

/-- No operation has panicked, no wait has lost bits, and the mutex is not poisoned. -/
structure Clocked.Sound (s : Clocked κ τ) : Prop where
  panics : s.panics = 0
  truncated : s.truncated = false
  poisoned : s.poisoned = false
  aborted : s.aborted = false

/-- The native timer can be set to the wait. -/
def Backend.Fits (b : Backend) (lim : Limits) (wait : Nat) : Prop :=
  match b with
  | .win32 => wait / 1000000 < 2 ^ 32
  | .android => wait / 1000000000 ≤ lim.timeMax
  | .darwin | .linux => True

instance (b : Backend) (lim : Limits) (wait : Nat) : Decidable (b.Fits lim wait) :=
  match b with
  | .win32 => inferInstanceAs (Decidable (wait / 1000000 < 2 ^ 32))
  | .android => inferInstanceAs (Decidable (wait / 1000000000 ≤ lim.timeMax))
  | .darwin | .linux => isTrue trivial

/-- Some deadline is near enough for the native timer; without deadlines, the clock has another
hour. -/
def Backend.InReach (b : Backend) (lim : Limits) (now : Instant) : List Instant → Prop
  | [] => now + hour ≤ lim.instantMax
  | t :: ts => ∃ u ∈ t :: ts, b.Fits lim (u - now)

instance (b : Backend) (lim : Limits) (now : Instant) (ts : List Instant) :
    Decidable (b.InReach lim now ts) :=
  match ts with
  | [] => inferInstanceAs (Decidable (now + hour ≤ lim.instantMax))
  | t :: ts => inferInstanceAs (Decidable (∃ u ∈ t :: ts, b.Fits lim (u - now)))

/-- The step computes no deadline past the last `Instant`, and where it sets the native timer,
the next deadline is in reach. -/
def Clocked.InRange (b : Backend) (lim : Limits) (s : Clocked κ τ) (a : Act κ τ) : Prop :=
  (match a with
    | .schedule inTime _ => b ≠ .linux → s.loop.now + inTime ≤ lim.instantMax
    | _ => True) ∧
  ∀ deadlines ∈ s.loop.nativeDeadlines b a, b.InReach lim s.loop.now deadlines

instance (b : Backend) (lim : Limits) (s : Clocked κ τ) (a : Act κ τ) :
    Decidable (s.InRange b lim a) :=
  have : Decidable (match a with
      | .schedule inTime _ => b ≠ .linux → s.loop.now + inTime ≤ lim.instantMax
      | _ => True) :=
    match a with
    | .schedule inTime _ =>
        inferInstanceAs (Decidable (b ≠ .linux → s.loop.now + inTime ≤ lim.instantMax))
    | .tick _ | .send _ | .wakeBlockOn _ | .unschedule _ | .dispatchCallbacks _ | .dispatchTimers
    | .dispatchSource _ | .dispatchTimeout _ | .next _ | .finish | .enterBlockOn | .takeQueued
    | .pollReady | .pollPending | .pollOnceReturns | .enterNative | .exitNative => isTrue trivial
  have : Decidable (∀ deadlines ∈ s.loop.nativeDeadlines b a, b.InReach lim s.loop.now deadlines) :=
    inferInstance
  inferInstanceAs (Decidable (_ ∧ _))

/-! ## The native timer -/

section Arming

variable {b : Backend} {lim : Limits} {now time : Instant} {deadlines : List Instant}

theorem Backend.Fits.mono {wait wait' : Nat} (h : b.Fits lim wait') (hle : wait ≤ wait') :
    b.Fits lim wait := by
  cases b with
  | win32 => exact Nat.lt_of_le_of_lt (Nat.div_le_div_right hle) h
  | android => exact Nat.le_trans (Nat.div_le_div_right hle) h
  | darwin | linux => trivial

theorem fits_hour : b.Fits lim hour := by
  cases b with
  | win32 => show hour / 1000000 < 2 ^ 32; decide
  | android => exact lim.hour_le
  | darwin | linux => trivial

theorem Limits.add_eq_some {t u : Instant} {d : Nat} :
    lim.add t d = some u ↔ t + d ≤ lim.instantMax ∧ u = t + d := by
  simp [Limits.add, eq_comm]

/-- The next deadline is the earliest. -/
theorem inReach_iff : b.InReach lim now deadlines ↔
    ∃ time, lim.nextTimer now deadlines = some time ∧ b.Fits lim (time - now) := by
  cases deadlines with
  | nil =>
      simp only [Backend.InReach, Limits.nextTimer, List.min?_nil, Limits.add_eq_some]
      constructor
      · intro h
        exact ⟨now + hour, ⟨h, rfl⟩, by simpa using fits_hour⟩
      · rintro ⟨_, ⟨h, rfl⟩, _⟩
        exact h
  | cons t ts =>
      obtain ⟨m, hm⟩ : ∃ m, (t :: ts).min? = some m := by simp [List.min?]
      obtain ⟨hmem, hle⟩ := List.min?_eq_some_iff.1 hm
      simp only [Backend.InReach, Limits.nextTimer, hm, Option.some.injEq, exists_eq_left']
      constructor
      · rintro ⟨u, hu, hfits⟩
        exact hfits.mono (Nat.sub_le_sub_right (hle u hu) now)
      · intro hfits
        exact ⟨m, hmem, hfits⟩

theorem wakeUpAt_of_fits (h : b.Fits lim (time - now)) :
    b.wakeUpAt lim now time = some (b.nativeWait (time - now)) := by
  cases b with
  | win32 => exact congrArg some (Nat.mod_eq_of_lt h)
  | android => exact if_pos h
  | darwin | linux => rfl

theorem not_fits {native : Nat} (h : ¬ b.Fits lim (time - now))
    (hw : b.wakeUpAt lim now time = some native) : native ≠ b.nativeWait (time - now) := by
  cases b with
  | win32 =>
      cases hw
      intro heq
      have hlt : (time - now) / 1000000 % 2 ^ 32 < 2 ^ 32 := Nat.mod_lt _ (by decide)
      exact h (lt_of_eq_of_lt heq.symm hlt)
  | android => exact absurd (Option.ite_none_right_eq_some.1 hw).1 h
  | darwin | linux => exact absurd trivial h

end Arming

/-! ## One step -/

section Steps

variable {b : Backend} {lim : Limits} {s s' : Clocked κ τ} {a : Act κ τ}

theorem not_sound_panic {l : Loop κ τ} : ¬ (s.panic a l).Sound := fun h => by
  simpa [Clocked.panic] using h.panics

theorem deadlineOverflows_eq_false : s.loop.deadlineOverflows b lim a = false ↔
    match a with
    | .schedule inTime _ => b ≠ .linux → s.loop.now + inTime ≤ lim.instantMax
    | _ => True := by
  cases a with
  | schedule inTime t => simp [Loop.deadlineOverflows, Limits.add]
  | _ => simp [Loop.deadlineOverflows]

/-- What one step can do: it panics at the lock, at the deadline, at the hour of an empty timer
map or at the wait; it sets the native timer, or leaves it. -/
inductive Clocked.Step (b : Backend) (lim : Limits) (s : Clocked κ τ) (a : Act κ τ)
    (l : Loop κ τ) : Clocked κ τ → Prop
  | lock : s.poisoned = true → s.loop.locks b a = true →
      Step b lim s a l (s.panic a (s.loop.unwound a))
  | deadline : s.loop.deadlineOverflows b lim a = true →
      Step b lim s a l { s.panic a (s.loop.unwound a) with poisoned := b == .darwin }
  | plain : s.loop.deadlineOverflows b lim a = false → s.loop.nativeDeadlines b a = none →
      Step b lim s a l { s with loop := l }
  | hour (deadlines : List Instant) : s.loop.nativeDeadlines b a = some deadlines →
      lim.nextTimer s.loop.now deadlines = none →
      Step b lim s a l { s.panic a l with poisoned := b == .darwin }
  | wait (deadlines : List Instant) (time : Instant) : s.loop.nativeDeadlines b a = some deadlines →
      lim.nextTimer s.loop.now deadlines = some time →
      b.wakeUpAt lim s.loop.now time = none → Step b lim s a l (s.panic a l)
  | armed (deadlines : List Instant) (time : Instant) (native : Nat) :
      s.loop.deadlineOverflows b lim a = false → s.loop.nativeDeadlines b a = some deadlines →
      lim.nextTimer s.loop.now deadlines = some time →
      b.wakeUpAt lim s.loop.now time = some native →
      Step b lim s a l { s with
        loop := l, native := some native,
        truncated := s.truncated || native != b.nativeWait (time - s.loop.now) }

theorem Clocked.step_cases [DecidableEq κ] (h : s.step b lim a = some s') :
    ∃ l, s.loop.step b a = some l ∧ Clocked.Step b lim s a l s' := by
  unfold Clocked.step at h
  split at h
  · cases h
  · rename_i l hl
    refine ⟨l, hl, ?_⟩
    split at h
    · cases h
    · split at h
      · rename_i hlock
        cases h
        rw [Bool.and_eq_true] at hlock
        exact .lock hlock.1 hlock.2
      · split at h
        · rename_i hd
          cases h
          exact .deadline hd
        · rename_i hd
          rw [Bool.not_eq_true] at hd
          split at h
          · rename_i ha
            cases h
            exact .plain hd ha
          · rename_i deadlines ha
            split at h
            · rename_i hn
              cases h
              exact .hour deadlines ha hn
            · rename_i time hn
              split at h
              · rename_i hw
                cases h
                exact .wait deadlines time ha hn hw
              · rename_i native hw
                cases h
                exact .armed deadlines time native hd ha hn hw

theorem inRange_iff : s.InRange b lim a ↔ s.loop.deadlineOverflows b lim a = false ∧
    ∀ deadlines, s.loop.nativeDeadlines b a = some deadlines → ∃ time,
      lim.nextTimer s.loop.now deadlines = some time ∧ b.Fits lim (time - s.loop.now) := by
  simp only [Clocked.InRange, deadlineOverflows_eq_false, inReach_iff, Option.mem_def]

/-- A step keeps the loop sound exactly if it is in range. -/
theorem Clocked.step_sound [DecidableEq κ] (h : s.step b lim a = some s') :
    s'.Sound ↔ s.Sound ∧ s.InRange b lim a := by
  obtain ⟨l, -, hst⟩ := step_cases h
  rw [inRange_iff]
  cases hst with
  | lock hp _ =>
      refine ⟨fun hs => absurd hs not_sound_panic, fun hs => ?_⟩
      simp [hs.1.poisoned] at hp
  | deadline hd =>
      refine ⟨fun hs => ?_, fun hs => ?_⟩
      · simpa [Clocked.panic] using hs.panics
      · simp [hs.2.1] at hd
  | plain hd ha =>
      refine ⟨fun hs => ⟨⟨hs.panics, hs.truncated, hs.poisoned, hs.aborted⟩, hd, fun _ hts => ?_⟩,
        fun hs => ?_⟩
      · simp [ha] at hts
      · exact ⟨hs.1.panics, hs.1.truncated, hs.1.poisoned, hs.1.aborted⟩
  | hour deadlines ha hn =>
      refine ⟨fun hs => ?_, fun hs => ?_⟩
      · simpa [Clocked.panic] using hs.panics
      · obtain ⟨time, ht, _⟩ := hs.2.2 deadlines ha
        simp [hn] at ht
  | wait deadlines time ha hn hw =>
      refine ⟨fun hs => absurd hs not_sound_panic, fun hs => ?_⟩
      obtain ⟨time', ht, hfits⟩ := hs.2.2 deadlines ha
      obtain rfl : time = time' := Option.some.inj (hn.symm.trans ht)
      simp [wakeUpAt_of_fits hfits] at hw
  | armed deadlines time native hd ha hn hw =>
      constructor
      · intro hs
        have hkept : s.truncated = false ∧ native = b.nativeWait (time - s.loop.now) := by
          simpa using hs.truncated
        refine ⟨⟨hs.panics, hkept.1, hs.poisoned, hs.aborted⟩, hd, fun deadlines' hts => ?_⟩
        obtain rfl : deadlines = deadlines' := Option.some.inj (ha.symm.trans hts)
        exact ⟨time, hn, Classical.byContradiction fun hnot => not_fits hnot hw hkept.2⟩
      · rintro ⟨hs, _, hreach⟩
        obtain ⟨time', ht, hfits⟩ := hreach deadlines ha
        obtain rfl : time = time' := Option.some.inj (hn.symm.trans ht)
        obtain rfl : b.nativeWait (time - s.loop.now) = native :=
          Option.some.inj ((wakeUpAt_of_fits hfits).symm.trans hw)
        exact ⟨hs.panics, by simp [hs.truncated], hs.poisoned, hs.aborted⟩

/-- In range, what the run loop can do goes on. -/
theorem Clocked.step_isSome [DecidableEq κ] {l : Loop κ τ} (hs : s.Sound)
    (hl : s.loop.step b a = some l) (hnow : l.now ≤ lim.instantMax) :
    (s.step b lim a).isSome = true := by
  simp only [Clocked.step, hl, hs.aborted, hs.poisoned, Nat.not_lt.2 hnow, Bool.false_and,
    decide_false, Bool.or_false, Bool.false_eq_true, if_false]
  split
  · rfl
  · split
    · rfl
    · split
      · rfl
      · split <;> rfl

/-- A step in range is the step of the run loop. -/
theorem Clocked.step_loop [DecidableEq κ] (h : s.step b lim a = some s') (hs : s'.Sound) :
    s.loop.step b a = some s'.loop := by
  obtain ⟨l, hl, hst⟩ := step_cases h
  cases hst with
  | lock => exact absurd hs not_sound_panic
  | plain | armed => exact hl
  | wait => exact absurd hs not_sound_panic
  | deadline | hour =>
      have := hs.panics
      simp [Clocked.panic] at this

/-- Nothing that needs the mutex works once it is poisoned. -/
theorem poisoned_step [DecidableEq κ] (hp : s.poisoned = true)
    (h : s.step .darwin lim a = some s') :
    s'.poisoned = true ∧ (s.loop.locks .darwin a = true → s'.panics = s.panics + 1) := by
  constructor
  · obtain ⟨l, -, hst⟩ := Clocked.step_cases h
    cases hst with
    | lock | plain | wait | armed => exact hp
    | deadline | hour => rfl
  · intro hlock
    unfold Clocked.step at h
    split at h
    · cases h
    · split at h
      · cases h
      · rw [if_pos (by simp [hp, hlock])] at h
        cases h
        rfl

/-- A deadline past the last `Instant` poisons the mutex of Darwin. -/
theorem poisoned_of_deadline [DecidableEq κ] {inTime : Nat} {t : τ} (hs : s.Sound)
    (h : s.step .darwin lim (.schedule inTime t) = some s')
    (hd : lim.instantMax < s.loop.now + inTime) : s'.poisoned = true := by
  obtain ⟨l, -, hst⟩ := Clocked.step_cases h
  have hover : s.loop.deadlineOverflows .darwin lim (.schedule inTime t) = true := by
    simp [Loop.deadlineOverflows, Limits.add, Nat.not_le.2 hd]
  cases hst with
  | lock hp _ => simp [hs.poisoned] at hp
  | deadline => rfl
  | plain hno _ | armed _ _ _ hno => simp [hover] at hno
  | hour => rfl
  | wait _ time _ _ hw => cases hw

end Steps

/-! ## Every run -/

section Runs

variable [DecidableEq κ] {b : Backend} {lim : Limits}

theorem sound_iff_runVia {s s' : Clocked κ τ} {as : List (Act κ τ)}
    (h : (clockedSystem κ τ b lim).run s as = some s') :
    s'.Sound ↔ s.Sound ∧
      (clockedSystem κ τ b lim).runVia (fun s a => s.InRange b lim a) s as = some s' :=
  System.runVia_iff (fun _ _ _ => Clocked.step_sound) h

theorem run_loop {s s' : Clocked κ τ} {as : List (Act κ τ)}
    (h : (clockedSystem κ τ b lim).run s as = some s') (hs : s'.Sound) :
    (loopSystem κ τ b).run s.loop as = some s'.loop := by
  induction as generalizing s with
  | nil =>
      cases h
      rfl
  | cons a as ih =>
      rw [System.run_cons] at h
      obtain ⟨s₁, hst, hrun⟩ := Option.bind_eq_some_iff.1 h
      have hs₁ : s₁.Sound := ((sound_iff_runVia hrun).1 hs).1
      rw [System.run_cons, show (loopSystem κ τ b).step s.loop a = some s₁.loop from
        Clocked.step_loop hst hs₁]
      exact ih hrun

end Runs

/-- **`schedule` accepts every delay whose deadline is not past the last `Instant`**: a run has no
step that panics, poisons the mutex or narrows a wait exactly if this holds of each step, and
wherever the native timer is set some pending deadline is in its reach. Such a run is one of the
run loop, and can go on as that can. On Darwin a deadline past the last `Instant` poisons the
mutex, and then each `schedule`, `unschedule`, `send` and dispatch panics. -/
theorem schedule_accepts_iff [DecidableEq κ] (b : Backend) (lim : Limits)
    (as : List (Act κ τ)) (s : Clocked κ τ) (h : (clockedSystem κ τ b lim).run {} as = some s) :
    (s.Sound ↔
      (clockedSystem κ τ b lim).runVia (fun s a => s.InRange b lim a) {} as = some s) ∧
    (s.Sound → (loopSystem κ τ b).run {} as = some s.loop ∧
      ∀ a l, s.loop.step b a = some l → l.now ≤ lim.instantMax → s.InRange b lim a →
        ∃ s', s.step b lim a = some s' ∧ s'.Sound ∧ s'.loop = l) ∧
    (b = .darwin → ∀ (inTime : Nat) (t : τ) (s' : Clocked κ τ), s.Sound →
      lim.instantMax < s.loop.now + inTime → s.step b lim (.schedule inTime t) = some s' →
      s'.poisoned = true) ∧
    (b = .darwin → s.poisoned = true → ∀ (a : Act κ τ) (s' : Clocked κ τ),
      s.loop.locks b a = true → s.step b lim a = some s' →
      s'.poisoned = true ∧ s'.panics = s.panics + 1) := by
  refine ⟨?_, fun hs => ⟨run_loop h hs, fun a l hl hnow hr => ?_⟩, ?_, ?_⟩
  · have hinit : Clocked.Sound ({} : Clocked κ τ) := ⟨rfl, rfl, rfl, rfl⟩
    rw [sound_iff_runVia h, and_iff_right hinit]
  · obtain ⟨s', hst⟩ := Option.isSome_iff_exists.1 (Clocked.step_isSome hs hl hnow)
    have hs' : s'.Sound := (Clocked.step_sound hst).2 ⟨hs, hr⟩
    exact ⟨s', hst, hs', Option.some.inj ((Clocked.step_loop hst hs').symm.trans hl)⟩
  · rintro rfl inTime t s' hs hd hst
    exact poisoned_of_deadline hs hst hd
  · rintro rfl hp a s' hlock hst
    have hkept := poisoned_step hp hst
    exact ⟨hkept.1, hkept.2 hlock⟩

/-- Signed 64-bit seconds for the clock, signed 32-bit seconds for `time_t`. -/
def limits32 : Limits where
  instantMax := 9223372036854775807999999999
  timeMax := 2147483647
  hour_le := by decide

/-- Two timers, the earlier of which runs. -/
def twoDelaysRun : List (Act Nat Unit) :=
  [.schedule 1000000000 (), .schedule 86400000000000 (), .tick 1000000000, .dispatchTimers,
    .next [1], .next [], .finish, .next []]

theorem schedule_accepts_iff_two : ∃ s : Clocked Nat Unit, s.panics = 0 ∧
    (loopSystem Nat Unit .android).run {} twoDelaysRun = some s.loop := by
  have hvia : ((clockedSystem Nat Unit .android limits32).runVia
      (fun s a => s.InRange .android limits32 a) {} twoDelaysRun).isSome = true := by decide
  obtain ⟨s, hs⟩ := Option.isSome_iff_exists.1 hvia
  have hthm := schedule_accepts_iff .android limits32 twoDelaysRun s (System.run_of_runVia hs)
  have hsound := hthm.1.2 hs
  exact ⟨s, hsound.panics, (hthm.2.1 hsound).1⟩

/-- The longest duration in nanoseconds, `Duration::MAX`. -/
def durationMax : Nat := 18446744073709551615999999999

/-- `schedule(Duration::MAX, ..)` panics on the three backends; on Darwin the next `send` panics
too. On 32-bit Android a delay of 69 years panics while it is the only one, and on Win32 one of 50
days loses bits. -/
theorem schedule_breaks :
    ((clockedSystem Nat Unit .darwin limits32).run {}
      [.schedule durationMax (), .send 0]).map (fun s => (s.panics, s.poisoned)) =
        some (2, true) ∧
    ((clockedSystem Nat Unit .win32 limits32).run {} [.schedule durationMax ()]).map (·.panics) =
        some 1 ∧
    ((clockedSystem Nat Unit .android limits32).run {} [.schedule durationMax ()]).map (·.panics) =
        some 1 ∧
    ((clockedSystem Nat Unit .android limits32).run {}
      [.schedule 2177452800000000000 ()]).map (·.panics) = some 1 ∧
    ((clockedSystem Nat Unit .win32 limits32).run {}
      [.schedule 4320000000000000 ()]).map (·.truncated) = some true := by
  decide

end Wxp.RunLoop
