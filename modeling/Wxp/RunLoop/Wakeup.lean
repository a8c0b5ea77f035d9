import Wxp.RunLoop.Handles

/-!
# RunLoop — Wakeup

One native wake-up serves the whole timer map of a run loop: the CF timer or the
signalled CF source (Darwin), `SetTimer` (Win32), the timerfd (Android). It is set anew

* by every `schedule` and `unschedule`, and on Darwin by every `send`;
* at the end of a dispatch pass: by `State::poll` (Darwin) and `on_timer` (Win32), and on
  Android after each batch of due timers.

The CF timer and the timerfd fire once, `SetTimer` repeats. A zero `it_value` disarms
the timerfd, which is what `wake_up_at` asks for when a timer is already due; and
`SetTimer` puts off what is due in less than its minimum. While a pass is under way its
wake-up has fired, and a callback of the pass may wait in a nested loop.

The clock is read twice: for a deadline or the timers that are due, and again for the time
from now that the wake-up is set by (`late`). The native call is of the second moment.

`last` records what last happened to the wake-up; no step reads it.
-/

namespace Wxp.RunLoop

structure Native where
  /-- When the CF timer, the timer of `SetTimer` or the timerfd fires next. -/
  timer : Option Instant := none
  /-- The period of `SetTimer`. -/
  period : Nat := 0
  /-- The CF source is signalled. -/
  signalled : Bool := false

inductive LastSet
  | never
  /-- It was set and that is still in force. -/
  | set
  /-- It was set for no time at all, which disarms the timerfd. -/
  | zero
  /-- It was set for less than the minimum of `SetTimer`, which puts it off until `t`. -/
  | putOff (t : Instant)
  /-- It fired; `again` is when it does so by itself. -/
  | fired (again : Option Instant)
  deriving DecidableEq, Repr

structure Woken (κ τ : Type) where
  loop : Loop κ τ := {}
  native : Native := {}
  last : LastSet := .never

inductive WakeAct (κ τ : Type)
  /-- A step of the run loop, with a dispatch pass that no wake-up of these started: a
  posted message, a stale event, or the last `drain` of `run` on Darwin. If it sets the
  wake-up, it reads the clock again, which is `late` later. -/
  | loop (a : Act κ τ) (late : Nat)
  | timerFires (order : List HandleType)
  | sourceFires (order : List HandleType)

variable {κ τ : Type}

/-! ## Setting the wake-up -/

/-- `next_timer`, and `next_instant` where no callback is queued: the earliest deadline,
or an hour from now. -/
def State.nextTimer (s : State κ τ) (now : Instant) : Instant :=
  ((s.timers.map fun v => v.2.scheduled).min?).getD (now + 3600000000000)

/-- `USER_TIMER_MINIMUM` and `USER_TIMER_MAXIMUM`, which `SetTimer` documents. -/
def userTimerMinimum : Nat := 10 * 1000000

def userTimerMaximum : Nat := 0x7FFFFFFF * 1000000

/-- The time-out of `SetTimer` for an elapse of whole milliseconds. -/
def setTimer (elapse : Nat) : Nat := max userTimerMinimum (min elapse userTimerMaximum)

/-- `wake_up_at` of Win32 and Android. The milliseconds for `SetTimer` are cut to a `u32`. -/
def Native.wakeUpAt (n : Native) (b : Backend) (now time : Instant) : Native :=
  let waitTime := time - now
  match b with
  | .win32 =>
      let elapse := setTimer (waitTime / 1000000 % 2 ^ 32 * 1000000)
      { n with timer := some (now + elapse), period := elapse }
  | .android => { n with timer := if waitTime = 0 then none else some (now + waitTime) }
  | .darwin | .linux => n

/-- `State::schedule` of Darwin: queued callbacks go by the source, timers by the timer. -/
def Native.schedule (n : Native) (s : State κ τ) (now : Instant) : Native :=
  if s.callbacks.isEmpty then { n with timer := some (now + (s.nextTimer now - now)) }
  else { n with timer := none, signalled := true }

/-- The wake-up as the backend sets it for the state `s`. -/
def Native.arm (n : Native) (b : Backend) (s : State κ τ) (now : Instant) : Native :=
  match b with
  | .darwin => n.schedule s now
  | .win32 | .android => n.wakeUpAt b now (s.nextTimer now)
  | .linux => n

/-- The step ends with a call that sets the wake-up. -/
def Loop.arms (l : Loop κ τ) (b : Backend) : Act κ τ → Bool
  | .schedule _ _ | .unschedule _ => true
  | .send _ => b == .darwin
  | .wakeBlockOn _ => b == .darwin && !l.queued
  | .next order => match b, l.stack with
    | .darwin, .batch [] [] :: _ => !l.state.timers.isEmpty
    | .win32, .timers [] :: _ => order.isEmpty
    | .android, .timers [h] :: _ => (l.state.timers.lookup h).isNone
    | _, _ => false
  | .finish => match b, l.stack with
    | .android, .timer _ :: .timers [] :: _ => true
    | _, _ => false
  | _ => false

/-! ## The steps -/

namespace Woken

/-- What setting the wake-up comes to, for the time `next`. -/
def lastSet (b : Backend) (now next : Instant) : LastSet :=
  match b with
  | .android => if next ≤ now then .zero else .set
  | .win32 => if next < now + userTimerMinimum then .putOff (now + userTimerMinimum) else .set
  | .darwin | .linux => .set

/-- `loop` is the run loop after a step that sets the wake-up. -/
def arm (s : Woken κ τ) (b : Backend) (loop : Loop κ τ) : Woken κ τ :=
  { loop,
    native := s.native.arm b loop.state loop.now,
    last := lastSet b loop.now (loop.state.nextTimer loop.now) }

/-- `native` is what is left after the one-shot wake-up of Darwin or Android fired. -/
def fired (loop : Loop κ τ) (native : Native) : Woken κ τ :=
  { loop, native,
    last := if native.timer.isSome || native.signalled then .set else .fired none }

section Steps

variable [DecidableEq κ]

/-- The timer fires and its pass begins. -/
def timerFires (s : Woken κ τ) (b : Backend) (order : List HandleType) :
    Option (Woken κ τ) :=
  match s.native.timer with
  | none => none
  | some t =>
      if t ≤ s.loop.now then
        match b with
        | .darwin =>
            (s.loop.dispatchCallbacks b order).map fun l => fired l { s.native with timer := none }
        | .win32 =>
            let again := t + s.native.period
            (s.loop.dispatchTimers b).map fun l =>
              { loop := l, native := { s.native with timer := some again },
                last := .fired (some again) }
        | .android =>
            (s.loop.dispatchTimers b).map fun l => fired l { s.native with timer := none }
        | .linux => none
      else none

/-- The signalled source of Darwin fires and its pass begins. -/
def sourceFires (s : Woken κ τ) (b : Backend) (order : List HandleType) :
    Option (Woken κ τ) :=
  if b = .darwin ∧ s.native.signalled = true then
    (s.loop.dispatchCallbacks b order).map fun l => fired l { s.native with signalled := false }
  else none

def step (b : Backend) (s : Woken κ τ) : WakeAct κ τ → Option (Woken κ τ)
  | .loop a late => (s.loop.step b a).map fun l =>
      if s.loop.arms b a then s.arm b { l with now := l.now + late } else { s with loop := l }
  | .timerFires order => s.timerFires b order
  | .sourceFires order => s.sourceFires b order

end Steps

end Woken

/-- One run loop with its native wake-up. -/
def wakeSystem (κ τ : Type) [DecidableEq κ] (b : Backend) :
    System (Woken κ τ) (WakeAct κ τ) where
  init := {}
  step := Woken.step b

/-! ## The property and its condition -/

namespace Woken

/-- `t` is no later than the earliest pending deadline, or than now if that has passed. -/
def InTime (s : Woken κ τ) (t : Instant) : Prop :=
  ∀ v ∈ s.loop.state.timers, t ≤ max v.2.scheduled s.loop.now

/-- The thread waits in the native loop and timers are pending. -/
def Waits (s : Woken κ τ) : Prop :=
  canPump s.loop.stack = true ∧ s.loop.state.timers ≠ []

/-- The native wake-up fires in time, at once where the source is signalled. -/
def Armed (s : Woken κ τ) : Prop :=
  s.native.signalled = true ∨ ∃ t, s.native.timer = some t ∧ s.InTime t

/-- The wake-up was set after it last fired: on Android for a time that was still to come, on
Win32 for one that was at least the minimum of `SetTimer` away. Or it comes in time all the
same, as the repetition of one that fired, or when what was put off is over. -/
def SetSince (s : Woken κ τ) : Prop :=
  s.last = .set ∨ ∃ t, (s.last = .fired (some t) ∨ s.last = .putOff t) ∧ s.InTime t

/-- The native timer of Win32 fires less than the minimum of `SetTimer` late. -/
def ArmedShortly (s : Woken κ τ) : Prop :=
  ∃ t, s.native.timer = some t ∧
    ∀ v ∈ s.loop.state.timers, t ≤ max v.2.scheduled s.loop.now + userTimerMinimum

end Woken

/-- The frame of a dispatch pass that runs timers, which ends with setting the wake-up
on Darwin and Win32. -/
def Frame.isTimerPass (b : Backend) : Frame κ τ → Bool
  | .batch _ _ => b == .darwin
  | .timers _ => b != .darwin
  | _ => false

/-- A pass that runs timers is under way. -/
def Loop.inTimerPass (l : Loop κ τ) (b : Backend) : Bool := l.stack.any (Frame.isTimerPass b)

/-! ## What a step does to deadlines and clock -/

theorem State.nextTimer_le {s : State κ τ} {now : Instant} {v : HandleType × Timer τ}
    (hv : v ∈ s.timers) : s.nextTimer now ≤ v.2.scheduled := by
  have hm : v.2.scheduled ∈ s.timers.map fun v => v.2.scheduled :=
    List.mem_map_of_mem (f := fun v => v.2.scheduled) hv
  unfold State.nextTimer
  cases hmin : (s.timers.map fun v => v.2.scheduled).min? with
  | none =>
      rw [List.min?_eq_none_iff.1 hmin] at hm
      cases hm
  | some t => exact (List.min?_eq_some_iff.1 hmin).2 _ hm

theorem add_le_max {now next deadline elapse : Nat} (he : elapse ≤ next - now)
    (h : next ≤ deadline) : now + elapse ≤ max deadline now := by
  omega

theorem sub_lt_of_lt_add {next now slack : Nat} (h0 : 0 < slack) (h : next < now + slack) :
    next - now < slack := by
  omega

theorem le_max_mono {t deadline now now' : Nat} (h : t ≤ max deadline now) (hn : now ≤ now') :
    t ≤ max deadline now' := by
  omega

/-- The milliseconds are rounded down and cut to 32 bits. -/
theorem elapse_le (waitTime : Nat) : waitTime / 1000000 % 2 ^ 32 * 1000000 ≤ waitTime :=
  Nat.le_trans (Nat.mul_le_mul_right _ (Nat.mod_le _ _)) (Nat.div_mul_le_self _ _)

theorem setTimer_le {elapse : Nat} : setTimer elapse ≤ max userTimerMinimum elapse :=
  Nat.max_le.2 ⟨Nat.le_max_left _ _, Nat.le_trans (Nat.min_le_left _ _) (Nat.le_max_right _ _)⟩

/-- A time-out that is not put off does not come late. -/
theorem setTimer_le_wait {waitTime : Nat} (h : userTimerMinimum ≤ waitTime) :
    setTimer (waitTime / 1000000 % 2 ^ 32 * 1000000) ≤ waitTime :=
  Nat.le_trans setTimer_le (Nat.max_le.2 ⟨h, elapse_le waitTime⟩)

theorem setTimer_short {waitTime : Nat} (h : waitTime < userTimerMinimum) :
    setTimer (waitTime / 1000000 % 2 ^ 32 * 1000000) = userTimerMinimum := by
  have hle := elapse_le waitTime
  exact Nat.max_eq_left (Nat.le_trans (Nat.min_le_left _ _) (Nat.le_of_lt (Nat.lt_of_le_of_lt hle h)))

/-- What the backend sets fires in time for every timer of the map, unless it is put off. -/
theorem Native.arm_inTime {n : Native} {b : Backend} (hb : b ≠ .linux) {s : State κ τ}
    {now t : Instant} (hoff : b = .win32 → now + userTimerMinimum ≤ s.nextTimer now)
    (ht : (n.arm b s now).timer = some t) {v : HandleType × Timer τ}
    (hv : v ∈ s.timers) : t ≤ max v.2.scheduled now := by
  have hle : s.nextTimer now ≤ v.2.scheduled := State.nextTimer_le hv
  cases b with
  | darwin =>
      simp only [Native.arm, Native.schedule] at ht
      split at ht
      · cases ht
        exact add_le_max (Nat.le_refl _) hle
      · cases ht
  | win32 =>
      simp only [Native.arm, Native.wakeUpAt, Option.some.injEq] at ht
      subst ht
      exact add_le_max (setTimer_le_wait (Nat.le_sub_of_add_le' (hoff rfl))) hle
  | android =>
      simp only [Native.arm, Native.wakeUpAt, Option.ite_none_left_eq_some,
        Option.some.injEq] at ht
      obtain ⟨-, rfl⟩ := ht
      exact add_le_max (Nat.le_refl _) hle
  | linux => exact absurd rfl hb

/-- Setting the wake-up leaves it set, unless Android asks for no time at all. -/
theorem Native.arm_isSet {n : Native} {b : Backend} (hb : b ≠ .linux) {s : State κ τ}
    {now : Instant} (h : b = .android → now < s.nextTimer now) :
    (n.arm b s now).timer.isSome = true ∨ (n.arm b s now).signalled = true := by
  cases b with
  | darwin =>
      simp only [Native.arm, Native.schedule]
      split
      · exact .inl rfl
      · exact .inr rfl
  | win32 => exact .inl rfl
  | android =>
      refine .inl ?_
      simp [Native.arm, Native.wakeUpAt, Nat.sub_ne_zero_of_lt (h rfl)]
  | linux => exact absurd rfl hb

theorem Native.arm_zero {n : Native} {s : State κ τ} {now : Instant}
    (h : s.nextTimer now ≤ now) : (n.arm .android s now).timer = none := by
  simp [Native.arm, Native.wakeUpAt, Nat.sub_eq_zero_of_le h]

theorem Native.arm_putOff {n : Native} {s : State κ τ} {now : Instant}
    (h : s.nextTimer now < now + userTimerMinimum) :
    (n.arm .win32 s now).timer = some (now + userTimerMinimum) := by
  have hwait : s.nextTimer now - now < userTimerMinimum := sub_lt_of_lt_add (by decide) h
  rw [Native.arm, Native.wakeUpAt, setTimer_short hwait]

theorem Native.arm_signalled {n : Native} {b : Backend} (hb : b ≠ .darwin) (s : State κ τ)
    (now : Instant) : (n.arm b s now).signalled = n.signalled := by
  cases b with
  | darwin => exact absurd rfl hb
  | _ => rfl

theorem Loop.arms_of_isTimerCall {l : Loop κ τ} {b : Backend} {a : Act κ τ}
    (h : l.arms b a = false) : a.isTimerCall = false := by
  cases a with
  | schedule | unschedule => cases h
  | _ => rfl

namespace Woken

/-! ## The invariant -/

/-- The native wake-up is as its history says. -/
def Agrees (n : Native) : LastSet → Prop
  | .set => n.timer.isSome = true ∨ n.signalled = true
  | .fired again => n.timer = again ∧ n.signalled = false
  | .putOff t => n.timer = some t ∧ n.signalled = false
  | .never | .zero => n.timer = none ∧ n.signalled = false

structure Consistent (b : Backend) (s : Woken κ τ) : Prop where
  source : b ≠ .darwin → s.native.signalled = false
  agrees : Agrees s.native s.last
  inTime : s.last = .set → ∀ t, s.native.timer = some t → s.InTime t

theorem Consistent.armed_iff {b : Backend} {s : Woken κ τ} (h : s.Consistent b) :
    s.Armed ↔ s.SetSince := by
  obtain ⟨-, hagrees, hin⟩ := h
  unfold Armed SetSince
  cases hl : s.last with
  | set =>
      rw [hl] at hagrees
      refine ⟨fun _ => .inl rfl, fun _ => ?_⟩
      rcases hagrees with ht | hs
      · obtain ⟨t, ht⟩ := Option.isSome_iff_exists.1 ht
        exact .inr ⟨t, ht, hin hl t ht⟩
      · exact .inl hs
  | fired again =>
      rw [hl] at hagrees
      obtain ⟨ht, hs⟩ := hagrees
      simp [ht, hs]
  | putOff t =>
      rw [hl] at hagrees
      obtain ⟨ht, hs⟩ := hagrees
      simp [ht, hs]
  | never | zero =>
      rw [hl] at hagrees
      obtain ⟨ht, hs⟩ := hagrees
      simp [ht, hs]

/-- The wake-up is set, for no time at all (Android), or put off (Win32). -/
theorem lastSet_cases (b : Backend) (now next : Instant) :
    lastSet b now next = .set ∧ (b = .android → now < next) ∧
        (b = .win32 → now + userTimerMinimum ≤ next) ∨
      lastSet b now next = .zero ∧ b = .android ∧ next ≤ now ∨
      lastSet b now next = .putOff (now + userTimerMinimum) ∧ b = .win32 ∧
        next < now + userTimerMinimum := by
  cases b with
  | darwin | linux => exact .inl ⟨rfl, nofun, nofun⟩
  | win32 =>
      by_cases hlt : next < now + userTimerMinimum
      · exact .inr (.inr ⟨if_pos hlt, rfl, hlt⟩)
      · exact .inl ⟨if_neg hlt, nofun, fun _ => Nat.le_of_not_lt hlt⟩
  | android =>
      by_cases hle : next ≤ now
      · exact .inr (.inl ⟨if_pos hle, rfl, hle⟩)
      · exact .inl ⟨if_neg hle, fun _ => Nat.lt_of_not_le hle, nofun⟩

/-- Time passes and timers leave the map. -/
theorem InTime.mono {s s' : Woken κ τ} {t : Instant} (h : s.InTime t)
    (ht : ∀ v ∈ s'.loop.state.timers, v ∈ s.loop.state.timers) (hn : s.loop.now ≤ s'.loop.now) :
    s'.InTime t :=
  fun v hv => le_max_mono (h v (ht v hv)) hn

/-- A step that sets the wake-up. -/
theorem Consistent.arm {b : Backend} (hb : b ≠ .linux) {s : Woken κ τ} (h : s.Consistent b)
    (l : Loop κ τ) : (s.arm b l).Consistent b := by
  have hsource : b ≠ .darwin → (s.arm b l).native.signalled = false := fun hd =>
    (Native.arm_signalled hd _ _).trans (h.source hd)
  rcases lastSet_cases b l.now (l.state.nextTimer l.now) with
    ⟨hl, hz, hoff⟩ | ⟨hl, rfl, hle⟩ | ⟨hl, rfl, hlt⟩
  · refine ⟨hsource, ?_, fun _ t ht v hv => Native.arm_inTime hb hoff ht hv⟩
    rw [show (s.arm b l).last = _ from hl]
    exact Native.arm_isSet hb hz
  · have hlast : (s.arm .android l).last = .zero := hl
    refine ⟨hsource, ?_, fun hset => nomatch hlast.symm.trans hset⟩
    rw [hlast]
    exact ⟨Native.arm_zero hle, hsource (by decide)⟩
  · have hlast : (s.arm .win32 l).last = .putOff (l.now + userTimerMinimum) := hl
    refine ⟨hsource, ?_, fun hset => nomatch hlast.symm.trans hset⟩
    rw [hlast]
    exact ⟨Native.arm_putOff hlt, hsource (by decide)⟩

/-- A step that neither sets the wake-up nor makes it fire. -/
theorem Consistent.same {b : Backend} {s : Woken κ τ} (h : s.Consistent b) {l : Loop κ τ}
    (ht : ∀ v ∈ l.state.timers, v ∈ s.loop.state.timers) (hn : s.loop.now ≤ l.now) :
    Consistent b { s with loop := l } :=
  ⟨h.source, h.agrees, fun hl t hnat => (h.inTime hl t hnat).mono ht hn⟩

/-- A one-shot wake-up fires; what is left of it was set and is still in time. -/
theorem Consistent.fired {b : Backend} {l : Loop κ τ} {n : Native}
    (hsource : b ≠ .darwin → n.signalled = false)
    (hin : ∀ t, n.timer = some t → ∀ v ∈ l.state.timers, t ≤ max v.2.scheduled l.now) :
    (Woken.fired l n).Consistent b := by
  refine ⟨hsource, ?_, fun _ t ht => hin t ht⟩
  unfold Woken.fired
  dsimp only
  split
  · rename_i hset
    simpa [Agrees] using hset
  · rename_i hset
    simpa [Agrees] using hset

theorem Consistent.timerFires {b : Backend} {s s' : Woken κ τ} (h : s.Consistent b)
    {order : List HandleType} (hst : s.timerFires b order = some s') : s'.Consistent b := by
  unfold Woken.timerFires at hst
  split at hst
  · cases hst
  · rename_i t ht
    split at hst
    · cases b with
      | darwin | android =>
          obtain ⟨l, -, rfl⟩ := Option.map_eq_some_iff.1 hst
          exact .fired h.source fun _ ht => nomatch ht
      | win32 =>
          obtain ⟨l, -, rfl⟩ := Option.map_eq_some_iff.1 hst
          exact ⟨h.source, ⟨rfl, h.source (by decide)⟩, fun hl => nomatch hl⟩
      | linux => cases hst
    · cases hst

variable [DecidableEq κ]

theorem Consistent.sourceFires {b : Backend} {s s' : Woken κ τ} (h : s.Consistent b)
    {order : List HandleType} (hst : s.sourceFires b order = some s') : s'.Consistent b := by
  simp only [Woken.sourceFires, Option.ite_none_right_eq_some, Option.map_eq_some_iff] at hst
  obtain ⟨⟨-, hs⟩, l, hl, rfl⟩ := hst
  have hset : s.last = .set := by
    have hagrees := h.agrees
    cases hlast : s.last with
    | set => rfl
    | _ =>
        rw [hlast] at hagrees
        rw [hagrees.2] at hs
        cases hs
  have hstep := Loop.step_cases (a := .dispatchCallbacks order) hl
  refine .fired (fun _ => rfl) fun t ht v hv => ?_
  exact le_max_mono (h.inTime hset t ht v (hstep.mem_timers rfl hv)) hstep.now_le

theorem Consistent.step {b : Backend} (hb : b ≠ .linux) {s s' : Woken κ τ} {a : WakeAct κ τ}
    (h : s.Consistent b) (hst : s.step b a = some s') : s'.Consistent b := by
  cases a with
  | loop a late =>
      obtain ⟨l, hl, rfl⟩ := Option.map_eq_some_iff.1 hst
      have hstep := Loop.step_cases hl
      split
      · exact h.arm hb _
      · rename_i harms
        have ha : a.isTimerCall = false := Loop.arms_of_isTimerCall (by simpa using harms)
        exact h.same (fun v hv => hstep.mem_timers ha hv) hstep.now_le
  | timerFires order => exact h.timerFires hst
  | sourceFires order => exact h.sourceFires hst

omit [DecidableEq κ] in
theorem consistent_init (b : Backend) : Consistent b ({} : Woken κ τ) :=
  ⟨fun _ => rfl, ⟨rfl, rfl⟩, fun h => nomatch h⟩

theorem consistent_of_reachable {b : Backend} (hb : b ≠ .linux) {s : Woken κ τ}
    (h : (wakeSystem κ τ b).Reachable s) : s.Consistent b :=
  h.invariant (I := Consistent b) (consistent_init b) fun _ _ _ _ hi hst => hi.step hb hst

/-! ## Outside of the passes -/

omit [DecidableEq κ] in
theorem inTimerPass_cons {l : Loop κ τ} {b : Backend} {f : Frame κ τ}
    {rest : List (Frame κ τ)} (h : l.stack = f :: rest) :
    l.inTimerPass b = (f.isTimerPass b || rest.any (Frame.isTimerPass b)) := by
  rw [Loop.inTimerPass, h, List.any_cons]

omit [DecidableEq κ] in
/-- What the step of a dispatch pass leaves of the passes: the end of one sets the
wake-up, unless no timer is left. -/
theorem inTimerPass_next {b : Backend} {l l' : Loop κ τ} {order : List HandleType}
    (hb : b = .darwin ∨ b = .win32) (hp : l.inTimerPass b = true)
    (ha : l.arms b (.next order) = false) (h : l.next order = some l') :
    l'.inTimerPass b = true ∨ l'.state.timers = [] := by
  unfold Loop.next at h
  split at h
  case h_1 c cs ts rest hst =>
    cases h
    rw [inTimerPass_cons hst] at hp
    exact .inl hp
  case h_2 t ts rest hst =>
    cases h
    rw [inTimerPass_cons hst] at hp
    exact .inl hp
  case h_3 rest hst =>
    cases h
    rw [inTimerPass_cons hst] at hp
    rcases hb with rfl | rfl
    · simp only [Loop.arms, hst, Bool.not_eq_false', List.isEmpty_iff] at ha
      exact .inr ha
    · exact .inl hp
  case h_4 rest hst =>
    rw [inTimerPass_cons hst] at hp
    split at h
    · cases h
      rcases hb with rfl | rfl
      · split
        · exact .inl hp
        · exact .inl hp
      · simp only [Loop.arms, hst] at ha
        rw [ha]
        exact .inl rfl
    · cases h
  case h_5 hd hs rest hst =>
    rw [inTimerPass_cons hst] at hp
    split at h
    · cases h
      exact .inl hp
    · cases h
      exact .inl hp
  case h_6 => cases h

/-- No other step ends a pass. -/
theorem inTimerPass_step {b : Backend} {l l' : Loop κ τ} {a : Act κ τ}
    (ha : ∀ order, a ≠ .next order) (hp : l.inTimerPass b = true) (h : Loop.Step b l a l') :
    l'.inTimerPass b = true := by
  have hpush : ∀ f : Frame κ τ, (f :: l.stack).any (Frame.isTimerPass b) = true := fun f => by
    rw [List.any_cons, Bool.or_eq_true]
    exact .inr hp
  cases h with
  | nextCallback order | nextTimer order | nextHandle order | batchDone order
  | timersDone order | timersRead order | handleGone order => exact absurd rfl (ha order)
  | tick | send | wakeCoalesced | wake | schedule | unschedule => exact hp
  | drain | processCallbacks | dispatchTimers | source | timeout | enterBlockOn | enterNative =>
      exact hpush _
  | finishCallback _ _ hst | finishTimer _ _ hst | takeQueued _ hst | pollReady _ hst
  | pollPending _ hst | pollOnceReturns _ hst | exitNative _ hst =>
      rw [inTimerPass_cons hst] at hp
      exact hp

omit [DecidableEq κ] in
/-- On Darwin a dispatch pass runs the due timers with the batch. -/
theorem inTimerPass_dispatchCallbacks {l l' : Loop κ τ} {order : List HandleType}
    (h : l.dispatchCallbacks .darwin order = some l') : l'.inTimerPass .darwin = true := by
  simp only [Loop.dispatchCallbacks, Option.ite_none_left_eq_some,
    Option.ite_none_right_eq_some, Option.some.injEq] at h
  obtain ⟨-, -, rfl⟩ := h
  rfl

/-- The wake-up was put off, and not for longer than the minimum from now. -/
def PutOff (b : Backend) (s : Woken κ τ) : Prop :=
  b = .win32 ∧ ∃ t, s.last = .putOff t ∧ t ≤ s.loop.now + userTimerMinimum

/-- On Darwin and Win32 a wake-up that fired is set again by the end of its pass. -/
def Attended (b : Backend) (s : Woken κ τ) : Prop :=
  s.last = .set ∨ s.PutOff b ∨ s.loop.inTimerPass b = true ∨ s.loop.state.timers = []

omit [DecidableEq κ] in
theorem PutOff.same {b : Backend} {s : Woken κ τ} (h : s.PutOff b) {l : Loop κ τ}
    (hn : s.loop.now ≤ l.now) : PutOff b { s with loop := l } := by
  obtain ⟨hb, t, hl, ht⟩ := h
  exact ⟨hb, t, hl, Nat.le_trans ht (Nat.add_le_add_right hn _)⟩

omit [DecidableEq κ] in
theorem attended_arm {b : Backend} (hb : b = .darwin ∨ b = .win32) (s : Woken κ τ)
    (l : Loop κ τ) : (s.arm b l).Attended b := by
  rcases lastSet_cases b l.now (l.state.nextTimer l.now) with
    ⟨hl, -⟩ | ⟨-, rfl, -⟩ | ⟨hl, rfl, -⟩
  · exact .inl hl
  · simp at hb
  · exact .inr (.inl ⟨rfl, _, hl, Nat.le_refl _⟩)

theorem Attended.step {b : Backend} (hb : b = .darwin ∨ b = .win32) {s s' : Woken κ τ}
    {a : WakeAct κ τ} (h : s.Attended b) (hst : s.step b a = some s') : s'.Attended b := by
  cases a with
  | loop a late =>
      obtain ⟨l, hl, rfl⟩ := Option.map_eq_some_iff.1 hst
      have hstep := Loop.step_cases hl
      split
      · exact attended_arm hb s _
      · rename_i harms
        rw [Bool.not_eq_true] at harms
        rcases h with h | h | h | h
        · exact .inl h
        · exact .inr (.inl (h.same hstep.now_le))
        · refine .inr (.inr ?_)
          by_cases hn : ∃ order, a = .next order
          · obtain ⟨order, rfl⟩ := hn
            exact inTimerPass_next hb h harms hl
          · exact .inl (inTimerPass_step (not_exists.1 hn) h hstep)
        · have ha : a.isTimerCall = false := Loop.arms_of_isTimerCall harms
          refine .inr (.inr (.inr (List.eq_nil_iff_forall_not_mem.2 fun v hv => ?_)))
          have := hstep.mem_timers ha hv
          rw [h] at this
          cases this
  | timerFires order =>
      simp only [Woken.step, Woken.timerFires] at hst
      split at hst
      · cases hst
      · split at hst
        · rcases hb with rfl | rfl
          · obtain ⟨l, hl, rfl⟩ := Option.map_eq_some_iff.1 hst
            exact .inr (.inr (.inl (inTimerPass_dispatchCallbacks hl)))
          · obtain ⟨l, hl, rfl⟩ := Option.map_eq_some_iff.1 hst
            simp only [Loop.dispatchTimers, Option.ite_none_right_eq_some,
              Option.some.injEq] at hl
            obtain ⟨-, rfl⟩ := hl
            exact .inr (.inr (.inl rfl))
        · cases hst
  | sourceFires order =>
      simp only [Woken.step, Woken.sourceFires, Option.ite_none_right_eq_some,
        Option.map_eq_some_iff] at hst
      obtain ⟨⟨rfl, -⟩, l, hl, rfl⟩ := hst
      exact .inr (.inr (.inl (inTimerPass_dispatchCallbacks hl)))

/-- Outside of the passes the wake-up is set, or put off. -/
theorem set_or_putOff {b : Backend} (hb : b = .darwin ∨ b = .win32) {s : Woken κ τ}
    (hs : (wakeSystem κ τ b).Reachable s) (hw : s.Waits) (hp : s.loop.inTimerPass b = false) :
    s.last = .set ∨ s.PutOff b := by
  have hatt : s.Attended b :=
    hs.invariant (I := Attended b) (.inr (.inr (.inr rfl))) fun _ _ _ _ hi hst => hi.step hb hst
  rcases hatt with h | h | h | h
  · exact .inl h
  · exact .inr h
  · rw [hp] at h
    cases h
  · exact absurd h hw.2

omit [DecidableEq κ] in
theorem Armed.shortly {s : Woken κ τ} (h : s.Armed) (hs : s.native.signalled = false) :
    s.ArmedShortly := by
  rcases h with hsig | ⟨t, ht, hin⟩
  · rw [hs] at hsig
    cases hsig
  · exact ⟨t, ht, fun v hv => Nat.le_add_right_of_le (hin v hv)⟩

omit [DecidableEq κ] in
theorem PutOff.shortly {b : Backend} {s : Woken κ τ} (h : s.PutOff b) (hc : s.Consistent b) :
    s.ArmedShortly := by
  obtain ⟨-, t, hl, ht⟩ := h
  have hagrees := hc.agrees
  rw [hl] at hagrees
  refine ⟨t, hagrees.1, fun v _ => Nat.le_trans ht ?_⟩
  exact Nat.add_le_add_right (Nat.le_max_right _ _) _

/-! ## The result -/

/-- **The wake-up is armed for the pending timers exactly where it was set since it last
fired** (on Android for a time still to come, on Win32 for one that is not put off), in every
reachable state that waits. Outside of the passes that run timers it always is on Darwin, and
on Win32 up to the minimum of `SetTimer`. -/
theorem wakeup_armed_iff :
    (∀ (b : Backend) (s : Woken κ τ), b ≠ .linux → (wakeSystem κ τ b).Reachable s →
      s.Waits → (s.Armed ↔ s.SetSince)) ∧
    (∀ s : Woken κ τ, (wakeSystem κ τ .darwin).Reachable s → s.Waits →
      s.loop.inTimerPass .darwin = false → s.Armed) ∧
    (∀ s : Woken κ τ, (wakeSystem κ τ .win32).Reachable s → s.Waits →
      s.loop.inTimerPass .win32 = false → s.ArmedShortly) := by
  refine ⟨fun b s hb hs _ => (consistent_of_reachable hb hs).armed_iff, fun s hs hw hp => ?_,
    fun s hs hw hp => ?_⟩
  · have hc := consistent_of_reachable (by decide) hs
    rcases set_or_putOff (.inl rfl) hs hw hp with hset | ⟨hb, -⟩
    · exact hc.armed_iff.2 (.inl hset)
    · cases hb
  · have hc := consistent_of_reachable (by decide) hs
    rcases set_or_putOff (.inr rfl) hs hw hp with hset | hoff
    · exact (hc.armed_iff.2 (.inl hset)).shortly (hc.source (by decide))
    · exact hoff.shortly hc

/-! ### A run that waits, and runs that forget a timer -/

instance (s : Woken κ τ) (t : Instant) : Decidable (s.InTime t) :=
  inferInstanceAs (Decidable (∀ v ∈ s.loop.state.timers, t ≤ max v.2.scheduled s.loop.now))

instance (s : Woken κ τ) : Decidable s.Armed :=
  decidable_of_iff
    (s.native.signalled = true ∨ s.native.timer.any (fun t => decide (s.InTime t)) = true)
    (by simp [Armed, Option.any_eq_true])

instance (s : Woken κ τ) : Decidable s.Waits :=
  decidable_of_iff (canPump s.loop.stack = true ∧ s.loop.state.timers.isEmpty = false)
    (and_congr_right fun _ => List.isEmpty_eq_false_iff)

/-- Of two timers the first one fires, and its pass sets the wake-up for the second. -/
def firstTimerRun : List (WakeAct Nat Nat) :=
  [.loop (.schedule 10 1) 2, .loop (.schedule 30 2) 1, .loop (.tick 10) 0, .timerFires [],
    .loop (.next [1]) 0, .loop (.next []) 0, .loop .finish 3, .loop (.next []) 0]

theorem wakeup_armed_iff_firstTimer :
    ∃ s : Woken Nat Nat, s.loop.fired = [1] ∧ s.Waits ∧ s.Armed := by
  have hrun : ((wakeSystem Nat Nat .android).run {} firstTimerRun).map
      (fun s => s.loop.fired == [1] && decide s.Waits && s.last == .set) = some true := by decide
  obtain ⟨s, hs, hp⟩ := System.exists_reachable _ _ hrun
  simp only [Bool.and_eq_true, beq_iff_eq, decide_eq_true_eq] at hp
  obtain ⟨⟨hf, hw⟩, hl⟩ := hp
  exact ⟨s, hf, hw, (wakeup_armed_iff.1 .android s (by decide) hs hw).2 (.inl hl)⟩

/-- The host schedules a timer, and the wake-up is set `late` after the deadline was read. -/
def scheduleRun (inTime late : Nat) : List (WakeAct Nat Nat) := [.loop (.schedule inTime 1) late]

/-- The callback of the first timer waits in `block_on` while the second one is pending. -/
def nestedWaitRun (order : List HandleType) (steps : List (WakeAct Nat Nat)) :
    List (WakeAct Nat Nat) :=
  [.loop (.schedule 10000000 1) 0, .loop (.schedule 15000000 2) 0, .loop (.tick 10000000) 0,
    .timerFires order] ++ steps ++
    [.loop (.next []) 0, .loop .enterBlockOn 0, .loop .takeQueued 0, .loop .pollPending 0]

theorem forgets_of_run {b : Backend} (as : List (WakeAct Nat Nat))
    (h : ((wakeSystem Nat Nat b).run {} as).map (fun s => decide (s.Waits ∧ ¬ s.Armed)) =
      some true) :
    ∃ s, (wakeSystem Nat Nat b).run {} as = some s ∧ s.Waits ∧ ¬ s.Armed := by
  obtain ⟨s, hs, hp⟩ := Option.map_eq_some_iff.1 h
  exact ⟨s, hs, of_decide_eq_true hp⟩

/-- Android forgets a timer that is due when the wake-up is set for it, and Win32 puts off one
that is due in five milliseconds; each backend forgets the timers that are pending while a
callback of a pass waits. -/
theorem wakeup_forgets_a_timer :
    (∃ s, (wakeSystem Nat Nat .android).run {} (scheduleRun 0 0) = some s ∧
      s.Waits ∧ ¬ s.Armed) ∧
    (∃ s, (wakeSystem Nat Nat .android).run {} (scheduleRun 5 70) = some s ∧
      s.Waits ∧ ¬ s.Armed) ∧
    (∃ s, (wakeSystem Nat Nat .win32).run {} (scheduleRun 5000000 0) = some s ∧
      s.Waits ∧ ¬ s.Armed) ∧
    (∃ s, (wakeSystem Nat Nat .android).run {} (nestedWaitRun [] [.loop (.next [1]) 0]) = some s ∧
      s.Waits ∧ ¬ s.Armed) ∧
    (∃ s, (wakeSystem Nat Nat .darwin).run {} (nestedWaitRun [1] []) = some s ∧
      s.Waits ∧ ¬ s.Armed) ∧
    (∃ s, (wakeSystem Nat Nat .win32).run {} (nestedWaitRun [] [.loop (.next [1]) 0]) = some s ∧
      s.Waits ∧ ¬ s.Armed) :=
  ⟨forgets_of_run _ (by decide), forgets_of_run _ (by decide), forgets_of_run _ (by decide),
    forgets_of_run _ (by decide), forgets_of_run _ (by decide), forgets_of_run _ (by decide)⟩

end Woken

end Wxp.RunLoop
