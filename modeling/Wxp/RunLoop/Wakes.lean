import Wxp.RunLoop.Dispatch

/-!
# RunLoop — Wakes

`BlockOnWaker`. The first wake since `take_queued` sets the flag and then sends an empty
callback; the later ones find the flag set and send nothing. So while the flag is set,
that one callback is all that `poll_once` can wait for. It is not there to be waited
for when

* the shutdown token was set before the wake looked at it, and the send was refused;
* the wake was made during the future's own poll, and a native loop that this poll
  pumps has dispatched the callback already: the flag stays set, and `block_on` does
  not look at it again between the poll and `poll_once`.

A wake on another thread may be between the flag and the queue; then the callback comes
a little later. The wakers of earlier calls of `block_on` have flags of their own; what
they still send are callbacks like any others.
-/

namespace Wxp.RunLoop

/-- A wake on another thread that has set the flag and has not sent its callback. -/
structure Wake (κ : Type) where
  callback : κ
  /-- It has found the shutdown token not set. -/
  checked : Bool := false
  deriving DecidableEq

/-- A run loop with the wakes of the active `block_on`. -/
structure Waked (κ τ : Type) where
  loop : Loop κ τ := {}
  shutdownToken : Bool := false
  sending : List (Wake κ) := []
  /-- The callbacks that the wakes of the active `block_on` have sent. -/
  entries : List κ := []
  /-- Nothing was dispatched since `block_on` entered `poll_once`. -/
  idle : Bool := false

inductive WakedAct (κ τ : Type)
  | loop (a : Act κ τ)
  /-- The last guard is dropped, up to the store of the token. -/
  | shutdown
  /-- A wake on the run loop thread. -/
  | wakeHere (c : κ)
  /-- The steps of a wake on another thread. -/
  | swap (c : κ)
  | checkToken (c : κ)
  | push (c : κ)

variable {κ τ : Type}

/-- A native wake-up is dispatched. -/
def Act.dispatches : Act κ τ → Bool
  | .dispatchCallbacks _ | .dispatchTimers | .dispatchSource _ | .dispatchTimeout _ => true
  | _ => false

/-- `block_on` goes on to `poll_once`. -/
def Act.entersPollOnce : Act κ τ → Bool
  | .takeQueued | .pollPending => true
  | _ => false

/-- A call of `block_on` begins. -/
def Act.beginsBlockOn : Act κ τ → Bool
  | .enterBlockOn => true
  | _ => false

/-- The call in a frame, if it is one of `block_on`. -/
def Frame.phase : Frame κ τ → Option BlockOnPhase
  | .blockOn p => some p
  | _ => none

/-- The calls of `block_on` on the stack. -/
def Loop.phases (l : Loop κ τ) : List BlockOnPhase := l.stack.filterMap Frame.phase

/-- Where the active `block_on` is. -/
def Loop.phase (l : Loop κ τ) : Option BlockOnPhase := l.phases.head?

namespace Waked

section Steps

variable [DecidableEq κ]

/-- A step of the loop. A new `block_on` has a waker of its own. -/
def stepLoop (s : Waked κ τ) (b : Backend) (a : Act κ τ) : Option (Waked κ τ) :=
  match a with
  | .wakeBlockOn _ => none
  | a => (s.loop.step b a).map fun l => { s with
      loop := l,
      sending := if a.beginsBlockOn then [] else s.sending,
      entries := if a.beginsBlockOn then [] else s.entries,
      idle := if a.dispatches then false else if a.entersPollOnce then true else s.idle }

/-- `wake_by_ref` on the run loop thread. -/
def wakeHere (s : Waked κ τ) (c : κ) : Option (Waked κ τ) :=
  if userCode s.loop.stack && s.loop.blockOnActive then
    if s.loop.queued then some s
    else if s.shutdownToken then some { s with loop := { s.loop with queued := true } }
    else (Loop.send { s.loop with queued := true } c).map fun l =>
      { s with loop := l, entries := s.entries ++ [c] }
  else none

/-- `self.queued.swap(true)` on another thread. -/
def swap (s : Waked κ τ) (c : κ) : Option (Waked κ τ) :=
  if s.loop.blockOnActive then
    if s.loop.queued then some s
    else some { s with
      loop := { s.loop with queued := true }, sending := s.sending ++ [{ callback := c }] }
  else none

/-- `shutdown_token.load` in `RunLoopSender::send`. -/
def checkToken (s : Waked κ τ) (c : κ) : Option (Waked κ τ) :=
  if ({ callback := c } : Wake κ) ∈ s.sending then
    some { s with
      sending := if s.shutdownToken then s.sending.erase { callback := c }
        else s.sending.erase { callback := c } ++ [{ callback := c, checked := true }] }
  else none

/-- `platform_sender.send`. -/
def push (s : Waked κ τ) (c : κ) : Option (Waked κ τ) :=
  if { callback := c, checked := true } ∈ s.sending then
    (s.loop.send c).map fun l => { s with
      loop := l, sending := s.sending.erase { callback := c, checked := true },
      entries := s.entries ++ [c] }
  else none

def step (b : Backend) (s : Waked κ τ) : WakedAct κ τ → Option (Waked κ τ)
  | .loop a => s.stepLoop b a
  | .shutdown =>
      if userCode s.loop.stack then some { s with shutdownToken := true } else none
  | .wakeHere c => s.wakeHere c
  | .swap c => s.swap c
  | .checkToken c => s.checkToken c
  | .push c => s.push c

end Steps

/-- A callback of a wake is in the queue. -/
def Pending (s : Waked κ τ) : Prop := ∃ c ∈ s.entries, c ∈ s.loop.state.callbacks

/-- `block_on` has entered `poll_once`, and nothing was dispatched since. -/
def blocked (s : Waked κ τ) : Bool := s.loop.waiting && s.idle

/-- A wake that sets the flag now has nothing but its callback to bring the future to
its next poll. -/
def exposed (s : Waked κ τ) : Bool := s.loop.phase == some .polling || s.blocked

/-- `poll_once` is entered with the flag set only where a callback of a wake is in the
queue, or about to be put there by the thread that has just set the flag. -/
def NoWakeLost (s : Waked κ τ) : Prop :=
  s.blocked = true → s.loop.queued = true → s.sending = [] → s.Pending

/-- The step does not take the last callback of a wake out of the queue. -/
def LeavesEntry [DecidableEq κ] (s : Waked κ τ) : Act κ τ → Prop
  | .dispatchCallbacks _ => ∀ c ∈ s.entries, c ∉ s.loop.state.callbacks
  | .dispatchSource c => c ∈ s.entries → ∃ k ∈ s.entries, k ∈ s.loop.state.callbacks.erase c
  | _ => True

/-- While the flag is set and no wake is on its way, the poll of the future pumps no loop
that delivers the last callback of a wake; and a send is refused only where another one
is left, or `block_on` comes to look at the flag before it waits. -/
def KeepsWakes [DecidableEq κ] (s : Waked κ τ) : WakedAct κ τ → Prop
  | .loop a => s.loop.phase = some .polling → s.loop.queued = true → s.sending = [] →
      s.LeavesEntry a
  | .wakeHere _ => s.shutdownToken = true → s.loop.queued = false → s.exposed = true →
      s.Pending ∨ s.sending ≠ []
  | .checkToken c => s.shutdownToken = true → s.loop.queued = true → s.exposed = true →
      s.Pending ∨ s.sending.erase { callback := c } ≠ []
  | _ => True

section Decidable

variable [DecidableEq κ] (s : Waked κ τ)

instance : Decidable s.Pending := inferInstanceAs (Decidable (∃ c ∈ s.entries, _))

instance (a : Act κ τ) : Decidable (s.LeavesEntry a) :=
  match a with
  | .dispatchCallbacks _ => inferInstanceAs (Decidable (∀ c ∈ s.entries, _))
  | .dispatchSource _ => inferInstanceAs (Decidable (_ → ∃ k ∈ s.entries, _))
  | .tick _ | .send _ | .wakeBlockOn _ | .schedule _ _ | .unschedule _ | .dispatchTimers
  | .dispatchTimeout _ | .next _ | .finish | .enterBlockOn | .takeQueued | .pollReady
  | .pollPending | .pollOnceReturns | .enterNative | .exitNative => isTrue trivial

instance (a : WakedAct κ τ) : Decidable (s.KeepsWakes a) :=
  match a with
  | .loop _ => inferInstanceAs (Decidable (_ → _ → _ → _))
  | .wakeHere _ | .checkToken _ => inferInstanceAs (Decidable (_ → _ → _ → _ ∨ _))
  | .shutdown | .swap _ | .push _ => isTrue trivial

end Decidable

/-- The flag is set, nothing stands for it, and `block_on` waits for the callback or
will do so when the future's poll returns `Pending`. -/
structure Stranded (s : Waked κ τ) : Prop where
  exposed : s.exposed = true
  queued : s.loop.queued = true
  pending : ¬ s.Pending
  sending : s.sending = []

end Waked

/-- One run loop of backend `b` and the wakes of its calls of `block_on`. -/
def wakedSystem (κ τ : Type) [DecidableEq κ] (b : Backend) :
    System (Waked κ τ) (WakedAct κ τ) where
  init := {}
  step := Waked.step b

/-! ## The calls of `block_on` on the stack -/

/-- The actions of `block_on` itself. -/
def Act.ofBlockOn : Act κ τ → Bool
  | .enterBlockOn | .takeQueued | .pollReady | .pollPending | .pollOnceReturns => true
  | _ => false

theorem Act.of_dispatches {a : Act κ τ} (h : a.dispatches = true) :
    a.ofBlockOn = false ∧ a.beginsBlockOn = false ∧ ∀ c, a ≠ .wakeBlockOn c := by
  cases a with
  | dispatchCallbacks | dispatchTimers | dispatchSource | dispatchTimeout =>
      exact ⟨rfl, rfl, fun _ => nofun⟩
  | tick | send | wakeBlockOn | schedule | unschedule | next | finish | enterBlockOn
  | takeQueued | pollReady | pollPending | pollOnceReturns | enterNative | exitNative => cases h

theorem Act.of_not_ofBlockOn {a : Act κ τ} (h : a.ofBlockOn = false) :
    a.beginsBlockOn = false ∧ a.entersPollOnce = false := by
  cases a with
  | enterBlockOn | takeQueued | pollReady | pollPending | pollOnceReturns => cases h
  | tick | send | wakeBlockOn | schedule | unschedule | dispatchCallbacks | dispatchTimers
  | dispatchSource | dispatchTimeout | next | finish | enterNative | exitNative =>
      exact ⟨rfl, rfl⟩

section Steps

variable [DecidableEq κ] {b : Backend} {l l' : Loop κ τ} {a : Act κ τ}

/-- The other steps push and pop frames of other kinds. -/
theorem Loop.Step.phases_of_not (h : Loop.Step b l a l') (ha : a.ofBlockOn = false) :
    l'.phases = l.phases ∧ l'.blockOnActive = l.blockOnActive := by
  cases h with
  | tick | send | wakeCoalesced | wake | schedule | unschedule => exact ⟨rfl, rfl⟩
  | enterBlockOn | takeQueued | pollReady | pollPending | pollOnceReturns => cases ha
  | drain | processCallbacks | dispatchTimers | source | timeout | enterNative =>
      exact ⟨rfl, rfl⟩
  | nextCallback _ _ _ _ _ hst | nextTimer _ _ _ _ hst | nextHandle _ _ _ _ _ hst
  | batchDone _ _ hst | timersDone _ _ hst | timersRead _ _ hst | handleGone _ _ _ _ hst
  | finishCallback _ _ hst | finishTimer _ _ hst | exitNative _ hst =>
      refine ⟨?_, rfl⟩
      rw [Loop.phases, Loop.phases, hst]
      rfl

theorem Loop.Step.phase_of_not (h : Loop.Step b l a l') (ha : a.ofBlockOn = false) :
    l'.phase = l.phase := by
  rw [Loop.phase, (h.phases_of_not ha).1, Loop.phase]

theorem Loop.Step.queued_of_not (h : Loop.Step b l a l') (ha : a.ofBlockOn = false)
    (hw : ∀ c, a ≠ .wakeBlockOn c) : l'.queued = l.queued := by
  cases h with
  | wake c => exact absurd rfl (hw c)
  | enterBlockOn | takeQueued | pollReady | pollPending | pollOnceReturns => cases ha
  | tick | send | wakeCoalesced | schedule | unschedule | drain | processCallbacks
  | dispatchTimers | source | timeout | nextCallback | nextTimer | nextHandle | batchDone
  | timersDone | timersRead | handleGone | finishCallback | finishTimer | enterNative
  | exitNative => rfl

/-- A callback leaves the queue in a dispatch that takes it. -/
theorem Loop.Step.mem_callbacks (h : Loop.Step b l a l') {c : κ}
    (hd : ∀ order, a ≠ .dispatchCallbacks order) (hs : a ≠ .dispatchSource c)
    (hc : c ∈ l.state.callbacks) : c ∈ l'.state.callbacks := by
  cases h with
  | drain order | processCallbacks order => exact absurd rfl (hd order)
  | source k =>
      have hne : c ≠ k := by
        rintro rfl
        exact hs rfl
      exact (List.mem_erase_of_ne hne).2 hc
  | send | wake => exact List.mem_append_left _ hc
  | tick | wakeCoalesced | schedule | unschedule | dispatchTimers | timeout | nextCallback
  | nextTimer | nextHandle | batchDone | timersDone | timersRead | handleGone
  | finishCallback | finishTimer | enterBlockOn | takeQueued | pollReady | pollPending
  | pollOnceReturns | enterNative | exitNative => exact hc

/-- Inside `poll_once` only a dispatch puts something on top of `block_on`. -/
theorem Loop.Step.waiting_of_not (h : Loop.Step b l a l') (ha : a.ofBlockOn = false)
    (hd : a.dispatches = false) (hw : l.waiting = true) : l'.waiting = true := by
  have htop : ∃ rest, l.stack = .blockOn .waiting :: rest := by
    unfold Loop.waiting at hw
    split at hw
    · exact ⟨_, ‹_›⟩
    · cases hw
  obtain ⟨rest', htop⟩ := htop
  cases h with
  | tick | send | wakeCoalesced | wake | schedule | unschedule => exact hw
  | enterBlockOn | takeQueued | pollReady | pollPending | pollOnceReturns => cases ha
  | drain | processCallbacks | dispatchTimers | source | timeout => cases hd
  | enterNative hu =>
      rw [htop] at hu
      cases hu
  | nextCallback _ _ _ _ _ hst | nextTimer _ _ _ _ hst | nextHandle _ _ _ _ _ hst
  | batchDone _ _ hst | timersDone _ _ hst | timersRead _ _ hst | handleGone _ _ _ _ hst
  | finishCallback _ _ hst | finishTimer _ _ hst | exitNative _ hst =>
      rw [htop] at hst
      cases hst

omit [DecidableEq κ] in
theorem Loop.phase_of_waiting (h : l.waiting = true) : l.phase = some .waiting := by
  unfold Loop.waiting at h
  split at h
  · rename_i hst
    simp [Loop.phase, Loop.phases, hst, Frame.phase]
  · cases h

end Steps

namespace Waked

/-! ## The invariant -/

/-- There is one call of `block_on` at a time, `idle` says so of its `poll_once` alone,
and a wake that the flag stands for is in the queue or on its way. -/
structure Kept (s : Waked κ τ) : Prop where
  single : s.loop.phases.length ≤ if s.loop.blockOnActive then 1 else 0
  busy : s.loop.phase = some .waiting → s.loop.waiting = false → s.idle = false
  flag : s.exposed = true → s.loop.queued = true → s.Pending ∨ s.sending ≠ []

theorem exposed_iff {s : Waked κ τ} : s.exposed = true ↔
    s.loop.phase = some .polling ∨ (s.loop.waiting = true ∧ s.idle = true) := by
  simp [exposed, blocked]

theorem Pending.of_subset {s s' : Waked κ τ} (h : s.Pending)
    (he : ∀ c ∈ s.entries, c ∈ s'.entries)
    (hq : ∀ c ∈ s.loop.state.callbacks, c ∈ s'.loop.state.callbacks) : s'.Pending := by
  obtain ⟨c, hc, hm⟩ := h
  exact ⟨c, he c hc, hq c hm⟩

theorem Kept.noWakeLost {s : Waked κ τ} (hi : s.Kept) : s.NoWakeLost := by
  intro hb hq hs
  simp only [blocked, Bool.and_eq_true] at hb
  exact (hi.flag (exposed_iff.2 (.inr hb)) hq).resolve_right fun h => h hs

section Steps

variable [DecidableEq κ] {b : Backend} {s : Waked κ τ} {l : Loop κ τ} {a : Act κ τ}

/-- A step that is none of `block_on` and dispatches nothing. -/
theorem Kept.quiet (hi : s.Kept) (h : Loop.Step b s.loop a l) (ha : a.ofBlockOn = false)
    (hd : a.dispatches = false) (hw : ∀ c, a ≠ .wakeBlockOn c) : Kept { s with loop := l } := by
  obtain ⟨hp, hact⟩ := h.phases_of_not ha
  have hph : l.phase = s.loop.phase := h.phase_of_not ha
  have hbusy : l.phase = some .waiting → l.waiting = false → s.idle = false := by
    intro hpw hlw
    refine hi.busy (hph ▸ hpw) (Bool.eq_false_iff.2 fun hsw => ?_)
    rw [h.waiting_of_not ha hd hsw] at hlw
    cases hlw
  refine ⟨?_, hbusy, ?_⟩
  · rw [hp, hact]
    exact hi.single
  · intro hex hq
    have hex : s.exposed = true := by
      rcases exposed_iff.1 hex with hpp | ⟨hlw, hidle⟩
      · exact exposed_iff.2 (.inl (hph ▸ hpp))
      · refine exposed_iff.2 (.inr ⟨?_, hidle⟩)
        by_contra hsw
        have hidle' := hi.busy (hph ▸ Loop.phase_of_waiting hlw) (Bool.eq_false_iff.2 hsw)
        exact absurd (hidle.symm.trans hidle') nofun
    refine (hi.flag hex ((h.queued_of_not ha hw) ▸ hq)).imp_left fun hpend => ?_
    refine hpend.of_subset (fun _ hc => hc) fun c hc => h.mem_callbacks ?_ ?_ hc
    · rintro order rfl
      cases hd
    · rintro rfl
      cases hd

/-- A dispatch that leaves the callbacks of the wakes to `block_on`. -/
theorem Kept.dispatch (hi : s.Kept) (h : Loop.Step b s.loop a l) (hd : a.dispatches = true)
    (hok : s.loop.phase = some .polling → s.loop.queued = true → s.sending = [] →
      s.LeavesEntry a) :
    Kept { s with loop := l, idle := false } := by
  obtain ⟨ha, -, hw⟩ := Act.of_dispatches hd
  obtain ⟨hp, hact⟩ := h.phases_of_not ha
  have hph : l.phase = s.loop.phase := h.phase_of_not ha
  refine ⟨?_, fun _ _ => rfl, ?_⟩
  · rw [hp, hact]
    exact hi.single
  · intro hex hq
    have hpp : s.loop.phase = some .polling := by
      rcases exposed_iff.1 hex with hpp | ⟨-, hidle⟩
      · exact hph ▸ hpp
      · cases hidle
    have hq : s.loop.queued = true := (h.queued_of_not ha hw) ▸ hq
    by_cases hs : s.sending = []
    · have hok := hok hpp hq hs
      obtain ⟨c, hc, hm⟩ := (hi.flag (exposed_iff.2 (.inl hpp)) hq).resolve_right (absurd hs)
      by_cases hsrc : a = .dispatchSource c
      · subst hsrc
        obtain ⟨k, hk, hmk⟩ := hok hc
        cases h with
        | source => exact .inl ⟨k, hk, hmk⟩
      · refine .inl ⟨c, hc, h.mem_callbacks ?_ hsrc hm⟩
        rintro order rfl
        exact hok c hc hm
    · exact .inr hs

/-- A step of `block_on` itself. -/
theorem Kept.blockOn (hi : s.Kept) (h : Loop.Step b s.loop a l) (ha : a.ofBlockOn = true) :
    Kept { s with
      loop := l,
      sending := if a.beginsBlockOn then [] else s.sending,
      entries := if a.beginsBlockOn then [] else s.entries,
      idle := if a.dispatches then false else if a.entersPollOnce then true else s.idle } := by
  have hsingle := hi.single
  cases h with
  | tick | send | wakeCoalesced | wake | schedule | unschedule | drain | processCallbacks
  | dispatchTimers | source | timeout | nextCallback | nextTimer | nextHandle | batchDone
  | timersDone | timersRead | handleGone | finishCallback | finishTimer | enterNative
  | exitNative => cases ha
  | enterBlockOn hu hact =>
      rw [hact] at hsingle
      have hnil : s.loop.phases = [] := List.length_eq_zero_iff.1 (Nat.le_zero.1 hsingle)
      have hph : Loop.phases { s.loop with
          stack := .blockOn .head :: s.loop.stack, blockOnActive := true, queued := true } =
          [.head] := congrArg (List.cons BlockOnPhase.head) hnil
      refine ⟨?_, ?_, ?_⟩
      · exact Nat.le_of_eq (congrArg List.length hph)
      · intro hp
        cases (congrArg List.head? hph).symm.trans hp
      · intro hex
        rcases exposed_iff.1 hex with hp | ⟨hw, -⟩
        · cases (congrArg List.head? hph).symm.trans hp
        · cases hw
  | takeQueued rest hst =>
      rw [Loop.phases, hst] at hsingle
      refine ⟨?_, ?_, ?_⟩
      · exact hsingle
      · -- with the flag not set it is in `poll_once` now
        cases hq : s.loop.queued with
        | true => nofun
        | false => nofun
      · intro _ hq
        cases hq
  | pollReady rest hst =>
      rw [Loop.phases, hst] at hsingle
      have hnil : rest.filterMap Frame.phase = [] := by
        have hle : (rest.filterMap Frame.phase).length + 1 ≤ 1 :=
          Nat.le_trans hsingle (by split <;> decide)
        exact List.length_eq_zero_iff.1 (by omega)
      refine ⟨?_, ?_, ?_⟩
      · exact Nat.le_of_eq (congrArg List.length hnil)
      · intro hp
        cases (congrArg List.head? hnil).symm.trans hp
      · intro hex
        rcases exposed_iff.1 hex with hp | ⟨hw, -⟩
        · cases (congrArg List.head? hnil).symm.trans hp
        · cases (congrArg List.head? hnil).symm.trans (Loop.phase_of_waiting hw)
  | pollPending rest hst =>
      have hpoll : s.loop.phase = some .polling := by
        rw [Loop.phase, Loop.phases, hst]
        rfl
      rw [Loop.phases, hst] at hsingle
      refine ⟨hsingle, ?_, ?_⟩
      · intro _ hw
        cases hw
      · intro _ hq
        exact hi.flag (exposed_iff.2 (.inl hpoll)) hq
  | pollOnceReturns rest hst =>
      rw [Loop.phases, hst] at hsingle
      refine ⟨hsingle, ?_, ?_⟩
      · intro hp
        cases hp
      · intro hex
        rcases exposed_iff.1 hex with hp | ⟨hw, -⟩
        · cases hp
        · cases hw

theorem Kept.stepLoop {s' : Waked κ τ} (hi : s.Kept) (h : s.stepLoop b a = some s')
    (hok : s.KeepsWakes (.loop a)) : s'.Kept := by
  have hw : ∀ c, a ≠ .wakeBlockOn c := by
    rintro c rfl
    cases h
  have h : (s.loop.step b a).map (fun l => { s with
      loop := l,
      sending := if a.beginsBlockOn then [] else s.sending,
      entries := if a.beginsBlockOn then [] else s.entries,
      idle := if a.dispatches then false else if a.entersPollOnce then true else s.idle }) =
      some s' := by
    cases a <;> first | exact h | exact absurd rfl (hw _)
  obtain ⟨l, hl, rfl⟩ := Option.map_eq_some_iff.1 h
  have hst := Loop.step_cases hl
  by_cases ha : a.ofBlockOn = true
  · exact hi.blockOn hst ha
  · rw [Bool.not_eq_true] at ha
    obtain ⟨hb, he⟩ := Act.of_not_ofBlockOn ha
    simp only [hb, he]
    by_cases hd : a.dispatches = true
    · simp only [hd, if_true]
      exact hi.dispatch hst hd hok
    · rw [Bool.not_eq_true] at hd
      simp only [hd]
      exact hi.quiet hst ha hd hw

omit [DecidableEq κ] in
/-- Steps that leave the stack alone, and the flag set only with a wake on its way. -/
theorem Kept.flagged {s' : Waked κ τ} (hi : s.Kept) (hst : s'.loop.stack = s.loop.stack)
    (hact : s'.loop.blockOnActive = s.loop.blockOnActive) (hid : s'.idle = s.idle)
    (hf : s.exposed = true → s'.loop.queued = true → s'.Pending ∨ s'.sending ≠ []) :
    s'.Kept := by
  have hph : s'.loop.phases = s.loop.phases := by rw [Loop.phases, hst, Loop.phases]
  have hw : s'.loop.waiting = s.loop.waiting := by rw [Loop.waiting, hst, Loop.waiting]
  refine ⟨?_, ?_, ?_⟩
  · rw [hph, hact]
    exact hi.single
  · rw [Loop.phase, hph, hw, hid]
    exact hi.busy
  · intro hex hq
    refine hf ?_ hq
    rw [exposed_iff, Loop.phase, hph, hw, hid] at hex
    exact exposed_iff.2 hex

theorem Kept.step {s' : Waked κ τ} {a : WakedAct κ τ} (hi : s.Kept) (hok : s.KeepsWakes a)
    (h : s.step b a = some s') : s'.Kept := by
  cases a with
  | loop a => exact hi.stepLoop h hok
  | shutdown =>
      simp only [Waked.step, Option.ite_none_right_eq_some, Option.some.injEq] at h
      obtain ⟨-, rfl⟩ := h
      exact hi.flagged rfl rfl rfl hi.flag
  | wakeHere c =>
      simp only [Waked.step, wakeHere, Option.ite_none_right_eq_some] at h
      obtain ⟨-, h⟩ := h
      split at h
      · cases h
        exact hi
      · rename_i hq
        rw [Bool.not_eq_true] at hq
        split at h
        · rename_i ht
          cases h
          exact hi.flagged rfl rfl rfl fun hex _ => hok ht hq hex
        · simp only [Loop.send, Option.map_eq_some_iff, Option.ite_none_left_eq_some,
            Option.some.injEq] at h
          obtain ⟨l, ⟨-, rfl⟩, rfl⟩ := h
          exact hi.flagged rfl rfl rfl fun _ _ => .inl ⟨c, by simp, by simp [Loop.push]⟩
  | swap c =>
      simp only [Waked.step, swap, Option.ite_none_right_eq_some] at h
      obtain ⟨-, h⟩ := h
      split at h
      · cases h
        exact hi
      · cases h
        exact hi.flagged rfl rfl rfl fun _ _ => .inr (by simp)
  | checkToken c =>
      simp only [Waked.step, checkToken, Option.ite_none_right_eq_some, Option.some.injEq] at h
      obtain ⟨-, rfl⟩ := h
      refine hi.flagged rfl rfl rfl fun hex hq => ?_
      cases ht : s.shutdownToken with
      | true => exact hok ht hq hex
      | false => exact .inr (by simp)
  | push c =>
      simp only [Waked.step, push, Loop.send, Option.ite_none_right_eq_some,
        Option.map_eq_some_iff, Option.ite_none_left_eq_some, Option.some.injEq] at h
      obtain ⟨-, l, ⟨-, rfl⟩, rfl⟩ := h
      exact hi.flagged rfl rfl rfl fun _ _ => .inl ⟨c, by simp, by simp [Loop.push]⟩

theorem kept_of_reachVia (h : (wakedSystem κ τ b).ReachVia KeepsWakes s) : s.Kept :=
  h.invariant ⟨Nat.le_refl 0, nofun, by simp [wakedSystem, exposed, blocked, Loop.phase,
    Loop.phases, Loop.waiting]⟩ fun _ _ _ _ hi hok hst => hi.step hok hst

/-! ## Steps that strand a wake -/

/-- Where the future is being polled, the wake is lost when it returns `Pending`. -/
theorem Stranded.pollPending (h : s.Stranded) {rest : List (Frame κ τ)}
    (hst : s.loop.stack = .blockOn .polling :: rest) :
    ∃ s', s.step b (.loop .pollPending) = some s' ∧ ¬ s'.NoWakeLost := by
  refine ⟨_, by simp only [Waked.step, Waked.stepLoop, Loop.step, Loop.pollPending, hst]; rfl, ?_⟩
  intro hn
  exact h.pending (hn rfl h.queued h.sending)

/-- A dispatch that takes the last callback of a wake while the future is polled. -/
theorem stranded_of_dispatch {s' : Waked κ τ} (hp : s.loop.phase = some .polling)
    (hq : s.loop.queued = true) (hs : s.sending = []) (hok : ¬ s.LeavesEntry a)
    (h : s.stepLoop b a = some s') : s'.Stranded := by
  cases a with
  | dispatchCallbacks order =>
      obtain ⟨l, hl, rfl⟩ := Option.map_eq_some_iff.1 h
      have hst := Loop.step_cases hl
      have hph : l.phase = s.loop.phase := hst.phase_of_not rfl
      have hnone : l.state.callbacks = [] := by
        cases hst with
        | drain | processCallbacks => rfl
      refine ⟨exposed_iff.2 (.inl (hph.trans hp)), ?_, ?_, hs⟩
      · exact (hst.queued_of_not rfl fun _ => nofun).trans hq
      · rintro ⟨c, -, hm⟩
        simp [hnone] at hm
  | dispatchSource c =>
      obtain ⟨l, hl, rfl⟩ := Option.map_eq_some_iff.1 h
      have hst := Loop.step_cases hl
      have hph : l.phase = s.loop.phase := hst.phase_of_not rfl
      simp only [LeavesEntry, Classical.not_imp] at hok
      refine ⟨exposed_iff.2 (.inl (hph.trans hp)), ?_, ?_, hs⟩
      · exact (hst.queued_of_not rfl fun _ => nofun).trans hq
      · cases hst with
        | source => exact hok.2
  | tick | send | wakeBlockOn | schedule | unschedule | dispatchTimers | dispatchTimeout | next
  | finish | enterBlockOn | takeQueued | pollReady | pollPending | pollOnceReturns
  | enterNative | exitNative => exact absurd trivial hok

theorem stranded_of_step {s' : Waked κ τ} {a : WakedAct κ τ} (hok : ¬ s.KeepsWakes a)
    (h : s.step b a = some s') : s'.Stranded := by
  cases a with
  | loop a =>
      simp only [KeepsWakes, Classical.not_imp] at hok
      obtain ⟨hp, hq, hs, hok⟩ := hok
      exact stranded_of_dispatch hp hq hs hok h
  | shutdown | swap | push => exact absurd trivial hok
  | wakeHere c =>
      simp only [KeepsWakes, Classical.not_imp, not_or, not_not] at hok
      obtain ⟨ht, hq, hex, hpend, hs⟩ := hok
      simp only [Waked.step, wakeHere, hq, ht, Option.ite_none_right_eq_some] at h
      obtain ⟨-, h⟩ := h
      cases h
      exact ⟨hex, rfl, hpend, hs⟩
  | checkToken c =>
      simp only [KeepsWakes, Classical.not_imp, not_or, not_not] at hok
      obtain ⟨ht, hq, hex, hpend, hs⟩ := hok
      simp only [Waked.step, checkToken, ht, if_true, Option.ite_none_right_eq_some,
        Option.some.injEq] at h
      obtain ⟨-, rfl⟩ := h
      exact ⟨hex, hq, hpend, hs⟩

/-! ## The result -/

/-- `poll_once` has a wake-up to dispatch as long as there is a callback in the queue. -/
theorem exists_dispatch (hw : s.loop.waiting = true) {c : κ} (hc : c ∈ s.loop.state.callbacks) :
    ∃ a, a.dispatches = true ∧ (s.loop.step b a).isSome = true := by
  have hpump : canPump s.loop.stack = true := by
    unfold Loop.waiting at hw
    split at hw
    · rename_i hst
      rw [hst]
      rfl
    · cases hw
  cases b with
  | darwin =>
      refine ⟨.dispatchCallbacks (s.loop.state.dueTimers s.loop.now), rfl, ?_⟩
      have hperm := List.isPerm_iff.2 (.refl (s.loop.state.dueTimers s.loop.now))
      simp [Loop.step, Loop.dispatchCallbacks, hpump, hperm]
  | win32 | android =>
      refine ⟨.dispatchCallbacks [], rfl, ?_⟩
      simp [Loop.step, Loop.dispatchCallbacks, hpump]
  | linux =>
      refine ⟨.dispatchSource c, rfl, ?_⟩
      simp [Loop.step, Loop.dispatchSource, hpump, hc]

/-- **`block_on` loses no wake-up** in every run that keeps the callbacks of the wakes
`poll_once` depends on: it is entered with the flag set only where such a callback is in
the queue, so that there is something to dispatch. Every other step strands a wake. -/
theorem block_on_loses_no_wake (h : (wakedSystem κ τ b).ReachVia KeepsWakes s) :
    s.NoWakeLost ∧
    (s.blocked = true → s.loop.queued = true → s.sending = [] →
      ∃ a, a.dispatches = true ∧ (s.loop.step b a).isSome = true) ∧
    ∀ a s', s.step b a = some s' → ¬ s.KeepsWakes a → s'.Stranded := by
  have hi := (kept_of_reachVia h).noWakeLost
  refine ⟨hi, ?_, fun a s' hst hok => stranded_of_step hok hst⟩
  intro hb hq hs
  obtain ⟨c, -, hm⟩ := hi hb hq hs
  simp only [blocked, Bool.and_eq_true] at hb
  exact exists_dispatch hb.1 hm

end Steps

/-- The future wakes itself in its first poll, and another thread wakes it again. -/
def selfWakeRun : List (WakedAct Nat Nat) :=
  [.loop .enterBlockOn, .loop .takeQueued, .wakeHere 0, .swap 1, .loop .pollPending]

theorem block_on_loses_no_wake_self :
    ∃ s : Waked Nat Nat, s.blocked = true ∧ s.loop.queued = true ∧ s.NoWakeLost := by
  have hrun : ((wakedSystem Nat Nat .linux).runVia KeepsWakes {} selfWakeRun).map
      (fun s => s.blocked && s.loop.queued) = some true := by decide
  obtain ⟨s, hs, hp⟩ := System.exists_reachVia _ _ hrun
  simp only [Bool.and_eq_true] at hp
  exact ⟨s, hp.1, hp.2, (block_on_loses_no_wake hs).1⟩

/-- The last guard is dropped in a poll of the future, which then wakes itself. -/
def refusedRun : List (WakedAct Nat Nat) :=
  [.loop .enterBlockOn, .loop .takeQueued, .shutdown, .wakeHere 0, .loop .pollPending]

/-- A poll of the future wakes itself and pumps a native loop before it returns. -/
def pumpedRun : List (WakedAct Nat Nat) :=
  [.loop .enterBlockOn, .loop .takeQueued, .wakeHere 0, .loop .enterNative,
    .loop (.dispatchSource 0), .loop .finish, .loop .exitNative, .loop .pollPending]

/-- `block_on` goes to wait with the flag set and nothing in the queue. -/
theorem wake_lost :
    (∃ s, (wakedSystem Nat Nat .linux).run {} refusedRun = some s ∧ ¬ s.NoWakeLost) ∧
    (∃ s, (wakedSystem Nat Nat .linux).run {} pumpedRun = some s ∧ ¬ s.NoWakeLost) := by
  refine ⟨⟨_, rfl, ?_⟩, ⟨_, rfl, ?_⟩⟩
  · intro h
    obtain ⟨c, hc, -⟩ := h rfl rfl rfl
    cases hc
  · intro h
    obtain ⟨c, -, hm⟩ := h rfl rfl rfl
    cases hm

end Waked

end Wxp.RunLoop
