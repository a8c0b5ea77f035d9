import Wxp.RunLoop.Platform
import Mathlib.Data.List.Perm.Basic

/-!
# RunLoop — Dispatch

What one step of a run loop can do, said once (`Loop.step_cases`), and what
follows from it: what a step does to the sent callbacks (`Effect`), to the timers
(`TimerEffect`) and to the stack (`StackStep`). For every run this gives the
bookkeeping: each accepted callback is in exactly one of the queue, a dispatch
batch, the stack of running callbacks, or the history of finished ones (`Loop.Wf`).
-/

namespace Wxp.RunLoop

variable {κ τ : Type}

/-! ## Frames -/

@[simp] theorem Frame.parked_callback (c : κ) : (Frame.callback c : Frame κ τ).parked = [] := rfl
@[simp] theorem Frame.parked_timer (t : τ) : (Frame.timer t : Frame κ τ).parked = [] := rfl
@[simp] theorem Frame.parked_timers (hs : List HandleType) :
    (Frame.timers hs : Frame κ τ).parked = [] := rfl
@[simp] theorem Frame.parked_blockOn (p : BlockOnPhase) :
    (Frame.blockOn p : Frame κ τ).parked = [] := rfl
@[simp] theorem Frame.parked_native : (Frame.native : Frame κ τ).parked = [] := rfl
@[simp] theorem Frame.parked_batch (cs : List κ) (ts : List (Timer τ)) :
    (Frame.batch cs ts).parked = cs := rfl

@[simp] theorem Frame.runs_callback (c : κ) : (Frame.callback c : Frame κ τ).runs = [c] := rfl
@[simp] theorem Frame.runs_timer (t : τ) : (Frame.timer t : Frame κ τ).runs = [] := rfl
@[simp] theorem Frame.runs_timers (hs : List HandleType) :
    (Frame.timers hs : Frame κ τ).runs = [] := rfl
@[simp] theorem Frame.runs_blockOn (p : BlockOnPhase) :
    (Frame.blockOn p : Frame κ τ).runs = [] := rfl
@[simp] theorem Frame.runs_native : (Frame.native : Frame κ τ).runs = [] := rfl
@[simp] theorem Frame.runs_batch (cs : List κ) (ts : List (Timer τ)) :
    (Frame.batch cs ts).runs = [] := rfl

@[simp] theorem Frame.parkedTimers_callback (c : κ) :
    (Frame.callback c : Frame κ τ).parkedTimers = [] := rfl
@[simp] theorem Frame.parkedTimers_timer (t : τ) :
    (Frame.timer t : Frame κ τ).parkedTimers = [] := rfl
@[simp] theorem Frame.parkedTimers_timers (hs : List HandleType) :
    (Frame.timers hs : Frame κ τ).parkedTimers = [] := rfl
@[simp] theorem Frame.parkedTimers_blockOn (p : BlockOnPhase) :
    (Frame.blockOn p : Frame κ τ).parkedTimers = [] := rfl
@[simp] theorem Frame.parkedTimers_native :
    (Frame.native : Frame κ τ).parkedTimers = [] := rfl
@[simp] theorem Frame.parkedTimers_batch (cs : List κ) (ts : List (Timer τ)) :
    (Frame.batch cs ts).parkedTimers = ts.map (·.callback) := rfl

/-! ## What one step can do -/

section Steps

variable [DecidableEq κ]

/-- The transitions of a run loop, one constructor for each branch of
`Loop.step`, with its guard. -/
inductive Loop.Step (b : Backend) (l : Loop κ τ) : Act κ τ → Loop κ τ → Prop
  | tick (d : Nat) : Step b l (.tick d) { l with now := l.now + d }
  | send (c : κ) : c ∉ l.accepted → Step b l (.send c) (l.push c)
  | wakeCoalesced (c : κ) : l.queued = true → Step b l (.wakeBlockOn c) l
  | wake (c : κ) : c ∉ l.accepted →
      Step b l (.wakeBlockOn c) (Loop.push { l with queued := true } c)
  | schedule (inTime : Nat) (t : τ) : userCode l.stack = true →
      Step b l (.schedule inTime t) { l with state := l.state.schedule b l.now inTime t }
  | unschedule (h : HandleType) : userCode l.stack = true →
      Step b l (.unschedule h) { l with state := l.state.removeTimer h }
  | drain (order : List HandleType) : b = .darwin → canPump l.stack = true →
      order.isPerm (l.state.dueTimers l.now) = true →
      Step b l (.dispatchCallbacks order) { l with
        state := (l.state.getPendingExecution order).2,
        stack := .batch l.state.callbacks (l.state.getPendingExecution order).1.2 :: l.stack }
  | processCallbacks (order : List HandleType) : b ≠ .linux → canPump l.stack = true →
      Step b l (.dispatchCallbacks order) { l with
        state := { l.state with callbacks := [] },
        stack := .batch l.state.callbacks [] :: l.stack }
  | dispatchTimers : canPump l.stack = true →
      Step b l .dispatchTimers { l with stack := .timers [] :: l.stack }
  | source (c : κ) : canPump l.stack = true → c ∈ l.state.callbacks →
      Step b l (.dispatchSource c) (Loop.start { l with
        state := { l.state with callbacks := l.state.callbacks.erase c } } c l.stack)
  | timeout (h : HandleType) (t : Timer τ) : canPump l.stack = true →
      l.state.timers.lookup h = some t →
      Step b l (.dispatchTimeout h) (Loop.fire { l with state := l.state.removeTimer h } t l.stack)
  | nextCallback (order : List HandleType) (c : κ) (cs : List κ) (ts : List (Timer τ))
      (rest : List (Frame κ τ)) : l.stack = .batch (c :: cs) ts :: rest →
      Step b l (.next order) (l.start c (.batch cs ts :: rest))
  | nextTimer (order : List HandleType) (t : Timer τ) (ts : List (Timer τ))
      (rest : List (Frame κ τ)) : l.stack = .batch [] (t :: ts) :: rest →
      Step b l (.next order) (l.fire t (.batch [] ts :: rest))
  | nextHandle (order : List HandleType) (h : HandleType) (hs : List HandleType) (t : Timer τ)
      (rest : List (Frame κ τ)) : l.stack = .timers (h :: hs) :: rest →
      l.state.timers.lookup h = some t →
      Step b l (.next order)
        (Loop.fire { l with state := l.state.removeTimer h } t (.timers hs :: rest))
  | batchDone (order : List HandleType) (rest : List (Frame κ τ)) :
      l.stack = .batch [] [] :: rest → Step b l (.next order) { l with stack := rest }
  | timersDone (order : List HandleType) (rest : List (Frame κ τ)) :
      l.stack = .timers [] :: rest → Step b l (.next order) { l with stack := rest }
  | timersRead (order : List HandleType) (rest : List (Frame κ τ)) :
      l.stack = .timers [] :: rest → Step b l (.next order) { l with stack := .timers order :: rest }
  | handleGone (order : List HandleType) (h : HandleType) (hs : List HandleType)
      (rest : List (Frame κ τ)) : l.stack = .timers (h :: hs) :: rest →
      Step b l (.next order) { l with stack := .timers hs :: rest }
  | finishCallback (c : κ) (rest : List (Frame κ τ)) : l.stack = .callback c :: rest →
      Step b l .finish { l with stack := rest, finished := l.finished ++ [c] }
  | finishTimer (t : τ) (rest : List (Frame κ τ)) : l.stack = .timer t :: rest →
      Step b l .finish { l with stack := rest }
  | enterBlockOn : userCode l.stack = true → l.blockOnActive = false →
      Step b l .enterBlockOn
        { l with stack := .blockOn .head :: l.stack, blockOnActive := true, queued := true }
  | takeQueued (rest : List (Frame κ τ)) : l.stack = .blockOn .head :: rest →
      Step b l .takeQueued { l with
        stack := .blockOn (if l.queued then .polling else .waiting) :: rest, queued := false }
  | pollReady (rest : List (Frame κ τ)) : l.stack = .blockOn .polling :: rest →
      Step b l .pollReady { l with stack := rest, blockOnActive := false }
  | pollPending (rest : List (Frame κ τ)) : l.stack = .blockOn .polling :: rest →
      Step b l .pollPending { l with stack := .blockOn .waiting :: rest }
  | pollOnceReturns (rest : List (Frame κ τ)) : l.stack = .blockOn .waiting :: rest →
      Step b l .pollOnceReturns { l with stack := .blockOn .head :: rest }
  | enterNative : userCode l.stack = true →
      Step b l .enterNative { l with stack := .native :: l.stack }
  | exitNative (rest : List (Frame κ τ)) : l.stack = .native :: rest →
      Step b l .exitNative { l with stack := rest }

theorem Loop.Step.of_send {b : Backend} {l l' : Loop κ τ} {c : κ} (h : l.send c = some l') :
    Step b l (.send c) l' := by
  simp only [Loop.send, Option.ite_none_left_eq_some, Option.some.injEq] at h
  obtain ⟨hc, rfl⟩ := h
  exact .send c hc

theorem Loop.Step.of_wakeBlockOn {b : Backend} {l l' : Loop κ τ} {c : κ}
    (h : l.wakeBlockOn c = some l') : Step b l (.wakeBlockOn c) l' := by
  unfold Loop.wakeBlockOn at h
  split at h
  · rename_i hq
    cases h
    exact .wakeCoalesced c hq
  · simp only [Loop.send, Option.ite_none_left_eq_some, Option.some.injEq] at h
    obtain ⟨hc, rfl⟩ := h
    exact .wake c hc

theorem Loop.Step.of_dispatchCallbacks {b : Backend} {l l' : Loop κ τ} {order : List HandleType}
    (h : l.dispatchCallbacks b order = some l') : Step b l (.dispatchCallbacks order) l' := by
  unfold Loop.dispatchCallbacks at h
  split at h
  · cases h
  · rename_i hp
    have hp : canPump l.stack = true := by simpa using hp
    split at h
    · split at h
      · rename_i ho
        cases h
        exact .drain order rfl hp ho
      · cases h
    · cases h
      exact .processCallbacks order (by decide) hp
    · cases h
      exact .processCallbacks order (by decide) hp
    · cases h

theorem Loop.Step.of_dispatchTimeout {b : Backend} {l l' : Loop κ τ} {hd : HandleType}
    (h : l.dispatchTimeout b hd = some l') : Step b l (.dispatchTimeout hd) l' := by
  unfold Loop.dispatchTimeout at h
  split at h
  · rename_i hp
    rw [Bool.and_eq_true] at hp
    split at h
    · rename_i t ht
      split at h
      · cases h
        exact .timeout hd t hp.1 ht
      · cases h
    · cases h
  · cases h

theorem Loop.Step.of_next {b : Backend} {l l' : Loop κ τ} {order : List HandleType}
    (h : l.next order = some l') : Step b l (.next order) l' := by
  unfold Loop.next at h
  split at h
  case h_1 c cs ts rest hst =>
    cases h
    exact .nextCallback order c cs ts rest hst
  case h_2 t ts rest hst =>
    cases h
    exact .nextTimer order t ts rest hst
  case h_3 rest hst =>
    cases h
    exact .batchDone order rest hst
  case h_4 rest hst =>
    split at h
    · cases h
      split
      · exact .timersDone order rest hst
      · exact .timersRead order rest hst
    · cases h
  case h_5 hd hs rest hst =>
    split at h
    · rename_i t ht
      cases h
      exact .nextHandle order hd hs t rest hst ht
    · cases h
      exact .handleGone order hd hs rest hst
  case h_6 => cases h

/-- **Every step is one of the transitions.** -/
theorem Loop.step_cases {b : Backend} {l l' : Loop κ τ} {a : Act κ τ}
    (h : l.step b a = some l') : Loop.Step b l a l' := by
  cases a with
  | tick d =>
      cases h
      exact .tick d
  | send c => exact .of_send h
  | wakeBlockOn c => exact .of_wakeBlockOn h
  | schedule inTime t =>
      simp only [Loop.step, Loop.schedule, Option.ite_none_right_eq_some, Option.some.injEq] at h
      obtain ⟨hu, rfl⟩ := h
      exact .schedule inTime t hu
  | unschedule hd =>
      simp only [Loop.step, Loop.unschedule, Option.ite_none_right_eq_some,
        Option.some.injEq] at h
      obtain ⟨hu, rfl⟩ := h
      exact .unschedule hd hu
  | dispatchCallbacks order => exact .of_dispatchCallbacks h
  | dispatchTimers =>
      simp only [Loop.step, Loop.dispatchTimers, Option.ite_none_right_eq_some,
        Option.some.injEq, Bool.and_eq_true] at h
      obtain ⟨hp, rfl⟩ := h
      exact .dispatchTimers hp.1
  | dispatchSource c =>
      simp only [Loop.step, Loop.dispatchSource, Option.ite_none_right_eq_some,
        Option.some.injEq, Bool.and_eq_true, List.contains_iff_mem] at h
      obtain ⟨hp, rfl⟩ := h
      exact .source c hp.1.1 hp.2
  | dispatchTimeout hd => exact .of_dispatchTimeout h
  | next order => exact .of_next h
  | finish =>
      simp only [Loop.step, Loop.finish] at h
      split at h <;> cases h
      · rename_i c rest hst
        exact .finishCallback c rest hst
      · rename_i t rest hst
        exact .finishTimer t rest hst
  | enterBlockOn =>
      simp only [Loop.step, Loop.enterBlockOn, Option.ite_none_right_eq_some,
        Option.some.injEq, Bool.and_eq_true, Bool.not_eq_true'] at h
      obtain ⟨hu, rfl⟩ := h
      exact .enterBlockOn hu.1 hu.2
  | takeQueued =>
      simp only [Loop.step, Loop.takeQueued] at h
      split at h <;> cases h
      exact .takeQueued _ ‹_›
  | pollReady =>
      simp only [Loop.step, Loop.pollReady] at h
      split at h <;> cases h
      exact .pollReady _ ‹_›
  | pollPending =>
      simp only [Loop.step, Loop.pollPending] at h
      split at h <;> cases h
      exact .pollPending _ ‹_›
  | pollOnceReturns =>
      simp only [Loop.step, Loop.pollOnceReturns] at h
      split at h <;> cases h
      exact .pollOnceReturns _ ‹_›
  | enterNative =>
      simp only [Loop.step, Loop.enterNative, Option.ite_none_right_eq_some,
        Option.some.injEq] at h
      obtain ⟨hu, rfl⟩ := h
      exact .enterNative hu
  | exitNative =>
      simp only [Loop.step, Loop.exitNative] at h
      split at h <;> cases h
      exact .exitNative _ ‹_›

end Steps

/-! ## The sent callbacks -/

/-- The four things a step can do to the sent callbacks. -/
inductive Effect (a : Act κ τ) (l l' : Loop κ τ) : Prop
  | quiet : l'.unstarted.Perm l.unstarted → l'.running = l.running →
      l'.accepted = l.accepted → l'.started = l.started → l'.finished = l.finished →
      Effect a l l'
  | accept (c : κ) : a = .send c ∨ a = .wakeBlockOn c → c ∉ l.accepted →
      l'.unstarted.Perm (c :: l.unstarted) → l'.running = l.running →
      l'.accepted = l.accepted ++ [c] → l'.started = l.started → l'.finished = l.finished →
      Effect a l l'
  | start (c : κ) : l.unstarted.Perm (c :: l'.unstarted) → l'.running = c :: l.running →
      l'.accepted = l.accepted → l'.started = l.started ++ [c] → l'.finished = l.finished →
      Effect a l l'
  | finish (c : κ) : l'.unstarted = l.unstarted → l.running = c :: l'.running →
      l'.accepted = l.accepted → l'.started = l.started → l'.finished = l.finished ++ [c] →
      Effect a l l'

/-- A step that leaves the queue, the batches and the running callbacks alone. -/
theorem Effect.same {a : Act κ τ} {l l' : Loop κ τ}
    (hq : l'.state.callbacks = l.state.callbacks) (hp : l'.parked = l.parked)
    (hr : l'.running = l.running) (ha : l'.accepted = l.accepted)
    (hs : l'.started = l.started) (hf : l'.finished = l.finished) : Effect a l l' :=
  .quiet (by rw [Loop.unstarted, hq, hp, Loop.unstarted]) hr ha hs hf

theorem Loop.unstarted_push (l : Loop κ τ) (c : κ) :
    (l.push c).unstarted.Perm (c :: l.unstarted) := by
  simp only [Loop.unstarted, Loop.push, Loop.parked, List.append_assoc, List.singleton_append]
  exact List.perm_middle

/-- **What one step does to the sent callbacks.** -/
theorem Loop.Step.effect [DecidableEq κ] {b : Backend} {l l' : Loop κ τ} {a : Act κ τ}
    (h : Loop.Step b l a l') : Effect a l l' := by
  cases h with
  | tick | schedule | unschedule | wakeCoalesced | dispatchTimers | timeout | enterBlockOn
  | enterNative => exact .same rfl rfl rfl rfl rfl rfl
  | send c hc => exact .accept c (.inl rfl) hc (l.unstarted_push c) rfl rfl rfl rfl
  | wake c hc => exact .accept c (.inr rfl) hc (Loop.unstarted_push _ c) rfl rfl rfl rfl
  | drain =>
      -- the queue moves into the new frame as a whole
      refine .quiet ?_ ?_ rfl rfl rfl <;>
        simp [Loop.unstarted, Loop.parked, Loop.running, State.getPendingExecution]
  | processCallbacks =>
      refine .quiet ?_ ?_ rfl rfl rfl <;> simp [Loop.unstarted, Loop.parked, Loop.running]
  | source c hp hc =>
      refine .start c ?_ rfl rfl rfl rfl
      exact (List.perm_cons_erase hc).append_right _
  | nextCallback order c cs ts rest hst =>
      refine .start c ?_ ?_ rfl rfl rfl
      · simp only [Loop.unstarted, Loop.parked, Loop.start, hst, List.flatMap_cons,
          Frame.parked_batch, Frame.parked_callback, List.nil_append, List.cons_append]
        exact List.perm_middle
      · simp [Loop.running, Loop.start, hst]
  | finishCallback c rest hst =>
      refine .finish c ?_ ?_ rfl rfl rfl <;>
        simp [Loop.unstarted, Loop.parked, Loop.running, hst]
  | nextTimer _ _ _ _ hst | nextHandle _ _ _ _ _ hst =>
      refine .same rfl ?_ ?_ rfl rfl rfl <;> simp [Loop.parked, Loop.running, Loop.fire, hst]
  | batchDone _ _ hst | timersDone _ _ hst | timersRead _ _ hst | handleGone _ _ _ _ hst
  | finishTimer _ _ hst | takeQueued _ hst | pollReady _ hst | pollPending _ hst
  | pollOnceReturns _ hst | exitNative _ hst =>
      refine .same rfl ?_ ?_ rfl rfl rfl <;> simp [Loop.parked, Loop.running, hst]

/-! ## Where every accepted callback is -/

/-- An accepted callback is unstarted or started, and a started one is running
or finished; nothing is accepted twice. -/
structure Loop.Wf (l : Loop κ τ) : Prop where
  nodup : l.accepted.Nodup
  accepted : l.accepted.Perm (l.started ++ l.unstarted)
  started : l.started.Perm (l.finished ++ l.running)

theorem Loop.Wf.empty : Loop.Wf ({} : Loop κ τ) where
  nodup := List.nodup_nil
  accepted := List.Perm.refl _
  started := List.Perm.refl _

theorem Effect.wf {a : Act κ τ} {l l' : Loop κ τ} (h : Effect a l l') (hw : l.Wf) : l'.Wf := by
  obtain ⟨hn, ha, hs⟩ := hw
  cases h with
  | quiet hu hr ha' hs' hf =>
      refine ⟨by rwa [ha'], ?_, ?_⟩
      · rw [ha', hs']
        exact ha.trans (hu.symm.append_left _)
      · rwa [hs', hf, hr]
  | accept c _ hc hu hr ha' hs' hf =>
      refine ⟨?_, ?_, ?_⟩
      · rw [ha']
        refine List.nodup_append.mpr ⟨hn, by simp, fun x hx y hy hxy => hc ?_⟩
        rw [List.mem_singleton] at hy
        rwa [← hy, ← hxy]
      · rw [ha', hs']
        have h1 : (l.accepted ++ [c]).Perm (c :: (l.started ++ l.unstarted)) :=
          (List.perm_append_singleton c _).trans (ha.cons c)
        exact h1.trans (List.perm_middle.symm.trans (hu.symm.append_left _))
      · rwa [hs', hf, hr]
  | start c hu hr ha' hs' hf =>
      refine ⟨by rwa [ha'], ?_, ?_⟩
      · rw [ha', hs', List.append_assoc]
        exact ha.trans (hu.append_left _)
      · rw [hs', hf, hr]
        have h1 : (l.started ++ [c]).Perm (c :: (l.finished ++ l.running)) :=
          (List.perm_append_singleton c _).trans (hs.cons c)
        exact h1.trans List.perm_middle.symm
  | finish c hu hr ha' hs' hf =>
      refine ⟨by rwa [ha'], by rwa [ha', hs', hu], ?_⟩
      rw [hs', hf, List.append_assoc]
      simpa [hr] using hs

theorem Loop.Wf.step [DecidableEq κ] {b : Backend} {l l' : Loop κ τ} {a : Act κ τ} (hw : l.Wf)
    (h : l.step b a = some l') : l'.Wf :=
  (Loop.step_cases h).effect.wf hw

theorem Loop.wf_of_reachable [DecidableEq κ] {b : Backend} {l : Loop κ τ}
    (h : (loopSystem κ τ b).Reachable l) : l.Wf :=
  System.Reachable.invariant .empty (fun _ _ _ _ hw hst => hw.step hst) h

/-- The callbacks that were accepted and have not started are the unstarted ones. -/
theorem Loop.Wf.mem_unstarted {l : Loop κ τ} (hw : l.Wf) {c : κ} :
    c ∈ l.unstarted ↔ c ∈ l.accepted ∧ c ∉ l.started := by
  have hd := List.nodup_append.mp (hw.accepted.nodup_iff.mp hw.nodup)
  rw [hw.accepted.mem_iff, List.mem_append]
  constructor
  · intro hc
    exact ⟨.inr hc, fun hs => hd.2.2 c hs c hc rfl⟩
  · rintro ⟨hc | hc, hs⟩
    · exact absurd hc hs
    · exact hc

theorem Loop.Wf.mem_accepted {l : Loop κ τ} (hw : l.Wf) {c : κ} (hc : c ∈ l.started) :
    c ∈ l.accepted :=
  hw.accepted.mem_iff.mpr (List.mem_append_left _ hc)

theorem Loop.Wf.mem_started {l : Loop κ τ} (hw : l.Wf) {c : κ} (hc : c ∈ l.finished) :
    c ∈ l.started :=
  hw.started.mem_iff.mpr (List.mem_append_left _ hc)

theorem Loop.Wf.push {l : Loop κ τ} (hw : l.Wf) {c : κ} (hc : c ∉ l.accepted) : (l.push c).Wf :=
  Effect.wf (.accept (a := .send c) c (.inl rfl) hc (l.unstarted_push c) rfl rfl rfl rfl) hw

/-- A started callback that has not finished is on the stack. -/
theorem Loop.Wf.mem_running {l : Loop κ τ} (hw : l.Wf) {c : κ} :
    c ∈ l.running ↔ c ∈ l.started ∧ c ∉ l.finished := by
  have hn := List.nodup_append.mp (hw.accepted.nodup_iff.mp hw.nodup)
  have hd := List.nodup_append.mp (hw.started.nodup_iff.mp hn.1)
  rw [hw.started.mem_iff, List.mem_append]
  constructor
  · intro hc
    exact ⟨.inr hc, fun hf => hd.2.2 c hf c hc rfl⟩
  · rintro ⟨hc | hc, hf⟩
    · exact absurd hc hf
    · exact hc

/-! ## The timers -/

/-- The timers that are still to fire: in the timer map or in a batch. -/
def Loop.pendingTimers (l : Loop κ τ) : List τ :=
  l.state.timers.map (·.2.callback) ++ l.parkedTimers

/-- The three things a step can do to the timers. -/
inductive TimerEffect (a : Act κ τ) (l l' : Loop κ τ) : Prop
  | quiet : l'.pendingTimers ⊆ l.pendingTimers → l'.fired = l.fired → TimerEffect a l l'
  | fire (t : τ) : t ∈ l.pendingTimers → l'.pendingTimers ⊆ l.pendingTimers →
      l'.fired = l.fired ++ [t] → TimerEffect a l l'
  | schedule (inTime : Nat) (t : τ) : a = .schedule inTime t →
      l'.pendingTimers ⊆ l.pendingTimers ++ [t] → l'.fired = l.fired → TimerEffect a l l'

theorem State.mem_of_lookup {s : State κ τ} {h : HandleType} {t : Timer τ}
    (ht : s.timers.lookup h = some t) : t.callback ∈ s.timers.map (·.2.callback) := by
  obtain ⟨l₁, l₂, heq, _⟩ := List.lookup_eq_some_iff.mp ht
  simp [heq]

theorem State.removeTimer_subset (s : State κ τ) (h : HandleType) :
    (s.removeTimer h).timers.map (·.2.callback) ⊆ s.timers.map (·.2.callback) :=
  List.map_subset _ (List.filter_subset_self _)

theorem State.getPendingExecution_subset (s : State κ τ) (order : List HandleType) :
    (s.getPendingExecution order).1.2.map (·.callback) ⊆ s.timers.map (·.2.callback) := by
  intro t ht
  simp only [State.getPendingExecution, List.mem_map, List.mem_filterMap] at ht
  obtain ⟨v, ⟨h, _, hv⟩, rfl⟩ := ht
  exact State.mem_of_lookup hv

theorem Loop.pendingTimers_subset {l l' : Loop κ τ}
    (hm : l'.state.timers.map (·.2.callback) ⊆ l.state.timers.map (·.2.callback))
    (hp : l'.parkedTimers ⊆ l.parkedTimers) : l'.pendingTimers ⊆ l.pendingTimers :=
  List.append_subset.mpr ⟨List.subset_append_of_subset_left _ hm,
    List.subset_append_of_subset_right _ hp⟩

/-- **What one step does to the timers.** -/
theorem Loop.Step.timerEffect [DecidableEq κ] {b : Backend} {l l' : Loop κ τ} {a : Act κ τ}
    (h : Loop.Step b l a l') : TimerEffect a l l' := by
  cases h with
  | tick | send | wake | wakeCoalesced | source | processCallbacks | dispatchTimers
  | enterBlockOn | enterNative => exact .quiet (List.Subset.refl _) rfl
  | schedule inTime t =>
      refine .schedule inTime t rfl ?_ rfl
      intro x
      simp only [Loop.pendingTimers, State.schedule, Loop.parkedTimers, List.map_append,
        List.mem_append, List.map_cons, List.map_nil]
      tauto
  | unschedule hd =>
      exact .quiet (Loop.pendingTimers_subset (State.removeTimer_subset _ _)
        (List.Subset.refl _)) rfl
  | drain order =>
      refine .quiet (List.append_subset.mpr ⟨?_, ?_⟩) rfl
      · exact List.subset_append_of_subset_left _
          (List.map_subset _ (List.filter_subset_self _))
      · -- what the batch holds came out of the map
        simp only [Loop.parkedTimers, List.flatMap_cons, Frame.parkedTimers_batch]
        exact List.append_subset.mpr ⟨List.subset_append_of_subset_left _
          (State.getPendingExecution_subset _ order), List.subset_append_right _ _⟩
  | timeout hd t hp ht =>
      exact .fire t.callback (List.mem_append_left _ (State.mem_of_lookup ht))
        (Loop.pendingTimers_subset (State.removeTimer_subset _ _) (List.Subset.refl _)) rfl
  | nextCallback _ _ _ _ _ hst =>
      refine .quiet ?_ rfl
      simp [Loop.pendingTimers, Loop.parkedTimers, Loop.start, hst]
  | nextTimer order t ts rest hst =>
      refine .fire t.callback ?_ (Loop.pendingTimers_subset (List.Subset.refl _) ?_) rfl
      · simp [Loop.pendingTimers, Loop.parkedTimers, hst]
      · simp [Loop.parkedTimers, Loop.fire, hst]
  | nextHandle order hd hs t rest hst ht =>
      refine .fire t.callback (List.mem_append_left _ (State.mem_of_lookup ht))
        (Loop.pendingTimers_subset (State.removeTimer_subset _ _) ?_) rfl
      simp [Loop.parkedTimers, Loop.fire, hst]
  | batchDone _ _ hst | timersDone _ _ hst | timersRead _ _ hst | handleGone _ _ _ _ hst
  | finishCallback _ _ hst | finishTimer _ _ hst | takeQueued _ hst | pollReady _ hst
  | pollPending _ hst | pollOnceReturns _ hst | exitNative _ hst =>
      refine .quiet ?_ rfl
      simp [Loop.pendingTimers, Loop.parkedTimers, hst]

end Wxp.RunLoop
