import Wxp.Foundations.Lists
import Wxp.RunLoop.Dispatch
import Mathlib.Data.List.Infix

/-!
# RunLoop — Fifo

The order in which the sent callbacks start. `process_callbacks` and `drain` take
the whole queue into a vector of their own and run it outside the lock. A pass
nested in one of these callbacks finds only what was sent since, and runs it before
the rest of the outer vector; GLib, where every callback is a source, has no such
vector.

While no pass begins over the rest of another one, with something to run, the
accepted callbacks are those that have started, then those of the innermost vector
and so on outwards, then the queue: `Loop.Ordered`.

Result: `callbacks_fifo`.
-/

namespace Wxp.RunLoop

variable {κ τ : Type}

/-- A pass that takes callbacks out of the queue begins only when the passes under
way have started all of theirs. -/
def Loop.InOrder (l : Loop κ τ) : Act κ τ → Prop
  | .dispatchCallbacks _ => l.parked = [] ∨ l.state.callbacks = []
  | _ => True

instance (l : Loop κ τ) (a : Act κ τ) : Decidable (l.InOrder a) := by
  cases a <;> unfold Loop.InOrder <;> infer_instance

/-- The accepted callbacks, in the order in which they start if nothing else is sent. -/
def Loop.Ordered (l : Loop κ τ) : Prop :=
  l.accepted = l.started ++ (l.parked ++ l.state.callbacks)

theorem Loop.Ordered.isPrefix {l : Loop κ τ} (h : l.Ordered) : l.started <+: l.accepted :=
  ⟨_, h.symm⟩

theorem Loop.Ordered.same {l l' : Loop κ τ} (h : l.Ordered) (ha : l'.accepted = l.accepted)
    (hs : l'.started = l.started) (hp : l'.parked = l.parked)
    (hq : l'.state.callbacks = l.state.callbacks) : l'.Ordered := by
  rw [Loop.Ordered, ha, hs, hp, hq]
  exact h

theorem Loop.Ordered.push {l : Loop κ τ} (h : l.Ordered) (c : κ) : (l.push c).Ordered := by
  simp only [Loop.Ordered, Loop.push, Loop.parked, ← List.append_assoc]
  rw [List.append_cancel_right_eq, List.append_assoc]
  exact h

/-- What was accepted before a started callback has started. -/
theorem Loop.Ordered.before {l : Loop κ τ} (h : l.Ordered) (hn : l.accepted.Nodup) {c d : κ}
    (hcd : [c, d].Sublist l.accepted) (hd : d ∈ l.started) : c ∈ l.started := by
  rw [h] at hcd hn
  have hlate : d ∉ l.parked ++ l.state.callbacks := fun hl =>
    (List.nodup_append.1 hn).2.2 d hd d hl rfl
  exact (before_of_append hcd hlate).subset List.mem_cons_self

/-- The queue moves into the innermost vector. -/
theorem Loop.Ordered.drain {l : Loop κ τ} (h : l.Ordered) {s : State κ τ} {ts : List (Timer τ)}
    (hg : l.parked = [] ∨ l.state.callbacks = []) (hs : s.callbacks = []) :
    Loop.Ordered { l with state := s, stack := .batch l.state.callbacks ts :: l.stack } := by
  have hparked : l.state.callbacks ++ l.parked = l.parked ++ l.state.callbacks := by
    rcases hg with hg | hg <;> simp [hg]
  have h' : l.accepted = l.started ++ (l.state.callbacks ++ l.parked) := by
    rw [hparked]
    exact h
  simpa [Loop.Ordered, Loop.parked, hs] using h'

/-- The next callback of the innermost vector is the next accepted one. -/
theorem Loop.Ordered.next {l : Loop κ τ} (h : l.Ordered) {c : κ} {cs : List κ}
    {ts : List (Timer τ)} {rest : List (Frame κ τ)} (hst : l.stack = .batch (c :: cs) ts :: rest) :
    (l.start c (.batch cs ts :: rest)).Ordered := by
  simpa [Loop.Ordered, Loop.parked, Loop.start, hst] using h

variable [DecidableEq κ] {b : Backend}

/-- GLib takes the callback that was attached first. -/
theorem Loop.Ordered.source {l : Loop κ τ} (h : l.Ordered) {c : κ} (hp : l.parked = [])
    (hc : l.state.callbacks.head? = some c) : Loop.Ordered (Loop.start { l with
      state := { l.state with callbacks := l.state.callbacks.erase c } } c l.stack) := by
  obtain ⟨cs, hcs⟩ := List.head?_eq_some_iff.1 hc
  have hl : l.accepted = l.started ++ (c :: cs) := by
    rw [h, hp, hcs, List.nil_append]
  have hcons : (Loop.start { l with
      state := { l.state with callbacks := l.state.callbacks.erase c } } c l.stack).parked = [] := by
    simpa [Loop.parked, Loop.start] using hp
  rw [Loop.Ordered, hcons]
  simp [Loop.start, hl, hcs]

theorem Loop.Ordered.step {l l' : Loop κ τ} {a : Act κ τ} (h : l.Ordered) (hg : l.InOrder a)
    (hsource : ∀ c, a = .dispatchSource c → l.parked = [] ∧ l.state.callbacks.head? = some c)
    (hstep : Loop.Step b l a l') : l'.Ordered := by
  cases hstep with
  | tick | schedule | unschedule | wakeCoalesced | dispatchTimers | timeout | enterBlockOn
  | enterNative => exact h.same rfl rfl rfl rfl
  | send c => exact h.push c
  | wake c => exact Loop.Ordered.push (h.same rfl rfl rfl rfl) c
  | drain => exact h.drain hg rfl
  | processCallbacks => exact h.drain hg rfl
  | source c => exact h.source (hsource c rfl).1 (hsource c rfl).2
  | nextCallback _ c cs ts rest hst => exact h.next hst
  | nextTimer _ _ _ _ hst | nextHandle _ _ _ _ _ hst | batchDone _ _ hst | timersDone _ _ hst
  | timersRead _ _ hst | handleGone _ _ _ _ hst | finishCallback _ _ hst | finishTimer _ _ hst
  | takeQueued _ hst | pollReady _ hst | pollPending _ hst | pollOnceReturns _ hst
  | exitNative _ hst =>
      refine h.same rfl rfl ?_ rfl
      simp [Loop.parked, Loop.fire, hst]

theorem Loop.Step.accepted_sublist {l l' : Loop κ τ} {a : Act κ τ} (h : Loop.Step b l a l') :
    l.accepted.Sublist l'.accepted := by
  cases h.effect with
  | quiet _ _ ha => exact ha ▸ .refl _
  | accept c _ _ _ _ ha => exact ha ▸ List.sublist_append_left _ _
  | start c _ _ ha => exact ha ▸ .refl _
  | finish c _ _ ha => exact ha ▸ .refl _

/-- Nothing is started on top of a callback, and its frame stays until it returns or pumps
a loop itself. -/
theorem Loop.Step.callback_top {l l' : Loop κ τ} {a : Act κ τ} {c : κ} {rest : List (Frame κ τ)}
    (h : Loop.Step b l a l') (hst : l.stack = .callback c :: rest) :
    l'.started = l.started ∧
      (l'.stack = l.stack ∨ a = .finish ∨ a = .enterBlockOn ∨ a = .enterNative) := by
  cases h with
  | tick | send | wakeCoalesced | wake | schedule | unschedule => exact ⟨rfl, .inl rfl⟩
  | finishCallback | finishTimer => exact ⟨rfl, .inr (.inl rfl)⟩
  | enterBlockOn => exact ⟨rfl, .inr (.inr (.inl rfl))⟩
  | enterNative => exact ⟨rfl, .inr (.inr (.inr rfl))⟩
  | drain _ _ hp | processCallbacks _ _ hp | dispatchTimers hp | source _ hp
  | timeout _ _ hp => simp [hst, canPump] at hp
  | nextCallback _ _ _ _ _ hs | nextTimer _ _ _ _ hs | nextHandle _ _ _ _ _ hs | batchDone _ _ hs
  | timersDone _ _ hs | timersRead _ _ hs | handleGone _ _ _ _ hs | takeQueued _ hs
  | pollReady _ hs | pollPending _ hs | pollOnceReturns _ hs | exitNative _ hs =>
      simp [hst] at hs

/-- A callback that is started is on top. -/
theorem Loop.Step.start_top {l l' : Loop κ τ} {a : Act κ τ} {c : κ} (h : Loop.Step b l a l')
    (hs : l'.started = l.started ++ [c]) : ∃ rest, l'.stack = .callback c :: rest := by
  cases h with
  | source c' | nextCallback _ c' =>
      have hc : c' = c := by simpa [Loop.start] using hs
      exact ⟨_, by rw [Loop.start, hc]⟩
  | _ => simp [Loop.push, Loop.fire] at hs

theorem Loop.ordered_of_reachVia (hb : b ≠ .linux) {l : Loop κ τ}
    (h : (loopSystem κ τ b).ReachVia Loop.InOrder l) : l.Ordered := by
  refine System.ReachVia.invariant (show Loop.Ordered {} from rfl)
    (fun l l' a _ ho hg hst => ?_) h
  refine ho.step hg (fun c hc => ?_) (Loop.step_cases hst)
  subst hc
  simp [loopSystem, Loop.step, Loop.dispatchSource, hb] at hst

/-- A pass that begins over the rest of another one starts the first callback of the
queue, though one that was accepted before it has not started. -/
theorem Loop.Ordered.overtaken {l l' : Loop κ τ} {order : List HandleType} (h : l.Ordered)
    (hw : l.Wf) (hst : l.step b (.dispatchCallbacks order) = some l')
    (hg : ¬ l.InOrder (.dispatchCallbacks order)) :
    ∃ l'', l'.step b (.next []) = some l'' ∧ ¬ l''.started <+: l''.accepted := by
  simp only [Loop.InOrder, not_or] at hg
  obtain ⟨p, ps, hp⟩ := List.exists_cons_of_ne_nil hg.1
  obtain ⟨c, cs, hc⟩ := List.exists_cons_of_ne_nil hg.2
  have hne : p ≠ c := by
    have hd := (List.nodup_append.1 (hw.accepted.nodup_iff.1 hw.nodup)).2.1
    simp only [Loop.unstarted, hc, hp, List.cons_append, List.nodup_cons] at hd
    rintro rfl
    exact hd.1 (by simp)
  have key : ∀ (m : Loop κ τ) (ts : List (Timer τ)),
      m.stack = .batch l.state.callbacks ts :: l.stack → m.started = l.started →
      m.accepted = l.accepted →
      ∃ l'', m.step b (.next []) = some l'' ∧ ¬ l''.started <+: l''.accepted := by
    intro m ts hm hs ha
    refine ⟨m.start c (.batch cs ts :: l.stack), by simp [Loop.step, Loop.next, hm, hc], ?_⟩
    rintro ⟨r, hr⟩
    rw [Loop.start] at hr
    simp only [hs, ha, List.append_assoc] at hr
    rw [h, hp, List.append_cancel_left_eq] at hr
    exact hne (List.cons.inj hr).1.symm
  cases Loop.step_cases hst with
  | drain => exact key _ _ rfl rfl rfl
  | processCallbacks => exact key _ _ rfl rfl rfl

/-- In every run no callback starts twice and none is lost. The callbacks start in the
order of acceptance in every run whose passes meet the condition, and the first pass that
does not meet it starts a callback out of turn. -/
theorem callbacks_fifo (κ τ : Type) [DecidableEq κ] (b : Backend) (hb : b ≠ .linux) :
    (∀ l, (loopSystem κ τ b).Reachable l →
      l.started.Nodup ∧ l.accepted.Perm (l.started ++ l.unstarted)) ∧
    (∀ l, (loopSystem κ τ b).ReachVia Loop.InOrder l → l.started <+: l.accepted) ∧
    ∀ l l' order, (loopSystem κ τ b).ReachVia Loop.InOrder l →
      l.step b (.dispatchCallbacks order) = some l' → ¬ l.InOrder (.dispatchCallbacks order) →
      ∃ l'', l'.step b (.next []) = some l'' ∧ ¬ l''.started <+: l''.accepted := by
  refine ⟨fun l hl => ?_, fun l hl => (Loop.ordered_of_reachVia hb hl).isPrefix, ?_⟩
  · have hw := Loop.wf_of_reachable hl
    exact ⟨(List.nodup_append.1 (hw.accepted.nodup_iff.1 hw.nodup)).1, hw.accepted⟩
  · intro l l' order hl hst hg
    exact (Loop.ordered_of_reachVia hb hl).overtaken (Loop.wf_of_reachable hl.reachable) hst hg

/-- A nested pass that finds an empty queue does no harm. -/
theorem callbacks_fifo_nested : ∃ l, (loopSystem Nat Nat .win32).Reachable l ∧
    l.started = [0, 1] ∧ l.started <+: l.accepted := by
  have hrun : ((loopSystem Nat Nat .win32).runVia Loop.InOrder {} [.send 0, .send 1,
      .dispatchCallbacks [], .next [], .enterNative, .dispatchCallbacks [], .next [], .exitNative,
      .finish, .next []]).map (fun l => decide (l.started = [0, 1])) = some true := by decide
  obtain ⟨l, hl, hp⟩ := System.exists_reachVia _ _ hrun
  exact ⟨l, hl.reachable, of_decide_eq_true hp,
    (callbacks_fifo Nat Nat .win32 (by decide)).2.1 l hl⟩

/-- Callbacks 0 and 1 are in one vector; callback 0 pumps a loop, and callback 2, sent
meanwhile, starts before callback 1. -/
theorem callback_overtakes : ¬ ∀ b, b ≠ Backend.linux → ∀ l,
    (loopSystem Nat Nat b).Reachable l → l.started <+: l.accepted := by
  intro h
  obtain ⟨l, hl, hp⟩ := System.exists_reachable (S := loopSystem Nat Nat .android)
    [.send 0, .send 1, .dispatchCallbacks [], .next [], .enterNative, .send 2,
      .dispatchCallbacks [], .next []]
    (fun l => decide (l.started = [0, 2] ∧ l.accepted = [0, 1, 2])) (by decide)
  obtain ⟨hs, ha⟩ := of_decide_eq_true hp
  have := h .android (by decide) l hl
  rw [hs, ha] at this
  exact absurd this (by decide)

end Wxp.RunLoop
