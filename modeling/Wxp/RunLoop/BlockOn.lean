import Wxp.RunLoop.Dispatch

/-!
# RunLoop — BlockOn

`RunLoopLocal::block_on` pumps the native loop from inside whatever the thread
was doing. The doc comment promises that "a Future that depends on another task
completing on the run loop will not deadlock"; that needs every callback that
was accepted and has not started to be in the queue this `poll_once` dispatches
from (`Loop.Runnable`).

On Darwin, Win32 and Android it is not when `block_on` runs inside a callback
that has successors in its dispatch batch: those sit in the local vector of the
suspended pass. `WaitsClear` is the exact condition on the moment `block_on`
starts to wait; it holds of itself on Linux.
-/

namespace Wxp.RunLoop

variable {κ τ : Type}

/-- While the thread waits in `poll_once` for `block_on`, every accepted callback
that has not started is in the queue. -/
def Loop.Runnable (l : Loop κ τ) : Prop :=
  l.waiting = true → ∀ c ∈ l.accepted, c ∉ l.started → c ∈ l.state.callbacks

instance [DecidableEq κ] (l : Loop κ τ) : Decidable l.Runnable :=
  inferInstanceAs (Decidable (_ → _))

def Act.isPollPending : Act κ τ → Bool
  | .pollPending => true
  | _ => false

/-- When `block_on` finds its future pending, no dispatch pass below it holds
callbacks it has not started: `block_on` was called at top level or from the
last callback of its batch. Linux has no batches. -/
def WaitsClear (b : Backend) (l : Loop κ τ) (a : Act κ τ) : Prop :=
  a.isPollPending = true → b = .linux ∨ l.parked.isEmpty = true

instance (b : Backend) (l : Loop κ τ) (a : Act κ τ) : Decidable (WaitsClear b l a) :=
  inferInstanceAs (Decidable (_ → _))

/-- Below a `block_on` that waits no callback is parked, and a `block_on` at the
head of its loop has nothing on top of it. -/
def Settled : List (Frame κ τ) → Prop
  | [] => True
  | .blockOn .waiting :: rest => rest.flatMap Frame.parked = [] ∧ Settled rest
  | .blockOn .head :: _ => False
  | _ :: rest => Settled rest

/-- `Settled`, with the head of the loop of `block_on` on top: a `block_on` that
goes to wait without polling has waited before. -/
def SettledTop (queued : Bool) : List (Frame κ τ) → Prop
  | .blockOn .head :: rest =>
      (queued = false → rest.flatMap Frame.parked = []) ∧ Settled rest
  | stack => Settled stack

theorem SettledTop.of_settled {q : Bool} {stack : List (Frame κ τ)} (h : Settled stack) :
    SettledTop q stack := by
  unfold SettledTop
  split
  · exact absurd h (by simp [Settled])
  · exact h

theorem SettledTop.settled_of_canPump {q : Bool} {stack : List (Frame κ τ)}
    (h : SettledTop q stack) (hp : canPump stack = true) : Settled stack := by
  unfold SettledTop at h
  split at h
  · simp [canPump] at hp
  · exact h

theorem SettledTop.settled_of_userCode {q : Bool} {stack : List (Frame κ τ)}
    (h : SettledTop q stack) (hp : userCode stack = true) : Settled stack := by
  unfold SettledTop at h
  split at h
  · simp [userCode] at hp
  · exact h

theorem SettledTop.wake {q : Bool} {stack : List (Frame κ τ)} (h : SettledTop q stack) :
    SettledTop true stack := by
  unfold SettledTop at h
  split at h
  · exact ⟨by simp, h.2⟩
  · exact .of_settled h

/-- In every reachable state `Runnable` says that nothing is parked below a
`block_on` that waits. -/
theorem Loop.Wf.runnable_iff {l : Loop κ τ} (hw : l.Wf) :
    l.Runnable ↔ (l.waiting = true → l.parked = []) := by
  have hd := List.nodup_append.mp (hw.accepted.nodup_iff.mp hw.nodup)
  have hq := List.nodup_append.mp hd.2.1
  constructor
  · intro h hwait
    rw [List.eq_nil_iff_forall_not_mem]
    intro c hc
    obtain ⟨ha, hs⟩ := hw.mem_unstarted.mp (List.mem_append_right l.state.callbacks hc)
    exact hq.2.2 c (h hwait c ha hs) c hc rfl
  · intro h hwait c ha hs
    have hc : c ∈ l.unstarted := hw.mem_unstarted.mpr ⟨ha, hs⟩
    rwa [Loop.unstarted, h hwait, List.append_nil] at hc

theorem Settled.parked_of_waiting {l : Loop κ τ} (h : SettledTop l.queued l.stack)
    (hwait : l.waiting = true) : l.parked = [] := by
  unfold Loop.waiting at hwait
  split at hwait
  · rename_i rest hst
    rw [hst] at h
    rw [Loop.parked, hst]
    exact h.1
  · cases hwait

section Steps

variable [DecidableEq κ]

/-- Every step keeps `SettledTop`; the step that starts to wait needs its guard. -/
theorem settledTop_step {b : Backend} (hb : b ≠ .linux) {l l' : Loop κ τ} {a : Act κ τ}
    (hi : SettledTop l.queued l.stack) (hok : WaitsClear b l a) (h : Loop.Step b l a l') :
    SettledTop l'.queued l'.stack := by
  cases h with
  | tick | send | wakeCoalesced | schedule | unschedule => exact hi
  | wake => exact hi.wake
  | drain _ _ hp | processCallbacks _ _ hp | dispatchTimers hp | source _ hp | timeout _ _ hp =>
      exact .of_settled (hi.settled_of_canPump hp)
  | nextCallback _ _ _ _ _ hst | nextTimer _ _ _ _ hst | nextHandle _ _ _ _ _ hst
  | timersRead _ _ hst | handleGone _ _ _ _ hst =>
      rw [hst] at hi
      exact .of_settled hi
  | batchDone _ _ hst | timersDone _ _ hst | finishCallback _ _ hst | finishTimer _ _ hst
  | pollReady _ hst | exitNative _ hst =>
      rw [hst] at hi
      exact .of_settled hi
  | enterBlockOn hu => exact ⟨by simp, hi.settled_of_userCode hu⟩
  | enterNative hu => exact .of_settled (hi.settled_of_userCode hu)
  | takeQueued rest hst =>
      rw [hst] at hi
      obtain ⟨hclear, hs⟩ := hi
      cases hq : l.queued with
      | true => exact hs
      | false => exact ⟨hclear hq, hs⟩
  | pollPending rest hst =>
      have hclear : l.parked = [] := by simpa [hb] using hok rfl
      rw [Loop.parked, hst] at hclear
      rw [hst] at hi
      exact ⟨by simpa using hclear, hi⟩
  | pollOnceReturns rest hst =>
      rw [hst] at hi
      exact ⟨fun _ => hi.1, hi.2⟩

/-! ## Linux -/

/-- On Linux no step opens a batch, so nothing is ever parked. -/
theorem parked_step_linux {l l' : Loop κ τ} {a : Act κ τ} (hi : l.parked = [])
    (h : Loop.Step .linux l a l') : l'.parked = [] := by
  cases h with
  | drain _ hb => cases hb
  | processCallbacks _ hb => exact absurd rfl hb
  | nextCallback _ _ _ _ _ hst | nextTimer _ _ _ _ hst | nextHandle _ _ _ _ _ hst
  | batchDone _ _ hst | timersDone _ _ hst | timersRead _ _ hst | handleGone _ _ _ _ hst
  | finishCallback _ _ hst | finishTimer _ _ hst | takeQueued _ hst | pollReady _ hst
  | pollPending _ hst | pollOnceReturns _ hst | exitNative _ hst =>
      simp_all [Loop.parked, Loop.fire]
  | _ => simpa [Loop.parked, Loop.push, Loop.start, Loop.fire] using hi

theorem parked_linux {l : Loop κ τ} (h : (loopSystem κ τ .linux).Reachable l) :
    l.parked = [] :=
  System.Reachable.invariant (I := fun l : Loop κ τ => l.parked = []) rfl
    (fun _ _ _ _ hi hst => parked_step_linux hi (Loop.step_cases hst)) h

/-! ## The result -/

theorem settledTop_of_reachVia {b : Backend} (hb : b ≠ .linux) {l : Loop κ τ}
    (h : (loopSystem κ τ b).ReachVia (WaitsClear b) l) : SettledTop l.queued l.stack :=
  h.invariant trivial fun _ _ _ _ hi hok hst =>
    settledTop_step hb hi hok (Loop.step_cases hst)

/-- **`block_on` keeps every accepted callback runnable** in every run whose
waits are clear, and a wait that is not clear strands a callback. -/
theorem block_on_keeps_callbacks_runnable (b : Backend) :
    (∀ l : Loop κ τ, (loopSystem κ τ b).ReachVia (WaitsClear b) l → l.Runnable) ∧
    (∀ l l' : Loop κ τ, (loopSystem κ τ b).Reachable l → ¬ WaitsClear b l .pollPending →
      l.step b .pollPending = some l' → ¬ l'.Runnable) := by
  constructor
  · intro l h
    rw [(Loop.wf_of_reachable h.reachable).runnable_iff]
    intro hwait
    by_cases hb : b = .linux
    · subst hb
      exact parked_linux h.reachable
    · exact Settled.parked_of_waiting (settledTop_of_reachVia hb h) hwait
  · intro l l' hl hclear h
    have hp : l.parked ≠ [] := by
      intro hp
      exact hclear fun _ => .inr (by simp [hp])
    rw [((Loop.wf_of_reachable hl).step h).runnable_iff]
    simp only [Loop.step, Loop.pollPending] at h
    split at h
    · rename_i rest hst
      cases h
      intro hrun
      exact hp (by simpa [Loop.parked, hst] using hrun rfl)
    · cases h

end Steps

/-- A callback calls `block_on` last in its batch; the next callback is sent
while it waits. -/
def lastInBatchRun : List (Act Nat Nat) :=
  [.send 0, .dispatchCallbacks [], .next [], .enterBlockOn, .takeQueued, .pollPending, .send 1]

theorem block_on_keeps_callbacks_runnable_last :
    ∃ l : Loop Nat Nat, l.waiting = true ∧ l.unstarted = [1] ∧ l.Runnable := by
  have hrun : ((loopSystem Nat Nat .darwin).runVia (WaitsClear .darwin) {} lastInBatchRun).map
      (fun l => l.waiting && l.unstarted == [1]) = some true := by decide
  obtain ⟨l, hl, hp⟩ := System.exists_reachVia _ _ hrun
  simp only [Bool.and_eq_true, beq_iff_eq] at hp
  exact ⟨l, hp.1, hp.2, (block_on_keeps_callbacks_runnable .darwin).1 l hl⟩

/-- Two callbacks are sent, one pass takes both, and the first one blocks. -/
def strandingRun : List (Act Nat Nat) :=
  [.send 0, .send 1, .dispatchCallbacks [], .next [], .enterBlockOn, .takeQueued, .pollPending]

theorem not_runnable_of_run {b : Backend} (as : List (Act Nat Nat))
    (h : ((loopSystem Nat Nat b).run {} as).map (fun l => decide (¬ l.Runnable)) = some true) :
    ∃ l, (loopSystem Nat Nat b).Reachable l ∧ ¬ l.Runnable := by
  obtain ⟨l, hl, hp⟩ := System.exists_reachable _ _ h
  exact ⟨l, hl, of_decide_eq_true hp⟩

/-- The second callback is in no queue `poll_once` dispatches from, on every
backend that dispatches in batches. -/
theorem block_on_strands_a_callback :
    (∃ l, (loopSystem Nat Nat .darwin).Reachable l ∧ ¬ l.Runnable) ∧
    (∃ l, (loopSystem Nat Nat .win32).Reachable l ∧ ¬ l.Runnable) ∧
    (∃ l, (loopSystem Nat Nat .android).Reachable l ∧ ¬ l.Runnable) :=
  ⟨not_runnable_of_run strandingRun (by decide),
    not_runnable_of_run strandingRun (by decide),
    not_runnable_of_run strandingRun (by decide)⟩

end Wxp.RunLoop
