import Wxp.Tasks.Outcome

/-!
# Tasks — Leaf

The three futures of the crate that other futures end in: `JoinHandle`
(`src/task.rs`), `RunLoopLocal::delay` over `CompletableFuture`
(`src/util/future_completer.rs`) and `RunLoop::delay` (`src/run_loop.rs`).

`Future::poll` is to schedule the waker of the most recent call. All three keep the
waker of the first poll that returned `Pending`: `JoinHandle` and `CompletableFuture`
fill the slot with `get_or_insert_with`, `RunLoop::delay` moves the waker into the
callback it posts once. So the last waker is woken exactly where it is also the first.
-/

namespace Wxp.Tasks

/-- A future that something else completes, in terms of its state `σ`. -/
structure Leaf (σ ω : Type) where
  start : σ
  /-- One poll, and whether it returned `Ready`. -/
  poll : σ → ω → σ × Bool
  /-- What the run loop does for the future before it completes it. -/
  progress : σ → σ
  /-- The completion event, where it can happen, and the waker it wakes. -/
  complete : σ → Option (σ × Option ω)

inductive LeafStep (ω : Type)
  | poll (w : ω)
  | progress

/-- A leaf after some steps, with the wakers of the polls that returned `Pending`. -/
structure Polled (σ ω : Type) where
  state : σ
  pending : List ω := []

namespace Leaf

variable {σ ω : Type}

def step (F : Leaf σ ω) (h : Polled σ ω) : LeafStep ω → Polled σ ω
  | .poll w =>
      { state := (F.poll h.state w).1,
        pending := if (F.poll h.state w).2 then h.pending else h.pending ++ [w] }
  | .progress => { h with state := F.progress h.state }

/-- The leaf after any sequence of polls, with the run loop working in between. -/
def run (F : Leaf σ ω) (steps : List (LeafStep ω)) : Polled σ ω :=
  steps.foldl F.step { state := F.start }

/-- The completion wakes the waker of the last poll that returned `Pending`. -/
def WakesLast (F : Leaf σ ω) (steps : List (LeafStep ω)) : Prop :=
  ∀ s woken, F.complete (F.run steps).state = some (s, woken) →
    woken = (F.run steps).pending.getLast?

/-- The induction over the steps: an invariant of state and pending polls. -/
theorem run_invariant (F : Leaf σ ω) {I : Polled σ ω → Prop} (h0 : I { state := F.start })
    (hs : ∀ h step, I h → I (F.step h step)) (steps : List (LeafStep ω)) : I (F.run steps) := by
  have hfold : ∀ h, I h → I (steps.foldl F.step h) := by
    induction steps with
    | nil => exact fun _ h => h
    | cons step steps ih => exact fun h hi => ih _ (hs h step hi)
  exact hfold _ h0

/-- A leaf that always wakes the first waker wakes the last one exactly if they agree. -/
theorem wakesLast_iff {F : Leaf σ ω} {steps : List (LeafStep ω)} {s : σ} {woken : Option ω}
    (hc : F.complete (F.run steps).state = some (s, woken))
    (hfirst : woken = (F.run steps).pending.head?) :
    F.WakesLast steps ↔ (F.run steps).pending.head? = (F.run steps).pending.getLast? := by
  constructor
  · intro h
    rw [← hfirst]
    exact h s woken hc
  · intro h s' woken' hc'
    rw [hc] at hc'
    cases hc'
    rw [hfirst, h]

end Leaf

variable {τ π ω : Type}

/-- A slot filled with `get_or_insert_with` holds the first waker it was offered. -/
theorem getD_head? {ws : List ω} {slot : Option ω} (h : slot = ws.head?) (w : ω) :
    some (slot.getD w) = (ws ++ [w]).head? := by
  subst h
  cases ws <;> rfl

/-! ## `JoinHandle` -/

/-- The waker that `Task::notify` takes out of the slot and wakes. -/
def Task.woken (x : Task τ π ω) : Option ω := if x.available then x.waker else none

/-- A handle of a task that finishes with `r`. In between its poll closures find the
future pending. -/
def joinHandle (r : JoinResult τ π) : Leaf (Task τ π ω) ω where
  start := { generation := 0 }
  poll x w := ((x.pollHandle w).1, (x.pollHandle w).2.isSome)
  progress x := x.settle .pending
  complete x := some (((x.finish r).store r).notify, ((x.finish r).store r).woken)

/-! ## `RunLoopLocal::delay` -/

/-- The `State` that `FutureCompleter` and `CompletableFuture` share. -/
structure Completer (τ ω : Type) where
  waker : Option ω := none
  data : Option τ := none

/-- `FutureCompleter::complete`, and the waker it wakes. -/
def Completer.complete (c : Completer τ ω) (data : τ) : Completer τ ω × Option ω :=
  ({ waker := none, data := some data }, c.waker)

/-- `CompletableFuture::poll`. -/
def Completer.poll (c : Completer τ ω) (w : ω) : Completer τ ω × Option τ :=
  match c.data with
  | some data => ({ c with data := none }, some data)
  | none => ({ c with waker := some (c.waker.getD w) }, none)

/-- `RunLoopLocal::delay`: the first poll schedules the timer. -/
structure LocalDelay (ω : Type) where
  scheduled : Bool := false
  completer : Completer Unit ω := {}

def localDelay (ω : Type) : Leaf (LocalDelay ω) ω where
  start := {}
  poll d w := ({ scheduled := true, completer := (d.completer.poll w).1 },
    (d.completer.poll w).2.isSome)
  progress d := d
  complete d :=
    if d.scheduled then
      some ({ d with completer := (d.completer.complete ()).1 }, (d.completer.complete ()).2)
    else none

/-! ## `RunLoop::delay` -/

structure Delay (ω : Type) where
  /-- `RunLoop::post` finds a run loop. -/
  accepts : Bool
  completed : Bool := false
  scheduled : Bool := false
  /-- The waker in the posted callback that is to schedule the timer. -/
  posted : Option ω := none
  /-- The waker in the callback of the timer. -/
  timer : Option ω := none

def delay (ω : Type) (accepts : Bool) : Leaf (Delay ω) ω where
  start := { accepts }
  poll d w :=
    if d.completed then (d, true)
    else if d.scheduled then (d, false)
    else if d.accepts then ({ d with scheduled := true, posted := some w }, false)
    else ({ d with scheduled := true }, true)
  progress d :=
    match d.posted with
    | some w => { d with posted := none, timer := some w }
    | none => d
  complete d :=
    match d.timer with
    | some w => some ({ d with completed := true, timer := none }, some w)
    | none => none

/-! ## Each wakes the first waker -/

theorem joinHandle_first (r : JoinResult τ π) (steps : List (LeafStep ω)) :
    ((joinHandle r).run steps).state.aborted = false ∧
    ((joinHandle r).run steps).state.value = none ∧
    ((joinHandle r).run steps).state.waker = ((joinHandle r).run steps).pending.head? := by
  refine (joinHandle r).run_invariant
    (I := fun h => h.state.aborted = false ∧ h.state.value = none ∧
      h.state.waker = h.pending.head?) ⟨rfl, rfl, rfl⟩ ?_ steps
  rintro h (w | _) ⟨ha, hv, hw⟩
  · have hp : h.state.pollHandle w =
        ({ h.state with waker := some (h.state.waker.getD w), joiner := .pending w [] }, none) := by
      simp [Task.pollHandle, ha, hv]
    simp only [Leaf.step, joinHandle, hp]
    exact ⟨ha, hv, getD_head? hw w⟩
  · -- a closure that finds the future pending notifies nobody
    have hn : h.state.settle (.pending : FuturePoll τ π) = h.state := by
      simp [Task.settle, FuturePoll.outcome, Task.notify, Task.available, ha, hv]
    simp only [Leaf.step, joinHandle, hn]
    exact ⟨ha, hv, hw⟩

theorem localDelay_first (steps : List (LeafStep ω)) :
    ((localDelay ω).run steps).state.completer.data = none ∧
    ((localDelay ω).run steps).state.completer.waker =
      ((localDelay ω).run steps).pending.head? := by
  refine (localDelay ω).run_invariant
    (I := fun h => h.state.completer.data = none ∧
      h.state.completer.waker = h.pending.head?) ⟨rfl, rfl⟩ ?_ steps
  rintro h (w | _) ⟨hd, hw⟩
  · simp only [Leaf.step, localDelay, Completer.poll, hd]
    exact ⟨trivial, getD_head? hw w⟩
  · exact ⟨hd, hw⟩

/-- The waker captured by the first poll is in the posted callback, then in the timer. -/
structure Delay.Captured (h : Polled (Delay ω) ω) : Prop where
  completed : h.state.completed = false
  unscheduled : h.state.scheduled = false →
    h.pending = [] ∧ h.state.posted = none ∧ h.state.timer = none
  refused : h.state.accepts = false → h.state.posted = none ∧ h.state.timer = none
  posted : ∀ w, h.state.posted = some w → h.pending.head? = some w
  timer : ∀ w, h.state.timer = some w → h.pending.head? = some w

theorem head?_append_of_some {ws : List ω} {w : ω} (h : ws.head? = some w) (w' : ω) :
    (ws ++ [w']).head? = some w := by
  cases ws with
  | nil => cases h
  | cons w₀ ws => exact h

theorem delay_captured (accepts : Bool) (steps : List (LeafStep ω)) :
    Delay.Captured ((delay ω accepts).run steps) := by
  refine (delay ω accepts).run_invariant (I := Delay.Captured)
    ⟨rfl, fun _ => ⟨rfl, rfl, rfl⟩, fun _ => ⟨rfl, rfl⟩, nofun, nofun⟩ ?_ steps
  rintro h (w | _) hi
  · by_cases hs : h.state.scheduled = true
    · have hp : (delay ω accepts).poll h.state w = (h.state, false) := by
        simp [delay, hi.completed, hs]
      simp only [Leaf.step, hp]
      exact ⟨hi.completed, by simp [hs], hi.refused,
        fun w' hw' => head?_append_of_some (hi.posted w' hw') w,
        fun w' hw' => head?_append_of_some (hi.timer w' hw') w⟩
    · obtain ⟨hnil, hpost, htimer⟩ := hi.unscheduled (by simpa using hs)
      by_cases ha : h.state.accepts = true
      · have hp : (delay ω accepts).poll h.state w =
            ({ h.state with scheduled := true, posted := some w }, false) := by
          simp [delay, hi.completed, hs, ha]
        simp only [Leaf.step, hp]
        refine ⟨hi.completed, nofun, by simp [ha], ?_, by simp [htimer]⟩
        intro w' hw'
        cases hw'
        simp [hnil]
      · have hp : (delay ω accepts).poll h.state w =
            ({ h.state with scheduled := true }, true) := by
          simp [delay, hi.completed, hs, ha]
        simp only [Leaf.step, hp]
        exact ⟨hi.completed, nofun, hi.refused, hi.posted, hi.timer⟩
  · cases hpost : h.state.posted with
    | none =>
        have hp : (delay ω accepts).progress h.state = h.state := by simp [delay, hpost]
        simp only [Leaf.step, hp]
        exact hi
    | some w =>
        have hp : (delay ω accepts).progress h.state =
            { h.state with posted := none, timer := some w } := by
          simp [delay, hpost]
        simp only [Leaf.step, hp]
        refine ⟨hi.completed, ?_, ?_, nofun, ?_⟩
        · intro hs
          rw [(hi.unscheduled hs).2.1] at hpost
          cases hpost
        · intro ha
          rw [(hi.refused ha).1] at hpost
          cases hpost
        · intro w' hw'
          cases hw'
          exact hi.posted w hpost

/-! ## The result -/

/-- **The most recent waker is woken exactly where it is the first one**, for each of
the three futures, any sequence of polls and any completion that can happen. -/
theorem leaf_wakes_last_iff (steps : List (LeafStep ω)) :
    (∀ r : JoinResult τ π, (joinHandle r).WakesLast steps ↔
      ((joinHandle r).run steps).pending.head? = ((joinHandle r).run steps).pending.getLast?) ∧
    (∀ s woken, (localDelay ω).complete ((localDelay ω).run steps).state = some (s, woken) →
      ((localDelay ω).WakesLast steps ↔
        ((localDelay ω).run steps).pending.head? =
          ((localDelay ω).run steps).pending.getLast?)) ∧
    (∀ accepts s woken,
      (delay ω accepts).complete ((delay ω accepts).run steps).state = some (s, woken) →
      ((delay ω accepts).WakesLast steps ↔
        ((delay ω accepts).run steps).pending.head? =
          ((delay ω accepts).run steps).pending.getLast?)) := by
  refine ⟨fun r => ?_, fun s woken hc => ?_, fun accepts s woken hc => ?_⟩
  · exact Leaf.wakesLast_iff rfl (joinHandle_first r steps).2.2
  · refine Leaf.wakesLast_iff hc ?_
    rw [← (localDelay_first steps).2]
    simp only [localDelay] at hc
    split at hc
    · cases hc
      rfl
    · cases hc
  · refine Leaf.wakesLast_iff hc ?_
    simp only [delay] at hc
    split at hc
    · rename_i w hw
      cases hc
      exact ((delay_captured accepts steps).timer w hw).symm
    · cases hc

/-- One task polls twice. -/
def sameWakerSteps : List (LeafStep Nat) := [.poll 1, .progress, .poll 1]

theorem leaf_wakes_last_iff_sameWaker :
    (joinHandle (.ok 7 : JoinResult Nat Nat)).WakesLast sameWakerSteps ∧
    (localDelay Nat).WakesLast sameWakerSteps ∧
    (delay Nat true).WakesLast sameWakerSteps :=
  have h := leaf_wakes_last_iff (τ := Nat) (π := Nat) sameWakerSteps
  ⟨(h.1 (.ok 7)).2 rfl, (h.2.1 _ _ rfl).2 rfl, (h.2.2 true _ _ rfl).2 rfl⟩

/-- The future is polled by one task and then by another one. -/
def movedSteps : List (LeafStep Nat) := [.poll 1, .progress, .poll 2]

/-- The first waker is woken and the last one is not. -/
theorem leaf_wakes_first :
    ¬ (joinHandle (.ok 7 : JoinResult Nat Nat)).WakesLast movedSteps ∧
    ¬ (localDelay Nat).WakesLast movedSteps ∧ ¬ (delay Nat true).WakesLast movedSteps := by
  refine ⟨fun h => ?_, fun h => ?_, fun h => ?_⟩
  · exact absurd (h _ _ rfl) (by decide)
  · exact absurd (h _ _ rfl) (by decide)
  · exact absurd (h _ _ rfl) (by decide)

end Wxp.Tasks
