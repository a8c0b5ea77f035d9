import Wxp.Release.State

/-!
# Release — Sound

What every step of `release_guard` keeps that does not stray. The locks of the thread are those
of the frames on its stack (`Sound.held`). Under the abort loop there are only the phases of
`shutdown`, so the loop itself meets no lock of its own and no future that is being dropped. A
task that the loop has come to stays aborted, whatever a destructor does to it later
(`Sound.todo`).
-/

namespace Wxp.Release

open Wxp.RunLoop

/-! ## The frames and what they hold -/

/-- The lock whose guard is dropped with the frame. -/
def Frame.lock : Frame → Option Lock
  | .release => some .state
  | .abortLoop _ => some .activeTasks
  | .phase .unlock => some .initMutex
  | _ => none

def Frame.isPhase : Frame → Bool
  | .phase _ => true
  | _ => false

/-- A frame of `release_guard` itself. -/
def Frame.isOuter : Frame → Bool
  | .phase _ | .abortLoop _ => true
  | _ => false

/-- The place in the order of `shutdown`. -/
def Phase.rank : Phase → Nat
  | .takePendingCalls => 0
  | .abortTasks => 1
  | .clearTasks => 2
  | .clearThreadId => 3
  | .clearInstance => 4
  | .clearSender => 5
  | .unlock => 6

def Frame.rank : Frame → Nat
  | .phase p => p.rank
  | .abortLoop _ => Phase.abortTasks.rank
  | _ => 0

/-- Under a frame of `release_guard` stands what it does later. -/
def Frame.Over (f g : Frame) : Prop :=
  f.isOuter = true → g.isPhase = true ∧ f.rank < g.rank

/-- A frame of the code that `release_guard` runs, without a lock. -/
def Frame.isInner : Frame → Bool
  | .release | .phase _ | .abortLoop _ => false
  | _ => true

/-- A frame that stands for something in the state. -/
def Frame.isMark : Frame → Bool
  | .clearSlot _ | .phase _ | .abortLoop _ => true
  | _ => false

/-- The task has been freed, or aborted. -/
def Task.Done (x : Task) : Prop :=
  x.alive = false ∨ x.aborted = true ∧ ∀ ds, x.future ≠ .full ds

namespace State

/-- What holds as long as no step strays. -/
structure Sound (activeTasks : List TaskId) (s : State) : Prop where
  fault : s.fault = none
  held : s.held = s.stack.filterMap Frame.lock
  outer : s.stack.Pairwise Frame.Over
  dropping : ∀ t x, s.tasks[t]? = some x → x.future = .dropping → .clearSlot t ∈ s.stack
  todo : ∀ t ∈ activeTasks, (.phase .abortTasks ∈ s.stack ∧ t ∈ s.activeTasks) ∨
    (∃ ts, .abortLoop ts ∈ s.stack ∧ t ∈ ts) ∨ ∀ x, s.tasks[t]? = some x → x.Done
  noInstance : .phase .clearInstance ∈ s.stack ∨ s.runLoopInstance = false
  noThreadId : .phase .clearThreadId ∈ s.stack ∨ s.runLoopThreadId = false
  noSender : .phase .clearSender ∈ s.stack ∨ s.runLoopSender = false

variable {b : Backend} {activeTasks : List TaskId} {s s' : State}

/-! ## What the operations keep -/

section Operations

/-- Frames that stand for nothing come and go. -/
theorem Sound.restack (h : s.Sound activeTasks) {stack : List Frame} {held : List Lock}
    (hheld : held = stack.filterMap Frame.lock) (houter : stack.Pairwise Frame.Over)
    (hmem : ∀ f ∈ s.stack, f.isMark = true → f ∈ stack) :
    Sound activeTasks { s with stack, held } := by
  refine ⟨h.fault, hheld, houter, ?_, ?_, ?_, ?_, ?_⟩
  · exact fun t x hx hd => hmem _ (h.dropping t x hx hd) rfl
  · intro t ht
    refine (h.todo t ht).imp (fun hp => ⟨hmem _ hp.1 rfl, hp.2⟩) (Or.imp_left ?_)
    rintro ⟨ts, hts, hin⟩
    exact ⟨ts, hmem _ hts rfl, hin⟩
  · exact h.noInstance.imp_left fun hf => hmem _ hf rfl
  · exact h.noThreadId.imp_left fun hf => hmem _ hf rfl
  · exact h.noSender.imp_left fun hf => hmem _ hf rfl

theorem Sound.push {fs : List Frame} (h : s.Sound activeTasks)
    (hfs : ∀ f ∈ fs, f.isInner = true) : (s.push fs).Sound activeTasks := by
  have hlock : fs.filterMap Frame.lock = [] := by
    rw [List.filterMap_eq_nil_iff]
    intro f hf
    have := hfs f hf
    cases f <;> first | rfl | cases this
  have houter : ∀ f ∈ fs, f.isOuter = false := by
    intro f hf
    have := hfs f hf
    cases f <;> first | rfl | cases this
  refine h.restack ?_ ?_ fun f hf _ => List.mem_append_right _ hf
  · rw [List.filterMap_append, hlock, List.nil_append, h.held]
  · refine List.pairwise_append.2 ⟨?_, h.outer, ?_⟩
    · refine List.pairwise_of_forall_mem_list fun f hf g _ ho => ?_
      rw [houter f hf] at ho
      cases ho
    · intro f hf g _ ho
      rw [houter f hf] at ho
      cases ho

theorem mem_rest {f g : Frame} {rest : List Frame} (hg : g ∈ f :: rest) (hne : g ≠ f) :
    g ∈ rest :=
  (List.mem_cons.1 hg).resolve_left hne

/-- The phases that clear something are not the innermost frame, and stay where they are. -/
theorem Sound.uncleared {f : Frame} {rest stack : List Frame} (h : s.Sound activeTasks)
    (hs : s.stack = f :: rest) (hf : ∀ p, p ≠ .abortTasks → .phase p ≠ f)
    (hsub : rest ⊆ stack) :
    (.phase .clearInstance ∈ stack ∨ s.runLoopInstance = false) ∧
      (.phase .clearThreadId ∈ stack ∨ s.runLoopThreadId = false) ∧
      (.phase .clearSender ∈ stack ∨ s.runLoopSender = false) := by
  have hmem : ∀ p, p ≠ .abortTasks → .phase p ∈ s.stack → .phase p ∈ stack := by
    intro p hp hg
    exact hsub (mem_rest (hs ▸ hg) (hf p hp))
  exact ⟨h.noInstance.imp_left (hmem _ nofun), h.noThreadId.imp_left (hmem _ nofun),
    h.noSender.imp_left (hmem _ nofun)⟩

/-- The innermost frame is done; its lock is free again. -/
theorem Sound.pop {f : Frame} {rest : List Frame} {held : List Lock} (h : s.Sound activeTasks)
    (hs : s.stack = f :: rest) (hf : f.isMark = false)
    (hheld : held = rest.filterMap Frame.lock) :
    Sound activeTasks { s with stack := rest, held } := by
  have houter := h.outer
  rw [hs] at houter
  refine h.restack hheld (List.pairwise_cons.1 houter).2 fun g hg hmark => ?_
  rw [hs] at hg
  refine mem_rest hg ?_
  rintro rfl
  rw [hf] at hmark
  cases hmark

theorem Sound.panic (h : s.Sound activeTasks) (payload : Destructors) :
    (s.panic payload).Sound activeTasks :=
  ⟨h.fault, h.held, h.outer, h.dropping, h.todo, h.noInstance, h.noThreadId, h.noSender⟩

theorem Sound.setUnwinding (h : s.Sound activeTasks) (unwinding : Option Destructors)
    (poisoned : Bool) : Sound activeTasks { s with unwinding, poisoned } :=
  ⟨h.fault, h.held, h.outer, h.dropping, h.todo, h.noInstance, h.noThreadId, h.noSender⟩

theorem getElem?_update {t k : TaskId} {f : Task → Task} {y : Task}
    (hy : (s.update t f).tasks[k]? = some y) :
    (k = t ∧ ∃ x, s.tasks[k]? = some x ∧ y = f x) ∨ k ≠ t ∧ s.tasks[k]? = some y := by
  by_cases hk : k = t
  · subst hk
    simp only [update, List.getElem?_modify_eq, Option.map_eq_map, Option.map_eq_some_iff] at hy
    obtain ⟨x, hx, rfl⟩ := hy
    exact .inl ⟨rfl, x, hx, rfl⟩
  · rw [update, modify_of_ne hk] at hy
    exact .inr ⟨hk, hy⟩

theorem Sound.update (h : s.Sound activeTasks) (t : TaskId) {f : Task → Task}
    (hdone : ∀ x, s.tasks[t]? = some x → x.Done → (f x).Done)
    (hdropping : ∀ x, (f x).future = .dropping →
      x.future = .dropping ∨ .clearSlot t ∈ s.stack) : (s.update t f).Sound activeTasks := by
  refine ⟨h.fault, h.held, h.outer, ?_, ?_, h.noInstance, h.noThreadId, h.noSender⟩
  · intro k y hy hd
    rcases getElem?_update hy with ⟨rfl, x, hx, rfl⟩ | ⟨-, hy⟩
    · exact (hdropping x hd).elim (h.dropping k x hx) id
    · exact h.dropping k y hy hd
  · intro k hk
    refine (h.todo k hk).imp_right (Or.imp_right fun hall y hy => ?_)
    rcases getElem?_update hy with ⟨rfl, x, hx, rfl⟩ | ⟨-, hy⟩
    · exact hdone x hx (hall x hx)
    · exact hall y hy

/-- The future is taken out of the slot, or was not there any more. -/
theorem Sound.abort (h : s.Sound activeTasks) {t : TaskId}
    (hd : ∀ x, s.tasks[t]? = some x → x.future ≠ .dropping) :
    (s.abort t).Sound activeTasks ∧
      ∀ y, (s.abort t).tasks[t]? = some y → y.Done := by
  have hdone : ∀ {f : Task → Task}, (∀ x, (f x).aborted = true) →
      (∀ x ds, s.tasks[t]? = some x → (f x).future ≠ .full ds) →
      ∀ y, (s.update t f).tasks[t]? = some y → y.Done := by
    intro f ha hf y hy
    rcases getElem?_update hy with ⟨-, x, hx, rfl⟩ | ⟨hne, -⟩
    · exact .inr ⟨ha x, fun ds => hf x ds hx⟩
    · exact absurd rfl hne
  unfold State.abort
  cases hx : s.tasks[t]? with
  | none =>
      refine ⟨h.update t ?_ fun x hx => .inl hx, hdone (fun _ => rfl) (by simp [hx])⟩
      exact fun x _ hx => hx.imp_right fun hx => ⟨rfl, hx.2⟩
  | some x =>
      cases hf : x.future with
      | full ds =>
          simp only [Option.map_some, hf]
          refine ⟨?_, hdone (fun _ => rfl) (fun _ _ _ => nofun)⟩
          have hpush : (s.push [.drop ds, .clearSlot t]).Sound activeTasks :=
            h.push (by simp [Frame.isInner])
          refine hpush.update t ?_ fun _ _ => .inr (by simp [State.push])
          exact fun x _ hx => hx.imp_right fun _ => ⟨rfl, nofun⟩
      -- `abort` on a future that its own destructor aborts: the step strays.
      | dropping => exact absurd hf (hd x hx)
      | empty =>
          simp only [Option.map_some, hf]
          refine ⟨h.update t ?_ fun x hx => .inl hx, hdone (fun _ => rfl) ?_⟩
          · exact fun x _ hx => hx.imp_right fun hx => ⟨rfl, hx.2⟩
          · intro y ds hy
            cases hx.symm.trans hy
            simp [hf]

theorem Sound.free (h : s.Sound activeTasks) (t : TaskId) : (s.free t).Sound activeTasks := by
  unfold State.free
  split
  · refine Sound.push (h.update t ?_ nofun) (by simp [Frame.isInner])
    exact fun x _ hx => hx.imp_right fun hx => ⟨hx.1, nofun⟩
  · exact h

/-- A reference to the task is given up. -/
theorem Sound.lose (h : s.Sound activeTasks) {t : TaskId} {f : Task → Task}
    (hf : ∀ x, (f x).future = x.future ∧ (f x).aborted = x.aborted ∧
      (x.alive = false → (f x).alive = false)) :
    ((s.update t f).free t).Sound activeTasks := by
  refine Sound.free (h.update t ?_ fun x hx => .inl ((hf x).1 ▸ hx)) t
  intro x _ hx
  obtain ⟨hfuture, haborted, halive⟩ := hf x
  exact hx.imp halive fun hx => by rwa [haborted, hfuture]

theorem Sound.abortWith (h : s.Sound activeTasks) {t : TaskId} {fs : List Frame}
    (hfs : ∀ f ∈ fs, f.isInner = true) (halive : s.alive t = true)
    (hd : ∀ x, s.tasks[t]? = some x → x.future ≠ .dropping) :
    (s.abortWith t fs).Sound activeTasks ∧
      ∀ y, (s.abortWith t fs).tasks[t]? = some y → y.Done := by
  have hborrow : (s.update t fun x => { x with calls := x.calls + 1 }).Sound activeTasks := by
    refine h.update t ?_ fun x hx => .inl hx
    rintro x hx (hdead | hdone)
    · simp [State.alive, hx, hdead] at halive
    · exact .inr hdone
  have hinner : ∀ f ∈ fs ++ [.unref t], f.isInner = true := by
    intro f hf
    rcases List.mem_append.1 hf with hf | hf
    · exact hfs f hf
    · rw [List.mem_singleton.1 hf]
      rfl
  refine (hborrow.push hinner).abort ?_
  intro y hy
  rcases getElem?_update hy with ⟨-, x, hx, rfl⟩ | ⟨hne, -⟩
  · exact hd x hx
  · exact absurd rfl hne

theorem Sound.schedule (h : s.Sound activeTasks) (callback : Destructors)
    (hstray : b = .darwin → .state ∉ s.held) : (s.schedule b callback).Sound activeTasks := by
  have hpanic : ((s.drop callback).panic []).Sound activeTasks :=
    (h.push (by simp [Frame.isInner])).panic []
  unfold State.schedule
  split
  · rename_i hheld
    rw [if_neg fun hb => hstray hb hheld]
    exact hpanic
  · split
    · exact hpanic
    · exact ⟨h.fault, h.held, h.outer, h.dropping, h.todo, h.noInstance, h.noThreadId, h.noSender⟩

/-- The statement of `unschedule` that destroys the callback. -/
theorem Sound.remove (h : s.Sound activeTasks) (ds : Destructors) :
    Sound activeTasks { s with
      held := .state :: s.held, stack := .drop ds :: .release :: s.stack } := by
  refine h.restack ?_ ?_ fun f hf _ => List.mem_cons_of_mem _ (List.mem_cons_of_mem _ hf)
  · simp [Frame.lock, List.filterMap_cons, h.held]
  · exact .cons (fun _ _ => nofun) (.cons (fun _ _ => nofun) h.outer)

theorem Sound.unschedule (h : s.Sound activeTasks) (k : HandleType)
    (hstray : b = .darwin → .state ∉ s.held) : (s.unschedule b k).Sound activeTasks := by
  unfold State.unschedule
  split
  · rename_i hheld
    rw [if_neg fun hb => hstray hb hheld]
    exact h.panic []
  · split
    · exact h.panic []
    · have htimers : Sound activeTasks
          { s with timers := s.timers.filter fun v => v.1 != k } :=
        ⟨h.fault, h.held, h.outer, h.dropping, h.todo, h.noInstance, h.noThreadId, h.noSender⟩
      cases b with
      | linux =>
          have hpush : ∀ ds, (State.push _ [.drop ds, .noUnwind]).Sound activeTasks :=
            fun ds => htimers.push (by simp [Frame.isInner])
          exact hpush _
      | darwin | win32 | android => exact htimers.remove _

/-- A lock that is not held. -/
theorem withLock_of_not_mem {l : Lock} (hl : l ∉ s.held) : s.withLock l s' = s' :=
  if_neg hl

theorem Sound.lock_mem (h : s.Sound activeTasks) {l : Lock} (hl : l ∈ s.held) :
    ∃ f ∈ s.stack, f.lock = some l := by
  rw [h.held] at hl
  exact List.mem_filterMap.1 hl

theorem ne_of_lock {f : Frame} {l : Lock} (h : f.lock = some l) :
    l = .state ∨ l = .activeTasks ∨ l = .initMutex := by
  cases f with
  | release | abortLoop =>
      cases h
      simp
  | phase p =>
      cases p <;> cases h
      simp
  | code | drop | cleanup | catchUnwind | noUnwind | clearSlot | unref => cases h

/-- The locks that are taken for a statement are free. -/
theorem Sound.free_of_ne (h : s.Sound activeTasks) {l : Lock} (h₁ : l ≠ .state)
    (h₂ : l ≠ .activeTasks) (h₃ : l ≠ .initMutex) : l ∉ s.held := by
  intro hl
  obtain ⟨f, -, hf⟩ := h.lock_mem hl
  rcases ne_of_lock hf with rfl | rfl | rfl
  · exact h₁ rfl
  · exact h₂ rfl
  · exact h₃ rfl

theorem refs_of_any {t : TaskId} (h : (s.tasks[t]?.any fun x => decide (0 < x.refs)) = true) :
    ∃ x, s.tasks[t]? = some x ∧ 0 < x.refs := by
  cases hx : s.tasks[t]? with
  | none =>
      rw [hx] at h
      cases h
  | some x => exact ⟨x, rfl, by simpa [hx] using h⟩

theorem alive_of_refs {t : TaskId} {x : Task} (hx : s.tasks[t]? = some x) (h : 0 < x.refs) :
    s.alive t = true := by
  rw [alive, hx, Option.any_some, Task.alive, decide_eq_true_iff]
  omega

theorem Sound.exec (h : s.Sound activeTasks) {op : Op}
    (hinit : op = .init → .initMutex ∉ s.held)
    (habort : ∀ t, op = .abort t → ∀ x, s.tasks[t]? = some x → 0 < x.refs → x.future ≠ .dropping)
    (hstate : (∃ ds, op = .schedule ds) ∨ (∃ k, op = .cancel k) → b = .darwin → .state ∉ s.held) :
    (s.exec b op).Sound activeTasks := by
  have hdrop : ∀ ds, (s.drop ds).Sound activeTasks := fun ds => h.push (by simp [Frame.isInner])
  cases op with
  | panic payload => exact h.panic payload
  | init =>
      rw [State.exec, withLock_of_not_mem (hinit rfl)]
      exact h
  | isInitialized => exact h
  | post callback =>
      have hfree : .runLoopSender ∉ s.held := h.free_of_ne (by decide) (by decide) (by decide)
      rw [State.exec, withLock_of_not_mem hfree]
      exact hdrop callback
  | call callback =>
      have hfree : .runLoopThreadId ∉ s.held := h.free_of_ne (by decide) (by decide) (by decide)
      rw [State.exec, withLock_of_not_mem hfree]
      exact hdrop callback
  | spawn future => exact (hdrop future).panic []
  | schedule callback => exact h.schedule callback (hstate (.inl ⟨callback, rfl⟩))
  | cancel k => exact h.unschedule k (hstate (.inr ⟨k, rfl⟩))
  | abort t =>
      rw [State.exec]
      split
      · rename_i hrefs
        obtain ⟨y, hy, hpos⟩ := refs_of_any hrefs
        refine (h.abortWith (by simp) (alive_of_refs hy hpos) ?_).1
        intro x hx
        cases hy.symm.trans hx
        exact habort t rfl y hy hpos
      · exact h
  | dropJoinHandle t =>
      rw [State.exec]
      split
      · refine h.lose fun x => ⟨rfl, rfl, fun hdead => ?_⟩
        simp only [Task.alive, decide_eq_false_iff_not, Nat.not_lt] at hdead ⊢
        omega
      · exact h
  | catchUnwind ops => exact h.push (by simp [Frame.isInner])

/-! ## A step -/

/-- A phase has been done: what it was there for holds. -/
theorem Sound.popPhase {p : Phase} {rest : List Frame} (h : s.Sound activeTasks)
    (hs : s.stack = .phase p :: rest) (hlock : s'.held = rest.filterMap Frame.lock)
    (hfault : s'.fault = none) (hstack : s'.stack = rest) (htasks : s'.tasks = s.tasks)
    (hactive : (p ≠ .abortTasks ∧ s'.activeTasks = s.activeTasks) ∨ p = .clearTasks)
    (hinstance : (p ≠ .clearInstance ∧ s'.runLoopInstance = s.runLoopInstance) ∨
      s'.runLoopInstance = false)
    (hthreadId : (p ≠ .clearThreadId ∧ s'.runLoopThreadId = s.runLoopThreadId) ∨
      s'.runLoopThreadId = false)
    (hsender : (p ≠ .clearSender ∧ s'.runLoopSender = s.runLoopSender) ∨
      s'.runLoopSender = false) :
    s'.Sound activeTasks := by
  obtain ⟨-, -, houter, hdropping, htodo, hinstance', hthreadId', hsender'⟩ := h
  rw [hs] at houter hdropping htodo hinstance' hthreadId' hsender'
  have hcleared : ∀ {q : Phase} {before after : Bool},
      Frame.phase q ∈ Frame.phase p :: rest ∨ before = false →
      (p ≠ q ∧ after = before) ∨ after = false → Frame.phase q ∈ rest ∨ after = false := by
    rintro q before after hbefore (⟨hp, rfl⟩ | hclear)
    · refine hbefore.imp_left fun hmem => mem_rest hmem fun heq => hp ?_
      cases heq
      rfl
    · exact .inr hclear
  have hrest := List.pairwise_cons.1 houter
  subst hstack
  refine ⟨hfault, hlock, hrest.2, ?_, ?_, ?_, ?_, ?_⟩
  · intro t x hx hd
    rw [htasks] at hx
    exact mem_rest (hdropping t x hx hd) nofun
  · intro t ht
    rw [htasks]
    rcases htodo t ht with ⟨hmem, hin⟩ | ⟨ts, hts, hmem⟩ | hdone
    · rcases hactive with ⟨hp, hsame⟩ | rfl
      · refine .inl ⟨mem_rest hmem fun heq => hp ?_, hsame ▸ hin⟩
        cases heq
        rfl
      · -- `tasks.clear()` comes after the loop
        rcases List.mem_cons.1 hmem with heq | hmem
        · cases heq
        · have hlt := (hrest.1 _ hmem rfl).2
          simp [Frame.rank, Phase.rank] at hlt
    · exact .inr (.inl ⟨ts, mem_rest hts nofun, hmem⟩)
    · exact .inr (.inr hdone)
  · exact hcleared hinstance' hinstance
  · exact hcleared hthreadId' hthreadId
  · exact hcleared hsender' hsender

theorem Sound.held_rest {f : Frame} {rest : List Frame} (h : s.Sound activeTasks)
    (hs : s.stack = f :: rest) (hf : f.lock = none) : s.held = rest.filterMap Frame.lock := by
  rw [h.held, hs, List.filterMap_cons, hf]

theorem Sound.erase_lock {f : Frame} {rest : List Frame} {l : Lock} (h : s.Sound activeTasks)
    (hs : s.stack = f :: rest) (hf : f.lock = some l) :
    s.held.erase l = rest.filterMap Frame.lock := by
  rw [h.held, hs, List.filterMap_cons, hf]
  exact List.erase_cons_head ..

/-- Under a phase `active_tasks` is free. -/
theorem Sound.activeTasks_free {p : Phase} {rest : List Frame} (h : s.Sound activeTasks)
    (hs : s.stack = .phase p :: rest) : .activeTasks ∉ s.held := by
  intro hheld
  obtain ⟨f, hf, hlock⟩ := h.lock_mem hheld
  have houter := h.outer
  rw [hs] at hf houter
  have hphase : f.isPhase = true := by
    rcases List.mem_cons.1 hf with rfl | hf
    · rfl
    · exact ((List.pairwise_cons.1 houter).1 f hf rfl).1
  cases f with
  | phase q => cases q <;> cases hlock
  | code | drop | cleanup | catchUnwind | noUnwind | release | clearSlot | unref | abortLoop =>
      cases hphase

/-- The abort loop begins. -/
theorem Sound.beginLoop {rest : List Frame} (h : s.Sound activeTasks)
    (hs : s.stack = .phase .abortTasks :: rest) :
    Sound activeTasks { s with
      held := .activeTasks :: s.held, stack := .abortLoop s.activeTasks :: rest } := by
  have hheld := h.held_rest hs rfl
  obtain ⟨hinstance, hthreadId, hsender⟩ := h.uncleared hs
    (fun p hp heq => hp (Frame.phase.inj heq))
    (List.subset_cons_self (.abortLoop s.activeTasks) rest)
  obtain ⟨hfault, -, houter, hdropping, htodo, -, -, -⟩ := h
  rw [hs] at houter hdropping htodo
  have hmem : ∀ {g}, g ∈ .phase .abortTasks :: rest → g ≠ .phase .abortTasks →
      g ∈ .abortLoop s.activeTasks :: rest :=
    fun hg hne => List.mem_cons_of_mem _ (mem_rest hg hne)
  refine ⟨hfault, ?_, ?_, ?_, ?_, hinstance, hthreadId, hsender⟩
  · simp [Frame.lock, hheld]
  · obtain ⟨hover, hrest⟩ := List.pairwise_cons.1 houter
    exact .cons (fun g hg _ => hover g hg rfl) hrest
  · exact fun t x hx hd => hmem (hdropping t x hx hd) nofun
  · intro t ht
    rcases htodo t ht with ⟨-, hin⟩ | ⟨ts, hts, hin⟩ | hdone
    -- What was to be aborted is on the list that the loop iterates over.
    · exact .inr (.inl ⟨_, List.mem_cons_self, hin⟩)
    · exact .inr (.inl ⟨ts, hmem hts nofun, hin⟩)
    · exact .inr (.inr hdone)

/-- No phase meets a lock. -/
theorem Sound.perform {p : Phase} {rest : List Frame} (h : s.Sound activeTasks)
    (hs : s.stack = .phase p :: rest) :
    (State.perform b { s with stack := rest } p).Sound activeTasks := by
  cases p with
  | takePendingCalls =>
      have hfree : .pendingCalls ∉ s.held := h.free_of_ne (by decide) (by decide) (by decide)
      rw [State.perform, withLock_of_not_mem (s := { s with stack := rest }) hfree]
      exact h.popPhase hs (h.held_rest hs rfl) h.fault rfl rfl (.inl ⟨nofun, rfl⟩)
        (.inl ⟨nofun, rfl⟩) (.inl ⟨nofun, rfl⟩) (.inl ⟨nofun, rfl⟩)
  | abortTasks =>
      rw [State.perform,
        withLock_of_not_mem (s := { s with stack := rest }) (h.activeTasks_free hs)]
      exact h.beginLoop hs
  | clearTasks =>
      rw [State.perform,
        withLock_of_not_mem (s := { s with stack := rest }) (h.activeTasks_free hs)]
      exact h.popPhase hs (h.held_rest hs rfl) h.fault rfl rfl (.inr rfl)
        (.inl ⟨nofun, rfl⟩) (.inl ⟨nofun, rfl⟩) (.inl ⟨nofun, rfl⟩)
  | clearThreadId =>
      have hfree : .runLoopThreadId ∉ s.held := h.free_of_ne (by decide) (by decide) (by decide)
      rw [State.perform, withLock_of_not_mem (s := { s with stack := rest }) hfree]
      exact h.popPhase hs (h.held_rest hs rfl) h.fault rfl rfl (.inl ⟨nofun, rfl⟩)
        (.inl ⟨nofun, rfl⟩) (.inr rfl) (.inl ⟨nofun, rfl⟩)
  | clearInstance =>
      have hclear : Sound activeTasks { s with stack := rest, runLoopInstance := false } :=
        h.popPhase hs (h.held_rest hs rfl) h.fault rfl rfl (.inl ⟨nofun, rfl⟩)
          (.inr rfl) (.inl ⟨nofun, rfl⟩) (.inl ⟨nofun, rfl⟩)
      rw [State.perform]
      split
      · exact hclear.panic []
      · exact hclear
  | clearSender =>
      have hfree : .runLoopSender ∉ s.held := h.free_of_ne (by decide) (by decide) (by decide)
      rw [State.perform, withLock_of_not_mem (s := { s with stack := rest }) hfree]
      exact h.popPhase hs (h.held_rest hs rfl) h.fault rfl rfl (.inl ⟨nofun, rfl⟩)
        (.inl ⟨nofun, rfl⟩) (.inl ⟨nofun, rfl⟩) (.inr rfl)
  | unlock =>
      exact h.popPhase hs (h.erase_lock hs rfl) h.fault rfl rfl (.inl ⟨nofun, rfl⟩)
        (.inl ⟨nofun, rfl⟩) (.inl ⟨nofun, rfl⟩) (.inl ⟨nofun, rfl⟩)

/-- A task that is aborted, or gone, is as good as one that the loop has come to. -/
theorem Sound.extend {t : TaskId} (h : s.Sound (activeTasks.filter (· ≠ t)))
    (hdone : ∀ x, s.tasks[t]? = some x → x.Done) : s.Sound activeTasks := by
  refine ⟨h.fault, h.held, h.outer, h.dropping, ?_, h.noInstance, h.noThreadId, h.noSender⟩
  intro k hk
  by_cases hkt : k = t
  · exact .inr (.inr (hkt ▸ hdone))
  · exact h.todo k (List.mem_filter.2 ⟨hk, by simpa using hkt⟩)

/-- The loop has taken the task up. -/
theorem Sound.nextTask {t : TaskId} {ts : List TaskId} {rest : List Frame}
    (h : s.Sound activeTasks) (hs : s.stack = .abortLoop (t :: ts) :: rest) :
    Sound (activeTasks.filter (· ≠ t)) { s with stack := .abortLoop ts :: rest } := by
  obtain ⟨hinstance, hthreadId, hsender⟩ := h.uncleared hs nofun
    (List.subset_cons_self (.abortLoop ts) rest)
  obtain ⟨hfault, hheld, houter, hdropping, htodo, -, -, -⟩ := h
  rw [hs] at hheld houter hdropping htodo
  have hmem : ∀ {g}, g ∈ .abortLoop (t :: ts) :: rest → g ≠ .abortLoop (t :: ts) →
      g ∈ .abortLoop ts :: rest :=
    fun hg hne => List.mem_cons_of_mem _ (mem_rest hg hne)
  refine ⟨hfault, hheld, ?_, ?_, ?_, hinstance, hthreadId, hsender⟩
  · obtain ⟨hover, hrest⟩ := List.pairwise_cons.1 houter
    exact .cons hover hrest
  · exact fun k x hx hd => hmem (hdropping k x hx hd) nofun
  · intro k hk
    obtain ⟨hk, hne⟩ := List.mem_filter.1 hk
    refine (htodo k hk).imp (fun hp => ⟨hmem hp.1 nofun, hp.2⟩) (Or.imp_left ?_)
    rintro ⟨ts', hts, hin⟩
    rcases List.mem_cons.1 hts with heq | hts
    · cases heq
      refine ⟨ts, List.mem_cons_self, (List.mem_cons.1 hin).resolve_left ?_⟩
      simpa using hne
    · exact ⟨ts', List.mem_cons_of_mem _ hts, hin⟩

/-- The loop finds no future that is being dropped: only phases are under it. -/
theorem Sound.not_dropping {ts : List TaskId} {rest : List Frame} (h : s.Sound activeTasks)
    (hs : s.stack = .abortLoop ts :: rest) (t : TaskId) (x : Task) (hx : s.tasks[t]? = some x) :
    x.future ≠ .dropping := by
  intro hd
  have hmem := h.dropping t x hx hd
  have houter := h.outer
  rw [hs] at hmem houter
  rcases List.mem_cons.1 hmem with heq | hmem
  · cases heq
  · cases ((List.pairwise_cons.1 houter).1 _ hmem rfl).1

theorem Sound.abortNext {t : TaskId} {ts : List TaskId} {rest : List Frame}
    (h : s.Sound activeTasks) (hs : s.stack = .abortLoop (t :: ts) :: rest) :
    (State.abortNext { s with stack := rest } t ts).Sound activeTasks := by
  have hnext := h.nextTask hs
  unfold State.abortNext
  split
  · rename_i halive
    have hinner : ∀ f ∈ [Frame.catchUnwind], f.isInner = true := by simp [Frame.isInner]
    have habort := hnext.abortWith hinner halive (h.not_dropping hs t)
    -- The loop has this task behind it only now: `nextTask` had left it out.
    exact habort.1.extend habort.2
  · rename_i hdead
    refine hnext.extend fun x hx => .inl ?_
    simpa [State.alive, hx] using hdead

theorem Sound.endLoop {rest : List Frame} (h : s.Sound activeTasks)
    (hs : s.stack = .abortLoop [] :: rest) :
    Sound activeTasks { s with stack := rest, held := s.held.erase .activeTasks } := by
  have hheld := h.erase_lock hs rfl
  obtain ⟨hinstance, hthreadId, hsender⟩ := h.uncleared hs nofun (List.Subset.refl rest)
  obtain ⟨hfault, -, houter, hdropping, htodo, -, -, -⟩ := h
  rw [hs] at houter hdropping htodo
  have hmem : ∀ {g}, g ∈ .abortLoop [] :: rest → g ≠ .abortLoop [] → g ∈ rest := mem_rest
  refine ⟨hfault, hheld, (List.pairwise_cons.1 houter).2, ?_, ?_, hinstance, hthreadId, hsender⟩
  · exact fun k x hx hd => hmem (hdropping k x hx hd) nofun
  · intro k hk
    refine (htodo k hk).imp (fun hp => ⟨hmem hp.1 nofun, hp.2⟩) (Or.imp_left ?_)
    rintro ⟨ts, hts, hin⟩
    refine ⟨ts, hmem hts ?_, hin⟩
    rintro heq
    cases heq
    cases hin

theorem Sound.clearSlot {t : TaskId} {rest : List Frame} (h : s.Sound activeTasks)
    (hs : s.stack = .clearSlot t :: rest) :
    (State.update { s with stack := rest } t fun x => { x with future := .empty }).Sound
      activeTasks := by
  obtain ⟨hinstance, hthreadId, hsender⟩ := h.uncleared hs nofun (List.Subset.refl rest)
  obtain ⟨hfault, hheld, houter, hdropping, htodo, -, -, -⟩ := h
  rw [hs] at hheld houter hdropping htodo
  have hmem : ∀ {g}, g ∈ .clearSlot t :: rest → g ≠ .clearSlot t → g ∈ rest := mem_rest
  refine ⟨hfault, hheld, (List.pairwise_cons.1 houter).2, ?_, ?_, hinstance, hthreadId, hsender⟩
  · intro k y hy hd
    rcases getElem?_update hy with ⟨-, x, -, rfl⟩ | ⟨hne, hy⟩
    · cases hd
    · refine hmem (hdropping k y hy hd) fun heq => hne ?_
      cases heq
      rfl
  · intro k hk
    rcases htodo k hk with hp | ⟨ts, hts, hin⟩ | hdone
    · exact .inl ⟨hmem hp.1 nofun, hp.2⟩
    · exact .inr (.inl ⟨ts, hmem hts nofun, hin⟩)
    · refine .inr (.inr fun y hy => ?_)
      rcases getElem?_update hy with ⟨-, x, hx, rfl⟩ | ⟨-, hy⟩
      · exact (hdone x hx).imp_right fun hx => ⟨hx.1, nofun⟩
      · exact hdone y hy

theorem Sound.unref {t : TaskId} (h : s.Sound activeTasks) :
    ((s.update t fun x => { x with calls := x.calls - 1 }).free t).Sound activeTasks :=
  h.lose fun x => ⟨rfl, rfl, fun hdead => by
    simp only [Task.alive, decide_eq_false_iff_not, Nat.not_lt] at hdead ⊢
    omega⟩

theorem Sound.code {op : Op} {ops : List Op} {rest : List Frame} (h : s.Sound activeTasks)
    (hstray : s.strays b = false) (hu : s.unwinding = none)
    (hs : s.stack = .code (op :: ops) :: rest) :
    (State.exec b (State.push { s with stack := rest } [.code ops]) op).Sound activeTasks := by
  have hpush : (State.push { s with stack := rest } [.code ops]).Sound activeTasks :=
    Sound.push (h.pop hs rfl (h.held_rest hs rfl)) (by simp [Frame.isInner])
  refine hpush.exec ?_ ?_ ?_
  · rintro rfl hheld
    change Lock.initMutex ∈ s.held at hheld
    simp [strays, hu, hs, hheld] at hstray
  · rintro t rfl x hx hpos hd
    change s.tasks[t]? = some x at hx
    simp [strays, hu, hs, hx, hd, hpos, Slot.isDropping] at hstray
  · rintro (⟨ds, rfl⟩ | ⟨k, rfl⟩) rfl hheld
    · change Lock.state ∈ s.held at hheld
      simp [strays, hu, hs, hheld] at hstray
    · change Lock.state ∈ s.held at hheld
      simp [strays, hu, hs, hheld] at hstray

theorem Sound.resume {f : Frame} {rest : List Frame} (h : s.Sound activeTasks)
    (hstray : s.strays b = false) (hu : s.unwinding = none) (hs : s.stack = f :: rest) :
    (State.resume b { s with stack := rest } f).Sound activeTasks := by
  cases f with
  | code ops =>
      cases ops with
      | nil => exact h.pop hs rfl (h.held_rest hs rfl)
      | cons op ops => exact h.code hstray hu hs
  | drop ds =>
      have hpop := h.pop hs rfl (h.held_rest hs rfl)
      cases ds with
      | nil => exact hpop
      | cons d ds => exact hpop.push (by simp [Frame.isInner])
  | cleanup payload => exact (h.pop hs rfl (h.held_rest hs rfl)).panic payload
  | catchUnwind | noUnwind => exact h.pop hs rfl (h.held_rest hs rfl)
  | release => exact h.pop hs rfl (h.erase_lock hs rfl)
  | clearSlot t => exact h.clearSlot hs
  | unref t => exact (h.pop hs rfl (h.held_rest hs rfl)).unref
  | abortLoop ts =>
      cases ts with
      | nil => exact h.endLoop hs
      | cons t ts => exact h.abortNext hs
  | phase p => exact h.perform hs

theorem Sound.unwind {f : Frame} {rest : List Frame} {payload : Destructors}
    (h : s.Sound activeTasks) (hstray : s.strays b = false) (hu : s.unwinding = some payload)
    (hs : s.stack = f :: rest) :
    (State.unwind b { s with stack := rest } payload f).Sound activeTasks := by
  cases f with
  | code ops => exact h.pop hs rfl (h.held_rest hs rfl)
  | drop ds =>
      have hpop := h.pop hs rfl (h.held_rest hs rfl)
      cases ds with
      | nil => exact hpop
      | cons d ds =>
          exact (hpop.setUnwinding none s.poisoned).push (by simp [Frame.isInner])
  | cleanup | noUnwind | abortLoop | phase => simp [strays, hu, hs] at hstray
  | catchUnwind =>
      have hpop := h.pop hs rfl (h.held_rest hs rfl)
      exact (hpop.setUnwinding none s.poisoned).push (by simp [Frame.isInner])
  | release => exact (h.pop hs rfl (h.erase_lock hs rfl)).setUnwinding _ _
  | clearSlot t => exact h.clearSlot hs
  | unref t => exact (h.pop hs rfl (h.held_rest hs rfl)).unref

theorem Sound.step (h : s.Sound activeTasks) (hstray : s.strays b = false)
    (hst : s.step b = some s') : s'.Sound activeTasks := by
  cases hs : s.stack with
  | nil =>
      rw [step_eq_none hs] at hst
      cases hst
  | cons f rest =>
      cases hu : s.unwinding with
      | none =>
          rw [step_resume h.fault hu hs] at hst
          cases hst
          exact h.resume hstray hu hs
      | some payload =>
          rw [step_unwind h.fault hu hs] at hst
          cases hst
          exact h.unwind hstray hu hs

/-- Where the machine has stopped, everything is done. -/
theorem Sound.released (h : s.Sound activeTasks) (hst : s.step b = none) :
    s.Released activeTasks := by
  have hstack : s.stack = [] := by
    cases hs : s.stack with
    | nil => rfl
    | cons f rest =>
        cases hu : s.unwinding with
        | none => cases (step_resume h.fault hu hs).symm.trans hst
        | some payload => cases (step_unwind h.fault hu hs).symm.trans hst
  obtain ⟨hfault, hheld, -, hdropping, htodo, hinstance, hthreadId, hsender⟩ := h
  rw [hstack] at hheld hdropping htodo hinstance hthreadId hsender
  refine ⟨⟨hfault, hstack⟩, ?_, ?_, hheld⟩
  · intro t ht x hx
    rcases htodo t ht with ⟨hmem, -⟩ | ⟨ts, hmem, -⟩ | hdone
    · cases hmem
    · cases hmem
    · refine (hdone x hx).imp_right fun ⟨haborted, hfull⟩ => ⟨haborted, ?_⟩
      cases hf : x.future with
      | full ds => exact absurd hf (hfull ds)
      | dropping => cases hdropping t x hx hf
      | empty => rfl
  · exact ⟨hinstance.resolve_left (List.not_mem_nil), hthreadId.resolve_left (List.not_mem_nil),
      hsender.resolve_left (List.not_mem_nil)⟩

theorem sound_start (tasks : List Spawned) (activeTasks : List TaskId)
    (timers : List (HandleType × Destructors)) (nextHandle : HandleType) (shared : Bool) :
    (start tasks activeTasks timers nextHandle shared).Sound activeTasks := by
  refine ⟨rfl, rfl, ?_, ?_, ?_, .inl ?_, .inl ?_, .inl ?_⟩
  · change (shutdown ++ [Phase.unlock] |>.map Frame.phase).Pairwise Frame.Over
    simp [shutdown, Frame.Over, Frame.isOuter, Frame.isPhase, Frame.rank, Phase.rank]
  · intro t x hx hd
    change (tasks.map Spawned.toTask)[t]? = some x at hx
    rw [List.getElem?_map, Option.map_eq_some_iff] at hx
    obtain ⟨v, -, rfl⟩ := hx
    cases hv : v.future <;> simp [Spawned.toTask, hv] at hd
  · intro t ht
    refine .inl ⟨?_, ht⟩
    change Frame.phase .abortTasks ∈ (shutdown ++ [Phase.unlock] |>.map Frame.phase)
    simp [shutdown]
  all_goals
    change Frame.phase _ ∈ (shutdown ++ [Phase.unlock] |>.map Frame.phase)
    simp [shutdown]

end Operations

end State

end Wxp.Release
