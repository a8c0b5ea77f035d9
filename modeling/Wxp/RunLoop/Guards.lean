import Wxp.RunLoop.Lifecycle

/-!
# RunLoop — Guards

The guards that `RunLoop::init` hands out, over the process of `RunLoop.Process`: what
each `init` returns, which `RunLoopGuard`s exist and on which thread, and which
generations were shut down. `init` asks `current_local` for the guard's local after it
has counted the guard, so an error there would leave the count too high; and
`release_guard` decrements without looking at the thread or at the count.

The guards are `!Send`: each is dropped on the thread whose `init` returned it.
-/

namespace Wxp.RunLoop

/-- `run_loop::Error`, as far as `init` returns it. -/
inductive InitError
  | alreadyInitialized
  | notInitialized
  | notRunLoopThread
  deriving DecidableEq, Repr

def Error.toInitError : Error → InitError
  | .notInitialized => .notInitialized
  | .notRunLoopThread => .notRunLoopThread

structure Guarded (ρ : Type) where
  process : Process ρ := {}
  /-- The `RunLoopGuard`s that exist: their thread and the generation of their local. -/
  guards : List (Thread × Gen) := []
  /-- History: what the calls of `init` returned. -/
  results : List (Thread × Except InitError Gen) := []
  /-- History: the instances whose `has_shutdown` was set. -/
  shutdowns : List Gen := []

inductive GuardAct (ρ : Type)
  | init (t : Thread)
  | dropGuard (t : Thread) (g : Gen)
  | advance
  /-- Anything else: posts, calls and the platform run loops. -/
  | process (a : Action ρ)

variable {ρ : Type}

/-- The steps of `init`, of the guards and of `shutdown`. -/
def Action.isLifecycle : Action ρ → Bool
  | .init _ | .dropGuard _ | .advance => true
  | _ => false

/-- `release_guard` up to `shutdown`; `fetch_sub` wraps. -/
def Process.releaseGuard (p : Process ρ) : Process ρ :=
  match p.initCount with
  | 0 => { p with initCount := 2 ^ 64 - 1 }
  | 1 => { p with initCount := 0, initMutex := some .setShutdown }
  | n + 2 => { p with initCount := n + 1 }

namespace Guarded

/-- The end of a successful `init`: the guard is built with `current_local()?`. -/
def finishInit (s : Guarded ρ) (p : Process ρ) (t : Thread) : Guarded ρ :=
  match p.currentLocal t with
  | .ok g =>
      { s with
        process := p, guards := s.guards ++ [(t, g)], results := s.results ++ [(t, .ok g)] }
  | .error e =>
      { s with process := p, results := s.results ++ [(t, .error e.toInitError)] }

/-- `RunLoop::init`; where it initializes, up to the first step of `initialize`. -/
def init (s : Guarded ρ) (t : Thread) : Option (Guarded ρ) :=
  (s.process.init t).map fun p =>
    if s.process.initCount = 0 then
      match s.process.runLoopInstance with
      | some _ => { s with results := s.results ++ [(t, .error .alreadyInitialized)] }
      | none => { s with process := p }
    else if s.process.runLoopThreadId = some t then s.finishInit p t
    else { s with results := s.results ++ [(t, .error .notRunLoopThread)] }

/-- The drop of a guard on its thread. -/
def dropGuard (s : Guarded ρ) (t : Thread) (g : Gen) : Option (Guarded ρ) :=
  if s.process.initMutex.isSome || s.process.busy t then none
  else if (t, g) ∈ s.guards then
    some { s with process := s.process.releaseGuard, guards := s.guards.erase (t, g) }
  else none

/-- The holder of `INIT_MUTEX` goes on. -/
def advance (s : Guarded ρ) : Option (Guarded ρ) :=
  s.process.advance.map fun p =>
    match s.process.initMutex with
    | some (.initCount t _) => s.finishInit p t
    | some .setShutdown =>
        { s with process := p, shutdowns := s.shutdowns ++ s.process.runLoopInstance.toList }
    | _ => { s with process := p }

def step (b : Backend) (s : Guarded ρ) : GuardAct ρ → Option (Guarded ρ)
  | .init t => s.init t
  | .dropGuard t g => s.dropGuard t g
  | .advance => s.advance
  | .process a =>
      if a.isLifecycle then none else (s.process.step b a).map fun p => { s with process := p }

end Guarded

/-- The process with its guards. -/
def guardSystem (ρ : Type) (b : Backend) : System (Guarded ρ) (GuardAct ρ) where
  init := {}
  step := Guarded.step b

namespace Process

/-- A step that leaves alone what `init` and `shutdown` work on. -/
structure SameLifecycle (s s' : Process ρ) : Prop where
  inst : s'.runLoopInstance = s.runLoopInstance := by rfl
  sender : s'.runLoopSender = s.runLoopSender := by rfl
  threadId : s'.runLoopThreadId = s.runLoopThreadId := by rfl
  count : s'.initCount = s.initCount := by rfl
  mutex : s'.initMutex = s.initMutex := by rfl
  nextGen : s'.nextGen = s.nextGen := by rfl
  owner : ∀ g, (s'.gens g).owner = (s.gens g).owner := by intros; rfl
  hasShutdown : ∀ g, (s'.gens g).hasShutdown = (s.gens g).hasShutdown := by intros; rfl

theorem SameStatics.sameLifecycle {s s' : Process ρ} (e : SameStatics s s') :
    SameLifecycle s s' :=
  ⟨e.inst, e.sender, e.threadId, e.count, e.mutex, e.nextGen, e.owner, e.hasShutdown⟩

theorem Step.sameLifecycle {b : Backend} {s s' : Process ρ} {a : Action ρ} (h : Step b s a s')
    (ha : a.isLifecycle = false) : SameLifecycle s s' := by
  cases h with
  | stay | begin | register | op => exact {}
  | newGen | initAgain | dropMore | dropLast | setSender | setThread | setCount | setShutdown
  | noInstance | setToken | takePending | cancel | cancelDead | cancelled | clearThread
  | clearInstance | clearSender => cases ha
  | enqueue o v => exact (((SameStatics.setLoop s _ _).trans {}).sameLifecycle)
  | loopQuiet g a v l => exact (SameStatics.withLoop s g l).sameLifecycle
  | loopStart g a v l c =>
      exact ((SameStatics.withLoop s g l).trans (.startClosure _ _ _)).sameLifecycle
  | loopFinish g a v l c =>
      exact ((SameStatics.withLoop s g l).trans (.finishClosure _ _ _)).sameLifecycle
  | dropLoop g =>
      refine { owner := fun g' => ?_, hasShutdown := fun g' => ?_ } <;>
        by_cases hg : g' = g <;> simp [setGen, hg]

/-- On the thread of a published generation that is not shut down, `current_local`
succeeds. -/
theorem Published.currentLocal {s : Process ρ} {g : Gen} (h : s.Published g)
    (hs : (s.gens g).hasShutdown = false) : s.currentLocal (s.gens g).owner = .ok g := by
  simp [Process.currentLocal, h.threadId, h.inst, hs]

/-! ### Which steps begin a shutdown -/

theorem free_of_init {s p : Process ρ} {t : Thread} (h : s.init t = some p) :
    s.initMutex = none := by
  unfold Process.init at h
  split at h
  · cases h
  · rename_i hfree
    simp only [Bool.or_eq_true, not_or, Bool.not_eq_true, Option.isSome_eq_false_iff,
      Option.isNone_iff_eq_none] at hfree
    exact hfree.1

theorem init_begins_none {s p : Process ρ} {t : Thread} (hm : s.initMutex ≠ some .setShutdown)
    (h : s.init t = some p) : p.initMutex ≠ some .setShutdown := by
  unfold Process.init at h
  split at h
  · cases h
  · split at h
    · split at h
      · cases h
        exact hm
      · cases h
        simp
    · split at h <;> cases h <;> exact hm

theorem advance_begins_none {s p : Process ρ} (h : s.advance = some p) :
    p.initMutex ≠ some .setShutdown := by
  unfold Process.advance at h
  split at h
  case h_4 => split at h <;> cases h <;> simp
  case h_12 => cases h
  all_goals
    cases h
    simp

theorem releaseGuard_begins {s : Process ρ} (hm : s.initMutex = none) :
    s.releaseGuard.initMutex = some .setShutdown ↔ s.initCount = 1 := by
  unfold Process.releaseGuard
  split <;> rename_i hc <;> simp [hm, hc]

end Process

namespace Guarded

theorem finishInit_process (s : Guarded ρ) (p : Process ρ) (t : Thread) :
    (s.finishInit p t).process = p := by
  unfold Guarded.finishInit
  split <;> rfl

theorem finishInit_shutdowns (s : Guarded ρ) (p : Process ρ) (t : Thread) :
    (s.finishInit p t).shutdowns = s.shutdowns := by
  unfold Guarded.finishInit
  split <;> rfl

theorem dropGuard_cases {s s' : Guarded ρ} {t : Thread} {g : Gen}
    (h : s.dropGuard t g = some s') :
    s.process.initMutex = none ∧ s.process.busy t = false ∧ (t, g) ∈ s.guards ∧
      s' = { s with process := s.process.releaseGuard, guards := s.guards.erase (t, g) } := by
  simp only [Guarded.dropGuard, Option.ite_none_left_eq_some, Bool.or_eq_true, not_or,
    Bool.not_eq_true, Option.isSome_eq_false_iff, Option.isNone_iff_eq_none,
    Option.ite_none_right_eq_some, Option.some.injEq] at h
  obtain ⟨⟨hm, hb⟩, hg, rfl⟩ := h
  exact ⟨hm, hb, hg, rfl⟩

theorem process_cases {b : Backend} {s s' : Guarded ρ} {a : Action ρ}
    (h : s.step b (.process a) = some s') :
    a.isLifecycle = false ∧
      ∃ p, s.process.step b a = some p ∧ s' = { s with process := p } := by
  simp only [Guarded.step, Option.ite_none_left_eq_some, Bool.not_eq_true,
    Option.map_eq_some_iff] at h
  obtain ⟨ha, p, hp, rfl⟩ := h
  exact ⟨ha, p, hp, rfl⟩

/-! ## The invariant -/

/-- The count counts the guards, the guards are of the published generation, and a
generation is on the list of shutdowns once if its flag is set. -/
structure Accounted (b : Backend) (s : Guarded ρ) : Prop where
  reachable : (processSystem ρ b).Reachable s.process
  count : s.process.initMutex = none → s.process.initCount = s.guards.length
  busy : s.process.initMutex ≠ none → s.guards = []
  owned : ∀ x ∈ s.guards,
    s.process.runLoopInstance = some x.2 ∧ s.process.runLoopThreadId = some x.1
  sender : s.process.initMutex = none → s.process.initCount = 0 → s.process.runLoopSender = none
  shutdowns : ∀ g, s.shutdowns.count g =
    if g < s.process.nextGen ∧ (s.process.gens g).hasShutdown = true then 1 else 0
  results : ∀ x ∈ s.results, x.2 = .error .notRunLoopThread ∨
    ∃ g, x.2 = .ok g ∧ g < s.process.nextGen ∧ (s.process.gens g).owner = x.1

theorem Accounted.lifecycle {b : Backend} {s : Guarded ρ} (h : s.Accounted b) :
    s.process.Lifecycle :=
  Process.lifecycle_of_reachable h.reachable

/-- While guards exist, their generation is published and not shut down. -/
theorem Accounted.published {b : Backend} {s : Guarded ρ} (h : s.Accounted b)
    (hm : s.process.initMutex = none) (hc : 0 < s.process.initCount) :
    ∃ g, s.process.Published g ∧ (s.process.gens g).hasShutdown = false ∧
      g < s.process.nextGen ∧ ∀ x ∈ s.guards, x = ((s.process.gens g).owner, g) := by
  have hp := h.lifecycle.phase
  simp only [Process.PhaseOk, hm] at hp
  rcases hp with ⟨hz, -⟩ | ⟨-, g, hpub, hs⟩
  · omega
  · refine ⟨g, hpub, hs, h.lifecycle.current g hpub.inst, fun x hx => ?_⟩
    obtain ⟨hi, ht⟩ := h.owned x hx
    exact Prod.ext (Option.some.inj (ht.symm.trans hpub.threadId))
      (Option.some.inj (hi.symm.trans hpub.inst))

/-- What was returned stays so where generations are only added. -/
theorem Accounted.results_mono {b : Backend} {s : Guarded ρ} (h : s.Accounted b) {p : Process ρ}
    (hn : s.process.nextGen ≤ p.nextGen)
    (ho : ∀ g < s.process.nextGen, (p.gens g).owner = (s.process.gens g).owner) :
    ∀ x ∈ s.results, x.2 = .error .notRunLoopThread ∨
      ∃ g, x.2 = .ok g ∧ g < p.nextGen ∧ (p.gens g).owner = x.1 := by
  intro x hx
  rcases h.results x hx with hx | ⟨g, hg, hlt, hgo⟩
  · exact .inl hx
  · exact .inr ⟨g, hg, Nat.lt_of_lt_of_le hlt hn, (ho g hlt).trans hgo⟩

/-- A step that leaves alone what `init` and `shutdown` work on. -/
theorem Accounted.same {b : Backend} {s : Guarded ρ} (h : s.Accounted b) {p : Process ρ}
    (hr : (processSystem ρ b).Reachable p) (e : Process.SameLifecycle s.process p)
    {results : List (Thread × Except InitError Gen)}
    (hres : ∀ x ∈ results, x ∈ s.results ∨ x.2 = .error .notRunLoopThread) :
    Accounted b { s with process := p, results := results } where
  reachable := hr
  count hm := e.count.trans (h.count (e.mutex.symm.trans hm))
  busy hm := h.busy fun hn => hm (e.mutex.trans hn)
  owned x hx := by
    rw [e.inst, e.threadId]
    exact h.owned x hx
  sender hm hc := e.sender.trans (h.sender (e.mutex.symm.trans hm) (e.count.symm.trans hc))
  shutdowns g := by
    rw [e.nextGen, e.hasShutdown]
    exact h.shutdowns g
  results x hx := by
    rcases hres x hx with hx | hx
    · exact h.results_mono (Nat.le_of_eq e.nextGen.symm) (fun g _ => e.owner g) x hx
    · exact .inl hx

/-- A guard is built: `current_local` succeeds. -/
theorem Accounted.finishInit {b : Backend} {s : Guarded ρ} (h : s.Accounted b) {p : Process ρ}
    {t : Thread} {g : Gen} (hr : (processSystem ρ b).Reachable p)
    (hpub : p.Published g) (hs : (p.gens g).hasShutdown = false) (ht : (p.gens g).owner = t)
    (hm : p.initMutex = none) (hc : p.initCount = s.guards.length + 1)
    (hi : p.runLoopInstance = s.process.runLoopInstance)
    (hid : s.guards ≠ [] → p.runLoopThreadId = s.process.runLoopThreadId)
    (hn : p.nextGen = s.process.nextGen) (hg : p.gens = s.process.gens) :
    (s.finishInit p t).Accounted b := by
  have hlocal : p.currentLocal t = .ok g := ht ▸ hpub.currentLocal hs
  have hlt : g < p.nextGen := (Process.lifecycle_of_reachable hr).current g hpub.inst
  simp only [Guarded.finishInit, hlocal]
  exact {
    reachable := hr
    count := fun _ => by simp [hc]
    busy := fun hb => absurd hm hb
    owned := fun x hx => by
      rcases List.mem_append.1 hx with hx | hx
      · rw [hi, hid (List.ne_nil_of_mem hx)]
        exact h.owned x hx
      · rw [List.mem_singleton.1 hx]
        exact ⟨hpub.inst, ht ▸ hpub.threadId⟩
    sender := fun _ hz => by simp [hc] at hz
    shutdowns := fun k => by
      rw [hn, hg]
      exact h.shutdowns k
    results := fun x hx => by
      rcases List.mem_append.1 hx with hx | hx
      · rw [hn, hg]
        exact h.results x hx
      · rw [List.mem_singleton.1 hx]
        exact .inr ⟨g, rfl, hlt, ht⟩ }

theorem Accounted.init {b : Backend} {s s' : Guarded ρ} (h : s.Accounted b) {t : Thread}
    (hst : s.init t = some s') : s'.Accounted b := by
  obtain ⟨p, hp, rfl⟩ := Option.map_eq_some_iff.1 hst
  have hr : (processSystem ρ b).Reachable p := h.reachable.next (a := .init t) hp
  have hphase := h.lifecycle.phase
  have hm : s.process.initMutex = none := Process.free_of_init hp
  unfold Process.init at hp
  split at hp
  · cases hp
  · simp only [Process.PhaseOk, hm] at hphase
    by_cases hc : s.process.initCount = 0
    · have hnil : s.guards = [] := List.eq_nil_of_length_eq_zero ((h.count hm).symm.trans hc)
      have hinst : s.process.runLoopInstance = none := by
        rcases hphase with hz | hz
        · exact hz.2.1
        · omega
      simp only [hc, hinst, if_true, Option.some.injEq] at hp
      subst hp
      simp only [hc, hinst, if_true]
      refine ⟨hr, fun hz => absurd hz (Option.some_ne_none _), fun _ => hnil, ?_,
        fun hz => absurd hz (Option.some_ne_none _), ?_, ?_⟩
      · simp [hnil]
      · -- the new generation is not on the list
        intro g
        have hold := h.shutdowns g
        by_cases hg : g = s.process.nextGen
        · subst hg
          simpa using hold
        · have hlt : g < s.process.nextGen + 1 ↔ g < s.process.nextGen :=
            Nat.lt_succ_iff_lt_or_eq.trans (or_iff_left hg)
          simpa [hg, hlt] using hold
      · exact h.results_mono (Nat.le_succ _) fun g hlt => by simp [Nat.ne_of_lt hlt]
    · obtain ⟨g, hpub, hs, -, -⟩ := h.published hm (Nat.pos_of_ne_zero hc)
      simp only [hc, if_false] at hp ⊢
      split at hp
      · rename_i ht
        cases hp
        rw [if_pos ht]
        have ho : (s.process.gens g).owner = t := by
          rw [hpub.threadId] at ht
          exact Option.some.inj ht
        exact h.finishInit hr ⟨hpub.inst, hpub.sender, hpub.threadId⟩ hs ho hm
          (congrArg (· + 1) (h.count hm)) rfl (fun _ => rfl) rfl rfl
      · rename_i ht
        cases hp
        rw [if_neg ht]
        refine h.same (p := s.process) h.reachable {} fun x hx => ?_
        rcases List.mem_append.1 hx with hx | hx
        · exact .inl hx
        · rw [List.mem_singleton.1 hx]
          exact .inr rfl

/-- A step inside the critical section, where no guard exists. -/
theorem Accounted.inside {b : Backend} {s : Guarded ρ} (h : s.Accounted b) {p : Process ρ}
    (hr : (processSystem ρ b).Reachable p) (hnil : s.guards = []) (hm : p.initMutex ≠ none)
    (hn : p.nextGen = s.process.nextGen)
    (hs : ∀ g, (p.gens g).hasShutdown = (s.process.gens g).hasShutdown)
    (ho : ∀ g, (p.gens g).owner = (s.process.gens g).owner) :
    Accounted b { s with process := p } where
  reachable := hr
  count hz := absurd hz hm
  busy _ := hnil
  owned := by simp [hnil]
  sender hz := absurd hz hm
  shutdowns g := by
    rw [hn, hs]
    exact h.shutdowns g
  results := h.results_mono (Nat.le_of_eq hn.symm) fun g _ => ho g

/-- `shutdown` sets the flag of the instance. -/
theorem Accounted.setShutdown {b : Backend} {s : Guarded ρ} (h : s.Accounted b)
    {p : Process ρ} {g : Gen} (hr : (processSystem ρ b).Reachable p) (hnil : s.guards = [])
    (hm : p.initMutex ≠ none) (hn : p.nextGen = s.process.nextGen)
    (hinst : s.process.runLoopInstance = some g)
    (hold : (s.process.gens g).hasShutdown = false) (hset : (p.gens g).hasShutdown = true)
    (hs : ∀ k, k ≠ g → (p.gens k).hasShutdown = (s.process.gens k).hasShutdown)
    (ho : ∀ k, (p.gens k).owner = (s.process.gens k).owner) :
    Accounted b { s with
      process := p, shutdowns := s.shutdowns ++ s.process.runLoopInstance.toList } where
  reachable := hr
  count hz := absurd hz hm
  busy _ := hnil
  owned := by simp [hnil]
  sender hz := absurd hz hm
  shutdowns k := by
    have hlt : g < s.process.nextGen := h.lifecycle.current g hinst
    have hcount := h.shutdowns k
    -- the flag was not set, so the generation was not on the list
    by_cases hk : k = g
    · subst hk
      simpa [hinst, hn, hlt, hold, hset, List.count_append] using hcount
    · simpa [hinst, hn, hs k hk, Ne.symm hk, List.count_append, List.count_singleton]
        using hcount
  results := h.results_mono (Nat.le_of_eq hn.symm) fun k _ => ho k

theorem Accounted.advance {b : Backend} {s s' : Guarded ρ} (h : s.Accounted b)
    (hst : s.advance = some s') : s'.Accounted b := by
  obtain ⟨p, hp, rfl⟩ := Option.map_eq_some_iff.1 hst
  have hr : (processSystem ρ b).Reachable p := h.reachable.next (a := .advance) hp
  have hphase := h.lifecycle.phase
  have hcount := h.lifecycle.count
  unfold Process.advance at hp
  cases hm : s.process.initMutex with
  | none =>
      rw [hm] at hp
      cases hp
  | some m =>
      have hnil : s.guards = [] := h.busy (by simp [hm])
      have hzero : s.process.initCount = 0 := hcount (by simp [hm])
      simp only [Process.PhaseOk, hm] at hphase
      cases m with
      | initSender t g | initThread t g =>
          simp only [hm, Option.some.injEq] at hp
          subst hp
          exact h.inside hr hnil (Option.some_ne_none _) rfl (fun _ => rfl) fun _ => rfl
      | initCount t g =>
          simp only [hm, Option.some.injEq] at hp
          subst hp
          obtain ⟨⟨hi, hsd, ht⟩, ho, hs⟩ := hphase
          exact h.finishInit hr ⟨hi, hsd, ht⟩ hs ho rfl (by simp [hnil]) rfl
            (fun hne => absurd hnil hne) rfl rfl
      | setShutdown =>
          obtain ⟨g, hpub, hs⟩ := hphase
          simp only [hm, hpub.inst, Option.some.injEq] at hp
          subst hp
          refine h.setShutdown hr hnil (Option.some_ne_none _) rfl hpub.inst hs ?_ (fun k hk => ?_)
            fun k => ?_
          · simp [Process.setGen]
          · simp [Process.setGen, hk]
          · by_cases hk : k = g <;> simp [Process.setGen, hk]
      | setToken g =>
          simp only [hm, Option.some.injEq] at hp
          subst hp
          refine h.inside hr hnil (Option.some_ne_none _) rfl (fun k => ?_) fun k => ?_ <;>
            by_cases hk : k = g <;> simp [Process.setGen, hk]
      | takePending g =>
          simp only [hm, Option.some.injEq] at hp
          subst hp
          exact h.inside hr hnil (Option.some_ne_none _) rfl (fun _ => rfl) fun _ => rfl
      | cancel g os =>
          cases os with
          | nil =>
              simp only [hm, Option.some.injEq] at hp
              subst hp
              exact h.inside hr hnil (Option.some_ne_none _) rfl (fun _ => rfl) fun _ => rfl
          | cons o os =>
              simp only [hm, Option.some.injEq] at hp
              subst hp
              refine h.inside hr hnil (Option.some_ne_none _) ?_ (fun k => ?_) fun k => ?_ <;>
                split <;> rfl
      | clearThread | clearInstance =>
          simp only [hm, Option.some.injEq] at hp
          subst hp
          exact h.inside hr hnil (Option.some_ne_none _) rfl (fun _ => rfl) fun _ => rfl
      | clearSender =>
          simp only [hm, Option.some.injEq] at hp
          subst hp
          refine ⟨hr, fun _ => ?_, fun hz => absurd rfl hz, ?_, fun _ _ => rfl, h.shutdowns,
            h.results⟩
          · simpa [hnil] using hzero
          · simp [hnil]

/-- The thread of a guard owns the run loop, so its drop is a step of the process. -/
theorem Accounted.releaseGuard {b : Backend} {s : Guarded ρ} (h : s.Accounted b) {t : Thread}
    {g : Gen} (hm : s.process.initMutex = none) (hb : s.process.busy t = false)
    (hg : (t, g) ∈ s.guards) : s.process.dropGuard t = some s.process.releaseGuard := by
  have ht : s.process.runLoopThreadId = some t := (h.owned _ hg).2
  have hc : s.process.initCount = s.guards.length := h.count hm
  have hpos : 0 < s.guards.length := List.length_pos_of_mem hg
  unfold Process.dropGuard Process.releaseGuard
  rw [if_neg (by simp [hm, hb, ht])]
  cases hn : s.process.initCount with
  | zero => omega
  | succ n =>
      cases n with
      | zero => rfl
      | succ n => rfl

theorem Accounted.dropGuard {b : Backend} {s s' : Guarded ρ} (h : s.Accounted b) {t : Thread}
    {g : Gen} (hst : s.dropGuard t g = some s') : s'.Accounted b := by
  obtain ⟨hm, hb, hg, rfl⟩ := dropGuard_cases hst
  have hr : (processSystem ρ b).Reachable s.process.releaseGuard :=
    h.reachable.next (a := .dropGuard t) (h.releaseGuard hm hb hg)
  have hc : s.process.initCount = s.guards.length := h.count hm
  have hlen : (s.guards.erase (t, g)).length = s.guards.length - 1 := List.length_erase_of_mem hg
  have howned : ∀ x ∈ s.guards.erase (t, g),
      s.process.runLoopInstance = some x.2 ∧ s.process.runLoopThreadId = some x.1 :=
    fun x hx => h.owned x (List.mem_of_mem_erase hx)
  unfold Process.releaseGuard at hr ⊢
  split
  · rename_i hz
    rw [hc] at hz
    rw [List.eq_nil_of_length_eq_zero hz] at hg
    cases hg
  · rename_i h1
    have hnil : s.guards.erase (t, g) = [] := List.eq_nil_of_length_eq_zero (by omega)
    rw [h1] at hr
    exact ⟨hr, nofun, fun _ => hnil, howned, nofun, h.shutdowns, h.results⟩
  · rename_i n hn
    rw [hn] at hr
    refine ⟨hr, fun _ => ?_, fun hz => absurd hm hz, howned, fun _ hz => ?_, h.shutdowns,
      h.results⟩
    · have hleft : n + 1 = (s.guards.erase (t, g)).length := by omega
      exact hleft
    · cases hz

theorem Accounted.step {b : Backend} {s s' : Guarded ρ} {a : GuardAct ρ} (h : s.Accounted b)
    (hst : s.step b a = some s') : s'.Accounted b := by
  cases a with
  | init t => exact h.init hst
  | dropGuard t g => exact h.dropGuard hst
  | advance => exact h.advance hst
  | process a =>
      obtain ⟨ha, p, hp, rfl⟩ := process_cases hst
      exact h.same (h.reachable.next (a := a) hp)
        ((Process.step_cases hp).sameLifecycle ha) fun x hx => .inl hx

theorem accounted_of_reachable {b : Backend} {s : Guarded ρ}
    (h : (guardSystem ρ b).Reachable s) : s.Accounted b := by
  refine h.invariant (I := Accounted b) ?_ fun _ _ _ _ hi hst => hi.step hst
  exact ⟨.init, fun _ => rfl, fun _ => rfl, nofun, fun _ _ => rfl, fun g => rfl, nofun⟩

/-! ## What it says -/

/-- The three statics show one generation, that of every guard, on the thread of every
guard; or they are empty. -/
def StaticsAgree (s : Guarded ρ) : Prop :=
  if 0 < s.process.initCount then
    ∃ g, s.process.Published g ∧ ∀ x ∈ s.guards, x = ((s.process.gens g).owner, g)
  else
    s.process.runLoopInstance = none ∧ s.process.runLoopSender = none ∧
      s.process.runLoopThreadId = none

theorem Accounted.staticsAgree {b : Backend} {s : Guarded ρ} (h : s.Accounted b)
    (hm : s.process.initMutex = none) : s.StaticsAgree := by
  unfold StaticsAgree
  split
  · rename_i hc
    obtain ⟨g, hpub, -, -, hall⟩ := h.published hm hc
    exact ⟨g, hpub, hall⟩
  · rename_i hc
    have hz : s.process.initCount = 0 := Nat.eq_zero_of_not_pos hc
    have hp := h.lifecycle.phase
    simp only [Process.PhaseOk, hm] at hp
    rcases hp with ⟨-, hi, ht⟩ | ⟨hpos, -⟩
    · exact ⟨hi, h.sender hm hz, ht⟩
    · exact absurd hpos hc

/-- Outside of the critical sections a generation was shut down once, or it has guards
and was not. -/
theorem Accounted.shutdowns_eq {b : Backend} {s : Guarded ρ} (h : s.Accounted b)
    (hm : s.process.initMutex = none) {g : Gen} (hg : g < s.process.nextGen) :
    s.shutdowns.count g = if g ∈ s.guards.map (·.2) then 0 else 1 := by
  rw [h.shutdowns g]
  split
  · rename_i hs
    rw [if_neg]
    intro hmem
    obtain ⟨x, hx, rfl⟩ := List.mem_map.1 hmem
    have hc : 0 < s.process.initCount := by
      rw [h.count hm]
      exact List.length_pos_of_mem hx
    obtain ⟨k, -, hk, -, hall⟩ := h.published hm hc
    rw [hall x hx, hk] at hs
    cases hs.2
  · rename_i hs
    rw [if_pos]
    have hinst : s.process.runLoopInstance = some g := by
      by_contra hne
      exact hs ⟨hg, h.lifecycle.token g (h.lifecycle.past g hg hne)⟩
    have hagree := h.staticsAgree hm
    unfold StaticsAgree at hagree
    split at hagree
    · rename_i hc
      obtain ⟨k, hpub, hall⟩ := hagree
      rw [hpub.inst, Option.some.injEq] at hinst
      rw [h.count hm] at hc
      obtain ⟨x, hx⟩ := List.exists_mem_of_length_pos hc
      exact List.mem_map.2 ⟨x, hx, by rw [hall x hx, hinst]⟩
    · rw [hagree.1] at hinst
      cases hinst

/-- While a generation is live, `init` on another thread reports it and does nothing. -/
theorem Accounted.init_elsewhere {b : Backend} {s s' : Guarded ρ} (h : s.Accounted b)
    {t : Thread} (hc : 0 < s.process.initCount) (ht : ∀ x ∈ s.guards, x.1 ≠ t)
    (hst : s.init t = some s') :
    s' = { s with results := s.results ++ [(t, .error .notRunLoopThread)] } := by
  obtain ⟨p, hp, rfl⟩ := Option.map_eq_some_iff.1 hst
  have hm : s.process.initMutex = none := Process.free_of_init hp
  obtain ⟨g, hpub, -, -, hall⟩ := h.published hm hc
  have hid : s.process.runLoopThreadId ≠ some t := by
    intro hid
    rw [h.count hm] at hc
    obtain ⟨x, hx⟩ := List.exists_mem_of_length_pos hc
    refine ht x hx ?_
    rw [hall x hx]
    exact Option.some.inj (hpub.threadId.symm.trans hid)
  rw [if_neg (Nat.ne_of_gt hc), if_neg hid]

/-- `shutdown` is begun by the drop of the only guard there is, and by nothing else. -/
theorem Accounted.begins_shutdown {b : Backend} {s s' : Guarded ρ} {a : GuardAct ρ}
    (h : s.Accounted b) (hm : s.process.initMutex ≠ some .setShutdown)
    (hst : s.step b a = some s') :
    s'.process.initMutex = some .setShutdown ↔
      ∃ t g, a = .dropGuard t g ∧ s.guards = [(t, g)] := by
  cases a with
  | init t =>
      refine ⟨fun hs => ?_, fun ⟨_, _, ha, _⟩ => nomatch ha⟩
      obtain ⟨p, hp, rfl⟩ := Option.map_eq_some_iff.1 hst
      have hne : p.initMutex ≠ some .setShutdown := Process.init_begins_none hm hp
      split at hs
      · split at hs
        · exact absurd hs hm
        · exact absurd hs hne
      · split at hs
        · rw [finishInit_process] at hs
          exact absurd hs hne
        · exact absurd hs hm
  | advance =>
      refine ⟨fun hs => ?_, fun ⟨_, _, ha, _⟩ => nomatch ha⟩
      obtain ⟨p, hp, rfl⟩ := Option.map_eq_some_iff.1 hst
      have hne : p.initMutex ≠ some .setShutdown := Process.advance_begins_none hp
      split at hs
      · rw [finishInit_process] at hs
        exact absurd hs hne
      · exact absurd hs hne
      · exact absurd hs hne
  | process a =>
      refine ⟨fun hs => ?_, fun ⟨_, _, ha, _⟩ => nomatch ha⟩
      obtain ⟨ha, p, hp, rfl⟩ := process_cases hst
      exact absurd (((Process.step_cases hp).sameLifecycle ha).mutex.symm.trans hs) hm
  | dropGuard t g =>
      obtain ⟨hfree, hb, hg, rfl⟩ := dropGuard_cases hst
      have hc : s.process.initCount = s.guards.length := h.count hfree
      have hbegin : s.process.releaseGuard.initMutex = some .setShutdown ↔ s.guards.length = 1 :=
        hc ▸ Process.releaseGuard_begins hfree
      refine hbegin.trans ⟨fun hlen => ⟨t, g, rfl, ?_⟩, ?_⟩
      · obtain ⟨x, hx⟩ := List.length_eq_one_iff.1 hlen
        rw [hx, List.mem_singleton] at hg
        rw [hx, hg]
      · rintro ⟨t', g', -, hguards⟩
        rw [hguards]
        rfl

/-- The drop of the only guard sets the flag of its generation. -/
theorem Accounted.dropGuard_last {b : Backend} {s s' : Guarded ρ} (h : s.Accounted b)
    {t : Thread} {g : Gen} (hst : s.dropGuard t g = some s') (hg : s.guards = [(t, g)]) :
    ∃ s'', s'.advance = some s'' ∧ s''.shutdowns = s.shutdowns ++ [g] := by
  obtain ⟨hm, -, hmem, rfl⟩ := dropGuard_cases hst
  have hc : s.process.initCount = 1 := by rw [h.count hm, hg]; rfl
  have hinst : s.process.runLoopInstance = some g := (h.owned _ hmem).1
  simp [Guarded.advance, Process.advance, Process.releaseGuard, hc, hinst]

/-- Only `shutdown` sets the flag. -/
theorem shutdowns_of_step {b : Backend} {s s' : Guarded ρ} {a : GuardAct ρ}
    (hst : s.step b a = some s') :
    s'.shutdowns = s.shutdowns ∨ a = .advance ∧ s.process.initMutex = some .setShutdown := by
  cases a with
  | init t =>
      obtain ⟨p, -, rfl⟩ := Option.map_eq_some_iff.1 hst
      refine .inl ?_
      split
      · split <;> rfl
      · split
        · exact finishInit_shutdowns s p t
        · rfl
  | advance =>
      obtain ⟨p, -, rfl⟩ := Option.map_eq_some_iff.1 hst
      cases hm : s.process.initMutex with
      | none => exact .inl rfl
      | some m =>
          cases m with
          | initCount t g => exact .inl (finishInit_shutdowns s p t)
          | setShutdown => exact .inr ⟨rfl, rfl⟩
          | _ => exact .inl rfl
  | process a =>
      obtain ⟨-, p, -, rfl⟩ := process_cases hst
      exact .inl rfl
  | dropGuard t g =>
      obtain ⟨-, -, -, rfl⟩ := dropGuard_cases hst
      exact .inl rfl

/-- In every interleaving of `init` and of drops of guards: outside of the critical
sections `INIT_COUNT` counts the guards, the statics agree, and a generation without a
guard was shut down exactly once; `init` fails only off the run loop thread, and then
changes nothing; and the drop of the last guard, nothing else, shuts its generation down. -/
theorem guards_account (b : Backend) {s : Guarded ρ} (h : (guardSystem ρ b).Reachable s) :
    (s.process.initMutex = none →
      s.process.initCount = s.guards.length ∧ s.StaticsAgree ∧
      ∀ g < s.process.nextGen, s.shutdowns.count g = if g ∈ s.guards.map (·.2) then 0 else 1) ∧
    (∀ x ∈ s.results, x.2 = .error .notRunLoopThread ∨
      ∃ g, x.2 = .ok g ∧ (s.process.gens g).owner = x.1) ∧
    (∀ t s', s.init t = some s' → 0 < s.process.initCount → (∀ x ∈ s.guards, x.1 ≠ t) →
      s' = { s with results := s.results ++ [(t, .error .notRunLoopThread)] }) ∧
    (∀ a s', s.step b a = some s' → s.process.initMutex ≠ some .setShutdown →
      s'.shutdowns = s.shutdowns ∧
      (s'.process.initMutex = some .setShutdown ↔
        ∃ t g, a = .dropGuard t g ∧ s.guards = [(t, g)])) ∧
    ∀ t g s', s.dropGuard t g = some s' → s.guards = [(t, g)] →
      ∃ s'', s'.advance = some s'' ∧ s''.shutdowns = s.shutdowns ++ [g] := by
  have hacc : s.Accounted b := accounted_of_reachable h
  refine ⟨fun hm => ⟨hacc.count hm, hacc.staticsAgree hm, fun g => hacc.shutdowns_eq hm⟩,
    fun x hx => ?_, fun t s' hst hc ht => hacc.init_elsewhere hc ht hst,
    fun a s' hst hm => ⟨?_, hacc.begins_shutdown hm hst⟩,
    fun t g s' hst hg => hacc.dropGuard_last hst hg⟩
  · rcases hacc.results x hx with hx | ⟨g, hg, -, ho⟩
    · exact .inl hx
    · exact .inr ⟨g, hg, ho⟩
  · rcases shutdowns_of_step hst with hs | ⟨-, hs⟩
    · exact hs
    · exact absurd hs hm

end Guarded

/-- Thread 0 takes two guards while thread 1 is refused, and gives both back; then
thread 1 takes one. -/
def guardRun : List (GuardAct Nat) :=
  [.init 0, .advance, .advance, .advance, .init 0, .init 1, .dropGuard 0 0, .dropGuard 0 0,
    .advance, .advance, .advance, .advance, .advance, .advance, .advance,
    .init 1, .advance, .advance, .advance]

theorem guards_account_reinit : ∃ s : Guarded Nat,
    s.process.initMutex = none ∧ s.process.initCount = 1 ∧ s.guards = [(1, 1)] ∧
    s.results = [(0, .ok 0), (0, .ok 0), (1, .error .notRunLoopThread), (1, .ok 1)] ∧
    s.StaticsAgree ∧ s.shutdowns.count 0 = 1 ∧ s.shutdowns.count 1 = 0 := by
  have hrun : ((guardSystem Nat .android).run {} guardRun).map (fun s =>
      decide (s.process.initMutex = none) && decide (s.process.nextGen = 2) &&
      decide (s.guards = [(1, 1)]) &&
      decide (s.results =
        [(0, .ok 0), (0, .ok 0), (1, .error .notRunLoopThread), (1, .ok 1)])) =
      some true := by decide
  obtain ⟨s, hs, hp⟩ := System.exists_reachable _ _ hrun
  simp only [Bool.and_eq_true, decide_eq_true_eq] at hp
  obtain ⟨⟨⟨hm, hn⟩, hg⟩, hr⟩ := hp
  obtain ⟨hc, hagree, hdown⟩ := (Guarded.guards_account .android hs).1 hm
  refine ⟨s, hm, ?_, hg, hr, hagree, ?_, ?_⟩
  · rw [hc, hg]
    rfl
  · rw [hdown 0 (by simp [hn]), hg]
    rfl
  · rw [hdown 1 (by simp [hn]), hg]
    rfl

end Wxp.RunLoop
