import Wxp.RunLoop.Transitions

/-!
# RunLoop — Lifecycle

What the statics of the process say about its generations at every point of
`init` and `shutdown` (`Lifecycle`): one generation is published at a time, its
owner is the run loop thread, and every other generation has both its flags set.
-/

namespace Wxp.RunLoop

variable {ρ : Type}

namespace Process

/-- The three statics show generation `g`. -/
structure Published (s : Process ρ) (g : Gen) : Prop where
  inst : s.runLoopInstance = some g
  sender : s.runLoopSender = some g
  threadId : s.runLoopThreadId = some (s.gens g).owner

/-- What the statics hold, by the point the holder of `INIT_MUTEX` has reached. -/
def PhaseOk (s : Process ρ) : Prop :=
  match s.initMutex with
  | none =>
      (s.initCount = 0 ∧ s.runLoopInstance = none ∧ s.runLoopThreadId = none) ∨
      (0 < s.initCount ∧ ∃ g, s.Published g ∧ (s.gens g).hasShutdown = false)
  | some (.initSender t g) =>
      s.runLoopInstance = some g ∧ s.runLoopThreadId = none ∧
        (s.gens g).owner = t ∧ (s.gens g).hasShutdown = false
  | some (.initThread t g) =>
      s.runLoopInstance = some g ∧ s.runLoopSender = some g ∧ s.runLoopThreadId = none ∧
        (s.gens g).owner = t ∧ (s.gens g).hasShutdown = false
  | some (.initCount t g) =>
      s.Published g ∧ (s.gens g).owner = t ∧ (s.gens g).hasShutdown = false
  | some .setShutdown => ∃ g, s.Published g ∧ (s.gens g).hasShutdown = false
  | some (.setToken g) => s.Published g ∧ (s.gens g).hasShutdown = true
  | some (.takePending g) | some (.cancel g _) =>
      s.Published g ∧ (s.gens g).shutdownToken = true
  | some .clearThread => ∃ g, s.Published g ∧ (s.gens g).shutdownToken = true
  | some .clearInstance =>
      (∃ g, s.runLoopInstance = some g ∧ (s.gens g).shutdownToken = true) ∧
        s.runLoopThreadId = none
  | some .clearSender => s.runLoopInstance = none ∧ s.runLoopThreadId = none

structure Lifecycle (s : Process ρ) : Prop where
  phase : s.PhaseOk
  count : s.initMutex ≠ none → s.initCount = 0
  current : ∀ g, s.runLoopInstance = some g → g < s.nextGen
  sender : ∀ g, s.runLoopSender = some g → g < s.nextGen
  past : ∀ g, g < s.nextGen → s.runLoopInstance ≠ some g → (s.gens g).shutdownToken = true
  token : ∀ g, (s.gens g).shutdownToken = true → (s.gens g).hasShutdown = true
  dropped : ∀ g, (s.gens g).dropped = true → s.runLoopInstance ≠ some g

/-- A step that leaves the statics and the flags of the generations alone. -/
structure SameStatics (s s' : Process ρ) : Prop where
  inst : s'.runLoopInstance = s.runLoopInstance := by rfl
  sender : s'.runLoopSender = s.runLoopSender := by rfl
  threadId : s'.runLoopThreadId = s.runLoopThreadId := by rfl
  count : s'.initCount = s.initCount := by rfl
  mutex : s'.initMutex = s.initMutex := by rfl
  nextGen : s'.nextGen = s.nextGen := by rfl
  owner : ∀ g, (s'.gens g).owner = (s.gens g).owner := by intros; rfl
  hasShutdown : ∀ g, (s'.gens g).hasShutdown = (s.gens g).hasShutdown := by intros; rfl
  token : ∀ g, (s'.gens g).shutdownToken = (s.gens g).shutdownToken := by intros; rfl
  dropped : ∀ g, (s'.gens g).dropped = (s.gens g).dropped := by intros; rfl

theorem Published.congr {s s' : Process ρ} (hi : s'.runLoopInstance = s.runLoopInstance)
    (hs : s'.runLoopSender = s.runLoopSender) (ht : s'.runLoopThreadId = s.runLoopThreadId)
    (ho : ∀ g, (s'.gens g).owner = (s.gens g).owner) (g : Gen) :
    s'.Published g ↔ s.Published g :=
  ⟨fun ⟨h1, h2, h3⟩ => ⟨by rw [← hi, h1], by rw [← hs, h2], by rw [← ht, ← ho, h3]⟩,
    fun ⟨h1, h2, h3⟩ => ⟨by rw [hi, h1], by rw [hs, h2], by rw [ht, ho, h3]⟩⟩

/-- `PhaseOk` reads the statics and three fields of the generations. -/
theorem PhaseOk.congr {s s' : Process ρ} (hp : s.PhaseOk)
    (hi : s'.runLoopInstance = s.runLoopInstance) (hs : s'.runLoopSender = s.runLoopSender)
    (ht : s'.runLoopThreadId = s.runLoopThreadId) (hc : s'.initCount = s.initCount)
    (hm : s'.initMutex = s.initMutex) (ho : ∀ g, (s'.gens g).owner = (s.gens g).owner)
    (hh : ∀ g, (s'.gens g).hasShutdown = (s.gens g).hasShutdown)
    (hk : ∀ g, (s'.gens g).shutdownToken = (s.gens g).shutdownToken) : s'.PhaseOk := by
  unfold PhaseOk at hp ⊢
  simpa only [hm, hc, hi, hs, ht, ho, hh, hk, Published.congr hi hs ht ho] using hp

theorem Lifecycle.congr {s s' : Process ρ} (h : s.Lifecycle) (e : SameStatics s s') :
    s'.Lifecycle where
  phase := h.phase.congr e.inst e.sender e.threadId e.count e.mutex e.owner e.hasShutdown e.token
  count := by rw [e.mutex, e.count]; exact h.count
  current g hg := by rw [e.nextGen]; exact h.current g (by rw [← e.inst, hg])
  sender g hg := by rw [e.nextGen]; exact h.sender g (by rw [← e.sender, hg])
  past g hg hi := by
    rw [e.token]
    exact h.past g (by rwa [← e.nextGen]) (by rwa [← e.inst])
  token g hg := by
    rw [e.hasShutdown]
    exact h.token g (by rwa [← e.token])
  dropped g hg := by
    rw [e.inst]
    exact h.dropped g (by rwa [← e.dropped])

/-- Replacing the loop of a generation keeps the flags. -/
theorem SameStatics.setLoop (s : Process ρ) (g : Gen) (l : Loop Closure TimerId) :
    SameStatics s (s.setGen g { s.gens g with loop := l }) where
  owner g' := by by_cases h : g' = g <;> simp [setGen, h]
  hasShutdown g' := by by_cases h : g' = g <;> simp [setGen, h]
  token g' := by by_cases h : g' = g <;> simp [setGen, h]
  dropped g' := by by_cases h : g' = g <;> simp [setGen, h]

theorem SameStatics.trans {s s' s'' : Process ρ} (h : SameStatics s s')
    (h' : SameStatics s' s'') : SameStatics s s'' where
  inst := h'.inst.trans h.inst
  sender := h'.sender.trans h.sender
  threadId := h'.threadId.trans h.threadId
  count := h'.count.trans h.count
  mutex := h'.mutex.trans h.mutex
  nextGen := h'.nextGen.trans h.nextGen
  owner g := (h'.owner g).trans (h.owner g)
  hasShutdown g := (h'.hasShutdown g).trans (h.hasShutdown g)
  token g := (h'.token g).trans (h.token g)
  dropped g := (h'.dropped g).trans (h.dropped g)

theorem SameStatics.withLoop (s : Process ρ) (g : Gen) (l : Loop Closure TimerId) :
    SameStatics s (s.withLoop g l) :=
  (SameStatics.setLoop s g l).trans {}

theorem SameStatics.startClosure (s : Process ρ) (t : Thread) (c : Closure) :
    SameStatics s (s.startClosure t c) := by
  cases c with
  | op o => simp only [Process.startClosure]; split <;> exact {}
  | wake n => exact {}

theorem SameStatics.finishClosure (s : Process ρ) (v : ρ) (c : Closure) :
    SameStatics s (s.finishClosure v c) := by
  cases c <;> exact {}

/-! ## What it says -/

/-- The calls the next cancellation will reach: those `shutdown` has taken out
of `PENDING_CALLS`, or the list itself while it is to be taken. -/
def awaiting (s : Process ρ) : List OpId :=
  match s.initMutex with
  | some (.cancel _ os) => os
  | some .clearThread | some .clearInstance | some .clearSender => []
  | _ => s.pendingCalls

/-- `shutdown` has taken the list out of `PENDING_CALLS`. -/
def taken (s : Process ρ) : Bool :=
  match s.initMutex with
  | some (.cancel _ _) | some .clearThread | some .clearInstance | some .clearSender => true
  | _ => false

theorem awaiting_of_not_taken {s : Process ρ} (h : s.taken = false) :
    s.awaiting = s.pendingCalls := by
  unfold taken at h
  unfold awaiting
  split at h <;> simp_all

theorem Lifecycle.owner {s : Process ρ} (h : s.Lifecycle) {t : Thread} {g : Gen}
    (ht : s.runLoopThreadId = some t) (hi : s.runLoopInstance = some g) :
    (s.gens g).owner = t := by
  have hp := h.phase
  unfold PhaseOk at hp
  grind [Published]

/-- A generation whose token is not set is in the instance. -/
theorem Lifecycle.unset {s : Process ρ} (h : s.Lifecycle) {g : Gen} (hg : g < s.nextGen)
    (ht : (s.gens g).shutdownToken = false) : s.runLoopInstance = some g := by
  by_contra hi
  rw [h.past g hg hi] at ht
  cases ht

theorem Lifecycle.unset_of_hasShutdown {s : Process ρ} (h : s.Lifecycle) {g : Gen}
    (ht : (s.gens g).hasShutdown = false) : (s.gens g).shutdownToken = false := by
  cases hk : (s.gens g).shutdownToken with
  | false => rfl
  | true => rw [h.token g hk] at ht; cases ht

/-- Once the list is taken every token is set. -/
theorem Lifecycle.token_of_taken {s : Process ρ} (h : s.Lifecycle) (ht : s.taken = true) {g : Gen}
    (hg : g < s.nextGen) : (s.gens g).shutdownToken = true := by
  have hp := h.phase
  have hpast := h.past g hg
  unfold PhaseOk at hp
  unfold taken at ht
  grind [Published]

/-! ## Every step keeps the lifecycle -/

/-- A step of `init` or `shutdown` that changes no generation. -/
theorem Lifecycle.of_gens {s s' : Process ρ} (h : s.Lifecycle) (hg : s'.gens = s.gens)
    (hn : s'.nextGen = s.nextGen) (hi : s'.runLoopInstance = s.runLoopInstance)
    (hs : ∀ g, s'.runLoopSender = some g → g < s.nextGen)
    (hc : s'.initMutex ≠ none → s'.initCount = 0) (hp : s'.PhaseOk) : s'.Lifecycle where
  phase := hp
  count := hc
  current g := by rw [hi, hn]; exact h.current g
  sender g := by rw [hn]; exact hs g
  past g := by rw [hg, hn, hi]; exact h.past g
  token g := by rw [hg]; exact h.token g
  dropped g := by rw [hg, hi]; exact h.dropped g

theorem Lifecycle.newGen {s : Process ρ} (h : s.Lifecycle) (t : Thread)
    (hi : s.runLoopInstance = none) (hm : s.initMutex = none) (hc : s.initCount = 0) :
    Lifecycle { s with
      gens := Function.update s.gens s.nextGen { owner := t }
      nextGen := s.nextGen + 1
      runLoopInstance := some s.nextGen
      initMutex := some (.initSender t s.nextGen) } where
  phase := by
    have hp := h.phase
    simp only [PhaseOk, hm, hc, Nat.lt_irrefl, false_and, or_false] at hp
    simp [PhaseOk, hp.2.2]
  count _ := hc
  current g hg := by
    obtain rfl : s.nextGen = g := by simpa using hg
    exact Nat.lt_succ_self _
  sender g hg := Nat.lt_succ_of_lt (h.sender g hg)
  past g hg hne := by
    have hgn : g ≠ s.nextGen := fun he => hne (by simp [he])
    have hlt : g < s.nextGen := Nat.lt_of_le_of_ne (Nat.le_of_lt_succ hg) hgn
    simpa [hgn] using h.past g hlt (by simp [hi])
  token g := by
    by_cases hgn : g = s.nextGen
    · simp [hgn]
    · simpa [hgn] using h.token g
  dropped g hg := by
    by_cases hgn : g = s.nextGen
    · simp [hgn] at hg
    · exact fun he => hgn (by simpa using he.symm)

/-- Setting flags of the generation in the instance. -/
theorem Lifecycle.setFlags {s : Process ρ} (h : s.Lifecycle) (hm : s.initMutex ≠ none) {g : Gen}
    (hi : s.runLoopInstance = some g) {i : RunLoopInner} (hd : i.dropped = (s.gens g).dropped)
    (htok : i.shutdownToken = true → i.hasShutdown = true) {m : Transition}
    (hp : PhaseOk { s.setGen g i with initMutex := some m }) :
    Lifecycle { s.setGen g i with initMutex := some m } where
  phase := hp
  count _ := h.count hm
  current := h.current
  sender := h.sender
  past g' hg' hne := by
    have hgg : g' ≠ g := fun he => hne (by simp [setGen, hi, he])
    simpa [setGen, hgg] using h.past g' hg' hne
  token g' := by
    by_cases hgg : g' = g
    · simpa [setGen, hgg] using htok
    · simpa [setGen, hgg] using h.token g'
  dropped g' hg' := by
    by_cases hgg : g' = g
    · subst hgg
      exact h.dropped g' (by simpa [setGen, hd] using hg')
    · exact h.dropped g' (by simpa [setGen, hgg] using hg')

theorem Lifecycle.dropLoop {s : Process ρ} (h : s.Lifecycle) {g : Gen} (hg : g < s.nextGen)
    (hi : s.runLoopInstance ≠ some g) (l : Loop Closure TimerId) :
    Lifecycle (s.setGen g { s.gens g with dropped := true, loop := l }) where
  phase := by
    refine h.phase.congr rfl rfl rfl rfl rfl ?_ ?_ ?_ <;> intro g' <;>
      by_cases hgg : g' = g <;> simp [setGen, hgg]
  count := h.count
  current := h.current
  sender := h.sender
  past g' hg' hne := by
    by_cases hgg : g' = g
    · simpa [setGen, hgg] using h.past g hg hi
    · simpa [setGen, hgg] using h.past g' hg' hne
  token g' := by
    by_cases hgg : g' = g
    · simpa [setGen, hgg] using h.token g
    · simpa [setGen, hgg] using h.token g'
  dropped g' hg' := by
    by_cases hgg : g' = g
    · exact hgg ▸ hi
    · exact h.dropped g' (by simpa [setGen, hgg] using hg')

/-- **Every step keeps the lifecycle.** -/
theorem Lifecycle.step {b : Backend} {s s' : Process ρ} {a : Action ρ} (h : s.Lifecycle)
    (hst : Step b s a s') : s'.Lifecycle := by
  have hp := h.phase
  cases hst with
  | stay => exact h
  | newGen t hm hc hi _ => exact h.newGen t hi hm hc
  | initAgain t hm hc =>
      refine h.of_gens rfl rfl rfl h.sender (fun hn => absurd hm hn) ?_
      simp only [PhaseOk, hm] at hp ⊢
      rcases hp with hp | hp
      · exact absurd hp.1 (Nat.ne_of_gt hc)
      · exact .inr ⟨Nat.succ_pos _, hp.2.imp fun g ⟨⟨h1, h2, h3⟩, h4⟩ => ⟨⟨h1, h2, h3⟩, h4⟩⟩
  | dropMore t n hm hc =>
      refine h.of_gens rfl rfl rfl h.sender (fun hn => absurd hm hn) ?_
      simp only [PhaseOk, hm, hc] at hp ⊢
      rcases hp with hp | hp
      · exact absurd hp.1 (Nat.succ_ne_zero _)
      · exact .inr ⟨Nat.succ_pos _, hp.2.imp fun g ⟨⟨h1, h2, h3⟩, h4⟩ => ⟨⟨h1, h2, h3⟩, h4⟩⟩
  | dropLast t hm hc =>
      refine h.of_gens rfl rfl rfl h.sender (fun _ => rfl) ?_
      simp only [PhaseOk, hm, hc] at hp ⊢
      rcases hp with hp | hp
      · exact absurd hp.1 (Nat.succ_ne_zero _)
      · exact hp.2.imp fun g ⟨⟨h1, h2, h3⟩, h4⟩ => ⟨⟨h1, h2, h3⟩, h4⟩
  | setSender t g hm =>
      simp only [PhaseOk, hm] at hp
      refine h.of_gens rfl rfl rfl (fun g' hg' => ?_) (fun _ => h.count (by simp [hm]))
        ⟨hp.1, rfl, hp.2⟩
      obtain rfl : g = g' := by simpa using hg'
      exact h.current g hp.1
  | setThread t g hm =>
      simp only [PhaseOk, hm] at hp
      exact h.of_gens rfl rfl rfl h.sender (fun _ => h.count (by simp [hm]))
        ⟨⟨hp.1, hp.2.1, by rw [hp.2.2.2.1]⟩, hp.2.2.2⟩
  | setCount t g hm =>
      simp only [PhaseOk, hm] at hp
      obtain ⟨⟨h1, h2, h3⟩, _, h4⟩ := hp
      exact h.of_gens rfl rfl rfl h.sender (by simp) (.inr ⟨Nat.one_pos, g, ⟨h1, h2, h3⟩, h4⟩)
  | setShutdown g hm hi =>
      simp only [PhaseOk, hm] at hp
      obtain ⟨g', ⟨h1, h2, h3⟩, h4⟩ := hp
      obtain rfl : g' = g := by simpa [hi] using h1.symm
      refine h.setFlags (by simp [hm]) hi ?_ ?_ ?_
      · rfl
      · simp
      · exact ⟨⟨h1, h2, by simp [setGen, h3]⟩, by simp [setGen]⟩
  | noInstance hm hi =>
      simp only [PhaseOk, hm] at hp
      obtain ⟨g, hpub, _⟩ := hp
      cases hi.symm.trans hpub.inst
  | setToken g hm =>
      simp only [PhaseOk, hm] at hp
      obtain ⟨⟨h1, h2, h3⟩, h4⟩ := hp
      refine h.setFlags (by simp [hm]) h1 ?_ ?_ ?_
      · rfl
      · exact fun _ => h4
      · exact ⟨⟨h1, h2, by simp [setGen, h3]⟩, by simp [setGen]⟩
  | takePending g hm | cancelDead g o os hm _ =>
      simp only [PhaseOk, hm] at hp
      obtain ⟨⟨h1, h2, h3⟩, h4⟩ := hp
      exact h.of_gens rfl rfl rfl h.sender (fun _ => h.count (by simp [hm])) ⟨⟨h1, h2, h3⟩, h4⟩
  | cancel g o os hm =>
      simp only [PhaseOk, hm] at hp
      obtain ⟨⟨h1, h2, h3⟩, h4⟩ := hp
      exact h.of_gens rfl rfl rfl h.sender (fun _ => h.count (by simp [hm])) ⟨⟨h1, h2, h3⟩, h4⟩
  | cancelled g hm =>
      simp only [PhaseOk, hm] at hp
      obtain ⟨⟨h1, h2, h3⟩, h4⟩ := hp
      exact h.of_gens rfl rfl rfl h.sender (fun _ => h.count (by simp [hm]))
        ⟨g, ⟨h1, h2, h3⟩, h4⟩
  | clearThread hm =>
      simp only [PhaseOk, hm] at hp
      obtain ⟨g, hpub, h4⟩ := hp
      exact h.of_gens rfl rfl rfl h.sender (fun _ => h.count (by simp [hm]))
        ⟨⟨g, hpub.inst, h4⟩, rfl⟩
  | clearInstance hm =>
      simp only [PhaseOk, hm] at hp
      obtain ⟨⟨g, hi, htok⟩, ht⟩ := hp
      exact {
        phase := ⟨rfl, ht⟩
        count := fun _ => h.count (by simp [hm])
        current := fun g hg => by simp at hg
        sender := h.sender
        past := fun g' hg' _ => by
          by_cases hgg : g' = g
          · exact hgg ▸ htok
          · exact h.past g' hg' (by simpa [hi, eq_comm] using hgg)
        token := h.token
        dropped := fun g' _ => by simp }
  | clearSender hm =>
      simp only [PhaseOk, hm] at hp
      exact h.of_gens rfl rfl rfl (fun g hg => by simp at hg) (by simp)
        (.inl ⟨h.count (by simp [hm]), hp⟩)
  | begin k t hi => exact h.congr {}
  | register o hpc hk => exact h.congr {}
  | op a o p handed hop hh => exact h.congr {}
  | enqueue o v hpc hd => exact h.congr ((SameStatics.setLoop s _ _).trans {})
  | loopQuiet g a v l => exact h.congr (.withLoop s g l)
  | loopStart g a v l c =>
      exact h.congr ((SameStatics.withLoop s g l).trans (.startClosure _ _ _))
  | loopFinish g a v l c =>
      exact h.congr ((SameStatics.withLoop s g l).trans (.finishClosure _ _ _))
  | dropLoop g hg hi _ => exact h.dropLoop hg hi _

theorem lifecycle_of_reachable {b : Backend} {s : Process ρ}
    (h : (processSystem ρ b).Reachable s) : s.Lifecycle :=
  System.Reachable.invariant
    { phase := .inl ⟨rfl, rfl, rfl⟩
      count := fun _ => rfl
      current := fun g hg => by cases hg
      sender := fun g hg => by cases hg
      past := fun g hg => absurd hg (Nat.not_lt_zero g)
      token := fun g hg => by cases hg
      dropped := fun g hg => by cases hg }
    (fun _ _ _ _ hi hst => hi.step (step_cases hst)) h

end Process

end Wxp.RunLoop
