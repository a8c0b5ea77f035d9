import Wxp.RunLoop.Futures
import Wxp.RunLoop.Posted

/-!
# RunLoop — Stranding

Where the registration and the timer of a pending future are, in runs that abandon none
(`DelayOk`). The closure that a step of the process starts and the timer that it fires are
accounted for by the second half of the step, `DelayProcess.follow`.

Result: `delay_never_stranded`.
-/

namespace Wxp.RunLoop

variable {ρ : Type}

namespace DelayProcess

variable {b : Backend} {s : DelayProcess ρ} {o : OpId} {d : Delay} {g : Gen}
  {start : Option Closure} {fire : Option TimerId}

/-! ## The invariant -/

/-- The registration or the timer of the future is in generation `g`, or the step that is being
made has started the one or fired the other. -/
def HeldIn (s : DelayProcess ρ) (start : Option Closure) (fire : Option TimerId) (o : OpId)
    (g : Gen) : Prop :=
  s.HeldBy o g ∨ (start = some (.op o) ∧ (s.process.ops o).current = some (.ok g)) ∨
    ∃ t, fire = some t ∧ s.timers t = some o

/-- What holds of the future of operation `o`. -/
structure DelayOk (s : DelayProcess ρ) (start : Option Closure) (fire : Option TimerId)
    (o : OpId) (d : Delay) : Prop where
  begun : o < s.process.nextOp
  kind : (s.process.ops o).kind = .post
  gen : Process.underway (s.process.ops o).pc = true →
    (s.process.ops o).gen < s.process.nextGen
  held : (s.process.ops o).pc = .enqueued ∨ (s.process.ops o).pc = .returned .posted →
    d.completed = false → (s.process.gens (s.process.ops o).gen).hasShutdown = false →
    s.HeldIn start fire o (s.process.ops o).gen
  live : (s.process.ops o).pc = .returned .posted → d.ended = false → d.completed = false →
    (s.process.gens (s.process.ops o).gen).hasShutdown = false
  woken : d.completed = true → d.waker ∈ d.woken ∧ (d.ended = false → d.polled = d.waker)

structure Sound (s : DelayProcess ρ) (start : Option Closure) (fire : Option TimerId) :
    Prop where
  process : s.process.Sound
  distinct : ∀ g, (s.process.gens g).loop.Distinct
  fresh : ∀ t, s.nextTimer ≤ t → s.timers t = none
  delays : ∀ o d, s.delays o = some d → s.DelayOk start fire o d

/-! ## A step of the process -/

section Process

variable {a : Action ρ} {p : Process ρ}

theorem distinct_step (hd : ∀ g, (s.process.gens g).loop.Distinct)
    (hst : Process.Step b s.process a p) (g : Gen) : (p.gens g).loop.Distinct := by
  have hg := hd g
  cases hst.loopChange g with
  | same he => exact he ▸ hg
  | push c he => exact he ▸ ⟨hg.nodup, hg.fresh⟩
  | step act v _ hstep => exact hg.step hstep
  | discard _ _ he => exact he ▸ ⟨hg.nodup, hg.fresh⟩
  | new _ he => exact he ▸ .empty

/-- The step of a run loop that starts a callback or fires a timer is one of its thread. -/
theorem onRunLoopThread_of_starting {l : Loop Closure TimerId} {act : Act Closure TimerId}
    {c : Closure} (h : l.starting act = some c) : act.onRunLoopThread = true := by
  cases act <;> first | rfl | cases h

/-- What a step of the process does to the registration and the timer. -/
theorem HeldBy.step (h : s.Sound none none) (hst : s.process.step b a = some p)
    (hallow : s.allows a = true) (hg : g < s.process.nextGen)
    (hlive : (p.gens g).hasShutdown = false) (hheld : s.HeldBy o g) (n : TimerId) :
    HeldIn { s with process := p, nextTimer := n } (s.process.starting a) (s.process.firing a)
      o g := by
  have hstep := Process.step_cases hst
  have hi := hstep.instance_of_live h.process.lifecycle hg hlive
  have hs := hstep.hasShutdown_of hg hlive
  cases hstep.loopChange g with
  | same he =>
      left
      simpa [HeldBy, he] using hheld
  | push c he =>
      left
      simp only [HeldBy, he]
      refine hheld.imp (fun hu => ?_) id
      exact (Loop.unstarted_push _ c).mem_iff.2 (List.mem_cons_of_mem _ hu)
  | discard _ hne => exact absurd hi hne
  | new hnew => exact absurd hg (by simp [hnew])
  | step act v ha hloop =>
      subst ha
      simp only [allows, Bool.and_eq_true, Bool.not_eq_true', Bool.and_eq_false_iff] at hallow
      rcases hheld with hu | ⟨t, ht, hto⟩
      · rcases hloop.keeps_callback hu with hu | hstart
        · exact .inl (.inl hu)
        -- the closure has left the queue, and `current_local` gives it its own generation
        · have hthread := onRunLoopThread_of_starting hstart
          have hinit := hallow.1.resolve_left (by simp [hthread])
          have hlocal := h.process.lifecycle.currentLocal_owner hg hs hinit
          exact .inr (.inl ⟨hstart, Process.current_of_starting hst hstart hlocal⟩)
      · have hkeep : ∀ k, act = .unschedule k →
            ((s.process.gens g).loop.state.timers.lookup k).map (·.callback) ≠ some t := by
          rintro k hk hmap
          obtain ⟨timer, hlook, rfl⟩ := Option.map_eq_some_iff.1 hmap
          simp [hk, hlook, hto] at hallow
        rcases hloop.keeps_timer (h.distinct g) ht hkeep with ht | hfire
        · exact .inl (.inr ⟨t, ht, hto⟩)
        · exact .inr (.inr ⟨t, hfire, hto⟩)

/-- The step does not shut down the generation of a pending future. -/
theorem live_step (hst : Process.Step b s.process a p) (hok : s.abandons (.process a) = false)
    (hdelay : s.delays o = some d) (ho : o < s.process.nextOp) (hg : g < s.process.nextGen)
    (hgen : (s.process.ops o).gen = g) (hpc : (s.process.ops o).pc = .returned .posted)
    (he : d.ended = false) (hc : d.completed = false)
    (hs : (s.process.gens g).hasShutdown = false) : (p.gens g).hasShutdown = false := by
  rcases hst.hasShutdown_cases hg with hsame | ⟨-, hdown⟩
  · rw [hsame, hs]
  · simp only [abandons, hdown, Bool.or_eq_false_iff, List.any_eq_false] at hok
    have hawait := hok.1.1 o (List.mem_range.2 ho)
    simp [awaits, hdelay, he, hc, hpc, hgen, Pc.posted] at hawait

/-- `post` returns `Ok` to a future only while its generation is not shut down. -/
theorem live_of_posted (hst : s.process.step b a = some p)
    (hok : s.abandons (.process a) = false) (hdelay : s.delays o = some d)
    (ho : o < s.process.nextOp) (hg : (s.process.ops o).gen < s.process.nextGen)
    (hpc : (s.process.ops o).pc = .enqueued) (hpc' : (p.ops o).pc = .returned .posted)
    (hc : d.completed = false) : (p.gens (s.process.ops o).gen).hasShutdown = false := by
  obtain ⟨rfl, ht⟩ := Process.token_of_posted hst ho hpc hpc'
  have hs : (s.process.gens (s.process.ops o).gen).hasShutdown = false := by
    simp only [abandons, Bool.or_eq_false_iff] at hok
    simpa [postsLate, hdelay, hpc, hc, ht] using hok.1.2
  rcases (Process.step_cases hst).hasShutdown_cases hg with hsame | ⟨-, hdown⟩
  · rw [hsame, hs]
  · cases hdown

/-- A `post` that has a sender has one of a generation that exists. -/
theorem gen_step (hst : Process.Step b s.process a p) (hd : s.DelayOk none none o d)
    (hpost : Process.PostStep s.process p o) (hu : Process.underway (p.ops o).pc = true) :
    (p.ops o).gen < p.nextGen := by
  refine Nat.lt_of_lt_of_le ?_ hst.nextGen_le
  cases hpost with
  | same hpc hgen =>
      rw [hgen]
      exact hd.gen (hpc ▸ hu)
  | sender _ hg => exact hg
  | check hpc _ hgen | enqueue hpc _ hgen | posted hpc _ hgen =>
      rw [hgen]
      exact hd.gen (by rw [hpc]; rfl)
  | aside ha => cases ha.symm.trans hu

/-- What was held before the step is held after it, or accounted for. -/
theorem DelayOk.held_step (h : s.Sound none none) (hst : s.process.step b a = some p)
    (hallow : s.allows a = true) (hd : s.DelayOk none none o d)
    (hpc : (s.process.ops o).pc = .enqueued ∨ (s.process.ops o).pc = .returned .posted)
    (hc : d.completed = false) (hlive : (p.gens (s.process.ops o).gen).hasShutdown = false)
    (n : TimerId) :
    HeldIn { s with process := p, nextTimer := n } (s.process.starting a) (s.process.firing a)
      o (s.process.ops o).gen := by
  have hg := hd.gen (by rcases hpc with hpc | hpc <;> rw [hpc] <;> rfl)
  have hs := (Process.step_cases hst).hasShutdown_of hg hlive
  rcases hd.held hpc hc hs with hheld | ⟨hstart, -⟩ | ⟨t, hfire, -⟩
  · exact hheld.step h hst hallow hg hlive n
  · cases hstart
  · cases hfire

theorem DelayOk.process (h : s.Sound none none) (hst : s.process.step b a = some p)
    (hallow : s.allows a = true) (hok : s.abandons (.process a) = false)
    (hdelay : s.delays o = some d) (n : TimerId) :
    DelayOk { s with process := p, nextTimer := n } (s.process.starting a) (s.process.firing a)
      o d := by
  have hd := h.delays o d hdelay
  have hstep := Process.step_cases hst
  obtain ⟨hkind, hpost⟩ := hstep.post_cases h.process hd.begun hd.kind
  have hheld : (p.ops o).pc = .enqueued ∨ (p.ops o).pc = .returned .posted →
      d.completed = false → (p.gens (p.ops o).gen).hasShutdown = false →
      HeldIn { s with process := p, nextTimer := n } (s.process.starting a) (s.process.firing a)
        o (p.ops o).gen := by
    intro hpc' hc hlive
    cases hpost with
    | same hpc hgen =>
        rw [hgen] at hlive ⊢
        exact hd.held_step h hst hallow (hpc ▸ hpc') hc hlive n
    | posted hpc _ hgen =>
        rw [hgen] at hlive ⊢
        exact hd.held_step h hst hallow (.inl hpc) hc hlive n
    | enqueue hpc _ hgen hq =>
        rw [hgen] at hlive ⊢
        rcases hq with hq | hdrop
        · exact .inl (.inl hq)
        -- a queue that was dropped is not that of a live generation
        · have hi := hstep.instance_of_live h.process.lifecycle
            (hd.gen (by rw [hpc]; rfl)) hlive
          exact absurd hi (h.process.lifecycle.dropped _ hdrop)
    | sender he | check _ he => rcases hpc' with hpc' | hpc' <;> cases he.symm.trans hpc'
    | aside ha => rcases hpc' with hpc' | hpc' <;> rw [hpc'] at ha <;> cases ha
  have hlive : (p.ops o).pc = .returned .posted → d.ended = false → d.completed = false →
      (p.gens (p.ops o).gen).hasShutdown = false := by
    intro hpc' he hc
    cases hpost with
    | same hpc hgen =>
        rw [hpc] at hpc'
        rw [hgen]
        exact live_step hstep hok hdelay hd.begun (hd.gen (by rw [hpc']; rfl)) rfl hpc' he hc
          (hd.live hpc' he hc)
    | posted hpc _ hgen =>
        rw [hgen]
        exact live_of_posted hst hok hdelay hd.begun (hd.gen (by rw [hpc]; rfl)) hpc hpc' hc
    | sender hpc | check _ hpc | enqueue _ hpc => cases hpc.symm.trans hpc'
    | aside ha =>
        rw [hpc'] at ha
        cases ha
  exact ⟨Nat.lt_of_lt_of_le hd.begun hstep.nextOp_le, hkind, gen_step hstep hd hpost, hheld,
    hlive, hd.woken⟩

theorem Sound.process_step (h : s.Sound none none) (hst : s.process.step b a = some p)
    (hallow : s.allows a = true) (hok : s.abandons (.process a) = false) {n : TimerId}
    (hn : s.nextTimer ≤ n) :
    Sound { s with process := p, nextTimer := n } (s.process.starting a)
      (s.process.firing a) where
  process := h.process.step (Process.step_cases hst)
  distinct := distinct_step h.distinct (Process.step_cases hst)
  fresh t ht := h.fresh t (Nat.le_trans hn ht)
  delays _ _ hdelay := DelayOk.process h hst hallow hok hdelay n

end Process

/-! ## The callbacks of the futures -/

theorem setDelay_delays (s : DelayProcess ρ) (o o' : OpId) (d : Delay) :
    (s.setDelay o d).delays o' = if o' = o then some d else s.delays o' := by
  by_cases hoo : o' = o <;> simp [setDelay, hoo]

/-- The timer that fires belongs to a future or to the program. -/
theorem complete_cases (s : DelayProcess ρ) (t : TimerId) :
    (∃ o d, s.timers t = some o ∧ s.delays o = some d ∧ s.complete t =
      s.setDelay o { d with completed := true, woken := d.woken ++ [d.waker] }) ∨
    ((∀ o, s.timers t = some o → s.delays o = none) ∧ s.complete t = s) := by
  unfold complete
  split
  · rename_i o ht
    split
    · rename_i d hd
      exact .inl ⟨o, d, ht, hd, rfl⟩
    · rename_i hd
      refine .inr ⟨fun o' ht' => ?_, rfl⟩
      rwa [← Option.some.inj (ht.symm.trans ht')]
  · rename_i ht
    refine .inr ⟨fun o ht' => ?_, rfl⟩
    cases ht.symm.trans ht'

/-- Another timer has fired. -/
theorem DelayOk.not_fired {t : TimerId} (hd : s.DelayOk start (some t) o d)
    (hne : s.timers t ≠ some o) : s.DelayOk start none o d where
  begun := hd.begun
  kind := hd.kind
  gen := hd.gen
  held hpc hc hlive := by
    rcases hd.held hpc hc hlive with hheld | hstart | ⟨t', hfire, hto⟩
    · exact .inl hheld
    · exact .inr (.inl hstart)
    · cases hfire
      exact absurd hto hne
  live := hd.live
  woken := hd.woken

theorem Sound.complete {t : TimerId} (h : s.Sound start (some t))
    (hw : s.wakesAnother t = false) : (s.complete t).Sound start none := by
  rcases complete_cases s t with ⟨o, d, ht, hd, he⟩ | ⟨hnone, he⟩
  · rw [he]
    refine ⟨h.process, h.distinct, h.fresh, fun o' d' hdelay => ?_⟩
    rw [setDelay_delays] at hdelay
    split at hdelay
    · rename_i hoo
      subst hoo
      cases hdelay
      have hok := h.delays o' d hd
      have hpolled : d.ended = false → d.polled = d.waker := fun hended => by
        simpa [wakesAnother, ht, hd, hended] using hw
      exact ⟨hok.begun, hok.kind, hok.gen, by simp, by simp, fun _ => ⟨by simp, hpolled⟩⟩
    · rename_i hoo
      have hok := (h.delays o' d' hdelay).not_fired fun hto =>
        hoo (Option.some.inj (hto.symm.trans ht))
      exact ⟨hok.begun, hok.kind, hok.gen, hok.held, hok.live, hok.woken⟩
  · rw [he]
    refine ⟨h.process, h.distinct, h.fresh, fun o d hdelay => ?_⟩
    refine (h.delays o d hdelay).not_fired fun hto => ?_
    cases (hnone o hto).symm.trans hdelay

/-- The closure that starts is not that of a future which waits for its registration. -/
theorem DelayOk.not_started (hd : s.DelayOk start none o d)
    (hne : start = some (.op o) →
      (s.process.ops o).current ≠ some (.ok (s.process.ops o).gen)) :
    s.DelayOk none none o d where
  begun := hd.begun
  kind := hd.kind
  gen := hd.gen
  held hpc hc hlive := by
    rcases hd.held hpc hc hlive with hheld | ⟨hstart, hcurrent⟩ | ⟨t, hfire, -⟩
    · exact .inl hheld
    · exact absurd hcurrent (hne hstart)
    · cases hfire
  live := hd.live
  woken := hd.woken

theorem register_cases (s : DelayProcess ρ) (b : Backend) (o : OpId) :
    (∃ d g, s.delays o = some d ∧ (s.process.ops o).current = some (.ok g) ∧ s.register b o =
      { s with
        process := s.process.schedule b g d.duration s.nextTimer
        timers := Function.update s.timers s.nextTimer (some o)
        nextTimer := s.nextTimer + 1 }) ∨
    ((∀ d g, s.delays o = some d → (s.process.ops o).current ≠ some (.ok g)) ∧
      s.register b o = s) := by
  unfold register
  split
  · rename_i d g hd hc
    exact .inl ⟨d, g, hd, hc, rfl⟩
  · rename_i hne
    exact .inr ⟨fun d g hd hc => hne d g hd hc, rfl⟩

/-! ## A registration -/

variable {p : Process ρ}

theorem schedule_unstarted (p : Process ρ) (g g' : Gen) (inTime : Nat) (t : TimerId) :
    ((p.schedule b g inTime t).gens g').loop.unstarted = (p.gens g').loop.unstarted := by
  rw [Process.schedule, Process.withLoop_loop]
  split
  · rename_i hgg
    rw [hgg]
    rfl
  · rfl

theorem schedule_pendingTimers (p : Process ρ) (g g' : Gen) (inTime : Nat) (t u : TimerId) :
    u ∈ ((p.schedule b g inTime t).gens g').loop.pendingTimers ↔
      u ∈ (p.gens g').loop.pendingTimers ∨ (g' = g ∧ u = t) := by
  rw [Process.schedule, Process.withLoop_loop]
  split
  · rename_i hgg
    subst hgg
    simp only [Loop.pendingTimers, State.schedule, List.map_append, List.mem_append, List.map_cons,
      List.map_nil, List.mem_singleton, Loop.parkedTimers, true_and]
    tauto
  · rename_i hgg
    simp [hgg]

theorem schedule_sound (hp : p.Sound) (g : Gen) (inTime : Nat) (t : TimerId) :
    (p.schedule b g inTime t).Sound :=
  have hw := hp.wf g
  hp.withLoop ⟨hw.nodup, hw.accepted, hw.started⟩ fun _ => ⟨Iff.rfl, Iff.rfl, Iff.rfl⟩

theorem schedule_distinct (hd : ∀ g, (p.gens g).loop.Distinct) (g g' : Gen) (inTime : Nat)
    (t : TimerId) : ((p.schedule b g inTime t).gens g').loop.Distinct := by
  rw [Process.schedule, Process.withLoop_loop]
  split
  · exact (hd g).schedule b inTime t
  · exact hd g'

/-- The closure of operation `o` registers the timer in the generation it was given. -/
theorem HeldIn.register {o' : OpId} {g' : Gen} {inTime : Nat}
    (hfresh : ∀ t, s.nextTimer ≤ t → s.timers t = none)
    (hcurrent : (s.process.ops o).current = some (.ok g))
    (hheld : s.HeldIn (some (.op o)) none o' g') :
    HeldBy { s with
      process := s.process.schedule b g inTime s.nextTimer
      timers := Function.update s.timers s.nextTimer (some o)
      nextTimer := s.nextTimer + 1 } o' g' := by
  rcases hheld with (hu | ⟨t, ht, hto⟩) | ⟨hstart, hcurrent'⟩ | ⟨t, hfire, -⟩
  · left
    rwa [schedule_unstarted]
  -- the timers of the other futures have older names
  · have hne : t ≠ s.nextTimer := by
      rintro rfl
      cases hto.symm.trans (hfresh _ (Nat.le_refl _))
    refine .inr ⟨t, (schedule_pendingTimers ..).2 (.inl ht), ?_⟩
    exact (Function.update_of_ne hne _ _).trans hto
  · obtain rfl : o = o' := by simpa using hstart
    obtain rfl : g = g' := by simpa using hcurrent.symm.trans hcurrent'
    exact .inr ⟨s.nextTimer, (schedule_pendingTimers ..).2 (.inr ⟨rfl, rfl⟩),
      Function.update_self _ _ _⟩
  · cases hfire

theorem Sound.register (h : s.Sound (some (.op o)) none) :
    (s.register b o).Sound none none := by
  rcases register_cases s b o with ⟨d, g, hd, hcurrent, he⟩ | ⟨hnone, he⟩
  · rw [he]
    refine ⟨schedule_sound h.process g _ _, fun g' => schedule_distinct h.distinct g g' _ _, ?_,
      fun o' d' hdelay => ?_⟩
    · intro t ht
      have hne : t ≠ s.nextTimer := Nat.ne_of_gt ht
      exact (Function.update_of_ne hne _ _).trans (h.fresh t (Nat.le_of_succ_le ht))
    · have hok := h.delays o' d' hdelay
      have e : Process.SameStatics s.process (s.process.schedule b g d.duration s.nextTimer) :=
        .withLoop _ _ _
      refine ⟨hok.begun, hok.kind, hok.gen, fun hpc hc hlive => ?_, fun hpc hended hc => ?_,
        hok.woken⟩
      · rw [e.hasShutdown] at hlive
        exact .inl (HeldIn.register h.fresh hcurrent (hok.held hpc hc hlive))
      · exact (e.hasShutdown _).trans (hok.live hpc hended hc)
  · rw [he]
    refine ⟨h.process, h.distinct, h.fresh, fun o' d' hdelay => ?_⟩
    refine (h.delays o' d' hdelay).not_started fun hstart => ?_
    obtain rfl : o = o' := by simpa using hstart
    exact hnone d' _ hdelay

theorem Sound.completeFired (h : s.Sound start fire)
    (hw : ∀ t, fire = some t → s.wakesAnother t = false) :
    (s.completeFired fire).Sound start none := by
  cases fire with
  | none => exact h
  | some t => exact h.complete (hw t rfl)

theorem Sound.registerStarted (h : s.Sound start none) :
    (s.registerStarted b start).Sound none none := by
  have hother : (∀ o, start ≠ some (.op o)) → s.Sound none none := fun hne =>
    ⟨h.process, h.distinct, h.fresh, fun o d hdelay =>
      (h.delays o d hdelay).not_started fun hs => absurd hs (hne o)⟩
  rcases start with _ | (o | n)
  · exact hother (by simp)
  · exact h.register
  · exact hother (by simp)

/-- **A step of the process, with what the callbacks of the futures do in it, keeps the
invariant.** -/
theorem Sound.follow {a : Action ρ} (h : s.Sound none none) (hst : s.process.step b a = some p)
    (hallow : s.allows a = true) (hok : s.abandons (.process a) = false) :
    (s.follow b a p).Sound none none := by
  refine ((h.process_step hst hallow hok ?_).completeFired fun t hfire => ?_).registerStarted
  · split
    · exact Nat.le_succ _
    · exact Nat.le_refl _
  · simp only [abandons, hfire, Bool.or_eq_false_iff] at hok
    exact hok.2

/-! ## Polls -/

/-- The begin of another operation. -/
theorem DelayOk.frame {s' : DelayProcess ρ} (hd : s.DelayOk start fire o d)
    (ho : s'.process.ops o = s.process.ops o) (hop : s.process.nextOp ≤ s'.process.nextOp)
    (hn : s'.process.nextGen = s.process.nextGen) (hg : s'.process.gens = s.process.gens)
    (ht : s'.timers = s.timers) : s'.DelayOk start fire o d where
  begun := Nat.lt_of_lt_of_le hd.begun hop
  kind := by rw [ho, hd.kind]
  gen := by rw [ho, hn]; exact hd.gen
  held := by
    unfold HeldIn HeldBy
    rw [ho, hg, ht]
    exact hd.held
  live := by rw [ho, hg]; exact hd.live
  woken := hd.woken

/-- The first poll of a future begins its `post`. -/
theorem Sound.poll {duration : Nat} {t : Thread} {w : WakerId} {s' : DelayProcess ρ}
    (h : s.Sound none none) (hst : s.poll duration t w = some s') : s'.Sound none none := by
  obtain ⟨p, hp, rfl⟩ := Option.map_eq_some_iff.1 hst
  simp only [Process.begin, Option.ite_none_left_eq_some, Option.some.injEq] at hp
  obtain ⟨-, rfl⟩ := hp
  refine ⟨h.process.begin .post t, h.distinct, h.fresh, fun o d hdelay => ?_⟩
  rw [setDelay_delays] at hdelay
  split at hdelay
  · rename_i hoo
    subst hoo
    cases hdelay
    constructor <;> simp [DelayProcess.setDelay, Process.setOp, Process.underway]
  · rename_i hoo
    exact (h.delays o d hdelay).frame (Function.update_of_ne hoo _ _) (Nat.le_succ _) rfl rfl rfl

/-- A later poll, or the drop, of a pending future. -/
theorem Sound.setDelay {d' : Delay} (h : s.Sound none none) (hd : s.delays o = some d)
    (hc : d'.completed = d.completed)
    (hended : d'.ended = false → d.ended = false ∧ (d.completed = true → d'.polled = d.polled))
    (hw : d'.waker = d.waker) (hwoken : d'.woken = d.woken) :
    (s.setDelay o d').Sound none none := by
  refine ⟨h.process, h.distinct, h.fresh, fun o' d'' hdelay => ?_⟩
  rw [setDelay_delays] at hdelay
  split at hdelay
  · rename_i hoo
    subst hoo
    cases hdelay
    have hok := h.delays o' d hd
    refine ⟨hok.begun, hok.kind, hok.gen, fun hpc hcom => hok.held hpc (hc ▸ hcom),
      fun hpc he hcom => hok.live hpc (hended he).1 (hc ▸ hcom), fun hcom => ?_⟩
    rw [hc] at hcom
    rw [hw, hwoken]
    obtain ⟨hmem, hpolled⟩ := hok.woken hcom
    exact ⟨hmem, fun he => ((hended he).2 hcom).trans (hpolled (hended he).1)⟩
  · have hok := h.delays o' d'' hdelay
    exact ⟨hok.begun, hok.kind, hok.gen, hok.held, hok.live, hok.woken⟩

theorem Sound.pollAgain {w : WakerId} {s' : DelayProcess ρ} (h : s.Sound none none)
    (hst : s.pollAgain o w = some s') : s'.Sound none none := by
  unfold DelayProcess.pollAgain at hst
  split at hst
  · rename_i d hd
    simp only [Option.ite_none_right_eq_some, Option.some.injEq, Bool.and_eq_true,
      Bool.not_eq_true'] at hst
    obtain ⟨⟨-, hended⟩, rfl⟩ := hst
    unfold Delay.poll
    split
    · exact h.setDelay hd rfl (by simp) rfl rfl
    · rename_i hc
      exact h.setDelay hd rfl (fun _ => ⟨hended, fun hcom => absurd hcom hc⟩) rfl rfl
  · cases hst

theorem Sound.drop {s' : DelayProcess ρ} (h : s.Sound none none) (hst : s.drop o = some s') :
    s'.Sound none none := by
  unfold DelayProcess.drop at hst
  split at hst
  · rename_i d hd
    simp only [Option.ite_none_right_eq_some, Option.some.injEq] at hst
    obtain ⟨-, rfl⟩ := hst
    exact h.setDelay hd rfl (by simp) rfl rfl
  · cases hst

/-- **Every step that abandons no future keeps the invariant.** -/
theorem Sound.step {s' : DelayProcess ρ} {a : DelayAction ρ} (h : s.Sound none none)
    (hok : s.abandons a = false) (hst : s.step b a = some s') : s'.Sound none none := by
  cases a with
  | poll duration t w => exact h.poll hst
  | pollAgain o w => exact h.pollAgain hst
  | drop o => exact h.drop hst
  | process a =>
      simp only [DelayProcess.step, Option.ite_none_right_eq_some] at hst
      obtain ⟨hallow, hst⟩ := hst
      obtain ⟨p, hp, rfl⟩ := Option.map_eq_some_iff.1 hst
      exact h.follow hp hallow hok

theorem sound_of_reachVia
    (h : (delaySystem ρ b).ReachVia (fun s a => s.abandons a = false) s) : s.Sound none none :=
  System.ReachVia.invariant (I := fun s => s.Sound none none)
    { process := Process.sound_of_reachable (b := b) .init
      distinct := fun _ => .empty
      fresh := fun _ _ => rfl
      delays := fun o d hdelay => by cases hdelay }
    (fun _ _ _ _ hi hok hst => hi.step hok hst) h

/-! ## The result -/

/-- A pending future is completed and woken, or a live generation has its registration or its
timer. -/
theorem Sound.kept (h : s.Sound none none) (hp : s.Pending o d) : s.Kept o d := by
  have hok := h.delays o d hp.delay
  have hpc : (s.process.ops o).pc = .returned .posted := by
    have hposted := hp.posted
    unfold Pc.posted at hposted
    split at hposted
    · assumption
    · cases hposted
  cases hc : d.completed with
  | true =>
      obtain ⟨hmem, hpolled⟩ := hok.woken hc
      exact .inl ⟨hpolled hp.awaited ▸ hmem, fun w => by simp [Delay.poll, hc]⟩
  | false =>
      have hlive := hok.live hpc hp.awaited hc
      have hg := hok.gen (by rw [hpc]; rfl)
      have hi := h.process.lifecycle.unset hg (h.process.lifecycle.unset_of_hasShutdown hlive)
      rcases hok.held (.inr hpc) hc hlive with hheld | ⟨hstart, -⟩ | ⟨t, hfire, -⟩
      · exact .inr ⟨_, ⟨hi, hlive⟩, hheld⟩
      · cases hstart
      · cases hfire

/-- **In a run that abandons no future, each future that has returned `Pending` was woken and is
ready, or a live run loop has its registration or its timer**, for every interleaving of polls on
any thread, dispatch, timers, `init` and `shutdown`. -/
theorem delay_never_stranded (b : Backend) {s : DelayProcess ρ}
    (h : (delaySystem ρ b).ReachVia (fun s a => s.abandons a = false) s) (o : OpId) (d : Delay)
    (hp : s.Pending o d) : s.Kept o d :=
  (sound_of_reachVia h).kept hp

/-- A `shutdown` strands each future that waits for its generation. -/
theorem stranded_of_shutsDown {s' : DelayProcess ρ} {a : Action ρ}
    (hst : s.step b (.process a) = some s') (hdown : s.process.shutsDown a = some g)
    (hawaits : s.awaits g o = true) : ∃ d, s'.Pending o d ∧ ¬ s'.Kept o d := by
  cases a with
  | advance =>
      obtain ⟨hm, hi⟩ : s.process.initMutex = some .setShutdown ∧
          s.process.runLoopInstance = some g := by
        simpa [Process.shutsDown] using hdown
      have hs' : s' = { s with process :=
          { s.process.setGen g { s.process.gens g with hasShutdown := true } with
            initMutex := some (.setToken g) } } := by
        simpa [DelayProcess.step, allows, Process.step, Process.advance, hm, hi,
          DelayProcess.follow, Process.firing, Process.starting, Process.schedulesOn,
          DelayProcess.completeFired, DelayProcess.registerStarted] using hst.symm
      subst hs'
      unfold awaits at hawaits
      split at hawaits
      · rename_i d hd
        simp only [Bool.and_eq_true, Bool.not_eq_true', beq_iff_eq] at hawaits
        obtain ⟨⟨⟨hended, hc⟩, hposted⟩, -⟩ := hawaits
        refine ⟨d, ⟨hd, hposted, hended⟩, ?_⟩
        rintro (⟨-, hready⟩ | ⟨g', ⟨hi', hlive⟩, -⟩)
        · simpa [Delay.poll, hc] using hready d.waker
        · obtain rfl : g = g' := by simpa [Process.setGen, hi] using hi'
          simp [Process.setGen] at hlive
      · cases hawaits
  | init | dropGuard | begin | op | enqueue | inlineReturn | loop | dropLoop => cases hdown

end DelayProcess

/-- Thread 1 polls a future, and `post` returns. -/
def pendingRun : List (DelayAction Nat) :=
  initRun.map .process ++ [.poll 5 1 7, .process (.op 0), .process (.op 0),
    .process (.enqueue 0 .queued 0), .process (.op 0)]

/-- The run loop takes the closure up, which registers the timer. -/
def armedRun : List (DelayAction Nat) :=
  pendingRun ++ [.process (.loop 0 (.dispatchCallbacks []) 0), .process (.loop 0 (.next []) 0)]

theorem delay_never_stranded_armed :
    ∃ (s : DelayProcess Nat) (d : Delay), s.Pending 0 d ∧ s.Kept 0 d := by
  have hrun : ((delaySystem Nat .win32).runVia (fun s a => s.abandons a = false) {}
      armedRun).map (fun s => (s.process.ops 0).pc.posted && (s.delays 0).any (!·.ended)) =
      some true := by
    decide
  obtain ⟨s, hs, hp⟩ := System.exists_reachVia _ _ hrun
  simp only [Bool.and_eq_true, Option.any_eq_true, Bool.not_eq_true'] at hp
  obtain ⟨hposted, d, hd, hended⟩ := hp
  have hpending : s.Pending 0 d := ⟨hd, hposted, hended⟩
  exact ⟨s, d, hpending, DelayProcess.delay_never_stranded .win32 hs 0 d hpending⟩

/-- The last guard goes before the closure is taken up, which then finds no run loop. -/
def strandedRun : List (DelayAction Nat) :=
  pendingRun ++ [.process (.dropGuard 0)] ++ List.replicate 7 (.process .advance) ++
    [.process (.loop 0 (.dispatchCallbacks []) 0), .process (.loop 0 (.next []) 0),
      .process (.loop 0 .finish 0)]

/-- The future stays pending, nothing has woken it, and nothing is left that could. -/
theorem pending_delay_is_stranded :
    ∃ (s : DelayProcess Nat) (d : Delay), (delaySystem Nat .win32).Reachable s ∧
      s.Pending 0 d ∧ ¬ s.Kept 0 d ∧ d.completed = false ∧
      (s.process.gens 0).loop.unstarted = [] ∧ (s.process.gens 0).loop.pendingTimers = [] := by
  have hrun : ((delaySystem Nat .win32).run {} strandedRun).map (fun s =>
      (s.process.ops 0).pc.posted && s.process.runLoopInstance.isNone &&
        (s.delays 0).any (fun d => !d.ended && !d.completed && d.woken.isEmpty) &&
        (s.process.gens 0).loop.unstarted.isEmpty &&
        (s.process.gens 0).loop.pendingTimers.isEmpty) = some true := by
    decide
  obtain ⟨s, hs, hp⟩ := System.exists_reachable _ _ hrun
  simp only [Bool.and_eq_true, Option.any_eq_true, Bool.not_eq_true', List.isEmpty_iff,
    Option.isNone_iff_eq_none] at hp
  obtain ⟨⟨⟨⟨hposted, hi⟩, d, hd, ⟨hended, hcom⟩, hwoken⟩, hq⟩, ht⟩ := hp
  refine ⟨s, d, hs, ⟨hd, hposted, hended⟩, ?_, hcom, hq, ht⟩
  rintro (⟨hmem, -⟩ | ⟨g, ⟨hg, -⟩, -⟩)
  · simp [hwoken] at hmem
  · cases hi.symm.trans hg

end Wxp.RunLoop
