import Wxp.RunLoop.Armed
import Wxp.RunLoop.Shutdown

/-!
# RunLoop — Posted

What one step of the process does to the loop of a generation (`Process.LoopChange`) and to a
`post` that has begun (`Process.PostStep`). A `post` succeeds by its own step only, and after it
has found the token unset for the second time (`Process.token_of_posted`).
-/

namespace Wxp.RunLoop

variable {ρ : Type}

namespace Process

variable {b : Backend} {s s' : Process ρ} {a : Action ρ} {g : Gen} {o : OpId}

/-! ## Generations -/

/-- A generation is shut down by the step that `shutsDown` names, and stays so. -/
theorem Step.hasShutdown_cases (hst : Step b s a s') (hg : g < s.nextGen) :
    (s'.gens g).hasShutdown = (s.gens g).hasShutdown ∨
      ((s'.gens g).hasShutdown = true ∧ s.shutsDown a = some g) := by
  cases hst with
  | newGen => exact .inl (by simp [Nat.ne_of_lt hg])
  | setShutdown g' hm hi =>
      by_cases hgg : g = g'
      · exact .inr ⟨by simp [setGen, hgg], by simp [shutsDown, hm, hi, hgg]⟩
      · exact .inl (by simp [setGen, hgg])
  | setToken g' _ | dropLoop g' =>
      left
      by_cases hgg : g = g' <;> simp [setGen, hgg]
  | enqueue o =>
      exact .inl (((SameStatics.setLoop s (s.ops o).gen _).trans {}).hasShutdown g)
  | loopQuiet g' _ _ l => exact .inl ((SameStatics.withLoop s g' l).hasShutdown g)
  | loopStart g' _ _ l c =>
      exact .inl (((SameStatics.withLoop s g' l).trans (.startClosure _ _ c)).hasShutdown g)
  | loopFinish g' _ v l c =>
      exact .inl (((SameStatics.withLoop s g' l).trans (.finishClosure _ v c)).hasShutdown g)
  | _ => exact .inl rfl

theorem Step.nextGen_le (hst : Step b s a s') : s.nextGen ≤ s'.nextGen := by
  cases hst with
  | newGen => exact Nat.le_succ _
  | loopStart g' _ _ l c =>
      exact Nat.le_of_eq ((SameStatics.withLoop s g' l).trans (.startClosure _ _ c)).nextGen.symm
  | loopFinish g' _ v l c =>
      exact Nat.le_of_eq ((SameStatics.withLoop s g' l).trans (.finishClosure _ v c)).nextGen.symm
  | _ => exact Nat.le_refl _

theorem startClosure_gens (s : Process ρ) (t : Thread) (c : Closure) :
    (s.startClosure t c).gens = s.gens := by
  cases c with
  | wake n => rfl
  | op o =>
      obtain ⟨handed, he⟩ := startClosure_op s t o
      rw [he]
      rfl

theorem Step.nextOp_le (hst : Step b s a s') : s.nextOp ≤ s'.nextOp := by
  cases hst with
  | begin => exact Nat.le_succ _
  | loopStart g' _ _ l c =>
      cases c with
      | wake n => exact Nat.le_refl _
      | op o =>
          obtain ⟨handed, he⟩ := startClosure_op (s.withLoop g' l) (s.gens g').owner o
          rw [he]
          exact Nat.le_refl _
  | loopFinish _ _ _ _ c => cases c <;> exact Nat.le_refl _
  | _ => exact Nat.le_refl _

/-- What a step does to the loop of a generation. -/
inductive LoopChange (b : Backend) (s s' : Process ρ) (a : Action ρ) (g : Gen) : Prop
  | same : (s'.gens g).loop = (s.gens g).loop → LoopChange b s s' a g
  | push (c : Closure) : (s'.gens g).loop = (s.gens g).loop.push c → LoopChange b s s' a g
  | step (act : Act Closure TimerId) (v : ρ) : a = .loop g act v →
      Loop.Step b (s.gens g).loop act (s'.gens g).loop → LoopChange b s s' a g
  | discard : g < s.nextGen → s.runLoopInstance ≠ some g →
      (s'.gens g).loop = (s.gens g).loop.discard → LoopChange b s s' a g
  | new : g = s.nextGen → (s'.gens g).loop = {} → LoopChange b s s' a g

theorem LoopChange.withLoop {g' : Gen} {act : Act Closure TimerId} {v : ρ}
    {l : Loop Closure TimerId} (hstep : Loop.Step b (s.gens g').loop act l)
    (hs : s'.gens = (s.withLoop g' l).gens) : LoopChange b s s' (.loop g' act v) g := by
  by_cases hgg : g = g'
  · subst hgg
    exact .step act v rfl (by rwa [hs, withLoop_loop, if_pos rfl])
  · exact .same (by rw [hs, withLoop_loop, if_neg hgg])

theorem Step.loopChange (hst : Step b s a s') (g : Gen) : LoopChange b s s' a g := by
  cases hst with
  | newGen =>
      by_cases hg : g = s.nextGen
      · exact .new hg (by simp [hg])
      · exact .same (by simp [hg])
  | setShutdown g' | setToken g' =>
      refine .same ?_
      by_cases hgg : g = g' <;> simp [setGen, hgg]
  | enqueue o =>
      by_cases hg : g = (s.ops o).gen
      · exact .push (.op o) (by rw [pushTo_loop, if_pos hg])
      · exact .same (by rw [pushTo_loop, if_neg hg])
  | loopQuiet g' act v l _ hstep => exact .withLoop hstep rfl
  | loopStart g' act v l c _ hstep => exact .withLoop hstep (startClosure_gens _ _ c)
  | loopFinish g' act v l c _ hstep => exact .withLoop hstep (by cases c <;> rfl)
  | dropLoop g' hg' hi =>
      by_cases hgg : g = g'
      · subst hgg
        by_cases hb : b = .linux
        · exact .same (by simp [setGen, hb])
        -- the queue goes with the platform run loop
        · exact .discard hg' hi (by simp [setGen, hb])
      · exact .same (by simp [setGen, hgg])
  | _ => exact .same rfl

/-- A generation that is not shut down after a step was not before it, -/
theorem Step.hasShutdown_of (hst : Step b s a s') (hg : g < s.nextGen)
    (hs : (s'.gens g).hasShutdown = false) : (s.gens g).hasShutdown = false := by
  rcases hst.hasShutdown_cases hg with he | he
  · exact he.symm.trans hs
  · cases he.1.symm.trans hs

/-- and it was in the instance. -/
theorem Step.instance_of_live (hl : s.Lifecycle) (hst : Step b s a s') (hg : g < s.nextGen)
    (hs : (s'.gens g).hasShutdown = false) : s.runLoopInstance = some g :=
  hl.unset hg (hl.unset_of_hasShutdown (hst.hasShutdown_of hg hs))

/-- The run loop thread finds its own generation, unless it is still inside `initialize`. -/
theorem Lifecycle.currentLocal_owner (h : s.Lifecycle) (hg : g < s.nextGen)
    (hs : (s.gens g).hasShutdown = false) (hinit : s.initializing (s.gens g).owner = false) :
    s.currentLocal (s.gens g).owner = .ok g := by
  have ht := h.unset_of_hasShutdown hs
  have hi := h.unset hg ht
  have hp := h.phase
  rw [currentLocal_eq_ok]
  refine ⟨?_, hi, hs⟩
  unfold PhaseOk at hp
  unfold initializing at hinit
  grind [Published]

/-- The closure of an operation that a run loop starts gets what `current_local` returns. -/
theorem current_of_starting {act : Act Closure TimerId} {v : ρ}
    (hst : s.step b (.loop g act v) = some s')
    (hstart : (s.gens g).loop.starting act = some (.op o))
    (hlocal : s.currentLocal (s.gens g).owner = .ok g) :
    (s'.ops o).current = some (.ok g) := by
  unfold step stepLoop at hst
  dsimp only at hst
  split at hst
  · obtain ⟨l, hl, rfl⟩ := Option.map_eq_some_iff.1 hst
    have hstep := Loop.step_cases hl
    have hs := hstep.started_eq
    rw [hstart, Option.toList_some] at hs
    have hf : l.finished = (s.gens g).loop.finished := by
      cases hstep.effect with
      | start c _ _ _ _ hf => exact hf
      -- a step that starts a callback finishes none
      | quiet _ _ _ hs' | accept _ _ _ _ _ _ hs' | finish _ _ _ _ hs' =>
          exact absurd (hs.symm.trans hs') (by simp)
    have hlocal' : (s.withLoop g l).currentLocal (s.gens g).owner = .ok g := by
      have e := SameStatics.withLoop s g l
      rw [currentLocal_eq_ok] at hlocal ⊢
      rwa [e.threadId, e.inst, e.hasShutdown]
    obtain ⟨handed, he⟩ := startClosure_op (s.withLoop g l) (s.gens g).owner o
    simp [hs, hf, he, hlocal', setOp]
  · cases hst

/-! ## A post -/

/-- The `post` has a sender and has not failed. -/
def underway : Pc ρ → Bool
  | .gotSender | .checked | .enqueued | .returned .posted => true
  | _ => false

/-- What a step does to a `post`. -/
inductive PostStep (s s' : Process ρ) (o : OpId) : Prop
  | same : (s'.ops o).pc = (s.ops o).pc → (s'.ops o).gen = (s.ops o).gen → PostStep s s' o
  | sender : (s'.ops o).pc = .gotSender → (s'.ops o).gen < s.nextGen → PostStep s s' o
  | check : (s.ops o).pc = .gotSender → (s'.ops o).pc = .checked →
      (s'.ops o).gen = (s.ops o).gen → PostStep s s' o
  | enqueue : (s.ops o).pc = .checked → (s'.ops o).pc = .enqueued →
      (s'.ops o).gen = (s.ops o).gen →
      .op o ∈ (s'.gens (s.ops o).gen).loop.unstarted ∨ (s.gens (s.ops o).gen).dropped = true →
      PostStep s s' o
  | posted : (s.ops o).pc = .enqueued → (s'.ops o).pc = .returned .posted →
      (s'.ops o).gen = (s.ops o).gen → PostStep s s' o
  | aside : underway (s'.ops o).pc = false → PostStep s s' o

theorem OpStep.postStep {p : Op ρ} {handed : List (Gen × Bool)} (h : s.Sound)
    (hk : (s.ops o).kind = .post) (hst : OpStep b s (s.ops o) p) :
    PostStep s { s.setOp o p with handed } o := by
  have he : Process.ops { s.setOp o p with handed } o = p := Function.update_self _ _ _
  cases hst with
  | inlineCall | noLocal | refuseToken | refuseSend | reject | inlineReturn =>
      exact .aside (by rw [he]; rfl)
  | takeSender g _ hs => exact .sender (by rw [he]) (by rw [he]; exact h.lifecycle.sender g hs)
  | check hpc =>
      rcases hpc with hpc | hpc
      · exact .check hpc.1 (by rw [he]) (by rw [he])
      -- only a call registers
      · cases hk.symm.trans ((h.ops o).kind (.inl hpc))
  | lose hpc hd => exact .enqueue hpc (by rw [he]) (by rw [he]) (.inr hd)
  | runInline v hpc hd => exact .enqueue hpc (by rw [he]) (by rw [he]; simp) (.inr hd)
  | posted hpc => exact .posted hpc (by rw [he]) (by rw [he])
  | wait hpc hk' => cases hk.symm.trans hk'
  | get r => exact .aside (by rw [he]; cases r <;> rfl)

/-- The closure of an operation changes neither its stage nor its generation. -/
theorem startClosure_ops (s : Process ρ) (t : Thread) (c : Closure) (o : OpId) :
    ((s.startClosure t c).ops o).pc = (s.ops o).pc ∧
      ((s.startClosure t c).ops o).gen = (s.ops o).gen ∧
      ((s.startClosure t c).ops o).kind = (s.ops o).kind := by
  cases c with
  | wake n => exact ⟨rfl, rfl, rfl⟩
  | op o' =>
      obtain ⟨handed, he⟩ := startClosure_op s t o'
      rw [he]
      by_cases hoo : o = o' <;> simp [setOp, hoo]

theorem finishClosure_ops (s : Process ρ) (v : ρ) (c : Closure) (o : OpId) :
    ((s.finishClosure v c).ops o).pc = (s.ops o).pc ∧
      ((s.finishClosure v c).ops o).gen = (s.ops o).gen ∧
      ((s.finishClosure v c).ops o).kind = (s.ops o).kind := by
  cases c with
  | wake n => exact ⟨rfl, rfl, rfl⟩
  | op o' => by_cases hoo : o = o' <;> simp [finishClosure, setOp, hoo]

/-- **What a step does to a `post` that has begun.** -/
theorem Step.post_cases (h : s.Sound) (hst : Step b s a s') (ho : o < s.nextOp)
    (hk : (s.ops o).kind = .post) : (s'.ops o).kind = .post ∧ PostStep s s' o := by
  have hother : ∀ (o' : OpId) (p : Op ρ), o ≠ o' → s'.ops = Function.update s.ops o' p →
      (s'.ops o).kind = .post ∧ PostStep s s' o := fun o' p hne he => by
    have hsame : s'.ops o = s.ops o := by rw [he, Function.update_of_ne hne]
    exact ⟨by rw [hsame, hk], .same (by rw [hsame]) (by rw [hsame])⟩
  cases hst with
  | cancel g o' os =>
      by_cases hoo : o = o'
      · subst hoo
        exact ⟨by simp [setOp, Op.cancel, hk],
          .same (by simp [setOp, Op.cancel]) (by simp [setOp, Op.cancel])⟩
      · exact hother o' _ hoo rfl
  | begin => exact hother _ _ (Nat.ne_of_lt ho) rfl
  | register o' hpc hk' =>
      refine hother o' _ ?_ rfl
      rintro rfl
      cases hk.symm.trans hk'
  | op _ o' p handed hop =>
      by_cases hoo : o = o'
      · subst hoo
        refine ⟨?_, hop.postStep h hk⟩
        have he : Process.ops { s.setOp o p with handed } o = p := Function.update_self _ _ _
        rw [he]
        cases hop <;> simp [hk, Op.get]
      · exact hother o' _ hoo rfl
  | enqueue o' v hpc hd =>
      by_cases hoo : o = o'
      · subst hoo
        refine ⟨by simp [setPc, setOp, pushTo, setGen, hk], .enqueue hpc ?_ ?_ (.inl ?_)⟩
        · simp [setPc, setOp]
        · simp [setPc, setOp, pushTo, setGen]
        · rw [pushTo_loop, if_pos rfl]
          simp [Loop.unstarted, Loop.push]
      · exact hother o' _ hoo rfl
  | loopStart g act v l c =>
      obtain ⟨hpc, hgen, hkind⟩ := startClosure_ops (s.withLoop g l) (s.gens g).owner c o
      exact ⟨hkind.trans hk, .same hpc hgen⟩
  | loopFinish g act v l c =>
      obtain ⟨hpc, hgen, hkind⟩ := finishClosure_ops (s.withLoop g l) v c o
      exact ⟨hkind.trans hk, .same hpc hgen⟩
  | _ => exact ⟨hk, .same rfl rfl⟩

theorem foldl_startClosure_pc (t : Thread) (o : OpId) (cs : List Closure) (s : Process ρ) :
    ((cs.foldl (fun s c => s.startClosure t c) s).ops o).pc = (s.ops o).pc := by
  induction cs generalizing s with
  | nil => rfl
  | cons c cs ih => rw [List.foldl_cons, ih, (startClosure_ops s t c o).1]

theorem foldl_finishClosure_pc (v : ρ) (o : OpId) (cs : List Closure) (s : Process ρ) :
    ((cs.foldl (fun s c => s.finishClosure v c) s).ops o).pc = (s.ops o).pc := by
  induction cs generalizing s with
  | nil => rfl
  | cons c cs ih => rw [List.foldl_cons, ih, (finishClosure_ops s v c o).1]

/-- A step of another operation. -/
theorem stepOp_of_ne {o' : OpId} (hst : s.stepOp o' = some s') (hne : o ≠ o') :
    s'.ops o = s.ops o := by
  unfold stepOp at hst
  split at hst
  · cases hst
    unfold enter
    dsimp only
    split
    · split <;> exact Function.update_of_ne hne _ _
    · split <;> exact Function.update_of_ne hne _ _
  · split at hst <;> cases hst <;> exact Function.update_of_ne hne _ _
  · cases hst
    exact Function.update_of_ne hne _ _
  · cases hst
    exact Function.update_of_ne hne _ _
  · obtain ⟨r, -, rfl⟩ := Option.map_eq_some_iff.1 hst
    exact Function.update_of_ne hne _ _
  · cases hst

theorem init_ops {t : Thread} (hst : s.init t = some s') : s'.ops = s.ops := by
  unfold Process.init at hst
  split at hst
  · cases hst
  · split at hst <;> split at hst <;> cases hst <;> rfl

theorem dropGuard_ops {t : Thread} (hst : s.dropGuard t = some s') : s'.ops = s.ops := by
  unfold dropGuard at hst
  split at hst
  · cases hst
  · split at hst <;> cases hst <;> rfl

/-- A call that is cancelled stays where it is. -/
theorem advance_pc (hst : s.advance = some s') (o : OpId) : (s'.ops o).pc = (s.ops o).pc := by
  unfold advance at hst
  split at hst
  case h_4 => split at hst <;> cases hst <;> rfl
  case h_7 g o' os hm =>
    cases hst
    split
    · by_cases hoo : o = o' <;> simp [setOp, Op.cancel, hoo]
    · rfl
  all_goals cases hst <;> rfl

theorem enqueue_of_ne {o' : OpId} {outcome : SendOutcome} {v : ρ}
    (hst : s.enqueue b o' outcome v = some s') (hne : o ≠ o') :
    (s'.ops o).pc = (s.ops o).pc := by
  unfold Process.enqueue at hst
  dsimp only at hst
  split at hst
  · split at hst
    · cases outcome with
      | inline =>
          cases hst
          have hs := (startClosure_ops s (s.ops o').thread (.op o') o).1
          have hf := (finishClosure_ops (s.startClosure (s.ops o').thread (.op o')) v (.op o') o).1
          simp [setPc, setOp, hne, hf, hs]
      | queued | lost | refused =>
          cases hst
          exact congrArg Op.pc (Function.update_of_ne hne _ _)
    · cases hst
  · cases hst

theorem inlineReturn_of_ne {o' : OpId} {v : ρ} (hst : s.inlineReturn o' v = some s')
    (hne : o ≠ o') : (s'.ops o).pc = (s.ops o).pc := by
  unfold inlineReturn at hst
  split at hst
  · cases hst
    exact congrArg Op.pc (Function.update_of_ne hne _ _)
  · cases hst

theorem stepLoop_pc {act : Act Closure TimerId} {v : ρ} (hst : s.stepLoop b g act v = some s')
    (o : OpId) : (s'.ops o).pc = (s.ops o).pc := by
  unfold stepLoop at hst
  dsimp only at hst
  split at hst
  · obtain ⟨l, -, rfl⟩ := Option.map_eq_some_iff.1 hst
    rw [foldl_finishClosure_pc, foldl_startClosure_pc]
    rfl
  · cases hst

/-- An operation whose closure the platform has taken goes on by its own step only. -/
theorem enqueued_of_step (hst : s.step b a = some s') (ho : o < s.nextOp)
    (hpc : (s.ops o).pc = .enqueued) (ha : a ≠ .op o) : (s'.ops o).pc = .enqueued := by
  cases a with
  | init t => rw [init_ops hst, hpc]
  | dropGuard t => rw [dropGuard_ops hst, hpc]
  | advance => rw [advance_pc hst, hpc]
  | begin k t =>
      simp only [step, Process.begin, Option.ite_none_left_eq_some, Option.some.injEq] at hst
      obtain ⟨-, rfl⟩ := hst
      simp [setOp, Nat.ne_of_lt ho, hpc]
  | op o' => rw [stepOp_of_ne hst fun he => ha (he ▸ rfl), hpc]
  | enqueue o' outcome v =>
      by_cases hoo : o = o'
      · subst hoo
        simp [step, Process.enqueue, hpc] at hst
      · rw [enqueue_of_ne hst hoo, hpc]
  | inlineReturn o' v =>
      by_cases hoo : o = o'
      · subst hoo
        simp [step, Process.inlineReturn, hpc] at hst
      · rw [inlineReturn_of_ne hst hoo, hpc]
  | loop g act v => rw [stepLoop_pc hst, hpc]
  | dropLoop g =>
      simp only [step, Process.dropLoop, Option.ite_none_right_eq_some, Option.some.injEq] at hst
      obtain ⟨-, rfl⟩ := hst
      exact hpc

/-- `post` returns `Ok` after its second look at the token. -/
theorem token_of_posted (hst : s.step b a = some s') (ho : o < s.nextOp)
    (hpc : (s.ops o).pc = .enqueued) (hpc' : (s'.ops o).pc = .returned .posted) :
    a = .op o ∧ (s.gens (s.ops o).gen).shutdownToken = false := by
  have ha : a = .op o := by
    by_contra ha
    cases (enqueued_of_step hst ho hpc ha).symm.trans hpc'
  subst ha
  simp only [step, stepOp, hpc, Option.some.injEq] at hst
  subst hst
  refine ⟨rfl, ?_⟩
  cases ht : (s.gens (s.ops o).gen).shutdownToken with
  | false => rfl
  | true => simp [recheckToken, setPc, setOp, ht] at hpc'

end Process

end Wxp.RunLoop
