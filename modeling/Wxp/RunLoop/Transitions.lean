import Wxp.RunLoop.Process

/-!
# RunLoop — Transitions

The steps of `Process.step`, one constructor of `Process.Step` for each branch
of the source with its guard. Every invariant of the process is a case analysis
over them.
-/

namespace Wxp.RunLoop

variable {ρ : Type}

/-! ## A queue that is dropped -/

section Discard

variable {κ τ : Type}

theorem Loop.Wf.discard {l : Loop κ τ} (hw : l.Wf) : l.discard.Wf where
  nodup := by
    have hn := hw.accepted.nodup_iff.mp hw.nodup
    exact hn.sublist ((List.Sublist.refl _).append (List.sublist_append_right _ _))
  accepted := List.Perm.refl _
  started := hw.started

theorem Loop.Wf.mem_of_discard {l : Loop κ τ} (hw : l.Wf) {c : κ}
    (hc : c ∈ l.discard.accepted) : c ∈ l.accepted := by
  refine hw.accepted.mem_iff.mpr ?_
  simp only [Loop.discard, List.mem_append, Loop.unstarted] at hc ⊢
  tauto

end Discard

namespace Process

/-! ## Steps that change one operation -/

/-- How a step that changes one operation, and no generation, changes it: `p` is
the record before, `p'` the one after. -/
inductive OpStep (b : Backend) (s : Process ρ) : Op ρ → Op ρ → Prop
  | inlineCall (p : Op ρ) (g : Gen) : p.pc = .entered → s.currentLocal p.thread = .ok g →
      OpStep b s p { p with pc := .inline, gen := g, current := some (.ok g) }
  | noLocal (p : Op ρ) (e : Error) : p.pc = .entered →
      OpStep b s p { p with pc := .returned (.err e) }
  | takeSender (p : Op ρ) (g : Gen) : p.pc = .entered → s.runLoopSender = some g →
      (p.kind = .call → s.runLoopThreadId ≠ some p.thread) →
      OpStep b s p { p with pc := .gotSender, gen := g }
  | refuseToken (p : Op ρ) : p.pc = .gotSender ∨ p.pc = .registered →
      ((s.gens p.gen).dropped ∨ (s.gens p.gen).shutdownToken) →
      OpStep b s p { p with pc := .returned (.err .notInitialized) }
  | check (p : Op ρ) : (p.pc = .gotSender ∧ p.kind = .post) ∨ p.pc = .registered →
      (s.gens p.gen).shutdownToken = false →
      OpStep b s p { p with pc := .checked }
  | refuseSend (p : Op ρ) : p.pc = .checked → (s.gens p.gen).dropped →
      OpStep b s p { p with pc := .returned (.err .notInitialized) }
  | lose (p : Op ρ) : p.pc = .checked → (s.gens p.gen).dropped →
      OpStep b s p { p with pc := .enqueued }
  | runInline (p : Op ρ) (v : ρ) : p.pc = .checked → (s.gens p.gen).dropped → b = .linux →
      OpStep b s p
        { (Op.finish { p with current := some (s.currentLocal p.thread) } v) with pc := .enqueued }
  | reject (p : Op ρ) : p.pc = .enqueued → (s.gens p.gen).shutdownToken →
      OpStep b s p { p with pc := .returned (.err .notInitialized) }
  | posted (p : Op ρ) : p.pc = .enqueued → p.kind = .post →
      OpStep b s p { p with pc := .returned .posted }
  | wait (p : Op ρ) : p.pc = .enqueued → p.kind = .call →
      (s.gens p.gen).shutdownToken = false → OpStep b s p { p with pc := .blocked }
  | get (p : Op ρ) (r : Except Error ρ) : p.pc = .blocked → p.slot = some r →
      OpStep b s p (p.get r)
  | inlineReturn (p : Op ρ) (v : ρ) : p.pc = .inline →
      OpStep b s p { p with produced := some v, pc := .returned (.value v) }

/-! ## All steps -/

inductive Step (b : Backend) (s : Process ρ) : Action ρ → Process ρ → Prop
  | stay (a : Action ρ) : Step b s a s
  | newGen (t : Thread) : s.initMutex = none → s.initCount = 0 → s.runLoopInstance = none →
      s.busy t = false →
      Step b s (.init t) { s with
        gens := Function.update s.gens s.nextGen { owner := t }
        nextGen := s.nextGen + 1
        runLoopInstance := some s.nextGen
        initMutex := some (.initSender t s.nextGen) }
  | initAgain (t : Thread) : s.initMutex = none → 0 < s.initCount →
      Step b s (.init t) { s with initCount := s.initCount + 1 }
  | dropMore (t : Thread) (n : Nat) : s.initMutex = none → s.initCount = n + 2 →
      Step b s (.dropGuard t) { s with initCount := n + 1 }
  | dropLast (t : Thread) : s.initMutex = none → s.initCount = 1 →
      Step b s (.dropGuard t) { s with initCount := 0, initMutex := some .setShutdown }
  | setSender (t : Thread) (g : Gen) : s.initMutex = some (.initSender t g) →
      Step b s .advance
        { s with runLoopSender := some g, initMutex := some (.initThread t g) }
  | setThread (t : Thread) (g : Gen) : s.initMutex = some (.initThread t g) →
      Step b s .advance
        { s with runLoopThreadId := some t, initMutex := some (.initCount t g) }
  | setCount (t : Thread) (g : Gen) : s.initMutex = some (.initCount t g) →
      Step b s .advance { s with initCount := 1, initMutex := none }
  | setShutdown (g : Gen) : s.initMutex = some .setShutdown → s.runLoopInstance = some g →
      Step b s .advance { s.setGen g { s.gens g with hasShutdown := true } with
        initMutex := some (.setToken g) }
  | noInstance : s.initMutex = some .setShutdown → s.runLoopInstance = none →
      Step b s .advance { s with initMutex := some .clearThread }
  | setToken (g : Gen) : s.initMutex = some (.setToken g) →
      Step b s .advance { s.setGen g { s.gens g with shutdownToken := true } with
        initMutex := some (.takePending g) }
  | takePending (g : Gen) : s.initMutex = some (.takePending g) →
      Step b s .advance
        { s with pendingCalls := [], initMutex := some (.cancel g s.pendingCalls) }
  | cancel (g : Gen) (o : OpId) (os : List OpId) : s.initMutex = some (.cancel g (o :: os)) →
      Step b s .advance
        { s.setOp o (s.ops o).cancel with initMutex := some (.cancel g os) }
  | cancelDead (g : Gen) (o : OpId) (os : List OpId) :
      s.initMutex = some (.cancel g (o :: os)) → s.upgrades o = false →
      Step b s .advance { s with initMutex := some (.cancel g os) }
  | cancelled (g : Gen) : s.initMutex = some (.cancel g []) →
      Step b s .advance { s with initMutex := some .clearThread }
  | clearThread : s.initMutex = some .clearThread →
      Step b s .advance { s with runLoopThreadId := none, initMutex := some .clearInstance }
  | clearInstance : s.initMutex = some .clearInstance →
      Step b s .advance { s with runLoopInstance := none, initMutex := some .clearSender }
  | clearSender : s.initMutex = some .clearSender →
      Step b s .advance { s with runLoopSender := none, initMutex := none }
  | begin (k : OpKind) (t : Thread) : s.initializing t = false →
      Step b s (.begin k t) { s.setOp s.nextOp { kind := k, thread := t, pc := .entered } with
        nextOp := s.nextOp + 1 }
  | register (o : OpId) : (s.ops o).pc = .gotSender → (s.ops o).kind = .call →
      Step b s (.op o) (s.register o)
  | op (a : Action ρ) (o : OpId) (p : Op ρ) (handed : List (Gen × Bool)) :
      OpStep b s (s.ops o) p → (∀ h ∈ handed, h ∈ s.handed ∨ h.2 = false) →
      Step b s a { s.setOp o p with handed }
  | enqueue (o : OpId) (v : ρ) : (s.ops o).pc = .checked →
      ((s.gens (s.ops o).gen).dropped = true → b = .darwin ∨ b = .linux) →
      Step b s (.enqueue o .queued v) ((s.pushTo (s.ops o).gen (.op o)).setPc o .enqueued)
  | loopQuiet (g : Gen) (a : Act Closure TimerId) (v : ρ) (l : Loop Closure TimerId) :
      g < s.nextGen → Loop.Step b (s.gens g).loop a l →
      (∀ o, .op o ∈ l.accepted ↔ .op o ∈ (s.gens g).loop.accepted) →
      l.started = (s.gens g).loop.started → l.finished = (s.gens g).loop.finished →
      Step b s (.loop g a v) (s.withLoop g l)
  | loopStart (g : Gen) (a : Act Closure TimerId) (v : ρ) (l : Loop Closure TimerId)
      (c : Closure) : g < s.nextGen → Loop.Step b (s.gens g).loop a l →
      c ∈ (s.gens g).loop.unstarted → l.accepted = (s.gens g).loop.accepted →
      l.started = (s.gens g).loop.started ++ [c] → l.finished = (s.gens g).loop.finished →
      Step b s (.loop g a v) ((s.withLoop g l).startClosure (s.gens g).owner c)
  | loopFinish (g : Gen) (a : Act Closure TimerId) (v : ρ) (l : Loop Closure TimerId)
      (c : Closure) : g < s.nextGen → Loop.Step b (s.gens g).loop a l →
      c ∈ (s.gens g).loop.running → l.accepted = (s.gens g).loop.accepted →
      l.started = (s.gens g).loop.started → l.finished = (s.gens g).loop.finished ++ [c] →
      Step b s (.loop g a v) ((s.withLoop g l).finishClosure v c)
  | dropLoop (g : Gen) : g < s.nextGen → s.runLoopInstance ≠ some g →
      (s.gens g).loop.pendingTimers = [] →
      Step b s (.dropLoop g) (s.setGen g { s.gens g with
        dropped := true
        loop := if b = .linux then (s.gens g).loop else (s.gens g).loop.discard })

/-! ## Every step is one of them -/

theorem Step.of_init {b : Backend} {s s' : Process ρ} {t : Thread} (h : s.init t = some s') :
    Step b s (.init t) s' := by
  unfold Process.init at h
  split at h
  · cases h
  · rename_i hfree
    simp only [Bool.or_eq_true, Option.isSome_iff_ne_none, not_or, ne_eq, not_not,
      Bool.not_eq_true] at hfree
    split at h
    · rename_i hc
      split at h
      · cases h
        exact .stay _
      · rename_i hi
        cases h
        exact .newGen t hfree.1 hc hi hfree.2
    · rename_i hc
      split at h
      · cases h
        exact .initAgain t hfree.1 (Nat.pos_of_ne_zero hc)
      · cases h
        exact .stay _

theorem Step.of_dropGuard {b : Backend} {s s' : Process ρ} {t : Thread}
    (h : s.dropGuard t = some s') : Step b s (.dropGuard t) s' := by
  unfold dropGuard at h
  split at h
  · cases h
  · rename_i hfree
    have hfree : s.initMutex = none := by
      cases hm : s.initMutex with
      | none => rfl
      | some m => simp [hm] at hfree
    split at h
    · cases h
    · rename_i hc
      cases h
      exact .dropLast t hfree hc
    · rename_i n hne hc
      cases h
      obtain ⟨m, rfl⟩ : ∃ m, n = m + 1 := Nat.exists_eq_succ_of_ne_zero (by simpa using hne)
      exact .dropMore t m hfree hc

theorem Step.of_advance {b : Backend} {s s' : Process ρ} (h : s.advance = some s') :
    Step b s .advance s' := by
  unfold advance at h
  split at h
  case h_1 t g hm =>
    cases h
    exact .setSender t g hm
  case h_2 t g hm =>
    cases h
    exact .setThread t g hm
  case h_3 t g hm =>
    cases h
    exact .setCount t g hm
  case h_4 hm =>
    split at h
    · rename_i g hi
      cases h
      exact .setShutdown g hm hi
    · rename_i hi
      cases h
      exact .noInstance hm hi
  case h_5 g hm =>
    cases h
    exact .setToken g hm
  case h_6 g hm =>
    cases h
    exact .takePending g hm
  case h_7 g o os hm =>
    cases h
    split
    · exact .cancel g o os hm
    · rename_i hu
      exact .cancelDead g o os hm (by simpa using hu)
  case h_8 g hm =>
    cases h
    exact .cancelled g hm
  case h_9 hm =>
    cases h
    exact .clearThread hm
  case h_10 hm =>
    cases h
    exact .clearInstance hm
  case h_11 hm =>
    cases h
    exact .clearSender hm
  case h_12 => cases h

theorem currentLocal_eq_ok {s : Process ρ} {t : Thread} {g : Gen} :
    s.currentLocal t = .ok g ↔ s.runLoopThreadId = some t ∧ s.runLoopInstance = some g ∧
      (s.gens g).hasShutdown = false := by
  unfold currentLocal
  split
  · rename_i ht
    simp [ht]
  · rename_i t' ht
    by_cases htt : t = t'
    · subst htt
      cases hi : s.runLoopInstance with
      | none => simp
      | some g' =>
          by_cases hg : g' = g
          · subst hg
            cases hs : (s.gens g').hasShutdown <;> simp [ht, hs]
          · cases hs : (s.gens g').hasShutdown <;> simp [ht, hg, hs]
    · simp [ht, htt, Ne.symm htt]

/-- A step that changes only operation `o`. -/
theorem Step.of_setOp {b : Backend} {s : Process ρ} (a : Action ρ) {o : OpId} {p : Op ρ}
    (h : OpStep b s (s.ops o) p) : Step b s a (s.setOp o p) :=
  .op a o p s.handed h fun _ hx => .inl hx

theorem Step.of_enter {b : Backend} {s : Process ρ} {o : OpId} (hpc : (s.ops o).pc = .entered) :
    Step b s (.op o) (s.enter o) := by
  unfold enter
  dsimp only
  split
  · cases hl : s.currentLocal (s.ops o).thread with
    | ok g =>
        refine .op _ o _ _ (.inlineCall _ g hpc hl) fun x hx => ?_
        rcases List.mem_append.mp hx with hx | hx
        · exact .inl hx
        · rw [List.mem_singleton] at hx
          exact .inr (hx ▸ (currentLocal_eq_ok.mp hl).2.2)
    | error e => exact .of_setOp _ (.noLocal _ e hpc)
  · rename_i hcall
    split
    · rename_i g hs
      exact .of_setOp _ (.takeSender _ g hpc hs fun hk ht => hcall ⟨hk, ht⟩)
    · exact .of_setOp _ (.noLocal _ _ hpc)

theorem Step.of_checkToken {b : Backend} {s : Process ρ} {o : OpId}
    (hpc : ((s.ops o).pc = .gotSender ∧ (s.ops o).kind = .post) ∨ (s.ops o).pc = .registered) :
    Step b s (.op o) (s.checkToken o) := by
  unfold checkToken
  dsimp only
  split
  · rename_i ht
    exact .of_setOp _ (.refuseToken _ (hpc.imp_left And.left) (by simpa using ht))
  · rename_i ht
    simp only [Bool.or_eq_true, not_or, Bool.not_eq_true] at ht
    exact .of_setOp _ (.check _ hpc ht.2)

theorem Step.of_recheckToken {b : Backend} {s : Process ρ} {o : OpId}
    (hpc : (s.ops o).pc = .enqueued) : Step b s (.op o) (s.recheckToken o) := by
  unfold recheckToken
  split
  · rename_i ht
    exact .of_setOp _ (.reject _ hpc ht)
  · rename_i ht
    cases hk : (s.ops o).kind with
    | post => exact .of_setOp _ (.posted _ hpc hk)
    | call => exact .of_setOp _ (.wait _ hpc hk (by simpa using ht))

theorem Step.of_stepOp {b : Backend} {s s' : Process ρ} {o : OpId} (h : s.stepOp o = some s') :
    Step b s (.op o) s' := by
  unfold stepOp at h
  split at h
  case h_1 hpc =>
    cases h
    exact .of_enter hpc
  case h_2 hpc =>
    split at h
    · rename_i hk
      cases h
      exact .of_checkToken (.inl ⟨hpc, hk⟩)
    · rename_i hk
      cases h
      exact .register o hpc hk
  case h_3 hpc =>
    cases h
    exact .of_checkToken (.inr hpc)
  case h_4 hpc =>
    cases h
    exact .of_recheckToken hpc
  case h_5 hpc =>
    rw [Option.map_eq_some_iff] at h
    obtain ⟨r, hr, rfl⟩ := h
    exact .of_setOp _ (.get _ r hpc hr)
  case h_6 => cases h

theorem Step.of_runInline {s : Process ρ} {o : OpId} (v : ρ) (hpc : (s.ops o).pc = .checked)
    (hd : (s.gens (s.ops o).gen).dropped = true) :
    Step .linux s (.enqueue o .inline v)
      (((s.startClosure (s.ops o).thread (.op o)).finishClosure v (.op o)).setPc o .enqueued) := by
  have hstep : OpStep .linux s (s.ops o) _ := .runInline (s.ops o) v hpc hd rfl
  cases hl : s.currentLocal (s.ops o).thread with
  | ok g =>
      have := Step.op (.enqueue o .inline v) o _ (s.handed ++ [(g, (s.gens g).hasShutdown)])
        hstep fun x hx => ?_
      · simpa [startClosure, finishClosure, setPc, setOp, hl] using this
      · rcases List.mem_append.mp hx with hx | hx
        · exact .inl hx
        · rw [List.mem_singleton] at hx
          exact .inr (hx ▸ (currentLocal_eq_ok.mp hl).2.2)
  | error e =>
      have := Step.of_setOp (.enqueue o .inline v) hstep
      simpa [startClosure, finishClosure, setPc, setOp, hl] using this

theorem Step.of_enqueue {b : Backend} {s s' : Process ρ} {o : OpId} {outcome : SendOutcome}
    {v : ρ} (h : s.enqueue b o outcome v = some s') : Step b s (.enqueue o outcome v) s' := by
  unfold Process.enqueue at h
  dsimp only at h
  split at h
  · rename_i hpc
    split at h
    · rename_i hend
      cases outcome with
      | queued =>
          cases h
          refine .enqueue o v hpc fun hd => ?_
          simpa [Backend.mayEnd, hd] using hend
      | lost =>
          cases h
          simp only [Backend.mayEnd, Bool.and_eq_true] at hend
          exact .of_setOp _ (.lose _ hpc hend.1)
      | refused =>
          cases h
          simp only [Backend.mayEnd, Bool.and_eq_true] at hend
          exact .of_setOp _ (.refuseSend _ hpc hend.1)
      | inline =>
          cases h
          simp only [Backend.mayEnd, Bool.and_eq_true, beq_iff_eq] at hend
          obtain ⟨hd, rfl⟩ := hend
          exact .of_runInline v hpc hd
    · cases h
  · cases h

theorem Step.of_inlineReturn {b : Backend} {s s' : Process ρ} {o : OpId} {v : ρ}
    (h : s.inlineReturn o v = some s') : Step b s (.inlineReturn o v) s' := by
  unfold inlineReturn at h
  split at h
  · rename_i hpc
    cases h
    exact .of_setOp _ (.inlineReturn _ v hpc)
  · cases h

theorem Step.of_stepLoop {b : Backend} {s s' : Process ρ} {g : Gen} {a : Act Closure TimerId}
    {v : ρ} (h : s.stepLoop b g a v = some s') : Step b s (.loop g a v) s' := by
  unfold stepLoop at h
  dsimp only at h
  split at h
  · rename_i hg
    rw [Option.map_eq_some_iff] at h
    obtain ⟨l, hl, rfl⟩ := h
    have hstep := Loop.step_cases hl
    cases hstep.effect with
    | quiet hu hr ha hs hf =>
        simp only [hs, hf, List.drop_length, List.foldl_nil]
        exact .loopQuiet g a v l hg.1 hstep (fun o => by rw [ha]) hs hf
    | accept c hc _ hu hr ha hs hf =>
        simp only [hs, hf, List.drop_length, List.foldl_nil]
        refine .loopQuiet g a v l hg.1 hstep (fun o => ?_) hs hf
        -- only `enqueue` sends the closure of an operation
        have hne : Closure.op o ≠ c := by
          rintro rfl
          rcases hc with rfl | rfl <;> exact hg.2 rfl
        simp [ha, hne]
    | start c hu hr ha hs hf =>
        simp only [hs, hf, List.drop_length, List.foldl_nil, List.drop_left, List.foldl_cons]
        exact .loopStart g a v l c hg.1 hstep (hu.mem_iff.mpr List.mem_cons_self) ha hs hf
    | finish c hu hr ha hs hf =>
        simp only [hs, hf, List.drop_length, List.foldl_nil, List.drop_left, List.foldl_cons]
        exact .loopFinish g a v l c hg.1 hstep (hr ▸ List.mem_cons_self) ha hs hf
  · cases h

theorem Step.of_dropLoop {b : Backend} {s s' : Process ρ} {g : Gen}
    (h : s.dropLoop b g = some s') : Step b s (.dropLoop g) s' := by
  simp only [Process.dropLoop, Option.ite_none_right_eq_some, Option.some.injEq, List.isEmpty_iff] at h
  obtain ⟨⟨hg, _, hi, ht⟩, rfl⟩ := h
  exact .dropLoop g hg hi ht

/-- **Every step is one of the transitions.** -/
theorem step_cases {b : Backend} {s s' : Process ρ} {a : Action ρ} (h : s.step b a = some s') :
    Step b s a s' := by
  cases a with
  | init t => exact .of_init h
  | dropGuard t => exact .of_dropGuard h
  | advance => exact .of_advance h
  | begin k t =>
      simp only [step, Process.begin, Option.ite_none_left_eq_some, Option.some.injEq, Bool.or_eq_true,
        not_or, Bool.not_eq_true] at h
      obtain ⟨⟨_, hi⟩, rfl⟩ := h
      exact .begin k t hi
  | op o => exact .of_stepOp h
  | enqueue o outcome v => exact .of_enqueue h
  | inlineReturn o v => exact .of_inlineReturn h
  | loop g a v => exact .of_stepLoop h
  | dropLoop g => exact .of_dropLoop h

end Process

end Wxp.RunLoop
