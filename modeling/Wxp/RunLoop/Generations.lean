import Wxp.RunLoop.Call

/-!
# RunLoop — Generations

Work that was rejected does not run, and work stays in its generation — in every
run whose transitions are `Clean`:

* when `shutdown` sets the token, no operation whose callback has started is
  still between the two token checks or waiting for its value;
* when `init` creates a generation, the earlier generations of the same thread
  have nothing left to run: no closure of an operation in a queue or batch, and
  no sender between the first token check and the platform queue.

The closures carry no generation: what a queue that outlives its `shutdown` runs
goes by `current_local` alone. `work_is_not_contained` has the runs
that fail without the conditions.
-/

namespace Wxp.RunLoop

variable {ρ : Type}

/-- The operation can still come to an error although its callback runs: it is
before the second token check, or waits for a completion that is not there. -/
def Op.unsettled (p : Op ρ) : Bool :=
  (p.current matches some (.ok _)) &&
    ((p.pc matches .enqueued) || (p.kind == .call && (p.pc matches .blocked) && !p.completed))

namespace Process

/-- Nothing of generation `g` can still be started by its platform loop. -/
def Quiet (b : Backend) (s : Process ρ) (g : Gen) : Prop :=
  ∀ o < s.nextOp, .op o ∉ (s.gens g).loop.unstarted ∧
    ((s.ops o).pc matches .checked → (s.ops o).gen = g →
      b.mayEnd (s.gens g).dropped .queued = false)

instance (b : Backend) (s : Process ρ) (g : Gen) : Decidable (s.Quiet b g) :=
  inferInstanceAs (Decidable (∀ _, _))

/-- The step stores the token of the generation that is shut down. -/
def setsToken (s : Process ρ) : Action ρ → Bool
  | .advance => (s.initMutex matches some (.setToken _))
  | _ => false

/-- The thread the step creates a generation on. -/
def creator (s : Process ρ) : Action ρ → Option Thread
  | .init t => if s.initCount = 0 then some t else none
  | _ => none

structure Clean (b : Backend) (s : Process ρ) (a : Action ρ) : Prop where
  settled : s.setsToken a = true → ∀ o < s.nextOp, (s.ops o).unsettled = false
  quiet : ∀ g < s.nextGen, s.creator a = some (s.gens g).owner → s.Quiet b g

instance (b : Backend) (s : Process ρ) (a : Action ρ) : Decidable (s.Clean b a) :=
  decidable_of_iff ((s.setsToken a = true → ∀ o < s.nextOp, (s.ops o).unsettled = false) ∧
      ∀ g < s.nextGen, s.creator a = some (s.gens g).owner → s.Quiet b g)
    ⟨fun ⟨h1, h2⟩ => ⟨h1, h2⟩, fun ⟨h1, h2⟩ => ⟨h1, h2⟩⟩

/-- An operation that returned an error has not run its callback, and a callback
runs with a `RunLoopLocal` of the generation that took its closure. -/
def Contained (s : Process ρ) : Prop :=
  ∀ o g, (s.ops o).current = some (.ok g) →
    (∀ e, (s.ops o).pc ≠ .returned (.err e)) ∧ (s.ops o).gen = g

/-! ## Senders and the run loop thread -/

end Process

/-- The thread holds a sender it has not used yet. -/
def Pc.armed : Pc ρ → Bool
  | .gotSender | .registered | .checked => true
  | _ => false

theorem Pc.busy_of_armed {pc : Pc ρ} (h : pc.armed = true) : pc.busy = true := by
  cases pc <;> simp_all [Pc.armed, Pc.busy]

namespace Process

/-- A thread that holds an unused sender becomes the run loop thread of no other
generation: it is not inside `init`. -/
structure ThreadOk (s : Process ρ) (p : Op ρ) : Prop where
  armed : p.pc.armed = true → s.runLoopThreadId = some p.thread →
    s.runLoopInstance = some p.gen
  busy : p.pc.busy = true → s.initializing p.thread = false

theorem Lifecycle.published {s : Process ρ} (h : s.Lifecycle) {t : Thread}
    (ht : s.runLoopThreadId = some t) : ∃ g, s.Published g := by
  have hp := h.phase
  unfold PhaseOk at hp
  split at hp <;> grind

theorem ThreadOk.opStep {b : Backend} {s : Process ρ} {p p' : Op ρ} (hl : s.Lifecycle)
    (h : ThreadOk s p) (hst : OpStep b s p p') : ThreadOk s p' := by
  obtain ⟨h1, h2⟩ := h
  cases hst with
  | takeSender g hpc hs _ =>
      refine ⟨fun _ ht => ?_, fun _ => h2 (by rw [hpc]; rfl)⟩
      obtain ⟨g', hpub⟩ := hl.published ht
      obtain rfl : g = g' := by simpa [hs] using hpub.sender
      exact hpub.inst
  | runInline v hpc =>
      refine ⟨by simp [Pc.armed], fun _ => ?_⟩
      simpa using h2 (by rw [hpc]; rfl)
  | get r hpc =>
      exact ⟨by simp [Op.get, Pc.armed], by simp [Op.get, Pc.busy]⟩
  | inlineCall | noLocal | refuseToken | check | refuseSend | lose | reject | posted | wait
  | inlineReturn =>
      constructor <;> grind [Pc.armed, Pc.busy]

theorem ThreadOk.congr {s s' : Process ρ} {p p' : Op ρ} (h : ThreadOk s p) (hp : p'.pc = p.pc)
    (ht : p'.thread = p.thread) (hg : p'.gen = p.gen)
    (hti : s'.runLoopThreadId = s.runLoopThreadId) (hi : s'.runLoopInstance = s.runLoopInstance)
    (hn : ∀ t, s'.initializing t = true → s.initializing t = true) : ThreadOk s' p' where
  armed := by rw [hp, ht, hg, hti, hi]; exact h.armed
  busy hb := by
    rw [ht]
    have hs := h.busy (by rwa [← hp])
    cases hs' : s'.initializing p.thread with
    | false => rfl
    | true => rw [hn _ hs'] at hs; cases hs

theorem ThreadOk.update {s s' : Process ρ} (ht : ∀ o, ThreadOk s (s.ops o)) {o : OpId}
    {p : Op ρ} (hops : s'.ops = Function.update s.ops o p) (hp : ThreadOk s' p)
    (hti : s'.runLoopThreadId = s.runLoopThreadId) (hi : s'.runLoopInstance = s.runLoopInstance)
    (hn : ∀ t, s'.initializing t = true → s.initializing t = true) :
    ∀ o', ThreadOk s' (s'.ops o') :=
  ops_update (P := fun _ => ThreadOk s') hops hp
    fun o'' _ => (ht o'').congr rfl rfl rfl hti hi hn

/-- No thread of a busy operation begins `init`. -/
theorem Sound.thread_ne_of_busy {s : Process ρ} (h : s.Sound) {t : Thread}
    (hb : s.busy t = false) {o : OpId} (ho : (s.ops o).pc.busy = true) :
    (s.ops o).thread ≠ t := by
  rintro rfl
  have hlt : o < s.nextOp := by
    by_contra hge
    rw [h.idle o (Nat.le_of_not_lt hge)] at ho
    cases ho
  simp only [busy, List.any_eq_false, List.mem_range, Bool.and_eq_true, beq_iff_eq] at hb
  exact hb o hlt ⟨rfl, ho⟩

theorem threads_step {b : Backend} {s s' : Process ρ} {a : Action ρ} (h : s.Sound)
    (ht : ∀ o, ThreadOk s (s.ops o)) (hst : Step b s a s') : ∀ o, ThreadOk s' (s'.ops o) := by
  have hp := h.lifecycle.phase
  cases hst with
  | stay => exact ht
  | newGen t hm hc hi hb =>
      simp only [PhaseOk, hm, hc, Nat.lt_irrefl, false_and, or_false] at hp
      refine fun o => ⟨fun _ hth => ?_, fun hbusy => ?_⟩
      · simp [hp.2.2] at hth
      · have hne := h.thread_ne_of_busy hb hbusy
        simpa [initializing] using hne.symm
  | initAgain t hm | dropMore t n hm | dropLast t hm | setSender t g hm | setCount t g hm
  | setShutdown g hm | noInstance hm | setToken g hm | takePending g hm | cancelDead g o' os hm
  | cancelled g hm | clearSender hm =>
      exact fun o => (ht o).congr rfl rfl rfl rfl rfl (by simp [initializing, hm])
  | setThread t g hm =>
      refine fun o => ⟨fun harm hth => ?_, fun hbusy => ?_⟩
      · -- the thread inside `init` has no busy operation
        have hne := (ht o).busy (Pc.busy_of_armed harm)
        simp only [initializing, hm] at hne
        simp_all
      · simpa [initializing, hm] using (ht o).busy hbusy
  | clearThread hm =>
      exact fun _ => ⟨fun _ hth => by simp at hth, fun _ => by simp [initializing]⟩
  | clearInstance hm =>
      simp only [PhaseOk, hm] at hp
      exact fun _ => ⟨fun _ hth => by simp [hp.2] at hth, fun _ => by simp [initializing]⟩
  | cancel g o' os hm =>
      refine ThreadOk.update ht (o := o') rfl ?_ rfl rfl (by simp [initializing])
      exact (ht o').congr (by simp [Op.cancel]) (by simp [Op.cancel]) (by simp [Op.cancel])
          rfl rfl (by simp [initializing])
  | begin k t hi =>
      refine ThreadOk.update ht (o := s.nextOp) rfl ?_ rfl rfl (fun _ => id)
      exact ⟨by simp [Pc.armed], fun _ => hi⟩
  | register o' hpc hk =>
      refine ThreadOk.update ht (o := o') rfl ?_ rfl rfl (fun _ => id)
      exact ⟨fun _ => (ht o').armed (by rw [hpc]; rfl),
          fun _ => (ht o').busy (by rw [hpc]; rfl)⟩
  | op a o' p handed hop _ =>
      refine ThreadOk.update ht (o := o') rfl ?_ rfl rfl (fun _ => id)
      exact ((ht o').opStep h.lifecycle hop).congr rfl rfl rfl rfl rfl fun _ => id
  | enqueue o' v hpc _ =>
      refine ThreadOk.update ht (o := o') rfl ?_ rfl rfl (fun _ => id)
      exact ⟨by simp [Pc.armed], fun _ => (ht o').busy (by rw [hpc]; rfl)⟩
  | loopQuiet g a v l => exact fun o => (ht o).congr rfl rfl rfl rfl rfl fun _ => id
  | loopStart g a v l c =>
      cases c with
      | wake n => exact fun o => (ht o).congr rfl rfl rfl rfl rfl fun _ => id
      | op o' =>
          obtain ⟨handed, he⟩ := startClosure_op (s.withLoop g l) (s.gens g).owner o'
          rw [he]
          refine ThreadOk.update ht (o := o') rfl ?_ rfl rfl (fun _ => id)
          exact (ht o').congr rfl rfl rfl rfl rfl fun _ => id
  | loopFinish g a v l c =>
      cases c with
      | wake n => exact fun o => (ht o).congr rfl rfl rfl rfl rfl fun _ => id
      | op o' =>
          refine ThreadOk.update ht (o := o') rfl ?_ rfl rfl (fun _ => id)
          exact (ht o').congr (Op.finish_pc _ _) (Op.finish_thread _ _) (Op.finish_gen _ _)
              rfl rfl fun _ => id
  | dropLoop g => exact fun o => (ht o).congr rfl rfl rfl rfl rfl fun _ => id

/-! ## The invariant of clean runs -/

/-- What is known of operation `o`: its callback ran in its own generation, and
once it has come to an error its callback has not run and will not. -/
structure OpKept (s : Process ρ) (o : OpId) (p : Op ρ) : Prop where
  own : ∀ g, p.current = some (.ok g) → p.gen = g
  live : p.unsettled = true → (s.gens p.gen).shutdownToken = false
  failed : ∀ e, p.pc = .returned (.err e) → (∀ g, p.current ≠ some (.ok g)) ∧
    (p.current = none → .op o ∈ (s.gens p.gen).loop.accepted → (s.gens p.gen).hasShutdown = true)
  cancelled : ∀ e, p.kind = .call → p.slot = some (.error e) →
    p.pc = .registered ∨ p.pc = .checked ∨ p.pc = .enqueued ∨ p.pc = .blocked →
    (∀ g, p.current ≠ some (.ok g)) ∧
    (p.current = none → (s.gens p.gen).hasShutdown = true)

/-- `Quiet`, of the operations to come as well. -/
def Still (b : Backend) (s : Process ρ) (g : Gen) : Prop :=
  ∀ o, .op o ∉ (s.gens g).loop.unstarted ∧
    ((s.ops o).pc = .checked → (s.ops o).gen = g → b.mayEnd (s.gens g).dropped .queued = false)

/-- The generation in the instance shares its thread with no earlier one that
has anything left to run. -/
def Separate (b : Backend) (s : Process ρ) : Prop :=
  ∀ g g', s.runLoopInstance = some g' → g < s.nextGen → g ≠ g' →
    (s.gens g).owner = (s.gens g').owner → s.Still b g

structure Kept (b : Backend) (s : Process ρ) : Prop where
  separate : s.Separate b
  ops : ∀ o, OpKept s o (s.ops o)

/-- Before the closure is sent the callback has not run, and no loop will run it. -/
theorem OpKept.unsent {s : Process ρ} {o : OpId} {p : Op ρ} (ho : OpOk s o p)
    (hns : p.pc.sent = false) (hinl : p.pc ≠ .inline) {pc : Pc ρ} {g : Gen}
    (hc : ∀ e, p.kind = .call → p.slot = some (.error e) →
      pc = .registered ∨ pc = .checked ∨ pc = .enqueued ∨ pc = .blocked →
      (s.gens g).hasShutdown = true) : OpKept s o { p with pc := pc, gen := g } where
  own g' hcur := by simp [(ho.early hns).2 hinl] at hcur
  live hu := by simp [Op.unsettled, (ho.early hns).2 hinl] at hu
  failed e _ := ⟨by simp [(ho.early hns).2 hinl],
    fun _ hacc => absurd hacc (ho.not_accepted hns g)⟩
  cancelled e hk hs hpc := ⟨by simp [(ho.early hns).2 hinl], fun _ => hc e hk hs hpc⟩

theorem OpKept.opStep {b : Backend} {s : Process ρ} {o : OpId} {p p' : Op ρ} (hl : s.Lifecycle)
    (ho : OpOk s o p) (ht : ThreadOk s p) (h : OpKept s o p) (hst : OpStep b s p p') :
    OpKept s o p' := by
  -- what a cancelled call knew at its old `pc` it knows at its new one
  have hkeep : ∀ e, p.current = none → p.kind = .call → p.slot = some (.error e) →
      p.pc = .registered ∨ p.pc = .checked → (s.gens p.gen).hasShutdown = true :=
    fun e hcur hk hs hpc => (h.cancelled e hk hs (by tauto)).2 hcur
  cases hst with
  | inlineCall g hpc _ =>
      exact ⟨by simp, by simp [Op.unsettled], by simp, by simp⟩
  | takeSender g hpc _ _ | noLocal e hpc | refuseSend hpc _ =>
      exact .unsent ho (by rw [hpc]; rfl) (by simp [hpc]) (by simp)
  | refuseToken hpc _ =>
      rcases hpc with hpc | hpc <;>
        exact .unsent ho (by rw [hpc]; rfl) (by simp [hpc]) (by simp)
  | check hpc _ =>
      rcases hpc with ⟨hpc, hk⟩ | hpc
      · exact .unsent ho (by rw [hpc]; rfl) (by simp [hpc]) (by simp [hk])
      · have hcur := (ho.early (by rw [hpc]; rfl)).2 (by simp [hpc])
        exact .unsent ho (by rw [hpc]; rfl) (by simp [hpc])
          fun e hk hs _ => hkeep e hcur hk hs (.inl hpc)
  | lose hpc _ =>
      have hcur := (ho.early (by rw [hpc]; rfl)).2 (by simp [hpc])
      exact .unsent ho (by rw [hpc]; rfl) (by simp [hpc])
        fun e hk hs _ => hkeep e hcur hk hs (.inr hpc)
  | runInline v hpc hd hb =>
      -- the generation is dropped, so the thread is not its run loop thread
      have hcl : ∀ g, s.currentLocal p.thread ≠ .ok g := fun g hcl => by
        have hti := (currentLocal_eq_ok.mp hcl).1
        exact hl.dropped p.gen hd (ht.armed (by rw [hpc]; rfl) hti)
      cases hc : s.currentLocal p.thread with
      | ok g => exact absurd hc (hcl g)
      | error e => constructor <;> simp [Op.unsettled]
  | reject hpc htok =>
      -- a callback that runs at the second check has its token unset
      have hncur : ∀ g, p.current ≠ some (.ok g) := fun g hcur => by
        have hlive := h.live (by simp [Op.unsettled, hpc, hcur])
        rw [htok] at hlive
        cases hlive
      exact {
        own := h.own
        live := by simp [Op.unsettled]
        failed := fun e _ => ⟨hncur, fun _ _ => hl.token p.gen htok⟩
        cancelled := by simp }
  | posted hpc _ =>
      exact ⟨h.own, by simp [Op.unsettled], by simp, by simp⟩
  | wait hpc hk htok =>
      exact ⟨h.own, fun _ => htok, by simp,
        fun e _ hs _ => h.cancelled e hk hs (by simp [hpc])⟩
  | get r hpc hr =>
      have hk := ho.kind (.inr hpc)
      cases r with
      | ok v => exact ⟨h.own, by simp [Op.unsettled, Op.get], by simp [Op.get], by simp [Op.get]⟩
      | error e =>
          have hcancel := h.cancelled e hk hr (by simp [hpc])
          exact ⟨h.own, by simp [Op.unsettled, Op.get],
            fun _ _ => ⟨hcancel.1, fun hcur _ => hcancel.2 hcur⟩, by simp [Op.get]⟩
  | inlineReturn v hpc =>
      exact ⟨h.own, by simp [Op.unsettled], by simp, by simp⟩

theorem OpKept.frame {s s' : Process ρ} {o : OpId} {p : Op ρ} (h : OpKept s o p)
    (htok : p.unsettled = true →
      (s'.gens p.gen).shutdownToken = (s.gens p.gen).shutdownToken)
    (hsh : p.pc.sending = true ∨ .op o ∈ (s'.gens p.gen).loop.accepted →
      (s.gens p.gen).hasShutdown = true → (s'.gens p.gen).hasShutdown = true)
    (hacc : .op o ∈ (s'.gens p.gen).loop.accepted → .op o ∈ (s.gens p.gen).loop.accepted) :
    OpKept s' o p where
  own := h.own
  live hu := (htok hu).trans (h.live hu)
  failed e hpc := ⟨(h.failed e hpc).1, fun hc ha =>
    hsh (.inr ha) ((h.failed e hpc).2 hc (hacc ha))⟩
  cancelled e hk hs hpc := ⟨(h.cancelled e hk hs hpc).1, fun hc =>
    hsh (.inl (by rcases hpc with hpc | hpc | hpc | hpc <;> rw [hpc] <;> rfl))
      ((h.cancelled e hk hs hpc).2 hc)⟩

theorem OpKept.congr {s s' : Process ρ} {o : OpId} {p : Op ρ} (h : OpKept s o p)
    (htok : ∀ g, (s'.gens g).shutdownToken = (s.gens g).shutdownToken)
    (hsh : ∀ g, (s'.gens g).hasShutdown = (s.gens g).hasShutdown)
    (hacc : ∀ g, .op o ∈ (s'.gens g).loop.accepted → .op o ∈ (s.gens g).loop.accepted) :
    OpKept s' o p :=
  h.frame (fun _ => htok _) (fun _ => by rw [hsh]; exact id) (hacc _)

theorem Sound.still {b : Backend} {s : Process ρ} (h : s.Sound) {g : Gen} (hq : s.Quiet b g) :
    s.Still b g := by
  intro o
  by_cases ho : o < s.nextOp
  · exact ⟨(hq o ho).1, fun hpc => (hq o ho).2 (by simp [hpc])⟩
  · -- an operation to come is in no loop
    have hidle := h.idle o (Nat.le_of_not_lt ho)
    refine ⟨fun hu => h.begun ((h.wf g).mem_unstarted.mp hu).1 hidle, fun hpc => ?_⟩
    cases hidle.symm.trans hpc

theorem Still.congr {b : Backend} {s s' : Process ρ} {g : Gen} (h : s.Still b g)
    (hu : ∀ o, .op o ∈ (s'.gens g).loop.unstarted → .op o ∈ (s.gens g).loop.unstarted)
    (hp : ∀ o, (s'.ops o).pc = .checked → (s'.ops o).gen = g →
      (s.ops o).pc = .checked ∧ (s.ops o).gen = g)
    (hd : (s.gens g).dropped = true → (s'.gens g).dropped = true) : s'.Still b g := by
  intro o
  obtain ⟨h1, h2⟩ := h o
  refine ⟨fun hx => h1 (hu o hx), fun hpc hg => ?_⟩
  obtain ⟨hpc', hg'⟩ := hp o hpc hg
  have hend := h2 hpc' hg'
  -- a queue that takes nothing is gone, and stays gone
  cases hdr : (s.gens g).dropped with
  | false => simp [Backend.mayEnd, hdr] at hend
  | true => rwa [hd hdr, ← hdr]

theorem Separate.congr {b : Backend} {s s' : Process ρ} (h : s.Separate b)
    (e : SameStatics s s')
    (hq : ∀ g g', s.runLoopInstance = some g' → g ≠ g' → s.Still b g → s'.Still b g) :
    s'.Separate b := by
  intro g g' hi hg hne ho
  rw [e.inst] at hi
  rw [e.nextGen] at hg
  rw [e.owner, e.owner] at ho
  exact hq g g' hi hne (h g g' hi hg hne ho)

/-- A step that changes the flags of generations, and the statics, only. -/
theorem Kept.statics {b : Backend} {s s' : Process ρ} (h : s.Kept b)
    (hi : ∀ g, s'.runLoopInstance = some g → s.runLoopInstance = some g)
    (hn : s'.nextGen = s.nextGen) (ho : s'.ops = s.ops)
    (howner : ∀ g, (s'.gens g).owner = (s.gens g).owner)
    (hloop : ∀ g, (s'.gens g).loop = (s.gens g).loop)
    (hd : ∀ g, (s'.gens g).dropped = (s.gens g).dropped)
    (htok : ∀ o, (s.ops o).unsettled = true →
      (s'.gens (s.ops o).gen).shutdownToken = (s.gens (s.ops o).gen).shutdownToken)
    (hsh : ∀ g, (s.gens g).hasShutdown = true → (s'.gens g).hasShutdown = true) : s'.Kept b where
  separate g g' hig hg hne howner' := by
    rw [howner, howner] at howner'
    rw [hn] at hg
    exact (h.separate g g' (hi g' hig) hg hne howner').congr (fun o => by rw [hloop]; exact id)
      (fun o => by rw [ho]; exact fun h1 h2 => ⟨h1, h2⟩) (by rw [hd]; exact id)
  ops o := by
    rw [ho]
    exact (h.ops o).frame (htok o) (fun _ => hsh _) (by rw [hloop]; exact id)

theorem Kept.newGen {b : Backend} {s : Process ρ} (hs : s.Sound) (h : s.Kept b) {t : Thread}
    (hc : s.initCount = 0) (hok : s.Clean b (.init t)) {m : Option Transition} :
    Kept b { s with
      gens := Function.update s.gens s.nextGen { owner := t }
      nextGen := s.nextGen + 1
      runLoopInstance := some s.nextGen
      initMutex := m } where
  separate g g' hi hg hne ho := by
    obtain rfl : s.nextGen = g' := by simpa using hi
    have hlt : g < s.nextGen := Nat.lt_of_le_of_ne (Nat.le_of_lt_succ hg) hne
    have hquiet := hok.quiet g hlt (by simpa [creator, hc, hne] using ho.symm)
    exact (hs.still hquiet).congr (fun o => by simp [hne]) (fun o h1 h2 => ⟨h1, h2⟩)
      (by simp [hne])
  ops o := by
    refine (h.ops o).frame (fun hu => ?_) (fun hx => ?_) ?_
    · have hlt : (s.ops o).gen < s.nextGen := (hs.ops o).gen (by
        grind [Op.unsettled, Pc.sending])
      simp [Nat.ne_of_lt hlt]
    · have hne : (s.ops o).gen ≠ s.nextGen := by
        rintro he
        rcases hx with hx | hx
        · exact Nat.ne_of_lt ((hs.ops o).gen hx) he
        · simp [he] at hx
      simp [hne]
    · by_cases he : (s.ops o).gen = s.nextGen <;> simp [he]

theorem OpKept.cancel {s : Process ρ} {o : OpId} {p : Op ρ} (h : OpKept s o p)
    (hl : s.Lifecycle) (ho : OpOk s o p) (ht : s.taken = true) : OpKept s o p.cancel := by
  cases hc : p.completed with
  | true => simpa [Op.cancel, Op.complete, hc] using h
  | false =>
      obtain ⟨h1, h2, h3, h4⟩ := h
      -- every token is set by now, so the callback cannot be running
      have htok : p.pc.sending = true → (s.gens p.gen).shutdownToken = true := fun hp =>
        hl.token_of_taken ht (ho.gen hp)
      have hsh := hl.token p.gen
      have hearly := ho.early
      simp only [Op.cancel, Op.complete, hc, Bool.false_eq_true, if_false]
      constructor <;> grind [Op.unsettled, Pc.sending, Pc.sent]

theorem Kept.cancel {b : Backend} {s : Process ρ} (hs : s.Sound) (h : s.Kept b) {g : Gen}
    {o : OpId} {os : List OpId} (hm : s.initMutex = some (.cancel g (o :: os))) :
    Kept b { s.setOp o (s.ops o).cancel with initMutex := some (.cancel g os) } where
  separate g' g'' hi hg hne howner := by
    refine (h.separate g' g'' hi hg hne howner).congr (fun _ => id) (fun o' => ?_) id
    by_cases ho : o' = o
    · subst ho
      simp only [setOp, Function.update_self, Op.cancel, Op.complete_pc, Op.complete_gen]
      exact fun h1 h2 => ⟨h1, h2⟩
    · simp only [setOp, Function.update_of_ne ho]
      exact fun h1 h2 => ⟨h1, h2⟩
  ops := by
    refine ops_update (o := o) rfl ?_ fun o' _ =>
      (h.ops o').congr (fun _ => rfl) (fun _ => rfl) fun _ => id
    exact ((h.ops o).cancel hs.lifecycle (hs.ops o) (by simp [taken, hm])).congr
      (fun _ => rfl) (fun _ => rfl) fun _ => id

theorem Kept.enqueue {b : Backend} {s : Process ρ} (hs : s.Sound) (h : s.Kept b) {o : OpId}
    (hpc : (s.ops o).pc = .checked)
    (hd : (s.gens (s.ops o).gen).dropped = true → b = .darwin ∨ b = .linux) :
    Kept b ((s.pushTo (s.ops o).gen (.op o)).setPc o .enqueued) where
  separate := by
    refine h.separate.congr ((SameStatics.setLoop s _ _).trans {}) fun g g' hi hne hstill => ?_
    have hg : g ≠ (s.ops o).gen := by
      rintro rfl
      have hend := (hstill o).2 hpc rfl
      cases hdr : (s.gens (s.ops o).gen).dropped with
      | false => simp [Backend.mayEnd, hdr] at hend
      | true => rcases hd hdr with rfl | rfl <;> simp [Backend.mayEnd, hdr] at hend
    refine hstill.congr (fun o' => ?_) (fun o' => ?_) ?_
    · rw [pushTo_loop, if_neg hg]
      exact id
    · by_cases ho : o' = o
      · simp [setPc, setOp, ho]
      · simp only [setPc, setOp, Function.update_of_ne ho]
        exact fun h1 h2 => ⟨h1, h2⟩
    · exact ((SameStatics.setLoop s (s.ops o).gen _).dropped g).symm ▸ id
  ops := by
    have hflags := SameStatics.setLoop s (s.ops o).gen
      ((s.gens (s.ops o).gen).loop.push (.op o))
    have hearly := (hs.ops o).early (by rw [hpc]; rfl)
    have hcur := hearly.2 (by simp [hpc])
    refine ops_update (o := o) (p := { s.ops o with pc := .enqueued }) rfl ?_ fun o' hne => ?_
    · exact {
        own := (h.ops o).own
        live := by simp [Op.unsettled, hcur]
        failed := by simp
        cancelled := fun e hk hsl _ => by
          have hc := (h.ops o).cancelled e hk hsl (.inr (.inl hpc))
          exact ⟨hc.1, fun hn => (hflags.hasShutdown _).trans (hc.2 hn)⟩ }
    · refine (h.ops o').congr hflags.token hflags.hasShutdown fun g => ?_
      rw [pushTo_loop]
      split <;> simp [Loop.push, hne]

/-- A step of a loop that queues no closure of an operation. -/
theorem Separate.withLoop {b : Backend} {s s' : Process ρ} (h : s.Separate b) {g : Gen}
    {l : Loop Closure TimerId} (e : SameStatics s s')
    (hg : s'.gens = (s.withLoop g l).gens)
    (hu : ∀ o, .op o ∈ l.unstarted → .op o ∈ (s.gens g).loop.unstarted)
    (hp : ∀ o, (s'.ops o).pc = (s.ops o).pc ∧ (s'.ops o).gen = (s.ops o).gen) :
    s'.Separate b := by
  refine h.congr e fun g' g'' _ _ hstill => hstill.congr (fun o => ?_) (fun o => ?_) ?_
  · rw [hg, withLoop_loop]
    split
    · rename_i hgg
      exact hgg ▸ hu o
    · exact id
  · rw [(hp o).1, (hp o).2]
    exact fun h1 h2 => ⟨h1, h2⟩
  · rw [e.dropped]
    exact id

theorem OpKept.withLoop {s : Process ρ} {o : OpId} {p : Op ρ} (h : OpKept s o p) {g : Gen}
    {l : Loop Closure TimerId}
    (ha : .op o ∈ l.accepted → .op o ∈ (s.gens g).loop.accepted) :
    OpKept (s.withLoop g l) o p := by
  have e := SameStatics.withLoop s g l
  refine h.congr e.token e.hasShutdown fun g' => ?_
  rw [withLoop_loop]
  split
  · rename_i hgg
    exact hgg ▸ ha
  · exact id

theorem Kept.withLoop {b : Backend} {s : Process ρ} (h : s.Kept b) {g : Gen}
    {l : Loop Closure TimerId}
    (hu : ∀ o, .op o ∈ l.unstarted → .op o ∈ (s.gens g).loop.unstarted)
    (ha : ∀ o, .op o ∈ l.accepted → .op o ∈ (s.gens g).loop.accepted) :
    Kept b (s.withLoop g l) where
  separate := h.separate.withLoop (.withLoop s g l) rfl hu fun _ => ⟨rfl, rfl⟩
  ops o := (h.ops o).withLoop (ha o)

theorem OpKept.start {s : Process ρ} {o : OpId} {p : Op ρ} (h : OpKept s o p)
    (hl : s.Lifecycle) (hcur : p.current = none)
    (hacc : .op o ∈ (s.gens p.gen).loop.accepted) {r : Except Error Gen}
    (hr : ∀ g, r = .ok g → g = p.gen ∧ (s.gens p.gen).hasShutdown = false) :
    OpKept s o { p with current := some r } := by
  obtain ⟨h1, h2, h3, h4⟩ := h
  have htok := hl.unset_of_hasShutdown (g := p.gen)
  cases r with
  | error e => constructor <;> grind [Op.unsettled]
  | ok g =>
      obtain ⟨hg, hsh⟩ := hr g rfl
      constructor <;> grind [Op.unsettled]

/-- A closure is started. If `current_local` succeeds it is in the generation of
the closure: another one would share its thread with a generation that has
closures left. -/
theorem Kept.start {b : Backend} {s : Process ρ} (hs : s.Sound) (h : s.Kept b) {g : Gen}
    {l : Loop Closure TimerId} {c : Closure} (hg : g < s.nextGen) (hw : l.Wf)
    (hc : c ∈ (s.gens g).loop.unstarted) (ha : l.accepted = (s.gens g).loop.accepted)
    (hst : l.started = (s.gens g).loop.started ++ [c]) :
    Kept b ((s.withLoop g l).startClosure (s.gens g).owner c) := by
  have hu : ∀ o, .op o ∈ l.unstarted → .op o ∈ (s.gens g).loop.unstarted := by
    intro o ho
    obtain ⟨h1, h2⟩ := hw.mem_unstarted.mp ho
    rw [ha] at h1
    rw [hst, List.mem_append, not_or] at h2
    exact (hs.wf g).mem_unstarted.mpr ⟨h1, h2.1⟩
  cases c with
  | wake n => exact h.withLoop hu fun o => by rw [ha]; exact id
  | op o =>
      have e := SameStatics.withLoop s g l
      have hacc := ((hs.wf g).mem_unstarted.mp hc)
      obtain ⟨hgen, hsent⟩ := (hs.ops o).accepted g hacc.1
      have hcur : (s.ops o).current = none := by
        by_contra hcur
        exact hacc.2 (((hs.ops o).started g hacc.1).mpr hcur)
      obtain ⟨handed, he⟩ := startClosure_op (s.withLoop g l) (s.gens g).owner o
      rw [he]
      refine ⟨h.separate.withLoop (e.trans {}) rfl hu fun o' => ?_,
        ops_update (o := o) rfl ?_ fun o' hne => ?_⟩
      · by_cases ho : o' = o <;> simp only [setOp, Function.update_of_ne, Function.update_self,
          ho, ne_eq, not_false_eq_true] <;> exact ⟨rfl, rfl⟩
      · -- what `current_local` gives is the generation of the closure
        have hlocal : ∀ g', (s.withLoop g l).currentLocal (s.gens g).owner = .ok g' →
            g' = g ∧ (s.gens g).hasShutdown = false := by
          intro g' hl
          obtain ⟨hti, hi, hsh⟩ := currentLocal_eq_ok.mp hl
          have hown := hs.lifecycle.owner hti hi
          rw [e.hasShutdown] at hsh
          by_cases hgg : g = g'
          · exact ⟨hgg.symm, hgg ▸ hsh⟩
          · exact absurd hc (h.separate g g' hi hg hgg hown.symm o).1
        subst hgen
        have hkept := (h.ops o).start hs.lifecycle hcur hacc.1 hlocal
        exact (hkept.withLoop fun hx => by rwa [ha] at hx).congr (fun _ => rfl)
          (fun _ => rfl) fun _ => id
      · exact ((h.ops o').withLoop fun hx => by rwa [ha] at hx).congr (fun _ => rfl)
          (fun _ => rfl) fun _ => id

theorem OpKept.finish {s : Process ρ} {o : OpId} {p : Op ρ} (h : OpKept s o p) (v : ρ) :
    OpKept s o (p.finish v) := by
  obtain ⟨h1, h2, h3, h4⟩ := h
  unfold Op.finish Op.complete
  constructor <;> grind [Op.unsettled]

theorem Kept.finish {b : Backend} {s : Process ρ} (h : s.Kept b) {g : Gen}
    {l : Loop Closure TimerId} {c : Closure}
    (hu : ∀ o, .op o ∈ l.unstarted → .op o ∈ (s.gens g).loop.unstarted)
    (ha : l.accepted = (s.gens g).loop.accepted) (v : ρ) :
    Kept b ((s.withLoop g l).finishClosure v c) := by
  cases c with
  | wake n => exact h.withLoop hu fun o => by rw [ha]; exact id
  | op o =>
      refine ⟨h.separate.withLoop ((SameStatics.withLoop s g l).trans {}) rfl hu fun o' => ?_,
        ops_update (o := o) rfl ?_ fun o' hne => ?_⟩
      · by_cases ho : o' = o
        · subst ho
          have hops : (((s.withLoop g l).finishClosure v (.op o')).ops o') =
              (s.ops o').finish v := Function.update_self ..
          rw [hops, Op.finish_pc, Op.finish_gen]
          exact ⟨rfl, rfl⟩
        · have hops : (((s.withLoop g l).finishClosure v (.op o)).ops o') = s.ops o' :=
            Function.update_of_ne ho _ _
          rw [hops]
          exact ⟨rfl, rfl⟩
      · exact (((h.ops o).finish v).withLoop fun hx => by rwa [ha] at hx).congr (fun _ => rfl)
          (fun _ => rfl) fun _ => id
      · exact ((h.ops o').withLoop fun hx => by rwa [ha] at hx).congr (fun _ => rfl)
          (fun _ => rfl) fun _ => id

/-! ## The other steps -/

theorem Kept.begin {b : Backend} {s : Process ρ} (h : s.Kept b) (k : OpKind) (t : Thread) :
    Kept b { s.setOp s.nextOp { kind := k, thread := t, pc := .entered } with
      nextOp := s.nextOp + 1 } where
  separate g g' hi hg hne ho := by
    refine (h.separate g g' hi hg hne ho).congr (fun _ => id) (fun o => ?_) id
    by_cases hn : o = s.nextOp <;> simp_all [setOp]
  ops := by
    refine ops_update (o := s.nextOp) rfl ?_ fun o' _ =>
      (h.ops o').congr (fun _ => rfl) (fun _ => rfl) fun _ => id
    constructor <;> simp [Op.unsettled]

theorem Kept.register {b : Backend} {s : Process ρ} (h : s.Kept b) {o : OpId} :
    Kept b (s.register o) where
  separate g g' hi hg hne ho := by
    refine (h.separate g g' hi hg hne ho).congr (fun _ => id) (fun o' => ?_) id
    by_cases hn : o' = o <;> simp_all [Process.register, setOp]
  ops := by
    refine ops_update (o := o) rfl ?_ fun o' _ =>
      (h.ops o').congr (fun _ => rfl) (fun _ => rfl) fun _ => id
    exact {
      own := (h.ops o).own
      live := by simp [Op.unsettled]
      failed := by simp
      cancelled := by simp }

/-- The operation that passes the first token check is of the generation in the
instance. -/
theorem OpStep.checked {b : Backend} {s : Process ρ} {o : OpId} {p p' : Op ρ}
    (hl : s.Lifecycle) (ho : OpOk s o p) (hst : OpStep b s p p') (hpc : p'.pc = .checked) :
    s.runLoopInstance = some p'.gen := by
  cases hst with
  | check hpc' htok =>
      refine hl.unset (ho.gen ?_) htok
      rcases hpc' with ⟨h, _⟩ | h <;> rw [h] <;> rfl
  | inlineCall | noLocal | takeSender | refuseToken | refuseSend | lose | runInline | reject
  | posted | wait | get | inlineReturn => cases hpc

theorem Kept.op {b : Backend} {s : Process ρ} (hs : s.Sound) (ht : ∀ o, ThreadOk s (s.ops o))
    (h : s.Kept b) {o : OpId} {p : Op ρ} (hst : OpStep b s (s.ops o) p)
    (handed : List (Gen × Bool)) : Kept b { s.setOp o p with handed } where
  separate g g' hi hg hne howner := by
    refine (h.separate g g' hi hg hne howner).congr (fun _ => id) (fun o' => ?_) id
    by_cases ho : o' = o
    · subst ho
      simp only [setOp, Function.update_self]
      intro hpc hgen
      have hinst := hst.checked hs.lifecycle (hs.ops o') hpc
      exact absurd (Option.some.inj ((hgen ▸ hinst).symm.trans hi)) hne
    · simp only [setOp, Function.update_of_ne ho]
      exact fun h1 h2 => ⟨h1, h2⟩
  ops :=
    ops_update (o := o) rfl
      (((h.ops o).opStep hs.lifecycle (hs.ops o) (ht o) hst).congr (fun _ => rfl) (fun _ => rfl)
        fun _ => id)
      fun o' _ => (h.ops o').congr (fun _ => rfl) (fun _ => rfl) fun _ => id

theorem Kept.dropLoop {b : Backend} {s : Process ρ} (hs : s.Sound) (h : s.Kept b) (g : Gen) :
    Kept b (s.setGen g { s.gens g with
      dropped := true
      loop := if b = .linux then (s.gens g).loop else (s.gens g).loop.discard }) where
  separate g₁ g₂ hi hg hne howner := by
    have howner' : (s.gens g₁).owner = (s.gens g₂).owner := by
      by_cases h₁ : g₁ = g <;> by_cases h₂ : g₂ = g <;> simp_all [setGen]
    refine (h.separate g₁ g₂ hi hg hne howner').congr (fun o => ?_) (fun o h1 h2 => ⟨h1, h2⟩) ?_
    · by_cases hgg : g₁ = g
      · subst hgg
        simp only [setGen, Function.update_self]
        split
        · exact id
        · intro hx
          simp only [Loop.discard, Loop.unstarted, List.nil_append] at hx
          exact List.mem_append_right _ hx
      · simp [setGen, hgg]
    · by_cases hgg : g₁ = g <;> simp [setGen, hgg]
  ops o := by
    refine (h.ops o).congr (fun g' => ?_) (fun g' => ?_) (fun g' => ?_)
    · by_cases hgg : g' = g <;> simp [setGen, hgg]
    · by_cases hgg : g' = g <;> simp [setGen, hgg]
    · by_cases hgg : g' = g
      · subst hgg
        simp only [setGen, Function.update_self]
        split
        · exact id
        · exact fun hx => (hs.wf g').mem_of_discard hx
      · simp [setGen, hgg]

/-- **Clean steps keep the invariant.** -/
theorem Kept.step {b : Backend} {s s' : Process ρ} {a : Action ρ} (hs : s.Sound)
    (ht : ∀ o, ThreadOk s (s.ops o)) (h : s.Kept b) (hok : s.Clean b a) (hst : Step b s a s') :
    s'.Kept b := by
  cases hst with
  | stay => exact h
  | newGen t hm hc hi _ => exact h.newGen hs hc hok
  | initAgain | dropMore | dropLast | setSender | setThread | setCount | noInstance | takePending
  | cancelDead | cancelled | clearThread | clearSender =>
      exact h.statics (fun _ => id) rfl rfl (fun _ => rfl) (fun _ => rfl) (fun _ => rfl)
        (fun _ _ => rfl) (fun _ => id)
  | clearInstance hm =>
      exact h.statics (fun _ hi => by simp at hi) rfl rfl (fun _ => rfl) (fun _ => rfl)
        (fun _ => rfl) (fun _ _ => rfl) (fun _ => id)
  | setShutdown g hm hi =>
      refine h.statics (fun _ => id) rfl rfl ?_ ?_ ?_ (fun o _ => ?_) ?_
      all_goals first | intro g' | skip
      · by_cases hgg : g' = g <;> simp [setGen, hgg]
      · by_cases hgg : g' = g <;> simp [setGen, hgg]
      · by_cases hgg : g' = g <;> simp [setGen, hgg]
      · by_cases hgg : (s.ops o).gen = g <;> simp [setGen, hgg]
      · by_cases hgg : g' = g <;> simp [setGen, hgg]
  | setToken g hm =>
      -- no operation is left that the token would turn into an error
      have hset := hok.settled (by simp [setsToken, hm])
      refine h.statics (fun _ => id) rfl rfl ?_ ?_ ?_ (fun o hu => ?_) ?_
      all_goals first | intro g' | skip
      · by_cases hgg : g' = g <;> simp [setGen, hgg]
      · by_cases hgg : g' = g <;> simp [setGen, hgg]
      · by_cases hgg : g' = g <;> simp [setGen, hgg]
      · by_cases ho : o < s.nextOp
        · rw [hset o ho] at hu
          cases hu
        · simp [Op.unsettled, hs.idle o (Nat.le_of_not_lt ho)] at hu
      · by_cases hgg : g' = g <;> simp [setGen, hgg]
  | cancel g o os hm => exact h.cancel hs hm
  | begin k t _ => exact h.begin k t
  | register o hpc hk => exact h.register
  | op a o p handed hop _ => exact h.op hs ht hop handed
  | enqueue o v hpc hd => exact h.enqueue hs hpc hd
  | loopQuiet g a v l _ hstep ha hst hf =>
      refine h.withLoop (fun o ho => ?_) fun o => (ha o).mp
      obtain ⟨h1, h2⟩ := (hstep.effect.wf (hs.wf g)).mem_unstarted.mp ho
      exact (hs.wf g).mem_unstarted.mpr ⟨(ha o).mp h1, by rwa [hst] at h2⟩
  | loopStart g a v l c hg hstep hc ha hst hf =>
      exact h.start hs hg (hstep.effect.wf (hs.wf g)) hc ha hst
  | loopFinish g a v l c _ hstep hc ha hst hf =>
      refine h.finish (fun o ho => ?_) ha v
      obtain ⟨h1, h2⟩ := (hstep.effect.wf (hs.wf g)).mem_unstarted.mp ho
      exact (hs.wf g).mem_unstarted.mpr ⟨by rwa [ha] at h1, by rwa [hst] at h2⟩
  | dropLoop g hg hi _ => exact h.dropLoop hs g

/-! ## The result -/

structure CleanInv (b : Backend) (s : Process ρ) : Prop where
  sound : s.Sound
  threads : ∀ o, ThreadOk s (s.ops o)
  kept : s.Kept b

theorem cleanInv_of_reachVia {b : Backend} {s : Process ρ}
    (h : (processSystem ρ b).ReachVia (Clean b) s) : s.CleanInv b :=
  h.invariant
    { sound := sound_of_reachable .init
      threads := fun o => by constructor <;> simp [processSystem, Pc.armed, Pc.busy]
      kept :=
        { separate := fun g g' hi => by cases hi
          ops := fun o => by constructor <;> simp [processSystem, Op.unsettled] } }
    fun _ _ _ _ hi hok hst =>
      { sound := hi.sound.step (step_cases hst)
        threads := threads_step hi.sound hi.threads (step_cases hst)
        kept := hi.kept.step hi.sound hi.threads hok (step_cases hst) }

/-- **In clean runs rejected work does not run, and work stays in its
generation.** -/
theorem work_is_contained (b : Backend) {s : Process ρ}
    (h : (processSystem ρ b).ReachVia (Clean b) s) : s.Contained := by
  intro o g hg
  have hk := (cleanInv_of_reachVia h).kept.ops o
  exact ⟨fun e hpc => (hk.failed e hpc).1 g hg, hk.own g hg⟩

end Process

/-- The guard of generation 0 is dropped on thread 0, up to the end. -/
def shutdownRun : List (Action Nat) :=
  [.dropGuard 0, .advance, .advance, .advance, .advance, .advance, .advance, .advance]

/-- A posted callback runs to its end; then the run loop is shut down and
created again on the same thread. -/
def cleanRun : List (Action Nat) :=
  initRun ++ [.begin .post 1, .op 0, .op 0, .enqueue 0 .queued 0, .op 0,
    .loop 0 (.dispatchCallbacks []) 0, .loop 0 (.next []) 0, .loop 0 .finish 0,
    .loop 0 (.next []) 0] ++
  shutdownRun ++ initRun

theorem work_is_contained_clean :
    ∃ s : Process Nat, s.nextGen = 2 ∧ (s.ops 0).pc = .returned .posted ∧ s.Contained := by
  have hrun : ((processSystem Nat .android).runVia (Process.Clean .android) {} cleanRun).map
      (fun s => decide (s.nextGen = 2) && decide ((s.ops 0).pc = .returned .posted)) =
        some true := by decide
  obtain ⟨s, hs, hp⟩ := System.exists_reachVia _ _ hrun
  simp only [Bool.and_eq_true, decide_eq_true_eq] at hp
  exact ⟨s, hp.1, hp.2, Process.work_is_contained .android hs⟩

/-- A posted callback has run when `shutdown` sets the token, before the thread
that posted it is at the second check. -/
def lateTokenRun : List (Action Nat) :=
  initRun ++ [.begin .post 1, .op 0, .op 0, .enqueue 0 .queued 0,
    .loop 0 (.dispatchCallbacks []) 0, .loop 0 (.next []) 0, .loop 0 .finish 0,
    .loop 0 (.next []) 0, .dropGuard 0, .advance, .advance, .op 0]

/-- A callback is queued when the run loop is shut down; the host context keeps
its source, and dispatches it in the next generation. -/
def staleSourceRun : List (Action Nat) :=
  initRun ++ [.begin .post 1, .op 0, .op 0, .enqueue 0 .queued 0, .op 0] ++ shutdownRun ++
  [.dropLoop 0] ++ initRun ++ [.loop 0 (.dispatchSource (.op 0)) 0]

/-- `post` returns an error although its callback has run (Win32), and a
callback of generation 0 runs with a `RunLoopLocal` of generation 1 (Linux). -/
theorem work_is_not_contained :
    (∃ s : Process Nat, (processSystem Nat .win32).Reachable s ∧
      (s.ops 0).pc = .returned (.err .notInitialized) ∧
      (s.ops 0).current = some (.ok 0)) ∧
    (∃ s : Process Nat, (processSystem Nat .linux).Reachable s ∧
      (s.ops 0).gen = 0 ∧ (s.ops 0).current = some (.ok 1)) := by
  constructor
  · have hrun : ((processSystem Nat .win32).run {} lateTokenRun).map (fun s =>
        decide ((s.ops 0).pc = .returned (.err .notInitialized)) &&
          decide ((s.ops 0).current = some (.ok 0))) = some true := by decide
    obtain ⟨s, hs, hp⟩ := System.exists_reachable _ _ hrun
    simp only [Bool.and_eq_true, decide_eq_true_eq] at hp
    exact ⟨s, hs, hp⟩
  · have hrun : ((processSystem Nat .linux).run {} staleSourceRun).map (fun s =>
        decide ((s.ops 0).gen = 0) && decide ((s.ops 0).current = some (.ok 1))) = some true := by
      decide
    obtain ⟨s, hs, hp⟩ := System.exists_reachable _ _ hrun
    simp only [Bool.and_eq_true, decide_eq_true_eq] at hp
    exact ⟨s, hs, hp⟩

end Wxp.RunLoop
