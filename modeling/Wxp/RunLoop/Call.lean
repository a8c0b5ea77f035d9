import Wxp.RunLoop.Lifecycle

/-!
# RunLoop — Call

`RunLoop::call` never strands its caller and never returns a foreign value.

`OpOk` ties the local variables of an operation to the loop that has its
closure; `CallOk` is the ordering argument: a call that has passed the first
token check and is not completed belongs to the generation in the instance, and
the next `shutdown` will find it in `PENDING_CALLS`.
-/

namespace Wxp.RunLoop

variable {ρ : Type}

/-- The thread holds a sender and has not returned. -/
def Pc.sending : Pc ρ → Bool
  | .gotSender | .registered | .checked | .enqueued | .blocked => true
  | _ => false

/-- The closure of the operation may be in a queue. -/
def Pc.sent : Pc ρ → Bool
  | .enqueued | .blocked | .returned _ => true
  | _ => false

/-- `complete` writes the slot. -/
theorem Op.complete_frame (p : Op ρ) (r : Except Error ρ) :
    (p.complete r).pc = p.pc ∧ (p.complete r).kind = p.kind ∧
      (p.complete r).thread = p.thread ∧ (p.complete r).gen = p.gen ∧
      (p.complete r).current = p.current := by
  unfold Op.complete
  split <;> exact ⟨rfl, rfl, rfl, rfl, rfl⟩

@[simp] theorem Op.complete_pc (p : Op ρ) (r : Except Error ρ) :
    (p.complete r).pc = p.pc :=
  (p.complete_frame r).1

@[simp] theorem Op.complete_kind (p : Op ρ) (r : Except Error ρ) :
    (p.complete r).kind = p.kind :=
  (p.complete_frame r).2.1

@[simp] theorem Op.complete_thread (p : Op ρ) (r : Except Error ρ) :
    (p.complete r).thread = p.thread :=
  (p.complete_frame r).2.2.1

@[simp] theorem Op.complete_gen (p : Op ρ) (r : Except Error ρ) :
    (p.complete r).gen = p.gen :=
  (p.complete_frame r).2.2.2.1

@[simp] theorem Op.complete_current (p : Op ρ) (r : Except Error ρ) :
    (p.complete r).current = p.current :=
  (p.complete_frame r).2.2.2.2

@[simp] theorem Op.complete_completed (p : Op ρ) (r : Except Error ρ) :
    (p.complete r).completed = true := by
  unfold Op.complete
  split <;> simp_all

theorem Op.finish_frame (p : Op ρ) (v : ρ) :
    (p.finish v).pc = p.pc ∧ (p.finish v).kind = p.kind ∧ (p.finish v).thread = p.thread ∧
      (p.finish v).gen = p.gen ∧ (p.finish v).current = p.current := by
  unfold Op.finish
  split <;> simp

@[simp] theorem Op.finish_pc (p : Op ρ) (v : ρ) : (p.finish v).pc = p.pc :=
  (p.finish_frame v).1

@[simp] theorem Op.finish_kind (p : Op ρ) (v : ρ) : (p.finish v).kind = p.kind :=
  (p.finish_frame v).2.1

@[simp] theorem Op.finish_thread (p : Op ρ) (v : ρ) : (p.finish v).thread = p.thread :=
  (p.finish_frame v).2.2.1

@[simp] theorem Op.finish_gen (p : Op ρ) (v : ρ) : (p.finish v).gen = p.gen :=
  (p.finish_frame v).2.2.2.1

@[simp] theorem Op.finish_current (p : Op ρ) (v : ρ) : (p.finish v).current = p.current :=
  (p.finish_frame v).2.2.2.2

theorem Op.finish_completed {p : Op ρ} (hk : p.kind = .call) (hcur : p.current ≠ none) (v : ρ) :
    (p.finish v).completed = true := by
  unfold Op.finish
  split
  · simp
  · simp
  · rename_i h1 h2
    rcases hp : p.current with _ | (e | g)
    · exact absurd hp hcur
    · exact (h2 e hk hp).elim
    · exact (h1 g hk hp).elim

theorem Pc.ne_returned {pc : Pc ρ} (h : pc.sent = false) (r : Returned ρ) : pc ≠ .returned r := by
  rintro rfl
  cases h

@[simp] theorem Op.finish_setPc (p : Op ρ) (v : ρ) (pc : Pc ρ) :
    Op.finish { p with pc := pc } v = { p.finish v with pc := pc } := by
  obtain ⟨kind, _, _, _, completed, _, _, current, _⟩ := p
  cases kind <;> cases completed <;> rcases current with _ | (_ | _) <;> rfl

namespace Process

/-- `p`, the record of operation `o`, agrees with the loops. -/
structure OpOk (s : Process ρ) (o : OpId) (p : Op ρ) : Prop where
  gen : p.pc.sending = true → p.gen < s.nextGen
  kind : p.pc = .registered ∨ p.pc = .blocked → p.kind = .call
  accepted : ∀ g, .op o ∈ (s.gens g).loop.accepted → p.gen = g ∧ p.pc.sent = true
  started : ∀ g, .op o ∈ (s.gens g).loop.accepted →
    (.op o ∈ (s.gens g).loop.started ↔ p.current ≠ none)
  finished : ∀ g, .op o ∈ (s.gens g).loop.accepted → .op o ∉ (s.gens g).loop.finished →
    p.produced = none
  early : p.pc.sent = false → p.produced = none ∧ (p.pc ≠ .inline → p.current = none)
  slotNone : p.completed = false → p.slot = none ∧ p.fills = 0
  slotSome : p.completed = true → p.fills = 1 ∧ (p.slot = none → ∃ r, p.pc = .returned r)
  slotOk : ∀ v, p.slot = some (.ok v) → p.produced = some v
  value : ∀ v, p.pc = .returned (.value v) → p.produced = some v

/-- A call that is not completed is known to `shutdown`, and its closure is
where it will run. -/
structure CallOk (s : Process ρ) (o : OpId) (p : Op ρ) : Prop where
  registered : p.pc = .registered → p.completed = false →
    o ∈ s.pendingCalls ∨ o ∈ s.awaiting
  checked : p.kind = .call → p.completed = false →
    p.pc = .checked ∨ p.pc = .enqueued ∨ p.pc = .blocked →
    s.runLoopInstance = some p.gen ∧ o ∈ s.awaiting
  held : p.kind = .call → p.completed = false → p.pc = .enqueued ∨ p.pc = .blocked →
    .op o ∈ (s.gens p.gen).loop.accepted ∧ .op o ∉ (s.gens p.gen).loop.finished

/-- No loop has the closure of an operation before it is sent. -/
theorem OpOk.not_accepted {s : Process ρ} {o : OpId} {p : Op ρ} (h : OpOk s o p)
    (hns : p.pc.sent = false) (g : Gen) : .op o ∉ (s.gens g).loop.accepted := by
  intro hg
  have hsent := (h.accepted g hg).2
  rw [hns] at hsent
  cases hsent

/-- The value is taken out of the slot only by the return. -/
theorem OpOk.slot_ne_none {s : Process ρ} {o : OpId} {p : Op ρ} (h : OpOk s o p)
    (hc : p.completed = true) (hpc : ∀ r, p.pc ≠ .returned r) : p.slot ≠ none := by
  intro hs
  obtain ⟨r, hr⟩ := (h.slotSome hc).2 hs
  exact hpc r hr

/-- Before the closure is sent no loop knows the operation, so its locals are
free to change. -/
theorem OpOk.unsent {s : Process ρ} {o : OpId} {p : Op ρ} (h : OpOk s o p)
    (hns : p.pc.sent = false) {pc : Pc ρ} {g : Gen} {c : Option (Except Error Gen)}
    (hgen : pc.sending = true → g < s.nextGen)
    (hkind : pc = .registered ∨ pc = .blocked → p.kind = .call)
    (hearly : pc.sent = false → pc ≠ .inline → c = none)
    (hval : ∀ v, pc ≠ .returned (.value v)) :
    OpOk s o { p with pc := pc, gen := g, current := c } where
  gen := hgen
  kind := hkind
  accepted g' hg' := absurd hg' (h.not_accepted hns g')
  started g' hg' := absurd hg' (h.not_accepted hns g')
  finished g' hg' := absurd hg' (h.not_accepted hns g')
  early hp := ⟨(h.early hns).1, hearly hp⟩
  slotNone := h.slotNone
  slotSome hc := ⟨(h.slotSome hc).1, fun hs => absurd hs (h.slot_ne_none hc (Pc.ne_returned hns))⟩
  slotOk := h.slotOk
  value v hv := absurd hv (hval v)

/-- Only `pc` moves, and what was sent stays sent. -/
theorem OpOk.setPc {s : Process ρ} {o : OpId} {p : Op ρ} {pc : Pc ρ} (h : OpOk s o p)
    (hpc : ∀ r, p.pc ≠ .returned r) (hinl : p.pc ≠ .inline)
    (hsend : pc.sending = true → p.pc.sending = true) (hsent : pc.sent = false → p.pc.sent = false)
    (hkind : pc = .registered ∨ pc = .blocked → p.kind = .call)
    (hval : ∀ v, pc ≠ .returned (.value v)) : OpOk s o { p with pc := pc } where
  gen hp := h.gen (hsend hp)
  kind := hkind
  accepted g hg := by
    refine ⟨(h.accepted g hg).1, ?_⟩
    by_contra hp
    exact h.not_accepted (hsent (by simpa using hp)) g hg
  started := h.started
  finished := h.finished
  early hp := ⟨(h.early (hsent hp)).1, fun _ => (h.early (hsent hp)).2 hinl⟩
  slotNone := h.slotNone
  slotSome hc := ⟨(h.slotSome hc).1, fun hs => absurd hs (h.slot_ne_none hc hpc)⟩
  slotOk := h.slotOk
  value v hv := absurd hv (hval v)

/-- The closure of an operation completes its call with what its callback
produced, or with the error of `current_local`. -/
theorem OpOk.finish {s s' : Process ρ} {o : OpId} {p : Op ρ} (h : OpOk s o p)
    (hsent : p.pc.sent = true) (hprod : p.produced = none) (hcur : p.current ≠ none)
    (hn : s.nextGen ≤ s'.nextGen)
    (hl : ∀ g, .op o ∈ (s'.gens g).loop.accepted → p.gen = g ∧
      .op o ∈ (s'.gens g).loop.started ∧ .op o ∈ (s'.gens g).loop.finished) (v : ρ) :
    OpOk s' o (p.finish v) := by
  obtain ⟨h1, h2, h3, h4, h5, h6, h7, h8, h9, h10⟩ := h
  constructor <;> grind [Op.finish, Op.complete, Pc.sent]

theorem OpOk.opStep {b : Backend} {s : Process ρ} {o : OpId} {p p' : Op ρ} (hl : s.Lifecycle)
    (h : OpOk s o p) (hst : OpStep b s p p') : OpOk s o p' := by
  cases hst with
  | inlineCall g hpc _ =>
      apply h.unsent <;> simp [hpc, Pc.sent, Pc.sending]
  | takeSender g hpc hs _ =>
      have hearly := (h.early (by rw [hpc]; rfl)).2 (by simp [hpc])
      apply h.unsent <;> simp [hpc, hearly, hl.sender g hs, Pc.sent]
  | noLocal e hpc | refuseSend hpc _ | lose hpc _ | reject hpc _ | posted hpc _ =>
      apply h.setPc <;> simp [hpc, Pc.sent, Pc.sending]
  | wait hpc hk _ =>
      apply h.setPc <;> simp [hpc, hk, Pc.sent, Pc.sending]
  | refuseToken hpc _ =>
      rcases hpc with hpc | hpc <;> apply h.setPc <;> simp [hpc, Pc.sent, Pc.sending]
  | check hpc _ =>
      rcases hpc with ⟨hpc, _⟩ | hpc <;> apply h.setPc <;> simp [hpc, Pc.sent, Pc.sending]
  | runInline v hpc hd hb =>
      have hns : p.pc.sent = false := by rw [hpc]; rfl
      have hgen := h.gen (by rw [hpc]; rfl)
      -- the closure runs in the queue that refused it, between the send and the second check
      have hq : OpOk s o { p with
          pc := .enqueued, gen := p.gen, current := some (s.currentLocal p.thread) } := by
        apply h.unsent hns <;> simp [hgen, Pc.sent]
      rw [← Op.finish_setPc]
      exact hq.finish rfl (h.early hns).1 (by simp) (Nat.le_refl _)
        (fun g hg => absurd hg (h.not_accepted hns g)) v
  | get r hpc hr =>
      exact {
        gen := by simp [Op.get, Pc.sending]
        kind := by simp [Op.get]
        accepted := fun g hg => ⟨(h.accepted g hg).1, rfl⟩
        started := h.started
        finished := h.finished
        early := by simp [Op.get, Pc.sent]
        slotNone := fun hc => ⟨rfl, (h.slotNone hc).2⟩
        slotSome := fun hc => ⟨(h.slotSome hc).1, fun _ => ⟨_, rfl⟩⟩
        slotOk := by simp [Op.get]
        value := fun v hv => by
          cases r <;> simp_all [Op.get, h.slotOk] }
  | inlineReturn v hpc =>
      have hns : p.pc.sent = false := by rw [hpc]; rfl
      exact {
        gen := by simp [Pc.sending]
        kind := by simp
        accepted := fun g hg => absurd hg (h.not_accepted hns g)
        started := fun g hg => absurd hg (h.not_accepted hns g)
        finished := fun g hg => absurd hg (h.not_accepted hns g)
        early := by simp [Pc.sent]
        slotNone := h.slotNone
        slotSome := fun hc => ⟨(h.slotSome hc).1, fun _ => ⟨_, rfl⟩⟩
        slotOk := fun v' hv => by
          -- the callback of an inline call has not produced anything before
          have hprod := h.slotOk v' hv
          rw [(h.early hns).1] at hprod
          cases hprod
        value := by simp }

theorem CallOk.opStep {b : Backend} {s : Process ρ} {o : OpId} {p p' : Op ρ} (hl : s.Lifecycle)
    (ho : OpOk s o p) (h : CallOk s o p) (hst : OpStep b s p p') : CallOk s o p' := by
  obtain ⟨h1, h2, h3⟩ := h
  cases hst with
  | check hpc ht =>
      rcases hpc with ⟨hpc, hk⟩ | hpc
      · constructor <;> grind
      · -- the token is not set, so the list has not been taken since `register`
        have hg : p.gen < s.nextGen := ho.gen (by rw [hpc]; rfl)
        have hnt : s.taken = false := by
          by_contra hne
          rw [hl.token_of_taken (by simpa using hne) hg] at ht
          cases ht
        have hi := hl.unset hg ht
        have haw := awaiting_of_not_taken hnt
        constructor <;> grind
  | lose hpc hd =>
      -- a generation in the instance is not dropped
      have hi := hl.dropped p.gen hd
      constructor <;> grind
  | runInline v hpc hd hb =>
      have hi := hl.dropped p.gen hd
      constructor <;> grind [Op.finish, Op.complete]
  | get r hpc hr =>
      cases r <;> constructor <;> grind [Op.get]
  | inlineCall | noLocal | takeSender | refuseToken | refuseSend | reject | posted | wait
  | inlineReturn =>
      constructor <;> grind

/-! ## Steps that leave the operation alone -/

theorem OpOk.frame {s s' : Process ρ} {o : OpId} {p : Op ρ} (h : OpOk s o p)
    (hn : s.nextGen ≤ s'.nextGen)
    (hl : ∀ g, .op o ∈ (s'.gens g).loop.accepted → .op o ∈ (s.gens g).loop.accepted ∧
      (.op o ∈ (s'.gens g).loop.started ↔ .op o ∈ (s.gens g).loop.started) ∧
      (.op o ∈ (s'.gens g).loop.finished ↔ .op o ∈ (s.gens g).loop.finished)) : OpOk s' o p where
  gen hpc := Nat.lt_of_lt_of_le (h.gen hpc) hn
  kind := h.kind
  accepted g hg := h.accepted g (hl g hg).1
  started g hg := by rw [(hl g hg).2.1]; exact h.started g (hl g hg).1
  finished g hg hf := h.finished g (hl g hg).1 (by rwa [← (hl g hg).2.2])
  early := h.early
  slotNone := h.slotNone
  slotSome := h.slotSome
  slotOk := h.slotOk
  value := h.value

theorem OpOk.congr {s s' : Process ρ} {o : OpId} {p : Op ρ} (h : OpOk s o p)
    (hn : s'.nextGen = s.nextGen) (hl : ∀ g, (s'.gens g).loop = (s.gens g).loop) :
    OpOk s' o p :=
  h.frame (Nat.le_of_eq hn.symm) fun g hg => by simpa [hl] using hg

theorem CallOk.frame {s s' : Process ρ} {o : OpId} {p : Op ρ} (h : CallOk s o p)
    (hi : o ∈ s.awaiting → s.runLoopInstance = some p.gen → s'.runLoopInstance = some p.gen)
    (hp : o ∈ s.pendingCalls → o ∈ s'.pendingCalls ∨ o ∈ s'.awaiting)
    (ha : o ∈ s.awaiting → o ∈ s'.awaiting)
    (hl : s.runLoopInstance = some p.gen →
      .op o ∈ (s.gens p.gen).loop.accepted → .op o ∉ (s.gens p.gen).loop.finished →
      .op o ∈ (s'.gens p.gen).loop.accepted ∧ .op o ∉ (s'.gens p.gen).loop.finished) :
    CallOk s' o p where
  registered hpc hc := (h.registered hpc hc).elim hp fun hx => .inr (ha hx)
  checked hk hc hpc :=
    have ⟨h1, h2⟩ := h.checked hk hc hpc
    ⟨hi h2 h1, ha h2⟩
  held hk hc hpc :=
    hl (h.checked hk hc (.inr hpc)).1 (h.held hk hc hpc).1 (h.held hk hc hpc).2

/-! ## The invariant -/

structure Sound (s : Process ρ) : Prop where
  lifecycle : s.Lifecycle
  wf : ∀ g, (s.gens g).loop.Wf
  idle : ∀ o, s.nextOp ≤ o → (s.ops o).pc = .idle
  ops : ∀ o, OpOk s o (s.ops o)
  calls : ∀ o, CallOk s o (s.ops o)

/-- A step of `init` or `shutdown` that touches no loop and no operation. -/
theorem Sound.statics {s s' : Process ρ} (h : s.Sound) (hl : s'.Lifecycle)
    (ho : s'.ops = s.ops) (hn : s'.nextGen = s.nextGen) (hno : s'.nextOp = s.nextOp)
    (hg : ∀ g, (s'.gens g).loop = (s.gens g).loop)
    (hi : ∀ o ∈ s.awaiting, s'.runLoopInstance = s.runLoopInstance)
    (hp : ∀ o ∈ s.pendingCalls, o ∈ s'.pendingCalls ∨ o ∈ s'.awaiting)
    (ha : ∀ o ∈ s.awaiting, o ∈ s'.awaiting) : s'.Sound where
  lifecycle := hl
  wf g := by rw [hg]; exact h.wf g
  idle o := by rw [ho, hno]; exact h.idle o
  ops o := by rw [ho]; exact (h.ops o).congr hn hg
  calls o := by
    rw [ho]
    exact (h.calls o).frame (fun hx he => by rw [hi o hx, he]) (hp o) (ha o)
      fun _ h1 h2 => by rw [hg]; exact ⟨h1, h2⟩

theorem Sound.newGen {s : Process ρ} (h : s.Sound) {t : Thread} (hm : s.initMutex = none)
    (hi : s.runLoopInstance = none) {s' : Process ρ} (hl : s'.Lifecycle)
    (he : s' = { s with
      gens := Function.update s.gens s.nextGen { owner := t }
      nextGen := s.nextGen + 1
      runLoopInstance := some s.nextGen
      initMutex := some (.initSender t s.nextGen) }) : s'.Sound where
  lifecycle := hl
  wf g := by
    subst he
    by_cases hg : g = s.nextGen
    · simpa [hg] using Loop.Wf.empty
    · simpa [hg] using h.wf g
  idle o := by subst he; exact h.idle o
  ops o := by
    subst he
    refine (h.ops o).frame (Nat.le_succ _) fun g hg => ?_
    by_cases hgn : g = s.nextGen
    · simp [hgn] at hg
    · simpa [hgn] using hg
  calls o := by
    subst he
    refine (h.calls o).frame (fun _ he => ?_) (fun hx => .inl hx) (fun hx => ?_) fun he => ?_
    · simp [hi] at he
    · simpa [awaiting, hm] using hx
    · simp [hi] at he

/-- What holds of the new record and of all others holds after an update. -/
theorem ops_update {s s' : Process ρ} {o : OpId} {p : Op ρ} {P : OpId → Op ρ → Prop}
    (hops : s'.ops = Function.update s.ops o p) (hp : P o p)
    (hf : ∀ o', o' ≠ o → P o' (s.ops o')) (o' : OpId) : P o' (s'.ops o') := by
  by_cases hne : o' = o
  · rw [hops, hne, Function.update_self]
    exact hp
  · rw [hops, Function.update_of_ne hne]
    exact hf o' hne

/-- A step that changes the record of one operation. -/
theorem Sound.update {s s' : Process ρ} (h : s.Sound) {o : OpId} {p : Op ρ}
    (hops : s'.ops = Function.update s.ops o p) (hl : s'.Lifecycle)
    (hwf : ∀ g, (s'.gens g).loop.Wf)
    (hidle : ∀ o', s'.nextOp ≤ o' → s.nextOp ≤ o' ∧ (o' = o → p.pc = .idle))
    (ho : OpOk s' o p) (hc : CallOk s' o p)
    (hf : ∀ o', o' ≠ o → OpOk s' o' (s.ops o') ∧ CallOk s' o' (s.ops o')) : s'.Sound where
  lifecycle := hl
  wf := hwf
  idle o' hn := by
    by_cases hne : o' = o
    · rw [hops, hne, Function.update_self]
      exact (hidle o' hn).2 hne
    · rw [hops, Function.update_of_ne hne]
      exact h.idle o' (hidle o' hn).1
  ops := ops_update hops ho fun o' hne => (hf o' hne).1
  calls := ops_update hops hc fun o' hne => (hf o' hne).2

/-- An operation that has begun is not one of those to come. -/
theorem Sound.ne_of_begun {s : Process ρ} (h : s.Sound) {o o' : OpId} {p : Op ρ}
    (hpc : (s.ops o).pc ≠ .idle) (ho : s.nextOp ≤ o') :
    s.nextOp ≤ o' ∧ (o' = o → p.pc = .idle) :=
  ⟨ho, fun he => absurd (he ▸ h.idle o' ho) hpc⟩

theorem Sound.begin {s : Process ρ} (h : s.Sound) (k : OpKind) (t : Thread) :
    Sound { s.setOp s.nextOp { kind := k, thread := t, pc := .entered } with
      nextOp := s.nextOp + 1 } := by
  -- no loop has the closure of an operation that has not begun
  have hnot : ∀ g, Closure.op s.nextOp ∉ (s.gens g).loop.accepted := fun g hg => by
    have hsent := ((h.ops _).accepted g hg).2
    rw [h.idle _ (Nat.le_refl _)] at hsent
    cases hsent
  refine h.update rfl (h.lifecycle.congr {}) h.wf ?_ ?_ ?_ fun o' _ => ⟨?_, ?_⟩
  · exact fun o' ho' => ⟨Nat.le_of_succ_le ho', fun he => absurd he (Nat.ne_of_gt ho')⟩
  · constructor <;> simp [setOp, Pc.sending, hnot]
  · constructor <;> simp
  · exact (h.ops o').congr rfl fun g => rfl
  · exact (h.calls o').frame (fun _ => id) .inl id fun _ h1 h2 => ⟨h1, h2⟩

theorem Sound.op {b : Backend} {s : Process ρ} (h : s.Sound) {o : OpId} {p : Op ρ}
    (hst : OpStep b s (s.ops o) p) (handed : List (Gen × Bool)) :
    Sound { s.setOp o p with handed } := by
  have hpc : (s.ops o).pc ≠ .idle := by cases hst <;> grind
  refine h.update rfl (h.lifecycle.congr {}) h.wf (fun o' => h.ne_of_begun hpc) ?_ ?_
    fun o' _ => ⟨?_, ?_⟩
  · exact ((h.ops o).opStep h.lifecycle hst).congr rfl fun g => rfl
  · exact ((h.calls o).opStep h.lifecycle (h.ops o) hst).frame (fun _ => id) .inl id
      fun _ h1 h2 => ⟨h1, h2⟩
  · exact (h.ops o').congr rfl fun g => rfl
  · exact (h.calls o').frame (fun _ => id) .inl id fun _ h1 h2 => ⟨h1, h2⟩

/-- `register` keeps the entries whose callers are still inside `call`. -/
theorem mem_pendingCalls_register {s : Process ρ} {o o' : OpId} (ho : o' ∈ s.pendingCalls)
    (hb : (s.ops o').pc.busy = true) : o' ∈ (s.register o).pendingCalls := by
  refine List.mem_append_left _ (List.mem_filter.mpr ⟨ho, ?_⟩)
  simp [upgrades, hb]

theorem mem_awaiting_register {s : Process ρ} {o o' : OpId} (ho : o' ∈ s.awaiting)
    (hb : (s.ops o').pc.busy = true) : o' ∈ (s.register o).awaiting := by
  have hm : (s.register o).initMutex = s.initMutex := rfl
  unfold awaiting at ho ⊢
  rw [hm]
  split <;> simp_all [mem_pendingCalls_register]

theorem Sound.register {s : Process ρ} (h : s.Sound) {o : OpId}
    (hpc : (s.ops o).pc = .gotSender) (hk : (s.ops o).kind = .call) : (s.register o).Sound := by
  refine h.update rfl (h.lifecycle.congr {}) h.wf (fun o' => h.ne_of_begun (by simp [hpc])) ?_ ?_
    fun o' _ => ⟨?_, ?_⟩
  · have ho : OpOk (s.register o) o (s.ops o) := (h.ops o).congr rfl fun g => rfl
    obtain ⟨h1, h2, h3, h4, h5, h6, h7, h8, h9, h10⟩ := ho
    constructor <;> grind [Pc.sending, Pc.sent]
  · constructor
    · exact fun _ _ => .inl (List.mem_append_right _ List.mem_cons_self)
    · simp
    · simp
  · exact (h.ops o').congr rfl fun g => rfl
  · obtain ⟨h1, h2, h3⟩ := h.calls o'
    constructor
    · intro hp hc
      have hb : (s.ops o').pc.busy = true := by rw [hp]; rfl
      exact (h1 hp hc).imp (mem_pendingCalls_register · hb) (mem_awaiting_register · hb)
    · intro hk hc hp
      have hb : (s.ops o').pc.busy = true := by rcases hp with hp | hp | hp <;> rw [hp] <;> rfl
      exact ⟨(h2 hk hc hp).1, mem_awaiting_register (h2 hk hc hp).2 hb⟩
    · exact h3

/-! ## Steps of a loop -/

theorem pushTo_loop (s : Process ρ) (o : OpId) (g : Gen) :
    (((s.pushTo (s.ops o).gen (.op o)).setPc o .enqueued).gens g).loop =
      if g = (s.ops o).gen then (s.gens g).loop.push (.op o) else (s.gens g).loop := by
  by_cases hg : g = (s.ops o).gen <;> simp [setPc, setOp, pushTo, setGen, hg]

theorem Sound.enqueue {s : Process ρ} (h : s.Sound) {o : OpId} (hpc : (s.ops o).pc = .checked) :
    ((s.pushTo (s.ops o).gen (.op o)).setPc o .enqueued).Sound := by
  have ho := h.ops o
  have hc := h.calls o
  -- the closure is new to every loop
  have hnot : ∀ g, Closure.op o ∉ (s.gens g).loop.accepted := fun g hg => by
    have hsent := (ho.accepted g hg).2
    rw [hpc] at hsent
    cases hsent
  have hns : ∀ g, Closure.op o ∉ (s.gens g).loop.started := fun g hg =>
    hnot g ((h.wf g).mem_accepted hg)
  have hnf : ∀ g, Closure.op o ∉ (s.gens g).loop.finished := fun g hg =>
    hns g ((h.wf g).mem_started hg)
  have hearly := ho.early (by rw [hpc]; rfl)
  refine h.update (p := { s.ops o with pc := .enqueued }) rfl
    (h.lifecycle.congr ((SameStatics.setLoop s _ _).trans {})) ?_
    (fun o' => h.ne_of_begun (by simp [hpc])) ?_ ?_ fun o' hne => ⟨?_, ?_⟩
  · intro g
    rw [pushTo_loop]
    split
    · exact (h.wf g).push (hnot g)
    · exact h.wf g
  · exact {
      gen := fun _ => ho.gen (by rw [hpc]; rfl)
      kind := by simp
      accepted := fun g hg => by
        rw [pushTo_loop] at hg
        split at hg
        · exact ⟨Eq.symm ‹_›, rfl⟩
        · exact absurd hg (hnot g)
      started := fun g _ => by
        rw [pushTo_loop]
        split <;> simp [Loop.push, hns, hearly.2 (by simp [hpc])]
      finished := fun _ _ _ => hearly.1
      early := by simp [Pc.sent]
      slotNone := ho.slotNone
      slotSome := fun hd => ⟨(ho.slotSome hd).1, fun hs => by
        obtain ⟨r, hr⟩ := (ho.slotSome hd).2 hs
        simp [hpc] at hr⟩
      slotOk := ho.slotOk
      value := by simp }
  · exact {
      registered := by simp
      checked := fun hk hd _ => hc.checked hk hd (.inl hpc)
      held := fun _ _ _ => by
        rw [pushTo_loop, if_pos rfl]
        exact ⟨List.mem_append_right _ List.mem_cons_self, hnf _⟩ }
  · refine (h.ops o').frame (Nat.le_refl _) fun g hg => ?_
    rw [pushTo_loop] at hg ⊢
    split at hg <;> simp_all [Loop.push]
  · refine (h.calls o').frame (fun _ => id) .inl id fun _ h1 h2 => ?_
    rw [pushTo_loop]
    split <;> simp_all [Loop.push]

theorem withLoop_loop (s : Process ρ) (g g' : Gen) (l : Loop Closure TimerId) :
    ((s.withLoop g l).gens g').loop = if g' = g then l else (s.gens g').loop := by
  by_cases hg : g' = g <;> simp [withLoop, setGen, hg]

/-- A step of a loop as an operation sees it whose closure it neither starts nor
finishes. -/
theorem Sound.withLoop_op {s : Process ρ} (h : s.Sound) {g : Gen} {l : Loop Closure TimerId}
    {o : OpId} (ha : .op o ∈ l.accepted ↔ .op o ∈ (s.gens g).loop.accepted)
    (hs : .op o ∈ l.started ↔ .op o ∈ (s.gens g).loop.started)
    (hf : .op o ∈ l.finished ↔ .op o ∈ (s.gens g).loop.finished) :
    OpOk (s.withLoop g l) o (s.ops o) ∧ CallOk (s.withLoop g l) o (s.ops o) := by
  constructor
  · refine (h.ops o).frame (Nat.le_refl _) fun g' hg => ?_
    rw [withLoop_loop] at hg ⊢
    split at hg <;> simp_all
  · refine (h.calls o).frame (fun _ => id) .inl id fun _ h1 h2 => ?_
    rw [withLoop_loop]
    split <;> simp_all

theorem Sound.withLoop_wf {s : Process ρ} (h : s.Sound) (g : Gen) {l : Loop Closure TimerId}
    (hw : l.Wf) (g' : Gen) : ((s.withLoop g l).gens g').loop.Wf := by
  rw [withLoop_loop]
  split
  · exact hw
  · exact h.wf g'

theorem Sound.withLoop {s : Process ρ} (h : s.Sound) {g : Gen} {l : Loop Closure TimerId}
    (hw : l.Wf)
    (ho : ∀ o, (.op o ∈ l.accepted ↔ .op o ∈ (s.gens g).loop.accepted) ∧
      (.op o ∈ l.started ↔ .op o ∈ (s.gens g).loop.started) ∧
      (.op o ∈ l.finished ↔ .op o ∈ (s.gens g).loop.finished)) : (s.withLoop g l).Sound where
  lifecycle := h.lifecycle.congr (.withLoop s g l)
  wf := h.withLoop_wf g hw
  idle := h.idle
  ops o := (h.withLoop_op (ho o).1 (ho o).2.1 (ho o).2.2).1
  calls o := (h.withLoop_op (ho o).1 (ho o).2.1 (ho o).2.2).2

theorem startClosure_op (s : Process ρ) (t : Thread) (o : OpId) :
    ∃ handed, s.startClosure t (.op o) =
      { s.setOp o { s.ops o with current := some (s.currentLocal t) } with handed } := by
  simp only [startClosure]
  split
  · exact ⟨_, rfl⟩
  · exact ⟨s.handed, rfl⟩

/-- An operation whose closure is in a loop has begun. -/
theorem Sound.begun {s : Process ρ} (h : s.Sound) {g : Gen} {o : OpId}
    (ho : .op o ∈ (s.gens g).loop.accepted) : (s.ops o).pc ≠ .idle := by
  intro hpc
  have hsent := ((h.ops o).accepted g ho).2
  rw [hpc] at hsent
  cases hsent

/-- Only generation `g` has the closure, before and after the step. -/
theorem Sound.gen_of_withLoop {s : Process ρ} (h : s.Sound) {g g' : Gen}
    {l : Loop Closure TimerId} {o : OpId} (hacc : .op o ∈ (s.gens g).loop.accepted)
    (hg' : .op o ∈ ((s.withLoop g l).gens g').loop.accepted) : g' = g := by
  rw [withLoop_loop] at hg'
  split at hg'
  · assumption
  · exact ((h.ops o).accepted g' hg').1.symm.trans ((h.ops o).accepted g hacc).1

theorem Sound.start {s : Process ρ} (h : s.Sound) {g : Gen} {l : Loop Closure TimerId}
    {c : Closure} (hw : l.Wf) (hc : c ∈ (s.gens g).loop.unstarted)
    (ha : l.accepted = (s.gens g).loop.accepted)
    (hs : l.started = (s.gens g).loop.started ++ [c])
    (hf : l.finished = (s.gens g).loop.finished) (t : Thread) :
    ((s.withLoop g l).startClosure t c).Sound := by
  cases c with
  | wake n => exact h.withLoop hw fun o => by simp [ha, hs, hf]
  | op o =>
      have hacc := ((h.wf g).mem_unstarted.mp hc).1
      have ho := h.ops o
      obtain ⟨hgen, hsent⟩ := ho.accepted g hacc
      obtain ⟨handed, he⟩ := startClosure_op (s.withLoop g l) t o
      rw [he]
      refine h.update (p := { s.ops o with current := some _ }) rfl
        ((h.lifecycle.congr (.withLoop s g l)).congr {}) (h.withLoop_wf g hw)
        (fun o' => h.ne_of_begun (h.begun hacc))
        (OpOk.congr (s := s.withLoop g l) ?_ rfl fun _ => rfl)
        (CallOk.frame (s := s.withLoop g l) ?_ (fun _ => id) .inl id fun _ h1 h2 => ⟨h1, h2⟩)
        fun o' hne => ?_
      · exact {
          gen := ho.gen
          kind := ho.kind
          accepted := fun g' hg' => ⟨hgen.trans (h.gen_of_withLoop hacc hg').symm, hsent⟩
          started := fun g' hg' => by
            obtain rfl := h.gen_of_withLoop hacc hg'
            simp [withLoop_loop, hs]
          finished := fun g' hg' hnf => by
            obtain rfl := h.gen_of_withLoop hacc hg'
            rw [withLoop_loop, if_pos rfl, hf] at hnf
            exact ho.finished g' hacc hnf
          early := fun hearly => by
            rw [hsent] at hearly
            cases hearly
          slotNone := ho.slotNone
          slotSome := ho.slotSome
          slotOk := ho.slotOk
          value := ho.value }
      · obtain ⟨h1, h2, h3⟩ := h.calls o
        refine ⟨h1, h2, fun hk hd hpc => ?_⟩
        have hheld := h3 hk hd hpc
        rw [hgen] at hheld
        rw [withLoop_loop, if_pos hgen, ha, hf]
        exact hheld
      · obtain ⟨h1, h2⟩ := h.withLoop_op (g := g) (l := l) (o := o') (by rw [ha])
          (by simp [hs, hne]) (by rw [hf])
        exact ⟨h1.congr rfl fun _ => rfl,
          h2.frame (fun _ => id) .inl id fun _ h3 h4 => ⟨h3, h4⟩⟩

/-- A finished call is completed, so nothing is left to say about it. -/
theorem CallOk.finish (s : Process ρ) {o : OpId} {p : Op ρ} (hcur : p.current ≠ none)
    (hsent : p.pc.sent = true) (v : ρ) : CallOk s o (p.finish v) where
  registered hpc := by
    rw [Op.finish_pc] at hpc
    rw [hpc] at hsent
    cases hsent
  checked hk hd := by
    rw [Op.finish_kind] at hk
    rw [Op.finish_completed hk hcur] at hd
    cases hd
  held hk hd := by
    rw [Op.finish_kind] at hk
    rw [Op.finish_completed hk hcur] at hd
    cases hd

theorem Sound.finish {s : Process ρ} (h : s.Sound) {g : Gen} {l : Loop Closure TimerId}
    {c : Closure} (hw : l.Wf) (hc : c ∈ (s.gens g).loop.running)
    (ha : l.accepted = (s.gens g).loop.accepted) (hs : l.started = (s.gens g).loop.started)
    (hf : l.finished = (s.gens g).loop.finished ++ [c]) (v : ρ) :
    ((s.withLoop g l).finishClosure v c).Sound := by
  cases c with
  | wake n => exact h.withLoop hw fun o => by simp [ha, hs, hf]
  | op o =>
      obtain ⟨hstarted, hnf⟩ := (h.wf g).mem_running.mp hc
      have hacc := (h.wf g).mem_accepted hstarted
      obtain ⟨hgen, hsent⟩ := (h.ops o).accepted g hacc
      have hcur := ((h.ops o).started g hacc).mp hstarted
      refine h.update (p := (s.ops o).finish v) rfl
        ((h.lifecycle.congr (.withLoop s g l)).congr {}) (h.withLoop_wf g hw)
        (fun o' => h.ne_of_begun (h.begun hacc))
        (OpOk.congr (s := s.withLoop g l) ?_ rfl fun _ => rfl)
        (.finish _ hcur hsent v) fun o' hne => ?_
      · refine OpOk.finish (h.ops o) hsent ((h.ops o).finished g hacc hnf) hcur ?_ ?_ v
        · exact Nat.le_refl _
        intro g' hg'
        obtain rfl := h.gen_of_withLoop hacc hg'
        rw [withLoop_loop, if_pos rfl, hs, hf]
        exact ⟨hgen, hstarted, List.mem_append_right _ List.mem_cons_self⟩
      · obtain ⟨h1, h2⟩ := h.withLoop_op (g := g) (l := l) (o := o') (by rw [ha])
          (by rw [hs]) (by simp [hf, hne])
        exact ⟨h1.congr rfl fun _ => rfl,
          h2.frame (fun _ => id) .inl id fun _ h3 h4 => ⟨h3, h4⟩⟩

theorem Sound.dropLoop {s : Process ρ} (h : s.Sound) (b : Backend) {g : Gen} (hg : g < s.nextGen)
    (hi : s.runLoopInstance ≠ some g) :
    Sound (s.setGen g { s.gens g with
      dropped := true
      loop := if b = .linux then (s.gens g).loop else (s.gens g).loop.discard }) where
  lifecycle := h.lifecycle.dropLoop hg hi _
  wf g' := by
    by_cases hgg : g' = g
    · subst hgg
      simp only [setGen, Function.update_self]
      split
      · exact h.wf g'
      · exact (h.wf g').discard
    · simpa [setGen, hgg] using h.wf g'
  idle := h.idle
  ops o := by
    refine (h.ops o).frame (Nat.le_refl _) fun g' hg' => ?_
    by_cases hgg : g' = g
    · subst hgg
      simp only [setGen, Function.update_self] at hg' ⊢
      split at hg'
      · simp_all
      · rename_i hb
        -- what is left of a discarded queue was accepted before
        simp only [hb, if_false]
        exact ⟨(h.wf g').mem_of_discard hg', Iff.rfl, Iff.rfl⟩
    · simpa [setGen, hgg] using hg'
  calls o := by
    refine (h.calls o).frame (fun _ => id) .inl id fun he h1 h2 => ?_
    -- a call that is not completed belongs to the generation in the instance
    have hgg : (s.ops o).gen ≠ g := fun hgg => hi (hgg ▸ he)
    simpa [setGen, hgg] using ⟨h1, h2⟩

theorem OpOk.cancel {s : Process ρ} {o : OpId} {p : Op ρ} (h : OpOk s o p) :
    OpOk s o p.cancel := by
  obtain ⟨h1, h2, h3, h4, h5, h6, h7, h8, h9, h10⟩ := h
  constructor <;> grind [Op.cancel, Op.complete]

theorem Sound.cancel {s : Process ρ} (h : s.Sound) {g : Gen} {o : OpId} {os : List OpId}
    (hm : s.initMutex = some (.cancel g (o :: os)))
    (hl : Lifecycle { s.setOp o (s.ops o).cancel with initMutex := some (.cancel g os) }) :
    Sound { s.setOp o (s.ops o).cancel with initMutex := some (.cancel g os) } := by
  refine h.update rfl hl h.wf ?_ ((h.ops o).cancel.congr rfl fun _ => rfl) ?_
    fun o' hne => ⟨(h.ops o').congr rfl fun _ => rfl, ?_⟩
  · exact fun o' ho' => ⟨ho', fun he => by simpa [Op.cancel] using he ▸ h.idle o' ho'⟩
  · constructor <;> simp [Op.cancel]
  · refine (h.calls o').frame (fun _ => id) .inl (fun ha => ?_) fun _ h1 h2 => ⟨h1, h2⟩
    simpa [awaiting, hm, hne] using ha

/-- The entry of a call whose caller has returned. -/
theorem Sound.cancelDead {s : Process ρ} (h : s.Sound) {g : Gen} {o : OpId} {os : List OpId}
    (hm : s.initMutex = some (.cancel g (o :: os))) (hu : s.upgrades o = false)
    (hl : Lifecycle { s with initMutex := some (.cancel g os) }) :
    Sound { s with initMutex := some (.cancel g os) } where
  lifecycle := hl
  wf := h.wf
  idle := h.idle
  ops o' := (h.ops o').congr rfl fun _ => rfl
  calls o' := by
    by_cases hne : o' = o
    · subst hne
      simp only [upgrades, Bool.or_eq_false_iff] at hu
      constructor <;> grind [Pc.busy]
    · refine (h.calls o').frame (fun _ => id) .inl (fun ha => ?_) fun _ h1 h2 => ⟨h1, h2⟩
      simpa [awaiting, hm, hne] using ha

/-- **Every step keeps the invariant.** -/
theorem Sound.step {b : Backend} {s s' : Process ρ} {a : Action ρ} (h : s.Sound)
    (hst : Step b s a s') : s'.Sound := by
  have hl := h.lifecycle.step hst
  cases hst with
  | stay => exact h
  | newGen t hm hc hi _ => exact h.newGen hm hi hl rfl
  | initAgain t hm _ | dropMore t n hm _ | dropLast t hm _ | setSender t g hm | setThread t g hm
  | setCount t g hm =>
      exact h.statics hl rfl rfl rfl (fun _ => rfl) (fun _ _ => rfl) (fun _ => .inl)
        (by simp [awaiting, hm])
  | setShutdown g hm _ | setToken g hm =>
      refine h.statics hl rfl rfl rfl (fun g' => ?_) (fun _ _ => rfl) (fun _ => .inl)
        (by simp [awaiting, hm, setGen])
      by_cases hgg : g' = g <;> simp [setGen, hgg]
  | noInstance hm hi =>
      have hp := h.lifecycle.phase
      simp only [PhaseOk, hm] at hp
      obtain ⟨g, hpub, _⟩ := hp
      cases hi.symm.trans hpub.inst
  | takePending g hm =>
      exact h.statics hl rfl rfl rfl (fun _ => rfl) (fun _ _ => rfl) (by simp [awaiting])
        (by simp [awaiting, hm])
  | cancel g o os hm => exact h.cancel hm hl
  | cancelDead g o os hm hu => exact h.cancelDead hm hu hl
  | cancelled g hm | clearThread hm | clearInstance hm | clearSender hm =>
      exact h.statics hl rfl rfl rfl (fun _ => rfl) (by simp [awaiting, hm]) (fun _ => .inl)
        (by simp [awaiting, hm])
  | begin k t _ => exact h.begin k t
  | register o hpc hk => exact h.register hpc hk
  | op a o p handed hop _ => exact h.op hop handed
  | enqueue o v hpc _ => exact h.enqueue hpc
  | loopQuiet g a v l _ hstep ha hs hf =>
      exact h.withLoop (hstep.effect.wf (h.wf g)) fun o => ⟨ha o, by rw [hs], by rw [hf]⟩
  | loopStart g a v l c _ hstep hc ha hs hf =>
      exact h.start (hstep.effect.wf (h.wf g)) hc ha hs hf _
  | loopFinish g a v l c _ hstep hc ha hs hf =>
      exact h.finish (hstep.effect.wf (h.wf g)) hc ha hs hf v
  | dropLoop g hg hi _ => exact h.dropLoop b hg hi

theorem sound_of_reachable {b : Backend} {s : Process ρ}
    (h : (processSystem ρ b).Reachable s) : s.Sound :=
  System.Reachable.invariant
    { lifecycle := lifecycle_of_reachable .init
      wf := fun _ => Loop.Wf.empty
      idle := fun _ _ => rfl
      ops := fun o => by constructor <;> simp [processSystem, Pc.sending]
      calls := fun o => by constructor <;> simp [processSystem] }
    (fun _ _ _ _ hi hst => hi.step (step_cases hst)) h

/-! ## The result -/

/-- The closure of operation `o` is in the queue or in a dispatch batch of
generation `g`, or it is being executed. -/
def HeldBy (s : Process ρ) (o : OpId) (g : Gen) : Prop :=
  .op o ∈ (s.gens g).loop.state.callbacks ∨ .op o ∈ (s.gens g).loop.parked ∨
    .op o ∈ (s.gens g).loop.running

/-- Generation `g` is live for operation `o`: it is in the instance, and either
no `shutdown` of it has begun or that `shutdown` is yet to cancel `o`. -/
def LiveFor (s : Process ρ) (o : OpId) (g : Gen) : Prop :=
  s.runLoopInstance = some g ∧
    ((s.gens g).hasShutdown = false ∨ (s.initMutex ≠ none ∧ o ∈ s.awaiting))

theorem Sound.heldBy {s : Process ρ} (h : s.Sound) {o : OpId} {g : Gen}
    (ha : .op o ∈ (s.gens g).loop.accepted) (hf : .op o ∉ (s.gens g).loop.finished) :
    s.HeldBy o g := by
  by_cases hs : Closure.op o ∈ (s.gens g).loop.started
  · exact .inr (.inr ((h.wf g).mem_running.mpr ⟨hs, hf⟩))
  · have hu := (h.wf g).mem_unstarted.mpr ⟨ha, hs⟩
    exact (List.mem_append.mp hu).imp_right .inl

theorem Sound.liveFor {s : Process ρ} (h : s.Sound) {o : OpId} {g : Gen}
    (hi : s.runLoopInstance = some g) (ha : o ∈ s.awaiting) : s.LiveFor o g := by
  refine ⟨hi, ?_⟩
  by_cases hm : s.initMutex = none
  · -- between two transitions the published generation is not shut down
    have hp := h.lifecycle.phase
    simp only [PhaseOk, hm] at hp
    rcases hp with hp | ⟨_, g', hpub, hs⟩
    · cases hi.symm.trans hp.2.1
    · obtain rfl : g = g' := by simpa [hi] using hpub.inst
      exact .inl hs
  · exact .inr ⟨hm, ha⟩

/-- **A blocked call is not stranded, and returns nothing but the value of its
own callback.** -/
theorem call_never_stranded (b : Backend) {s : Process ρ}
    (h : (processSystem ρ b).Reachable s) (o : OpId) :
    ((s.ops o).pc = .blocked → (s.ops o).slot = none →
      ∃ g, s.LiveFor o g ∧ s.HeldBy o g) ∧
    (s.ops o).fills ≤ 1 ∧
    (∀ v, (s.ops o).pc = .returned (.value v) → (s.ops o).produced = some v) := by
  have hs := sound_of_reachable h
  have ho := hs.ops o
  refine ⟨fun hpc hslot => ?_, ?_, ho.value⟩
  · have hk := ho.kind (.inr hpc)
    have hc : (s.ops o).completed = false := by
      by_contra hc
      obtain ⟨r, hr⟩ := (ho.slotSome (by simpa using hc)).2 hslot
      cases hpc.symm.trans hr
    obtain ⟨hi, ha⟩ := (hs.calls o).checked hk hc (.inr (.inr hpc))
    obtain ⟨hacc, hf⟩ := (hs.calls o).held hk hc (.inr hpc)
    exact ⟨_, hs.liveFor hi ha, hs.heldBy hacc hf⟩
  · cases hc : (s.ops o).completed with
    | false => simp [(ho.slotNone hc).2]
    | true => simp [(ho.slotSome hc).1]

end Process

/-- Generation 0 starts on thread 0. -/
def initRun : List (Action Nat) := [.init 0, .advance, .advance, .advance]

/-- Thread 1 calls into it and blocks. -/
def blockedRun : List (Action Nat) :=
  initRun ++ [.begin .call 1, .op 0, .op 0, .op 0, .enqueue 0 .queued 0, .op 0]

theorem call_never_stranded_blocked :
    ∃ s : Process Nat, (s.ops 0).pc = .blocked ∧ (s.ops 0).slot.isNone ∧
      ∃ g, s.LiveFor 0 g ∧ s.HeldBy 0 g := by
  have hrun : ((processSystem Nat .win32).run {} blockedRun).map
      (fun s => decide ((s.ops 0).pc = .blocked) && (s.ops 0).slot.isNone) = some true := by
    decide
  obtain ⟨s, hs, hp⟩ := System.exists_reachable _ _ hrun
  simp only [Bool.and_eq_true, decide_eq_true_eq] at hp
  exact ⟨s, hp.1, hp.2, (Process.call_never_stranded .win32 hs 0).1 hp.1 (by simpa using hp.2)⟩

end Wxp.RunLoop
