import Wxp.RunLoop.Stops

/-!
# RunLoop — Innermost

On Darwin `CFRunLoopStop` reaches the innermost native call only. So a `stop` ends at most one
`run` (`one_each`), and a `run` stays in its native call, whatever its flag says, until there is
a `stop` while this call is the innermost one (`stays`): a `stop` in a callback that `block_on`
dispatches does not end it.
-/

namespace Wxp.RunLoop.Runs

variable {s s' : State} {f g : Frame} {fs above below : List Frame} {stage : Stage} {d : Nat}

/-! ## One stop for one run -/

/-- The loops that have not been left by a stop yet have no share in the stops. -/
structure Marked (s : State) : Prop where
  count : s.returned.length + s.frames.countP Frame.stopped ≤ s.stops
  outer : ∀ f fs, s.frames = f :: fs → ∀ g ∈ fs, g.stage = .callback ∨ g.stage = .drain
  drain : ∀ f ∈ s.frames, f.stage = .drain → f.stopped = true
  check : ∀ f fs, s.frames = f :: fs → f.stage = .check → s.running = false → f.stopped = true
  posted : s.posted = 0

theorem countP_markInnermost (fs : List Frame) :
    (markInnermost fs).countP Frame.stopped ≤ fs.countP Frame.stopped + 1 := by
  induction fs with
  | nil => exact Nat.zero_le _
  | cons f fs ih =>
      unfold markInnermost
      split
      · rw [List.countP_cons, List.countP_cons]
        simp only [reduceIte]
        omega
      · rw [List.countP_cons, List.countP_cons]
        omega

/-- The loops around user code are in user code. -/
theorem outer_of_inUserCode (h : Marked s) (huser : s.inUserCode = true) :
    ∀ g ∈ s.frames, g.stage = .callback ∨ g.stage = .drain := by
  unfold State.inUserCode at huser
  intro g hg
  cases hframes : s.frames with
  | nil =>
      rw [hframes] at hg
      cases hg
  | cons f fs =>
      rw [hframes] at hg
      simp only [hframes, Bool.or_eq_true, beq_iff_eq] at huser
      obtain rfl | hg := List.mem_cons.1 hg
      · exact huser
      · exact h.outer f fs hframes g hg

theorem Marked.push (h : Marked s) (huser : s.inUserCode = true) (hstopped : g.stopped = false)
    (hdrain : g.stage ≠ .drain) {running : Bool}
    (hcheck : g.stage = .check → running = true) :
    Marked { s with frames := g :: s.frames, running } where
  count := by
    have hcount := h.count
    rw [List.countP_cons, hstopped]
    simp only [Bool.false_eq_true, reduceIte, Nat.add_zero]
    exact hcount
  outer f fs hframes := by
    cases hframes
    exact outer_of_inUserCode h huser
  drain f hf hd := by
    obtain rfl | hf := List.mem_cons.1 hf
    · exact absurd hd hdrain
    · exact h.drain f hf hd
  check f fs hframes hc hr := by
    cases hframes
    have hr : running = false := hr
    rw [hcheck hc] at hr
    cases hr
  posted := h.posted

theorem Marked.setStage (h : Marked s) (hframes : s.frames = f :: fs) {running : Bool}
    (hdrain : stage = .drain → f.stopped = true)
    (hcheck : stage = .check → running = false → f.stopped = true) :
    Marked { (s.setStage f fs stage) with running } where
  count := by
    have hcount := h.count
    rw [hframes, List.countP_cons] at hcount
    show s.returned.length + ({ f with stage } :: fs).countP Frame.stopped ≤ s.stops
    rw [List.countP_cons]
    exact hcount
  outer f' fs' hframes' := by
    cases hframes'
    exact h.outer f fs hframes
  drain f' hf' hd := by
    obtain rfl | hf' := List.mem_cons.1 hf'
    · exact hdrain hd
    · exact h.drain f' (mem_tail hframes f' hf') hd
  check f' fs' hframes' hc hr := by
    cases hframes'
    exact hcheck hc hr
  posted := h.posted

/-- The loop that is left was in the way of no other. -/
theorem Marked.pop (h : Marked s) (hframes : s.frames = f :: fs)
    {returned : List (Frame × Nat)}
    (hcount : returned.length ≤ s.returned.length + (if f.stopped then 1 else 0)) :
    Marked { s with frames := fs, returned } where
  count := by
    have hold := h.count
    rw [hframes, List.countP_cons] at hold
    show returned.length + fs.countP Frame.stopped ≤ s.stops
    omega
  outer g gs hgs := by
    intro g' hg'
    refine h.outer f fs hframes g' ?_
    rw [show fs = g :: gs from hgs]
    exact List.mem_cons_of_mem g hg'
  drain g hg hd := h.drain g (mem_tail hframes g hg) hd
  check g gs hgs hc := by
    have hg : g ∈ fs := by
      rw [show fs = g :: gs from hgs]
      exact List.mem_cons_self
    obtain hstage | hstage := h.outer f fs hframes g hg
    · rw [hstage] at hc
      cases hc
    · rw [hstage] at hc
      cases hc
  posted := h.posted

theorem Marked.stop (h : Marked s) (huser : s.inUserCode = true) : Marked (s.stop .darwin) where
  count := by
    have hcount := h.count
    have hmark := countP_markInnermost s.frames
    show s.returned.length + (markInnermost s.frames).countP Frame.stopped ≤ s.stops + 1
    omega
  outer f fs hframes g hg := by
    have hg : g ∈ markInnermost s.frames := by
      rw [show markInnermost s.frames = f :: fs from hframes]
      exact List.mem_cons_of_mem f hg
    obtain ⟨g', hg', -, hstage, -⟩ := mem_markInnermost hg
    rw [← hstage]
    exact outer_of_inUserCode h huser g' hg'
  drain f hf hd := by
    obtain ⟨g, hg, -, hstage, -, hstopped⟩ := mem_markInnermost hf
    exact hstopped (h.drain g hg (hstage.trans hd))
  check f fs hframes hc := by
    have hf : f ∈ markInnermost s.frames := by
      rw [show markInnermost s.frames = f :: fs from hframes]
      exact List.mem_cons_self
    obtain ⟨g, hg, -, hstage, -⟩ := mem_markInnermost hf
    rw [← hstage] at hc
    obtain hcall | hdrain := outer_of_inUserCode h huser g hg
    · rw [hcall] at hc
      cases hc
    · rw [hdrain] at hc
      cases hc
  posted := h.posted

theorem Marked.step {a : Action} (h : Marked s) (hok : Works s a)
    (hst : step .darwin s a = some s') : Marked s' := by
  cases step_cases hst with
  | run huser => exact h.push huser rfl (by simp) fun _ => rfl
  | poll huser => exact h.push huser rfl (by simp) (by simp)
  | stop huser => exact h.stop huser
  | enter hframes | call hframes | callReturns hframes =>
      exact h.setStage hframes (by simp) (by simp)
  | exit hframes hcheck hr =>
      refine h.pop hframes ?_
      rw [h.check _ _ hframes hcheck hr, List.length_append]
      exact Nat.le_refl _
  | pollReturns hframes => exact h.pop hframes (Nat.le_add_right _ _)
  | waitReturns _ _ _ hb => exact absurd rfl hb
  | stopReturns hframes _ _ _ hstopped => exact h.setStage hframes (fun _ => hstopped) (by simp)
  | dispatchStop _ _ hpos =>
      rw [h.posted] at hpos
      cases hpos
  | drained hframes hdrain =>
      have hf := h.drain _ (by rw [hframes]; exact List.mem_cons_self) hdrain
      exact h.setStage hframes (by simp) fun _ _ => hf
  | finished | error | quit => cases hok

theorem marked_of_reachVia (h : (runSystem .darwin).ReachVia Works s) : Marked s := by
  refine System.ReachVia.invariant (I := Marked) ?_ ?_ h
  · constructor
    · exact Nat.le_refl _
    · intro f fs hframes
      cases hframes
    · intro f hf
      cases hf
    · intro f fs hframes
      cases hframes
    · rfl
  · intro s a s' _ hi hok hst
    exact hi.step hok hst

/-- On Darwin a `stop` ends at most one `run`. -/
theorem one_each (h : (runSystem .darwin).ReachVia Works s) : s.returned.length ≤ s.stops := by
  have hcount := (marked_of_reachVia h).count
  omega

/-- Two calls of `run`, and two of `stop`. -/
theorem one_each_two : ∃ s : State, s.returned.length = 2 ∧ s.returned.length ≤ s.stops := by
  have hrun : ∃ s, (runSystem .darwin).ReachVia Works s ∧ _ := System.exists_reachVia
    [.run, .enter, .call, .run, .enter, .call, .stop, .callReturns, .nativeReturns, .drained,
      .exit, .stop, .callReturns, .nativeReturns, .drained, .exit]
    (fun s => s.returned.length == 2) (by decide)
  obtain ⟨s, hs, hp⟩ := hrun
  exact ⟨s, eq_of_beq hp, one_each hs⟩

/-! ## The stop of another loop -/

/-- How deep the innermost native call is on the stack; 0 if there is none. -/
def nativeDepth : List Frame → Nat
  | [] => 0
  | f :: fs => if f.inNative then fs.length + 1 else nativeDepth fs

/-- There is no `stop` while the native call at the depth `d` is the innermost one. -/
def spares (d : Nat) (s : State) : Action → Bool
  | .stop => nativeDepth s.frames != d
  | .fails => false
  | .run | .poll | .enter | .exit | .call | .callReturns | .nativeReturns | .dispatchStop
  | .drained => true

abbrev Spares (d : Nat) (s : State) (a : Action) : Prop := spares d s a = true

theorem markInnermost_append (hf : f.inNative = true)
    (hne : nativeDepth (above ++ f :: below) ≠ below.length + 1) :
    markInnermost (above ++ f :: below) = markInnermost above ++ f :: below := by
  induction above with
  | nil =>
      refine absurd ?_ hne
      show nativeDepth (f :: below) = _
      unfold nativeDepth
      rw [if_pos hf]
  | cons g above ih =>
      rw [List.cons_append] at hne ⊢
      unfold nativeDepth at hne
      unfold markInnermost
      cases hg : g.inNative with
      | true => rfl
      | false =>
          rw [hg] at hne
          simp only [Bool.false_eq_true, reduceIte] at hne ⊢
          rw [ih hne, List.cons_append]

/-- The `run` that was entered after `n` stops is in its native call over `below`, not marked. -/
def Waits (n : Nat) (below : List Frame) (s : State) : Prop :=
  ∃ above f, s.frames = above ++ f :: below ∧ f.isRun = true ∧ f.inNative = true ∧
    f.stopped = false ∧ f.entered = n

/-- The innermost loop moves on to `stage`; if it is the one that waits, in its native call. -/
theorem Waits.setStage {n : Nat} (h : Waits n below s) (hframes : s.frames = f :: fs)
    (hstage : f.isRun = true → f.inNative = true → f.stopped = false →
      { f with stage }.inNative = true)
    (hs' : s'.frames = { f with stage } :: fs) : Waits n below s' := by
  obtain ⟨above, g, happ, hisRun, hnative, hstopped, hentered⟩ := h
  rw [happ] at hframes
  cases above with
  | nil =>
      cases hframes
      exact ⟨[], _, hs', hisRun, hstage hisRun hnative hstopped, hstopped, hentered⟩
  | cons g' above =>
      cases hframes
      exact ⟨{ f with stage } :: above, g, hs', hisRun, hnative, hstopped, hentered⟩

/-- The innermost loop is left; it is not the one that waits. -/
theorem Waits.pop {n : Nat} (h : Waits n below s) (hframes : s.frames = f :: fs)
    (hne : ¬ (f.isRun = true ∧ f.inNative = true ∧ f.stopped = false)) (hs' : s'.frames = fs) :
    Waits n below s' := by
  obtain ⟨above, g, happ, hisRun, hnative, hstopped, hentered⟩ := h
  rw [happ] at hframes
  cases above with
  | nil =>
      cases hframes
      exact absurd ⟨hisRun, hnative, hstopped⟩ hne
  | cons g' above =>
      cases hframes
      exact ⟨above, g, hs', hisRun, hnative, hstopped, hentered⟩

theorem Waits.push {n : Nat} (h : Waits n below s) (hs' : s'.frames = g :: s.frames) :
    Waits n below s' := by
  obtain ⟨above, f, happ, hf⟩ := h
  exact ⟨g :: above, f, by rw [hs', happ, List.cons_append], hf⟩

theorem Waits.step {n : Nat} {a : Action} (h : Waits n below s)
    (hok : Spares (below.length + 1) s a) (hst : step .darwin s a = some s') :
    Waits n below s' := by
  cases step_cases hst with
  | run | poll => exact h.push rfl
  | stop =>
      obtain ⟨above, f, happ, hisRun, hnative, hrest⟩ := h
      have hne : nativeDepth s.frames ≠ below.length + 1 := bne_iff_ne.1 hok
      rw [happ] at hne
      refine ⟨markInnermost above, f, ?_, hisRun, hnative, hrest⟩
      show markInnermost s.frames = _
      rw [happ]
      exact markInnermost_append hnative hne
  | enter hframes | call hframes | callReturns hframes | dispatchStop hframes =>
      exact h.setStage hframes (fun _ _ _ => rfl) rfl
  | exit hframes hcheck =>
      refine h.pop hframes ?_ rfl
      intro ⟨_, hnative, _⟩
      simp [Frame.inNative, hcheck] at hnative
  | pollReturns hframes _ hpoll =>
      refine h.pop hframes ?_ rfl
      intro ⟨hisRun, _⟩
      rw [hpoll] at hisRun
      cases hisRun
  | waitReturns _ _ _ hb => exact absurd rfl hb
  | stopReturns hframes _ _ _ hmark =>
      refine h.setStage hframes ?_ rfl
      intro _ _ hstopped
      rw [hmark] at hstopped
      cases hstopped
  | drained hframes hdrain =>
      refine h.setStage hframes ?_ rfl
      intro _ hnative
      simp [Frame.inNative, hdrain] at hnative
  | finished | error | quit => cases hok

/-- On Darwin a `run` stays in its native call until there is a stop while it is the innermost
one. Its flag does not matter. -/
theorem stays {n : Nat} {as : List Action} (h : Waits n below s)
    (hrun : (runSystem .darwin).runVia (Spares (below.length + 1)) s as = some s') :
    Waits n below s' := by
  induction as generalizing s with
  | nil =>
      cases hrun
      exact h
  | cons a as ih =>
      simp only [System.runVia] at hrun
      obtain ⟨hok, hrun⟩ := Option.ite_none_right_eq_some.1 hrun
      obtain ⟨s₁, hst, hrun⟩ := Option.bind_eq_some_iff.1 hrun
      exact ih (h.step hok hst) hrun

/-- A callback that `block_on` dispatches calls `stop`: the flag is cleared, and `run` waits. -/
theorem stays_blockOn : ∃ s s' : State, (runSystem .darwin).Reachable s ∧
    (runSystem .darwin).runVia (Spares 1) s
      [.call, .poll, .call, .stop, .callReturns, .nativeReturns, .callReturns] = some s' ∧
    s'.running = false ∧ s'.stops = 1 ∧ Waits 0 [] s' := by
  have hreach : ∃ s, (runSystem .darwin).Reachable s ∧ _ :=
    System.exists_reachable (S := runSystem .darwin) [.run, .enter]
      (fun s => s.frames == [{ isRun := true, stage := .native, entered := 0 }] &&
        ((runSystem .darwin).runVia (Spares 1) s [.call, .poll, .call, .stop, .callReturns,
          .nativeReturns, .callReturns]).any fun s' => !s'.running && s'.stops == 1) (by decide)
  obtain ⟨s, hs, hp⟩ := hreach
  rw [Bool.and_eq_true, Option.any_eq_true] at hp
  obtain ⟨hframes, s', hs', hp⟩ := hp
  rw [Bool.and_eq_true] at hp
  have hwaits : Waits 0 [] s := ⟨[], _, eq_of_beq hframes, rfl, rfl, rfl, rfl⟩
  exact ⟨s, s', hs, hs', by simpa using hp.1, eq_of_beq hp.2, stays hwaits hs'⟩

end Wxp.RunLoop.Runs
