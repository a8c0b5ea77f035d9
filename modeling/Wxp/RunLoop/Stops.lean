import Wxp.RunLoop.Runs

/-!
# RunLoop — Stops

What ends a `run`. If no native call fails, it takes a `stop` that has got through to the flag
since the `run` was called (`returned_after_stop`). Outside of Darwin one such `stop` ends every
`run` that is on the stack (`ends_all`).
-/

namespace Wxp.RunLoop.Runs

variable {b : Backend} {s s' : State} {f : Frame} {fs above below : List Frame} {stage : Stage}

/-! ## The stops since a loop was entered -/

structure Inv (s : State) : Prop where
  entered : ∀ f ∈ s.frames, f.entered ≤ s.handled
  /-- The outer loops were entered before the inner ones. -/
  nested : s.frames.Pairwise fun inner outer => outer.entered ≤ inner.entered
  isRun : ∀ f ∈ s.frames, f.stage = .check ∨ f.stage = .drain → f.isRun = true
  drain : ∀ f ∈ s.frames, f.stage = .drain → f.stopped = true
  stopped : ∀ f ∈ s.frames, f.stopped = true → f.entered < s.handled
  running : s.running = false → ∀ f ∈ s.frames, f.isRun = true → f.entered < s.handled
  posted : s.handled + s.posted = s.stops
  returned : ∀ r ∈ s.returned, r.1.entered < r.2

theorem Inv.init : Inv (runSystem b).init where
  entered f hf := by cases hf
  nested := .nil
  isRun f hf := by cases hf
  drain f hf := by cases hf
  stopped f hf := by cases hf
  running _ f hf := by cases hf
  posted := rfl
  returned r hr := by cases hr

theorem Inv.push (h : Inv s) {g : Frame} (hentered : g.entered = s.handled)
    (hisRun : g.stage = .check → g.isRun = true) (hdrain : g.stage ≠ .drain)
    (hstopped : g.stopped = false) {running : Bool}
    (hrunning : running = false → s.running = false ∧ g.isRun = false) :
    Inv { s with frames := g :: s.frames, running } where
  entered f hf := by
    obtain rfl | hf := List.mem_cons.1 hf
    · exact Nat.le_of_eq hentered
    · exact h.entered f hf
  nested := by
    refine List.pairwise_cons.2 ⟨?_, h.nested⟩
    intro f hf
    rw [hentered]
    exact h.entered f hf
  isRun f hf hs := by
    obtain rfl | hf := List.mem_cons.1 hf
    · exact hisRun (hs.resolve_right hdrain)
    · exact h.isRun f hf hs
  drain f hf hd := by
    obtain rfl | hf := List.mem_cons.1 hf
    · exact absurd hd hdrain
    · exact h.drain f hf hd
  stopped f hf hs := by
    obtain rfl | hf := List.mem_cons.1 hf
    · rw [hstopped] at hs
      cases hs
    · exact h.stopped f hf hs
  running hr f hf hrun := by
    obtain ⟨hr, hpoll⟩ := hrunning hr
    obtain rfl | hf := List.mem_cons.1 hf
    · rw [hpoll] at hrun
      cases hrun
    · exact h.running hr f hf hrun
  posted := h.posted
  returned := h.returned

theorem Inv.pop (h : Inv s) (hframes : s.frames = f :: fs) : Inv { s with frames := fs } := by
  have hmem : ∀ {g : Frame}, g ∈ fs → g ∈ s.frames := by
    intro g hg
    rw [hframes]
    exact List.mem_cons_of_mem f hg
  constructor
  · exact fun g hg => h.entered g (hmem hg)
  · have hnested := h.nested
    rw [hframes] at hnested
    exact hnested.of_cons
  · exact fun g hg => h.isRun g (hmem hg)
  · exact fun g hg => h.drain g (hmem hg)
  · exact fun g hg => h.stopped g (hmem hg)
  · exact fun hr g hg => h.running hr g (hmem hg)
  · exact h.posted
  · exact h.returned

theorem Inv.setStage (h : Inv s) (hframes : s.frames = f :: fs)
    (hisRun : stage = .check ∨ stage = .drain → f.isRun = true)
    (hdrain : stage = .drain → f.stopped = true) :
    Inv (s.setStage f fs stage) := by
  have hf : f ∈ s.frames := by
    rw [hframes]
    exact List.mem_cons_self
  have hmem : ∀ {g : Frame}, g ∈ fs → g ∈ s.frames := by
    intro g hg
    rw [hframes]
    exact List.mem_cons_of_mem f hg
  constructor
  · intro g hg
    obtain rfl | hg := List.mem_cons.1 hg
    · exact h.entered f hf
    · exact h.entered g (hmem hg)
  · have hnested := h.nested
    rw [hframes, List.pairwise_cons] at hnested
    exact List.pairwise_cons.2 hnested
  · intro g hg hs
    obtain rfl | hg := List.mem_cons.1 hg
    · exact hisRun hs
    · exact h.isRun g (hmem hg) hs
  · intro g hg hd
    obtain rfl | hg := List.mem_cons.1 hg
    · exact hdrain hd
    · exact h.drain g (hmem hg) hd
  · intro g hg hs
    obtain rfl | hg := List.mem_cons.1 hg
    · exact h.stopped f hf hs
    · exact h.stopped g (hmem hg) hs
  · intro hr g hg hrun
    obtain rfl | hg := List.mem_cons.1 hg
    · exact h.running hr f hf hrun
    · exact h.running hr g (hmem hg) hrun
  · exact h.posted
  · exact h.returned

theorem Inv.inNative (h : Inv s) (hframes : s.frames = f :: fs)
    (hstage : stage = .native ∨ stage = .callback) : Inv (s.setStage f fs stage) := by
  refine h.setStage hframes ?_ ?_
  · intro hs
    obtain rfl | rfl := hstage
    · simp at hs
    · simp at hs
  · intro hd
    obtain rfl | rfl := hstage
    · cases hd
    · cases hd

/-- The flag is cleared, and the stop comes from `posted` or is a new one. -/
theorem Inv.clear (h : Inv s) (posted stops : Nat) (hposted : s.handled + 1 + posted = stops) :
    Inv { s.clear with posted, stops } where
  entered f hf := Nat.le_succ_of_le (h.entered f hf)
  nested := h.nested
  isRun := h.isRun
  drain := h.drain
  stopped f hf _ := Nat.lt_succ_of_le (h.entered f hf)
  running _ f hf _ := Nat.lt_succ_of_le (h.entered f hf)
  posted := hposted
  returned := h.returned

theorem mem_markInnermost {g : Frame} (hg : g ∈ markInnermost fs) :
    ∃ g' ∈ fs, g'.isRun = g.isRun ∧ g'.stage = g.stage ∧ g'.entered = g.entered ∧
      (g'.stopped = true → g.stopped = true) := by
  induction fs with
  | nil => cases hg
  | cons f fs ih =>
      unfold markInnermost at hg
      split at hg
      · obtain rfl | hg := List.mem_cons.1 hg
        · exact ⟨f, List.mem_cons_self, rfl, rfl, rfl, fun _ => rfl⟩
        · exact ⟨g, List.mem_cons_of_mem f hg, rfl, rfl, rfl, id⟩
      · obtain rfl | hg := List.mem_cons.1 hg
        · exact ⟨g, List.mem_cons_self, rfl, rfl, rfl, id⟩
        · obtain ⟨g', hg', hsame⟩ := ih hg
          exact ⟨g', List.mem_cons_of_mem f hg', hsame⟩

theorem map_entered_markInnermost (fs : List Frame) :
    (markInnermost fs).map Frame.entered = fs.map Frame.entered := by
  induction fs with
  | nil => rfl
  | cons f fs ih =>
      unfold markInnermost
      split
      · rfl
      · rw [List.map_cons, ih, List.map_cons]

theorem Inv.mark (h : Inv s) : Inv { s.clear with
    frames := markInnermost s.frames
    stops := s.stops + 1 } where
  entered f hf := by
    obtain ⟨g, hg, -, -, hentered, -⟩ := mem_markInnermost hf
    rw [← hentered]
    exact Nat.le_succ_of_le (h.entered g hg)
  nested := by
    have hnested := h.nested
    rw [← List.pairwise_map (f := Frame.entered) (R := fun a b => b ≤ a)] at hnested ⊢
    rw [map_entered_markInnermost]
    exact hnested
  isRun f hf hs := by
    obtain ⟨g, hg, hisRun, hstage, -⟩ := mem_markInnermost hf
    rw [← hstage] at hs
    rw [← hisRun]
    exact h.isRun g hg hs
  drain f hf hd := by
    obtain ⟨g, hg, -, hstage, -, hstopped⟩ := mem_markInnermost hf
    exact hstopped (h.drain g hg (hstage.trans hd))
  stopped f hf _ := by
    obtain ⟨g, hg, -, -, hentered, -⟩ := mem_markInnermost hf
    rw [← hentered]
    exact Nat.lt_succ_of_le (h.entered g hg)
  running _ f hf _ := by
    obtain ⟨g, hg, -, -, hentered, -⟩ := mem_markInnermost hf
    rw [← hentered]
    exact Nat.lt_succ_of_le (h.entered g hg)
  posted := by
    have hposted := h.posted
    show s.handled + 1 + s.posted = s.stops + 1
    omega
  returned := h.returned

theorem Inv.stop (h : Inv s) : Inv (s.stop b) := by
  have hposted := h.posted
  cases b with
  | android | linux => exact h.clear s.posted (s.stops + 1) (by omega)
  | win32 =>
      refine ⟨h.entered, h.nested, h.isRun, h.drain, h.stopped, h.running, ?_, h.returned⟩
      show s.handled + (s.posted + 1) = s.stops + 1
      omega
  | darwin => exact h.mark

theorem Inv.step {a : Action} (h : Inv s) (hok : Works s a) (hst : step b s a = some s') :
    Inv s' := by
  cases step_cases hst with
  | run =>
      refine h.push rfl (fun _ => rfl) ?_ rfl ?_
      · intro hd
        cases hd
      · intro hr
        cases hr
  | poll =>
      refine h.push rfl ?_ ?_ rfl fun hr => ⟨hr, rfl⟩
      · intro hc
        cases hc
      · intro hd
        cases hd
  | stop => exact h.stop
  | enter hframes => exact h.inNative hframes (.inl rfl)
  | exit hframes hcheck hr =>
      rename_i f fs
      have hf : f ∈ s.frames := by
        rw [hframes]
        exact List.mem_cons_self
      have hpop := h.pop hframes
      refine ⟨hpop.entered, hpop.nested, hpop.isRun, hpop.drain, hpop.stopped, hpop.running,
        hpop.posted, ?_⟩
      intro r hmem
      obtain hmem | hmem := List.mem_append.1 hmem
      · exact h.returned r hmem
      · obtain rfl := List.mem_singleton.1 hmem
        exact h.running hr f hf (h.isRun f hf (.inl hcheck))
  | call hframes => exact h.inNative hframes (.inr rfl)
  | callReturns hframes => exact h.inNative hframes (.inl rfl)
  | pollReturns hframes => exact h.pop hframes
  | waitReturns hframes _ hisRun =>
      refine h.setStage hframes (fun _ => hisRun) ?_
      intro hd
      cases hd
  | stopReturns hframes _ hisRun _ hstopped =>
      exact h.setStage hframes (fun _ => hisRun) fun _ => hstopped
  | dispatchStop hframes _ hpos =>
      have hposted := h.posted
      have hclear := h.clear (s.posted - 1) s.stops (by omega)
      exact hclear.inNative hframes (.inr rfl)
  | drained hframes hdrain =>
      rename_i f fs
      have hf : f ∈ s.frames := by
        rw [hframes]
        exact List.mem_cons_self
      have hs : Inv (s.setStage f fs .check) := by
        refine h.setStage hframes (fun _ => h.isRun f hf (.inr hdrain)) ?_
        intro hd
        cases hd
      refine ⟨hs.entered, hs.nested, hs.isRun, hs.drain, hs.stopped, ?_, hs.posted, hs.returned⟩
      intro _ g hg _
      -- the loops outside of this one were entered before it
      have hlt := h.stopped f hf (h.drain f hf hdrain)
      obtain rfl | hg := List.mem_cons.1 hg
      · exact hlt
      · have hnested := h.nested
        rw [hframes, List.pairwise_cons] at hnested
        exact Nat.lt_of_le_of_lt (hnested.1 g hg) hlt
  | finished | error | quit => cases hok

theorem inv_of_reachVia (h : (runSystem b).ReachVia Works s) : Inv s := by
  refine System.ReachVia.invariant (I := Inv) Inv.init ?_ h
  intro s a s' _ hi hok hst
  exact hi.step hok hst

/-- A `run` that returns has had a stop since it was called, and each stop is handled once. -/
theorem returned_after_stop (h : (runSystem b).ReachVia Works s) :
    (∀ r ∈ s.returned, r.1.entered < r.2) ∧ s.handled + s.posted = s.stops := by
  have hinv := inv_of_reachVia h
  exact ⟨hinv.returned, hinv.posted⟩

/-- On Win32 the second of two stops is left for the next `run`. -/
theorem returned_after_stop_posted : ∃ s : State, s.returned.length = 2 ∧ s.stops = 2 ∧
    (∀ r ∈ s.returned, r.1.entered < r.2) ∧ s.handled + s.posted = s.stops := by
  have hrun : ∃ s, (runSystem .win32).ReachVia Works s ∧ _ := System.exists_reachVia
    [.run, .enter, .call, .stop, .stop, .callReturns, .nativeReturns, .enter, .dispatchStop,
      .callReturns, .nativeReturns, .exit, .run, .enter, .dispatchStop, .callReturns,
      .nativeReturns, .exit]
    (fun s => s.returned.length == 2 && s.stops == 2) (by decide)
  obtain ⟨s, hs, hp⟩ := hrun
  rw [Bool.and_eq_true] at hp
  exact ⟨s, eq_of_beq hp.1, eq_of_beq hp.2, returned_after_stop hs⟩

/-! ## One stop for all -/

/-- Outside of Darwin nothing is drained after the native call, and only `run` has a `while`. -/
structure Plain (s : State) : Prop where
  drain : ∀ f ∈ s.frames, f.stage ≠ .drain
  check : ∀ f ∈ s.frames, f.stage = .check → f.isRun = true

theorem Plain.cons (h : Plain s) (hdrain : f.stage ≠ .drain)
    (hcheck : f.stage = .check → f.isRun = true) (hfs : ∀ g ∈ fs, g ∈ s.frames)
    (hs' : s'.frames = f :: fs) : Plain s' := by
  constructor
  · intro g hg
    rw [hs'] at hg
    obtain rfl | hg := List.mem_cons.1 hg
    · exact hdrain
    · exact h.drain g (hfs g hg)
  · intro g hg
    rw [hs'] at hg
    obtain rfl | hg := List.mem_cons.1 hg
    · exact hcheck
    · exact h.check g (hfs g hg)

theorem Plain.subset (h : Plain s) (hs' : ∀ g ∈ s'.frames, g ∈ s.frames) : Plain s' :=
  ⟨fun g hg => h.drain g (hs' g hg), fun g hg => h.check g (hs' g hg)⟩

theorem mem_tail (hframes : s.frames = f :: fs) : ∀ g ∈ fs, g ∈ s.frames := by
  intro g hg
  rw [hframes]
  exact List.mem_cons_of_mem f hg

theorem Plain.step {a : Action} (hb : b ≠ .darwin) (h : Plain s) (hst : step b s a = some s') :
    Plain s' := by
  cases step_cases hst with
  | run => exact h.cons (by simp) (fun _ => rfl) (fun _ hg => hg) rfl
  | poll => exact h.cons (by simp) (by simp) (fun _ hg => hg) rfl
  | stop =>
      cases b with
      | darwin => exact absurd rfl hb
      | android | linux | win32 => exact ⟨h.drain, h.check⟩
  | enter hframes | call hframes | callReturns hframes | dispatchStop hframes =>
      exact h.cons (by simp) (by simp) (mem_tail hframes) rfl
  | exit hframes | pollReturns hframes | quit hframes => exact h.subset (mem_tail hframes)
  | waitReturns hframes _ hisRun | error hframes _ hisRun =>
      exact h.cons (by simp) (fun _ => by exact hisRun) (mem_tail hframes) rfl
  | stopReturns _ _ _ hdarwin | finished _ _ _ hdarwin => exact absurd hdarwin hb
  | drained hframes hdrain =>
      refine absurd hdrain (h.drain _ ?_)
      rw [hframes]
      exact List.mem_cons_self

theorem plain_of_reachable (hb : b ≠ .darwin) (h : (runSystem b).Reachable s) : Plain s := by
  refine System.Reachable.invariant (I := Plain) ?_ ?_ h
  · constructor
    · intro f hf
      cases hf
    · intro f hf
      cases hf
  · intro s a s' _ hi hst
    exact hi.step hb hst

theorem running_step {a : Action} (hr : s.running = false) (ha : a ≠ .run)
    (hst : step b s a = some s') : a ≠ .enter ∧ s'.running = false := by
  cases step_cases hst with
  | run => exact absurd rfl ha
  | stop =>
      refine ⟨by simp, ?_⟩
      cases b with
      | win32 => exact hr
      | android | linux | darwin => rfl
  | enter _ _ hrunning =>
      rw [hr] at hrunning
      cases hrunning
  | poll | exit | call | callReturns | pollReturns | waitReturns | stopReturns | finished | quit =>
      exact ⟨by simp, hr⟩
  | dispatchStop | drained | error => exact ⟨by simp, rfl⟩

/-- No `run` waits again until there is a new one. -/
theorem not_enter_of_run {as : List Action} (hr : s.running = false) (has : .run ∉ as)
    (hrun : (runSystem b).run s as = some s') : .enter ∉ as ∧ s'.running = false := by
  induction as generalizing s with
  | nil =>
      cases hrun
      exact ⟨List.not_mem_nil, hr⟩
  | cons a as ih =>
      rw [System.run_cons, Option.bind_eq_some_iff] at hrun
      obtain ⟨s₁, hst, hrun⟩ := hrun
      have ha : a ≠ .run := fun heq => has (by rw [heq]; exact List.mem_cons_self)
      obtain ⟨henter, hr⟩ := running_step hr ha hst
      obtain ⟨henters, hr⟩ := ih hr (fun h => has (List.mem_cons_of_mem a h)) hrun
      refine ⟨fun hmem => ?_, hr⟩
      obtain heq | hmem := List.mem_cons.1 hmem
      · exact henter heq.symm
      · exact henters hmem

/-- The loops only return. -/
def returns : Action → Bool
  | .callReturns | .nativeReturns | .exit => true
  | .run | .poll | .stop | .enter | .call | .dispatchStop | .drained | .fails => false

/-- A run that only returns. -/
def Returns (b : Backend) (s s' : State) : Prop :=
  ∃ as, (∀ a ∈ as, returns a = true) ∧ (runSystem b).run s as = some s'

theorem Returns.refl (s : State) : Returns b s s :=
  ⟨[], fun _ ha => absurd ha List.not_mem_nil, rfl⟩

theorem Returns.cons {a : Action} {s₁ : State} (ha : returns a = true)
    (hst : step b s a = some s₁) (h : Returns b s₁ s') : Returns b s s' := by
  obtain ⟨as, has, hrun⟩ := h
  refine ⟨a :: as, ?_, ?_⟩
  · intro a' ha'
    obtain rfl | ha' := List.mem_cons.1 ha'
    · exact ha
    · exact has a' ha'
  · rw [System.run_cons]
    show (step b s a).bind _ = _
    rw [hst]
    exact hrun

theorem Returns.trans {s₁ : State} (h : Returns b s s₁) (h' : Returns b s₁ s') :
    Returns b s s' := by
  obtain ⟨as, has, hrun⟩ := h
  obtain ⟨as', has', hrun'⟩ := h'
  refine ⟨as ++ as', ?_, ?_⟩
  · intro a ha
    obtain ha | ha := List.mem_append.1 ha
    · exact has a ha
    · exact has' a ha
  · rw [System.run_append, hrun]
    exact hrun'

theorem returns_check (hframes : s.frames = f :: fs) (hstage : f.stage = .check)
    (hr : s.running = false) :
    Returns b s { s with frames := fs, returned := s.returned ++ [(f, s.handled)] } := by
  have hst : step b s .exit =
      some { s with frames := fs, returned := s.returned ++ [(f, s.handled)] } := by
    simp only [step, hframes, hstage, hr, true_and, reduceIte]
  exact .cons rfl hst (.refl _)

/-- The innermost loop is left. -/
theorem returns_native (hb : b ≠ .darwin) (hframes : s.frames = f :: fs)
    (hstage : f.stage = .native) (hr : s.running = false) :
    ∃ s', Returns b s s' ∧ s'.frames = fs ∧ s'.running = false ∧
      s'.returned.length = s.returned.length + f.isRun.toNat := by
  cases hisRun : f.isRun with
  | false =>
      have hst : step b s .nativeReturns = some { s with frames := fs } := by
        simp [step, hframes, hstage, hisRun]
      exact ⟨_, .cons rfl hst (.refl _), rfl, hr, rfl⟩
  | true =>
      have hst : step b s .nativeReturns = some (s.setStage f fs .check) := by
        simp [step, hframes, hstage, hisRun, hb]
      exact ⟨_, .cons rfl hst (returns_check rfl rfl hr), rfl, hr, List.length_append⟩

theorem returns_frame (hb : b ≠ .darwin) (h : Plain s) (hframes : s.frames = f :: fs)
    (hr : s.running = false) :
    ∃ s', Returns b s s' ∧ s'.frames = fs ∧ s'.running = false ∧
      s'.returned.length = s.returned.length + f.isRun.toNat := by
  have hf : f ∈ s.frames := by
    rw [hframes]
    exact List.mem_cons_self
  cases hstage : f.stage with
  | check =>
      refine ⟨_, returns_check hframes hstage hr, rfl, hr, ?_⟩
      rw [h.check f hf hstage]
      exact List.length_append
  | native => exact returns_native hb hframes hstage hr
  | callback =>
      have hst : step b s .callReturns = some (s.setStage f fs .native) := by
        simp only [step, hframes, hstage, reduceIte]
      obtain ⟨s', hreturns, hs'⟩ := returns_native hb (s := s.setStage f fs .native) rfl rfl hr
      exact ⟨s', .cons rfl hst hreturns, hs'⟩
  | drain => exact absurd hstage (h.drain f hf)

theorem returns_all (hb : b ≠ .darwin) (h : Plain s) (hr : s.running = false) :
    ∃ s', Returns b s s' ∧ s'.frames = [] ∧
      s'.returned.length = s.returned.length + s.frames.countP Frame.isRun := by
  generalize hframes : s.frames = fs
  induction fs generalizing s with
  | nil => exact ⟨s, .refl s, hframes, rfl⟩
  | cons f fs ih =>
      obtain ⟨s₁, hreturns, hframes₁, hr₁, hlen₁⟩ := returns_frame hb h hframes hr
      have h₁ : Plain s₁ := by
        refine h.subset ?_
        rw [hframes₁]
        exact mem_tail hframes
      obtain ⟨s', hreturns', hframes', hlen'⟩ := ih h₁ hr₁ hframes₁
      refine ⟨s', hreturns.trans hreturns', hframes', ?_⟩
      rw [hlen', hlen₁, List.countP_cons]
      cases f.isRun with
      | true => simp only [Bool.toNat_true, reduceIte]; omega
      | false => simp

/-- Outside of Darwin: once a stop has cleared the flag, no `run` waits again before there is a
new one, and all that are on the stack can return. -/
theorem ends_all (hb : b ≠ .darwin) (h : (runSystem b).Reachable s) (hr : s.running = false) :
    (∀ as s', (runSystem b).run s as = some s' → .run ∉ as → .enter ∉ as) ∧
      ∃ s', Returns b s s' ∧ s'.frames = [] ∧
        s'.returned.length = s.returned.length + s.frames.countP Frame.isRun := by
  constructor
  · intro as s' hrun has
    exact (not_enter_of_run hr has hrun).1
  · exact returns_all hb (plain_of_reachable hb h) hr

/-- Three calls of `run`, and one `stop`. -/
theorem ends_all_nested : ∃ s : State, s.stops = 1 ∧ s.frames.countP Frame.isRun = 3 ∧
    (∀ as s', (runSystem .android).run s as = some s' → .run ∉ as → .enter ∉ as) ∧
      ∃ s', Returns .android s s' ∧ s'.frames = [] ∧
        s'.returned.length = s.returned.length + s.frames.countP Frame.isRun := by
  have hrun : ∃ s, (runSystem .android).Reachable s ∧ _ :=
    System.exists_reachable (S := runSystem .android)
      [.run, .enter, .call, .run, .enter, .call, .run, .enter, .call, .stop]
      (fun s => s.stops == 1 && s.frames.countP Frame.isRun == 3 && !s.running) (by decide)
  obtain ⟨s, hs, hp⟩ := hrun
  rw [Bool.and_eq_true, Bool.and_eq_true] at hp
  obtain ⟨⟨hstops, hcount⟩, hr⟩ := hp
  exact ⟨s, eq_of_beq hstops, eq_of_beq hcount, ends_all (by decide) hs (by simpa using hr)⟩

end Wxp.RunLoop.Runs
