import Wxp.RunLoop.DarwinOwners

/-!
# RunLoop — when the Darwin state is freed

`State` is freed exactly when its run loop is dropped, no sender has it, no callout is in
progress, and it has neither a source nor a valid timer (`freed_iff`). If the run loop is not
dropped in a callout and no callback is pushed from then on, only the senders are left to keep
it (`freed_after_drop`). A source that is made after the drop has taken the first one out is
never taken out, and `State` is never freed (`leaked`).
-/

namespace Wxp.RunLoop.Darwin

variable {s s' : State} {i : Nat} {o : Object}

theorem Owned.retains_current {b : Bool} (h : Owned s 0) (hb : s.current b = some i)
    (hvalid : ∀ o, s.objects[i]? = some o → o.valid = true) :
    ∃ o ∈ s.objects, o.retains = true := by
  obtain ⟨o, ho, -, hfield⟩ := h.wf.current b i hb
  have hv := hvalid o ho
  exact ⟨o, List.mem_of_getElem? ho, by simp [Object.retains, hv, hfield]⟩

theorem Owned.retains_callout (h : Owned s 0) (hne : s.callouts ≠ []) :
    ∃ o ∈ s.objects, o.retains = true := by
  obtain ⟨c, rest, hcallouts⟩ := List.exists_cons_of_ne_nil hne
  have hmem : c.1 ∈ s.callouts.map Prod.fst := by
    rw [hcallouts]
    exact List.mem_cons_self
  obtain ⟨o, ho⟩ := h.wf.exists_of_mem _ hmem
  have hpos : 0 < o.callouts := by
    rw [h.wf.callouts _ o ho]
    exact List.count_pos_iff.2 hmem
  have hv := h.wf.valid _ o ho (.inr hpos)
  exact ⟨o, List.mem_of_getElem? ho, by simp [Object.retains, hv, hpos]⟩

/-- Only the current source and the current timer hold the `Arc` outside of callouts. -/
theorem Owned.current_of_retains (h : Owned s 0) (hnil : s.callouts = [])
    (ho : s.objects[i]? = some o) (hr : o.retains = true) :
    o.valid = true ∧ s.current o.isTimer = some i := by
  have hzero : o.callouts = 0 := by
    rw [h.wf.callouts i o ho, hnil]
    rfl
  simp only [Object.retains, hzero, Bool.and_eq_true, Bool.or_eq_true, Nat.lt_irrefl,
    decide_false, Bool.false_eq_true, or_false] at hr
  obtain ⟨hvalid, hfield | hregistered⟩ := hr
  · exact ⟨hvalid, h.wf.field i o ho hfield⟩
  · exact ⟨hvalid, h.wf.field i o ho (h.wf.registered i o ho hregistered)⟩

theorem Owned.strong_eq_zero (h : Owned s 0) :
    s.strong = 0 ↔ s.loop = .dropped ∧ s.upgraded = 0 ∧ s.sent = 0 ∧
      ∀ o ∈ s.objects, o.retains = false := by
  rw [h.strong]
  unfold State.owners
  simp only [Nat.add_zero, Nat.add_eq_zero_iff, List.countP_eq_zero, Bool.not_eq_true]
  by_cases hloop : s.loop = .dropped
  · simp only [hloop, reduceIte, true_and]
    tauto
  · simp [hloop]

theorem Owned.pos_of_source (h : Owned s 0) (hsource : s.source = some i) : 0 < s.strong := by
  obtain ⟨o, ho, hs, -⟩ := h.wf.current false i hsource
  obtain ⟨o', hmem, hr⟩ := h.retains_current (b := false) hsource (by
    intro o' ho'
    rw [ho] at ho'
    cases ho'
    exact h.wf.valid i o ho (.inl hs))
  rw [Nat.pos_iff_ne_zero]
  intro hzero
  have hnone := (h.strong_eq_zero.1 hzero).2.2.2 o' hmem
  rw [hr] at hnone
  cases hnone

theorem freed_iff (h : darwinState.Reachable s) :
    s.strong = 0 ↔ s.loop = .dropped ∧ s.upgraded = 0 ∧ s.sent = 0 ∧ s.callouts = [] ∧
      s.source = none ∧
      ∀ i, s.timer = some i → ∀ o, s.objects[i]? = some o → o.valid = false := by
  have howned := owned_of_reachable h
  constructor
  · intro hzero
    obtain ⟨hloop, hupgraded, hsent, hobjects⟩ := howned.strong_eq_zero.1 hzero
    have hnone : ¬ ∃ o ∈ s.objects, o.retains = true := by
      intro ⟨o, ho, hr⟩
      rw [hobjects o ho] at hr
      cases hr
    refine ⟨hloop, hupgraded, hsent, ?_, ?_, ?_⟩
    · by_contra hne
      exact hnone (howned.retains_callout hne)
    · rw [Option.eq_none_iff_forall_ne_some]
      intro i hi
      have hpos := howned.pos_of_source hi
      omega
    · intro i hi o ho
      rw [Bool.eq_false_iff]
      intro hv
      refine hnone (howned.retains_current (b := true) hi ?_)
      intro o' ho'
      rw [ho] at ho'
      cases ho'
      exact hv
  · intro ⟨hloop, hupgraded, hsent, hcallouts, hsource, htimer⟩
    refine howned.strong_eq_zero.2 ⟨hloop, hupgraded, hsent, ?_⟩
    intro o hmem
    obtain ⟨i, ho⟩ := List.getElem?_of_mem hmem
    rw [Bool.eq_false_iff]
    intro hr
    obtain ⟨hvalid, hcur⟩ := howned.current_of_retains hcallouts ho hr
    cases ht : o.isTimer with
    | true =>
        rw [ht] at hcur
        rw [htimer i hcur o ho] at hvalid
        cases hvalid
    | false =>
        rw [ht] at hcur
        have hcur : s.source = some i := hcur
        rw [hsource] at hcur
        cases hcur

/-- A sender keeps the state past the drop of its run loop. -/
theorem freed_iff_sender : ∃ s : State, s.loop = .dropped ∧ s.upgraded = 1 ∧
    (s.strong = 0 ↔ s.loop = .dropped ∧ s.upgraded = 0 ∧ s.sent = 0 ∧ s.callouts = [] ∧
      s.source = none ∧
      ∀ i, s.timer = some i → ∀ o, s.objects[i]? = some o → o.valid = false) := by
  have hrun : ∃ s, darwinState.Reachable s ∧ _ := System.exists_reachable
    [.schedule, .upgrade, .dropSource, .dropTimer]
    (fun s => s.loop == .dropped && s.upgraded == 1) (by decide)
  obtain ⟨s, hs, hp⟩ := hrun
  rw [Bool.and_eq_true] at hp
  exact ⟨s, eq_of_beq hp.1, eq_of_beq hp.2, freed_iff hs⟩

/-! ## The drop -/

theorem update_source (s : State) (i : Nat) (f : Object → Object) :
    (s.update i f).source = s.source := by
  cases ho : s.objects[i]? with
  | none => simp only [State.update, ho]
  | some o => rw [update_eq ho]

theorem removeTimer_source (s : State) : s.removeTimer.source = s.source := by
  unfold State.removeTimer
  split
  · exact update_source s _ _
  · rfl

theorem removeSource_source (s : State) : s.removeSource.source = none := by
  unfold State.removeSource
  split
  · rfl
  · assumption

theorem signal_source (s : State) : s.signal.source = s.source := by
  unfold State.signal
  split
  · exact update_source s _ _
  · rfl

theorem schedule_source (hsource : s.source = some i) : s.schedule.source = some i := by
  have hs : s.removeTimer.source = some i := (removeTimer_source s).trans hsource
  show (if s.removeTimer.callbacks = 0 then s.removeTimer.createTimer
    else (if s.removeTimer.source = none then s.removeTimer.createSource
      else s.removeTimer).signal).source = some i
  split
  · exact hs
  · rw [signal_source, hs, if_neg (by simp)]
    exact hs

/-- No callback is pushed once the run loop is being dropped, and it is not dropped in a
callout. -/
def quiet (s : State) : Action → Bool
  | .push => s.loop == .alive
  | .dropSource => s.callouts.isEmpty
  | _ => true

abbrev Quiet (s : State) (a : Action) : Prop := quiet s a = true

/-- Nothing can call back or be scheduled any more. -/
structure Ended (s : State) : Prop where
  source : s.source = none
  callouts : s.callouts = []
  timer : s.loop = .dropped → s.timer = none

theorem Ended.not_retains (he : Ended s) (h : Owned s 0) (hloop : s.loop = .dropped)
    (ho : s.objects[i]? = some o) : o.retains = false := by
  rw [Bool.eq_false_iff]
  intro hr
  obtain ⟨-, hcur⟩ := h.current_of_retains he.callouts ho hr
  cases ht : o.isTimer with
  | true =>
      rw [ht] at hcur
      have hcur : s.timer = some i := hcur
      rw [he.timer hloop] at hcur
      cases hcur
  | false =>
      rw [ht] at hcur
      have hcur : s.source = some i := hcur
      rw [he.source] at hcur
      cases hcur

theorem Ended.step {a : Action} (he : Ended s) (h : Owned s 0) (hloop : s.loop ≠ .alive)
    (hquiet : Quiet s a) (hst : step s a = some s') : s'.loop ≠ .alive ∧ Ended s' := by
  cases a with
  | schedule =>
      obtain ⟨⟨halive, -⟩, -⟩ := Option.ite_none_right_eq_some.1 hst
      exact absurd halive hloop
  | unschedule found =>
      obtain ⟨⟨halive, -⟩, -⟩ := Option.ite_none_right_eq_some.1 hst
      exact absurd halive hloop
  | upgrade =>
      obtain ⟨-, hst⟩ := Option.ite_none_right_eq_some.1 hst
      cases hst
      exact ⟨hloop, he.source, he.callouts, he.timer⟩
  | push => exact absurd (eq_of_beq hquiet) hloop
  | sendReturns =>
      obtain ⟨-, hst⟩ := Option.ite_none_right_eq_some.1 hst
      cases hst
      exact ⟨hloop, he.source, he.callouts, he.timer⟩
  | call i =>
      simp only [Darwin.step] at hst
      split at hst
      · next o ho =>
          obtain ⟨hcall, -⟩ := Option.ite_none_right_eq_some.1 hst
          rw [Bool.and_eq_true] at hcall
          have hidle := hcall.1
          simp only [State.idle, Bool.and_eq_true, bne_iff_ne] at hidle
          have hdropped : s.loop = .dropped := by
            cases hl : s.loop with
            | alive => exact absurd hl hloop
            | dropping => exact absurd hl hidle.1
            | dropped => rfl
          have hr := retains_enter hcall.2
          rw [he.not_retains h hdropped ho] at hr
          cases hr
      · cases hst
  | drain due =>
      simp only [Darwin.step, he.callouts] at hst
      cases hst
  | pollEnds =>
      simp only [Darwin.step, he.callouts] at hst
      cases hst
  | calloutReturns =>
      simp only [Darwin.step, he.callouts] at hst
      cases hst
  | dropSource =>
      obtain ⟨⟨halive, -⟩, -⟩ := Option.ite_none_right_eq_some.1 hst
      exact absurd halive hloop
  | dropTimer =>
      obtain ⟨-, hst⟩ := Option.ite_none_right_eq_some.1 hst
      cases hst
      refine ⟨by simp, ?_, ?_, ?_⟩
      · exact (removeTimer_source s).trans he.source
      · exact (same_removeTimer s).callouts.trans he.callouts
      · intro _
        exact removeTimer_timer s

theorem ended_dropSource (hquiet : Quiet s .dropSource) (hst : step s .dropSource = some s') :
    Ended s' := by
  obtain ⟨-, hst⟩ := Option.ite_none_right_eq_some.1 hst
  cases hst
  constructor
  · exact removeSource_source s
  · exact (same_removeSource s).callouts.trans (List.isEmpty_iff.1 hquiet)
  · intro hloop
    cases hloop

/-- Only `drop` ends the life of the run loop. -/
theorem alive_step {a : Action} (halive : s.loop = .alive) (hst : step s a = some s') :
    s'.loop = .alive ∨ a = .dropSource := by
  cases a with
  | schedule =>
      obtain ⟨-, hst⟩ := Option.ite_none_right_eq_some.1 hst
      cases hst
      exact .inl ((same_schedule _).loop.trans halive)
  | unschedule found =>
      obtain ⟨-, hst⟩ := Option.ite_none_right_eq_some.1 hst
      cases hst
      exact .inl ((same_schedule _).loop.trans halive)
  | upgrade =>
      obtain ⟨-, hst⟩ := Option.ite_none_right_eq_some.1 hst
      cases hst
      exact .inl halive
  | push =>
      obtain ⟨-, hst⟩ := Option.ite_none_right_eq_some.1 hst
      cases hst
      exact .inl ((same_schedule _).loop.trans halive)
  | sendReturns =>
      obtain ⟨-, hst⟩ := Option.ite_none_right_eq_some.1 hst
      cases hst
      exact .inl halive
  | call i =>
      simp only [Darwin.step] at hst
      split at hst
      · obtain ⟨-, hst⟩ := Option.ite_none_right_eq_some.1 hst
        cases hst
        exact .inl ((same_update s i State.enter).loop.trans halive)
      · cases hst
  | drain due =>
      simp only [Darwin.step] at hst
      split at hst
      · obtain ⟨-, hst⟩ := Option.ite_none_right_eq_some.1 hst
        cases hst
        exact .inl halive
      · cases hst
  | pollEnds =>
      simp only [Darwin.step] at hst
      split at hst
      · split at hst
        · cases hst
        · split at hst
          · cases hst
            exact .inl halive
          · cases hst
            exact .inl ((same_schedule s.retain).loop.trans halive)
      · cases hst
  | calloutReturns =>
      simp only [Darwin.step] at hst
      split at hst
      · next i _ _ =>
          split at hst
          · cases hst
          · cases hst
            exact .inl ((same_update s i State.leave).loop.trans halive)
      · cases hst
  | dropSource => exact .inr rfl
  | dropTimer =>
      obtain ⟨hdropping, -⟩ := Option.ite_none_right_eq_some.1 hst
      rw [halive] at hdropping
      cases hdropping

theorem ended_of_reachVia (h : darwinState.ReachVia Quiet s) : s.loop = .alive ∨ Ended s := by
  refine System.ReachVia.invariant (I := fun s => s.loop = .alive ∨ Ended s) (.inl rfl) ?_ h
  intro s a s' hr hi hquiet hst
  by_cases halive : s.loop = .alive
  · obtain halive | rfl := alive_step halive hst
    · exact .inl halive
    · exact .inr (ended_dropSource hquiet hst)
  · have he := hi.resolve_left halive
    exact .inr (he.step (owned_of_reachable hr.reachable) halive hquiet hst).2

theorem freed_after_drop (h : darwinState.ReachVia Quiet s) (hloop : s.loop = .dropped) :
    s.strong = 0 ↔ s.upgraded = 0 ∧ s.sent = 0 := by
  have he : Ended s := (ended_of_reachVia h).resolve_left (by rw [hloop]; decide)
  have howned := owned_of_reachable h.reachable
  rw [howned.strong_eq_zero]
  constructor
  · intro ⟨_, hupgraded, hsent, _⟩
    exact ⟨hupgraded, hsent⟩
  · intro ⟨hupgraded, hsent⟩
    refine ⟨hloop, hupgraded, hsent, ?_⟩
    intro o hmem
    obtain ⟨i, ho⟩ := List.getElem?_of_mem hmem
    exact he.not_retains howned hloop ho

/-- A callback is sent, and its source is taken out. -/
theorem freed_after_drop_sent : ∃ s : State, s.strong = 0 ∧
    (s.strong = 0 ↔ s.upgraded = 0 ∧ s.sent = 0) := by
  have hrun : ∃ s, darwinState.ReachVia Quiet s ∧ _ := System.exists_reachVia
    [.upgrade, .push, .call 0, .drain 0, .pollEnds, .calloutReturns, .dropSource, .sendReturns,
      .dropTimer]
    (fun s => s.loop == .dropped && s.strong == 0) (by decide)
  obtain ⟨s, hs, hp⟩ := hrun
  rw [Bool.and_eq_true] at hp
  exact ⟨s, eq_of_beq hp.2, freed_after_drop hs (eq_of_beq hp.1)⟩

/-! ## The source that stays -/

theorem source_step {a : Action} (hloop : s.loop ≠ .alive) (hsource : s.source = some i)
    (hst : step s a = some s') : s'.loop ≠ .alive ∧ s'.source = some i := by
  cases a with
  | schedule =>
      obtain ⟨⟨halive, -⟩, -⟩ := Option.ite_none_right_eq_some.1 hst
      exact absurd halive hloop
  | unschedule found =>
      obtain ⟨⟨halive, -⟩, -⟩ := Option.ite_none_right_eq_some.1 hst
      exact absurd halive hloop
  | upgrade =>
      obtain ⟨-, hst⟩ := Option.ite_none_right_eq_some.1 hst
      cases hst
      exact ⟨hloop, hsource⟩
  | push =>
      obtain ⟨-, hst⟩ := Option.ite_none_right_eq_some.1 hst
      cases hst
      have hsame := same_schedule { s.retain with callbacks := s.callbacks + 1 }
      refine ⟨?_, schedule_source hsource⟩
      intro halive
      exact hloop (hsame.loop.symm.trans halive)
  | sendReturns =>
      obtain ⟨-, hst⟩ := Option.ite_none_right_eq_some.1 hst
      cases hst
      exact ⟨hloop, hsource⟩
  | call j =>
      simp only [Darwin.step] at hst
      split at hst
      · next o ho =>
          obtain ⟨-, hst⟩ := Option.ite_none_right_eq_some.1 hst
          cases hst
          rw [update_eq ho]
          exact ⟨hloop, hsource⟩
      · cases hst
  | drain due =>
      simp only [Darwin.step] at hst
      split at hst
      · obtain ⟨-, hst⟩ := Option.ite_none_right_eq_some.1 hst
        cases hst
        exact ⟨hloop, hsource⟩
      · cases hst
  | pollEnds =>
      simp only [Darwin.step] at hst
      split at hst
      · split at hst
        · cases hst
        · split at hst
          · cases hst
            exact ⟨hloop, hsource⟩
          · cases hst
            refine ⟨?_, schedule_source hsource⟩
            intro halive
            exact hloop ((same_schedule s.retain).loop.symm.trans halive)
      · cases hst
  | calloutReturns =>
      simp only [Darwin.step] at hst
      split at hst
      · next j _ _ =>
          split at hst
          · cases hst
          · cases hst
            refine ⟨?_, (update_source s j State.leave).trans hsource⟩
            intro halive
            exact hloop ((same_update s j State.leave).loop.symm.trans halive)
      · cases hst
  | dropSource =>
      obtain ⟨⟨halive, -⟩, -⟩ := Option.ite_none_right_eq_some.1 hst
      exact absurd halive hloop
  | dropTimer =>
      obtain ⟨-, hst⟩ := Option.ite_none_right_eq_some.1 hst
      cases hst
      exact ⟨by simp, (removeTimer_source s).trans hsource⟩

theorem source_run {as : List Action} (hloop : s.loop ≠ .alive) (hsource : s.source = some i)
    (hrun : darwinState.run s as = some s') : s'.source = some i := by
  induction as generalizing s with
  | nil =>
      cases hrun
      exact hsource
  | cons a as ih =>
      rw [System.run_cons, Option.bind_eq_some_iff] at hrun
      obtain ⟨s₁, hst, hrun⟩ := hrun
      obtain ⟨hloop, hsource⟩ := source_step hloop hsource hst
      exact ih hloop hsource hrun

/-- Whatever comes, the source is not taken out and the state is not freed. -/
theorem leaked (h : darwinState.Reachable s) (hloop : s.loop ≠ .alive)
    (hsource : s.source = some i) {as : List Action} (hrun : darwinState.run s as = some s') :
    s'.source = some i ∧ 0 < s'.strong := by
  have hs' : s'.source = some i := source_run hloop hsource hrun
  have hreach : darwinState.Reachable s' := System.reachVia_runVia h hrun
  exact ⟨hs', (owned_of_reachable hreach).pos_of_source hs'⟩

/-- A sender pushes a callback between the two halves of the drop. -/
theorem leaked_push : ∃ s s' : State, s.loop = .dropping ∧
    darwinState.run s [.dropTimer, .sendReturns, .call 0, .drain 0, .pollEnds, .calloutReturns] =
      some s' ∧ s'.source = some 0 ∧ 0 < s'.strong := by
  have hrun : ∃ s, darwinState.Reachable s ∧ _ := System.exists_reachable
    [.upgrade, .dropSource, .push]
    (fun s => s.loop == .dropping && s.source == some 0 && (darwinState.run s [.dropTimer,
      .sendReturns, .call 0, .drain 0, .pollEnds, .calloutReturns]).isSome) (by decide)
  obtain ⟨s, hs, hp⟩ := hrun
  rw [Bool.and_eq_true, Bool.and_eq_true, Option.isSome_iff_exists] at hp
  obtain ⟨⟨hloop, hsource⟩, s', hs'⟩ := hp
  have hloop := eq_of_beq hloop
  have hne : s.loop ≠ .alive := by
    rw [hloop]
    decide
  exact ⟨s, s', hloop, hs', leaked hs hne (eq_of_beq hsource) hs'⟩

end Wxp.RunLoop.Darwin
