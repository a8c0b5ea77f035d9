import Wxp.RunLoop.DarwinState

/-!
# RunLoop — the owners of the Darwin state

In every state that is reached, the strong count of the `Arc` is the number of its owners: the
run loop, the objects that hold it, and the senders between their `upgrade` and their return
(`owned_of_reachable`). `schedule` and its parts hold one more reference while they run.
-/

namespace Wxp.RunLoop.Darwin

variable {s s' : State} {objs : List Object} {i j n : Nat} {o : Object}

/-! ## The objects -/

/-- The objects, with the current timer and source of `State` and the objects of the callouts. -/
structure Wf (objs : List Object) (cur : Bool → Option Nat) (inside : List Nat) : Prop where
  current : ∀ (b : Bool) (i : Nat), cur b = some i →
    ∃ o, objs[i]? = some o ∧ o.isTimer = b ∧ o.field = true
  field : ∀ (i : Nat) (o : Object), objs[i]? = some o → o.field = true → cur o.isTimer = some i
  registered : ∀ (i : Nat) (o : Object), objs[i]? = some o → o.registered = true → o.field = true
  callouts : ∀ (i : Nat) (o : Object), objs[i]? = some o → o.callouts = inside.count i
  exists_of_mem : ∀ i ∈ inside, ∃ o, objs[i]? = some o
  /-- A timer is valid until its callout is over. -/
  valid : ∀ (i : Nat) (o : Object), objs[i]? = some o → o.isTimer = false ∨ 0 < o.callouts →
    o.valid = true
  once : ∀ (i : Nat) (o : Object), objs[i]? = some o → o.isTimer = true → o.callouts ≤ 1

variable {cur cur' : Bool → Option Nat} {inside inside' : List Nat}

/-- What has to be checked when one object changes. -/
structure Change (i : Nat) (o o' : Object) (cur cur' : Bool → Option Nat)
    (inside inside' : List Nat) : Prop where
  isTimer : o'.isTimer = o.isTimer
  current : ∀ (b : Bool) (j : Nat), cur' b = some j ↔ cur b = some j ∧ (j = i → o'.field = true)
  field : o'.field = true → o.field = true
  registered : o'.registered = true → o'.field = true
  callouts : ∀ j, inside'.count j = if j = i then o'.callouts else inside.count j
  mem : ∀ j ∈ inside', j = i ∨ j ∈ inside
  valid : o'.isTimer = false ∨ 0 < o'.callouts → o'.valid = true
  once : o'.isTimer = true → o'.callouts ≤ 1

theorem getElem?_modify_cases {f : Object → Object} (ho : objs[i]? = some o) {o' : Object}
    (h : (objs.modify i f)[j]? = some o') :
    (j = i ∧ o' = f o) ∨ (j ≠ i ∧ objs[j]? = some o') := by
  by_cases hji : j = i
  · subst hji
    rw [List.getElem?_modify_eq, ho] at h
    cases h
    exact .inl ⟨rfl, rfl⟩
  · rw [modify_of_ne hji] at h
    exact .inr ⟨hji, h⟩

theorem Wf.modify {f : Object → Object} (h : Wf objs cur inside) (ho : objs[i]? = some o)
    (hc : Change i o (f o) cur cur' inside inside') : Wf (objs.modify i f) cur' inside' := by
  have hat : (objs.modify i f)[i]? = some (f o) := by simp [ho]
  have hold : ∀ {j : Nat} {o' : Object}, objs[j]? = some o' →
      ∃ o'', (objs.modify i f)[j]? = some o'' := by
    intro j o' ho'
    by_cases hji : j = i
    · subst hji
      exact ⟨_, hat⟩
    · exact ⟨o', by rw [modify_of_ne hji]; exact ho'⟩
  constructor
  · intro b j hj
    obtain ⟨hj, hf⟩ := (hc.current b j).1 hj
    obtain ⟨o', ho', hs, hf'⟩ := h.current b j hj
    by_cases hji : j = i
    · subst hji
      rw [ho] at ho'
      cases ho'
      exact ⟨f o, hat, hc.isTimer.trans hs, hf rfl⟩
    · exact ⟨o', by rw [modify_of_ne hji]; exact ho', hs, hf'⟩
  · intro j o' ho' hf
    obtain ⟨rfl, rfl⟩ | ⟨hji, ho'⟩ := getElem?_modify_cases ho ho'
    · rw [hc.isTimer]
      exact (hc.current _ _).2 ⟨h.field j o ho (hc.field hf), fun _ => hf⟩
    · exact (hc.current _ _).2 ⟨h.field j o' ho' hf, fun heq => absurd heq hji⟩
  · intro j o' ho' hr
    obtain ⟨rfl, rfl⟩ | ⟨-, ho'⟩ := getElem?_modify_cases ho ho'
    · exact hc.registered hr
    · exact h.registered j o' ho' hr
  · intro j o' ho'
    rw [hc.callouts]
    obtain ⟨rfl, rfl⟩ | ⟨hji, ho'⟩ := getElem?_modify_cases ho ho'
    · rw [if_pos rfl]
    · rw [if_neg hji]
      exact h.callouts j o' ho'
  · intro j hj
    obtain rfl | hj := hc.mem j hj
    · exact ⟨f o, hat⟩
    · obtain ⟨o', ho'⟩ := h.exists_of_mem j hj
      exact hold ho'
  · intro j o' ho' hv
    obtain ⟨rfl, rfl⟩ | ⟨-, ho'⟩ := getElem?_modify_cases ho ho'
    · exact hc.valid hv
    · exact h.valid j o' ho' hv
  · intro j o' ho' ht
    obtain ⟨rfl, rfl⟩ | ⟨-, ho'⟩ := getElem?_modify_cases ho ho'
    · exact hc.once ht
    · exact h.once j o' ho' ht

/-- The object keeps its callouts. -/
theorem Wf.count_same (h : Wf objs cur inside) (ho : objs[i]? = some o) (j : Nat) :
    inside.count j = if j = i then o.callouts else inside.count j := by
  split
  · next hji =>
      subst hji
      exact (h.callouts j o ho).symm
  · rfl

theorem Wf.takeOut {b : Bool} (h : Wf objs cur inside) (hb : cur b = some i) :
    Wf (objs.modify i State.takeOut) (Function.update cur b none) inside := by
  obtain ⟨o, ho, ht, hf⟩ := h.current b i hb
  refine h.modify ho ?_
  constructor
  · rfl
  · intro b' j
    by_cases hbb : b' = b
    · subst hbb
      rw [Function.update_self]
      constructor
      · intro hj
        cases hj
      · intro ⟨hj, hf⟩
        rw [hb] at hj
        cases hj
        cases hf rfl
    · rw [Function.update_of_ne hbb]
      refine ⟨fun hj => ⟨hj, fun hji => ?_⟩, And.left⟩
      subst hji
      obtain ⟨o', ho', hs, -⟩ := h.current b' j hj
      rw [ho] at ho'
      cases ho'
      exact absurd (hs.symm.trans ht) hbb
  · intro hf
    cases hf
  · intro hr
    cases hr
  · exact h.count_same (o := o) ho
  · exact fun j hj => .inr hj
  · exact h.valid i o ho
  · exact h.once i o ho

theorem Wf.signal (h : Wf objs cur inside) (ho : objs[i]? = some o) :
    Wf (objs.modify i State.setSignalled) cur inside := by
  refine h.modify ho ?_
  constructor
  · rfl
  · intro b j
    refine ⟨fun hj => ⟨hj, fun hji => ?_⟩, And.left⟩
    subst hji
    obtain ⟨o', ho', -, hf⟩ := h.current b j hj
    rw [ho] at ho'
    cases ho'
    exact hf
  · exact id
  · exact h.registered i o ho
  · exact h.count_same (o := o) ho
  · exact fun j hj => .inr hj
  · exact h.valid i o ho
  · exact h.once i o ho

theorem Wf.enter (h : Wf objs cur inside) (ho : objs[i]? = some o) (hc : State.callable o = true) :
    Wf (objs.modify i State.enter) cur (i :: inside) := by
  simp only [State.callable, Bool.and_eq_true] at hc
  obtain ⟨⟨hr, hv⟩, hc⟩ := hc
  refine h.modify ho ?_
  constructor
  · rfl
  · intro b j
    refine ⟨fun hj => ⟨hj, fun _ => ?_⟩, And.left⟩
    exact h.registered i o ho hr
  · exact id
  · exact h.registered i o ho
  · intro j
    show (i :: inside).count j = if j = i then o.callouts + 1 else inside.count j
    rw [List.count_cons, h.callouts i o ho]
    split
    · next hij =>
        rw [if_pos (eq_of_beq hij).symm, eq_of_beq hij]
    · next hij =>
        rw [if_neg (fun hji => hij (by rw [hji]; exact beq_self_eq_true i)), Nat.add_zero]
  · intro j hj
    exact List.mem_cons.1 hj
  · exact fun _ => hv
  · intro ht
    have ht : o.isTimer = true := ht
    rw [if_pos ht] at hc
    have hzero : o.callouts = 0 := eq_of_beq hc
    show o.callouts + 1 ≤ 1
    omega

theorem Wf.leave (h : Wf objs cur (i :: inside)) :
    Wf (objs.modify i State.leave) cur inside := by
  obtain ⟨o, ho⟩ := h.exists_of_mem i List.mem_cons_self
  have hcount : o.callouts = inside.count i + 1 := by
    rw [h.callouts i o ho, List.count_cons_self]
  have htimer : (State.leave o).isTimer = o.isTimer := by
    unfold State.leave
    split <;> rfl
  have hcallouts : (State.leave o).callouts = inside.count i := by
    unfold State.leave
    split
    · show o.callouts - 1 = _
      omega
    · show o.callouts - 1 = _
      omega
  have hfield : (State.leave o).field = o.field := by
    unfold State.leave
    split <;> rfl
  refine h.modify ho ?_
  constructor
  · exact htimer
  · intro b j
    rw [hfield]
    refine ⟨fun hj => ⟨hj, fun hji => ?_⟩, And.left⟩
    subst hji
    obtain ⟨o', ho', -, hf⟩ := h.current b j hj
    rw [ho] at ho'
    cases ho'
    exact hf
  · rw [hfield]
    exact id
  · rw [hfield]
    intro hr
    refine h.registered i o ho ?_
    unfold State.leave at hr
    split at hr
    · cases hr
    · exact hr
  · intro j
    rw [hcallouts]
    split
    · next hji => rw [hji]
    · next hji => rw [List.count_cons_of_ne (Ne.symm hji)]
  · exact fun j hj => .inr (List.mem_cons_of_mem i hj)
  · rw [htimer, hcallouts]
    intro hv
    cases ht : o.isTimer with
    | true =>
        have hone := h.once i o ho ht
        rw [ht] at hv
        obtain hv | hv := hv
        · cases hv
        · omega
    | false =>
        unfold State.leave
        rw [if_neg (by rw [ht]; decide)]
        exact h.valid i o ho (.inl ht)
  · rw [htimer, hcallouts]
    intro ht
    have hone := h.once i o ho ht
    omega

theorem Wf.create {b : Bool} (h : Wf objs cur inside) (hb : cur b = none) :
    Wf (objs ++ [{ isTimer := b }]) (Function.update cur b (some objs.length)) inside := by
  have hnew : (objs ++ [({ isTimer := b } : Object)])[objs.length]? = some { isTimer := b } :=
    List.getElem?_concat_length
  have hnone : inside.count objs.length = 0 := by
    rw [List.count_eq_zero]
    intro hmem
    obtain ⟨o, ho⟩ := h.exists_of_mem _ hmem
    rw [List.getElem?_length] at ho
    cases ho
  constructor
  · intro b' i hi
    by_cases hbb : b' = b
    · subst hbb
      rw [Function.update_self] at hi
      cases hi
      exact ⟨_, hnew, rfl, rfl⟩
    · rw [Function.update_of_ne hbb] at hi
      obtain ⟨o, ho, hs⟩ := h.current b' i hi
      exact ⟨o, getElem?_append_of_some ho _, hs⟩
  · intro i o ho hf
    obtain ho | ⟨rfl, rfl⟩ := getElem?_append_new ho
    · have hcur := h.field i o ho hf
      by_cases hbb : o.isTimer = b
      · rw [hbb, hb] at hcur
        cases hcur
      · rw [Function.update_of_ne hbb]
        exact hcur
    · exact Function.update_self ..
  · intro i o ho hr
    obtain ho | ⟨rfl, rfl⟩ := getElem?_append_new ho
    · exact h.registered i o ho hr
    · rfl
  · intro i o ho
    obtain ho | ⟨rfl, rfl⟩ := getElem?_append_new ho
    · exact h.callouts i o ho
    · exact hnone.symm
  · intro i hi
    obtain ⟨o, ho⟩ := h.exists_of_mem i hi
    exact ⟨o, getElem?_append_of_some ho _⟩
  · intro i o ho hv
    obtain ho | ⟨rfl, rfl⟩ := getElem?_append_new ho
    · exact h.valid i o ho hv
    · rfl
  · intro i o ho ht
    obtain ho | ⟨rfl, rfl⟩ := getElem?_append_new ho
    · exact h.once i o ho ht
    · exact Nat.zero_le 1

/-! ## The count -/

namespace State

/-- Who has the `Arc`. -/
def owners (s : State) : Nat :=
  (if s.loop = .dropped then 0 else 1) + s.objects.countP Object.retains + s.upgraded + s.sent

/-- The timer and the source. -/
def current (s : State) (b : Bool) : Option Nat := if b then s.timer else s.source

end State

/-- The objects are in order, and `n` owners are on the stack. -/
structure Owned (s : State) (n : Nat) : Prop where
  wf : Wf s.objects s.current (s.callouts.map Prod.fst)
  strong : s.strong = s.owners + n

theorem countP_retains_modify {f : Object → Object} (ho : objs[i]? = some o)
    (hf : (f o).retains = true → o.retains = true) :
    objs.countP Object.retains = (objs.modify i f).countP Object.retains +
      (o.retains && !(f o).retains).toNat := by
  induction objs generalizing i with
  | nil => cases ho
  | cons o₀ objs ih =>
      cases i with
      | zero =>
          cases ho
          simp only [List.modify_zero_cons, List.countP_cons]
          cases hr : o.retains with
          | true => cases hr' : (f o).retains <;> simp
          | false =>
              have hr' : (f o).retains = false := by
                rw [Bool.eq_false_iff]
                intro hr'
                rw [hf hr'] at hr
                cases hr
              simp [hr']
      | succ i =>
          have ho := ih (by simpa using ho)
          simp only [List.modify_succ_cons, List.countP_cons]
          omega

theorem update_eq {f : Object → Object} (ho : s.objects[i]? = some o) :
    s.update i f = { s with
      objects := s.objects.modify i f
      strong := s.strong - (o.retains && !(f o).retains).toNat } := by
  unfold State.update
  simp only [ho]
  cases hr : o.retains && !(f o).retains with
  | true => rfl
  | false => rfl

theorem Owned.update {f : Object → Object} (h : Owned s n) (ho : s.objects[i]? = some o)
    (hf : (f o).retains = true → o.retains = true) :
    s.strong - (o.retains && !(f o).retains).toNat =
      { s with objects := s.objects.modify i f }.owners + n := by
  have hstrong := h.strong
  have hcount := countP_retains_modify ho hf
  unfold State.owners at hstrong ⊢
  show s.strong - _ = (if s.loop = .dropped then 0 else 1) +
    (s.objects.modify i f).countP Object.retains + s.upgraded + s.sent + n
  omega

theorem Owned.init : Owned {} 0 where
  wf := by
    constructor
    · intro b i hi
      cases b <;> cases hi
    · intro i o ho
      cases ho
    · intro i o ho
      cases ho
    · intro i o ho
      cases ho
    · intro i hi
      cases hi
    · intro i o ho
      cases ho
    · intro i o ho
      cases ho
  strong := rfl

theorem Owned.retain (h : Owned s n) : Owned s.retain (n + 1) where
  wf := h.wf
  strong := by
    have hstrong := h.strong
    show s.strong + 1 = s.owners + (n + 1)
    omega

theorem Owned.release (h : Owned s (n + 1)) : Owned s.release n where
  wf := h.wf
  strong := by
    have hstrong := h.strong
    show s.strong - 1 = s.owners + n
    omega

theorem retains_takeOut (h : (State.takeOut o).retains = true) : o.retains = true := by
  simp only [State.takeOut, Object.retains, Bool.or_self, Bool.false_or, Bool.and_eq_true] at h
  have hcallouts : 0 < o.callouts := of_decide_eq_true h.2
  simp [Object.retains, h.1, hcallouts]

theorem Owned.removeTimer (h : Owned s n) : Owned s.removeTimer n := by
  unfold State.removeTimer
  split
  · next i hi =>
      obtain ⟨o, ho, -⟩ := h.wf.current true i hi
      rw [update_eq ho]
      constructor
      · have hwf := h.wf.takeOut (b := true) hi
        have hcur : State.current { s with timer := none } = Function.update s.current true none := by
          funext b
          cases b <;> rfl
        rw [← hcur] at hwf
        exact hwf
      · exact h.update ho retains_takeOut
  · exact h

theorem Owned.removeSource (h : Owned s n) : Owned s.removeSource n := by
  unfold State.removeSource
  split
  · next i hi =>
      obtain ⟨o, ho, -⟩ := h.wf.current false i hi
      rw [update_eq ho]
      constructor
      · have hwf := h.wf.takeOut (b := false) hi
        have hcur : State.current { s with source := none } =
            Function.update s.current false none := by
          funext b
          cases b <;> rfl
        rw [← hcur] at hwf
        exact hwf
      · exact h.update ho retains_takeOut
  · exact h

theorem Owned.create {b : Bool} (h : Owned s n) :
    s.strong + 1 = State.owners { s with objects := s.objects ++ [{ isTimer := b }] } + n := by
  have hstrong := h.strong
  have hcount : (s.objects ++ [({ isTimer := b } : Object)]).countP Object.retains =
      s.objects.countP Object.retains + 1 := by
    rw [List.countP_append]
    rfl
  unfold State.owners at hstrong ⊢
  show s.strong + 1 = (if s.loop = .dropped then 0 else 1) +
    (s.objects ++ [({ isTimer := b } : Object)]).countP Object.retains + s.upgraded + s.sent + n
  omega

theorem Owned.createTimer (h : Owned s n) (hnone : s.timer = none) : Owned s.createTimer n where
  wf := by
    have hwf := h.wf.create (b := true) hnone
    have hcur : State.current { s with timer := some s.objects.length } =
        Function.update s.current true (some s.objects.length) := by
      funext b
      cases b <;> rfl
    rw [← hcur] at hwf
    exact hwf
  strong := h.create

theorem Owned.createSource (h : Owned s n) (hnone : s.source = none) :
    Owned s.createSource n where
  wf := by
    have hwf := h.wf.create (b := false) hnone
    have hcur : State.current { s with source := some s.objects.length } =
        Function.update s.current false (some s.objects.length) := by
      funext b
      cases b <;> rfl
    rw [← hcur] at hwf
    exact hwf
  strong := h.create

theorem Owned.signal (h : Owned s n) : Owned s.signal n := by
  unfold State.signal
  split
  · next i hi =>
      obtain ⟨o, ho, -⟩ := h.wf.current false i hi
      rw [update_eq ho]
      exact ⟨h.wf.signal ho, h.update ho id⟩
  · exact h

theorem removeTimer_timer (s : State) : s.removeTimer.timer = none := by
  unfold State.removeTimer
  split
  · rfl
  · assumption

theorem Owned.schedule (h : Owned s n) : Owned s.schedule n := by
  have hs := h.removeTimer
  show Owned (if s.removeTimer.callbacks = 0 then s.removeTimer.createTimer
    else (if s.removeTimer.source = none then s.removeTimer.createSource
      else s.removeTimer).signal) n
  split
  · exact hs.createTimer (removeTimer_timer s)
  · split
    · next hnone => exact (hs.createSource hnone).signal
    · exact hs.signal

/-! ## The steps -/

/-- The fields that `schedule` and its parts leave alone. -/
structure Same (s s' : State) : Prop where
  loop : s'.loop = s.loop
  callbacks : s'.callbacks = s.callbacks
  timers : s'.timers = s.timers
  upgraded : s'.upgraded = s.upgraded
  sent : s'.sent = s.sent
  callouts : s'.callouts = s.callouts

theorem Same.refl (s : State) : Same s s := ⟨rfl, rfl, rfl, rfl, rfl, rfl⟩

theorem Same.trans {s'' : State} (h : Same s s') (h' : Same s' s'') : Same s s'' :=
  ⟨h'.loop.trans h.loop, h'.callbacks.trans h.callbacks, h'.timers.trans h.timers,
    h'.upgraded.trans h.upgraded, h'.sent.trans h.sent, h'.callouts.trans h.callouts⟩

theorem same_update (s : State) (i : Nat) (f : Object → Object) : Same s (s.update i f) := by
  cases ho : s.objects[i]? with
  | none =>
      have heq : s.update i f = s := by
        unfold State.update
        rw [ho]
      rw [heq]
      exact Same.refl s
  | some o =>
      rw [update_eq ho]
      exact ⟨rfl, rfl, rfl, rfl, rfl, rfl⟩

theorem same_removeTimer (s : State) : Same s s.removeTimer := by
  unfold State.removeTimer
  split
  · next i _ =>
      have h := same_update s i State.takeOut
      exact ⟨h.loop, h.callbacks, h.timers, h.upgraded, h.sent, h.callouts⟩
  · exact Same.refl s

theorem same_removeSource (s : State) : Same s s.removeSource := by
  unfold State.removeSource
  split
  · next i _ =>
      have h := same_update s i State.takeOut
      exact ⟨h.loop, h.callbacks, h.timers, h.upgraded, h.sent, h.callouts⟩
  · exact Same.refl s

theorem same_signal (s : State) : Same s s.signal := by
  unfold State.signal
  split
  · exact same_update s _ _
  · exact Same.refl s

theorem same_schedule (s : State) : Same s s.schedule := by
  refine (same_removeTimer s).trans ?_
  show Same s.removeTimer (if s.removeTimer.callbacks = 0 then s.removeTimer.createTimer
    else (if s.removeTimer.source = none then s.removeTimer.createSource
      else s.removeTimer).signal)
  split
  · exact ⟨rfl, rfl, rfl, rfl, rfl, rfl⟩
  · refine Same.trans ?_ (same_signal _)
    split
    · exact ⟨rfl, rfl, rfl, rfl, rfl, rfl⟩
    · exact Same.refl _

theorem retains_enter (h : State.callable o = true) : o.retains = true := by
  simp only [State.callable, Bool.and_eq_true] at h
  simp [Object.retains, h.1.1, h.1.2]

theorem retains_leave (h : (State.leave o).retains = true) : o.retains = true := by
  unfold State.leave at h
  split at h
  · simp [Object.retains] at h
  · simp only [Object.retains, Bool.and_eq_true, Bool.or_eq_true, decide_eq_true_eq] at h ⊢
    refine ⟨h.1, ?_⟩
    obtain h | h := h.2
    · exact .inl h
    · exact .inr (by omega)

theorem Owned.step {a : Action} (h : Owned s 0) (hst : step s a = some s') : Owned s' 0 := by
  cases a with
  | schedule =>
      obtain ⟨-, hst⟩ := Option.ite_none_right_eq_some.1 hst
      cases hst
      have hs : Owned { s.retain with timers := s.timers + 1 } 1 := ⟨h.wf, h.retain.strong⟩
      exact hs.schedule.release
  | unschedule found =>
      obtain ⟨-, hst⟩ := Option.ite_none_right_eq_some.1 hst
      cases hst
      have hs : Owned { s.retain with timers := s.timers - found.toNat } 1 :=
        ⟨h.wf, h.retain.strong⟩
      exact hs.schedule.release
  | upgrade =>
      obtain ⟨-, hst⟩ := Option.ite_none_right_eq_some.1 hst
      cases hst
      refine ⟨h.wf, ?_⟩
      have hstrong := h.strong
      unfold State.owners at hstrong ⊢
      show s.strong + 1 = (if s.loop = .dropped then 0 else 1) +
        s.objects.countP Object.retains + (s.upgraded + 1) + s.sent + 0
      omega
  | push =>
      obtain ⟨hpos, hst⟩ := Option.ite_none_right_eq_some.1 hst
      cases hst
      have hs : Owned { s.retain with callbacks := s.callbacks + 1 } 1 :=
        ⟨h.wf, h.retain.strong⟩
      have hsame := same_schedule { s.retain with callbacks := s.callbacks + 1 }
      have hs := hs.schedule.release
      refine ⟨hs.wf, ?_⟩
      have hstrong := hs.strong
      have hupgraded := hsame.upgraded
      have hsent := hsame.sent
      unfold State.owners at hstrong ⊢
      simp only [State.release, State.retain] at hstrong hupgraded hsent ⊢
      omega
  | sendReturns =>
      obtain ⟨hpos, hst⟩ := Option.ite_none_right_eq_some.1 hst
      cases hst
      refine ⟨h.wf, ?_⟩
      have hstrong := h.strong
      unfold State.owners at hstrong ⊢
      show s.strong - 1 = (if s.loop = .dropped then 0 else 1) +
        s.objects.countP Object.retains + s.upgraded + (s.sent - 1) + 0
      omega
  | call i =>
      simp only [Darwin.step] at hst
      split at hst
      · next o ho =>
          obtain ⟨hcall, hst⟩ := Option.ite_none_right_eq_some.1 hst
          rw [Bool.and_eq_true] at hcall
          cases hst
          rw [update_eq ho]
          exact ⟨h.wf.enter ho hcall.2, h.update ho fun _ => retains_enter hcall.2⟩
      · cases hst
  | drain due =>
      simp only [Darwin.step] at hst
      split at hst
      · next i rest hcallouts =>
          obtain ⟨-, hst⟩ := Option.ite_none_right_eq_some.1 hst
          cases hst
          have hwf := h.wf
          rw [hcallouts] at hwf
          exact ⟨hwf, h.strong⟩
      · cases hst
  | pollEnds =>
      simp only [Darwin.step] at hst
      split at hst
      · next i rest hcallouts =>
          split at hst
          · cases hst
          · split at hst
            · cases hst
              have hwf := h.wf
              rw [hcallouts] at hwf
              exact ⟨hwf, h.strong⟩
            · cases hst
              have hs := h.retain.schedule.release
              have hwf := hs.wf
              have hsame : s.retain.schedule.release.callouts = (i, .drained) :: rest :=
                (same_schedule s.retain).callouts.trans hcallouts
              rw [hsame] at hwf
              exact ⟨hwf, hs.strong⟩
      · cases hst
  | calloutReturns =>
      simp only [Darwin.step] at hst
      split at hst
      · next i rest hcallouts =>
          split at hst
          · cases hst
          · cases hst
            have hwf := h.wf
            rw [hcallouts] at hwf
            obtain ⟨o, ho⟩ := hwf.exists_of_mem i List.mem_cons_self
            rw [update_eq ho]
            exact ⟨hwf.leave, h.update ho retains_leave⟩
      · cases hst
  | dropSource =>
      obtain ⟨⟨halive, -⟩, hst⟩ := Option.ite_none_right_eq_some.1 hst
      cases hst
      have hs := h.removeSource
      refine ⟨hs.wf, ?_⟩
      have hstrong := hs.strong
      have hloop := (same_removeSource s).loop
      unfold State.owners at hstrong ⊢
      rw [hloop, halive] at hstrong
      exact hstrong
  | dropTimer =>
      obtain ⟨hdropping, hst⟩ := Option.ite_none_right_eq_some.1 hst
      cases hst
      have hs := h.removeTimer
      refine ⟨hs.wf, ?_⟩
      have hstrong := hs.strong
      have hloop := (same_removeTimer s).loop
      unfold State.owners at hstrong ⊢
      rw [hloop, hdropping] at hstrong
      simp only [reduceCtorEq, reduceIte, State.release] at hstrong ⊢
      omega

theorem owned_of_reachable (h : darwinState.Reachable s) : Owned s 0 := by
  refine System.Reachable.invariant (I := fun s => Owned s 0) Owned.init ?_ h
  intro s a s' _ hi hst
  exact Owned.step hi hst

end Wxp.RunLoop.Darwin
