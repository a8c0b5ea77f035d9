import Wxp.RunLoop.Delays

/-!
# RunLoop — Passes

How long a dispatch pass keeps the run loop thread. Darwin moves the timers that are due into a
batch before it runs the first of them. `process_timers` of Win32 and Android reads the timers
that are due, runs them, and reads again until none is due: a callback that schedules another
timer without delay is followed by that one in the same pass.

A `Pass` is the history of a dispatch pass on the stack: the timers that were pending and due
when it read them first, those it has run, and how often it has gone on.

Result: `timer_pass_terminates`.
-/

namespace Wxp.RunLoop

variable {κ τ : Type}

structure Pass where
  /-- How many sent callbacks it has taken. -/
  callbacks : Nat := 0
  /-- The timers that were due when it began, once it has read the clock. -/
  due : Option (List HandleType) := none
  ran : List HandleType := []
  turns : Nat := 0
  deriving DecidableEq, Repr

structure Watched (κ τ : Type) where
  loop : Loop κ (ScheduleCall τ) := {}
  /-- The dispatch passes on the stack, innermost first. -/
  passes : List Pass := []

/-- The pass goes on. -/
def Pass.turn (l l' : Loop κ (ScheduleCall τ)) (p : Pass) : Pass where
  callbacks := p.callbacks
  due := p.due.or (some (l.state.dueTimers l.now))
  ran := p.ran ++ (l'.fired.drop l.fired.length).map (·.handle)
  turns := p.turns + 1

/-- What becomes of the passes when `a` leads from `l` to `l'`. -/
def Act.notes (l l' : Loop κ (ScheduleCall τ)) (passes : List Pass) :
    Act κ (ScheduleCall τ) → List Pass
  | .dispatchCallbacks _ =>
      { callbacks := l.state.callbacks.length, due := some (l.state.dueTimers l.now) } :: passes
  | .dispatchTimers => {} :: passes
  | .next _ =>
      if l'.stack.length < l.stack.length then passes.tail
      else passes.modifyHead (Pass.turn l l')
  | _ => passes

section

variable [DecidableEq κ]

def Watched.step (b : Backend) (w : Watched κ τ) (a : Act κ (ScheduleCall τ)) :
    Option (Watched κ τ) :=
  (w.loop.recordedStep b a).map fun l => { loop := l, passes := a.notes w.loop l w.passes }

/-- A run loop and its dispatch passes. -/
def watchedSystem (κ τ : Type) [DecidableEq κ] (b : Backend) :
    System (Watched κ τ) (Act κ (ScheduleCall τ)) where
  init := {}
  step := Watched.step b

end

/-- The step reads the due timers, in a pass that has read them before. -/
def Watched.rereads (w : Watched κ τ) : Act κ (ScheduleCall τ) → Bool
  | .next _ =>
      match w.loop.stack, w.passes with
      | .timers [] :: _, p :: _ => p.due.isSome
      | _, _ => false
  | _ => false

/-- Where a pass reads the due timers again, none is due. -/
def Watched.NothingNewDue (w : Watched κ τ) (a : Act κ (ScheduleCall τ)) : Prop :=
  w.rereads a = true → w.loop.state.dueTimers w.loop.now = []

instance (w : Watched κ τ) (a : Act κ (ScheduleCall τ)) : Decidable (w.NothingNewDue a) :=
  inferInstanceAs (Decidable (_ → _))

/-- The pass has run only timers that were pending and due when it began, each once, and has
gone on at most once for each of them and for each callback it took, and once to read them. -/
structure Pass.Bounded (p : Pass) : Prop where
  due : ∀ h ∈ p.ran, ∃ due, p.due = some due ∧ h ∈ due
  once : p.ran.Nodup
  turns : p.turns ≤ p.callbacks + (p.due.getD []).length + 1

/-! ## Handles that are used up -/

/-- The handle was given out, and no timer of it is in the map any more. -/
structure Spent (l : Loop κ τ) (h : HandleType) : Prop where
  old : h < l.state.nextHandle
  gone : ∀ v ∈ l.state.timers, v.1 ≠ h

theorem Spent.step [DecidableEq κ] {b : Backend} {l l' : Loop κ τ} {a : Act κ τ} {h : HandleType}
    (hs : Spent l h) (hst : Loop.Step b l a l') : Spent l' h := by
  refine ⟨Nat.lt_of_lt_of_le hs.old hst.nextHandle_le, fun v hv => ?_⟩
  rcases hst.timers_subset hv with hv | hv
  · exact hs.gone v hv
  · rw [hv]
    exact Nat.ne_of_gt hs.old

theorem spent_removeTimer {l : Loop κ τ} {h : HandleType} (hh : h < l.state.nextHandle)
    {l' : Loop κ τ} (hl' : l'.state = l.state.removeTimer h) : Spent l' h := by
  refine ⟨by rw [hl']; exact hh, fun v hv => ?_⟩
  rw [hl'] at hv
  simpa using (List.mem_filter.1 hv).2

theorem spent_of_lookup {l : Loop κ τ} {h : HandleType} (hh : h < l.state.nextHandle)
    (hl : l.state.timers.lookup h = none) : Spent l h := by
  refine ⟨hh, ?_⟩
  rintro ⟨_, t⟩ hv rfl
  rw [List.lookup_eq_none_iff] at hl
  simpa using hl _ hv

/-! ## The passes on the stack -/

def Frame.isPass : Frame κ τ → Bool
  | .batch _ _ | .timers _ => true
  | _ => false

/-- Each pass on the stack with its history. -/
inductive Covers (l : Loop κ (ScheduleCall τ)) :
    List (Frame κ (ScheduleCall τ)) → List Pass → Prop
  | nil : Covers l [] []
  | other {f : Frame κ (ScheduleCall τ)} {stack : List (Frame κ (ScheduleCall τ))}
      {ps : List Pass} : f.isPass = false → Covers l stack ps → Covers l (f :: stack) ps
  | batch {cs : List κ} {ts : List (Timer (ScheduleCall τ))} {p : Pass} {due : List HandleType}
      {stack : List (Frame κ (ScheduleCall τ))} {ps : List Pass} : p.due = some due →
      (∀ t ∈ ts, t.callback.handle ∈ due) → (∀ h ∈ p.ran, h ∈ due) →
      (p.ran ++ ts.map (·.callback.handle)).Nodup →
      p.turns + cs.length + ts.length ≤ p.callbacks + due.length →
      Covers l stack ps → Covers l (.batch cs ts :: stack) (p :: ps)
  | unread {p : Pass} {stack : List (Frame κ (ScheduleCall τ))} {ps : List Pass} :
      p.due = none → p.ran = [] → p.turns = 0 →
      Covers l stack ps → Covers l (.timers [] :: stack) (p :: ps)
  | read {hs : List HandleType} {p : Pass} {due : List HandleType}
      {stack : List (Frame κ (ScheduleCall τ))} {ps : List Pass} : p.due = some due →
      (∀ h ∈ hs, h ∈ due ∧ h < l.state.nextHandle) → (∀ h ∈ p.ran, h ∈ due) →
      (p.ran ++ hs).Nodup → (∀ h ∈ due, h ∈ hs ∨ Spent l h) →
      p.turns + hs.length ≤ due.length + 1 →
      Covers l stack ps → Covers l (.timers hs :: stack) (p :: ps)

variable {l l' : Loop κ (ScheduleCall τ)} {stack : List (Frame κ (ScheduleCall τ))}
  {ps : List Pass}

theorem Covers.mono (h : Covers l stack ps) (hnext : l.state.nextHandle ≤ l'.state.nextHandle)
    (hspent : ∀ k, Spent l k → Spent l' k) : Covers l' stack ps := by
  induction h with
  | nil => exact .nil
  | other hf _ ih => exact .other hf ih
  | batch hd hts hran hn ht _ ih => exact .batch hd hts hran hn ht ih
  | unread hd hran ht _ ih => exact .unread hd hran ht ih
  | read hd hhs hran hn hsp ht _ ih =>
      exact .read hd (fun k hk => ⟨(hhs k hk).1, Nat.lt_of_lt_of_le (hhs k hk).2 hnext⟩) hran hn
        (fun k hk => (hsp k hk).imp_right (hspent k)) ht ih

theorem Covers.bounded (h : Covers l stack ps) : ∀ p ∈ ps, p.Bounded := by
  induction h with
  | nil => simp
  | other _ _ ih => exact ih
  | batch hd _ hran hn ht _ ih =>
      refine List.forall_mem_cons.2 ⟨⟨fun k hk => ⟨_, hd, hran k hk⟩, hn.of_append_left, ?_⟩, ih⟩
      simp only [hd, Option.getD_some]
      omega
  | unread hd hran ht _ ih =>
      refine List.forall_mem_cons.2 ⟨⟨by simp [hran], by simp [hran], by omega⟩, ih⟩
  | read hd _ hran hn _ ht _ ih =>
      refine List.forall_mem_cons.2 ⟨⟨fun k hk => ⟨_, hd, hran k hk⟩, hn.of_append_left, ?_⟩, ih⟩
      simp only [hd, Option.getD_some]
      omega

/-- A pass that goes on without running a timer. -/
theorem Pass.turn_quiet {p : Pass} {due : List HandleType} (hd : p.due = some due)
    (hf : l'.fired = l.fired) : p.turn l l' = { p with turns := p.turns + 1 } := by
  simp [Pass.turn, hd, hf]

/-- A pass that runs a timer. -/
theorem Pass.turn_fire {p : Pass} {due : List HandleType} {t : ScheduleCall τ}
    (hd : p.due = some due) (hf : l'.fired = l.fired ++ [t]) :
    p.turn l l' = { p with ran := p.ran ++ [t.handle], turns := p.turns + 1 } := by
  simp [Pass.turn, hd, hf]

theorem Act.notes_next {order : List HandleType} {p : Pass} (h : l.stack.length ≤ l'.stack.length) :
    (Act.next order : Act κ (ScheduleCall τ)).notes l l' (p :: ps) = p.turn l l' :: ps := by
  simp [Act.notes, Nat.not_lt.2 h]

theorem Act.notes_return {order : List HandleType} {p : Pass}
    (h : l'.stack.length < l.stack.length) :
    (Act.next order : Act κ (ScheduleCall τ)).notes l l' (p :: ps) = ps := by
  simp [Act.notes, h]

variable {b : Backend}

/-- The next timer of a batch. -/
theorem Covers.nextTimer {t : Timer (ScheduleCall τ)} {ts : List (Timer (ScheduleCall τ))}
    {p : Pass} {due : List HandleType} (hd : p.due = some due)
    (hts : ∀ u ∈ t :: ts, u.callback.handle ∈ due) (hran : ∀ h ∈ p.ran, h ∈ due)
    (hn : (p.ran ++ (t :: ts).map (·.callback.handle)).Nodup)
    (ht : p.turns + (t :: ts).length ≤ p.callbacks + due.length) (hc : Covers l' stack ps)
    (hf : l'.fired = l.fired ++ [t.callback]) :
    Covers l' (.timer t.callback :: .batch [] ts :: stack) (p.turn l l' :: ps) := by
  rw [Pass.turn_fire hd hf]
  refine .other rfl (.batch hd (fun u hu => hts u (List.mem_cons_of_mem _ hu)) ?_
    (by simpa using hn)
    (by simp only [List.length_cons, List.length_nil] at ht ⊢; omega) hc)
  intro k hk
  rcases List.mem_append.1 hk with hk | hk
  · exact hran k hk
  · rw [List.mem_singleton.1 hk]
    exact hts t List.mem_cons_self

/-- A handle of the pass is used up. -/
theorem spent_tail {h : HandleType} {hs due : List HandleType}
    (hsp : ∀ k ∈ due, k ∈ h :: hs ∨ Spent l k) (hh : Spent l' h)
    (hkeep : ∀ k, Spent l k → Spent l' k) : ∀ k ∈ due, k ∈ hs ∨ Spent l' k := by
  intro k hk
  rcases hsp k hk with hm | hm
  · rcases List.mem_cons.1 hm with rfl | hm
    · exact .inr hh
    · exact .inl hm
  · exact .inr (hkeep k hm)

/-- The pass reads the timers for the first time. -/
theorem Covers.firstRead {order : List HandleType} {p : Pass} (hr : l.Recorded b)
    (ho : order.Perm (l.state.dueTimers l.now)) (hd : p.due = none) (hran : p.ran = [])
    (ht : p.turns = 0) (hf : l'.fired = l.fired)
    (hnext : l.state.nextHandle ≤ l'.state.nextHandle) (hc : Covers l' stack ps) :
    Covers l' (.timers order :: stack) (p.turn l l' :: ps) := by
  have hturn : p.turn l l' =
      { p with due := some (l.state.dueTimers l.now), turns := 1 } := by
    simp [Pass.turn, hd, hran, ht, hf]
  rw [hturn]
  refine .read rfl (fun k hk => ⟨ho.mem_iff.1 hk, ?_⟩) (by simp [hran]) ?_
    (fun k hk => .inl (ho.mem_iff.2 hk)) (by simp [ho.length_eq]; omega) hc
  · exact Nat.lt_of_lt_of_le (hr.read ho hk).1 hnext
  · simp only [hran, List.nil_append]
    exact ho.nodup_iff.2 ((List.filter_sublist.map _).nodup hr.nodup)

/-- A batch of Darwin holds the timers of the handles it was asked for. -/
theorem Loop.Recorded.map_drained (hr : l.Recorded b) {order : List HandleType}
    (ho : order.Perm (l.state.dueTimers l.now)) :
    (l.state.getPendingExecution order).1.2.map (·.callback.handle) = order := by
  have hall : ∀ k ∈ order, ∃ t, l.state.timers.lookup k = some t ∧ t.callback.handle = k := by
    intro k hk
    obtain ⟨t, ht, -⟩ := State.mem_dueTimers.1 (ho.mem_iff.1 hk)
    cases hl : l.state.timers.lookup k with
    | none =>
        rw [List.lookup_eq_none_iff] at hl
        exact absurd (hl _ ht) (by simp)
    | some u => exact ⟨u, rfl, hr.named _ (mem_of_lookup hl)⟩
  clear ho
  simp only [State.getPendingExecution]
  induction order with
  | nil => rfl
  | cons k order ih =>
      obtain ⟨t, ht, hk⟩ := hall k List.mem_cons_self
      simp only [List.filterMap_cons, ht, List.map_cons, hk]
      rw [ih fun k hk => hall k (List.mem_cons_of_mem _ hk)]

theorem Covers.step [DecidableEq κ] {w w' : Watched κ τ} {a : Act κ (ScheduleCall τ)}
    (hc : Covers w.loop w.loop.stack w.passes) (hr : w.loop.Recorded b)
    (hok : w.NothingNewDue a) (h : w.step b a = some w') :
    Covers w'.loop w'.loop.stack w'.passes := by
  obtain ⟨l', hl, rfl⟩ := Option.map_eq_some_iff.1 h
  obtain ⟨l, passes⟩ := w
  simp only [Loop.recordedStep, Option.ite_none_right_eq_some] at hl
  obtain ⟨-, hl⟩ := hl
  have hst := Loop.step_cases hl
  have hspent : ∀ k, Spent l k → Spent l' k := fun k hk => hk.step hst
  have hkeep : Covers l' l.stack passes := hc.mono hst.nextHandle_le hspent
  cases hst with
  | tick | send | wake | wakeCoalesced | schedule | unschedule => exact hkeep
  | drain order hb _ ho =>
      have ho := List.isPerm_iff.1 ho
      have hmap := hr.map_drained ho
      have hlen : (l.state.getPendingExecution order).1.2.length = order.length := by
        rw [← hmap, List.length_map, hmap]
      refine .batch rfl (fun t ht => ?_) (by simp) ?_ ?_ hkeep
      · rw [← ho.mem_iff, ← hmap]
        exact List.mem_map_of_mem ht
      · simp only [List.nil_append, hmap]
        exact ho.nodup_iff.2 ((List.filter_sublist.map _).nodup hr.nodup)
      · simp only [hlen, ho.length_eq]
        omega
  | processCallbacks =>
      exact .batch rfl (by simp) (by simp) (by simp) (by simp) hkeep
  | dispatchTimers => exact .unread rfl rfl rfl hkeep
  | source | timeout | enterBlockOn | enterNative => exact .other rfl hkeep
  | nextCallback order c cs ts rest hs =>
      rw [hs] at hkeep
      cases hkeep with
      | other hf _ => cases hf
      | batch hd hts hran hn ht hrest =>
          rw [Act.notes_next (by simp [hs, Loop.start]), Pass.turn_quiet hd]
          · exact .other rfl (.batch hd hts hran hn
              (by simp only [List.length_cons] at ht ⊢; omega) hrest)
          · rfl
  | nextTimer order t ts rest hs =>
      rw [hs] at hkeep
      cases hkeep with
      | other hf _ => cases hf
      | batch hd hts hran hn ht hrest =>
          rw [Act.notes_next (by simp [hs, Loop.fire])]
          exact hrest.nextTimer hd hts hran hn (by simpa using ht) rfl
  | nextHandle order k ks t rest hs hlook =>
      rw [hs] at hc hkeep
      cases hkeep with
      | other hf _ => cases hf
      | read hd hhs hran hn _ ht hrest =>
          cases hc with
          | other hf _ => cases hf
          | read hd' hhs' _ _ hsp _ _ =>
              obtain rfl : _ = _ := Option.some.inj (hd.symm.trans hd')
              rw [Act.notes_next (by simp [hs, Loop.fire])]
              have hhandle : t.callback.handle = k := hr.named _ (mem_of_lookup hlook)
              rw [Pass.turn_fire hd rfl, hhandle]
              refine .other rfl (.read hd (fun j hj => hhs j (List.mem_cons_of_mem _ hj)) ?_
                (by simpa using hn) ?_ (by simp only [List.length_cons] at ht ⊢; omega) hrest)
              · intro j hj
                rcases List.mem_append.1 hj with hj | hj
                · exact hran j hj
                · rw [List.mem_singleton.1 hj]
                  exact (hhs k List.mem_cons_self).1
              · exact spent_tail hsp (spent_removeTimer (hhs' k List.mem_cons_self).2 rfl) hspent
  | batchDone order rest hs =>
      rw [hs] at hkeep
      cases hkeep with
      | other hf _ => cases hf
      | batch _ _ _ _ _ hrest =>
          rw [Act.notes_return (by simp [hs])]
          exact hrest
  | timersDone order rest hs =>
      rw [hs] at hkeep
      cases hkeep with
      | other hf _ => cases hf
      | unread _ _ _ hrest | read _ _ _ _ _ _ hrest =>
          rw [Act.notes_return (by simp [hs])]
          exact hrest
  | timersRead order rest hs =>
      have ho := Loop.due_of_read hs hl
      rw [hs] at hkeep
      cases hkeep with
      | other hf _ => cases hf
      | unread hd hran ht hrest =>
          rw [Act.notes_next (by simp [hs])]
          exact hrest.firstRead hr ho hd hran ht rfl (Nat.le_refl _)
      | @read _ p due _ ps hd _ _ _ _ _ hrest =>
          -- a second read finds nothing, and the pass returns
          have hnone := hok (by simp [Watched.rereads, hs, hd])
          obtain rfl : order = [] := by simpa [hnone] using ho
          simp [Loop.step, Loop.next, hs, List.isPerm_iff.2 ho] at hl
  | handleGone order k ks rest hs =>
      rw [hs] at hc hkeep
      have hlook : l.state.timers.lookup k = none := by
        cases hlook : l.state.timers.lookup k with
        | none => rfl
        | some t =>
            simp only [Loop.step, Loop.next, hs, hlook, Option.some.injEq] at hl
            exact absurd (congrArg Loop.stack hl) (by simp [Loop.fire])
      cases hkeep with
      | other hf _ => cases hf
      | read hd hhs hran hn hsp ht hrest =>
          rw [Act.notes_next (by simp [hs]), Pass.turn_quiet hd]
          · refine .read hd (fun j hj => hhs j (List.mem_cons_of_mem _ hj)) hran
              (hn.sublist (by simp)) ?_ (by simp only [List.length_cons] at ht ⊢; omega) hrest
            exact spent_tail hsp (spent_of_lookup (hhs k List.mem_cons_self).2 hlook) fun _ h => h
          · rfl
  | finishCallback _ _ hs | finishTimer _ _ hs | pollReady _ hs | exitNative _ hs =>
      rw [hs] at hkeep
      cases hkeep with
      | other _ hrest => exact hrest
  | takeQueued _ hs | pollPending _ hs | pollOnceReturns _ hs =>
      rw [hs] at hkeep
      cases hkeep with
      | other _ hrest => exact .other rfl hrest

section Runs

variable [DecidableEq κ] {w w' : Watched κ τ} {a : Act κ (ScheduleCall τ)}

theorem recorded_of_step (hi : w.loop.Recorded b) (h : w.step b a = some w') :
    w'.loop.Recorded b := by
  obtain ⟨l', hl, rfl⟩ := Option.map_eq_some_iff.1 h
  exact hi.step hl

theorem covers_of_reachVia (h : (watchedSystem κ τ b).ReachVia Watched.NothingNewDue w) :
    w.loop.Recorded b ∧ Covers w.loop w.loop.stack w.passes :=
  h.invariant (I := fun w : Watched κ τ => w.loop.Recorded b ∧
    Covers w.loop w.loop.stack w.passes) ⟨.init, .nil⟩
    fun _ _ _ _ hi hok hst => ⟨recorded_of_step hi.1 hst, hi.2.step hi.1 hok hst⟩

/-- On Darwin no pass reads the timers again. -/
theorem noTimers_of_reachable (h : (watchedSystem κ τ .darwin).Reachable w)
    (hs : List HandleType) : .timers hs ∉ w.loop.stack := by
  refine h.invariant (I := fun w : Watched κ τ => ∀ hs, .timers hs ∉ w.loop.stack)
    (by simp [watchedSystem]) ?_ hs
  rintro ⟨l, ps⟩ a w' - hi hst
  obtain ⟨l', hl, rfl⟩ := Option.map_eq_some_iff.1 hst
  simp only [Loop.recordedStep, Option.ite_none_right_eq_some] at hl
  obtain ⟨-, hl⟩ := hl
  have hhead : ∀ {hs rest}, l.stack ≠ .timers hs :: rest := fun {hs rest} he =>
    hi hs (by simp [he])
  cases Loop.step_cases hl with
  | dispatchTimers => simp [Loop.step, Loop.dispatchTimers] at hl
  | timersRead _ _ hs | nextHandle _ _ _ _ _ hs _ | handleGone _ _ _ _ hs | timersDone _ _ hs =>
      exact absurd hs hhead
  | nextCallback _ _ _ _ _ hs | nextTimer _ _ _ _ hs | batchDone _ _ hs
  | finishCallback _ _ hs | finishTimer _ _ hs | takeQueued _ hs | pollReady _ hs
  | pollPending _ hs | pollOnceReturns _ hs | exitNative _ hs =>
      intro ks
      have hks := hi ks
      simp only [hs, List.mem_cons, reduceCtorEq, false_or] at hks
      simpa [Loop.start, Loop.fire] using hks
  | _ =>
      intro ks
      simpa [Loop.push, Loop.start, Loop.fire] using hi ks

omit [DecidableEq κ] in
/-- The step reads the due timers again. -/
theorem rereads_iff : w.rereads a = true ↔ ∃ order rest p ps, a = .next order ∧
    w.loop.stack = .timers [] :: rest ∧ w.passes = p :: ps ∧ p.due.isSome = true := by
  constructor
  · intro h
    unfold Watched.rereads at h
    split at h
    · split at h
      · rename_i order _ _ rest p ps hs hps
        exact ⟨order, rest, p, ps, rfl, hs, hps, h⟩
      · cases h
    · cases h
  · rintro ⟨order, rest, p, ps, rfl, hs, hps, hd⟩
    simpa [Watched.rereads, hs, hps] using hd

theorem reachVia_darwin (h : (watchedSystem κ τ .darwin).Reachable w) :
    (watchedSystem κ τ .darwin).ReachVia Watched.NothingNewDue w := by
  induction h with
  | init => exact .init
  | @step w w' a hr _ hst ih =>
      refine .step ih (fun hreads => ?_) hst
      obtain ⟨_, _, _, _, -, hs, -⟩ := rereads_iff.1 hreads
      exact absurd (by simp [hs]) (noTimers_of_reachable hr [])

/-- A pass that finds timers when it reads again runs one that was not due when it began. -/
theorem runs_new_timer (hr : w.loop.Recorded b) (hc : Covers w.loop w.loop.stack w.passes)
    (h : w.step b a = some w') (hnew : ¬ w.NothingNewDue a) :
    ∃ w₂, w'.step b (.next []) = some w₂ ∧ ∃ p ∈ w₂.passes, ¬ p.Bounded := by
  obtain ⟨hreads, hdue⟩ := Classical.not_imp.1 hnew
  obtain ⟨order, rest, p, ps, rfl, hs, hps, hd⟩ := rereads_iff.1 hreads
  obtain ⟨due, hd⟩ := Option.isSome_iff_exists.1 hd
  obtain ⟨l', hl, rfl⟩ := Option.map_eq_some_iff.1 h
  obtain ⟨l, passes⟩ := w
  dsimp only at hr hc hs hps hdue hl
  subst hps
  simp only [Loop.recordedStep, Act.recorded, if_true, Loop.step] at hl
  have ho := Loop.due_of_read hs hl
  obtain ⟨k, ks, rfl⟩ : ∃ k ks, order = k :: ks := by
    cases order with
    | nil => exact absurd (List.nil_perm.1 ho) hdue
    | cons k ks => exact ⟨k, ks, rfl⟩
  simp only [Loop.next, hs, List.isPerm_iff.2 ho, if_true, List.isEmpty_cons, Bool.false_eq_true,
    if_false, Option.some.injEq] at hl
  subst hl
  obtain ⟨t, ht, -⟩ := State.mem_dueTimers.1 (ho.mem_iff.1 List.mem_cons_self)
  obtain ⟨u, hu⟩ : ∃ u, l.state.timers.lookup k = some u := by
    cases hu : l.state.timers.lookup k with
    | none => exact absurd (spent_of_lookup (hr.fresh _ ht) hu).gone (by simpa using ⟨t, ht⟩)
    | some u => exact ⟨u, rfl⟩
  have hk : k ∉ due := by
    intro hk
    rw [hs] at hc
    cases hc with
    | other hf _ => cases hf
    | unread hd' => simp [hd] at hd'
    | read hd' _ _ _ hsp _ _ =>
        obtain rfl : _ = _ := Option.some.inj (hd.symm.trans hd')
        rcases hsp k hk with hk | hk
        · cases hk
        · exact hk.gone _ ht rfl
  let read : Loop κ (ScheduleCall τ) := { l with stack := .timers (k :: ks) :: rest }
  let runs : Loop κ (ScheduleCall τ) :=
    Loop.fire { read with state := l.state.removeTimer k } u (.timers ks :: rest)
  have hturn : p.turn l read = { p with turns := p.turns + 1 } := Pass.turn_quiet hd rfl
  have hfire : ({ p with turns := p.turns + 1 } : Pass).turn read runs =
      { p with ran := p.ran ++ [u.callback.handle], turns := p.turns + 2 } :=
    Pass.turn_fire (p := { p with turns := p.turns + 1 }) hd rfl
  have hnotes : (Act.next (k :: ks) : Act κ (ScheduleCall τ)).notes l read (p :: ps) =
      p.turn l read :: ps := Act.notes_next (by simp [read, hs])
  refine ⟨⟨runs, (p.turn l read).turn read runs :: ps⟩, ?_, _, List.mem_cons_self, ?_⟩
  · have hnext : read.recordedStep b (.next []) = some runs := by
      simp [Loop.recordedStep, Act.recorded, Loop.step, Loop.next, read, runs, hu]
    have hnotes' : (Act.next [] : Act κ (ScheduleCall τ)).notes read runs (p.turn l read :: ps) =
        (p.turn l read).turn read runs :: ps := Act.notes_next (by simp [read, runs, Loop.fire])
    rw [← hnotes', ← hnotes]
    exact congrArg (Option.map _) hnext
  · intro hbound
    rw [hturn, hfire] at hbound
    obtain ⟨due', hd', hmem⟩ := hbound.due u.callback.handle (by simp)
    obtain rfl : due = due' := Option.some.inj (hd.symm.trans hd')
    rw [hr.named _ (mem_of_lookup hu)] at hmem
    exact hk hmem

/-- A pass that has come to the top of the stack can go on. -/
theorem pass_goes_on (b : Backend) (w : Watched κ τ) {f : Frame κ (ScheduleCall τ)}
    (h : w.loop.stack.head? = some f) (hf : f.isPass = true) :
    ∃ order, (w.step b (.next order)).isSome = true := by
  obtain ⟨rest, hs⟩ := List.head?_eq_some_iff.1 h
  have hperm := List.isPerm_iff.2 (List.Perm.refl (w.loop.state.dueTimers w.loop.now))
  refine ⟨w.loop.state.dueTimers w.loop.now, ?_⟩
  simp only [Watched.step, Loop.recordedStep, Act.recorded, if_true, Loop.step, Option.isSome_map]
  cases f with
  | batch cs ts =>
      cases cs with
      | cons c cs => simp [Loop.next, hs]
      | nil => cases ts <;> simp [Loop.next, hs]
  | timers hs' =>
      cases hs' with
      | nil => simp [Loop.next, hs, hperm]
      | cons k ks =>
          simp only [Loop.next, hs]
          cases w.loop.state.timers.lookup k <;> rfl
  | callback | timer | blockOn | native => cases hf

/-- **A dispatch pass runs only timers that were pending and due when it began, each once, and
returns after finitely many callbacks**, on Darwin in every run, elsewhere in every run whose
passes find nothing due when they read the timers again. A pass that finds something then runs
a timer that was not due when it began. -/
theorem timer_pass_terminates (κ τ : Type) [DecidableEq κ] (b : Backend) :
    (∀ w : Watched κ τ, (watchedSystem κ τ b).ReachVia Watched.NothingNewDue w →
      ∀ p ∈ w.passes, p.Bounded) ∧
    (b = .darwin → ∀ w : Watched κ τ, (watchedSystem κ τ b).Reachable w →
      ∀ p ∈ w.passes, p.Bounded) ∧
    (∀ (w : Watched κ τ) (f : Frame κ (ScheduleCall τ)), w.loop.stack.head? = some f →
      f.isPass = true → ∃ order, (w.step b (.next order)).isSome = true) ∧
    (∀ (w w' : Watched κ τ) (a : Act κ (ScheduleCall τ)),
      (watchedSystem κ τ b).ReachVia Watched.NothingNewDue w → w.step b a = some w' →
      ¬ w.NothingNewDue a →
      ∃ w₂, w'.step b (.next []) = some w₂ ∧ ∃ p ∈ w₂.passes, ¬ p.Bounded) := by
  refine ⟨fun w h => (covers_of_reachVia h).2.bounded, ?_, fun w f => pass_goes_on b w, ?_⟩
  · rintro rfl w h
    exact (covers_of_reachVia (reachVia_darwin h)).2.bounded
  · intro w w' a h hst hnew
    obtain ⟨hr, hc⟩ := covers_of_reachVia h
    exact runs_new_timer hr hc hst hnew

end Runs

/-- On Android a pass runs two timers, the first of which schedules a third for later. -/
def twoTimersRun : List (Act Nat (ScheduleCall Unit)) :=
  [.schedule 10 ⟨1, 0, 10, ()⟩, .schedule 20 ⟨2, 0, 20, ()⟩, .tick 30, .dispatchTimers,
    .next [2, 1], .next [], .schedule 5 ⟨3, 30, 5, ()⟩, .finish, .next [], .finish]

theorem timer_pass_terminates_two : ∃ w : Watched Nat Unit,
    w.passes = [{ due := some [1, 2], ran := [2, 1], turns := 3 }] ∧ ∀ p ∈ w.passes, p.Bounded := by
  have hrun : ((watchedSystem Nat Unit .android).runVia Watched.NothingNewDue {} twoTimersRun).map
      (fun w => w.passes == [{ due := some [1, 2], ran := [2, 1], turns := 3 }]) = some true := by
    decide
  obtain ⟨w, hw, hp⟩ := System.exists_reachVia _ _ hrun
  exact ⟨w, beq_iff_eq.1 hp, (timer_pass_terminates Nat Unit .android).1 w hw⟩

/-- The timer `k` of a pass is due, and runs; its callback schedules itself again without delay. -/
def againRun (k : HandleType) : List (Act Nat (ScheduleCall Unit)) :=
  [.next [k], .next [], .schedule 0 ⟨k + 1, 0, 0, ()⟩, .finish]

/-- A pass that has just run a timer, with a new one that is due. -/
structure Busy (k : HandleType) (w : Watched Nat Unit) : Prop where
  stack : w.loop.stack = [.timers []]
  timers : ∃ t, w.loop.state.timers = [(k, t)] ∧ t.scheduled ≤ w.loop.now
  nextHandle : w.loop.state.nextHandle = k + 1
  now : w.loop.now = 0
  passes : ∃ p, w.passes = [p] ∧ k ≤ p.ran.length + 1

theorem Busy.again {k : HandleType} {w : Watched Nat Unit} (h : Busy k w) :
    ∃ w', (watchedSystem Nat Unit .android).run w (againRun k) = some w' ∧ Busy (k + 1) w' := by
  obtain ⟨⟨⟨callbacks, timers, nextHandle⟩, stack, now, _, _, _, _, _, fired⟩, passes⟩ := w
  obtain ⟨rfl, ⟨t, rfl, ht⟩, rfl, rfl, p, rfl, hp⟩ := h
  have hdue : State.dueTimers (⟨callbacks, [(k, t)], k + 1⟩ : State Nat _) 0 = [k] := by
    have ht : t.scheduled = 0 := Nat.le_zero.1 ht
    simp [State.dueTimers, ht]
  refine ⟨_, by simp [againRun, System.run_cons, watchedSystem, Watched.step, Loop.recordedStep,
    Act.recorded, Loop.step, Loop.next, hdue, List.isPerm, Loop.fire,
    State.removeTimer, Loop.schedule, userCode, State.schedule, Loop.finish, Act.notes]; rfl, ?_⟩
  exact ⟨rfl, ⟨_, rfl, by simp [Backend.deadline]⟩, rfl, rfl, _, rfl, by simp [Pass.turn]; omega⟩

/-- A dispatch pass that runs a timer without delay does not return while the callback schedules
the timer again: no number of callbacks bounds it. -/
theorem busy_reachable (n : Nat) : ∃ w, (watchedSystem Nat Unit .android).Reachable w ∧
    Busy (n + 1) w := by
  induction n with
  | zero =>
      have hrun : (watchedSystem Nat Unit .android).run {}
          [.schedule 0 ⟨1, 0, 0, ()⟩, .dispatchTimers] = some _ := rfl
      exact ⟨_, System.reachVia_runVia .init hrun, rfl, ⟨_, rfl, Nat.le_refl 0⟩, rfl, rfl, _, rfl,
        Nat.le_refl 1⟩
  | succ n ih =>
      obtain ⟨w, hw, hb⟩ := ih
      obtain ⟨w', hrun, hb'⟩ := hb.again
      exact ⟨w', System.reachVia_runVia hw hrun, hb'⟩

/-- The callback of a timer without delay schedules the timer again, on Win32 and on Android: a
pass runs timer 2, which was not pending when it began, and passes run any number of timers. -/
theorem timer_pass_goes_on :
    ((watchedSystem Nat Unit .android).run {} ([.schedule 0 ⟨1, 0, 0, ()⟩, .dispatchTimers] ++
      againRun 1 ++ againRun 2)).map (·.passes) =
        some [{ due := some [1], ran := [1, 2], turns := 4 }] ∧
    ((watchedSystem Nat Unit .win32).run {} ([.schedule 0 ⟨1, 0, 0, ()⟩, .dispatchTimers] ++
      againRun 1 ++ againRun 2)).map (·.passes) =
        some [{ due := some [1], ran := [1, 2], turns := 4 }] ∧
    ∀ n, ∃ w, (watchedSystem Nat Unit .android).Reachable w ∧ ∃ p ∈ w.passes, n ≤ p.ran.length := by
  refine ⟨by decide, by decide, fun n => ?_⟩
  obtain ⟨w, hw, -, -, -, -, p, hp, hn⟩ := busy_reachable n
  exact ⟨w, hw, p, by simp [hp], Nat.le_of_succ_le_succ hn⟩

end Wxp.RunLoop
