import Wxp.WKWebView.Views
import Mathlib.Data.List.Chain

/-!
# WKWebView — what the checks are worth

A call can only come too late if WebKit gives the task up between the check and the call
(`never_late`).

A key that nobody takes out stays in the map. Unless a web view is dropped while a responder has
yet to look for its id, those are the keys of the tasks that were answered with 404
(`leaked_keys`).
-/

namespace Wxp.WKWebView

variable {s s' : State}

/-! ## The order of the checks -/

/-- A call stands right after a check of the task. -/
def Guarded (i j : Instr) : Prop := ∀ c, j = .call c → i = .checkTask

theorem guarded_responder (r : HttpResponse) : (responder r).IsChain Guarded := by
  simp [responder, validate, Guarded]

theorem Coded.checked {x : Task} (h : Coded x) {i : Instr} {c : Call} {rest : List Instr}
    (hr : x.responder = .running (i :: .call c :: rest)) : i = .checkTask := by
  cases h with
  | running r pre code hcode hsplit =>
      rw [hr] at hcode
      cases hcode
      have hchain := guarded_responder r
      rw [hsplit] at hchain
      have hchain := hchain.right_of_append
      exact (List.isChain_cons_cons.1 hchain).1 c rfl
  | none hn => simp [hn] at hr
  | waiting hw => simp [hw] at hr
  | done _ hd => simp [hd] at hr

/-- The responder has made its checks, and calls next. -/
def Responder.calling : Responder → Bool
  | .running (.call _ :: _) => true
  | .running (.checkWebviewId :: _) | .running (.checkTask :: _) | .running (.removeTaskKey :: _)
  | .running [] | .none | .waiting | .done => false

/-- WebKit does not give a task up between the check and the call. -/
def undisturbed (s : State) : Action → Bool
  | .stopTask t => !(s.tasks t).responder.calling
  | .new _ _ | .drop _ | .startTask _ _ _ _ _ | .respond _ _ | .discard _ | .advance _ => true

abbrev Undisturbed (s : State) (act : Action) : Prop := undisturbed s act = true

theorem Responder.calling_iff {r : Responder} :
    r.calling = true ↔ ∃ c rest, r = .running (.call c :: rest) := by
  constructor
  · intro h
    cases r with
    | running code =>
        cases code with
        | nil => cases h
        | cons i rest =>
            cases i with
            | call c => exact ⟨c, rest, rfl⟩
            | checkWebviewId | checkTask | removeTaskKey => cases h
    | none | waiting | done => cases h
  · rintro ⟨c, rest, rfl⟩
    rfl

/-- Nothing came too late, and the next call will not. -/
structure InTime (x : Task) : Prop where
  late : x.late = []
  calling : x.responder.calling = true → x.stopped = false

theorem InTime.of_quiet {x : Task} (hl : x.late = []) (hc : x.responder.calling = false) :
    InTime x := ⟨hl, fun h => by rw [hc] at h; cases h⟩

theorem inTime_new (s : State) (v owner : ViewId) (a : Address) (protocolIndex : Nat)
    (wellFormed : Bool) : InTime (s.newTask v owner a protocolIndex wellFormed) := by
  simp only [State.newTask]
  split
  · split <;> exact .of_quiet rfl rfl
  · exact .of_quiet rfl rfl

theorem Coded.not_calling_call {x : Task} (h : Coded x) {c : Call} {rest : List Instr}
    (hr : x.responder = .running (.call c :: rest)) :
    (Responder.running rest).calling = false := by
  by_contra hne
  rw [Bool.not_eq_false, Responder.calling_iff] at hne
  obtain ⟨c', rest', hrest⟩ := hne
  cases hrest
  cases h.checked hr

theorem inTime_step {act : Action} {t : TaskId} (hr : schemeTasks.ReachVia Undisturbed s)
    (hok : Undisturbed s act) (hst : Step s act s') (ht : t < s.nextTask)
    (hi : InTime (s.tasks t)) : InTime (s'.tasks t) := by
  have hcoded := coded_of_reachable hr ht
  have hstopped := stopped_step hst ht
  have htask := task_step hst ht
  generalize s'.tasks t = x' at htask hstopped
  cases htask with
  | same => exact hi
  | stop hs =>
      refine ⟨hi.late, fun hc => ?_⟩
      obtain hs' | ⟨rfl, -⟩ := hstopped hs
      · exact hs'
      · rw [Undisturbed, undisturbed, hc] at hok
        cases hok
  | respond | ends => exact .of_quiet hi.late rfl
  | pass i rest hrun hp =>
      refine ⟨hi.late, fun hc => ?_⟩
      obtain ⟨c, rest', hrest⟩ := Responder.calling_iff.1 hc
      cases hrest
      have hi := hcoded.checked hrun
      subst hi
      exact (keys_of_reachable hr).notStopped_of_valid ht hp
  | call c rest hrun => exact .of_quiet hi.late (hcoded.not_calling_call hrun)
  | late c rest hrun hs =>
      have hs' := hi.calling (by rw [hrun]; rfl)
      rw [hs] at hs'
      cases hs'

/-- No call comes too late if WebKit gives no task up between the check and the call. -/
theorem never_late (h : schemeTasks.ReachVia Undisturbed s) {t : TaskId} (ht : t < s.nextTask) :
    (s.tasks t).late = [] :=
  (tasks_invariant (P := InTime) inTime_new
    (fun _ _ _ _ hr hok hst ht hi => inTime_step hr hok hst ht hi) h t ht).late

/-- The task is stopped before the check. -/
theorem never_late_stopped : ∃ s : State, (s.tasks 0).stopped = true ∧
    (s.tasks 0).calls = [.didReceiveResponse { status := 200 }] ∧ 0 < s.nextTask ∧
    (s.tasks 0).late = [] := by
  have hrun : ∃ s, schemeTasks.ReachVia Undisturbed s ∧ _ := System.exists_reachVia
    ([.new ['a'] 1, .startTask 0 0 16 0 true, .respond 0 { status := 200 }] ++
      List.replicate 8 (.advance 0) ++ [.stopTask 0, .advance 0])
    (fun s => (s.tasks 0).stopped &&
      (s.tasks 0).calls == [.didReceiveResponse { status := 200 }] && decide (0 < s.nextTask))
    (by decide)
  obtain ⟨s, hs, hp⟩ := hrun
  simp only [Bool.and_eq_true, beq_iff_eq, decide_eq_true_eq] at hp
  exact ⟨s, hp.1.1, hp.1.2, hp.2, never_late hs hp.2⟩

/-! ## The keys that stay -/

/-- The responder has yet to look for the id of its web view. -/
def Responder.looksForId : Responder → Bool
  | .waiting => true
  | .running code => decide (.checkWebviewId ∈ code)
  | .none | .done => false

theorem Responder.retains_of_looksForId {r : Responder} (h : r.looksForId = true) :
    r.retains = true := by
  cases r with
  | waiting | running code => rfl
  | none | done => cases h

/-- No web view is dropped while a responder has yet to look for its id. -/
def answered (s : State) : Action → Bool
  | .drop v => (List.range s.nextTask).all fun t =>
      !((s.tasks t).responder.looksForId && (s.views (s.tasks t).owner).id == (s.views v).id)
  | .new _ _ | .startTask _ _ _ _ _ | .stopTask _ | .respond _ _ | .discard _ | .advance _ => true

abbrev Answered (s : State) (act : Action) : Prop := answered s act = true

theorem TaskStep.looksForId {x x' : Task} (h : TaskStep s x x')
    (hr : x'.responder.looksForId = true) : x.responder.looksForId = true := by
  cases h with
  | same | stop => exact hr
  | respond r hw => rw [hw]; rfl
  | ends | late => cases hr
  | pass i rest hrun | call c rest hrun =>
      rw [hrun]
      simp only [Responder.looksForId, decide_eq_true_eq] at hr ⊢
      exact List.mem_cons_of_mem _ hr

/-- The id that the responder looks for is there. -/
structure Listed (s : State) (x : Task) : Prop where
  owner : x.owner < s.nextView
  valid : x.responder.looksForId = true → s.checkWebviewIdValid (s.views x.owner).id = true

theorem listed_step {act : Action} {t : TaskId} (hv : ViewStep s act s')
    (hok : Answered s act) (ht : t < s.nextTask) (hi : Listed s (s.tasks t))
    (hr : (s.tasks t).responder.looksForId = true) :
    s'.checkWebviewIdValid (s'.views (s.tasks t).owner).id = true := by
  have hvalid := hi.valid hr
  simp only [State.checkWebviewIdValid] at hvalid ⊢
  cases hv with
  | same _ hw hviews =>
      rw [hw, (hviews _).1]
      exact hvalid
  | new id _ _ _ hw _ _ hviews =>
      rw [hw, (hviews _ (Nat.ne_of_lt hi.owner)).1, Function.update_apply]
      split
      · rfl
      · exact hvalid
  | drop w hact _ _ hw hid =>
      subst hact
      have hne : (s.views (s.tasks t).owner).id ≠ (s.views w).id := by
        simp only [Answered, answered, List.all_eq_true, List.mem_range] at hok
        simpa [hr] using hok t ht
      rw [hw, hid, Function.update_of_ne hne]
      exact hvalid

theorem listed_of_reachable (h : schemeTasks.ReachVia Answered s) :
    ∀ t, t < s.nextTask → Listed s (s.tasks t) := by
  refine h.invariant (I := fun s => ∀ t, t < s.nextTask → Listed s (s.tasks t)) ?_ ?_
  · intro t ht
    exact absurd ht (Nat.not_lt_zero t)
  · intro s act s' _ hi hok hst t ht
    have hst := step_cases hst
    have hv := view_step hst
    obtain ⟨ht, htask⟩ | ⟨-, v, owner, a, protocolIndex, wellFormed, rfl, -, ho, -, htask, -⟩ :=
      task_cases hst ht
    · constructor
      · rw [htask.sameKey.owner]
        exact Nat.lt_of_lt_of_le (hi t ht).owner (nextView_step hst)
      · intro hr
        rw [htask.sameKey.owner]
        exact listed_step hv hok ht (hi t ht) (htask.looksForId hr)
    · have howner := (newTask_key s v owner a protocolIndex wellFormed).2.1
      rw [htask]
      constructor
      · rw [howner]
        exact Nat.lt_of_lt_of_le ho (nextView_step hst)
      · intro hr
        obtain ⟨u, hu⟩ := newTask_retains (Responder.retains_of_looksForId hr)
        have hw := newTask_function hu
        rw [howner]
        cases hv with
        | same _ hstate hviews =>
            rw [State.checkWebviewIdValid, hstate, (hviews owner).1, hw]
            rfl
        | new _ _ hact | drop _ hact => cases hact

/-- After the end only the id is left to look for. -/
def Ending (i j : Instr) : Prop :=
  i = .call .didFinish → j = .checkWebviewId ∨ j = .removeTaskKey

theorem ending_responder (r : HttpResponse) : (responder r).Pairwise Ending := by
  simp [responder, validate, Ending]

theorem mem_of_mem_callsOf {c : Call} {code : List Instr} (h : c ∈ callsOf code) :
    .call c ∈ code := by
  simp only [callsOf, List.mem_filterMap] at h
  obtain ⟨i, hi, hc⟩ := h
  cases i with
  | call c' =>
      cases hc
      exact hi
  | checkWebviewId | checkTask | removeTaskKey => cases hc

theorem Coded.ending {x : Task} (h : Coded x) (hf : x.finished = true) {i : Instr}
    {rest : List Instr} (hr : x.responder = .running (i :: rest)) :
    i = .checkWebviewId ∨ i = .removeTaskKey := by
  cases h with
  | running r pre code hcode hsplit hc =>
      rw [hr] at hcode
      cases hcode
      have hpair := ending_responder r
      rw [hsplit, List.pairwise_append] at hpair
      have hmem : Call.didFinish ∈ callsOf pre := by simpa [Task.finished, hc] using hf
      exact hpair.2.2 _ (mem_of_mem_callsOf hmem) i List.mem_cons_self rfl
  | none hn => simp [hn] at hr
  | waiting hw => simp [hw] at hr
  | done _ hd => simp [hd] at hr

theorem Coded.removeTaskKey_mem {x : Task} (h : Coded x) {c : Call} {rest : List Instr}
    (hr : x.responder = .running (.call c :: rest)) : .removeTaskKey ∈ rest := by
  cases h with
  | running r pre code hcode hsplit =>
      rw [hr] at hcode
      cases hcode
      have hmem : Instr.removeTaskKey ∈ responder r := by simp [responder]
      rw [hsplit, List.mem_append] at hmem
      obtain hmem | hmem := hmem
      · obtain ⟨p, q, hpre⟩ := List.append_of_mem hmem
        rw [hpre, List.append_assoc, List.cons_append] at hsplit
        have hnil := (responder_split hsplit).1
        exact absurd hnil (by simp)
      · simpa using hmem
  | none hn => simp [hn] at hr
  | waiting hw => simp [hw] at hr
  | done _ hd => simp [hd] at hr

/-- The key of the task is gone, or the responder has yet to take it out. -/
theorem removed_step {act : Action} (h : Step s act s') {t : TaskId} (ht : t < s.nextTask)
    {rest : List Instr} (hr : (s.tasks t).responder = .running (.removeTaskKey :: rest)) :
    (s'.tasks t).responder = .running (.removeTaskKey :: rest) ∨
      s'.getCustomTaskUuid (s.tasks t).webview (s.tasks t).address = none := by
  cases h with
  | new | drop => exact .inl hr
  | startTask =>
      refine .inl ?_
      rw [State.startTask, State.setTask_tasks, if_neg (Nat.ne_of_lt ht)]
      exact hr
  | stopTask u =>
      refine .inl ?_
      simp only [State.stopTask, State.removeCustomTaskKey_tasks, State.setTask_tasks]
      split
      · next heq =>
          subst heq
          exact hr
      · exact hr
  | respond u _ hw | discard u hw | returns u hw =>
      refine .inl ?_
      have hne : t ≠ u := fun heq => by rw [← heq, hr] at hw; cases hw
      rw [State.setTask_tasks, if_neg hne]
      exact hr
  | advance u i rest' hu =>
      by_cases htu : t = u
      · subst htu
        rw [hr] at hu
        cases hu
        refine .inr ?_
        simp only [State.exec, State.removeCustomTaskKey]
        rw [State.getCustomTaskUuid_setKey, if_pos ⟨rfl, rfl⟩]
      · refine .inl ?_
        rw [exec_other s htu]
        exact hr

/-- The key of the task will be taken out, or was forgotten with the answer 404. -/
def Task.accounted (x : Task) : Prop := x.holdsKey = true ∨ x.calls = State.notFound

theorem accounted_running {x : Task} {code : List Instr} (hs : x.stopped = false)
    (hr : x.responder = .running code) (hmem : .removeTaskKey ∈ code) : x.accounted :=
  .inl (by simp [Task.holdsKey, hs, hr, Responder.holdsKey, hmem])

theorem accounted_unfinished {x : Task} (hs : x.stopped = false) (hf : x.finished = false) :
    x.accounted :=
  .inl (by simp [Task.holdsKey, hs, hf])

theorem Task.accounted_cases {x : Task} (h : x.accounted) (hc : Coded x) :
    x.finished = false ∨ x.calls = State.notFound ∨
      ∃ code, x.responder = .running code ∧ .removeTaskKey ∈ code := by
  obtain h | h := h
  · simp only [holdsKey, Bool.and_eq_true, Bool.or_eq_true, Bool.not_eq_true'] at h
    obtain ⟨-, hf | hr⟩ := h
    · exact .inl hf
    · cases hx : x.responder with
      | waiting =>
          cases hc with
          | waiting _ hcalls => exact .inl (by simp [finished, hcalls])
          | none hn => rw [hx] at hn; cases hn
          | running _ _ _ hrun => rw [hx] at hrun; cases hrun
          | done _ hd => rw [hx] at hd; cases hd
      | running code =>
          rw [hx] at hr
          exact .inr (.inr ⟨code, rfl, by simpa [Responder.holdsKey] using hr⟩)
      | none | done =>
          rw [hx] at hr
          cases hr
  · exact .inr (.inl h)

theorem accounted_step {x x' : Task} (h : TaskStep s x x') (hc : Coded x) (hl : Listed s x)
    (hi : x.accounted) (hs : x'.stopped = false)
    (hrem : ∀ rest, x.responder = .running (.removeTaskKey :: rest) →
      x'.responder = .running (.removeTaskKey :: rest)) : x'.accounted := by
  have hcases := Task.accounted_cases hi hc
  cases h with
  | same => exact hi
  | stop => cases hs
  | respond r hw => exact accounted_running hs rfl (by simp [responder])
  | ends hr hp =>
      obtain hf | hn | ⟨code, hrun, hmem⟩ := hcases
      · exact accounted_unfinished hs hf
      · exact .inr hn
      · cases code with
        | nil => cases hmem
        | cons i rest =>
            cases hf : x.finished with
            | false => exact accounted_unfinished hs hf
            | true =>
                have hfail := hp i rest hrun
                obtain rfl | rfl := hc.ending hf hrun
                · have hvalid := hl.valid (by simp [hrun, Responder.looksForId])
                  rw [State.passes, hvalid] at hfail
                  cases hfail
                · cases hfail
  | pass i rest hr hp =>
      obtain hf | hn | ⟨code, hrun, hmem⟩ := hcases
      · exact accounted_unfinished hs hf
      · exact .inr hn
      · rw [hr] at hrun
        cases hrun
        obtain rfl | hmem := List.mem_cons.1 hmem
        · have heq := hrem rest hr
          simp at heq
        · exact accounted_running hs rfl hmem
  | call c rest hr => exact accounted_running hs rfl (hc.removeTaskKey_mem hr)
  | late c rest hr hstop =>
      rw [hstop] at hs
      cases hs

theorem accounted_new (s : State) (v owner : ViewId) (a : Address) (protocolIndex : Nat)
    (wellFormed : Bool) : (s.newTask v owner a protocolIndex wellFormed).accounted := by
  simp only [State.newTask]
  split
  · split
    · exact accounted_unfinished rfl rfl
    · exact .inr rfl
  · exact accounted_unfinished rfl rfl

theorem key_old {act : Action} (hst : Step s act s') (hr : schemeTasks.Reachable s) {v : ViewId}
    {a : Address} {u : Uuid} (hu : u < s.nextTask) (hk : s'.getCustomTaskUuid v a = some u) :
    s.getCustomTaskUuid v a = some u := by
  cases key_step hst (unborn_of_reachable hr) (all_coded hr) with
  | same hkey =>
      rw [hkey] at hk
      exact hk
  | new hkey =>
      rw [hkey] at hk
      split at hk
      · cases hk
      · exact hk
  | insert w b _ hkey =>
      rw [hkey] at hk
      split at hk
      · cases hk
        rw [(keys_of_reachable hr).next] at hu
        exact absurd hu (Nat.lt_irrefl _)
      · exact hk
  | remove t _ _ _ hkey =>
      rw [hkey] at hk
      split at hk
      · cases hk
      · exact hk

theorem accounted_of_reachable (h : schemeTasks.ReachVia Answered s) :
    ∀ v a u, s.getCustomTaskUuid v a = some u → (s.tasks u).accounted := by
  refine h.invariant
    (I := fun s => ∀ v a u, s.getCustomTaskUuid v a = some u → (s.tasks u).accounted) ?_ ?_
  · intro v a u hk
    cases hk
  · intro s act s' hr hi hok hst v a u hk
    have hnext := System.ReachVia.step hr hok hst
    have hst := step_cases hst
    obtain ⟨hu, hview, haddress, hs⟩ := (keys_of_reachable hnext).held v a u hk
    obtain ⟨hu, htask⟩ | ⟨-, w, owner, b, protocolIndex, wellFormed, -, -, -, -, htask, -⟩ :=
      task_cases hst hu
    · have hold := hi v a u (key_old hst hr.reachable hu hk)
      refine accounted_step htask (coded_of_reachable hr hu) (listed_of_reachable hr u hu) hold hs ?_
      intro rest hrun
      obtain hsame | hnone := removed_step hst hu hrun
      · exact hsame
      · rw [← htask.sameKey.webview, ← htask.sameKey.address, hview, haddress, hk] at hnone
        cases hnone
    · rw [htask]
      exact accounted_new s w owner b protocolIndex wellFormed

/-- If no web view is dropped while a responder has yet to look for its id, a key outlives its task
only where the task was answered with 404. -/
theorem leaked_keys (h : schemeTasks.ReachVia Answered s) {v : ViewId} {a : Address} {u : Uuid}
    (hk : s.getCustomTaskUuid v a = some u) (ha : (s.tasks u).alive = false) :
    (s.tasks u).calls = State.notFound := by
  obtain hkey | hn := accounted_of_reachable h v a u hk
  · rw [Task.alive_of_holdsKey hkey] at ha
    cases ha
  · exact hn

/-- The address of a page that is not there. -/
theorem leaked_keys_notFound : ∃ s : State, s.getCustomTaskUuid 0 16 = some 0 ∧
    (s.tasks 0).alive = false ∧ (s.tasks 0).calls = State.notFound := by
  have hrun : ∃ s, schemeTasks.ReachVia Answered s ∧ _ := System.exists_reachVia
    [.new ['a'] 1, .startTask 0 0 16 0 false]
    (fun s => s.getCustomTaskUuid 0 16 == some 0 && !(s.tasks 0).alive) (by decide)
  obtain ⟨s, hs, hp⟩ := hrun
  simp only [Bool.and_eq_true, beq_iff_eq, Bool.not_eq_true'] at hp
  exact ⟨s, hp.1, hp.2, leaked_keys hs hp.1 hp.2⟩

end Wxp.WKWebView
