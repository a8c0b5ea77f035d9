import Wxp.WKWebView.Responses

/-!
# WKWebView — the keys of the tasks

The check before a call is about the address of the task, and an address can be used again
once its object is gone. The responder retains its object, so the address stays its own: the
check fails exactly when the task was stopped, and the UUID is never what decides
(`check_iff_not_stopped`).
-/

namespace Wxp.WKWebView

variable {s s' : State}

/-- The responder has yet to take the key out. -/
def Responder.holdsKey : Responder → Bool
  | .waiting => true
  | .running code => decide (.removeTaskKey ∈ code)
  | .none | .done => false

/-- The key of the task is in the map. -/
def Task.holdsKey (x : Task) : Bool := !x.stopped && (!x.finished || x.responder.holdsKey)

theorem Responder.retains_of_holdsKey {r : Responder} (h : r.holdsKey = true) :
    r.retains = true := by
  cases r with
  | waiting | running code => rfl
  | none | done => simp [holdsKey] at h

theorem Responder.holdsKey_cons (i : Instr) {rest : List Instr}
    (h : (running rest).holdsKey = true) : (running (i :: rest)).holdsKey = true := by
  simp only [holdsKey, decide_eq_true_eq] at h ⊢
  exact List.mem_cons_of_mem i h

theorem Task.alive_of_holdsKey {x : Task} (h : x.holdsKey = true) : x.alive = true := by
  simp only [holdsKey, Bool.and_eq_true, Bool.or_eq_true] at h
  obtain ⟨hs, hf | hr⟩ := h
  · simp [alive, hs, hf]
  · simp [alive, Responder.retains_of_holdsKey hr]

/-! ## One task -/

structure SameKey (x x' : Task) : Prop where
  webview : x'.webview = x.webview
  owner : x'.owner = x.owner
  address : x'.address = x.address
  uuid : x'.uuid = x.uuid

theorem TaskStep.sameKey {x x' : Task} (h : TaskStep s x x') : SameKey x x' := by
  cases h <;> exact ⟨rfl, rfl, rfl, rfl⟩

theorem TaskStep.alive {x x' : Task} (h : TaskStep s x x') (ha : x'.alive = true) :
    x.alive = true := by
  cases h with
  | same => exact ha
  | stop =>
      have hr : x.responder.retains = true := by simpa [Task.alive] using ha
      simp [Task.alive, hr]
  | respond r hw => simp [Task.alive, hw, Responder.retains]
  | ends hr => simp [Task.alive, hr]
  | pass i rest hr | call c rest hr | late c rest hr => simp [Task.alive, hr, Responder.retains]

/-- The key is taken out at the end. -/
theorem responder_split {r : HttpResponse} {pre rest : List Instr}
    (h : responder r = pre ++ .removeTaskKey :: rest) :
    rest = [] ∧ .didFinish ∈ callsOf pre := by
  have hcode : responder r = validate ++ validate ++ validate ++
      [.call (.didReceiveResponse r)] ++ validate ++ [.call (.didReceiveData r.body)] ++
      validate ++ [.call .didFinish] ++ [.checkWebviewId] ++ .removeTaskKey :: [] := rfl
  rw [hcode] at h
  have hpre : rest.length = 0 := by
    by_contra hne
    have hmem : Instr.removeTaskKey ∈ (pre ++ Instr.removeTaskKey :: rest).dropLast := by
      rw [List.dropLast_append_of_ne_nil (List.cons_ne_nil _ _)]
      refine List.mem_append_right _ ?_
      rw [List.dropLast_cons_of_ne_nil (by simpa using hne)]
      exact List.mem_cons_self
    rw [← h] at hmem
    simp [validate] at hmem
  have hrest : rest = [] := List.length_eq_zero_iff.1 hpre
  subst hrest
  obtain ⟨rfl, -⟩ := List.append_inj' h rfl
  exact ⟨rfl, by simp [validate, callsOf]⟩

theorem Coded.removes {x : Task} (h : Coded x) {rest : List Instr}
    (hr : x.responder = .running (.removeTaskKey :: rest)) : rest = [] ∧ x.finished = true := by
  cases h with
  | running r pre code hcode hsplit hc =>
      rw [hr] at hcode
      cases hcode
      obtain ⟨hrest, hfin⟩ := responder_split hsplit
      exact ⟨hrest, by simpa [Task.finished, hc] using hfin⟩
  | none hn => simp [hn] at hr
  | waiting hw => simp [hw] at hr
  | done _ hd => simp [hd] at hr

theorem TaskStep.holdsKey {x x' : Task} (h : TaskStep s x x') (hk : x'.holdsKey = true) :
    x.holdsKey = true := by
  cases h with
  | same => exact hk
  | stop => simp [Task.holdsKey] at hk
  | respond r hw =>
      simp only [Task.holdsKey, Bool.and_eq_true] at hk ⊢
      exact ⟨hk.1, by simp [hw, Responder.holdsKey]⟩
  | ends hr =>
      simp only [Task.holdsKey, Responder.holdsKey, Bool.or_false, Bool.and_eq_true] at hk ⊢
      exact ⟨hk.1, by rw [Bool.or_eq_true]; exact .inl hk.2⟩
  | pass i rest hr hp =>
      simp only [Task.holdsKey, Bool.and_eq_true, Bool.or_eq_true] at hk ⊢
      obtain ⟨hs, hf | hcode⟩ := hk
      · exact ⟨hs, .inl hf⟩
      · rw [hr]
        exact ⟨hs, .inr (Responder.holdsKey_cons _ hcode)⟩
  | call c rest hr hs =>
      simp only [Task.holdsKey, Bool.and_eq_true, Bool.or_eq_true] at hk ⊢
      obtain ⟨hs, hf | hcode⟩ := hk
      · refine ⟨hs, .inl ?_⟩
        simp only [Task.finished, List.mem_append, Bool.not_eq_true', decide_eq_false_iff_not,
          not_or] at hf ⊢
        exact hf.1
      · rw [hr]
        exact ⟨hs, .inr (Responder.holdsKey_cons _ hcode)⟩
  | late c rest hr hs => simp [Task.holdsKey, hs] at hk

/-! ## The map -/

/-- What one step can do to the map. -/
inductive KeyStep (s s' : State) : Prop
  | same : (∀ v a, s'.getCustomTaskUuid v a = s.getCustomTaskUuid v a) → KeyStep s s'
  | new : (∀ v a, s'.getCustomTaskUuid v a =
      if v = s.nextView then none else s.getCustomTaskUuid v a) → KeyStep s s'
  | insert (v : ViewId) (a : Address) : s.free a = true →
      (∀ w b, s'.getCustomTaskUuid w b =
        if w = v ∧ b = a then some s.nextUuid else s.getCustomTaskUuid w b) →
      (s'.tasks s.nextTask).webview = v → (s'.tasks s.nextTask).address = a →
      s'.nextTask = s.nextTask + 1 → KeyStep s s'
  | remove (t : TaskId) : t < s.nextTask → (s.tasks t).alive = true → (s'.tasks t).holdsKey = false →
      (∀ w b, s'.getCustomTaskUuid w b =
        if w = (s.tasks t).webview ∧ b = (s.tasks t).address then none
        else s.getCustomTaskUuid w b) → KeyStep s s'

theorem getCustomTaskUuid_setTask (s : State) (t : TaskId) (x : Task) (v : ViewId)
    (a : Address) : (s.setTask t x).getCustomTaskUuid v a = s.getCustomTaskUuid v a := rfl

theorem newTask_key (s : State) (v owner : ViewId) (a : Address) (protocolIndex : Nat)
    (wellFormed : Bool) :
    (s.newTask v owner a protocolIndex wellFormed).webview = v ∧
      (s.newTask v owner a protocolIndex wellFormed).owner = owner ∧
      (s.newTask v owner a protocolIndex wellFormed).address = a ∧
      (s.newTask v owner a protocolIndex wellFormed).uuid = s.nextUuid ∧
      (s.newTask v owner a protocolIndex wellFormed).stopped = false := by
  simp only [State.newTask]
  split
  · split <;> exact ⟨rfl, rfl, rfl, rfl, rfl⟩
  · exact ⟨rfl, rfl, rfl, rfl, rfl⟩

theorem exec_keyStep {t : TaskId} {i : Instr} {rest : List Instr} (ht : t < s.nextTask)
    (hr : (s.tasks t).responder = .running (i :: rest)) (hc : Coded (s.tasks t)) :
    KeyStep s (s.exec t i rest) := by
  cases i with
  | checkWebviewId | checkTask => exact .same fun _ _ => rfl
  | call c =>
      simp only [State.exec]
      split <;> exact .same fun _ _ => rfl
  | removeTaskKey =>
      obtain ⟨rfl, hfin⟩ := hc.removes hr
      refine .remove t ht (by simp [Task.alive, hr, Responder.retains]) ?_ fun w b => ?_
      · have hfin : Call.didFinish ∈ (s.tasks t).calls := by simpa [Task.finished] using hfin
        simp [State.exec, Task.holdsKey, Task.finished, Responder.holdsKey, hfin]
      · simp only [State.exec, State.removeCustomTaskKey]
        rw [State.getCustomTaskUuid_setKey, getCustomTaskUuid_setTask]

theorem key_step {act : Action} (h : Step s act s') (hb : ∀ t, s.nextTask ≤ t → s.tasks t = {})
    (hc : ∀ t, Coded (s.tasks t)) : KeyStep s s' := by
  cases h with
  | new id protocols =>
      refine .new fun v a => ?_
      simp only [State.getCustomTaskUuid, State.setView, Function.update_apply]
      split <;> rfl
  | drop v =>
      refine .same fun w a => ?_
      simp only [State.getCustomTaskUuid, State.setView, Function.update_apply]
      split
      · next hw => rw [hw]
      · rfl
  | startTask v owner a protocolIndex wellFormed hv ho ha =>
      obtain ⟨hview, -, haddress, -⟩ := newTask_key s v owner a protocolIndex wellFormed
      refine .insert v a ha (fun w b => ?_) ?_ ?_ rfl
      · exact State.getCustomTaskUuid_setKey s v w a b (some s.nextUuid)
      · simpa [State.startTask] using hview
      · simpa [State.startTask] using haddress
  | stopTask t ht hs hf =>
      refine .remove t ht (by simp [Task.alive, hs, hf]) ?_ fun w b => ?_
      · simp [State.stopTask, Task.holdsKey]
      · simp only [State.stopTask, State.removeCustomTaskKey]
        rw [State.getCustomTaskUuid_setKey, getCustomTaskUuid_setTask]
  | respond | discard | returns => exact .same fun _ _ => rfl
  | advance t i rest hr =>
      refine exec_keyStep (Nat.lt_of_not_le fun hle => ?_) hr (hc t)
      rw [hb t hle] at hr
      cases hr

/-! ## The runs -/

/-- Nothing happens to a task before it is started. -/
theorem unborn_step {act : Action} (h : Step s act s')
    (hi : ∀ t, s.nextTask ≤ t → s.tasks t = {}) (t : TaskId) (ht : s'.nextTask ≤ t) :
    s'.tasks t = {} := by
  have hother : ∀ t', (s.tasks t').responder ≠ .none → s.nextTask ≤ t → t ≠ t' := by
    intro t' hr hle heq
    subst heq
    exact hr (by rw [hi t hle])
  cases h with
  | new | drop => exact hi t ht
  | startTask v owner a protocolIndex wellFormed =>
      have hlt : s.nextTask < t := ht
      simp only [State.startTask, State.setTask_tasks, if_neg (Nat.ne_of_gt hlt)]
      exact hi t (Nat.le_of_lt hlt)
  | stopTask t' hlt =>
      have hle : s.nextTask ≤ t := ht
      have hne : t ≠ t' := Nat.ne_of_gt (Nat.lt_of_lt_of_le hlt hle)
      simp only [State.stopTask, State.removeCustomTaskKey_tasks, State.setTask_tasks, if_neg hne]
      exact hi t hle
  | respond t' r hw =>
      rw [State.setTask_tasks, if_neg (hother t' (by simp [hw]) ht)]
      exact hi t ht
  | discard t' hw =>
      rw [State.setTask_tasks, if_neg (hother t' (by simp [hw]) ht)]
      exact hi t ht
  | advance t' i rest hr =>
      rw [nextTask_exec] at ht
      rw [exec_other s (hother t' (by simp [hr]) ht)]
      exact hi t ht
  | returns t' hr =>
      rw [State.setTask_tasks, if_neg (hother t' (by simp [hr]) ht)]
      exact hi t ht

theorem unborn_of_reachable {ok : State → Action → Prop} (h : schemeTasks.ReachVia ok s) :
    ∀ t, s.nextTask ≤ t → s.tasks t = {} := by
  refine h.invariant (I := fun s => ∀ t, s.nextTask ≤ t → s.tasks t = {}) (fun _ _ => rfl) ?_
  intro s act s' _ hi _ hst
  exact unborn_step (step_cases hst) hi

theorem all_coded {ok : State → Action → Prop} (h : schemeTasks.ReachVia ok s) (t : TaskId) :
    Coded (s.tasks t) := by
  by_cases ht : t < s.nextTask
  · exact coded_of_reachable h ht
  · rw [unborn_of_reachable h t (Nat.le_of_not_lt ht)]
    exact .none rfl (.inl rfl) rfl

theorem uuid_step {act : Action} (h : Step s act s') (hi : s.nextUuid = s.nextTask) :
    s'.nextUuid = s'.nextTask := by
  cases h with
  | startTask => exact congrArg (· + 1) hi
  | advance t i rest hr =>
      rw [nextTask_exec, ← hi]
      cases i with
      | checkWebviewId | checkTask | removeTaskKey => rfl
      | call c =>
          simp only [State.exec]
          split <;> rfl
  | new | drop | stopTask | respond | discard | returns => exact hi

theorem nextView_step {act : Action} (h : Step s act s') : s.nextView ≤ s'.nextView := by
  cases h with
  | new => exact Nat.le_succ _
  | advance t i rest hr =>
      cases i with
      | checkWebviewId | checkTask | removeTaskKey => exact Nat.le_refl _
      | call c =>
          simp only [State.exec]
          split <;> exact Nat.le_refl _
  | startTask | drop | stopTask | respond | discard | returns => exact Nat.le_refl _

/-- The map and the tasks. -/
structure Keys (s : State) : Prop where
  next : s.nextUuid = s.nextTask
  uuid : ∀ t, t < s.nextTask → (s.tasks t).uuid = t
  webview : ∀ t, t < s.nextTask → (s.tasks t).webview < s.nextView
  /-- A key is that of its task, which is not stopped. -/
  held : ∀ v a u, s.getCustomTaskUuid v a = some u → u < s.nextTask ∧
    (s.tasks u).webview = v ∧ (s.tasks u).address = a ∧ (s.tasks u).stopped = false
  /-- No two objects that are there have one address. -/
  apart : ∀ t u, t < s.nextTask → u < s.nextTask → (s.tasks t).alive = true →
    (s.tasks u).alive = true → (s.tasks t).address = (s.tasks u).address → t = u
  present : ∀ t, t < s.nextTask → (s.tasks t).holdsKey = true →
    s.getCustomTaskUuid (s.tasks t).webview (s.tasks t).address = some t
  /-- The address of an object that is there has no other key. -/
  own : ∀ t u, t < s.nextTask → (s.tasks t).alive = true →
    s.getCustomTaskUuid (s.tasks t).webview (s.tasks t).address = some u → u = t

theorem free_apart {a : Address} {t : TaskId} (h : s.free a = true) (ht : t < s.nextTask)
    (ha : (s.tasks t).alive = true) : (s.tasks t).address ≠ a := by
  simp only [State.free, List.all_eq_true, List.mem_range] at h
  have hfree := h t ht
  simpa [ha] using hfree

theorem stopped_exec (s : State) (t u : TaskId) (i : Instr) (rest : List Instr) :
    ((s.exec t i rest).tasks u).stopped = (s.tasks u).stopped := by
  by_cases hu : u = t
  · subst hu
    cases i with
    | checkWebviewId | checkTask | removeTaskKey => simp [State.exec]
    | call c =>
        simp only [State.exec]
        split <;> simp
  · rw [exec_other s hu]

/-- A task that is stopped loses its key. -/
theorem stopped_step {act : Action} (h : Step s act s') {u : TaskId} (hu : u < s.nextTask)
    (hs : (s.tasks u).stopped = false) : (s'.tasks u).stopped = false ∨ act = .stopTask u ∧
      s'.getCustomTaskUuid (s.tasks u).webview (s.tasks u).address = none := by
  cases h with
  | new | drop => exact .inl hs
  | startTask =>
      refine .inl ?_
      rw [State.startTask, State.setTask_tasks, if_neg (Nat.ne_of_lt hu)]
      exact hs
  | stopTask t =>
      by_cases hut : u = t
      · subst hut
        refine .inr ⟨rfl, ?_⟩
        simp only [State.stopTask, State.removeCustomTaskKey]
        rw [State.getCustomTaskUuid_setKey, if_pos ⟨rfl, rfl⟩]
      · refine .inl ?_
        simpa [State.stopTask, hut] using hs
  | respond t | discard t | returns t =>
      refine .inl ?_
      rw [State.setTask_tasks]
      split
      · next heq =>
          subst heq
          exact hs
      · exact hs
  | advance t i rest =>
      refine .inl ?_
      rw [stopped_exec]
      exact hs

/-- A task of the state after the step is one of before, or the one that is started. -/
theorem task_cases {act : Action} (h : Step s act s') {t : TaskId} (ht : t < s'.nextTask) :
    (t < s.nextTask ∧ TaskStep s (s.tasks t) (s'.tasks t)) ∨
      (t = s.nextTask ∧ ∃ v owner a protocolIndex wellFormed,
        act = .startTask v owner a protocolIndex wellFormed ∧ v < s.nextView ∧
        owner < s.nextView ∧ s.free a = true ∧
        s'.tasks t = s.newTask v owner a protocolIndex wellFormed ∧
        s'.getCustomTaskUuid v a = some s.nextUuid) := by
  obtain hnext | ⟨v, owner, a, protocolIndex, wellFormed, hact, hnext, htask⟩ := nextTask_step h
  · rw [hnext] at ht
    exact .inl ⟨ht, task_step h ht⟩
  · rw [hnext] at ht
    obtain ht | rfl := Nat.lt_succ_iff_lt_or_eq.1 ht
    · exact .inl ⟨ht, task_step h ht⟩
    · subst hact
      cases h with
      | startTask _ _ _ _ _ hv ho ha =>
          refine .inr ⟨rfl, v, owner, a, protocolIndex, wellFormed, rfl, hv, ho, ha, htask, ?_⟩
          exact (State.getCustomTaskUuid_setKey s v v a a _).trans (if_pos ⟨rfl, rfl⟩)

theorem nextTask_le {act : Action} (h : Step s act s') : s.nextTask ≤ s'.nextTask := by
  obtain hnext | ⟨_, _, _, _, _, _, hnext, _⟩ := nextTask_step h
  · exact Nat.le_of_eq hnext.symm
  · rw [hnext]
    exact Nat.le_succ _

namespace Keys

theorem uuid_step {act : Action} (h : Step s act s') (hi : Keys s) {t : TaskId}
    (ht : t < s'.nextTask) : (s'.tasks t).uuid = t := by
  obtain ⟨ht, hst⟩ | ⟨rfl, v, owner, a, protocolIndex, wellFormed, -, -, -, -, htask, -⟩ :=
    task_cases h ht
  · rw [hst.sameKey.uuid]
    exact hi.uuid t ht
  · rw [htask, (newTask_key s v owner a protocolIndex wellFormed).2.2.2.1]
    exact hi.next

theorem webview_step {act : Action} (h : Step s act s') (hi : Keys s) {t : TaskId}
    (ht : t < s'.nextTask) : (s'.tasks t).webview < s'.nextView := by
  refine Nat.lt_of_lt_of_le ?_ (nextView_step h)
  obtain ⟨ht, hst⟩ | ⟨rfl, v, owner, a, protocolIndex, wellFormed, -, hv, -, -, htask, -⟩ :=
    task_cases h ht
  · rw [hst.sameKey.webview]
    exact hi.webview t ht
  · rw [htask, (newTask_key s v owner a protocolIndex wellFormed).1]
    exact hv

theorem held_old {act : Action} (h : Step s act s') (hi : Keys s) {v : ViewId} {a : Address}
    {u : Uuid} (hk : s.getCustomTaskUuid v a = some u) (hk' : s'.getCustomTaskUuid v a = some u) :
    u < s'.nextTask ∧ (s'.tasks u).webview = v ∧ (s'.tasks u).address = a ∧
      (s'.tasks u).stopped = false := by
  obtain ⟨hu, rfl, rfl, hs⟩ := hi.held v a u hk
  have hst := (task_step h hu).sameKey
  refine ⟨Nat.lt_of_lt_of_le hu (nextTask_le h), hst.webview, hst.address, ?_⟩
  obtain hs | ⟨-, hnone⟩ := stopped_step h hu hs
  · exact hs
  · rw [hnone] at hk'
    cases hk'

theorem held_step {act : Action} (h : Step s act s') (hi : Keys s)
    (hb : ∀ t, s.nextTask ≤ t → s.tasks t = {}) (hc : ∀ t, Coded (s.tasks t)) {v : ViewId} {a : Address} {u : Uuid}
    (hk : s'.getCustomTaskUuid v a = some u) : u < s'.nextTask ∧ (s'.tasks u).webview = v ∧
      (s'.tasks u).address = a ∧ (s'.tasks u).stopped = false := by
  have hold := held_old h hi (v := v) (a := a) (u := u)
  cases key_step h hb hc with
  | same hkey => exact hold (by rw [← hkey]; exact hk) hk
  | new hkey =>
      refine hold ?_ hk
      rw [hkey] at hk
      split at hk
      · cases hk
      · exact hk
  | insert w b ha hkey hview haddress hnext =>
      by_cases hwb : v = w ∧ a = b
      · obtain ⟨rfl, rfl⟩ := hwb
        rw [hkey, if_pos ⟨rfl, rfl⟩, hi.next] at hk
        cases hk
        refine ⟨by rw [hnext]; exact Nat.lt_succ_self _, hview, haddress, ?_⟩
        obtain ⟨hlt, -⟩ | ⟨-, _, _, _, _, _, -, -, -, -, htask, -⟩ :=
          task_cases h (by rw [hnext]; exact Nat.lt_succ_self _)
        · exact absurd hlt (Nat.lt_irrefl _)
        · rw [htask]
          exact (newTask_key ..).2.2.2.2
      · refine hold ?_ hk
        rw [hkey, if_neg hwb] at hk
        exact hk
  | remove t _ _ _ hkey =>
      refine hold ?_ hk
      rw [hkey] at hk
      split at hk
      · cases hk
      · exact hk

theorem apart_step {act : Action} (h : Step s act s') (hi : Keys s) {t u : TaskId}
    (ht : t < s'.nextTask) (hu : u < s'.nextTask) (hat : (s'.tasks t).alive = true)
    (hau : (s'.tasks u).alive = true) (heq : (s'.tasks t).address = (s'.tasks u).address) :
    t = u := by
  obtain ⟨ht, hst⟩ | ⟨rfl, v, owner, a, protocolIndex, wellFormed, -, -, -, ha, htask, -⟩ :=
    task_cases h ht
  · obtain ⟨hu, hsu⟩ | ⟨rfl, v, owner, a, protocolIndex, wellFormed, -, -, -, ha, htask, -⟩ :=
      task_cases h hu
    · refine hi.apart t u ht hu (hst.alive hat) (hsu.alive hau) ?_
      rw [← hst.sameKey.address, ← hsu.sameKey.address]
      exact heq
    · rw [htask, (newTask_key s v owner a protocolIndex wellFormed).2.2.1,
        hst.sameKey.address] at heq
      exact absurd heq (free_apart ha ht (hst.alive hat))
  · obtain ⟨hu, hsu⟩ | ⟨rfl, -⟩ := task_cases h hu
    · rw [htask, (newTask_key s v owner a protocolIndex wellFormed).2.2.1,
        hsu.sameKey.address] at heq
      exact absurd heq.symm (free_apart ha hu (hsu.alive hau))
    · rfl

theorem present_step {act : Action} (h : Step s act s') (hi : Keys s)
    (hb : ∀ t, s.nextTask ≤ t → s.tasks t = {}) (hc : ∀ t, Coded (s.tasks t)) {t : TaskId} (ht : t < s'.nextTask)
    (hk : (s'.tasks t).holdsKey = true) :
    s'.getCustomTaskUuid (s'.tasks t).webview (s'.tasks t).address = some t := by
  obtain ⟨ht, hst⟩ | ⟨rfl, v, owner, a, protocolIndex, wellFormed, -, -, -, -, htask, hkey⟩ :=
    task_cases h ht
  · have hold := hst.holdsKey hk
    have halive := Task.alive_of_holdsKey hold
    have hpresent := hi.present t ht hold
    rw [hst.sameKey.webview, hst.sameKey.address]
    cases key_step h hb hc with
    | same hkey => rw [hkey, hpresent]
    | new hkey => rw [hkey, if_neg (Nat.ne_of_lt (hi.webview t ht)), hpresent]
    | insert w b ha hkey =>
        have hne : ¬((s.tasks t).webview = w ∧ (s.tasks t).address = b) :=
          fun hwb => free_apart ha ht halive hwb.2
        rw [hkey, if_neg hne, hpresent]
    | remove u hu hau hku hkey =>
        have hne : ¬((s.tasks t).webview = (s.tasks u).webview ∧
            (s.tasks t).address = (s.tasks u).address) := by
          rintro ⟨-, haddress⟩
          have htu := hi.apart t u ht hu halive hau haddress
          subst htu
          rw [hk] at hku
          cases hku
        rw [hkey, if_neg hne, hpresent]
  · obtain ⟨hview, -, haddress, -⟩ := newTask_key s v owner a protocolIndex wellFormed
    rw [htask, hview, haddress, hkey, hi.next]

theorem own_step {act : Action} (h : Step s act s') (hi : Keys s)
    (hb : ∀ t, s.nextTask ≤ t → s.tasks t = {}) (hc : ∀ t, Coded (s.tasks t)) {t u : TaskId}
    (ht : t < s'.nextTask) (ha : (s'.tasks t).alive = true)
    (hk : s'.getCustomTaskUuid (s'.tasks t).webview (s'.tasks t).address = some u) : u = t := by
  obtain ⟨ht, hst⟩ | ⟨rfl, v, owner, a, protocolIndex, wellFormed, -, -, -, -, htask, hkey⟩ :=
    task_cases h ht
  · have halive := hst.alive ha
    rw [hst.sameKey.webview, hst.sameKey.address] at hk
    refine hi.own t u ht halive ?_
    cases key_step h hb hc with
    | same hkey =>
        rw [hkey] at hk
        exact hk
    | new hkey =>
        rw [hkey, if_neg (Nat.ne_of_lt (hi.webview t ht))] at hk
        exact hk
    | insert w b hfree hkey =>
        have hne : ¬((s.tasks t).webview = w ∧ (s.tasks t).address = b) :=
          fun hwb => free_apart hfree ht halive hwb.2
        rw [hkey, if_neg hne] at hk
        exact hk
    | remove x _ _ _ hkey =>
        rw [hkey] at hk
        split at hk
        · cases hk
        · exact hk
  · obtain ⟨hview, -, haddress, -⟩ := newTask_key s v owner a protocolIndex wellFormed
    rw [htask, hview, haddress, hkey, hi.next] at hk
    cases hk
    rfl

theorem init : Keys schemeTasks.init where
  next := rfl
  uuid t ht := absurd ht (Nat.not_lt_zero t)
  webview t ht := absurd ht (Nat.not_lt_zero t)
  held v a u hk := by cases hk
  apart t _ ht := absurd ht (Nat.not_lt_zero t)
  present t ht := absurd ht (Nat.not_lt_zero t)
  own t _ ht := absurd ht (Nat.not_lt_zero t)

end Keys

theorem keys_of_reachable {ok : State → Action → Prop} (h : schemeTasks.ReachVia ok s) :
    Keys s := by
  refine h.invariant Keys.init ?_
  intro s act s' hr hi _ hst
  have hst := step_cases hst
  have hb := unborn_of_reachable hr
  have hc := all_coded hr
  exact {
    next := uuid_step hst hi.next
    uuid := fun t ht => Keys.uuid_step hst hi ht
    webview := fun t ht => Keys.webview_step hst hi ht
    held := fun v a u hk => Keys.held_step hst hi hb hc hk
    apart := fun t u ht hu hat hau heq => Keys.apart_step hst hi ht hu hat hau heq
    present := fun t ht hk => Keys.present_step hst hi hb hc ht hk
    own := fun t u ht ha hk => Keys.own_step hst hi hb hc ht ha hk }

/-- A task that passes the check is not stopped. -/
theorem Keys.notStopped_of_valid (hi : Keys s) {t : TaskId} (ht : t < s.nextTask)
    (h : s.checkTaskIsValid (s.tasks t) = true) : (s.tasks t).stopped = false := by
  have hk : s.getCustomTaskUuid (s.tasks t).webview (s.tasks t).address = some t := by
    simpa [State.checkTaskIsValid, hi.uuid t ht] using h
  exact (hi.held _ _ t hk).2.2.2

/-- While a responder has the key of its task, the map has this key or none under the address:
the UUID never differs. -/
theorem check_iff_not_stopped (h : schemeTasks.Reachable s) {t : TaskId} (ht : t < s.nextTask)
    (hr : (s.tasks t).responder.holdsKey = true) :
    (s.checkTaskIsValid (s.tasks t) = true ↔ (s.tasks t).stopped = false) ∧
      ∀ u, s.getCustomTaskUuid (s.tasks t).webview (s.tasks t).address = some u →
        u = (s.tasks t).uuid := by
  have hi := keys_of_reachable h
  have huuid := hi.uuid t ht
  refine ⟨⟨hi.notStopped_of_valid ht, fun hs => ?_⟩, fun u hk => ?_⟩
  · have hk := hi.present t ht (by simp [Task.holdsKey, hs, hr])
    simp [State.checkTaskIsValid, hk, huuid]
  · have halive : (s.tasks t).alive = true := by
      simp [Task.alive, Responder.retains_of_holdsKey hr]
    rw [huuid]
    exact hi.own t u ht halive hk

/-- The task is stopped, and the responder has not been called yet. -/
theorem check_iff_not_stopped_waiting : ∃ s : State, (s.tasks 0).stopped = true ∧
    0 < s.nextTask ∧ (s.tasks 0).responder.holdsKey = true ∧
    ((s.checkTaskIsValid (s.tasks 0) = true ↔ (s.tasks 0).stopped = false) ∧
      ∀ u, s.getCustomTaskUuid (s.tasks 0).webview (s.tasks 0).address = some u →
        u = (s.tasks 0).uuid) := by
  obtain ⟨s, hs, hp⟩ := System.exists_reachable (S := schemeTasks)
    [.new ['a'] 1, .startTask 0 0 16 0 true, .stopTask 0, .startTask 0 0 32 0 true]
    (fun s => (s.tasks 0).stopped && decide (0 < s.nextTask) && (s.tasks 0).responder.holdsKey)
    (by decide)
  simp only [Bool.and_eq_true, decide_eq_true_eq] at hp
  exact ⟨s, hp.1.1, hp.1.2, hp.2, check_iff_not_stopped hs hp.1.2 hp.2⟩

end Wxp.WKWebView
