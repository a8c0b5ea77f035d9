import Wxp.WKWebView.SchemeTasks

/-!
# WKWebView — what a task is told

A task gets its response, the data and the end in this order, each at most once and all of
one answer, and at most one call comes too late (`calls_in_order`).
-/

namespace Wxp.WKWebView

variable {s s' : State}

namespace State

@[simp] theorem setTask_tasks (s : State) (t t' : TaskId) (x : Task) :
    (s.setTask t x).tasks t' = if t' = t then x else s.tasks t' := by
  simp only [setTask, Function.update_apply]

@[simp] theorem setTask_nextTask (s : State) (t : TaskId) (x : Task) :
    (s.setTask t x).nextTask = s.nextTask := rfl

@[simp] theorem setKey_tasks (s : State) (v : ViewId) (a : Address) (uuid : Option Uuid) :
    (s.setKey v a uuid).tasks = s.tasks := rfl

@[simp] theorem removeCustomTaskKey_tasks (s : State) (v : ViewId) (a : Address) :
    (s.removeCustomTaskKey v a).tasks = s.tasks := rfl

theorem getCustomTaskUuid_setKey (s : State) (v w : ViewId) (a b : Address)
    (uuid : Option Uuid) : (s.setKey v a uuid).getCustomTaskUuid w b =
      if w = v ∧ b = a then uuid else s.getCustomTaskUuid w b := by
  simp only [getCustomTaskUuid, setKey, setView, Function.update_apply]
  split
  · next hw => simp [hw, Function.update_apply]
  · next hw => simp [hw]

end State

/-- What one step can do. -/
inductive Step (s : State) : Action → State → Prop
  | new (id : List Char) (protocols : Nat) : Step s (.new id protocols)
      { s.setView s.nextView { id, protocols } with
        nextView := s.nextView + 1
        webviewState := Function.update s.webviewState id (some s.nextView) }
  | drop (v : ViewId) : v < s.nextView → (s.views v).dropped = false → Step s (.drop v)
      { s.setView v { s.views v with dropped := true } with
        webviewState := Function.update s.webviewState (s.views v).id .none }
  | startTask (v owner : ViewId) (a : Address) (protocolIndex : Nat) (wellFormed : Bool) :
      v < s.nextView → owner < s.nextView → s.free a = true →
      Step s (.startTask v owner a protocolIndex wellFormed)
        (s.startTask v owner a protocolIndex wellFormed)
  | stopTask (t : TaskId) : t < s.nextTask → (s.tasks t).stopped = false →
      (s.tasks t).finished = false → Step s (.stopTask t) (s.stopTask t)
  | respond (t : TaskId) (r : HttpResponse) : (s.tasks t).responder = .waiting →
      Step s (.respond t r) (s.setTask t { s.tasks t with responder := .running (responder r) })
  | discard (t : TaskId) : (s.tasks t).responder = .waiting →
      Step s (.discard t) (s.setTask t { s.tasks t with responder := .done })
  | advance (t : TaskId) (i : Instr) (rest : List Instr) :
      (s.tasks t).responder = .running (i :: rest) → Step s (.advance t) (s.exec t i rest)
  | returns (t : TaskId) : (s.tasks t).responder = .running [] →
      Step s (.advance t) (s.setTask t { s.tasks t with responder := .done })

theorem step_cases {act : Action} (h : step s act = some s') : Step s act s' := by
  cases act with
  | new id protocols =>
      cases h
      exact .new id protocols
  | drop v =>
      simp only [step, Option.ite_none_right_eq_some, Option.some.injEq] at h
      obtain ⟨⟨hv, hd⟩, rfl⟩ := h
      exact .drop v hv hd
  | startTask v owner a protocolIndex wellFormed =>
      simp only [step, Option.ite_none_right_eq_some, Option.some.injEq] at h
      obtain ⟨⟨hv, ho, ha⟩, rfl⟩ := h
      exact .startTask v owner a protocolIndex wellFormed hv ho ha
  | stopTask t =>
      simp only [step, Option.ite_none_right_eq_some, Option.some.injEq] at h
      obtain ⟨⟨ht, hs, hf⟩, rfl⟩ := h
      exact .stopTask t ht hs hf
  | respond t r =>
      simp only [step] at h
      split at h
      · next hw =>
          cases h
          exact .respond t r hw
      all_goals cases h
  | discard t =>
      simp only [step] at h
      split at h
      · next hw =>
          cases h
          exact .discard t hw
      all_goals cases h
  | advance t =>
      simp only [step] at h
      split at h
      · next i rest hr =>
          cases h
          exact .advance t i rest hr
      · next hr =>
          cases h
          exact .returns t hr
      all_goals cases h

/-- The responder passes the instruction without a call. -/
def State.passes (s : State) (x : Task) : Instr → Bool
  | .checkWebviewId => s.checkWebviewIdValid (s.views x.owner).id
  | .checkTask => s.checkTaskIsValid x
  | .removeTaskKey => true
  | .call _ => false

/-- What one step can do to one task. -/
inductive TaskStep (s : State) (x : Task) : Task → Prop
  | same : TaskStep s x x
  | stop : x.stopped = false → x.finished = false → TaskStep s x { x with stopped := true }
  | respond (r : HttpResponse) : x.responder = .waiting →
      TaskStep s x { x with responder := .running (responder r) }
  | ends : x.responder.retains = true →
      (∀ i rest, x.responder = .running (i :: rest) → s.passes x i = false) →
      TaskStep s x { x with responder := .done }
  | pass (i : Instr) (rest : List Instr) : x.responder = .running (i :: rest) →
      s.passes x i = true → TaskStep s x { x with responder := .running rest }
  | call (c : Call) (rest : List Instr) : x.responder = .running (.call c :: rest) →
      x.stopped = false →
      TaskStep s x { x with calls := x.calls ++ [c], responder := .running rest }
  | late (c : Call) (rest : List Instr) : x.responder = .running (.call c :: rest) →
      x.stopped = true →
      TaskStep s x { x with late := x.late ++ [c], responder := .done }

theorem exec_other (s : State) {t t' : TaskId} (h : t' ≠ t) (i : Instr) (rest : List Instr) :
    (s.exec t i rest).tasks t' = s.tasks t' := by
  simp only [State.exec]
  split
  · simp [h]
  · simp [h]
  · split <;> simp [h]
  · simp [h]

theorem exec_step {t : TaskId} {i : Instr} {rest : List Instr}
    (h : (s.tasks t).responder = .running (i :: rest)) :
    TaskStep s (s.tasks t) ((s.exec t i rest).tasks t) := by
  have hends (hp : ¬s.passes (s.tasks t) i = true) :
      TaskStep s (s.tasks t) { s.tasks t with responder := .done } := by
    refine .ends (by rw [h]; rfl) fun i' rest' h' => ?_
    rw [h] at h'
    cases h'
    exact Bool.not_eq_true _ ▸ hp
  cases i with
  | checkWebviewId =>
      simp only [State.exec, State.setTask_tasks, if_true]
      split
      · next hp => exact .pass _ rest h hp
      · next hp => exact hends hp
  | checkTask =>
      simp only [State.exec, State.setTask_tasks, if_true]
      split
      · next hp => exact .pass _ rest h hp
      · next hp => exact hends hp
  | call c =>
      simp only [State.exec]
      split
      · next hs =>
          rw [State.setTask_tasks, if_pos rfl]
          exact .late c rest h hs
      · next hs =>
          rw [State.setTask_tasks, if_pos rfl]
          exact .call c rest h (by simpa using hs)
  | removeTaskKey =>
      simp only [State.exec, State.removeCustomTaskKey_tasks, State.setTask_tasks, if_true]
      exact .pass _ rest h rfl

theorem task_step {act : Action} (h : Step s act s') {t : TaskId} (ht : t < s.nextTask) :
    TaskStep s (s.tasks t) (s'.tasks t) := by
  cases h with
  | new | drop => exact .same
  | startTask v owner a protocolIndex wellFormed =>
      simp only [State.startTask, State.setTask_tasks, if_neg (Nat.ne_of_lt ht)]
      exact .same
  | stopTask t' hlt hs hf =>
      simp only [State.stopTask, State.removeCustomTaskKey_tasks, State.setTask_tasks]
      split
      · next heq =>
          subst heq
          exact .stop hs hf
      · exact .same
  | respond t' r hw =>
      rw [State.setTask_tasks]
      split
      · next heq =>
          subst heq
          exact .respond r hw
      · exact .same
  | discard t' hw =>
      rw [State.setTask_tasks]
      split
      · next heq =>
          subst heq
          exact .ends (by rw [hw]; rfl) fun i rest hr => by rw [hw] at hr; cases hr
      · exact .same
  | advance t' i rest hr =>
      by_cases heq : t = t'
      · subst heq
        exact exec_step hr
      · rw [exec_other s heq]
        exact .same
  | returns t' hr =>
      rw [State.setTask_tasks]
      split
      · next heq =>
          subst heq
          exact .ends (by rw [hr]; rfl) fun i rest h => by rw [hr] at h; cases h
      · exact .same

theorem nextTask_exec (s : State) (t : TaskId) (i : Instr) (rest : List Instr) :
    (s.exec t i rest).nextTask = s.nextTask := by
  simp only [State.exec]
  split
  · rfl
  · rfl
  · split <;> rfl
  · rfl

theorem nextTask_step {act : Action} (h : Step s act s') :
    s'.nextTask = s.nextTask ∨ ∃ v owner a protocolIndex wellFormed,
      act = .startTask v owner a protocolIndex wellFormed ∧ s'.nextTask = s.nextTask + 1 ∧
        s'.tasks s.nextTask = s.newTask v owner a protocolIndex wellFormed := by
  cases h with
  | startTask v owner a protocolIndex wellFormed =>
      refine .inr ⟨v, owner, a, protocolIndex, wellFormed, rfl, rfl, ?_⟩
      simp only [State.startTask, State.setTask_tasks, if_true]
  | advance t i rest => exact .inl (nextTask_exec s t i rest)
  | new | drop | stopTask | respond | discard | returns => exact .inl rfl

/-- What holds of a task that is started, and is kept by what a step can do to a task, holds
of every task. -/
theorem tasks_invariant {ok : State → Action → Prop} {P : Task → Prop}
    (hnew : ∀ (s : State) v owner a protocolIndex wellFormed,
      P (s.newTask v owner a protocolIndex wellFormed))
    (hstep : ∀ s act s' t, schemeTasks.ReachVia ok s → ok s act → Step s act s' →
      t < s.nextTask → P (s.tasks t) → P (s'.tasks t))
    (h : schemeTasks.ReachVia ok s) : ∀ t, t < s.nextTask → P (s.tasks t) := by
  refine h.invariant (I := fun s => ∀ t, t < s.nextTask → P (s.tasks t)) ?_ ?_
  · intro t ht
    exact absurd ht (Nat.not_lt_zero t)
  · intro s act s' hr hi hok hst t ht
    have hst := step_cases hst
    obtain hnext | ⟨v, owner, a, protocolIndex, wellFormed, -, hnext, htask⟩ := nextTask_step hst
    · rw [hnext] at ht
      exact hstep s act s' t hr hok hst ht (hi t ht)
    · rw [hnext] at ht
      obtain ht | rfl := Nat.lt_succ_iff_lt_or_eq.1 ht
      · exact hstep s act s' t hr hok hst ht (hi t ht)
      · rw [htask]
        exact hnew s v owner a protocolIndex wellFormed

/-- The calls of the code, in order. -/
def callsOf (code : List Instr) : List Call :=
  code.filterMap fun
    | .call c => some c
    | .checkWebviewId | .checkTask | .removeTaskKey => none

def answer (r : HttpResponse) : List Call :=
  [.didReceiveResponse r, .didReceiveData r.body, .didFinish]

theorem callsOf_responder (r : HttpResponse) : callsOf (responder r) = answer r := rfl

theorem callsOf_append (code code' : List Instr) :
    callsOf (code ++ code') = callsOf code ++ callsOf code' :=
  List.filterMap_append ..

/-- The calls so far are those of the code that the responder has behind it. -/
inductive Coded (x : Task) : Prop
  | none : x.responder = .none → x.calls = [] ∨ x.calls = State.notFound → x.late = [] → Coded x
  | waiting : x.responder = .waiting → x.calls = [] → x.late = [] → Coded x
  | running (r : HttpResponse) (pre code : List Instr) : x.responder = .running code →
      responder r = pre ++ code → x.calls = callsOf pre → x.late = [] → Coded x
  | done (r : HttpResponse) : x.responder = .done → x.calls ++ x.late <+: answer r →
      (x.late ≠ [] → x.stopped = true ∧ x.late.length = 1) → Coded x

theorem callsOf_cons_call (c : Call) (code : List Instr) :
    callsOf (.call c :: code) = c :: callsOf code := rfl

theorem callsOf_pass {x : Task} {i : Instr} (h : s.passes x i = true) : callsOf [i] = [] := by
  cases i with
  | call c => simp [State.passes] at h
  | checkWebviewId | checkTask | removeTaskKey => rfl

theorem coded_new (s : State) (v owner : ViewId) (a : Address) (protocolIndex : Nat)
    (wellFormed : Bool) : Coded (s.newTask v owner a protocolIndex wellFormed) := by
  simp only [State.newTask]
  split
  · split
    · exact .waiting rfl rfl rfl
    · exact .none rfl (.inr rfl) rfl
  · exact .none rfl (.inl rfl) rfl

theorem Coded.answered {x : Task} (h : Coded x) (hr : x.responder.retains = true) :
    (∃ r, x.calls <+: answer r) ∧ x.late = [] := by
  cases h with
  | none hn => simp [hn, Responder.retains] at hr
  | waiting hw hc hl => exact ⟨⟨{ status := 404 }, by rw [hc]; exact List.nil_prefix⟩, hl⟩
  | running r pre code hcode hsplit hc hl =>
      refine ⟨⟨r, ?_⟩, hl⟩
      rw [hc, ← callsOf_responder, hsplit, callsOf_append]
      exact List.prefix_append _ _
  | done r hd => simp [hd, Responder.retains] at hr

theorem Coded.step {x x' : Task} (h : Coded x) (hst : TaskStep s x x') : Coded x' := by
  cases hst with
  | same => exact h
  | stop =>
      cases h with
      | none hn hc hl => exact .none hn hc hl
      | waiting hw hc hl => exact .waiting hw hc hl
      | running r pre code hcode hsplit hc hl => exact .running r pre code hcode hsplit hc hl
      | done r hd hc hl => exact .done r hd hc fun hne => ⟨rfl, (hl hne).2⟩
  | respond r hw =>
      cases h with
      | waiting _ hc hl => exact .running r [] (responder r) rfl rfl hc hl
      | none hn => simp [hn] at hw
      | running _ _ _ hcode => simp [hcode] at hw
      | done _ hd => simp [hd] at hw
  | ends hr =>
      obtain ⟨⟨r, hc⟩, hl⟩ := h.answered hr
      exact .done r rfl (by simpa [hl] using hc) fun hne => absurd hl hne
  | pass i rest hr hp =>
      cases h with
      | running r pre code hcode hsplit hc hl =>
          rw [hr] at hcode
          cases hcode
          refine .running r (pre ++ [i]) rest rfl (by simp [hsplit]) ?_ hl
          rw [callsOf_append, callsOf_pass hp, List.append_nil]
          exact hc
      | none hn => simp [hn] at hr
      | waiting hw => simp [hw] at hr
      | done _ hd => simp [hd] at hr
  | call c rest hr hs =>
      cases h with
      | running r pre code hcode hsplit hc hl =>
          rw [hr] at hcode
          cases hcode
          refine .running r (pre ++ [.call c]) rest rfl (by simp [hsplit]) ?_ hl
          rw [callsOf_append]
          exact congrArg (· ++ [c]) hc
      | none hn => simp [hn] at hr
      | waiting hw => simp [hw] at hr
      | done _ hd => simp [hd] at hr
  | late c rest hr hs =>
      cases h with
      | running r pre code hcode hsplit hc hl =>
          rw [hr] at hcode
          cases hcode
          refine .done r rfl ?_ fun _ => ⟨hs, by simp [hl]⟩
          rw [← callsOf_responder, hsplit, callsOf_append, callsOf_cons_call]
          exact ⟨callsOf rest, by simp [hc, hl]⟩
      | none hn => simp [hn] at hr
      | waiting hw => simp [hw] at hr
      | done _ hd => simp [hd] at hr

theorem coded_of_reachable {ok : State → Action → Prop} (h : schemeTasks.ReachVia ok s)
    {t : TaskId} (ht : t < s.nextTask) : Coded (s.tasks t) :=
  tasks_invariant coded_new (fun _ _ _ _ _ _ hst ht hc => hc.step (task_step hst ht)) h t ht

/-- A task gets its response, the data and the end in this order, each at most once and all
of one answer, or the answer that there is no such page. A call that comes after the stop is
the next of these, and the last. -/
theorem calls_in_order (h : schemeTasks.Reachable s) {t : TaskId} (ht : t < s.nextTask) :
    ((∃ r, (s.tasks t).calls ++ (s.tasks t).late <+: answer r) ∨
        (s.tasks t).calls = State.notFound ∧ (s.tasks t).late = []) ∧
      ((s.tasks t).late ≠ [] → (s.tasks t).stopped = true ∧ (s.tasks t).late.length = 1 ∧
        (s.tasks t).responder = .done) := by
  have hcoded := coded_of_reachable h ht
  have hanswered := hcoded.answered
  constructor
  · cases hcoded with
    | none _ hc hl =>
        obtain hc | hc := hc
        · exact .inl ⟨{ status := 404 }, by simp [hc, hl]⟩
        · exact .inr ⟨hc, hl⟩
    | waiting hw =>
        obtain ⟨⟨r, hc⟩, hl⟩ := hanswered (by rw [hw]; rfl)
        exact .inl ⟨r, by simpa [hl] using hc⟩
    | running _ _ _ hr =>
        obtain ⟨⟨r, hc⟩, hl⟩ := hanswered (by rw [hr]; rfl)
        exact .inl ⟨r, by simpa [hl] using hc⟩
    | done r _ hc => exact .inl ⟨r, hc⟩
  · intro hne
    cases hcoded with
    | none _ _ hl | waiting _ _ hl | running _ _ _ _ _ _ hl => exact absurd hl hne
    | done r hd _ hl => exact ⟨(hl hne).1, (hl hne).2, hd⟩

/-- The task is stopped between the check and the call. -/
theorem calls_in_order_stopped : ∃ s : State, (((s.tasks 0).late = [.didReceiveData []] ∧
    (s.tasks 0).calls = [.didReceiveResponse { status := 200 }]) ∧ 0 < s.nextTask) ∧
    ((∃ r, (s.tasks 0).calls ++ (s.tasks 0).late <+: answer r) ∨
        (s.tasks 0).calls = State.notFound ∧ (s.tasks 0).late = []) ∧
      ((s.tasks 0).late ≠ [] → (s.tasks 0).stopped = true ∧ (s.tasks 0).late.length = 1 ∧
        (s.tasks 0).responder = .done) := by
  obtain ⟨s, hs, hp⟩ := System.exists_reachable (S := schemeTasks)
    ([.new ['a'] 1, .startTask 0 0 16 0 true, .respond 0 { status := 200 }] ++
      List.replicate 9 (.advance 0) ++ [.stopTask 0, .advance 0])
    (fun s => (s.tasks 0).late == [.didReceiveData []] &&
      (s.tasks 0).calls == [.didReceiveResponse { status := 200 }] && decide (0 < s.nextTask))
    (by decide)
  simp only [Bool.and_eq_true, beq_iff_eq, decide_eq_true_eq] at hp
  exact ⟨s, hp, calls_in_order hs hp.2⟩

end Wxp.WKWebView
