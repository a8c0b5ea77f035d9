import Wxp.WKWebView.Keys
import Mathlib.Data.List.Infix

/-!
# WKWebView — the ids of the web views

The URL scheme handlers know their web view by its id. `WEBVIEW_STATE` has one entry for an
id: `new` puts it without a look at what is there, and `Drop` takes it out without a look at
whose it is. If no id is ever used twice, each entry is that of its web view, as long as it
is there, and a request goes to a function of its own web view (`own_functions`). From its
drop on, a task gets at most one call more (`calls_after_drop`).
-/

namespace Wxp.WKWebView

variable {s s' : State}

/-- What one step can do to the web views. -/
inductive ViewStep (s : State) (act : Action) (s' : State) : Prop
  | same : s'.nextView = s.nextView → s'.webviewState = s.webviewState →
      (∀ v, (s'.views v).id = (s.views v).id ∧ (s'.views v).dropped = (s.views v).dropped) →
      ViewStep s act s'
  | new (id : List Char) (protocols : Nat) : act = .new id protocols →
      s'.nextView = s.nextView + 1 →
      s'.webviewState = Function.update s.webviewState id (some s.nextView) →
      (s'.views s.nextView).id = id → (s'.views s.nextView).dropped = false →
      (∀ v, v ≠ s.nextView →
        (s'.views v).id = (s.views v).id ∧ (s'.views v).dropped = (s.views v).dropped) →
      ViewStep s act s'
  | drop (w : ViewId) : act = .drop w → s'.nextView = s.nextView → w < s.nextView →
      s'.webviewState = Function.update s.webviewState (s.views w).id none →
      (∀ v, (s'.views v).id = (s.views v).id) → (s'.views w).dropped = true →
      (∀ v, v ≠ w → (s'.views v).dropped = (s.views v).dropped) → ViewStep s act s'

theorem setKey_views (s : State) (v w : ViewId) (a : Address) (uuid : Option Uuid) :
    ((s.setKey v a uuid).views w).id = (s.views w).id ∧
      ((s.setKey v a uuid).views w).dropped = (s.views w).dropped := by
  simp only [State.setKey, State.setView, Function.update_apply]
  split
  · next hw =>
      subst hw
      exact ⟨rfl, rfl⟩
  · exact ⟨rfl, rfl⟩

theorem exec_viewStep (s : State) (t : TaskId) (i : Instr) (rest : List Instr) :
    ViewStep s (.advance t) (s.exec t i rest) := by
  cases i with
  | checkWebviewId | checkTask => exact .same rfl rfl fun _ => ⟨rfl, rfl⟩
  | call c =>
      simp only [State.exec]
      split <;> exact .same rfl rfl fun _ => ⟨rfl, rfl⟩
  | removeTaskKey => exact .same rfl rfl fun v => setKey_views _ _ v _ _

theorem view_step {act : Action} (h : Step s act s') : ViewStep s act s' := by
  cases h with
  | new id protocols =>
      refine .new id protocols rfl rfl rfl ?_ ?_ fun v hv => ?_
      · simp [State.setView]
      · simp [State.setView]
      · simp [State.setView, Function.update_of_ne hv]
  | drop w hw =>
      refine .drop w rfl rfl hw rfl (fun v => ?_) ?_ fun v hv => ?_
      · simp only [State.setView, Function.update_apply]
        split
        · next heq => rw [heq]
        · rfl
      · simp [State.setView]
      · simp [State.setView, Function.update_of_ne hv]
  | startTask v owner a => exact .same rfl rfl fun w => setKey_views _ _ w _ _
  | stopTask t => exact .same rfl rfl fun v => setKey_views _ _ v _ _
  | respond | discard | returns => exact .same rfl rfl fun _ => ⟨rfl, rfl⟩
  | advance t i rest => exact exec_viewStep s t i rest

/-- A new web view has an id that none had before. -/
def ownId (s : State) : Action → Bool
  | .new id _ => (List.range s.nextView).all fun v => (s.views v).id != id
  | .drop _ | .startTask _ _ _ _ _ | .stopTask _ | .respond _ _ | .discard _ | .advance _ => true

abbrev OwnId (s : State) (act : Action) : Prop := ownId s act = true

/-- The entries are those of the web views that are there. -/
structure Entries (s : State) : Prop where
  ids : ∀ v w, v < s.nextView → w < s.nextView → (s.views v).id = (s.views w).id → v = w
  entry : ∀ id u, s.webviewState id = some u ↔
    u < s.nextView ∧ (s.views u).dropped = false ∧ (s.views u).id = id

theorem ownId_apart {id : List Char} {protocols : Nat} (h : OwnId s (.new id protocols))
    {v : ViewId} (hv : v < s.nextView) : (s.views v).id ≠ id := by
  simp only [OwnId, ownId, List.all_eq_true, List.mem_range, bne_iff_ne] at h
  exact h v hv

theorem entries_step {act : Action} (h : ViewStep s act s') (hok : OwnId s act)
    (hi : Entries s) : Entries s' := by
  cases h with
  | same hn hw hv =>
      constructor
      · intro v w h h' heq
        rw [hn] at h h'
        rw [(hv v).1, (hv w).1] at heq
        exact hi.ids v w h h' heq
      · intro id u
        rw [hn, hw, (hv u).1, (hv u).2, hi.entry]
  | new id protocols hact hn hw hid hdrop hv =>
      subst hact
      have hold : ∀ v, v < s.nextView → (s'.views v).id = (s.views v).id ∧ (s.views v).id ≠ id :=
        fun v h => ⟨(hv v (Nat.ne_of_lt h)).1, ownId_apart hok h⟩
      constructor
      · intro v w h h' heq
        rw [hn] at h h'
        obtain h | rfl := Nat.lt_succ_iff_lt_or_eq.1 h
        · obtain h' | rfl := Nat.lt_succ_iff_lt_or_eq.1 h'
          · rw [(hold v h).1, (hold w h').1] at heq
            exact hi.ids v w h h' heq
          · rw [(hold v h).1, hid] at heq
            exact absurd heq (hold v h).2
        · obtain h' | rfl := Nat.lt_succ_iff_lt_or_eq.1 h'
          · rw [(hold w h').1, hid] at heq
            exact absurd heq.symm (hold w h').2
          · rfl
      · intro id' u
        rw [hn, hw, Function.update_apply]
        by_cases hu : u = s.nextView
        · subst hu
          rw [hid, hdrop]
          split
          · next heq => simp [heq]
          · next hne =>
              have hnone : ¬id = id' := fun heq => hne heq.symm
              simp [hi.entry, hnone]
        · rw [(hv u hu).1, (hv u hu).2]
          have hlt : u < s.nextView + 1 ↔ u < s.nextView :=
            ⟨fun h => Nat.lt_of_le_of_ne (Nat.le_of_lt_succ h) hu, Nat.lt_succ_of_lt⟩
          rw [hlt]
          split
          · next heq =>
              subst heq
              constructor
              · intro h
                cases h
                exact absurd rfl hu
              · rintro ⟨h, -, heq⟩
                exact absurd heq (hold u h).2
          · exact hi.entry id' u
  | drop w _ hn hlt hstate hid hdrop hv =>
      constructor
      · intro v u h h' heq
        rw [hn] at h h'
        rw [hid, hid] at heq
        exact hi.ids v u h h' heq
      · intro id u
        rw [hn, hstate, Function.update_apply, hid]
        by_cases hu : u = w
        · subst hu
          rw [hdrop]
          split
          · simp
          · next hne =>
              have hnone : ¬(s.views u).id = id := fun heq => hne heq.symm
              simp [hi.entry, hnone]
        · rw [hv u hu]
          split
          · next heq =>
              subst heq
              constructor
              · intro h
                cases h
              · rintro ⟨h, -, heq⟩
                exact absurd (hi.ids u w h hlt heq) hu
          · exact hi.entry id u

theorem entries_of_reachable (h : schemeTasks.ReachVia OwnId s) : Entries s := by
  refine h.invariant (I := Entries) ?_ ?_
  · constructor
    · intro v w hv
      exact absurd hv (Nat.not_lt_zero v)
    · intro id u
      constructor
      · intro hk
        cases hk
      · rintro ⟨hu, -⟩
        exact absurd hu (Nat.not_lt_zero u)
  · intro s act s' _ hi hok hst
    exact entries_step (view_step (step_cases hst)) hok hi

theorem Entries.webviewState (hi : Entries s) {v : ViewId} (hv : v < s.nextView) :
    s.webviewState (s.views v).id = if (s.views v).dropped then none else some v := by
  split
  · next hd =>
      cases hw : s.webviewState (s.views v).id with
      | none => rfl
      | some u =>
          obtain ⟨hu, hlive, heq⟩ := (hi.entry _ u).1 hw
          rw [hi.ids u v hu hv heq, hd] at hlive
          cases hlive
  · next hd => exact (hi.entry _ v).2 ⟨hv, by simpa using hd, rfl⟩

theorem TaskStep.function {x x' : Task} (h : TaskStep s x x') : x'.function = x.function := by
  cases h <;> rfl

theorem newTask_function {s : State} {v owner : ViewId} {a : Address} {protocolIndex : Nat}
    {wellFormed : Bool} {u : ViewId}
    (h : (s.newTask v owner a protocolIndex wellFormed).function = some u) :
    s.webviewState (s.views owner).id = some u := by
  have hfun : s.function owner protocolIndex = some u := by
    simp only [State.newTask] at h
    split at h
    · next hf =>
        rw [hf]
        split at h
        · exact h
        · cases h
    · cases h
  simp only [State.function] at hfun
  split at hfun
  · next hw =>
      rw [hw]
      split at hfun
      · exact hfun
      · cases hfun
  · cases hfun

theorem newTask_retains {s : State} {v owner : ViewId} {a : Address} {protocolIndex : Nat}
    {wellFormed : Bool}
    (h : (s.newTask v owner a protocolIndex wellFormed).responder.retains = true) :
    ∃ u, (s.newTask v owner a protocolIndex wellFormed).function = some u := by
  simp only [State.newTask] at h ⊢
  split at h
  · next u hf =>
      split at h
      · next hw => exact ⟨u, by simp only [if_pos hw]⟩
      · cases h
  · cases h

/-- The web view of the handler is there, and the function is one of its own. -/
structure OwnFunction (s : State) (x : Task) : Prop where
  owner : x.owner < s.nextView
  function : ∀ u, x.function = some u → u = x.owner

theorem ownFunctions_of_reachable (h : schemeTasks.ReachVia OwnId s) :
    ∀ t, t < s.nextTask → OwnFunction s (s.tasks t) := by
  refine h.invariant (I := fun s => ∀ t, t < s.nextTask → OwnFunction s (s.tasks t)) ?_ ?_
  · intro t ht
    exact absurd ht (Nat.not_lt_zero t)
  · intro s act s' hr hi _ hst t ht
    have hst := step_cases hst
    obtain ⟨ht, htask⟩ | ⟨-, v, owner, a, protocolIndex, wellFormed, -, -, ho, -, htask, -⟩ :=
      task_cases hst ht
    · constructor
      · rw [htask.sameKey.owner]
        exact Nat.lt_of_lt_of_le (hi t ht).owner (nextView_step hst)
      · rw [htask.sameKey.owner, htask.function]
        exact (hi t ht).function
    · have howner := (newTask_key s v owner a protocolIndex wellFormed).2.1
      rw [htask]
      constructor
      · rw [howner]
        exact Nat.lt_of_lt_of_le ho (nextView_step hst)
      · intro u hu
        have hu := newTask_function hu
        rw [(entries_of_reachable hr).webviewState ho] at hu
        rw [howner]
        split at hu
        · cases hu
        · cases hu
          rfl

/-- If no id is used twice, the entry of an id is that of its web view until the drop, and a
request is handled by a function of the web view that its handler was made for. -/
theorem own_functions (h : schemeTasks.ReachVia OwnId s) :
    (∀ v, v < s.nextView →
      s.webviewState (s.views v).id = if (s.views v).dropped then none else some v) ∧
    ∀ t, t < s.nextTask → ∀ u, (s.tasks t).function = some u → u = (s.tasks t).owner :=
  ⟨fun _ hv => (entries_of_reachable h).webviewState hv,
    fun t ht => (ownFunctions_of_reachable h t ht).function⟩

/-- Two web views, the first of which is dropped. -/
theorem own_functions_two : ∃ s : State, (s.nextView = 2 ∧ s.nextTask = 2 ∧
      (s.tasks 1).function = some 1) ∧
    (∀ v, v < s.nextView →
      s.webviewState (s.views v).id = if (s.views v).dropped then none else some v) ∧
    ∀ t, t < s.nextTask → ∀ u, (s.tasks t).function = some u → u = (s.tasks t).owner := by
  have hrun : ∃ s, schemeTasks.ReachVia OwnId s ∧ _ := System.exists_reachVia
    [.new ['a'] 1, .new ['b'] 2, .startTask 0 0 16 0 true, .drop 0, .startTask 0 1 32 1 true]
    (fun s => s.nextView == 2 && s.nextTask == 2 && (s.tasks 1).function == some 1) (by decide)
  obtain ⟨s, hs, hp⟩ := hrun
  simp only [Bool.and_eq_true, beq_iff_eq, and_assoc] at hp
  exact ⟨s, hp, own_functions hs⟩

/-! ## After the drop -/

/-- The calls up to the next look at `WEBVIEW_STATE`. -/
def owed : List Instr → Nat
  | .call _ :: code => owed code + 1
  | .checkTask :: code | .removeTaskKey :: code => owed code
  | .checkWebviewId :: _ | [] => 0

def Responder.owed : Responder → Nat
  | .running code => WKWebView.owed code
  | .none | .waiting | .done => 0

theorem owed_le_one (r : HttpResponse) {code : List Instr} (h : code <:+ responder r) :
    owed code ≤ 1 := by
  have htails : ∀ code ∈ (responder r).tails, owed code ≤ 1 := by
    simp [responder, validate, owed]
  exact htails code ((List.mem_tails _ _).2 h)

theorem Coded.owed_le_one {x : Task} (h : Coded x) : x.responder.owed ≤ 1 := by
  cases h with
  | running r pre code hcode hsplit =>
      rw [hcode]
      exact WKWebView.owed_le_one r ⟨pre, hsplit.symm⟩
  | none hn => simp [hn, Responder.owed]
  | waiting hw => simp [hw, Responder.owed]
  | done _ hd => simp [hd, Responder.owed]

/-- The calls so far. -/
def Task.told (x : Task) : Nat := x.calls.length + x.late.length

theorem TaskStep.told_le {x x' : Task} (h : TaskStep s x x')
    (hd : s.checkWebviewIdValid (s.views x.owner).id = false) :
    x'.told + x'.responder.owed ≤ x.told + x.responder.owed := by
  cases h with
  | same | stop => exact Nat.le_refl _
  | respond r hw => simp [Task.told, hw, Responder.owed, responder, validate, owed]
  | ends => simp [Task.told, Responder.owed]
  | pass i rest hr hp =>
      cases i with
      | checkWebviewId =>
          rw [State.passes, hd] at hp
          cases hp
      | checkTask | removeTaskKey => simp [Task.told, hr, Responder.owed, owed]
      | call c => cases hp
  | call c rest hr =>
      simp only [Task.told, hr, Responder.owed, owed, List.length_append, List.length_singleton]
      omega
  | late c rest hr =>
      simp only [Task.told, hr, Responder.owed, owed, List.length_append, List.length_singleton]
      omega

theorem dropped_step {act : Action} (h : ViewStep s act s') {v : ViewId} (hv : v < s.nextView)
    (hd : (s.views v).dropped = true) : (s'.views v).dropped = true := by
  cases h with
  | same _ _ hviews =>
      rw [(hviews v).2]
      exact hd
  | new _ _ _ _ _ _ _ hviews =>
      rw [(hviews v (Nat.ne_of_lt hv)).2]
      exact hd
  | drop w _ _ _ _ _ hdrop hviews =>
      by_cases hvw : v = w
      · rw [hvw]
        exact hdrop
      · rw [hviews v hvw]
        exact hd

theorem told_run (h : schemeTasks.ReachVia OwnId s) {t : TaskId} (ht : t < s.nextTask)
    (hd : (s.views (s.tasks t).owner).dropped = true) {acts : List Action}
    (hrun : schemeTasks.runVia OwnId s acts = some s') :
    (s'.tasks t).told + (s'.tasks t).responder.owed ≤
      (s.tasks t).told + (s.tasks t).responder.owed := by
  induction acts generalizing s with
  | nil =>
      cases hrun
      exact Nat.le_refl _
  | cons act acts ih =>
      simp only [System.runVia] at hrun
      split at hrun
      · next hok =>
          obtain ⟨s₁, hst, hrun⟩ := Option.bind_eq_some_iff.1 hrun
          have hstep := step_cases hst
          have htask := task_step hstep ht
          have howner := (ownFunctions_of_reachable h t ht).owner
          have hinvalid : s.checkWebviewIdValid (s.views (s.tasks t).owner).id = false := by
            simp [State.checkWebviewIdValid, (entries_of_reachable h).webviewState howner, hd]
          calc (s'.tasks t).told + (s'.tasks t).responder.owed
            _ ≤ (s₁.tasks t).told + (s₁.tasks t).responder.owed := by
                refine ih (.step h hok hst) (Nat.lt_of_lt_of_le ht (nextTask_le hstep)) ?_ hrun
                rw [htask.sameKey.owner]
                exact dropped_step (view_step hstep) howner hd
            _ ≤ (s.tasks t).told + (s.tasks t).responder.owed := htask.told_le hinvalid
      · cases hrun

/-- From the drop of its handler's web view on, a task gets at most one call more. -/
theorem calls_after_drop (h : schemeTasks.ReachVia OwnId s) {t : TaskId} (ht : t < s.nextTask)
    (hd : (s.views (s.tasks t).owner).dropped = true) {acts : List Action}
    (hrun : schemeTasks.runVia OwnId s acts = some s') :
    (s'.tasks t).told ≤ (s.tasks t).told + 1 := by
  have hle := told_run h ht hd hrun
  have howed := (coded_of_reachable h ht).owed_le_one
  omega

/-- The web view is dropped between the checks and the call. -/
theorem calls_after_drop_one : ∃ s s' : State, 0 < s.nextTask ∧
    (s.views (s.tasks 0).owner).dropped = true ∧
    schemeTasks.runVia OwnId s [.advance 0, .advance 0] = some s' ∧
    (s'.tasks 0).calls = [.didReceiveResponse { status := 200 }] ∧
    (s'.tasks 0).told ≤ (s.tasks 0).told + 1 := by
  have hrun : ∃ s, schemeTasks.ReachVia OwnId s ∧ _ := System.exists_reachVia
    ([.new ['a'] 1, .startTask 0 0 16 0 true, .respond 0 { status := 200 }] ++
      List.replicate 6 (.advance 0) ++ [.drop 0])
    (fun s => decide (0 < s.nextTask) && (s.views (s.tasks 0).owner).dropped &&
      (schemeTasks.runVia OwnId s [.advance 0, .advance 0]).any fun s' =>
        (s'.tasks 0).calls == [.didReceiveResponse { status := 200 }]) (by decide)
  obtain ⟨s, hs, hp⟩ := hrun
  simp only [Bool.and_eq_true, decide_eq_true_eq, Option.any_eq_true, beq_iff_eq] at hp
  obtain ⟨⟨ht, hd⟩, s', hrun, hc⟩ := hp
  exact ⟨s, s', ht, hd, hrun, hc, calls_after_drop hs ht hd hrun⟩

end Wxp.WKWebView
