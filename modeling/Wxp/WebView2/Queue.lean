import Wxp.WebView2.Operations
import Mathlib.Data.List.Nodup

/-!
# WebView2 — the creation queue

One creation is in flight at most, and while tasks wait there is one
(`creation_serialised`). What the queue does within a step moves tasks of the queue only
(`Advanced`), so everything else about the thread is proved without it.
-/

namespace Wxp.WebView2

variable (refused : WebViewId → Bool) {s s' : State} {w w' : WebViewId}

namespace State

/-! ## What is not part of the web views -/

/-- The stages that the queue gives. -/
def Queued (g : Stage) : Prop :=
  g = .settled ∨ g = .queued ∨ ∃ env, g = .creating env

/-- The step takes web views of `ts` out of the queue, and leaves everything about the
web views but their stages alone. -/
structure Advanced (ts : List Task) (s s' : State) : Prop where
  webview : ∀ w, s'.webviews w = { s.webviews w with stage := (s'.webviews w).stage }
  stage : ∀ w, (s'.webviews w).stage = (s.webviews w).stage ∨
    w ∈ ts.map Task.webview ∧ Queued (s'.webviews w).stage
  nextWebView : s'.nextWebView = s.nextWebView
  controllers : s'.controllers = s.controllers
  nextController : s'.nextController = s.nextController
  owner : s'.owner = s.owner
  panicked : s'.panicked = s.panicked

theorem advanced_refl (ts : List Task) (s : State) : Advanced ts s s :=
  ⟨fun _ => rfl, fun _ => .inl rfl, rfl, rfl, rfl, rfl, rfl⟩

theorem Advanced.of_setQueue {ts : List Task} {q : Queue} (h : Advanced ts (s.setQueue q) s') :
    Advanced ts s s' :=
  ⟨h.webview, h.stage, h.nextWebView, h.controllers, h.nextController, h.owner, h.panicked⟩

theorem Advanced.cons {ts : List Task} (h : Advanced ts s s') (t : Task) :
    Advanced (t :: ts) s s' :=
  ⟨h.webview, fun w => (h.stage w).imp_right fun hw => ⟨List.mem_cons_of_mem _ hw.1, hw.2⟩,
    h.nextWebView, h.controllers, h.nextController, h.owner, h.panicked⟩

/-- A stage set before, by the queue. -/
theorem Advanced.of_setStage {ts : List Task} {g : Stage} (hw : w ∈ ts.map Task.webview)
    (hg : Queued g) (h : Advanced ts (s.setStage w g) s') : Advanced ts s s' := by
  refine ⟨fun w' => ?_, fun w' => ?_, h.nextWebView, h.controllers, h.nextController, h.owner,
    h.panicked⟩
  · rw [h.webview w']
    simp only [setStage_webviews]
    split <;> simp_all
  · have hst := h.stage w'
    simp only [setStage_webviews] at hst
    by_cases heq : w' = w
    · obtain hst | hst := hst
      · rw [if_pos heq] at hst
        exact .inr ⟨heq ▸ hw, by rw [hst]; exact hg⟩
      · exact .inr hst
    · rwa [if_neg heq] at hst

theorem advanced_runTask {ts : List Task} {t : Task} {complete : State → State}
    (hc : ∀ s, Advanced ts s (complete s)) (s : State) :
    Advanced (t :: ts) s (runTask refused complete t s) := by
  have ht : t.webview ∈ (t :: ts).map Task.webview := by simp
  simp only [runTask]
  split
  · exact (((hc _).cons t).of_setStage ht (.inl rfl)).of_setQueue
  · split
    · exact (((hc _).cons t).of_setStage ht (.inl rfl)).of_setQueue
    · exact ((advanced_refl _ _).of_setStage ht (.inr (.inr ⟨t.env, rfl⟩))).of_setQueue

theorem advanced_complete (ts : List Task) (s : State) :
    Advanced ts s (completeControllerCreation refused ts s) := by
  induction ts generalizing s with
  | nil => exact (advanced_refl [] _).of_setQueue
  | cons t ts ih => exact (advanced_runTask refused ih _).of_setQueue

theorem advanced_enqueue (s : State) (t : Task) :
    Advanced (t :: s.queue.pending) s (s.enqueueControllerCreation refused t) := by
  have ht : t.webview ∈ (t :: s.queue.pending).map Task.webview := by simp
  simp only [enqueueControllerCreation]
  split
  · exact ((advanced_refl _ _).of_setQueue).of_setStage ht (.inr (.inl rfl))
  · have h := advanced_runTask refused (t := t)
      (advanced_complete refused s.queue.pending)
      ((s.setStage t.webview .queued).setQueue
        { s.queue with enqueued := s.queue.enqueued ++ [t], active := true })
    exact h.of_setQueue.of_setStage ht (.inr (.inl rfl))

/-! ## The queue's invariant -/

/-- What holds of the tasks that wait, and of the web views. -/
structure Waiting (ts : List Task) (s : State) : Prop where
  history : s.queue.enqueued = s.queue.started ++ ts
  nodup : (s.queue.enqueued.map Task.webview).Nodup
  queued : ∀ w, (s.webviews w).stage = .queued ↔ w ∈ ts.map Task.webview
  before : ∀ w, (s.webviews w).stage = .environment → w ∉ s.queue.enqueued.map Task.webview
  fresh : ∀ w, s.nextWebView ≤ w →
    (s.webviews w).stage = .settled ∧ w ∉ s.queue.enqueued.map Task.webview

/-- Inside `complete_controller_creation`: no creation is in flight. -/
structure Between (ts : List Task) (s : State) : Prop extends Waiting ts s where
  active : s.queue.active = true
  none : ∀ w env, (s.webviews w).stage ≠ .creating env

/-- Between two steps of the thread. -/
structure Serialised (s : State) : Prop extends Waiting s.queue.pending s where
  one : ∀ w w' env env', (s.webviews w).stage = .creating env →
    (s.webviews w').stage = .creating env' → w = w'
  active : s.queue.active = true ↔ ∃ w env, (s.webviews w).stage = .creating env
  idle : s.queue.active = false → s.queue.pending = []

theorem Waiting.of_eq {ts : List Task} (h : Waiting ts s)
    (he : s'.queue.enqueued = s.queue.enqueued) (hst : s'.queue.started = s.queue.started)
    (hg : ∀ w, (s'.webviews w).stage = (s.webviews w).stage)
    (hn : s.nextWebView ≤ s'.nextWebView) : Waiting ts s' where
  history := by rw [he, hst, h.history]
  nodup := by rw [he]; exact h.nodup
  queued w := by rw [hg]; exact h.queued w
  before w := by rw [hg, he]; exact h.before w
  fresh w hw := by rw [hg, he]; exact h.fresh w (hn.trans hw)

theorem KeepsQueue.serialised (h : KeepsQueue s s') (hs : Serialised s) : Serialised s' where
  toWaiting := by
    rw [h.queue]
    exact hs.toWaiting.of_eq (by rw [h.queue]) (by rw [h.queue]) h.stage h.nextWebView.ge
  one w w' env env' := by rw [h.stage, h.stage]; exact hs.one w w' env env'
  active := by
    simp only [h.queue, h.stage]
    exact hs.active
  idle := by rw [h.queue]; exact hs.idle

/-- The first task that waits is run: its web view leaves the queue. -/
theorem Waiting.setStage {ts : List Task} {t : Task} (h : Waiting (t :: ts) s) {g : Stage}
    (hg : g ≠ .queued) (hg' : g ≠ .environment) {q : Queue}
    (hq : q.enqueued = s.queue.enqueued) (hq' : q.started = s.queue.started ++ [t]) :
    Waiting ts ((s.setQueue q).setStage t.webview g) where
  history := by
    show q.enqueued = q.started ++ ts
    rw [hq, hq', h.history]
    simp
  nodup := by
    show (q.enqueued.map Task.webview).Nodup
    rw [hq]
    exact h.nodup
  queued w := by
    have hnd := h.nodup
    rw [h.history, List.map_append, List.map_cons, List.nodup_append] at hnd
    have ht : t.webview ∉ ts.map Task.webview := (List.nodup_cons.1 hnd.2.1).1
    rw [setStage_webviews]
    by_cases heq : w = t.webview
    · simp [heq, hg, ht]
    · have hw := h.queued w
      rw [List.map_cons, List.mem_cons, or_iff_right heq] at hw
      rw [if_neg heq]
      exact hw
  before w := by
    show _ → w ∉ q.enqueued.map Task.webview
    rw [setStage_webviews, hq]
    by_cases heq : w = t.webview
    · simp [heq, hg']
    · rw [if_neg heq]
      exact h.before w
  fresh w hw := by
    show _ ∧ w ∉ q.enqueued.map Task.webview
    have hf := h.fresh w hw
    have hmem : t.webview ∈ s.queue.enqueued.map Task.webview := by simp [h.history]
    have heq : w ≠ t.webview := by
      intro heq
      exact hf.2 (heq ▸ hmem)
    rw [setStage_webviews, hq, if_neg heq]
    exact hf

theorem serialised_runTask {ts : List Task} {t : Task} {complete : State → State}
    (hc : ∀ s, Between ts s → Serialised (complete s)) (h : Between (t :: ts) s)
    (hp : s.queue.pending = ts) : Serialised (runTask refused complete t s) := by
  have hfail : Between ts ((s.setQueue { s.queue with started := s.queue.started ++ [t] }).setStage
      t.webview .settled) := by
    refine ⟨h.toWaiting.setStage (by simp) (by simp) rfl rfl, h.active, fun w env => ?_⟩
    rw [setStage_webviews]
    by_cases heq : w = t.webview
    · simp [heq]
    · rw [if_neg heq]
      exact h.none w env
  have hcreating : ∀ w env, (((s.setQueue { s.queue with
      started := s.queue.started ++ [t] }).setStage t.webview (.creating t.env)).webviews w).stage =
        .creating env → w = t.webview := by
    intro w env hw
    by_contra heq
    rw [setStage_webviews, if_neg heq] at hw
    exact h.none w env hw
  simp only [runTask]
  split
  · exact hc _ hfail
  · split
    · exact hc _ hfail
    · constructor
      · show Waiting s.queue.pending _
        rw [hp]
        exact h.toWaiting.setStage (by simp) (by simp) rfl rfl
      · intro w w' env env' hw hw'
        rw [hcreating w env hw, hcreating w' env' hw']
      · refine iff_of_true h.active ⟨t.webview, t.env, ?_⟩
        simp
      · intro hact
        exact absurd h.active (by rw [show s.queue.active = false from hact]; simp)

theorem serialised_complete (ts : List Task) (h : Between ts s) :
    Serialised (completeControllerCreation refused ts s) := by
  induction ts generalizing s with
  | nil =>
      refine ⟨h.toWaiting.of_eq rfl rfl (fun _ => rfl) (Nat.le_refl _), fun w w' env env' hw => ?_,
        ?_, fun _ => rfl⟩
      · exact absurd hw (h.none w env)
      · refine iff_of_false (by simp [completeControllerCreation, setQueue]) ?_
        rintro ⟨w, env, hw⟩
        exact h.none w env hw
  | cons t ts ih =>
      exact serialised_runTask refused (fun s => ih)
        ⟨h.toWaiting.of_eq rfl rfl (fun _ => rfl) (Nat.le_refl _), h.active, h.none⟩ rfl

/-- A web view outside the queue goes on. -/
theorem Waiting.setStage_of_ne {ts : List Task} (h : Waiting ts s) {g : Stage}
    (hw : (s.webviews w).stage ≠ .queued) (hg : g ≠ .queued) (hg' : g ≠ .environment)
    (hn : w < s.nextWebView ∨ g = .settled) : Waiting ts (s.setStage w g) where
  history := h.history
  nodup := h.nodup
  queued w' := by
    rw [setStage_webviews]
    by_cases heq : w' = w
    · subst heq
      have hnot := mt (h.queued w').2 hw
      simp [hg, hnot]
    · rw [if_neg heq]
      exact h.queued w'
  before w' := by
    rw [setStage_webviews]
    by_cases heq : w' = w
    · simp [heq, hg']
    · rw [if_neg heq]
      exact h.before w'
  fresh w' hw' := by
    have hf := h.fresh w' hw'
    rw [setStage_webviews]
    by_cases heq : w' = w
    · subst heq
      obtain hlt | rfl := hn
      · exact absurd hlt (Nat.not_lt.2 hw')
      · exact ⟨by simp, hf.2⟩
    · rw [if_neg heq]
      exact hf

theorem Serialised.setStage (h : Serialised s) {g : Stage}
    (hw : (s.webviews w).stage ≠ .queued) (hc : ∀ env, (s.webviews w).stage ≠ .creating env)
    (hg : g ≠ .queued) (hg' : g ≠ .environment) (hgc : ∀ env, g ≠ .creating env)
    (hn : w < s.nextWebView ∨ g = .settled) : Serialised (s.setStage w g) := by
  have hcreating : ∀ w' env, ((s.setStage w g).webviews w').stage = .creating env ↔
      (s.webviews w').stage = .creating env := by
    intro w' env
    rw [setStage_webviews]
    by_cases heq : w' = w
    · simp [heq, hgc env, hc env]
    · rw [if_neg heq]
  refine ⟨h.toWaiting.setStage_of_ne hw hg hg' hn, fun w₁ w₂ env env' => ?_, ?_, h.idle⟩
  · rw [hcreating, hcreating]
    exact h.one w₁ w₂ env env'
  · simp only [hcreating]
    exact h.active

/-- The web view whose creation is in flight completes. -/
theorem Serialised.between (h : Serialised s) {env : EnvironmentId}
    (hw : (s.webviews w).stage = .creating env) :
    Between s.queue.pending (s.setStage w .settled) where
  toWaiting := h.toWaiting.setStage_of_ne (by simp [hw]) (by simp) (by simp) (.inr rfl)
  active := h.active.2 ⟨w, env, hw⟩
  none w' env' := by
    rw [setStage_webviews]
    by_cases heq : w' = w
    · simp [heq]
    · rw [if_neg heq]
      exact fun hw' => heq (h.one w' w env' env hw' hw)

theorem serialised_enqueue (h : Serialised s) {t : Task}
    (ht : (s.webviews t.webview).stage = .environment) :
    Serialised (s.enqueueControllerCreation refused t) := by
  have hlt : t.webview < s.nextWebView := by
    by_contra hge
    have hf := (h.fresh t.webview (Nat.le_of_not_lt hge)).1
    simp [hf] at ht
  have hwaiting : ∀ active pending, Waiting (s.queue.pending ++ [t])
      ((s.setStage t.webview .queued).setQueue { s.queue with
        enqueued := s.queue.enqueued ++ [t], active, pending }) := by
    intro active pending
    have hnew := h.before t.webview ht
    refine ⟨?_, ?_, fun w => ?_, fun w => ?_, fun w hw => ?_⟩
    · show s.queue.enqueued ++ [t] = s.queue.started ++ (s.queue.pending ++ [t])
      rw [h.history, List.append_assoc]
    · show ((s.queue.enqueued ++ [t]).map Task.webview).Nodup
      rw [List.map_append, List.nodup_append]
      refine ⟨h.nodup, by simp, ?_⟩
      intro a ha b hb
      rw [List.map_singleton, List.mem_singleton] at hb
      exact fun heq => hnew (hb ▸ heq ▸ ha)
    · have hq := h.queued w
      show ((s.setStage t.webview .queued).webviews w).stage = .queued ↔ _
      rw [setStage_webviews]
      by_cases heq : w = t.webview
      · simp [heq]
      · simp [heq, hq]
    · show ((s.setStage t.webview .queued).webviews w).stage = _ →
        w ∉ (s.queue.enqueued ++ [t]).map Task.webview
      rw [setStage_webviews]
      by_cases heq : w = t.webview
      · simp [heq]
      · simpa [heq] using h.before w
    · have hf := h.fresh w hw
      have heq : w ≠ t.webview := fun heq => absurd hlt (Nat.not_lt.2 (heq ▸ hw))
      show ((s.setStage t.webview .queued).webviews w).stage = _ ∧
        w ∉ (s.queue.enqueued ++ [t]).map Task.webview
      rw [setStage_webviews, if_neg heq]
      exact ⟨hf.1, by simpa [heq] using hf.2⟩
  have hcreating : ∀ w env, ((s.setStage t.webview .queued).webviews w).stage = .creating env ↔
      (s.webviews w).stage = .creating env := by
    intro w env
    rw [setStage_webviews]
    by_cases heq : w = t.webview
    · simp [heq, ht]
    · rw [if_neg heq]
  simp only [enqueueControllerCreation]
  split
  · next hactive =>
      refine ⟨hwaiting _ _, fun w w' env env' => ?_, ?_, fun hidle => ?_⟩
      · show ((s.setStage t.webview .queued).webviews w).stage = _ →
          ((s.setStage t.webview .queued).webviews w').stage = _ → _
        rw [hcreating, hcreating]
        exact h.one w w' env env'
      · show s.queue.active = true ↔
          ∃ w env, ((s.setStage t.webview .queued).webviews w).stage = .creating env
        simp only [hcreating]
        exact h.active
      · exact absurd hactive (by rw [show s.queue.active = false from hidle]; simp)
  · next hidle =>
      have hp : s.queue.pending = [] := h.idle (by simpa using hidle)
      have hbetween : Between (t :: s.queue.pending)
          ((s.setStage t.webview .queued).setQueue { s.queue with
            enqueued := s.queue.enqueued ++ [t], active := true }) := by
        refine ⟨?_, rfl, fun w env => ?_⟩
        · have hone : t :: s.queue.pending = s.queue.pending ++ [t] := by rw [hp]; rfl
          rw [hone]
          exact hwaiting true _
        · show ((s.setStage t.webview .queued).webviews w).stage ≠ _
          intro hw
          exact absurd (h.active.2 ⟨w, env, (hcreating w env).1 hw⟩) hidle
      exact serialised_runTask refused (fun _ => serialised_complete refused _) hbetween rfl

theorem serialised_takePending (h : Serialised s) {env : EnvironmentId} {c : ControllerId}
    (hw : (s.webviews w).stage ≠ .queued) (hc : ∀ env, (s.webviews w).stage ≠ .creating env)
    (hn : w < s.nextWebView) : Serialised (s.takePending w env c) := by
  simp only [takePending]
  split
  · exact ((operates_call s c [.close]).serialised h).setStage hw hc (by simp) (by simp) (by simp)
      (.inr rfl)
  · have hk := operates_setInner s w { (s.webviews w).state with
      env := some env, controller := some c, webview := some c, pendingBounds := none,
      pendingNavigation := none }
    exact (hk.serialised h).setStage (by rw [hk.stage]; exact hw) (by rw [hk.stage]; exact hc)
      (by simp) (by simp) (by simp) (.inl (by rw [hk.nextWebView]; exact hn))

theorem replayStage_eq (c : ControllerId) (rest : List Replay) :
    replayStage c rest = .settled ∨ replayStage c rest = .replaying c rest := by
  cases rest with
  | nil => exact .inl rfl
  | cons r rest => exact .inr rfl

/-- A new web view, before its creation is begun. -/
theorem Serialised.addWebView (h : Serialised s) {v : WebView} (hv : v.stage = .environment) :
    Serialised (s.addWebView v) := by
  have hf := h.fresh s.nextWebView (Nat.le_refl _)
  have hstage : ∀ w g, g ≠ .environment → g ≠ .settled →
      (((s.addWebView v).webviews w).stage = g ↔ (s.webviews w).stage = g) := by
    intro w g hg hg'
    rw [addWebView_webviews]
    by_cases heq : w = s.nextWebView
    · rw [if_pos heq, hv, heq, hf.1]
      exact iff_of_false (Ne.symm hg) (Ne.symm hg')
    · rw [if_neg heq]
  refine ⟨⟨h.history, h.nodup, fun w => ?_, fun w hw => ?_, fun w hw => ?_⟩,
    fun w w' env env' hw hw' => ?_, ?_, h.idle⟩
  · exact (hstage w .queued (by simp) (by simp)).trans (h.queued w)
  · by_cases heq : w = s.nextWebView
    · exact heq ▸ hf.2
    · rw [addWebView_webviews, if_neg heq] at hw
      exact h.before w hw
  · have hlt : s.nextWebView + 1 ≤ w := hw
    rw [addWebView_webviews, if_neg (Nat.ne_of_gt hlt)]
    exact h.fresh w (Nat.le_of_succ_le hlt)
  · exact h.one w w' env env' ((hstage w _ (by simp) (by simp)).1 hw)
      ((hstage w' _ (by simp) (by simp)).1 hw')
  · refine h.active.trans ?_
    constructor
    · rintro ⟨w, env, hw⟩
      exact ⟨w, env, (hstage w _ (by simp) (by simp)).2 hw⟩
    · rintro ⟨w, env, hw⟩
      exact ⟨w, env, (hstage w _ (by simp) (by simp)).1 hw⟩

theorem serialised_new (h : Serialised s) (a : Attributes) (b : Bounds) :
    Serialised (s.new refused a b) := by
  have hview := h.addWebView (v := .created a) rfl
  simp only [new]
  split
  · have henv := serialised_enqueue refused hview
      (t := ⟨s.nextWebView, ‹_›⟩) (by simp [WebView.created])
    exact (keepsHandles_setBoundsInner _ _ b).serialised henv
  · exact (keepsHandles_setBoundsInner _ _ b).serialised hview

/-- Behind the queue the web view of the callback is where it was left. -/
theorem Serialised.stage_completed (h : Serialised s) {env : EnvironmentId}
    (hw : (s.webviews w).stage = .creating env) :
    ((completeControllerCreation refused s.queue.pending (s.setStage w .settled)).webviews
      w).stage = .settled := by
  obtain hst | ⟨hmem, _⟩ :=
    (advanced_complete refused s.queue.pending (s.setStage w .settled)).stage w
  · rw [hst, setStage_webviews, if_pos rfl]
  · have hq := (h.queued w).2 hmem
    simp [hq] at hw

theorem serialised_controllerCompleted (h : Serialised s) {env : EnvironmentId}
    (hw : (s.webviews w).stage = .creating env) (ok : Bool) :
    Serialised (s.controllerCompleted refused w env ok) := by
  have hs : Serialised (completeControllerCreation refused s.queue.pending
      (s.setStage w .settled)) := serialised_complete refused _ (h.between hw)
  have hstage := h.stage_completed refused hw
  have hlt : w < (completeControllerCreation refused s.queue.pending
      (s.setStage w .settled)).nextWebView := by
    rw [(advanced_complete refused s.queue.pending (s.setStage w .settled)).nextWebView]
    by_contra hge
    have hf := (h.fresh w (Nat.le_of_not_lt hge)).1
    simp [hf] at hw
  simp only [controllerCompleted]
  split
  · generalize completeControllerCreation refused s.queue.pending (s.setStage w .settled) = s₁
      at hs hstage hlt
    have hk : KeepsQueue s₁ (s₁.newController w) := ⟨rfl, rfl, fun _ => rfl⟩
    have hst : ((s₁.newController w).webviews w).stage = .settled := hstage
    simp only [beginFinish]
    split
    · have hk' := operates_call (s₁.newController w) s₁.nextController [.close]
      exact (hk'.serialised (hk.serialised hs)).setStage (by simp [hst]) (by simp [hst]) (by simp) (by simp)
        (by simp) (.inr rfl)
    · exact (hk.serialised hs).setStage (by simp [hst]) (by simp [hst]) (by simp) (by simp)
        (by simp) (.inl hlt)
  · exact hs

end State

open State

theorem serialised_step {a : Action} (h : Serialised s) (hst : step refused s a = some s') :
    Serialised s' := by
  have hlt : ∀ w, (s.webviews w).stage ≠ .settled → w < s.nextWebView := by
    intro w hw
    by_contra hge
    exact hw (h.fresh w (Nat.le_of_not_lt hge)).1
  cases a with
  | new attrs b =>
      cases hst
      exact serialised_new refused h attrs b
  | op w o =>
      simp only [step] at hst
      split at hst
      · cases hst
        exact (operates_applyOp s w o).serialised h
      · cases hst
  | environmentCompleted w env =>
      simp only [step] at hst
      split at hst
      · next env hw => 
          cases hst
          exact serialised_enqueue refused h hw
      · next hw =>
          cases hst
          exact h.setStage (by simp [hw]) (by simp [hw]) (by simp) (by simp) (by simp) (.inr rfl)
      · cases hst
  | controllerCompleted w ok =>
      simp only [step] at hst
      split at hst
      · next env hw =>
          cases hst
          exact serialised_controllerCompleted refused h hw ok
      · cases hst
  | initialized w failedAfter =>
      simp only [step] at hst
      split at hst
      · next env c visible hw =>
          cases hst
          have hn := hlt w (by simp [hw])
          cases failedAfter with
          | none =>
              exact serialised_takePending ((operates_call s c _).serialised h) (by simp [hw])
                (by simp [hw]) hn
          | some n =>
              have hk := (operates_call s c (((s.webviews w).attributes.initCalls visible).take
                n)).trans (operates_call _ c [.close])
              exact (hk.serialised h).setStage (by simp [hw]) (by simp [hw]) (by simp) (by simp)
                (by simp) (.inr rfl)
      · cases hst
  | replay w =>
      simp only [step] at hst
      split at hst
      · next c r rest hw =>
          cases hst
          have hk := keepsHandles_perform s w c r
          have hn := hlt w (by simp [hw])
          have hneutral : ∀ g, g = .queued ∨ g = .environment ∨ (∃ env, g = .creating env) →
              replayStage c rest ≠ g := by
            rintro g hg
            obtain he | he := replayStage_eq c rest <;> obtain rfl | rfl | ⟨env, rfl⟩ := hg <;>
              simp [he]
          exact (hk.serialised h).setStage (by rw [hk.stage, hw]; simp)
            (by rw [hk.stage, hw]; simp) (hneutral _ (.inl rfl)) (hneutral _ (.inr (.inl rfl)))
            (fun env => hneutral _ (.inr (.inr ⟨env, rfl⟩))) (.inl (by rw [hk.nextWebView]; exact hn))
      · cases hst

theorem serialised_of_reachable (hs : (thread refused).Reachable s) : Serialised s := by
  refine System.Reachable.invariant (I := Serialised) ?_
    (fun s a s' _ h hst => serialised_step refused h hst) hs
  refine ⟨⟨rfl, List.nodup_nil, fun w => ?_, fun w hw => ?_, fun w _ => ?_⟩, ?_, ?_, fun _ => rfl⟩
  · simp [thread]
  · simp [thread] at hw
  · simp [thread]
  · simp [thread]
  · simp [thread]

/-- In every interleaving at most one creation of a controller is in flight, the queue is
active exactly while one is, the tasks are run in the order they came, each once, and
while tasks wait a creation is in flight. -/
theorem creation_serialised (refused : WebViewId → Bool) {s : State}
    (hs : (thread refused).Reachable s) :
    (∀ w w' env env', (s.webviews w).stage = .creating env →
      (s.webviews w').stage = .creating env' → w = w') ∧
    (s.queue.active = true ↔ ∃ w env, (s.webviews w).stage = .creating env) ∧
    s.queue.enqueued = s.queue.started ++ s.queue.pending ∧
    (s.queue.enqueued.map Task.webview).Nodup ∧
    (∀ w, (s.webviews w).stage = .queued ↔ w ∈ s.queue.pending.map Task.webview) ∧
    (s.queue.pending ≠ [] → ∃ w env, (s.webviews w).stage = .creating env) := by
  have h := serialised_of_reachable refused hs
  refine ⟨h.one, h.active, h.history, h.nodup, h.queued, fun hp => h.active.1 ?_⟩
  by_contra hidle
  exact hp (h.idle (by simpa using hidle))

theorem creation_serialised_two :
    ∃ s, (thread fun _ => false).Reachable s ∧ s.queue.pending = [⟨1, 0⟩] ∧
      (∀ w, (s.webviews w).stage = .queued ↔ w ∈ s.queue.pending.map Task.webview) := by
  obtain ⟨s, hs, hp⟩ := System.exists_reachable (S := thread fun _ => false)
    [.new {} ⟨0, 0, 0, 0⟩, .new {} ⟨0, 0, 0, 0⟩, .environmentCompleted 0 (some 0),
      .environmentCompleted 1 (some 0)] (fun s => s.queue.pending == [⟨1, 0⟩]) (by decide)
  obtain ⟨_, _, _, _, hqueued, _⟩ := creation_serialised (fun _ => false) hs
  exact ⟨s, hs, by simpa using hp, hqueued⟩

/-! ## How long a task waits -/

/-- The histories only grow. -/
structure Grows (s s' : State) : Prop where
  enqueued : s.queue.enqueued <+: s'.queue.enqueued
  started : s.queue.started <+: s'.queue.started

theorem Grows.trans {s₁ s₂ s₃ : State} (h : Grows s₁ s₂) (h' : Grows s₂ s₃) : Grows s₁ s₃ :=
  ⟨h.enqueued.trans h'.enqueued, h.started.trans h'.started⟩

theorem grows_of_queue (h : s'.queue = s.queue) : Grows s s' :=
  ⟨by rw [h], by rw [h]⟩

theorem Grows.of_queue {s₁ : State} (h : Grows s₁ s') (hq : s₁.queue = s.queue) : Grows s s' :=
  (grows_of_queue hq).trans h

/-- The task is run, and maybe others behind it. -/
theorem grows_runTask {t : Task} {complete : State → State} (hc : ∀ s, Grows s (complete s))
    (s : State) :
    s.queue.enqueued <+: (runTask refused complete t s).queue.enqueued ∧
      s.queue.started ++ [t] <+: (runTask refused complete t s).queue.started := by
  have h := hc ((s.setQueue { s.queue with started := s.queue.started ++ [t] }).setStage
    t.webview .settled)
  simp only [runTask]
  split
  · exact ⟨h.enqueued, h.started⟩
  · split
    · exact ⟨h.enqueued, h.started⟩
    · exact ⟨List.prefix_rfl, List.prefix_rfl⟩

theorem grows_complete (ts : List Task) (s : State) :
    Grows s (completeControllerCreation refused ts s) := by
  induction ts generalizing s with
  | nil => exact ⟨List.prefix_rfl, List.prefix_rfl⟩
  | cons t ts ih =>
      obtain ⟨he, hst⟩ := grows_runTask refused (t := t) ih
        (s.setQueue { s.queue with pending := ts })
      exact ⟨he, (List.prefix_append _ [t]).trans hst⟩

theorem started_lt_complete {ts : List Task} (hts : ts ≠ []) (s : State) :
    s.queue.started.length < (completeControllerCreation refused ts s).queue.started.length := by
  cases ts with
  | nil => exact absurd rfl hts
  | cons t ts =>
      have h := (grows_runTask refused (t := t) (grows_complete refused ts)
        (s.setQueue { s.queue with pending := ts })).2.length_le
      rw [List.length_append] at h
      exact Nat.lt_of_succ_le h

theorem grows_enqueue (s : State) (t : Task) :
    Grows s (s.enqueueControllerCreation refused t) := by
  simp only [enqueueControllerCreation]
  split
  · exact ⟨List.prefix_append _ _, List.prefix_rfl⟩
  · obtain ⟨he, hst⟩ := grows_runTask refused (t := t) (grows_complete refused s.queue.pending)
      ((s.setStage t.webview .queued).setQueue
        { s.queue with enqueued := s.queue.enqueued ++ [t], active := true })
    exact ⟨(List.prefix_append _ [t]).trans he, (List.prefix_append _ [t]).trans hst⟩

/-- Is it the callback of a controller's creation? -/
def Action.isCompletion : Action → Bool
  | .controllerCompleted _ _ => true
  | _ => false

theorem queue_beginFinish (s : State) (w : WebViewId) (env : EnvironmentId) (c : ControllerId) :
    (s.beginFinish w env c).queue = s.queue := by
  simp only [beginFinish]
  split <;> rfl

theorem queue_takePending (s : State) (w : WebViewId) (env : EnvironmentId) (c : ControllerId) :
    (s.takePending w env c).queue = s.queue := by
  simp only [takePending]
  split <;> rfl

/-- A callback runs the next task, if one waits. -/
theorem grows_step {a : Action} (hst : step refused s a = some s') :
    Grows s s' ∧ (a.isCompletion = true → s.queue.pending ≠ [] →
      s.queue.started.length < s'.queue.started.length) := by
  cases a with
  | new attrs b =>
      cases hst
      refine ⟨?_, by simp [Action.isCompletion]⟩
      simp only [new]
      refine Grows.trans ?_ (grows_of_queue (keepsHandles_setBoundsInner _ _ b).queue)
      split
      · exact (grows_enqueue refused _ _).of_queue rfl
      · exact grows_of_queue rfl
  | op w o =>
      simp only [step] at hst
      split at hst
      · cases hst
        exact ⟨grows_of_queue (operates_applyOp s w o).queue, by simp [Action.isCompletion]⟩
      · cases hst
  | environmentCompleted w env =>
      simp only [step] at hst
      split at hst
      · cases hst
        exact ⟨grows_enqueue refused s _, by simp [Action.isCompletion]⟩
      · cases hst
        exact ⟨grows_of_queue rfl, by simp [Action.isCompletion]⟩
      · cases hst
  | controllerCompleted w ok =>
      simp only [step] at hst
      split at hst
      · next env hw =>
          cases hst
          have hq : (s.controllerCompleted refused w env ok).queue =
              (completeControllerCreation refused s.queue.pending
                (s.setStage w .settled)).queue := by
            simp only [controllerCompleted]
            split
            · exact queue_beginFinish _ w env _
            · rfl
          have hg := grows_complete refused s.queue.pending (s.setStage w .settled)
          have hg' : Grows s (s.controllerCompleted refused w env ok) :=
            (hg.trans (grows_of_queue hq)).of_queue rfl
          refine ⟨hg', fun _ hp => ?_⟩
          rw [hq]
          exact started_lt_complete refused hp (s.setStage w .settled)
      · cases hst
  | initialized w failedAfter =>
      simp only [step] at hst
      split at hst
      · cases hst
        refine ⟨grows_of_queue ?_, by simp [Action.isCompletion]⟩
        cases failedAfter with
        | none => exact queue_takePending _ w _ _
        | some n => rfl
      · cases hst
  | replay w =>
      simp only [step] at hst
      split at hst
      · cases hst
        exact ⟨grows_of_queue (keepsHandles_perform s w _ _).queue, by simp [Action.isCompletion]⟩
      · cases hst

theorem run_grows {as : List Action} (h : Serialised s)
    (hrun : (thread refused).run s as = some s') : Grows s s' ∧ Serialised s' := by
  induction as generalizing s with
  | nil =>
      cases hrun
      exact ⟨grows_of_queue rfl, h⟩
  | cons a as ih =>
      rw [System.run_cons] at hrun
      obtain ⟨s₁, hst, hrun⟩ := Option.bind_eq_some_iff.1 hrun
      obtain ⟨hg, hs⟩ := ih (serialised_step refused h hst) hrun
      exact ⟨(grows_step refused hst).1.trans hg, hs⟩

theorem State.Serialised.notMem_started (h : Serialised s) {t : Task}
    (ht : t ∈ s.queue.pending) : t ∉ s.queue.started := by
  have hnd := List.Nodup.of_map Task.webview h.nodup
  rw [h.history, List.nodup_append] at hnd
  exact fun hst => hnd.2.2 t hst t ht rfl

/-- A task that waits later has not been run before. -/
theorem waiting_before {t : Task} (hg : Grows s s') (h : Serialised s) (h' : Serialised s')
    (ht : t ∈ s.queue.enqueued) (ht' : t ∈ s'.queue.pending) : t ∈ s.queue.pending := by
  rw [h.history, List.mem_append] at ht
  exact ht.resolve_left fun hst => h'.notMem_started ht' (hg.started.subset hst)

/-- While a task waits, every callback has run a task before it. -/
theorem run_started {as : List Action} {t : Task} (h : Serialised s) (ht : t ∈ s.queue.enqueued)
    (hrun : (thread refused).run s as = some s') (ht' : t ∈ s'.queue.pending) :
    s.queue.started.length + as.countP Action.isCompletion ≤ s'.queue.started.length := by
  induction as generalizing s with
  | nil =>
      cases hrun
      exact Nat.le_refl _
  | cons a as ih =>
      obtain ⟨hgrows, h'⟩ := run_grows refused h hrun
      have hp := waiting_before hgrows h h' ht ht'
      rw [System.run_cons] at hrun
      obtain ⟨s₁, hst, hrun⟩ := Option.bind_eq_some_iff.1 hrun
      obtain ⟨hg, hlt⟩ := grows_step refused hst
      have hle := ih (serialised_step refused h hst) (hg.enqueued.subset ht) hrun
      have hmono := hg.started.length_le
      rw [List.countP_cons]
      split
      · next hc =>
          have hpos := hlt hc (List.ne_nil_of_mem hp)
          omega
      · omega

theorem length_le_of_notMem {α : Type} {x : α} {l l₁ l₂ : List α} (h : l <+: l₁ ++ x :: l₂)
    (hx : x ∉ l) : l.length ≤ l₁.length := by
  obtain h₁ | h₁ := List.prefix_or_prefix_of_prefix h (List.prefix_append l₁ (x :: l₂))
  · exact h₁.length_le
  · obtain ⟨r, rfl⟩ := h₁
    cases r with
    | nil => simp
    | cons y r =>
        have hy : y = x := (List.cons_prefix_cons.1 ((List.prefix_append_right_inj l₁).1 h)).1
        simp [hy] at hx

/-- A task waits for no more callbacks than there are tasks ahead of it: with the next
one it is run. -/
theorem completions_le_of_waiting (refused : WebViewId → Bool) {s s' : State}
    {ahead behind : List Task} {t : Task} {as : List Action}
    (hs : (thread refused).Reachable s) (hp : s.queue.pending = ahead ++ t :: behind)
    (hrun : (thread refused).run s as = some s') (ht : t ∈ s'.queue.pending) :
    as.countP Action.isCompletion ≤ ahead.length := by
  have h := serialised_of_reachable refused hs
  obtain ⟨hgrows, h'⟩ := run_grows refused h hrun
  have hmem : t ∈ s.queue.enqueued := by simp [h.history, hp]
  have hle := run_started refused h hmem hrun ht
  have hnot := h'.notMem_started ht
  -- what was run is the beginning of what came, and `t` is not in it
  obtain ⟨new, hnew⟩ := hgrows.enqueued
  have hpre : s'.queue.started <+: (s.queue.started ++ ahead) ++ t :: (behind ++ new) := by
    refine ⟨s'.queue.pending, ?_⟩
    rw [← h'.history, ← hnew, h.history, hp]
    simp
  have hlen := length_le_of_notMem hpre hnot
  rw [List.length_append] at hlen
  omega

/-- The last of three tasks still waits after one callback. -/
theorem completions_le_of_waiting_second :
    ∃ s s', (thread fun _ => false).Reachable s ∧
      s.queue.pending = [⟨1, 0⟩] ++ ⟨2, 0⟩ :: [] ∧
      (thread fun _ => false).run s [.controllerCompleted 0 true] = some s' ∧
      ⟨2, 0⟩ ∈ s'.queue.pending ∧
      [Action.controllerCompleted 0 true].countP Action.isCompletion ≤ [Task.mk 1 0].length := by
  obtain ⟨s, hs, hp⟩ := System.exists_reachable (S := thread fun _ => false)
    [.new {} ⟨0, 0, 0, 0⟩, .new {} ⟨0, 0, 0, 0⟩, .new {} ⟨0, 0, 0, 0⟩,
      .environmentCompleted 0 (some 0), .environmentCompleted 1 (some 0),
      .environmentCompleted 2 (some 0)]
    (fun s => s.queue.pending == [⟨1, 0⟩, ⟨2, 0⟩] &&
      ((thread fun _ => false).run s [.controllerCompleted 0 true]).any
        fun s' => s'.queue.pending.contains ⟨2, 0⟩) (by decide)
  simp only [Bool.and_eq_true, beq_iff_eq, Option.any_eq_true, List.contains_iff_mem] at hp
  obtain ⟨hp, s', hrun, ht⟩ := hp
  exact ⟨s, s', hs, hp, hrun, ht, completions_le_of_waiting _ hs hp hrun ht⟩

end Wxp.WebView2
