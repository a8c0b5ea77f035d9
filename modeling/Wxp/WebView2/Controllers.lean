import Wxp.WebView2.Queue

/-!
# WebView2 — who closes a controller

A controller is handed over to a callback, which may find that the owner is gone, before
`init_webview` or behind it. Every controller is closed once at most, and those that are
not closed are in the hands of `init_webview` or of a living web view
(`controller_closed_once`). So nothing is leaked, and nothing is wired up after the drop.
-/

namespace Wxp.WebView2

open State

variable (refused : WebViewId → Bool) {s s' : State} {w w' : WebViewId}

/-- The controller is not there yet. -/
def Stage.early : Stage → Bool
  | .environment | .queued | .creating _ => true
  | _ => false

/-- Who holds the controllers. -/
structure Owned (s : State) : Prop where
  handles : ∀ w, (s.webviews w).state.webview = (s.webviews w).state.controller ∧
    (s.webviews w).state.env.isSome = (s.webviews w).state.controller.isSome
  held : ∀ w c, (s.webviews w).state.controller = some c →
    c < s.nextController ∧ s.owner c = w ∧ (s.webviews w).state.alive = true ∧
      s.closes c = 0
  early : ∀ w, (s.webviews w).stage.early = true →
    (s.webviews w).state.controller = none ∧ ∀ c < s.nextController, s.owner c ≠ w
  initializing : ∀ w env c visible, (s.webviews w).stage = .initializing env c visible →
    c < s.nextController ∧ s.owner c = w ∧ (s.webviews w).state.controller = none ∧
      s.closes c = 0
  replaying : ∀ w c rest, (s.webviews w).stage = .replaying c rest →
    c < s.nextController ∧ s.owner c = w ∧
      ((s.webviews w).state.alive = true → (s.webviews w).state.controller = some c)
  once : ∀ c, s.closes c ≤ 1
  unclosed : ∀ c < s.nextController, s.closes c = 0 →
    (s.webviews (s.owner c)).state.controller = some c ∨
      ∃ env visible, (s.webviews (s.owner c)).stage = .initializing env c visible
  owners : ∀ c < s.nextController, s.owner c < s.nextWebView
  new : ∀ c, s.nextController ≤ c → s.closes c = 0

/-! ## The queue -/

theorem early_of_queued {g : Stage} (h : Queued g) : g = .settled ∨ g.early = true := by
  obtain rfl | rfl | ⟨env, rfl⟩ := h
  · exact .inl rfl
  · exact .inr rfl
  · exact .inr rfl

theorem State.Advanced.owned {ts : List Task} (h : Advanced ts s s') (hs : Owned s)
    (hts : ∀ w ∈ ts.map Task.webview, (s.webviews w).stage.early = true) : Owned s' := by
  have hstate : ∀ w, (s'.webviews w).state = (s.webviews w).state := by
    intro w
    rw [h.webview w]
  have hcloses : ∀ c, s'.closes c = s.closes c := by
    intro c
    rw [closes, closes, h.controllers]
  -- a stage behind the controller's is the one it was
  have hlate : ∀ w, (s'.webviews w).stage ≠ .settled → (s'.webviews w).stage.early = false →
      (s'.webviews w).stage = (s.webviews w).stage := by
    intro w hw hw'
    obtain hst | ⟨_, hq⟩ := h.stage w
    · exact hst
    · obtain he | he := early_of_queued hq
      · exact absurd he hw
      · simp [he] at hw'
  refine ⟨fun w => ?_, fun w c hc => ?_, fun w hw => ?_, fun w env c visible hw => ?_,
    fun w c rest hw => ?_, fun c => ?_, fun c hc hn => ?_, fun c hc => ?_, fun c hc => ?_⟩
  · rw [hstate]
    exact hs.handles w
  · rw [hstate] at hc ⊢
    rw [h.nextController, h.owner, hcloses]
    exact hs.held w c hc
  · rw [hstate, h.nextController, h.owner]
    obtain hst | ⟨hmem, _⟩ := h.stage w
    · exact hs.early w (hst ▸ hw)
    · exact hs.early w (hts w hmem)
  · have hst := hlate w (by simp [hw]) (by simp [hw, Stage.early])
    rw [hstate, h.nextController, h.owner, hcloses]
    exact hs.initializing w env c visible (hst ▸ hw)
  · have hst := hlate w (by simp [hw]) (by simp [hw, Stage.early])
    rw [hstate, h.nextController, h.owner]
    exact hs.replaying w c rest (hst ▸ hw)
  · rw [hcloses]
    exact hs.once c
  · rw [hcloses] at hn
    rw [h.owner, hstate]
    refine (hs.unclosed c (h.nextController ▸ hc) hn).imp_right ?_
    rintro ⟨env, visible, hw⟩
    obtain hst | ⟨hmem, _⟩ := h.stage (s.owner c)
    · exact ⟨env, visible, hst.trans hw⟩
    · have he := hts _ hmem
      simp [hw, Stage.early] at he
  · rw [h.owner, h.nextWebView]
    exact hs.owners c (h.nextController ▸ hc)
  · rw [hcloses]
    exact hs.new c (h.nextController ▸ hc)

/-! ## The operations -/

theorem State.KeepsHandles.owned (h : KeepsHandles s s') (hs : Owned s) : Owned s' where
  handles w := by
    rw [h.webview, h.controller, h.env]
    exact hs.handles w
  held w c hc := by
    rw [h.nextController, h.owner, h.alive, h.closes]
    exact hs.held w c (h.controller w ▸ hc)
  early w hw := by
    rw [h.controller, h.nextController, h.owner]
    exact hs.early w (h.stage w ▸ hw)
  initializing w env c visible hw := by
    rw [h.controller, h.nextController, h.owner, h.closes]
    exact hs.initializing w env c visible (h.stage w ▸ hw)
  replaying w c rest hw := by
    rw [h.controller, h.nextController, h.owner, h.alive]
    exact hs.replaying w c rest (h.stage w ▸ hw)
  once c := by
    rw [h.closes]
    exact hs.once c
  unclosed c hc hn := by
    rw [h.controller, h.owner, h.stage]
    exact hs.unclosed c (h.nextController ▸ hc) (h.closes c ▸ hn)
  owners c hc := by
    rw [h.owner, h.nextWebView]
    exact hs.owners c (h.nextController ▸ hc)
  new c hc := by
    rw [h.closes]
    exact hs.new c (h.nextController ▸ hc)

/-- The creation goes on from a stage that holds no controller to one that holds none. -/
theorem Owned.setStage (hs : Owned s) {g : Stage}
    (hw : ∀ env c visible, (s.webviews w).stage ≠ .initializing env c visible)
    (hg : g.early = true → (s.webviews w).stage.early = true)
    (hg' : ∀ env c visible, g ≠ .initializing env c visible)
    (hr : ∀ c rest, g = .replaying c rest → c < s.nextController ∧ s.owner c = w ∧
      ((s.webviews w).state.alive = true → (s.webviews w).state.controller = some c)) :
    Owned (s.setStage w g) := by
  have hstate : ∀ w', ((s.setStage w g).webviews w').state = (s.webviews w').state := by
    intro w'
    rw [setStage_webviews]
    split <;> simp_all
  have hstage : ∀ w', ((s.setStage w g).webviews w').stage =
      if w' = w then g else (s.webviews w').stage := by
    intro w'
    rw [setStage_webviews]
    split <;> rfl
  refine ⟨fun w' => ?_, fun w' c hc => ?_, fun w' hw' => ?_, fun w' env c visible hw' => ?_,
    fun w' c rest hw' => ?_, hs.once, fun c hc hn => ?_, hs.owners, hs.new⟩
  · rw [hstate]
    exact hs.handles w'
  · rw [hstate] at hc ⊢
    exact hs.held w' c hc
  · rw [hstate]
    rw [hstage] at hw'
    by_cases heq : w' = w
    · subst heq
      exact hs.early w' (hg (by simpa using hw'))
    · rw [if_neg heq] at hw'
      exact hs.early w' hw'
  · rw [hstage] at hw'
    by_cases heq : w' = w
    · rw [if_pos heq] at hw'
      exact absurd hw' (hg' env c visible)
    · rw [if_neg heq] at hw'
      rw [hstate]
      exact hs.initializing w' env c visible hw'
  · rw [hstage] at hw'
    by_cases heq : w' = w
    · subst heq
      rw [if_pos rfl] at hw'
      rw [hstate]
      exact hr c rest hw'
    · rw [if_neg heq] at hw'
      rw [hstate]
      exact hs.replaying w' c rest hw'
  · show ((s.setStage w g).webviews (s.owner c)).state.controller = some c ∨
      ∃ env visible, ((s.setStage w g).webviews (s.owner c)).stage = .initializing env c visible
    simp only [hstate, hstage]
    refine (hs.unclosed c hc hn).imp_right ?_
    rintro ⟨env, visible, hst⟩
    refine ⟨env, visible, ?_⟩
    by_cases heq : s.owner c = w
    · exact absurd (heq ▸ hst) (hw env c visible)
    · rw [if_neg heq]
      exact hst

/-- A controller in the hands of `init_webview` is closed, and the creation is over. -/
theorem Owned.close_initializing (hs : Owned s) {env : EnvironmentId} {c : ControllerId}
    {visible : Bool} (hw : (s.webviews w).stage = .initializing env c visible) :
    Owned ((s.call c [.close]).setStage w .settled) := by
  obtain ⟨hc, ho, hnone, hzero⟩ := hs.initializing w env c visible hw
  have hstate : ∀ w', (((s.call c [.close]).setStage w .settled).webviews w').state =
      (s.webviews w').state := by
    intro w'
    rw [setStage_webviews]
    split <;> simp_all
  have hstage : ∀ w', (((s.call c [.close]).setStage w .settled).webviews w').stage =
      if w' = w then .settled else (s.webviews w').stage := by
    intro w'
    rw [setStage_webviews]
    split <;> rfl
  have hcloses : ∀ c', ((s.call c [.close]).setStage w .settled).closes c' =
      if c' = c then 1 else s.closes c' := by
    intro c'
    show (s.call c [.close]).closes c' = _
    rw [closes_call, hzero]
    rfl
  -- nobody else has this controller
  have hother : ∀ w' c', s.owner c' = w' → w' ≠ w → c' ≠ c := by
    rintro w' c' ho' hne rfl
    exact hne (ho'.symm.trans ho)
  refine ⟨fun w' => ?_, fun w' c' hc' => ?_, fun w' hw' => ?_, fun w' env' c' visible' hw' => ?_,
    fun w' c' rest hw' => ?_, fun c' => ?_, fun c' hc' hn => ?_, hs.owners, fun c' hc' => ?_⟩
  · rw [hstate]
    exact hs.handles w'
  · rw [hstate] at hc' ⊢
    have hheld := hs.held w' c' hc'
    have hne : c' ≠ c := by
      rintro rfl
      rw [← hheld.2.1, ho, hnone] at hc'
      cases hc'
    rw [hcloses, if_neg hne]
    exact hheld
  · rw [hstate]
    rw [hstage] at hw'
    split at hw'
    · cases hw'
    · exact hs.early w' hw'
  · rw [hstage] at hw'
    split at hw'
    · cases hw'
    · next hne =>
        have hinit := hs.initializing w' env' c' visible' hw'
        rw [hstate, hcloses, if_neg (hother w' c' hinit.2.1 hne)]
        exact hinit
  · rw [hstage] at hw'
    split at hw'
    · cases hw'
    · rw [hstate]
      exact hs.replaying w' c' rest hw'
  · rw [hcloses]
    split
    · exact Nat.le_refl 1
    · exact hs.once c'
  · rw [hcloses] at hn
    split at hn
    · cases hn
    · next hne =>
        show (((s.call c [.close]).setStage w .settled).webviews (s.owner c')).state.controller =
            some c' ∨ ∃ env visible, (((s.call c [.close]).setStage w .settled).webviews
              (s.owner c')).stage = .initializing env c' visible
        simp only [hstate, hstage]
        refine (hs.unclosed c' hc' hn).imp_right ?_
        rintro ⟨env', visible', hst⟩
        refine ⟨env', visible', ?_⟩
        by_cases heq : s.owner c' = w
        · rw [heq, hw] at hst
          cases hst
          exact absurd rfl hne
        · rw [if_neg heq]
          exact hst
  · rw [hcloses, if_neg (Nat.ne_of_gt (Nat.lt_of_lt_of_le hc hc'))]
    exact hs.new c' hc'

/-- The second check of `alive` has passed: the web view gets its controller. -/
theorem Owned.take (hs : Owned s) {env : EnvironmentId} {c : ControllerId} {visible : Bool}
    (hw : (s.webviews w).stage = .initializing env c visible)
    (ha : (s.webviews w).state.alive = true) {i : WebViewState} (hi : i.alive = true)
    (hic : i.controller = some c) (hiv : i.webview = some c) (hie : i.env = some env)
    (rest : List Replay) : Owned ((s.setInner w i).setStage w (.replaying c rest)) := by
  obtain ⟨hc, ho, hnone, hzero⟩ := hs.initializing w env c visible hw
  have hview : ∀ w', ((s.setInner w i).setStage w (.replaying c rest)).webviews w' =
      if w' = w then { s.webviews w with state := i, stage := .replaying c rest }
      else s.webviews w' := by
    intro w'
    simp only [setStage_webviews, setInner_webviews]
    split <;> simp_all
  refine ⟨fun w' => ?_, fun w' c' hc' => ?_, fun w' hw' => ?_, fun w' env' c' visible' hw' => ?_,
    fun w' c' rest' hw' => ?_, hs.once, fun c' hc' hn => ?_, hs.owners, hs.new⟩
  · rw [hview]
    split
    · simp [hic, hiv, hie]
    · exact hs.handles w'
  · rw [hview] at hc' ⊢
    split at hc'
    · next heq =>
        subst heq
        cases hic.symm.trans hc'
        rw [if_pos rfl]
        exact ⟨hc, ho, hi, hzero⟩
    · next hne =>
        rw [if_neg hne]
        exact hs.held w' c' hc'
  · rw [hview] at hw' ⊢
    split at hw'
    · cases hw'
    · next hne =>
        rw [if_neg hne]
        exact hs.early w' hw'
  · rw [hview] at hw' ⊢
    split at hw'
    · cases hw'
    · next hne =>
        rw [if_neg hne]
        exact hs.initializing w' env' c' visible' hw'
  · rw [hview] at hw' ⊢
    split at hw'
    · next heq =>
        subst heq
        cases hw'
        rw [if_pos rfl]
        exact ⟨hc, ho, fun _ => hic⟩
    · next hne =>
        rw [if_neg hne]
        exact hs.replaying w' c' rest' hw'
  · show (((s.setInner w i).setStage w (.replaying c rest)).webviews
        (s.owner c')).state.controller = some c' ∨ ∃ env visible,
          (((s.setInner w i).setStage w (.replaying c rest)).webviews (s.owner c')).stage =
            .initializing env c' visible
    simp only [hview]
    have hopen := hs.unclosed c' hc' hn
    by_cases heq : s.owner c' = w
    · rw [heq, hnone, hw] at hopen
      obtain hopen | ⟨env', visible', hopen⟩ := hopen
      · cases hopen
      · cases hopen
        exact .inl (by rw [if_pos heq]; exact hic)
    · rw [if_neg heq]
      exact hopen

/-- WebView2 hands over a controller to the callback of a web view that had none. -/
theorem Owned.newController (hs : Owned s) (env : EnvironmentId) (visible : Bool)
    (hw : w < s.nextWebView) (hnone : (s.webviews w).state.controller = none)
    (hnew : ∀ c < s.nextController, s.owner c ≠ w) :
    Owned ((s.newController w).setStage w (.initializing env s.nextController visible)) := by
  have hview : ∀ w', ((s.newController w).setStage w
      (.initializing env s.nextController visible)).webviews w' =
        if w' = w then { s.webviews w with stage := .initializing env s.nextController visible }
        else s.webviews w' := by
    intro w'
    rw [setStage_webviews]
    rfl
  have hstate : ∀ w', (((s.newController w).setStage w
      (.initializing env s.nextController visible)).webviews w').state = (s.webviews w').state := by
    intro w'
    rw [hview]
    split <;> simp_all
  have howner : ∀ c, (s.newController w).owner c = if c = s.nextController then w else s.owner c :=
    fun c => by simp only [State.newController, Function.update_apply]
  have hlt : ∀ c, c < s.nextController → c < s.nextController + 1 ∧
      (s.newController w).owner c = s.owner c := by
    intro c hc
    rw [howner, if_neg (Nat.ne_of_lt hc)]
    exact ⟨Nat.lt_succ_of_lt hc, rfl⟩
  refine ⟨fun w' => ?_, fun w' c hc => ?_, fun w' hw' => ?_, fun w' env' c visible' hw' => ?_,
    fun w' c rest hw' => ?_, hs.once, fun c hc hn => ?_, fun c hc => ?_, fun c hc => ?_⟩
  · rw [hstate]
    exact hs.handles w'
  · rw [hstate] at hc ⊢
    obtain ⟨h₁, h₂, h₃⟩ := hs.held w' c hc
    exact ⟨(hlt c h₁).1, (hlt c h₁).2.trans h₂, h₃⟩
  · rw [hview] at hw'
    split at hw'
    · cases hw'
    · next hne =>
        obtain ⟨h₁, h₂⟩ := hs.early w' hw'
        rw [hstate]
        refine ⟨h₁, fun c hc => ?_⟩
        show (s.newController w).owner c ≠ w'
        rw [howner]
        split
        · exact Ne.symm hne
        · next hcn => exact h₂ c (Nat.lt_of_le_of_ne (Nat.le_of_lt_succ hc) hcn)
  · rw [hview] at hw'
    split at hw'
    · next heq =>
        subst heq
        cases hw'
        rw [hstate]
        refine ⟨Nat.lt_succ_self _, ?_, hnone, hs.new _ (Nat.le_refl _)⟩
        show (s.newController w').owner s.nextController = w'
        rw [howner, if_pos rfl]
    · rw [hstate]
      obtain ⟨h₁, h₂, h₃⟩ := hs.initializing w' env' c visible' hw'
      exact ⟨(hlt c h₁).1, (hlt c h₁).2.trans h₂, h₃⟩
  · rw [hview] at hw'
    split at hw'
    · cases hw'
    · rw [hstate]
      obtain ⟨h₁, h₂, h₃⟩ := hs.replaying w' c rest hw'
      exact ⟨(hlt c h₁).1, (hlt c h₁).2.trans h₂, h₃⟩
  · show (((s.newController w).setStage w (.initializing env s.nextController visible)).webviews
        ((s.newController w).owner c)).state.controller = some c ∨ ∃ env' visible',
          (((s.newController w).setStage w (.initializing env s.nextController visible)).webviews
            ((s.newController w).owner c)).stage = .initializing env' c visible'
    rw [howner]
    split
    · next heq =>
        refine .inr ⟨env, visible, ?_⟩
        rw [hview, if_pos rfl, heq]
    · next hne =>
        have hc' : c < s.nextController := Nat.lt_of_le_of_ne (Nat.le_of_lt_succ hc) hne
        simp only [hview, if_neg (hnew c hc')]
        exact hs.unclosed c hc' hn
  · show (s.newController w).owner c < s.nextWebView
    rw [howner]
    split
    · exact hw
    · next hne => exact hs.owners c (Nat.lt_of_le_of_ne (Nat.le_of_lt_succ hc) hne)
  · exact hs.new c (Nat.le_of_succ_le hc)

/-- The owner goes: a controller that it holds is closed. -/
theorem Owned.drop (hs : Owned s) (w : WebViewId) : Owned (s.drop w) := by
  have hops := operates_drop s w
  have hview : ∀ w', ((s.drop w).webviews w').state =
      if w' = w then
        { (s.webviews w).state with alive := false, controller := none, webview := none, env := none }
      else (s.webviews w').state := by
    intro w'
    simp only [State.drop]
    split <;> simp only [call_webviews, setInner_webviews] <;> split <;> rfl
  have hcloses : ∀ c, (s.drop w).closes c =
      if (s.webviews w).state.controller = some c then s.closes c + 1 else s.closes c := by
    intro c
    simp only [State.drop]
    split
    · next c' hc' =>
        rw [closes_call, hc']
        by_cases heq : c = c'
        · subst heq
          simp
          rfl
        · simp [heq, Ne.symm heq]
          rfl
    · next hc' =>
        rw [hc']
        rfl
  refine ⟨fun w' => ?_, fun w' c hc => ?_, fun w' hw' => ?_, fun w' env' c visible' hw' => ?_,
    fun w' c rest hw' => ?_, fun c => ?_, fun c hc hn => ?_, fun c hc => ?_, fun c hc => ?_⟩
  · rw [hview]
    split
    · simp
    · exact hs.handles w'
  · rw [hview] at hc
    split at hc
    · cases hc
    · next hne =>
        obtain ⟨h₁, h₂, h₃, h₄⟩ := hs.held w' c hc
        have hnot : (s.webviews w).state.controller ≠ some c := by
          intro hw
          exact hne (h₂.symm.trans (hs.held w c hw).2.1)
        rw [hview, if_neg hne, hops.nextController, hops.owner, hcloses, if_neg hnot]
        exact ⟨h₁, h₂, h₃, h₄⟩
  · rw [hops.stage] at hw'
    obtain ⟨h₁, h₂⟩ := hs.early w' hw'
    rw [hview, hops.nextController, hops.owner]
    refine ⟨?_, h₂⟩
    split
    · rfl
    · exact h₁
  · rw [hops.stage] at hw'
    obtain ⟨h₁, h₂, h₃, h₄⟩ := hs.initializing w' env' c visible' hw'
    have hnot : (s.webviews w).state.controller ≠ some c := by
      intro hw
      have heq : w' = w := h₂.symm.trans (hs.held w c hw).2.1
      rw [← heq, h₃] at hw
      cases hw
    rw [hview, hops.nextController, hops.owner, hcloses, if_neg hnot]
    refine ⟨h₁, h₂, ?_, h₄⟩
    split
    · rfl
    · exact h₃
  · rw [hops.stage] at hw'
    obtain ⟨h₁, h₂, h₃⟩ := hs.replaying w' c rest hw'
    rw [hview, hops.nextController, hops.owner]
    refine ⟨h₁, h₂, ?_⟩
    split
    · simp
    · exact h₃
  · rw [hcloses]
    split
    · next hc => rw [(hs.held w c hc).2.2.2]
    · exact hs.once c
  · rw [hops.nextController] at hc
    rw [hcloses] at hn
    split at hn
    · cases hn
    · next hnot =>
        have hopen := hs.unclosed c hc hn
        rw [hops.owner, hops.stage, hview]
        by_cases heq : s.owner c = w
        · rw [heq] at hopen
          rw [if_pos heq, heq]
          exact .inr (hopen.resolve_left hnot)
        · rw [if_neg heq]
          exact hopen
  · rw [hops.owner, hops.nextWebView]
    exact hs.owners c (hops.nextController ▸ hc)
  · rw [hops.nextController] at hc
    have hnot : (s.webviews w).state.controller ≠ some c :=
      fun hw => absurd (hs.held w c hw).1 (Nat.not_lt.2 hc)
    rw [hcloses, if_neg hnot]
    exact hs.new c hc

/-- A new web view, before its creation is begun. -/
theorem Owned.addWebView (hs : Owned s) {v : WebView} (hg : v.stage = .environment)
    (hv : v.state.controller = none ∧ v.state.webview = none ∧ v.state.env = none) :
    Owned (s.addWebView v) := by
  obtain ⟨hvc, hvw, hve⟩ := hv
  have hne : ∀ c < s.nextController, s.owner c ≠ s.nextWebView :=
    fun c hc => Nat.ne_of_lt (hs.owners c hc)
  refine ⟨fun w => ?_, fun w c hc => ?_, fun w hw => ?_, fun w env' c visible' hw => ?_,
    fun w c rest hw => ?_, hs.once, fun c hc hn => ?_, fun c hc => ?_, hs.new⟩
  · rw [addWebView_webviews]
    split
    · simp [hvc, hvw, hve]
    · exact hs.handles w
  · rw [addWebView_webviews] at hc ⊢
    split at hc
    · rw [hvc] at hc
      cases hc
    · next h =>
        rw [if_neg h]
        exact hs.held w c hc
  · rw [addWebView_webviews] at hw ⊢
    split at hw
    · next h =>
        rw [if_pos h, h]
        exact ⟨hvc, hne⟩
    · next h =>
        rw [if_neg h]
        exact hs.early w hw
  · rw [addWebView_webviews] at hw ⊢
    split at hw
    · rw [hg] at hw
      cases hw
    · next h =>
        rw [if_neg h]
        exact hs.initializing w env' c visible' hw
  · rw [addWebView_webviews] at hw ⊢
    split at hw
    · rw [hg] at hw
      cases hw
    · next h =>
        rw [if_neg h]
        exact hs.replaying w c rest hw
  · have howner := addWebView_webviews s v (s.owner c)
    rw [if_neg (hne c hc)] at howner
    show ((s.addWebView v).webviews (s.owner c)).state.controller = some c ∨
      ∃ env visible, ((s.addWebView v).webviews (s.owner c)).stage = .initializing env c visible
    rw [howner]
    exact hs.unclosed c hc hn
  · exact Nat.lt_succ_of_lt (hs.owners c hc)

/-! ## Every step -/

theorem initCalls_close (a : Attributes) (visible : Bool) :
    .close ∉ a.initCalls visible := by
  cases hn : a.navigation <;> cases hf : a.focused <;> simp [Attributes.initCalls, hn, hf]

theorem setStage_call_setStage (s : State) (w : WebViewId) (g g' : Stage) (c : ControllerId)
    (calls : List Call) :
    ((s.setStage w g).call c calls).setStage w g' = (s.call c calls).setStage w g' := by
  simp [State.setStage, State.setWebView, call]

theorem early_of_pending (h : Serialised s) :
    ∀ w ∈ s.queue.pending.map Task.webview, (s.webviews w).stage.early = true := by
  intro w hw
  rw [(h.queued w).2 hw]
  rfl

theorem owned_enqueue (h : Serialised s) (hs : Owned s) {t : Task}
    (ht : (s.webviews t.webview).stage = .environment) :
    Owned (s.enqueueControllerCreation refused t) := by
  refine (advanced_enqueue refused s t).owned hs fun w hw => ?_
  rw [List.map_cons, List.mem_cons] at hw
  obtain rfl | hw := hw
  · rw [ht]
    rfl
  · exact early_of_pending h w hw

theorem owned_new (h : Serialised s) (hs : Owned s) (a : Attributes) (b : Bounds) :
    Owned (s.new refused a b) := by
  have hser := h.addWebView (v := .created a) rfl
  have hview := hs.addWebView (v := .created a) rfl ⟨rfl, rfl, rfl⟩
  simp only [State.new]
  refine (keepsHandles_setBoundsInner _ _ b).owned ?_
  split
  · exact owned_enqueue refused hser hview (by simp [WebView.created])
  · exact hview

/-- The callback has started the next creation. -/
theorem owned_complete (h : Serialised s) (hs : Owned s) {env : EnvironmentId}
    (hw : (s.webviews w).stage = .creating env) :
    Owned (completeControllerCreation refused s.queue.pending (s.setStage w .settled)) := by
  have hset : Owned (s.setStage w .settled) :=
    hs.setStage (by simp [hw]) (by simp [Stage.early]) (by simp) (by simp)
  refine (advanced_complete refused s.queue.pending _).owned hset fun w' hw' => ?_
  have hne : w' ≠ w := by
    rintro rfl
    have hq := (h.queued w').2 hw'
    simp [hw] at hq
  rw [setStage_webviews, if_neg hne]
  exact early_of_pending h w' hw'

theorem owned_controllerCompleted (h : Serialised s) (hs : Owned s) {env : EnvironmentId}
    (hw : (s.webviews w).stage = .creating env) (ok : Bool) :
    Owned (s.controllerCompleted refused w env ok) := by
  obtain ⟨hnone, hnew⟩ := hs.early w (by rw [hw]; rfl)
  have hlt : w < s.nextWebView := by
    by_contra hge
    have hf := (h.fresh w (Nat.le_of_not_lt hge)).1
    simp [hf] at hw
  have hadv := advanced_complete refused s.queue.pending (s.setStage w .settled)
  have hown := owned_complete refused h hs hw
  have hnone' : ((completeControllerCreation refused s.queue.pending
      (s.setStage w .settled)).webviews w).state.controller = none := by
    rw [hadv.webview w, setStage_webviews, if_pos rfl]
    exact hnone
  have hnext : (completeControllerCreation refused s.queue.pending
      (s.setStage w .settled)).nextController = s.nextController := hadv.nextController
  have howner : (completeControllerCreation refused s.queue.pending
      (s.setStage w .settled)).owner = s.owner := hadv.owner
  have hnextw : (completeControllerCreation refused s.queue.pending
      (s.setStage w .settled)).nextWebView = s.nextWebView := hadv.nextWebView
  simp only [controllerCompleted]
  split
  · generalize completeControllerCreation refused s.queue.pending (s.setStage w .settled) = s₁
      at hown hnone' hnext howner hnextw
    have hinit : ∀ visible, Owned ((s₁.newController w).setStage w
        (.initializing env s₁.nextController visible)) := fun visible =>
      hown.newController env visible (hnextw ▸ hlt) hnone' (by rw [hnext, howner]; exact hnew)
    simp only [beginFinish]
    split
    · have hclose := Owned.close_initializing (w := w) (hinit true) (setStage_stage _ w _)
      rwa [setStage_call_setStage] at hclose
    · exact hinit _
  · exact hown

theorem owned_initialized (hs : Owned s) {env : EnvironmentId} {c : ControllerId} {visible : Bool}
    (hw : (s.webviews w).stage = .initializing env c visible) (failedAfter : Option Nat) :
    Owned (s.initialized w env c visible failedAfter) := by
  have hclose := initCalls_close (s.webviews w).attributes visible
  simp only [State.initialized]
  split
  · next n =>
      have hcount : (((s.webviews w).attributes.initCalls visible).take n).count .close = 0 :=
        List.count_eq_zero.2 fun hm => hclose (List.mem_of_mem_take hm)
      have hk := keepsHandles_call s c hcount
      exact (hk.owned hs).close_initializing hw
  · have hk := (keepsHandles_call s c (List.count_eq_zero.2 hclose)).owned hs
    simp only [takePending]
    split
    · exact hk.close_initializing hw
    · next ha => exact hk.take hw (by simpa using ha) (by simpa using ha) rfl rfl rfl _

theorem owned_step {a : Action} (h : Serialised s) (hs : Owned s)
    (hst : step refused s a = some s') : Owned s' := by
  cases a with
  | new attrs b =>
      cases hst
      exact owned_new refused h hs attrs b
  | op w o =>
      simp only [step] at hst
      split at hst
      · cases hst
        by_cases ho : o = .drop
        · rw [ho]
          exact hs.drop w
        · exact (keepsHandles_applyOp s w ho).owned hs
      · cases hst
  | environmentCompleted w env =>
      simp only [step] at hst
      split at hst
      · next env hw =>
          cases hst
          exact owned_enqueue refused h hs hw
      · next hw =>
          cases hst
          exact hs.setStage (by simp [hw]) (by simp [Stage.early]) (by simp) (by simp)
      · cases hst
  | controllerCompleted w ok =>
      simp only [step] at hst
      split at hst
      · next env hw =>
          cases hst
          exact owned_controllerCompleted refused h hs hw ok
      · cases hst
  | initialized w failedAfter =>
      simp only [step] at hst
      split at hst
      · next env c visible hw =>
          cases hst
          exact owned_initialized hs hw failedAfter
      · cases hst
  | replay w =>
      simp only [step] at hst
      split at hst
      · next c r rest hw =>
          cases hst
          have hk := keepsHandles_perform s w c r
          have hown := hk.owned hs
          have hw' : ((s.perform w c r).webviews w).stage = .replaying c (r :: rest) := by
            rw [hk.stage, hw]
          obtain he | he := replayStage_eq c rest <;> rw [he]
          · exact hown.setStage (by simp [hw']) (by simp [Stage.early]) (by simp) (by simp)
          · refine hown.setStage (by simp [hw']) (by simp [Stage.early]) (by simp) ?_
            intro c' rest' heq
            cases heq
            exact hown.replaying w c _ hw'
      · cases hst

theorem owned_of_reachable (hs : (thread refused).Reachable s) : Owned s := by
  refine System.Reachable.invariant (I := Owned) ?_
    (fun s a s' hr h hst => owned_step refused (serialised_of_reachable refused hr) h hst) hs
  refine ⟨fun _ => ⟨rfl, rfl⟩, ?_, ?_, ?_, ?_, fun _ => ?_, ?_, ?_, fun _ _ => rfl⟩ <;>
    simp [thread, Stage.early, closes]

/-- In every interleaving each controller that WebView2 hands over is closed once at most,
and it is not closed exactly while `init_webview` has it or a living web view holds it. A
web view that was dropped holds none. -/
theorem controller_closed_once (refused : WebViewId → Bool) {s : State}
    (hs : (thread refused).Reachable s) :
    (∀ c, s.closes c ≤ 1) ∧
    (∀ c < s.nextController, s.closes c = 0 ↔ ∃ w,
      ((s.webviews w).state.alive = true ∧ (s.webviews w).state.controller = some c) ∨
        ∃ env visible, (s.webviews w).stage = .initializing env c visible) ∧
    (∀ w, (s.webviews w).state.alive = false → (s.webviews w).state.controller = none ∧
      (s.webviews w).state.webview = none ∧ (s.webviews w).state.env = none) ∧
    (∀ w w' c, (s.webviews w).state.controller = some c →
      (s.webviews w').state.controller = some c → w = w') := by
  have h := owned_of_reachable refused hs
  refine ⟨h.once, fun c hc => ⟨fun hz => ?_, ?_⟩, fun w hw => ?_, fun w w' c hw hw' => ?_⟩
  · obtain hcon | hinit := h.unclosed c hc hz
    · exact ⟨s.owner c, .inl ⟨(h.held _ c hcon).2.2.1, hcon⟩⟩
    · exact ⟨s.owner c, .inr hinit⟩
  · rintro ⟨w, ⟨_, hcon⟩ | ⟨env, visible, hst⟩⟩
    · exact (h.held w c hcon).2.2.2
    · exact (h.initializing w env c visible hst).2.2.2
  · obtain ⟨hv, he⟩ := h.handles w
    have hnone : (s.webviews w).state.controller = none := by
      cases hcon : (s.webviews w).state.controller with
      | none => rfl
      | some c =>
          have ha := (h.held w c hcon).2.2.1
          simp [hw] at ha
    rw [hnone] at hv he
    exact ⟨hnone, hv, by simpa using he⟩
  · exact (h.held w c hw).2.1.symm.trans (h.held w' c hw').2.1

/-- A web view is dropped inside `init_webview`. -/
theorem controller_closed_once_dropped :
    ∃ s, (thread fun _ => false).Reachable s ∧ s.closes 0 = 1 ∧ ∀ c, s.closes c ≤ 1 := by
  obtain ⟨s, hs, hp⟩ := System.exists_reachable (S := thread fun _ => false)
    [.new {} ⟨0, 0, 0, 0⟩, .environmentCompleted 0 (some 0), .controllerCompleted 0 true,
      .op 0 .drop, .initialized 0 none] (fun s => s.closes 0 == 1) (by decide)
  exact ⟨s, hs, by simpa using hp, (controller_closed_once (fun _ => false) hs).1⟩

end Wxp.WebView2
