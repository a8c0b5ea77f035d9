import Wxp.WebView.Posts
import Wxp.RunLoop.Transitions

/-!
# WebView — Cleanup

What becomes of a post. `AbandonedPostCleanup` exists only while the closure runs, so it
answers for a WebView that is gone and for a panic. A closure that is dropped without
having run, by a sender that refuses it or with its queue, takes its `on_webview_closed`
with it; a post that is refused after it was queued has neither run nor been cleaned up;
and the clean-up is disarmed as well after an error of `op`, and where wry's `eval` returns
`Ok(())` without having evaluated the script.

`Kept` is the exact condition on a step. Every other step ends a post with neither.
-/

namespace Wxp.WebView

open RunLoop (Gen Thread TimerId Loop Act Backend SendOutcome)
open Channel (Body)

/-! ## What is to hold -/

/-- The post returned an error. -/
def CallPc.refused : CallPc → Bool
  | .returned (.error _) => true
  | _ => false

/-- The post was refused, or its closure was executed or destroyed. -/
def Post.Over (p : Post) : Prop :=
  p.pc.refused = true ∨ p.run = .ended ∨ p.run = .destroyed

/-- The script was evaluated, or the clean-up ran, once. -/
def Post.Settled (p : Post) : Prop :=
  p.evaluated = 1 ∧ p.cleaned = 0 ∨ p.evaluated = 0 ∧ p.cleaned = 1

instance (p : Post) : Decidable p.Over := inferInstanceAs (Decidable (_ ∨ _ ∨ _))

instance (p : Post) : Decidable p.Settled := inferInstanceAs (Decidable (_ ∧ _ ∨ _ ∧ _))

namespace State

/-- The sender takes the closure and it does not go with its queue; a token set after that
finds the closure at its end; and `evaluate_script` gives no error, on a WebView that is ready
for scripts. -/
def Kept (b : Backend) (s : State) : Action → Prop
  | .call k =>
      let p := s.posts k
      let t := s.targets p.sender
      (p.pc = .built → p.thread ≠ t.owner → t.dropped = false ∧ t.shutdownToken = false) ∧
      (p.pc = .enqueued → t.shutdownToken = true → p.run = .ended)
  | .enqueue _ outcome => outcome = .queued ∨ outcome = .inline
  | .dropLoop g => b = .linux ∨ ∀ c ∈ (s.targets g).loop.state.callbacks, c.isPost = false
  | .run k r => (s.posts k).run = .upgraded → r ≠ .err ∧ (r = .ok → s.evalOf k = .evaluated)
  | _ => True

instance (b : Backend) (s : State) (a : Action) : Decidable (s.Kept b a) :=
  match a with
  | .call _ => inferInstanceAs (Decidable ((_ → _ → _ ∧ _) ∧ (_ → _ → _)))
  | .enqueue _ _ => inferInstanceAs (Decidable (_ ∨ _))
  | .dropLoop g =>
      inferInstanceAs (Decidable (_ ∨ ∀ c ∈ (s.targets g).loop.state.callbacks, _))
  | .run _ _ => inferInstanceAs (Decidable (_ → _ ∧ (_ → _)))
  | .newLoop _ | .newWebView _ | .dropWebView _ | .ready _ | .evalPending _
  | .activityDestroyed _ | .shutdown _ | .loop _ _ | .post _ _ | .sendLargeData _ _ _
  | .fetch _ => isTrue trivial

end State

/-! ## One post -/

/-- The closure has not come to its end. -/
def RunPc.early : RunPc → Bool
  | .held | .sent | .started | .upgraded | .destroyed => true
  | .none | .ended => false

/-- Before its closure is at its end nothing has happened for a post. -/
structure Post.Sound (p : Post) : Prop where
  none : p.run = .none →
    p.pc = .idle ∨ p.pc = .entered ∨ p.pc = .returned (.error .webViewClosed)
  entered : p.pc = .entered → p.run = .none ∧ p.evaluated = 0 ∧ p.cleaned = 0
  held : p.pc = .built ∨ p.pc = .checked → p.run = .held
  early : p.run.early = true → p.evaluated = 0 ∧ p.cleaned = 0
  armed : p.run = .upgraded → p.armed = true
  pending : p.pending = true → p.run = .ended ∧ p.evaluated = 0 ∧ p.cleaned = 0

theorem Post.Sound.idle : ({} : Post).Sound where
  none _ := .inl rfl
  entered h := nomatch h
  held h := by rcases h with h | h <;> cases h
  early h := nomatch h
  armed h := nomatch h
  pending h := nomatch h

/-- Before its end the script of a post is not with wry. -/
theorem Post.Sound.not_pending {p : Post} (hp : p.Sound) (hr : p.run ≠ .ended) :
    p.pending ≠ true := fun h => hr (hp.pending h).1

/-- Once its closure is out of its hands the posting thread is past giving it away. -/
theorem Post.Sound.past {p : Post} (hp : p.Sound) (hnone : p.run ≠ .none) (hheld : p.run ≠ .held) :
    p.pc ≠ .entered ∧ ¬ (p.pc = .built ∨ p.pc = .checked) :=
  ⟨fun h => hnone (hp.entered h).1, fun h => hheld (hp.held h)⟩

/-- The closure of a post that is past its thread goes on, and nothing has happened yet. -/
theorem Post.Sound.rerun {p : Post} (hp : p.Sound) (hr : p.run.early = true)
    (hheld : p.run ≠ .held) (run : RunPc) (armed : Bool) (h1 : run ≠ .none)
    (h2 : run = .upgraded → armed = true) : { p with run := run, armed := armed }.Sound := by
  have hnone : p.run ≠ .none := by
    rintro h
    simp [h, RunPc.early] at hr
  have hended : p.run ≠ .ended := by
    rintro h
    simp [h, RunPc.early] at hr
  obtain ⟨hent, hgiven⟩ := hp.past hnone hheld
  exact ⟨fun h => absurd h h1, fun h => absurd h hent, fun h => absurd h hgiven,
    fun _ => hp.early hr, h2, fun h => absurd h (hp.not_pending hended)⟩

/-- The posting thread gives its closure away, and nothing has happened yet. -/
theorem Post.Sound.handOver {p : Post} (hp : p.Sound) (hr : p.run = .held) {pc : CallPc}
    {run : RunPc} (h1 : pc ≠ .entered) (h2 : ¬ (pc = .built ∨ pc = .checked)) (h3 : run ≠ .none)
    (h4 : run ≠ .upgraded) : { p with pc := pc, run := run }.Sound := by
  have hpend : p.pending ≠ true := hp.not_pending (by simp [hr])
  exact ⟨fun h => absurd h h3, fun h => absurd h h1, fun h => absurd h h2,
    fun _ => hp.early (by simp [hr, RunPc.early]), fun h => absurd h h4, fun h => absurd h hpend⟩

/-- The closure is at its end. -/
theorem Post.Sound.toEnd {p : Post} (hp : p.Sound) (hr : p.run = .started ∨ p.run = .upgraded)
    (panicked pending : Bool) (evaluated cleaned : Nat)
    (hpending : pending = true → evaluated = 0 ∧ cleaned = 0) :
    { p with
      run := .ended, armed := false, panicked := panicked, pending := pending,
      evaluated := evaluated, cleaned := cleaned }.Sound := by
  have hgone : p.run ≠ .none ∧ p.run ≠ .held := by rcases hr with hr | hr <;> simp [hr]
  obtain ⟨hent, hgiven⟩ := hp.past hgone.1 hgone.2
  exact ⟨nofun, fun h => absurd h hent, fun h => absurd h hgiven, nofun, nofun,
    fun h => ⟨rfl, hpending h⟩⟩

/-- A step of the posting thread or of the closure that loses nothing. -/
inductive PostStep (p : Post) : Post → Prop
  | build : p.pc = .entered → PostStep p { p with pc := .built, run := .held }
  | inline : p.pc = .built → PostStep p { p with pc := .inline, run := .started }
  | check : p.pc = .built → PostStep p { p with pc := .checked }
  | invoke : p.pc = .checked → PostStep p { p with pc := .invoking, run := .started }
  | ran (pc : CallPc) : p.run = .ended → pc ≠ .entered → pc ≠ .built → pc ≠ .checked →
      PostStep p { p with pc := pc }
  | accept : p.pc = .enqueued → PostStep p { p with pc := .returned (.ok ()) }
  | upgrade : p.run = .started → PostStep p { p with run := .upgraded, armed := true }
  | evaluate : p.run = .upgraded →
      PostStep p { p with run := .ended, armed := false, evaluated := p.evaluated + 1 }
  | evalPending : p.pending = true →
      PostStep p { p with pending := false, evaluated := p.evaluated + 1 }

/-- A step that calls `on_webview_closed`. -/
inductive CleanStep (p : Post) : Post → Prop
  | closed : p.pc = .entered →
      CleanStep p { p with cleaned := p.cleaned + 1, pc := .returned (.error .webViewClosed) }
  | abandon : p.run = .started →
      CleanStep p { p with run := .ended, armed := false, cleaned := p.cleaned + 1 }
  | panic : p.run = .upgraded →
      CleanStep p
        { p with run := .ended, armed := false, panicked := true, cleaned := p.cleaned + 1 }

/-- A step that leaves the post with neither. -/
inductive LossStep (p : Post) : Post → Prop
  | refuse : p.pc = .built ∨ p.pc = .checked →
      LossStep p { p with pc := .returned (.error .runLoopNotInitialized), run := .destroyed }
  | lose : p.pc = .checked → LossStep p { p with pc := .enqueued, run := .destroyed }
  | reject : p.pc = .enqueued → p.run ≠ .ended →
      LossStep p { p with pc := .returned (.error .runLoopNotInitialized) }
  | fail (pending : Bool) : p.run = .upgraded →
      LossStep p { p with run := .ended, armed := false, pending := pending }

theorem PostStep.sound {p p' : Post} (h : PostStep p p') (hp : p.Sound) : p'.Sound := by
  have ⟨hnone, hent, hheld, hearly, harm, hpend⟩ := hp
  cases h with
  | build he =>
      obtain ⟨hr, hz⟩ := hent he
      exact ⟨nofun, nofun, fun _ => rfl, fun _ => hz, nofun,
        fun h => absurd h (hp.not_pending (by simp [hr]))⟩
  | inline hb => exact hp.handOver (hheld (.inl hb)) nofun (by simp) nofun nofun
  | check hb =>
      have hr := hheld (.inl hb)
      exact ⟨fun h => (nomatch hr.symm.trans h), nofun, fun _ => hr, hearly, harm, hpend⟩
  | invoke hc => exact hp.handOver (hheld (.inr hc)) nofun (by simp) nofun nofun
  | ran pc hr h1 h2 h3 =>
      exact ⟨fun h => (nomatch hr.symm.trans h), fun h => absurd h h1,
        fun h => h.elim (absurd · h2) (absurd · h3), hearly, harm, hpend⟩
  | accept he =>
      refine ⟨fun h => ?_, nofun, by simp, hearly, harm, hpend⟩
      rcases hnone h with h | h | h <;> exact (nomatch he.symm.trans h)
  | upgrade hr =>
      exact hp.rerun (by simp [hr, RunPc.early]) (by simp [hr]) .upgraded true nofun fun _ => rfl
  | evaluate hr =>
      exact hp.toEnd (.inr hr) p.panicked p.pending _ p.cleaned
        fun h => absurd h (hp.not_pending (by simp [hr]))
  | evalPending hw =>
      have hr := (hpend hw).1
      exact ⟨fun h => (nomatch hr.symm.trans h), fun h => (nomatch hr.symm.trans (hent h).1),
        fun h => (nomatch hr.symm.trans (hheld h)), fun h => by simp [hr, RunPc.early] at h,
        fun h => (nomatch hr.symm.trans h), nofun⟩

theorem CleanStep.sound {p p' : Post} (h : CleanStep p p') (hp : p.Sound) : p'.Sound := by
  cases h with
  | closed he =>
      have hr := (hp.entered he).1
      refine ⟨fun _ => .inr (.inr rfl), nofun, by simp, fun h => ?_, fun h => ?_, fun h => ?_⟩
      · simp [hr, RunPc.early] at h
      · exact (nomatch hr.symm.trans h)
      · exact absurd h (hp.not_pending (by simp [hr]))
  | abandon hr =>
      exact hp.toEnd (.inl hr) p.panicked p.pending p.evaluated _
        fun h => absurd h (hp.not_pending (by simp [hr]))
  | panic hr =>
      exact hp.toEnd (.inr hr) true p.pending p.evaluated _
        fun h => absurd h (hp.not_pending (by simp [hr]))

theorem LossStep.sound {p p' : Post} (h : LossStep p p') (hp : p.Sound) : p'.Sound := by
  have ⟨hnone, _, hheld, hearly, harm, hpend⟩ := hp
  cases h with
  | refuse hb => exact hp.handOver (hheld hb) nofun (by simp) nofun nofun
  | lose hc => exact hp.handOver (hheld (.inr hc)) nofun (by simp) nofun nofun
  | reject he _ =>
      refine ⟨fun h => ?_, nofun, by simp, hearly, harm, hpend⟩
      rcases hnone h with h | h | h <;> exact (nomatch he.symm.trans h)
  | fail pending hr =>
      exact hp.toEnd (.inr hr) p.panicked pending p.evaluated p.cleaned
        fun _ => hearly (by simp [hr, RunPc.early])

/-- What a step of one post leaves as it was. -/
structure Post.Frame (p p' : Post) : Prop where
  begun : p ≠ {}
  sender : p'.sender = p.sender := by rfl
  dataId : p'.dataId = p.dataId := by rfl
  sent : p.run = .sent → p'.run = .sent
  gone : p.run ≠ .none → p.run ≠ .held → p'.run ≠ .none ∧ p'.run ≠ .held

/-- The closure is not out of the hands of the posting thread. -/
theorem Post.Frame.before {p p' : Post} (begun : p ≠ {}) (hr : p.run = .none ∨ p.run = .held)
    (sender : p'.sender = p.sender := by rfl) (dataId : p'.dataId = p.dataId := by rfl) :
    p.Frame p' where
  begun := begun
  sender := sender
  dataId := dataId
  sent h := by
    rw [h] at hr
    rcases hr with hr | hr <;> cases hr
  gone h1 h2 := absurd hr (not_or.2 ⟨h1, h2⟩)

/-- The closure goes on. -/
theorem Post.Frame.after {p p' : Post} (hr : p.run = .started ∨ p.run = .upgraded)
    (hr' : p'.run = .upgraded ∨ p'.run = .ended)
    (sender : p'.sender = p.sender := by rfl) (dataId : p'.dataId = p.dataId := by rfl) :
    p.Frame p' where
  begun := by
    rintro rfl
    rcases hr with hr | hr <;> cases hr
  sender := sender
  dataId := dataId
  sent h := by
    rw [h] at hr
    rcases hr with hr | hr <;> cases hr
  gone _ _ := by rcases hr' with hr' | hr' <;> simp [hr']

theorem PostStep.frame {p p' : Post} (h : PostStep p p') (hp : p.Sound) : p.Frame p' := by
  cases h with
  | build he => exact .before (by rintro rfl; cases he) (.inl (hp.entered he).1)
  | inline hb => exact .before (by rintro rfl; cases hb) (.inr (hp.held (.inl hb)))
  | invoke hc => exact .before (by rintro rfl; cases hc) (.inr (hp.held (.inr hc)))
  | check hb | accept hb =>
      exact { begun := by rintro rfl; cases hb
              sent := id
              gone := fun h1 h2 => ⟨h1, h2⟩ }
  | ran pc hr =>
      exact { begun := by rintro rfl; cases hr
              sent := id
              gone := fun h1 h2 => ⟨h1, h2⟩ }
  | upgrade hr => exact .after (.inl hr) (.inl rfl)
  | evaluate hr => exact .after (.inr hr) (.inr rfl)
  | evalPending hw =>
      exact { begun := by rintro rfl; cases hw
              sent := id
              gone := fun h1 h2 => ⟨h1, h2⟩ }

theorem CleanStep.frame {p p' : Post} (h : CleanStep p p') (hp : p.Sound) : p.Frame p' := by
  cases h with
  | closed he => exact .before (by rintro rfl; cases he) (.inl (hp.entered he).1)
  | abandon hr => exact .after (.inl hr) (.inr rfl)
  | panic hr => exact .after (.inr hr) (.inr rfl)

theorem LossStep.frame {p p' : Post} (h : LossStep p p') (hp : p.Sound) : p.Frame p' := by
  cases h with
  | refuse hb =>
      exact .before (by rintro rfl; rcases hb with hb | hb <;> cases hb) (.inr (hp.held hb))
  | lose hc => exact .before (by rintro rfl; cases hc) (.inr (hp.held (.inr hc)))
  | reject he =>
      exact { begun := by rintro rfl; cases he
              sent := id
              gone := fun h1 h2 => ⟨h1, h2⟩ }
  | fail _ hr => exact .after (.inr hr) (.inr rfl)

theorem PostStep.cleaned {p p' : Post} (h : PostStep p p') : p'.cleaned = p.cleaned := by
  cases h <;> rfl

theorem LossStep.cleaned {p p' : Post} (h : LossStep p p') : p'.cleaned = p.cleaned := by
  cases h <;> rfl

theorem Post.Sound.not_settled {p : Post} (hp : p.Sound) (h : p.run.early = true) :
    ¬ p.Settled := by
  obtain ⟨he, hc⟩ := hp.early h
  simp [Settled, he, hc]

/-- A step that loses nothing ends a post with one of the two. -/
theorem PostStep.settles {p p' : Post} (h : PostStep p p') (hp : p.Sound)
    (hs : p.Over → p.Settled) (ho : p'.Over) : p'.Settled := by
  cases h with
  | build | inline | invoke => simp [Post.Over, CallPc.refused] at ho
  | check hb => simp [Post.Over, CallPc.refused, hp.held (.inl hb)] at ho
  | ran pc hr => exact hs (.inr (.inl hr))
  | accept =>
      rcases ho with he | hr
      · cases he
      · exact hs (.inr hr)
  | upgrade hr =>
      have hearly : p.run.early = true := by simp [hr, RunPc.early]
      rcases ho with he | hr | hr
      · exact absurd (hs (.inl he)) (hp.not_settled hearly)
      · cases hr
      · cases hr
  | evaluate hr =>
      obtain ⟨he, hc⟩ := hp.early (by simp [hr, RunPc.early])
      exact .inl ⟨congrArg (· + 1) he, hc⟩
  | evalPending hw =>
      obtain ⟨-, he, hc⟩ := hp.pending hw
      exact .inl ⟨congrArg (· + 1) he, hc⟩

theorem CleanStep.settles {p p' : Post} (h : CleanStep p p') (hp : p.Sound) : p'.Settled := by
  have hz : p.evaluated = 0 ∧ p.cleaned = 0 := by
    cases h with
    | closed he => exact (hp.entered he).2
    | abandon hr | panic hr => exact hp.early (by simp [hr, RunPc.early])
  cases h with
  | closed | abandon | panic => exact .inr ⟨hz.1, congrArg (· + 1) hz.2⟩

theorem LossStep.over {p p' : Post} (h : LossStep p p') (hp : p.Sound) :
    p'.Over ∧ ¬ p'.Settled := by
  have hz : p.evaluated = 0 ∧ p.cleaned = 0 := by
    cases h with
    | refuse hb => exact hp.early (by simp [hp.held hb, RunPc.early])
    | lose hc => exact hp.early (by simp [hp.held (.inr hc), RunPc.early])
    | reject he hr =>
        refine hp.early ?_
        cases hrun : p.run with
        | none =>
            rcases hp.none hrun with h | h | h <;> exact (nomatch he.symm.trans h)
        | ended => exact absurd hrun hr
        | _ => rfl
    | fail _ hr => exact hp.early (by simp [hr, RunPc.early])
  cases h with
  | refuse => exact ⟨.inr (.inr rfl), by simp [Post.Settled, hz]⟩
  | lose => exact ⟨.inr (.inr rfl), by simp [Post.Settled, hz]⟩
  | reject => exact ⟨.inl rfl, by simp [Post.Settled, hz]⟩
  | fail => exact ⟨.inr (.inl rfl), by simp [Post.Settled, hz]⟩

/-! ## The steps -/

namespace State

/-- The store after `on_webview_closed` of `p`. -/
def cleared (s : State) (p : Post) : Nat → Option Entry :=
  match p.dataId with
  | some d => Function.update s.store d none
  | none => s.store

theorem onWebviewClosed_eq (s : State) (k : PostId) :
    s.onWebviewClosed k =
      { s.setPost k { s.posts k with cleaned := (s.posts k).cleaned + 1 } with
        store := s.cleared (s.posts k) } := by
  unfold onWebviewClosed cleared
  split <;> rename_i h <;> simp [h, removeChannelData, setPost]

/-- The transitions, with what each does to the posts, the queues and the store. -/
inductive Step (b : Backend) (s : State) : Action → State → Prop
  | keep (a : Action) (k : PostId) (p : Post) (ws : WebViewId → Native) :
      s.Kept b a → PostStep (s.posts k) p →
      Step b s a { s with posts := Function.update s.posts k p, webviews := ws }
  | clean (a : Action) (k : PostId) (p : Post) (ws : WebViewId → Native) :
      s.Kept b a → CleanStep (s.posts k) p →
      Step b s a { s with
        posts := Function.update s.posts k p, webviews := ws, store := s.cleared (s.posts k) }
  | loss (a : Action) (k : PostId) (p : Post) (ws : WebViewId → Native) :
      ¬ s.Kept b a → LossStep (s.posts k) p →
      Step b s a { s with posts := Function.update s.posts k p, webviews := ws }
  | queue (k : PostId) : (s.posts k).pc = .checked →
      Step b s (.enqueue k .queued)
        ((s.setTarget (s.posts k).sender { s.targets (s.posts k).sender with
            loop := (s.targets (s.posts k).sender).loop.push (.post k) }).setPost k
          { s.posts k with pc := .enqueued, run := .sent })
  | begin (a : Action) (w : WebViewId) (t : Thread) (d : Option Nat) (n : Nat)
      (store : Nat → Option Entry) : s.Kept b a →
      (∀ i e, store i = some e → s.store i = some e ∨ e.post = s.nextPost ∧ d = some i) →
      Step b s a { s.begin w t d with dataCounter := n, store := store }
  | fetch (d : Nat) : Step b s (.fetch d) (s.removeChannelData d)
  | env (a : Action) (ts : Gen → Target) (ng nw : Nat) (ws : WebViewId → Native) :
      s.Kept b a → (∀ g, (ts g).loop = (s.targets g).loop ∨ (ts g).loop = {}) →
      Step b s a { s with targets := ts, webviews := ws, nextGen := ng, nextWebView := nw }
  | loopQuiet (g : Gen) (a : Act Sent TimerId) (l : Loop Sent TimerId) :
      Loop.Step b (s.targets g).loop a l →
      (∀ k, .post k ∈ l.accepted ↔ .post k ∈ (s.targets g).loop.accepted) →
      l.started = (s.targets g).loop.started →
      Step b s (.loop g a) (s.setTarget g { s.targets g with loop := l })
  | loopStart (g : Gen) (a : Act Sent TimerId) (l : Loop Sent TimerId) (c : Sent) :
      Loop.Step b (s.targets g).loop a l →
      c ∈ (s.targets g).loop.unstarted →
      l.accepted = (s.targets g).loop.accepted →
      l.started = (s.targets g).loop.started ++ [c] →
      Step b s (.loop g a) ((s.setTarget g { s.targets g with loop := l }).startRun c)
  | discard (g : Gen) : b ≠ .linux →
      Step b s (.dropLoop g)
        { s.setTarget g { s.targets g with
            dropped := true, loop := (s.targets g).loop.discard } with
          posts := fun k =>
            if .post k ∈ (s.targets g).loop.state.callbacks then
              { s.posts k with run := .destroyed }
            else s.posts k }

theorem abandon_eq (s : State) (k : PostId) :
    ((s.newCleanup k).runCleanup k).endRun k =
      { s.setPost k { s.posts k with
          run := .ended, armed := false, cleaned := (s.posts k).cleaned + 1 } with
        store := s.cleared (s.posts k) } := by
  simp [endRun, runCleanup, newCleanup, onWebviewClosed_eq, setPost, cleared]

theorem disarm_endRun_eq (s : State) (k : PostId) :
    (s.disarm k).endRun k =
      s.setPost k { s.posts k with run := .ended, armed := false } := by
  simp [endRun, runCleanup, disarm, setPost]

theorem endRun_of_armed {s : State} {k : PostId} (h : (s.posts k).armed = true) :
    s.endRun k =
      { s.setPost k { s.posts k with
          run := .ended, armed := false, cleaned := (s.posts k).cleaned + 1 } with
        store := s.cleared (s.posts k) } := by
  simp [endRun, runCleanup, h, onWebviewClosed_eq, setPost, cleared]

/-- How the closure goes on. -/
inductive RunStep (s : State) (k : PostId) : OpResult → State → Prop
  | abandon (r : OpResult) : (s.posts k).run = .started →
      (s.webviews (s.posts k).webview).strong = 0 →
      RunStep s k r { s.setPost k { s.posts k with
          run := .ended, armed := false, cleaned := (s.posts k).cleaned + 1 } with
        store := s.cleared (s.posts k) }
  | upgrade (r : OpResult) : (s.posts k).run = .started →
      (s.webviews (s.posts k).webview).strong ≠ 0 →
      RunStep s k r ((s.setPost k { s.posts k with run := .upgraded, armed := true }).setWebView
        (s.posts k).webview { s.webviews (s.posts k).webview with
          strong := (s.webviews (s.posts k).webview).strong + 1 })
  | ok : (s.posts k).run = .upgraded → (s.posts k).pc ≠ .invoking → s.evalOf k = .evaluated →
      RunStep s k .ok ((s.release (s.posts k).webview).setPost k { s.posts k with
        run := .ended, armed := false, evaluated := (s.posts k).evaluated + 1 })
  | unready (pending : Bool) : (s.posts k).run = .upgraded → (s.posts k).pc ≠ .invoking →
      s.evalOf k ≠ .evaluated →
      RunStep s k .ok ((s.release (s.posts k).webview).setPost k { s.posts k with
        run := .ended, armed := false, pending := pending })
  | err : (s.posts k).run = .upgraded → (s.posts k).pc ≠ .invoking →
      RunStep s k .err ((s.release (s.posts k).webview).setPost k { s.posts k with
        run := .ended, armed := false })
  | panic : (s.posts k).run = .upgraded →
      RunStep s k .panic { (s.release (s.posts k).webview).setPost k { s.posts k with
          run := .ended, armed := false, panicked := true,
          cleaned := (s.posts k).cleaned + 1 } with
        store := s.cleared (s.posts k) }

theorem stepRun_cases {s s' : State} {k : PostId} {r : OpResult} (hp : (s.posts k).Sound)
    (h : s.stepRun k r = some s') : RunStep s k r s' := by
  unfold stepRun at h
  dsimp only at h
  split at h
  · rename_i hr
    split at h
    · rename_i hs₁
      cases h
      rw [abandon_eq]
      refine .abandon r hr ?_
      by_contra hne
      simp [upgrade, newCleanup, setPost, hne] at hs₁
    · rename_i s₁ hs₁
      cases h
      simp only [upgrade, Option.ite_none_left_eq_some, Option.some.injEq] at hs₁
      obtain ⟨hne, rfl⟩ := hs₁
      simp only [newCleanup, setPost, setWebView, Function.update_self, Function.update_idem]
      exact .upgrade r hr hne
  · rename_i hr
    split at h
    · cases h
    · rename_i hop
      cases r with
      | ok =>
          cases h
          have hpc : (s.posts k).pc ≠ .invoking := fun hpc => hop ⟨hpc, by decide⟩
          rw [disarm_endRun_eq]
          simp only [setPost, Function.update_self, Function.update_idem]
          cases he : s.evalOf k with
          | evaluated => exact .ok hr hpc he
          | pending => exact .unready true hr hpc (by simp [he])
          | dropped => exact .unready (s.posts k).pending hr hpc (by simp [he])
      | err =>
          cases h
          rw [disarm_endRun_eq]
          exact .err hr fun hpc => hop ⟨hpc, by decide⟩
      | panic =>
          cases h
          rw [endRun_of_armed (by simpa [setPost] using hp.armed hr)]
          simp only [setPost, Function.update_self, Function.update_idem]
          exact .panic hr
  · cases h

theorem Step.of_stepRun {b : Backend} {s s' : State} {k : PostId} {r : OpResult}
    (hp : (s.posts k).Sound) (h : s.stepRun k r = some s') : Step b s (.run k r) s' := by
  cases stepRun_cases hp h with
  | abandon _ hr =>
      exact .clean _ k _ s.webviews (fun hu => absurd (hr.symm.trans hu) (by decide)) (.abandon hr)
  | upgrade _ hr =>
      exact .keep _ k _ _ (fun hu => absurd (hr.symm.trans hu) (by decide)) (.upgrade hr)
  | ok hr _ he => exact .keep _ k _ _ (fun _ => ⟨nofun, fun _ => he⟩) (.evaluate hr)
  | unready pending hr _ he =>
      exact .loss _ k _ _ (fun hk => he ((hk hr).2 rfl)) (.fail pending hr)
  | err hr => exact .loss _ k _ _ (fun hk => (hk hr).1 rfl) (.fail (s.posts k).pending hr)
  | panic hr => exact .clean _ k _ _ (fun _ => ⟨nofun, nofun⟩) (.panic hr)

/-- How the posting thread goes on. -/
inductive CallStep (s : State) (k : PostId) : State → Prop
  | closed : (s.posts k).pc = .entered →
      CallStep s k { s.setPost k { s.posts k with
          cleaned := (s.posts k).cleaned + 1, pc := .returned (.error .webViewClosed) } with
        store := s.cleared (s.posts k) }
  | build : (s.posts k).pc = .entered →
      CallStep s k (s.setPost k { s.posts k with pc := .built, run := .held })
  | inline : (s.posts k).pc = .built →
      (s.posts k).thread = (s.targets (s.posts k).sender).owner →
      CallStep s k (s.setPost k { s.posts k with pc := .inline, run := .started })
  | refuse : (s.posts k).pc = .built →
      (s.posts k).thread ≠ (s.targets (s.posts k).sender).owner →
      ¬ ((s.targets (s.posts k).sender).dropped = false ∧
        (s.targets (s.posts k).sender).shutdownToken = false) →
      CallStep s k (s.setPost k { s.posts k with
        pc := .returned (.error .runLoopNotInitialized), run := .destroyed })
  | check : (s.posts k).pc = .built →
      (s.posts k).thread ≠ (s.targets (s.posts k).sender).owner →
      (s.targets (s.posts k).sender).dropped = false →
      (s.targets (s.posts k).sender).shutdownToken = false →
      CallStep s k (s.setPost k { s.posts k with pc := .checked })
  | inlineDone : (s.posts k).pc = .inline → (s.posts k).run = .ended →
      CallStep s k (s.setPost k { s.posts k with
        pc := if (s.posts k).panicked then .unwound else .returned (.ok ()) })
  | invokeDone : (s.posts k).pc = .invoking → (s.posts k).run = .ended →
      CallStep s k (s.setPost k { s.posts k with
        pc := if (s.posts k).panicked then .unwound else .enqueued })
  | accept : (s.posts k).pc = .enqueued →
      CallStep s k (s.setPost k { s.posts k with
        pc := .returned (if (s.targets (s.posts k).sender).shutdownToken then
          .error .runLoopNotInitialized else .ok ()) })

theorem stepCall_cases {s s' : State} {k : PostId} (h : s.stepCall k = some s') :
    CallStep s k s' := by
  unfold stepCall at h
  dsimp only at h
  split at h
  · rename_i hpc
    split at h
    · cases h
      rw [onWebviewClosed_eq]
      simp only [setReturned, setPost, Function.update_self, Function.update_idem]
      exact .closed hpc
    · cases h
      exact .build hpc
  · rename_i hpc
    split at h
    · rename_i ht
      cases h
      exact .inline hpc ht
    · rename_i ht
      split at h
      · rename_i hrefuse
        cases h
        refine .refuse hpc ht ?_
        rintro ⟨hd, htoken⟩
        simp [hd, htoken] at hrefuse
      · rename_i hpass
        cases h
        simp only [Bool.or_eq_true, not_or, Bool.not_eq_true] at hpass
        exact .check hpc ht hpass.1 hpass.2
  · rename_i hpc
    split at h <;> cases h
    exact .inlineDone hpc ‹_›
  · rename_i hpc
    split at h <;> cases h
    exact .invokeDone hpc ‹_›
  · rename_i hpc
    cases h
    exact .accept hpc
  · cases h

/-- Only the first check and the second one can be what `Kept` excludes. -/
theorem kept_call {b : Backend} {s : State} {k : PostId} {pc : CallPc}
    (hpc : (s.posts k).pc = pc) (hbuilt : pc ≠ .built) (henqueued : pc ≠ .enqueued) :
    s.Kept b (.call k) :=
  ⟨fun h => absurd (hpc.symm.trans h) hbuilt, fun h => absurd (hpc.symm.trans h) henqueued⟩

theorem Step.of_stepCall {b : Backend} {s s' : State} {k : PostId}
    (h : s.stepCall k = some s') : Step b s (.call k) s' := by
  have hne : CallPc.built ≠ .enqueued := by decide
  cases stepCall_cases h with
  | closed hpc => exact .clean _ k _ s.webviews (kept_call hpc (by decide) (by decide)) (.closed hpc)
  | build hpc => exact .keep _ k _ s.webviews (kept_call hpc (by decide) (by decide)) (.build hpc)
  | inline hpc ht =>
      exact .keep _ k _ s.webviews
        ⟨fun _ h => absurd ht h, fun hb => absurd (hpc.symm.trans hb) hne⟩ (.inline hpc)
  | refuse hpc ht hrefuse =>
      exact .loss _ k _ s.webviews (fun hk => hrefuse (hk.1 hpc ht)) (.refuse (.inl hpc))
  | check hpc ht hd htoken =>
      exact .keep _ k _ s.webviews
        ⟨fun _ _ => ⟨hd, htoken⟩, fun hb => absurd (hpc.symm.trans hb) hne⟩ (.check hpc)
  | inlineDone hpc hr =>
      refine .keep _ k _ s.webviews (kept_call hpc (by decide) (by decide)) (.ran _ hr ?_ ?_ ?_) <;>
        split <;> decide
  | invokeDone hpc hr =>
      refine .keep _ k _ s.webviews (kept_call hpc (by decide) (by decide)) (.ran _ hr ?_ ?_ ?_) <;>
        split <;> decide
  | accept hpc =>
      have hb : (s.posts k).pc ≠ .built := fun hb => hne (hb.symm.trans hpc)
      split
      · rename_i htoken
        by_cases hr : (s.posts k).run = .ended
        · exact .keep _ k _ s.webviews ⟨fun h => absurd h hb, fun _ _ => hr⟩
            (.ran _ hr (by decide) (by decide) (by decide))
        · exact .loss _ k _ s.webviews (fun hk => hr (hk.2 hpc htoken)) (.reject hpc hr)
      · rename_i htoken
        exact .keep _ k _ s.webviews
          ⟨fun h => absurd h hb, fun _ ht => absurd ht htoken⟩ (.accept hpc)

theorem Step.of_enqueue {b : Backend} {s s' : State} {k : PostId} {outcome : SendOutcome}
    (h : s.enqueue b k outcome = some s') : Step b s (.enqueue k outcome) s' := by
  simp only [enqueue, Option.ite_none_right_eq_some] at h
  obtain ⟨⟨hpc, -⟩, h⟩ := h
  cases outcome with
  | queued =>
      cases h
      exact .queue k hpc
  | lost =>
      cases h
      exact .loss _ k _ s.webviews (by simp [Kept]) (.lose hpc)
  | refused =>
      cases h
      exact .loss _ k _ s.webviews (by simp [Kept]) (.refuse (.inr hpc))
  | inline =>
      cases h
      exact .keep _ k _ s.webviews (.inr rfl) (.invoke hpc)

/-- A step of a run loop, by whether it starts a callback. -/
inductive LoopStep (b : Backend) (s : State) (g : Gen) (a : Act Sent TimerId) : State → Prop
  | quiet (l : Loop Sent TimerId) : g < s.nextGen → s.mayStep (s.targets g).loop a = true →
      (s.targets g).loop.step b a = some l →
      (∀ k, .post k ∈ l.accepted ↔ .post k ∈ (s.targets g).loop.accepted) →
      l.started = (s.targets g).loop.started →
      LoopStep b s g a (s.setTarget g { s.targets g with loop := l })
  | start (l : Loop Sent TimerId) (c : Sent) : g < s.nextGen →
      (s.targets g).loop.step b a = some l → c ∈ (s.targets g).loop.unstarted →
      l.accepted = (s.targets g).loop.accepted →
      l.started = (s.targets g).loop.started ++ [c] →
      LoopStep b s g a ((s.setTarget g { s.targets g with loop := l }).startRun c)

theorem stepLoop_cases {b : Backend} {s s' : State} {g : Gen} {a : Act Sent TimerId}
    (h : s.stepLoop b g a = some s') : LoopStep b s g a s' := by
  simp only [stepLoop, Option.ite_none_right_eq_some, Option.map_eq_some_iff] at h
  obtain ⟨⟨hg, hmay⟩, l, hl, rfl⟩ := h
  cases (Loop.step_cases hl).effect with
  | quiet hu hr ha hs hf =>
      simp only [hs, List.drop_length, List.foldl_nil]
      exact .quiet l hg hmay hl (fun k => by rw [ha]) hs
  | accept c hc _ hu hr ha hs hf =>
      simp only [hs, List.drop_length, List.foldl_nil]
      refine .quiet l hg hmay hl (fun k => ?_) hs
      -- only `enqueue` sends the closure of a post
      have hne : Sent.post k ≠ c := by
        rintro rfl
        rcases hc with rfl | rfl <;> cases hmay
      simp [ha, hne]
  | start c hu hr ha hs hf =>
      simp only [hs, List.drop_left, List.foldl_cons, List.foldl_nil]
      exact .start l c hg hl (hu.mem_iff.mpr List.mem_cons_self) ha hs
  | finish c hu hr ha hs hf =>
      simp only [hs, List.drop_length, List.foldl_nil]
      exact .quiet l hg hmay hl (fun k => by rw [ha]) hs

theorem Step.of_stepLoop {b : Backend} {s s' : State} {g : Gen} {a : Act Sent TimerId}
    (h : s.stepLoop b g a = some s') : Step b s (.loop g a) s' := by
  cases stepLoop_cases h with
  | quiet l _ _ hl ha hs => exact .loopQuiet g a l (Loop.step_cases hl) ha hs
  | start l c _ hl hc ha hs => exact .loopStart g a l c (Loop.step_cases hl) hc ha hs

theorem step_cases {b : Backend} {s s' : State} {a : Action} (hp : ∀ k, (s.posts k).Sound)
    (h : s.step b a = some s') : Step b s a s' := by
  cases a with
  | newLoop t =>
      cases h
      refine .env _ _ _ s.nextWebView s.webviews trivial fun g => ?_
      by_cases hg : g = s.nextGen <;> simp [setTarget, hg]
  | newWebView g =>
      simp only [step, Option.ite_none_right_eq_some, Option.some.injEq] at h
      obtain ⟨-, rfl⟩ := h
      exact .env _ s.targets s.nextGen _ _ trivial fun g => .inl rfl
  | dropWebView w =>
      simp only [step, Option.ite_none_right_eq_some, Option.some.injEq] at h
      obtain ⟨-, rfl⟩ := h
      exact .env _ s.targets s.nextGen s.nextWebView _ trivial fun g => .inl rfl
  | ready w =>
      simp only [step, Option.ite_none_left_eq_some, Option.some.injEq] at h
      obtain ⟨-, rfl⟩ := h
      exact .env _ s.targets s.nextGen s.nextWebView _ trivial fun g => .inl rfl
  | evalPending k =>
      simp only [step, Option.ite_none_right_eq_some, Option.some.injEq] at h
      obtain ⟨⟨hw, -⟩, rfl⟩ := h
      exact .keep _ k _ s.webviews trivial (.evalPending hw)
  | activityDestroyed w =>
      simp only [step, Option.ite_none_right_eq_some, Option.some.injEq] at h
      obtain ⟨-, rfl⟩ := h
      exact .env _ s.targets s.nextGen s.nextWebView _ trivial fun g => .inl rfl
  | shutdown g =>
      simp only [step, Option.ite_none_right_eq_some, Option.some.injEq] at h
      obtain ⟨-, rfl⟩ := h
      refine .env _ _ s.nextGen s.nextWebView s.webviews trivial fun g' => .inl ?_
      by_cases hg : g' = g <;> simp [hg]
  | dropLoop g =>
      simp only [step, dropLoop, Option.ite_none_right_eq_some] at h
      obtain ⟨-, h⟩ := h
      split at h
      · rename_i hb
        cases h
        refine .env _ _ s.nextGen s.nextWebView s.webviews (.inl hb) fun g' => .inl ?_
        by_cases hg : g' = g <;> simp [hg]
      · rename_i hb
        cases h
        exact .discard g hb
  | loop g a => exact .of_stepLoop h
  | post w t =>
      simp only [step, Option.ite_none_right_eq_some, Option.some.injEq] at h
      obtain ⟨-, rfl⟩ := h
      exact .begin _ w t none s.dataCounter s.store trivial fun i e he => .inl he
  | sendLargeData w t body =>
      simp only [step, Option.ite_none_right_eq_some, Option.some.injEq] at h
      obtain ⟨-, rfl⟩ := h
      refine .begin _ w t (some s.dataCounter) _ _ trivial fun i e he => ?_
      by_cases hi : i = s.dataCounter
      · subst hi
        simp only [Function.update_self, Option.some.injEq] at he
        exact .inr ⟨he ▸ rfl, rfl⟩
      · exact .inl (by simpa [hi] using he)
  | call k => exact .of_stepCall h
  | enqueue k outcome => exact .of_enqueue h
  | run k r => exact .of_stepRun (hp k) h
  | fetch d =>
      cases h
      exact .fetch d

/-! ## The invariant -/

/-- A closure that is in a queue or a batch has been sent and not started, and the data
in the store belongs to a post that was not cleaned up. -/
structure Linked (s : State) : Prop where
  fresh : ∀ k, s.nextPost ≤ k → s.posts k = {}
  sound : ∀ k, (s.posts k).Sound
  wf : ∀ g, (s.targets g).loop.Wf
  known : ∀ g k, .post k ∈ (s.targets g).loop.accepted → (s.posts k).sender = g ∧
    (s.posts k).run ≠ .none ∧ (s.posts k).run ≠ .held
  waiting : ∀ g k, .post k ∈ (s.targets g).loop.unstarted → (s.posts k).run = .sent
  entries : ∀ d e, s.store d = some e →
    (s.posts e.post).dataId = some d ∧ (s.posts e.post).cleaned = 0

theorem Linked.init : Linked ({} : State) where
  fresh _ _ := rfl
  sound _ := .idle
  wf _ := .empty
  known _ _ h := (nomatch h)
  waiting _ _ h := (nomatch h)
  entries _ _ h := (nomatch h)

/-- A step of one post. -/
theorem Linked.move {s : State} (h : s.Linked) {k : PostId} {p : Post} (hp : p.Sound)
    (hf : (s.posts k).Frame p) {ws : WebViewId → Native} {store : Nat → Option Entry}
    (hst : ∀ d e, store d = some e → s.store d = some e ∧
      (e.post = k → p.cleaned = (s.posts k).cleaned)) :
    Linked { s with posts := Function.update s.posts k p, webviews := ws, store := store } where
  fresh k' hk' := by
    have hne : k' ≠ k := by
      rintro rfl
      exact hf.begun (h.fresh k' hk')
    simpa [hne] using h.fresh k' hk'
  sound k' := by
    by_cases hk : k' = k
    · subst hk
      simpa using hp
    · simpa [hk] using h.sound k'
  wf := h.wf
  known g k' hk' := by
    obtain ⟨hs, hr⟩ := h.known g k' hk'
    by_cases hk : k' = k
    · subst hk
      simpa [hf.sender, hs] using hf.gone hr.1 hr.2
    · simpa [hk] using ⟨hs, hr⟩
  waiting g k' hk' := by
    have hr := h.waiting g k' hk'
    by_cases hk : k' = k
    · subst hk
      simpa using hf.sent hr
    · simpa [hk] using hr
  entries d e he := by
    obtain ⟨hold, hclean⟩ := hst d e he
    obtain ⟨hd, hc⟩ := h.entries d e hold
    by_cases hk : e.post = k
    · rw [hk] at hd hc
      simpa [hk, hf.dataId, hclean hk] using ⟨hd, hc⟩
    · simpa [hk] using ⟨hd, hc⟩

/-- Steps that leave the posts and what is in the queues alone. -/
theorem Linked.quiet {s s' : State} (h : s.Linked) (hn : s'.nextPost = s.nextPost)
    (hp : s'.posts = s.posts) (hwf : ∀ g, (s'.targets g).loop.Wf)
    (ha : ∀ g k, .post k ∈ (s'.targets g).loop.accepted →
      .post k ∈ (s.targets g).loop.accepted)
    (hu : ∀ g k, .post k ∈ (s'.targets g).loop.unstarted →
      .post k ∈ (s.targets g).loop.unstarted)
    (hs : ∀ d e, s'.store d = some e → s.store d = some e) : s'.Linked where
  fresh k hk := by
    rw [hp]
    exact h.fresh k (hn ▸ hk)
  sound k := by
    rw [hp]
    exact h.sound k
  wf := hwf
  known g k hk := by
    rw [hp]
    exact h.known g k (ha g k hk)
  waiting g k hk := by
    rw [hp]
    exact h.waiting g k (hu g k hk)
  entries d e he := by
    rw [hp]
    exact h.entries d e (hs d e he)

/-- The loop of one target changes, and the posts with it. -/
theorem Linked.withLoop {s s' : State} (h : s.Linked) {g : Gen} {t : Target}
    (ht : s'.targets = Function.update s.targets g t) (hn : s'.nextPost = s.nextPost)
    (hst : s'.store = s.store) (hwf : t.loop.Wf) (hsound : ∀ k, (s'.posts k).Sound)
    (hsame : ∀ k, (s'.posts k).sender = (s.posts k).sender ∧
      (s'.posts k).dataId = (s.posts k).dataId ∧ (s'.posts k).cleaned = (s.posts k).cleaned)
    (hmoved : ∀ k, s'.posts k = s.posts k ∨ s.posts k ≠ {} ∧ (s.posts k).sender = g ∧
      (s'.posts k).run ≠ .none ∧ (s'.posts k).run ≠ .held)
    (hacc : ∀ k, .post k ∈ t.loop.accepted → (s'.posts k).sender = g ∧
      (s'.posts k).run ≠ .none ∧ (s'.posts k).run ≠ .held)
    (hwait : ∀ k, .post k ∈ t.loop.unstarted → (s'.posts k).run = .sent) : s'.Linked where
  fresh k hk := by
    rw [hn] at hk
    rcases hmoved k with heq | ⟨hne, -⟩
    · exact heq.trans (h.fresh k hk)
    · exact absurd (h.fresh k hk) hne
  sound := hsound
  wf g' := by
    rw [ht]
    by_cases hg : g' = g
    · simpa [hg] using hwf
    · simpa [hg] using h.wf g'
  known g' k hk := by
    rw [ht] at hk
    by_cases hg : g' = g
    · subst hg
      exact hacc k (by simpa using hk)
    · obtain ⟨hs, hr⟩ := h.known g' k (by simpa [hg] using hk)
      rcases hmoved k with heq | ⟨-, hsend, -⟩
      · rw [heq]
        exact ⟨hs, hr⟩
      · exact absurd (hs.symm.trans hsend) hg
  waiting g' k hk := by
    rw [ht] at hk
    by_cases hg : g' = g
    · subst hg
      exact hwait k (by simpa using hk)
    · have hk : .post k ∈ (s.targets g').loop.unstarted := by simpa [hg] using hk
      have hs := (h.known g' k ((h.wf g').mem_unstarted.1 hk).1).1
      rcases hmoved k with heq | ⟨-, hsend, -⟩
      · rw [heq]
        exact h.waiting g' k hk
      · exact absurd (hs.symm.trans hsend) hg
  entries d e he := by
    obtain ⟨hd, hc⟩ := h.entries d e (hst ▸ he)
    obtain ⟨-, hd', hc'⟩ := hsame e.post
    exact ⟨hd'.trans hd, hc'.trans hc⟩

theorem cleared_eq_some {s : State} {p : Post} {d : Nat} {e : Entry}
    (h : s.cleared p d = some e) : s.store d = some e ∧ p.dataId ≠ some d := by
  unfold cleared at h
  cases hd' : p.dataId with
  | none =>
      rw [hd'] at h
      exact ⟨h, nofun⟩
  | some d' =>
      simp only [hd'] at h
      by_cases hd : d = d'
      · simp [hd] at h
      · rw [Function.update_of_ne hd] at h
        exact ⟨h, by simpa using Ne.symm hd⟩

theorem Linked.queue {s : State} (h : s.Linked) {k : PostId} (hpc : (s.posts k).pc = .checked) :
    Linked ((s.setTarget (s.posts k).sender { s.targets (s.posts k).sender with
        loop := (s.targets (s.posts k).sender).loop.push (.post k) }).setPost k
      { s.posts k with pc := .enqueued, run := .sent }) := by
  have hheld : (s.posts k).run = .held := (h.sound k).held (.inr hpc)
  have hnew : .post k ∉ (s.targets (s.posts k).sender).loop.accepted :=
    fun hmem => (h.known _ k hmem).2.2 hheld
  refine h.withLoop rfl rfl rfl ((h.wf _).push hnew) (fun k' => ?_) (fun k' => ?_) (fun k' => ?_)
    (fun k' hk' => ?_) fun k' hk' => ?_
  · by_cases hk : k' = k
    · subst hk
      simp only [setPost, Function.update_self]
      exact (h.sound k').handOver hheld nofun (by simp) nofun nofun
    · simpa [setPost, setTarget, hk] using h.sound k'
  · by_cases hk : k' = k <;> simp [setPost, setTarget, hk]
  · by_cases hk : k' = k
    · subst hk
      refine .inr ⟨fun he => ?_, rfl, by simp [setPost], by simp [setPost]⟩
      rw [he] at hpc
      cases hpc
    · exact .inl (by simp [setPost, setTarget, hk])
  · by_cases hk : k' = k
    · subst hk
      simp [setPost]
    · have hold : .post k' ∈ (s.targets (s.posts k).sender).loop.accepted := by
        simpa [Loop.push, hk] using hk'
      simpa [setPost, setTarget, hk] using h.known _ k' hold
  · by_cases hk : k' = k
    · subst hk
      simp [setPost]
    · have hold : .post k' ∈ (s.targets (s.posts k).sender).loop.unstarted := by
        have hperm := (s.targets (s.posts k).sender).loop.unstarted_push (.post k)
        simpa [hk] using hperm.mem_iff.1 hk'
      simpa [setPost, setTarget, hk] using h.waiting _ k' hold

theorem Linked.begin {s : State} (h : s.Linked) (w : WebViewId) (t : Thread) {d : Option Nat}
    {n : Nat} {store : Nat → Option Entry}
    (hs : ∀ i e, store i = some e → s.store i = some e ∨ e.post = s.nextPost ∧ d = some i) :
    Linked { s.begin w t d with dataCounter := n, store := store } := by
  have hfresh : s.posts s.nextPost = {} := h.fresh _ (Nat.le_refl _)
  have hne : ∀ k, (s.posts k).run ≠ .none ∨ (s.posts k).dataId ≠ none → k ≠ s.nextPost := by
    rintro k hk rfl
    simp [hfresh] at hk
  refine ⟨fun k hk => ?_, fun k => ?_, h.wf, fun g k hk => ?_, fun g k hk => ?_, fun i e he => ?_⟩
  · have hk' : k ≠ s.nextPost := by
      rintro rfl
      exact absurd hk (Nat.not_succ_le_self _)
    simpa [State.begin, setPost, hk'] using h.fresh k (Nat.le_of_succ_le hk)
  · by_cases hk : k = s.nextPost
    · subst hk
      simp only [State.begin, setPost, Function.update_self]
      exact ⟨fun _ => .inr (.inl rfl), fun _ => ⟨rfl, rfl, rfl⟩, by simp, nofun, nofun, nofun⟩
    · simpa [State.begin, setPost, hk] using h.sound k
  · have hold := h.known g k hk
    simpa [State.begin, setPost, hne k (.inl hold.2.1)] using hold
  · have hold := h.waiting g k hk
    simpa [State.begin, setPost, hne k (.inl (by simp [hold]))] using hold
  · rcases hs i e he with hold | ⟨hp, rfl⟩
    · have hent := h.entries i e hold
      simpa [State.begin, setPost, hne e.post (.inr (by simp [hent.1]))] using hent
    · simp [State.begin, setPost, hp]

theorem Linked.startRun {s : State} (h : s.Linked) {g : Gen} {l : Loop Sent TimerId} {c : Sent}
    (hwf : l.Wf) (hc : c ∈ (s.targets g).loop.unstarted)
    (ha : l.accepted = (s.targets g).loop.accepted)
    (hs : l.started = (s.targets g).loop.started ++ [c]) :
    Linked ((s.setTarget g { s.targets g with loop := l }).startRun c) := by
  have hold : ∀ k, .post k ∈ l.unstarted →
      .post k ∈ (s.targets g).loop.unstarted ∧ .post k ≠ c := by
    intro k hk
    obtain ⟨hacc, hst⟩ := hwf.mem_unstarted.1 hk
    rw [ha] at hacc
    simp only [hs, List.mem_append, List.mem_singleton, not_or] at hst
    exact ⟨(h.wf g).mem_unstarted.2 ⟨hacc, hst.1⟩, hst.2⟩
  cases c with
  | other n =>
      exact h.withLoop rfl rfl rfl hwf h.sound (fun k => ⟨rfl, rfl, rfl⟩) (fun k => .inl rfl)
        (fun k hk => h.known g k (ha ▸ hk)) fun k hk => h.waiting g k (hold k hk).1
  | post k =>
      have hsent : (s.posts k).run = .sent := h.waiting g k hc
      have hk := h.known g k ((h.wf g).mem_unstarted.1 hc).1
      refine h.withLoop rfl rfl rfl hwf (fun k' => ?_) (fun k' => ?_) (fun k' => ?_)
        (fun k' hk' => ?_) fun k' hk' => ?_
      · by_cases he : k' = k
        · subst he
          simp only [State.startRun, setPost, Function.update_self]
          exact (h.sound k').rerun (by simp [hsent, RunPc.early]) (by simp [hsent]) .started _
            (by simp) (by simp)
        · simpa [State.startRun, setPost, setTarget, he] using h.sound k'
      · by_cases he : k' = k <;> simp [State.startRun, setPost, setTarget, he]
      · by_cases he : k' = k
        · subst he
          refine .inr ⟨fun h1 => ?_, hk.1, by simp [State.startRun, setPost],
            by simp [State.startRun, setPost]⟩
          rw [h1] at hsent
          cases hsent
        · exact .inl (by simp [State.startRun, setPost, setTarget, he])
      · by_cases he : k' = k
        · subst he
          simp [State.startRun, setPost, setTarget, hk.1]
        · simpa [State.startRun, setPost, setTarget, he] using h.known g k' (ha ▸ hk')
      · obtain ⟨hu, hne⟩ := hold k' hk'
        have he : k' ≠ k := fun he => hne (congrArg Sent.post he)
        simpa [State.startRun, setPost, setTarget, he] using h.waiting g k' hu

/-- The closures that go with a queue have not been started. -/
theorem Linked.discard {s : State} (h : s.Linked) (g : Gen) :
    Linked { s.setTarget g { s.targets g with
        dropped := true, loop := (s.targets g).loop.discard } with
      posts := fun k =>
        if .post k ∈ (s.targets g).loop.state.callbacks then { s.posts k with run := .destroyed }
        else s.posts k } := by
  have hwf := h.wf g
  have hu : ∀ c, c ∈ (s.targets g).loop.state.callbacks → c ∈ (s.targets g).loop.unstarted :=
    fun c hc => List.mem_append_left _ hc
  have hknown : ∀ k, .post k ∈ (s.targets g).loop.state.callbacks →
      (s.posts k).run = .sent ∧ (s.posts k).sender = g :=
    fun k hk => ⟨h.waiting g k (hu _ hk), (h.known g k (hwf.mem_unstarted.1 (hu _ hk)).1).1⟩
  refine h.withLoop rfl rfl rfl hwf.discard (fun k => ?_) (fun k => ?_) (fun k => ?_)
    (fun k hk => ?_) fun k hk => ?_
  · dsimp only
    split
    · rename_i hc
      obtain ⟨hsent, -⟩ := hknown k hc
      exact (h.sound k).rerun (by simp [hsent, RunPc.early]) (by simp [hsent]) .destroyed _
        nofun nofun
    · exact h.sound k
  · dsimp only
    split <;> exact ⟨rfl, rfl, rfl⟩
  · dsimp only
    split
    · rename_i hc
      obtain ⟨hsent, hg⟩ := hknown k hc
      refine .inr ⟨fun h1 => ?_, hg, nofun, nofun⟩
      rw [h1] at hsent
      cases hsent
    · exact .inl rfl
  · dsimp only
    split
    · rename_i hc
      exact ⟨(hknown k hc).2, nofun, nofun⟩
    · exact h.known g k (hwf.mem_of_discard hk)
  · have hpark : .post k ∈ (s.targets g).loop.parked := hk
    have hnodup : (s.targets g).loop.unstarted.Nodup :=
      (List.nodup_append.1 (hwf.accepted.nodup_iff.1 hwf.nodup)).2.1
    have hnot : .post k ∉ (s.targets g).loop.state.callbacks := fun hc =>
      (List.nodup_append.1 hnodup).2.2 _ hc _ hpark rfl
    simpa [hnot] using h.waiting g k (List.mem_append_right _ hpark)

theorem Linked.step {b : Backend} {s s' : State} {a : Action} (h : s.Linked)
    (hst : Step b s a s') : s'.Linked := by
  cases hst with
  | keep _ k p ws _ hp =>
      exact h.move (hp.sound (h.sound k)) (hp.frame (h.sound k)) fun d e he =>
        ⟨he, fun _ => hp.cleaned⟩
  | clean _ k p ws _ hp =>
      refine h.move (hp.sound (h.sound k)) (hp.frame (h.sound k)) fun d e he => ?_
      obtain ⟨hold, hne⟩ := cleared_eq_some he
      refine ⟨hold, fun hk => absurd (h.entries d e hold).1 ?_⟩
      rwa [hk]
  | loss _ k p ws _ hp =>
      exact h.move (hp.sound (h.sound k)) (hp.frame (h.sound k)) fun d e he =>
        ⟨he, fun _ => hp.cleaned⟩
  | queue k hpc => exact h.queue hpc
  | begin _ w t d n store _ hs => exact h.begin w t hs
  | fetch d =>
      refine h.quiet rfl rfl h.wf (fun _ _ => id) (fun _ _ => id) fun d' e he => ?_
      by_cases hd : d' = d
      · simp [removeChannelData, hd] at he
      · simpa [removeChannelData, hd] using he
  | env _ ts ng nw ws _ hl =>
      refine h.quiet rfl rfl (fun g => ?_) (fun g k hk => ?_) (fun g k hk => ?_) fun _ _ => id
      · rcases hl g with hg | hg
        · exact hg ▸ h.wf g
        · exact hg ▸ .empty
      · rcases hl g with hg | hg
        · exact hg ▸ hk
        · simp only [hg] at hk
          cases hk
      · rcases hl g with hg | hg
        · exact hg ▸ hk
        · simp only [hg] at hk
          cases hk
  | loopQuiet g a l hl ha hs =>
      have hwf : l.Wf := hl.effect.wf (h.wf g)
      refine h.withLoop rfl rfl rfl hwf h.sound (fun k => ⟨rfl, rfl, rfl⟩) (fun k => .inl rfl)
        (fun k hk => h.known g k ((ha k).1 hk)) fun k hk => h.waiting g k ?_
      obtain ⟨hacc, hst⟩ := hwf.mem_unstarted.1 hk
      exact (h.wf g).mem_unstarted.2 ⟨(ha k).1 hacc, hs ▸ hst⟩
  | loopStart g a l c hl hc ha hs => exact h.startRun (hl.effect.wf (h.wf g)) hc ha hs
  | discard g hb => exact h.discard g

theorem linked_of_reachable {b : Backend} {s : State} (h : (postSystem b).Reachable s) :
    s.Linked :=
  h.invariant .init fun _ _ _ _ hi hst => hi.step (step_cases hi.sound hst)

/-! ## The result -/

/-- Every post that is over is settled. -/
def AllSettled (s : State) : Prop :=
  ∀ k, (s.posts k).Over → (s.posts k).Settled

theorem AllSettled.step {b : Backend} {s s' : State} {a : Action} (hl : s.Linked)
    (h : s.AllSettled) (hk : s.Kept b a) (hst : Step b s a s') : s'.AllSettled := by
  -- a step of one post, with what it does to that post
  have move : ∀ {k : PostId} {p : Post} {s' : State}, s'.posts = Function.update s.posts k p →
      (p.Over → p.Settled) → s'.AllSettled := by
    intro k p s' hp hs k' ho
    by_cases he : k' = k
    · subst he
      rw [hp, Function.update_self] at ho ⊢
      exact hs ho
    · rw [hp, Function.update_of_ne he] at ho ⊢
      exact h k' ho
  cases hst with
  | keep _ k p ws _ hp => exact move rfl fun ho => hp.settles (hl.sound k) (h k) ho
  | clean _ k p ws _ hp => exact move rfl fun _ => hp.settles (hl.sound k)
  | loss _ k p ws hlost _ => exact absurd hk hlost
  | queue k hpc => exact move rfl fun ho => by simp [Post.Over, CallPc.refused] at ho
  | begin _ w t d n store _ _ =>
      exact move rfl fun ho => by simp [Post.Over, CallPc.refused] at ho
  | fetch d => exact h
  | env _ ts ng nw ws _ _ => exact h
  | loopQuiet g a l _ _ _ => exact h
  | loopStart g a l c _ hc _ _ =>
      cases c with
      | other n => exact h
      | post k =>
          have hsent : (s.posts k).run = .sent := hl.waiting g k hc
          refine move rfl fun ho => ?_
          rcases ho with ho | ho | ho
          · exact absurd (h k (.inl ho))
              ((hl.sound k).not_settled (by simp [hsent, RunPc.early]))
          · cases ho
          · cases ho
  | discard g hb =>
      intro k ho
      have hnot : .post k ∉ (s.targets g).loop.state.callbacks := fun hc => by
        rcases hk with hk | hk
        · exact hb hk
        · cases hk _ hc
      simp only [hnot, if_false] at ho ⊢
      exact h k ho

/-- A step that is not kept ends a post with neither. -/
theorem Linked.lost {b : Backend} {s s' : State} {a : Action} (hl : s.Linked)
    (hk : ¬ s.Kept b a) (hst : Step b s a s') :
    ∃ k, (s'.posts k).Over ∧ ¬ (s'.posts k).Settled := by
  cases hst with
  | keep _ k p ws hkept _ | clean _ k p ws hkept _ | begin _ _ _ _ _ _ hkept _
  | env _ _ _ _ _ hkept _ => exact absurd hkept hk
  | loss _ k p ws _ hp => exact ⟨k, by simpa using hp.over (hl.sound k)⟩
  | queue => exact absurd (.inl rfl) hk
  | fetch | loopQuiet | loopStart => exact absurd trivial hk
  | discard g hb =>
      simp only [Kept, hb, false_or, not_forall] at hk
      obtain ⟨c, hc, hpost⟩ := hk
      cases c with
      | other n => exact absurd rfl hpost
      | post k =>
          have hsent : (s.posts k).run = .sent := hl.waiting g k (List.mem_append_left _ hc)
          have hz := (hl.sound k).early (by simp [hsent, RunPc.early])
          refine ⟨k, ?_⟩
          simp [hc, Post.Over, Post.Settled, hz]

/-- **A large payload is handed over or removed**: in every run whose steps are kept, a
post that was refused, executed or destroyed has had its script evaluated or was cleaned
up, once, and what is left in the store belongs to a script that was evaluated, or to a
post that is not over. Every step that is not kept ends a post with neither. -/
theorem handoff_never_leaks (b : Backend) :
    (∀ s : State, (postSystem b).ReachVia (Kept b) s →
      (∀ k, (s.posts k).Over → (s.posts k).Settled) ∧
      ∀ d e, s.store d = some e →
        (s.posts e.post).Over → (s.posts e.post).evaluated = 1) ∧
    (∀ (s s' : State) (a : Action), (postSystem b).Reachable s →
      ¬ s.Kept b a → s.step b a = some s' →
      ∃ k, (s'.posts k).Over ∧ ¬ (s'.posts k).Settled) := by
  constructor
  · intro s hs
    have hl : s.Linked := linked_of_reachable hs.reachable
    have hall : s.AllSettled := by
      refine hs.invariant (I := AllSettled) (fun k ho => ?_) fun s a s' hr hi hk hst => ?_
      · rcases ho with ho | ho | ho <;> cases ho
      · have hl := linked_of_reachable hr.reachable
        exact hi.step hl hk (step_cases hl.sound hst)
    refine ⟨hall, fun d e he ho => ?_⟩
    rcases hall e.post ho with hs | hs
    · exact hs.1
    · exact absurd ((hl.entries d e he).2.symm.trans hs.2) nofun
  · intro s s' a hs hk hst
    have hl := linked_of_reachable hs
    exact hl.lost hk (step_cases hl.sound hst)

/-- The least that `send_bytes` does not send inline. -/
def largeBody : Body := .raw (List.replicate 1024 0)

/-- A post of thread 1 up to the queue. -/
def queuedPost (k : PostId) : List Action :=
  [.sendLargeData 0 1 largeBody, .call k, .call k, .enqueue k .queued, .call k]

/-- The WebView is dropped between the closures of two posts. -/
def closedBetweenRun : List Action :=
  [.newLoop 0, .newWebView 0, .ready 0] ++ queuedPost 0 ++ queuedPost 1 ++
    [.loop 0 (.dispatchCallbacks []), .loop 0 (.next []), .run 0 .ok, .run 0 .ok,
      .loop 0 .finish, .dropWebView 0, .loop 0 (.next []), .run 1 .ok, .loop 0 .finish]

theorem handoff_never_leaks_closedBetween :
    ∃ s : State, (s.posts 0).evaluated = 1 ∧ (s.posts 1).cleaned = 1 ∧
      ∀ k, (s.posts k).Over → (s.posts k).Settled := by
  have hrun : ((postSystem .android).runVia (Kept .android) {} closedBetweenRun).map
      (fun s => decide ((s.posts 0).evaluated = 1) && decide ((s.posts 1).cleaned = 1)) =
        some true := by decide
  obtain ⟨s, hs, hp⟩ := System.exists_reachVia _ _ hrun
  simp only [Bool.and_eq_true, decide_eq_true_eq] at hp
  exact ⟨s, hp.1, hp.2, ((handoff_never_leaks .android).1 s hs).1⟩

/-- The post of a run is over and settled by nothing, and its data is in the store. -/
def leaks (s : State) : Bool :=
  decide ((s.posts 0).Over ∧ (s.posts 0).evaluated = 0 ∧ (s.posts 0).cleaned = 0) &&
    (s.store 1).isSome

/-- A post of the run loop thread is executed in place, and `op` returns `r`. -/
def inlinePost (r : OpResult) : List Action :=
  [.newLoop 0, .newWebView 0, .sendLargeData 0 0 largeBody, .call 0, .call 0, .run 0 .ok, .run 0 r,
    .call 0]

/-- The sender refuses the post; the token is set between the queue and the second check;
the closure goes with its queue; `evaluate_script` gives an error; and it returns `Ok(())`
before WebView2 has its web view, or before the first page of a WKWebView. -/
theorem handoff_leaks :
    ((postSystem .android).run {} ([.newLoop 0, .newWebView 0, .shutdown 0,
      .sendLargeData 0 1 largeBody, .call 0, .call 0])).map leaks = some true ∧
    ((postSystem .android).run {} ([.newLoop 0, .newWebView 0, .sendLargeData 0 1 largeBody,
      .call 0, .call 0, .enqueue 0 .queued, .shutdown 0, .call 0])).map leaks = some true ∧
    ((postSystem .android).run {} ([.newLoop 0, .newWebView 0] ++ queuedPost 0 ++
      [.shutdown 0, .dropLoop 0])).map leaks = some true ∧
    ((postSystem .android).run {} (inlinePost .err)).map leaks = some true ∧
    ((postSystem .win32).run {} (inlinePost .ok)).map leaks = some true ∧
    ((postSystem .darwin).run {} (inlinePost .ok)).map leaks = some true := by
  decide

end State

end Wxp.WebView
