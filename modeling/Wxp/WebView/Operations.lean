import Wxp.WebView.Cleanup
import Wxp.RunLoop.BlockOn
import Wxp.RunLoop.Fifo

/-!
# WebView — Operations

What the posts do to the WebView, and in which order. A post of the thread of the run
loop is executed in place, one of another thread goes through the queue. "Running inline
preserves same-thread WebView error reporting and avoids queueing work behind the command
currently servicing the WebView", says the comment at the branch: an operation that is
posted on the thread of the run loop does not wait for the ones that are queued.

`Traced` adds to the posts of `WebView.Posts`

* the operation of each post, and the order in which wry's functions for them are called
  (`applied`). What they do in the native WebView is left to wry, which drops scripts and
  remembers bounds while WebView2 is being created (`WebView2.State`);
* for each post the posts that had returned `Ok(())` when it began (`seen`).

Of the run loop it asks three things that `Posts` leaves open: the closure of a post goes
on to its operation at once; GLib dispatches the sources of one priority in the order in
which they were attached; and a queue that has gone takes nothing more (a sender that is
past its upgrade keeps the queue).
-/

namespace Wxp.WebView

open RunLoop (Gen Thread TimerId Loop Act Backend SendOutcome)
open Channel (Body)

/-- The operations of the `post_*` functions, with native rectangles in `ρ`. -/
inductive Op (ρ : Type)
  | evaluateScript
  | setBounds (bounds : ρ)
  | setVisible (visible : Bool)
  | focusParent
  deriving DecidableEq, Repr

/-- What the operations leave behind in wry's WebView. -/
structure View (ρ : Type) where
  bounds : Option ρ := none
  visible : Option Bool := none

structure Traced (ρ : Type) where
  state : State := {}
  ops : PostId → Op ρ := fun _ => .focusParent
  seen : PostId → List PostId := fun _ => []
  applied : List PostId := []

inductive TracedAct (ρ : Type)
  | post (w : WebViewId) (t : Thread) (op : Op ρ)
  /-- Any other step. A large payload is posted with a script that fetches it. -/
  | other (a : Action)

variable {ρ : Type}

def Op.setsBounds : Op ρ → Bool
  | .setBounds _ => true
  | _ => false

def Op.setsVisible : Op ρ → Bool
  | .setVisible _ => true
  | _ => false

def View.apply (v : View ρ) : Op ρ → View ρ
  | .setBounds bounds => { v with bounds := some bounds }
  | .setVisible visible => { v with visible := some visible }
  | .evaluateScript | .focusParent => v

namespace State

/-- The posting thread is the thread of the run loop. -/
def here (s : State) (k : PostId) : Bool :=
  (s.posts k).thread == (s.targets (s.posts k).sender).owner

/-- The posts that have returned `Ok(())`. -/
def accepted (s : State) : List PostId :=
  (List.range s.nextPost).filter fun k => decide ((s.posts k).pc = .returned (.ok ()))

/-- The posts whose operation begins on the thread of the WebView from `s` to `s'`. -/
def opens (s s' : State) : List PostId :=
  (List.range s.nextPost).filter fun k => decide ((s.posts k).run = .started ∧
    (s'.posts k).run = .upgraded ∧ (s.posts k).pc ≠ .invoking)

/-- The queue for the closure of the post has gone with its run loop. GLib keeps it. -/
def QueueGone (b : Backend) (s : State) (k : PostId) : Prop :=
  b ≠ .linux ∧ (s.targets (s.posts k).sender).dropped = true

instance (b : Backend) (s : State) (k : PostId) : Decidable (s.QueueGone b k) :=
  inferInstanceAs (Decidable (_ ∧ _))

/-- The run loop thread is not held up between the start of a closure and its operation,
GLib takes the source that was attached first, and a queue that has gone takes nothing. -/
def prompt (b : Backend) (s : State) : Action → Bool
  | .loop g .enterNative | .loop g .enterBlockOn =>
      match (s.targets g).loop.stack with
      | .callback (.post k) :: _ => decide ((s.posts k).run ≠ .started)
      | _ => true
  | .loop g (.dispatchSource c) => (s.targets g).loop.state.callbacks.head? == some c
  | .enqueue k .queued => decide (¬ s.QueueGone b k)
  | _ => true

end State

namespace Traced

/-- A step, with the operations it begins. -/
def follow (s : Traced ρ) (b : Backend) (a : Action) : Option (Traced ρ) :=
  if s.state.prompt b a then
    (s.state.step b a).map fun s' =>
      { s with state := s', applied := s.applied ++ s.state.opens s' }
  else none

/-- The post that begins with the step has the operation `op`. -/
def begins (s : Traced ρ) (op : Op ρ) : Traced ρ :=
  { s with
    ops := Function.update s.ops s.state.nextPost op
    seen := Function.update s.seen s.state.nextPost s.state.accepted }

def step (b : Backend) (s : Traced ρ) : TracedAct ρ → Option (Traced ρ)
  | .post w t op => (s.begins op).follow b (.post w t)
  | .other (.post _ _) => none
  | .other (.sendLargeData w t body) =>
      (s.begins .evaluateScript).follow b (.sendLargeData w t body)
  | .other a => s.follow b a

/-- wry's WebView `w` after the operations so far, but for those it answers with an error. -/
def view (s : Traced ρ) (w : WebViewId) : View ρ :=
  (s.applied.filter fun k =>
    (s.state.posts k).webview == w && (s.state.posts k).evaluated != 0).foldl
      (fun v k => v.apply (s.ops k)) {}

/-- A queued post that an operation executed in place does not wait for. -/
def overtaken (s : Traced ρ) (p q : PostId) : Bool := !s.state.here p && s.state.here q

/-- No dispatch pass begins over the rest of another one, with something to run. -/
def InTurn (s : Traced ρ) : TracedAct ρ → Prop
  | .other (.loop g a) => (s.state.targets g).loop.InOrder a
  | _ => True

instance (s : Traced ρ) (a : TracedAct ρ) : Decidable (s.InTurn a) :=
  match a with
  | .post _ _ _ => isTrue trivial
  | .other a =>
      match a with
      | .loop g la => inferInstanceAs (Decidable ((s.state.targets g).loop.InOrder la))
      | .newLoop _ | .newWebView _ | .dropWebView _ | .ready _ | .evalPending _
      | .activityDestroyed _ | .shutdown _ | .dropLoop _ | .post _ _ | .sendLargeData _ _ _ | .call _ | .enqueue _ _ | .run _ _
      | .fetch _ => isTrue trivial

/-- If a post had returned `Ok(())` when another one on its WebView began, its operation
was applied first; but for a queued post that the other one overtakes in place. -/
def KeepsOrder (s : Traced ρ) : Prop :=
  ∀ q ∈ s.applied, ∀ p ∈ s.seen q, (s.state.posts p).webview = (s.state.posts q).webview →
    s.overtaken p q = false → [p, q].Sublist s.applied

/-- Of the operations on `w` that `sets` selects, `r` is the one that was accepted last: it
began when all others had returned `Ok(())`, overtook none, and wry did not fail. -/
def IsLast (s : Traced ρ) (sets : Op ρ → Bool) (w : WebViewId) (r : PostId) : Prop :=
  r ∈ s.applied ∧ (s.state.posts r).webview = w ∧ (s.state.posts r).evaluated ≠ 0 ∧
    ∀ p ∈ s.applied, (s.state.posts p).webview = w → sets (s.ops p) = true → p ≠ r →
      p ∈ s.seen r ∧ s.overtaken p r = false

instance (s : Traced ρ) (sets : Op ρ → Bool) (w : WebViewId) (r : PostId) :
    Decidable (s.IsLast sets w r) :=
  inferInstanceAs (Decidable (_ ∧ _ ∧ _ ∧ _))

end Traced

/-- The posts of one process on backend `b`, with what they do to the WebViews. -/
def tracedSystem (ρ : Type) (b : Backend) : System (Traced ρ) (TracedAct ρ) where
  init := {}
  step := Traced.step b

/-! ## What a step does to one post -/

/-- A step of the posting thread or of the closure, by where it leaves the two. `own` says
that the thread is that of the run loop, `gone` that the queue has gone; `strong` counts
the references of the WebView. -/
inductive Turn (own gone : Prop) (strong : Nat) (p : Post) : CallPc → RunPc → Bool → Prop
  | closed (e : Error) : p.pc = .entered →
      Turn own gone strong p (.returned (.error e)) p.run p.panicked
  | build : p.pc = .entered → Turn own gone strong p .built .held p.panicked
  | inline : p.pc = .built → own → Turn own gone strong p .inline .started p.panicked
  | check : p.pc = .built → ¬ own → Turn own gone strong p .checked p.run p.panicked
  | refuse (e : Error) : p.pc = .built ∨ p.pc = .checked →
      Turn own gone strong p (.returned (.error e)) .destroyed p.panicked
  | lose : p.pc = .checked → gone → Turn own gone strong p .enqueued .destroyed p.panicked
  | invoke : p.pc = .checked → Turn own gone strong p .invoking .started p.panicked
  | inlineDone : p.pc = .inline → p.run = .ended →
      Turn own gone strong p (if p.panicked then .unwound else .returned (.ok ())) p.run p.panicked
  | invokeDone : p.pc = .invoking → p.run = .ended →
      Turn own gone strong p (if p.panicked then .unwound else .enqueued) p.run p.panicked
  | accept (r : Except Error Unit) : p.pc = .enqueued →
      Turn own gone strong p (.returned r) p.run p.panicked
  | abandon : p.run = .started → strong = 0 → Turn own gone strong p p.pc .ended p.panicked
  | upgrade : p.run = .started → strong ≠ 0 → Turn own gone strong p p.pc .upgraded p.panicked
  | finish (panicked : Bool) : p.run = .upgraded → (p.pc = .invoking → panicked = true) →
      Turn own gone strong p p.pc .ended panicked
  | evalPending : p.run = .ended → Turn own gone strong p p.pc .ended p.panicked

/-- The changes of a post that leave alone what it is about. -/
structure Post.Kin (p p' : Post) : Prop where
  webview : p'.webview = p.webview
  sender : p'.sender = p.sender
  thread : p'.thread = p.thread

theorem Post.Kin.rfl {p : Post} : p.Kin p := ⟨Eq.refl _, Eq.refl _, Eq.refl _⟩

/-- A closed WebView stays closed, and keeps its run loop. -/
def Native.Leads (v v' : Native) : Prop := v'.sender = v.sender ∧ (v.strong = 0 → v'.strong = 0)

theorem Native.Leads.rfl {v : Native} : v.Leads v := ⟨Eq.refl _, id⟩

theorem Native.leads_release (v : Native) : v.Leads { v with strong := v.strong - 1 } :=
  ⟨Eq.refl _, fun h => by simp [h]⟩

namespace State

/-- The transitions, with what decides the order of the operations. -/
inductive Trail (b : Backend) (s : State) : Action → State → Prop
  | turn (a : Action) (k : PostId) (p : Post) (ws : WebViewId → Native)
      (store : Nat → Option Entry) :
      Turn (s.here k = true) (s.QueueGone b k) (s.webviews (s.posts k).webview).strong (s.posts k)
        p.pc p.run p.panicked →
      (s.posts k).Kin p → (∀ w, (s.webviews w).Leads (ws w)) →
      Trail b s a { s with posts := Function.update s.posts k p, webviews := ws, store := store }
  | queue (k : PostId) : (s.posts k).pc = .checked →
      Trail b s (.enqueue k .queued)
        ((s.setTarget (s.posts k).sender { s.targets (s.posts k).sender with
            loop := (s.targets (s.posts k).sender).loop.push (.post k) }).setPost k
          { s.posts k with pc := .enqueued, run := .sent })
  | begin (a : Action) (w : WebViewId) (t : Thread) (d : Option Nat) (n : Nat)
      (store : Nat → Option Entry) : w < s.nextWebView →
      Trail b s a { s.begin w t d with dataCounter := n, store := store }
  | env (a : Action) (ts : Gen → Target) (ng nw : Nat) (ws : WebViewId → Native)
      (store : Nat → Option Entry) :
      (∀ g, (ts g).loop = (s.targets g).loop ∨ (ts g).loop = {}) →
      (∀ g < s.nextGen, (ts g).loop = (s.targets g).loop ∧ (ts g).owner = (s.targets g).owner ∧
        ((s.targets g).dropped = true → (ts g).dropped = true)) →
      s.nextGen ≤ ng → s.nextWebView ≤ nw →
      (∀ w < s.nextWebView, (s.webviews w).Leads (ws w)) →
      (∀ w < nw, s.nextWebView ≤ w → (ws w).sender < ng) →
      Trail b s a { s with
        targets := ts, webviews := ws, nextGen := ng, nextWebView := nw, store := store }
  | loopQuiet (g : Gen) (a : Act Sent TimerId) (l : Loop Sent TimerId) : g < s.nextGen →
      s.mayStep (s.targets g).loop a = true → (s.targets g).loop.step b a = some l →
      (∀ k, .post k ∈ l.accepted ↔ .post k ∈ (s.targets g).loop.accepted) →
      l.started = (s.targets g).loop.started →
      Trail b s (.loop g a) (s.setTarget g { s.targets g with loop := l })
  | loopStart (g : Gen) (a : Act Sent TimerId) (l : Loop Sent TimerId) (c : Sent) :
      g < s.nextGen → (s.targets g).loop.step b a = some l → c ∈ (s.targets g).loop.unstarted →
      l.accepted = (s.targets g).loop.accepted →
      l.started = (s.targets g).loop.started ++ [c] →
      Trail b s (.loop g a) ((s.setTarget g { s.targets g with loop := l }).startRun c)
  | discard (g : Gen) : g < s.nextGen → b ≠ .linux →
      Trail b s (.dropLoop g)
        { s.setTarget g { s.targets g with
            dropped := true, loop := (s.targets g).loop.discard } with
          posts := fun k =>
            if .post k ∈ (s.targets g).loop.state.callbacks then
              { s.posts k with run := .destroyed }
            else s.posts k }

theorem leads_setWebView {s : State} {w : WebViewId} {v : Native} (h : (s.webviews w).Leads v)
    (w' : WebViewId) : (s.webviews w').Leads (Function.update s.webviews w v w') := by
  by_cases hw : w' = w
  · subst hw
    simpa using h
  · simpa [hw] using Native.Leads.rfl

theorem Trail.of_stepRun {b : Backend} {s s' : State} {k : PostId} {r : OpResult}
    (hp : (s.posts k).Sound) (h : s.stepRun k r = some s') : Trail b s (.run k r) s' := by
  have hrelease := leads_setWebView (Native.leads_release (s.webviews (s.posts k).webview))
  cases stepRun_cases hp h with
  | abandon _ hr h0 =>
      exact .turn _ k _ s.webviews _ (.abandon hr h0) ⟨rfl, rfl, rfl⟩ fun _ => .rfl
  | upgrade _ hr h0 =>
      exact .turn _ k _ _ _ (.upgrade hr h0) ⟨rfl, rfl, rfl⟩
        (leads_setWebView ⟨rfl, fun h => absurd h h0⟩)
  | ok hr hpc | unready _ hr hpc | err hr hpc =>
      exact .turn _ k _ _ _ (.finish _ hr fun h => absurd h hpc) ⟨rfl, rfl, rfl⟩ hrelease
  | panic hr => exact .turn _ k _ _ _ (.finish _ hr fun _ => rfl) ⟨rfl, rfl, rfl⟩ hrelease

theorem Trail.of_stepCall {b : Backend} {s s' : State} {k : PostId}
    (h : s.stepCall k = some s') : Trail b s (.call k) s' := by
  -- the posting thread changes neither WebViews nor what the post is about
  have move {p : Post} (store : Nat → Option Entry)
      (ht : Turn (s.here k = true) (s.QueueGone b k) (s.webviews (s.posts k).webview).strong
        (s.posts k) p.pc p.run p.panicked) (hkin : (s.posts k).Kin p) :
      Trail b s (.call k) { s.setPost k p with store := store } :=
    .turn _ k p s.webviews store ht hkin fun _ => .rfl
  cases stepCall_cases h with
  | closed hpc => exact move _ (.closed _ hpc) ⟨rfl, rfl, rfl⟩
  | build hpc => exact move _ (.build hpc) ⟨rfl, rfl, rfl⟩
  | inline hpc ht => exact move _ (.inline hpc (by simpa [here] using ht)) ⟨rfl, rfl, rfl⟩
  | refuse hpc => exact move _ (.refuse _ (.inl hpc)) ⟨rfl, rfl, rfl⟩
  | check hpc ht => exact move _ (.check hpc (by simpa [here] using ht)) ⟨rfl, rfl, rfl⟩
  | inlineDone hpc hr => exact move _ (.inlineDone hpc hr) ⟨rfl, rfl, rfl⟩
  | invokeDone hpc hr => exact move _ (.invokeDone hpc hr) ⟨rfl, rfl, rfl⟩
  | accept hpc => exact move _ (.accept _ hpc) ⟨rfl, rfl, rfl⟩

theorem Trail.of_enqueue {b : Backend} {s s' : State} {k : PostId} {outcome : SendOutcome}
    (h : s.enqueue b k outcome = some s') : Trail b s (.enqueue k outcome) s' := by
  simp only [enqueue, Option.ite_none_right_eq_some] at h
  obtain ⟨⟨hpc, hend⟩, h⟩ := h
  cases outcome with
  | queued =>
      cases h
      exact .queue k hpc
  | lost =>
      cases h
      have hgone : s.QueueGone b k := by
        simp only [Backend.mayEnd, Bool.and_eq_true] at hend
        exact ⟨by rintro rfl; simp at hend, hend.1⟩
      exact .turn _ k _ s.webviews _ (.lose hpc hgone) ⟨rfl, rfl, rfl⟩ fun _ => .rfl
  | refused =>
      cases h
      exact .turn _ k _ s.webviews _ (.refuse _ (.inr hpc)) ⟨rfl, rfl, rfl⟩ fun _ => .rfl
  | inline =>
      cases h
      exact .turn _ k _ s.webviews _ (.invoke hpc) ⟨rfl, rfl, rfl⟩ fun _ => .rfl

theorem Trail.of_stepLoop {b : Backend} {s s' : State} {g : Gen} {a : Act Sent TimerId}
    (h : s.stepLoop b g a = some s') : Trail b s (.loop g a) s' := by
  cases stepLoop_cases h with
  | quiet l hg hmay hl ha hs => exact .loopQuiet g a l hg hmay hl ha hs
  | start l c hg hl hc ha hs => exact .loopStart g a l c hg hl hc ha hs

/-- A step of one target that leaves its queue alone. -/
theorem Trail.of_target {b : Backend} {s : State} {g : Gen} {t : Target} (a : Action)
    (hl : t.loop = (s.targets g).loop) (ho : t.owner = (s.targets g).owner)
    (hd : (s.targets g).dropped = true → t.dropped = true) :
    Trail b s a (s.setTarget g t) := by
  refine .env _ _ s.nextGen s.nextWebView s.webviews s.store (fun g' => .inl ?_)
    (fun g' _ => ?_) (Nat.le_refl _) (Nat.le_refl _) (fun _ _ => .rfl)
    fun w' h1 h2 => absurd h1 (Nat.not_lt.2 h2)
  · by_cases hg : g' = g <;> simp [hg, hl]
  · by_cases hg : g' = g
    · subst hg
      simpa using ⟨hl, ho, hd⟩
    · simp [hg]

/-- A step of one WebView. -/
theorem Trail.of_webview {b : Backend} {s : State} {w : WebViewId} {v : Native} (a : Action)
    (hv : (s.webviews w).Leads v) : Trail b s a (s.setWebView w v) :=
  .env _ s.targets s.nextGen s.nextWebView _ s.store (fun _ => .inl rfl)
    (fun _ _ => ⟨rfl, rfl, id⟩) (Nat.le_refl _) (Nat.le_refl _)
    (fun w' _ => leads_setWebView hv w') fun _ h1 h2 => absurd h1 (Nat.not_lt.2 h2)

theorem trail_cases {b : Backend} {s s' : State} {a : Action} (hp : ∀ k, (s.posts k).Sound)
    (h : s.step b a = some s') : Trail b s a s' := by
  cases a with
  | newLoop t =>
      cases h
      refine .env _ _ _ s.nextWebView s.webviews s.store (fun g => ?_) (fun g hg => ?_)
        (Nat.le_succ _) (Nat.le_refl _) (fun _ _ => .rfl) fun w h1 h2 =>
          absurd h1 (Nat.not_lt.2 h2)
      · by_cases hg : g = s.nextGen <;> simp [setTarget, hg]
      · have hne : g ≠ s.nextGen := Nat.ne_of_lt hg
        simp [setTarget, hne]
  | newWebView g =>
      simp only [step, Option.ite_none_right_eq_some, Option.some.injEq] at h
      obtain ⟨hg, rfl⟩ := h
      refine .env _ s.targets s.nextGen _ _ s.store (fun g => .inl rfl) (fun g _ => ⟨rfl, rfl, id⟩)
        (Nat.le_refl _) (Nat.le_succ _) (fun w hw => ?_) fun w h1 h2 => ?_
      · have hne : w ≠ s.nextWebView := Nat.ne_of_lt hw
        simpa [setWebView, hne] using Native.Leads.rfl
      · have he : w = s.nextWebView := Nat.le_antisymm (Nat.le_of_lt_succ h1) h2
        simpa [setWebView, he] using hg
  | dropWebView w =>
      simp only [step, Option.ite_none_right_eq_some, Option.some.injEq] at h
      obtain ⟨-, rfl⟩ := h
      simp only [release, setWebView, Function.update_self, Function.update_idem]
      exact .of_webview _ ⟨rfl, fun h => by simp [h]⟩
  | ready w =>
      simp only [step, Option.ite_none_left_eq_some, Option.some.injEq] at h
      obtain ⟨-, rfl⟩ := h
      exact .of_webview _ ⟨rfl, id⟩
  | activityDestroyed w =>
      simp only [step, Option.ite_none_right_eq_some, Option.some.injEq] at h
      obtain ⟨-, rfl⟩ := h
      exact .of_webview _ ⟨rfl, id⟩
  | evalPending k =>
      simp only [step, Option.ite_none_right_eq_some, Option.some.injEq] at h
      obtain ⟨⟨hw, -⟩, rfl⟩ := h
      have hr := ((hp k).pending hw).1
      have ht : Turn (s.here k = true) (s.QueueGone b k)
          (s.webviews (s.posts k).webview).strong (s.posts k) (s.posts k).pc (s.posts k).run
          (s.posts k).panicked := by
        rw [hr]
        exact .evalPending hr
      exact .turn _ k _ s.webviews s.store ht ⟨rfl, rfl, rfl⟩ fun _ => .rfl
  | shutdown g =>
      simp only [step, Option.ite_none_right_eq_some, Option.some.injEq] at h
      obtain ⟨-, rfl⟩ := h
      exact .of_target _ rfl rfl id
  | dropLoop g =>
      simp only [step, dropLoop, Option.ite_none_right_eq_some] at h
      obtain ⟨hg, h⟩ := h
      split at h
      · cases h
        exact .of_target _ rfl rfl fun _ => rfl
      · rename_i hb
        cases h
        exact .discard g hg hb
  | loop g a => exact .of_stepLoop h
  | post w t =>
      simp only [step, Option.ite_none_right_eq_some, Option.some.injEq] at h
      obtain ⟨hw, rfl⟩ := h
      exact .begin _ w t none s.dataCounter s.store hw
  | sendLargeData w t body =>
      simp only [step, Option.ite_none_right_eq_some, Option.some.injEq] at h
      obtain ⟨hw, rfl⟩ := h
      exact .begin _ w t (some s.dataCounter) _ _ hw
  | call k => exact .of_stepCall h
  | enqueue k outcome => exact .of_enqueue h
  | run k r => exact .of_stepRun (hp k) h
  | fetch d =>
      cases h
      exact .env _ s.targets s.nextGen s.nextWebView s.webviews _ (fun g => .inl rfl)
        (fun g _ => ⟨rfl, rfl, id⟩) (Nat.le_refl _) (Nat.le_refl _) (fun _ _ => .rfl)
        fun w' h1 h2 => absurd h1 (Nat.not_lt.2 h2)

end State

end Wxp.WebView
