import Wxp.WebView.Operations

/-!
# WebView — Order

In which order the operations of the posts reach the WebView. A post that has
returned `Ok(())` is applied or in the queue (`Post.Placed`); the queue is taken in order
(`Loop.Ordered`), and a closure that was taken is at its operation before the next one is.
So a post keeps its place before every later one, except one that does not queue.

Results: `operations_keep_order`, `operations_overtake`.
-/

namespace Wxp.WebView

open RunLoop (Gen Thread TimerId Loop Act Backend Frame)

variable {ρ : Type} {b : Backend}

namespace State

/-! ## What a step does to one post -/

/-- The queue of its run loop has taken the closure. -/
def Taken (s : State) (k : PostId) : Prop :=
  .post k ∈ (s.targets (s.posts k).sender).loop.accepted

/-- A dispatch pass has started the closure. -/
def Began (s : State) (k : PostId) : Prop :=
  .post k ∈ (s.targets (s.posts k).sender).loop.started

/-- No operation of the post can begin any more. -/
def Closed (s : State) (k : PostId) : Prop :=
  (s.webviews (s.posts k).webview).strong = 0

/-- The posts are about WebViews that exist, and those are on run loops that exist. -/
structure Registered (s : State) : Prop where
  webview : ∀ k < s.nextPost, (s.posts k).webview < s.nextWebView
  sender : ∀ k < s.nextPost, (s.posts k).sender = (s.webviews (s.posts k).webview).sender
  gen : ∀ w < s.nextWebView, (s.webviews w).sender < s.nextGen

theorem Registered.lt {s : State} (h : s.Registered) {k : PostId} (hk : k < s.nextPost) :
    (s.posts k).sender < s.nextGen :=
  h.sender k hk ▸ h.gen _ (h.webview k hk)

/-- What no step changes of a post that has begun. -/
structure Keeps (s s' : State) (k : PostId) : Prop where
  kin : (s.posts k).Kin (s'.posts k)
  lead : (s.webviews (s.posts k).webview).Leads (s'.webviews (s.posts k).webview)
  owner : (s'.targets (s.posts k).sender).owner = (s.targets (s.posts k).sender).owner
  dropped : (s.targets (s.posts k).sender).dropped = true →
    (s'.targets (s.posts k).sender).dropped = true

theorem kin_update {s : State} {k : PostId} {p : Post} (h : (s.posts k).Kin p) (k' : PostId) :
    (s.posts k').Kin (Function.update s.posts k p k') := by
  by_cases hk : k' = k
  · subst hk
    simpa using h
  · simpa [hk] using Post.Kin.rfl

theorem kin_setRun {p : Post} {r : RunPc} : p.Kin { p with run := r } := ⟨rfl, rfl, rfl⟩

theorem Trail.keeps {s s' : State} {a : Action} (h : Trail b s a s') (hr : s.Registered)
    {k : PostId} (hk : k < s.nextPost) : s.Keeps s' k := by
  -- a step of a run loop
  have htarget : ∀ g t, t.owner = (s.targets g).owner →
      ((s.targets g).dropped = true → t.dropped = true) → ∀ g',
      (Function.update s.targets g t g').owner = (s.targets g').owner ∧
        ((s.targets g').dropped = true → (Function.update s.targets g t g').dropped = true) := by
    intro g t ho hd g'
    by_cases hg : g' = g
    · subst hg
      simpa using ⟨ho, hd⟩
    · simp [hg]
  cases h with
  | turn _ k' p ws store ht hkin hlead => exact ⟨kin_update hkin k, hlead _, rfl, id⟩
  | queue k' hpc =>
      have hkin : (s.posts k').Kin { s.posts k' with pc := .enqueued, run := .sent } :=
        ⟨rfl, rfl, rfl⟩
      have hold := htarget (s.posts k').sender { s.targets (s.posts k').sender with
        loop := (s.targets (s.posts k').sender).loop.push (.post k') } rfl id (s.posts k).sender
      exact ⟨kin_update hkin k, .rfl, hold.1, hold.2⟩
  | begin _ w t d n store hw =>
      have hne : k ≠ s.nextPost := Nat.ne_of_lt hk
      refine ⟨?_, .rfl, rfl, id⟩
      simpa [State.begin, setPost, hne] using Post.Kin.rfl
  | env _ ts ng nw ws store _ hold _ _ hlead _ =>
      obtain ⟨_, howner, hdropped⟩ := hold _ (hr.lt hk)
      exact ⟨.rfl, hlead _ (hr.webview k hk), howner, hdropped⟩
  | loopQuiet g a l _ _ _ _ _ =>
      have hold := htarget g { s.targets g with loop := l } rfl id (s.posts k).sender
      exact ⟨.rfl, .rfl, hold.1, hold.2⟩
  | loopStart g a l c _ _ _ _ _ =>
      have hold := htarget g { s.targets g with loop := l } rfl id (s.posts k).sender
      cases c with
      | post k' => exact ⟨kin_update kin_setRun k, .rfl, hold.1, hold.2⟩
      | other n => exact ⟨.rfl, .rfl, hold.1, hold.2⟩
  | discard g _ _ =>
      have hold := htarget g { s.targets g with
        dropped := true, loop := (s.targets g).loop.discard } rfl (fun _ => rfl) (s.posts k).sender
      refine ⟨?_, .rfl, hold.1, hold.2⟩
      dsimp only
      split
      · exact kin_setRun
      · exact .rfl

theorem Keeps.here {s s' : State} {k : PostId} (h : s.Keeps s' k) : s'.here k = s.here k := by
  simp only [State.here, h.kin.thread, h.kin.sender, h.owner]

theorem Keeps.closed {s s' : State} {k : PostId} (h : s.Keeps s' k) (hc : s.Closed k) :
    s'.Closed k := by
  rw [Closed, h.kin.webview]
  exact h.lead.2 hc

theorem Keeps.queueGone {s s' : State} {k : PostId} (h : s.Keeps s' k) (hg : s.QueueGone b k) :
    s'.QueueGone b k := by
  rw [QueueGone, h.kin.sender]
  exact ⟨hg.1, h.dropped hg.2⟩

theorem Trail.nextWebView_le {s s' : State} {a : Action} (h : Trail b s a s') :
    s.nextWebView ≤ s'.nextWebView := by
  cases h with
  | env _ ts ng nw ws store _ _ _ hnw _ _ => exact hnw
  | loopStart g a l c _ _ _ _ _ => cases c <;> exact Nat.le_refl _
  | _ => exact Nat.le_refl _

/-- A step begins a post on a WebView that exists, or none. -/
theorem Trail.nextPost_cases {s s' : State} {a : Action} (h : Trail b s a s') :
    s'.nextPost = s.nextPost ∨ ∃ w t d, w < s.nextWebView ∧ s'.nextPost = s.nextPost + 1 ∧
      s'.webviews = s.webviews ∧ s'.posts s.nextPost =
        { webview := w, sender := (s.webviews w).sender, thread := t, dataId := d,
          pc := .entered } := by
  cases h with
  | begin _ w t d n store hw => exact .inr ⟨w, t, d, hw, rfl, rfl, by simp [State.begin, setPost]⟩
  | loopStart g a l c _ _ _ _ _ => cases c <;> exact .inl rfl
  | _ => exact .inl rfl

theorem Registered.init : Registered ({} : State) where
  webview _ h := (nomatch h)
  sender _ h := (nomatch h)
  gen _ h := (nomatch h)

theorem Registered.step {s s' : State} {a : Action} (hr : s.Registered) (h : Trail b s a s') :
    s'.Registered := by
  have hold : ∀ k < s.nextPost, (s'.posts k).webview < s'.nextWebView ∧
      (s'.posts k).sender = (s'.webviews (s'.posts k).webview).sender := by
    intro k hk
    have hkeep := h.keeps hr hk
    rw [hkeep.kin.webview, hkeep.kin.sender, hkeep.lead.1]
    exact ⟨Nat.lt_of_lt_of_le (hr.webview k hk) h.nextWebView_le, hr.sender k hk⟩
  have hposts : ∀ k < s'.nextPost, (s'.posts k).webview < s'.nextWebView ∧
      (s'.posts k).sender = (s'.webviews (s'.posts k).webview).sender := by
    intro k hk
    rcases h.nextPost_cases with he | ⟨w, t, d, hw, he, hws, hp⟩
    · exact hold k (he ▸ hk)
    · rcases Nat.lt_succ_iff_lt_or_eq.1 (he ▸ hk) with hlt | rfl
      · exact hold k hlt
      · rw [hp, hws]
        exact ⟨Nat.lt_of_lt_of_le hw h.nextWebView_le, rfl⟩
  refine ⟨fun k hk => (hposts k hk).1, fun k hk => (hposts k hk).2, fun w hw => ?_⟩
  cases h with
  | turn _ k p ws store _ _ hlead => exact (hlead w).1 ▸ hr.gen w hw
  | env _ ts ng nw ws store _ _ hng _ hlead hnew =>
      rcases Nat.lt_or_ge w s.nextWebView with hlt | hge
      · rw [(hlead w hlt).1]
        exact Nat.lt_of_lt_of_le (hr.gen w hlt) hng
      · exact hnew w hw hge
  | loopStart g a l c _ _ _ _ _ => cases c <;> exact hr.gen w hw
  | queue | begin | loopQuiet | discard => exact hr.gen w hw

/-- How the place of a post's closure changes in a step. -/
inductive Change (b : Backend) (s s' : State) (k : PostId) : Prop
  | same : s'.posts k = s.posts k → (s'.Taken k ↔ s.Taken k) → (s'.Began k ↔ s.Began k) →
      Change b s s' k
  | turn : Turn (s.here k = true) (s.QueueGone b k) (s.webviews (s.posts k).webview).strong
      (s.posts k) (s'.posts k).pc (s'.posts k).run (s'.posts k).panicked →
      (s'.Taken k ↔ s.Taken k) → (s'.Began k ↔ s.Began k) → Change b s s' k
  | queue : (s.posts k).pc = .checked → (s'.posts k).pc = .enqueued →
      (s'.posts k).run = .sent → s'.Taken k → Change b s s' k
  | start : (s.posts k).run = .sent → (s'.posts k).pc = (s.posts k).pc →
      (s'.posts k).run = .started → (s'.Taken k ↔ s.Taken k) → s'.Began k → Change b s s' k
  | destroy : (s.posts k).run = .sent → (s'.posts k).pc = (s.posts k).pc →
      (s'.posts k).run = .destroyed → s.Taken k → s'.QueueGone b k → Change b s s' k

theorem startRun_targets (s : State) (c : Sent) : (s.startRun c).targets = s.targets := by
  cases c <;> rfl

theorem startRun_posts_of_ne (s : State) {c : Sent} {k : PostId}
    (h : c ≠ .post k) :
    (s.startRun c).posts k = s.posts k := by
  cases c with
  | other n => rfl
  | post k' =>
      have hne : k ≠ k' := fun he => h (he ▸ rfl)
      simp [startRun, setPost, hne]

theorem Change.of_same {s s' : State} {k : PostId} (hp : s'.posts k = s.posts k)
    (ha : .post k ∈ (s'.targets (s.posts k).sender).loop.accepted ↔
      .post k ∈ (s.targets (s.posts k).sender).loop.accepted)
    (hs : .post k ∈ (s'.targets (s.posts k).sender).loop.started ↔
      .post k ∈ (s.targets (s.posts k).sender).loop.started) : Change b s s' k :=
  .same hp (by rwa [Taken, hp]) (by rwa [Began, hp])

theorem Trail.change {s s' : State} {a : Action} (h : Trail b s a s') (hl : s.Linked)
    (hr : s.Registered) {k : PostId} (hk : k < s.nextPost) : Change b s s' k := by
  cases h with
  | turn _ k' p ws store ht hkin hlead =>
      by_cases he : k = k'
      · subst he
        refine .turn ?_ ?_ ?_
        · simpa using ht
        · simp [Taken, hkin.sender]
        · simp [Began, hkin.sender]
      · exact .of_same (by simp [he]) .rfl .rfl
  | queue k' hpc =>
      by_cases he : k = k'
      · subst he
        exact .queue hpc (by simp [setPost]) (by simp [setPost])
          (by simp [Taken, setPost, setTarget, Loop.push])
      · refine .of_same (by simp [setPost, setTarget, he]) ?_ ?_
        · by_cases hg : (s.posts k).sender = (s.posts k').sender <;>
            simp [setPost, setTarget, hg, Loop.push, he]
        · by_cases hg : (s.posts k).sender = (s.posts k').sender <;>
            simp [setPost, setTarget, hg, Loop.push]
  | begin _ w t d n store hw =>
      exact .of_same (by simp [State.begin, setPost, Nat.ne_of_lt hk]) .rfl .rfl
  | env _ ts ng nw ws store _ hold _ _ _ _ =>
      have hloop := (hold _ (hr.lt hk)).1
      exact .of_same rfl (by simp [hloop]) (by simp [hloop])
  | loopQuiet g a l _ _ _ ha hs =>
      refine .of_same rfl ?_ ?_
      · by_cases hg : (s.posts k).sender = g <;> simp [setTarget, hg, ha]
      · by_cases hg : (s.posts k).sender = g <;> simp [setTarget, hg, hs]
  | loopStart g a l c _ _ hc ha hs =>
      by_cases he : c = .post k
      · subst he
        have hsender := (hl.known g k ((hl.wf g).mem_unstarted.1 hc).1).1
        refine .start (hl.waiting g k hc) ?_ ?_ ?_ ?_
        all_goals simp [startRun, setPost, setTarget, Taken, Began, hsender, ha, hs]
      · refine .of_same (startRun_posts_of_ne _ he) ?_ ?_
        · by_cases hg : (s.posts k).sender = g <;> simp [startRun_targets, setTarget, hg, ha]
        · by_cases hg : (s.posts k).sender = g <;>
            simp [startRun_targets, setTarget, hg, hs, Ne.symm he]
  | discard g _ hb =>
      have hwf := hl.wf g
      by_cases hc : .post k ∈ (s.targets g).loop.state.callbacks
      · have hu := List.mem_append_left (s.targets g).loop.parked hc
        have hacc := (hwf.mem_unstarted.1 hu).1
        have hsender := (hl.known g k hacc).1
        refine .destroy (hl.waiting g k hu) (by simp [hc]) (by simp [hc]) ?_ ⟨hb, ?_⟩
        · rwa [Taken, hsender]
        · simp [hc, hsender, setTarget]
      · refine .of_same (by simp [hc]) ?_ ?_
        · by_cases hg : (s.posts k).sender = g
          · simp [setTarget, hg, Loop.discard, hwf.accepted.mem_iff, Loop.unstarted, hc]
          · simp [setTarget, hg]
        · by_cases hg : (s.posts k).sender = g <;> simp [setTarget, hg, Loop.discard]

end State

/-! ## Where a post is -/

/-- Where post `p` is: `own` says that it was made on the thread of the run loop, `taken`
that the queue has taken its closure, `began` that a dispatch pass has started it, `gone`
that the queue has gone, `applied` that its operation was begun, and `closed` that none can
be any more. -/
structure Post.Placed (own taken began gone applied closed : Prop) (p : Post) : Prop where
  inline : p.pc = .inline → own
  away : p.pc = .checked ∨ p.pc = .invoking ∨ p.pc = .enqueued → ¬ own
  here : own → ¬ taken
  queued : taken → p.pc = .enqueued ∨ ∃ r, p.pc = .returned r
  kept : p.pc = .enqueued ∨ p.pc = .returned (.ok ()) →
    (applied ∨ closed) ∨ taken ∨ ¬ own ∧ gone
  started : p.run = .started → p.pc = .inline ∨ p.pc = .invoking ∨ began
  upgraded : p.run = .upgraded → applied ∨ p.pc = .invoking
  ended : p.run = .ended →
    applied ∨ closed ∨ p.panicked = true ∧ (p.pc = .invoking ∨ p.pc = .unwound)

section Placed

variable {own taken taken' began began' gone gone' applied applied' closed closed' : Prop}
variable {p p' : Post}

/-- Nobody but the posting thread has to do with the closure, or it was refused. -/
theorem Post.Placed.alone (hpc : p.pc ≠ .inline ∧ p.pc ≠ .checked ∧ p.pc ≠ .invoking ∧
      p.pc ≠ .enqueued ∧ p.pc ≠ .returned (.ok ()))
    (hr : p.run ≠ .started ∧ p.run ≠ .upgraded ∧ p.run ≠ .ended) (ht : ¬ taken) :
    p.Placed own taken began gone applied closed where
  inline h := absurd h hpc.1
  away h := by simp [hpc] at h
  here _ := ht
  queued h := absurd h ht
  kept h := by simp [hpc] at h
  started h := absurd h hr.1
  upgraded h := absurd h hr.2.1
  ended h := absurd h hr.2.2

/-- A step that leaves the posting thread where it is. -/
theorem Post.Placed.carry (h : p.Placed own taken began gone applied closed)
    (hpc : p'.pc = p.pc) (happ : applied → applied') (hclosed : closed → closed')
    (hgone : gone → gone') (htaken : taken' → taken) (hkept : taken → taken' ∨ ¬ own ∧ gone')
    (hstarted : p'.run = .started → p.pc = .inline ∨ p.pc = .invoking ∨ began')
    (hupgraded : p'.run = .upgraded → applied' ∨ p.pc = .invoking)
    (hended : p'.run = .ended →
      applied' ∨ closed' ∨ p'.panicked = true ∧ (p.pc = .invoking ∨ p.pc = .unwound)) :
    p'.Placed own taken' began' gone' applied' closed' where
  inline hi := h.inline (hpc ▸ hi)
  away ha := h.away (hpc ▸ ha)
  here ho ht := h.here ho (htaken ht)
  queued ht := hpc ▸ h.queued (htaken ht)
  kept hk := by
    rcases h.kept (hpc ▸ hk) with (ha | hc) | ht | ⟨ho, hg⟩
    · exact .inl (.inl (happ ha))
    · exact .inl (.inr (hclosed hc))
    · exact .inr (hkept ht)
    · exact .inr (.inr ⟨ho, hgone hg⟩)
  started hs := hpc ▸ hstarted hs
  upgraded hu := hpc ▸ hupgraded hu
  ended he := hpc ▸ hended he

/-- The closure was executed in place, and is at its end. -/
theorem Post.Placed.executed (hr : p.run = .ended)
    (hpc : p.pc = .unwound ∧ p.panicked = true ∨
      (p.pc = .enqueued ∧ ¬ own ∨ p.pc = .returned (.ok ())) ∧ (applied ∨ closed))
    (ht : ¬ taken) : p.Placed own taken began gone applied closed where
  inline h := by simp [h] at hpc
  away h := by
    rcases hpc with ⟨hpc, _⟩ | ⟨⟨_, ho⟩ | hpc, _⟩
    · simp [hpc] at h
    · exact ho
    · simp [hpc] at h
  here _ := ht
  queued h := absurd h ht
  kept h := by
    rcases hpc with ⟨hpc, _⟩ | ⟨_, hdone⟩
    · simp [hpc] at h
    · exact .inl hdone
  started h := (nomatch hr.symm.trans h)
  upgraded h := (nomatch hr.symm.trans h)
  ended _ := by
    rcases hpc with ⟨hpc, hp⟩ | ⟨_, ha | hc⟩
    · exact .inr (.inr ⟨hp, .inr hpc⟩)
    · exact .inl ha
    · exact .inr (.inl hc)

/-- Before the queue takes the closure it does not have it. -/
theorem Post.Placed.not_taken (h : p.Placed own taken began gone applied closed)
    (henqueued : p.pc ≠ .enqueued) (hreturned : ∀ r, p.pc ≠ .returned r) : ¬ taken := fun ht =>
  (h.queued ht).elim henqueued fun ⟨r, hr⟩ => hreturned r hr

/-- A turn of the post: an upgrade off `g_main_context_invoke_full` begins the operation. -/
theorem Post.Placed.turn {strong : Nat} (h : p.Placed own taken began gone applied closed)
    (hp : p.Sound) (ht : Turn own gone strong p p'.pc p'.run p'.panicked) (hgone : gone → gone')
    (happ : applied → applied') (hclosed : closed → closed') (hz : strong = 0 → closed')
    (hopen : p.run = .started → p'.run = .upgraded → p.pc ≠ .invoking → applied') :
    p'.Placed own taken began gone' applied' closed' := by
  generalize hpc : p'.pc = pc, hrun : p'.run = run, hpan : p'.panicked = panicked at ht
  -- a closure that was executed has done what it does
  have ran (he : p.run = .ended) (hpan : p.panicked = false) : applied' ∨ closed' := by
    rcases h.ended he with ha | hc | ⟨hp, _⟩
    · exact .inl (happ ha)
    · exact .inr (hclosed hc)
    · exact absurd hp (by simp [hpan])
  cases ht with
  | closed e he =>
      have hr := (hp.entered he).1
      exact .alone (by simp [hpc]) (by simp [hrun, hr]) (h.not_taken (by simp [he]) (by simp [he]))
  | build he =>
      exact .alone (by simp [hpc]) (by simp [hrun]) (h.not_taken (by simp [he]) (by simp [he]))
  | inline hb ho =>
      have hnot := h.here ho
      exact {
        inline := fun _ => ho
        away := by simp [hpc]
        here := fun _ => hnot
        queued := fun ht => absurd ht hnot
        kept := by simp [hpc]
        started := fun _ => .inl hpc
        upgraded := by simp [hrun]
        ended := by simp [hrun] }
  | check hb ho =>
      have hr := hp.held (.inl hb)
      exact {
        inline := by simp [hpc]
        away := fun _ => ho
        here := fun ho' => absurd ho' ho
        queued := fun ht => absurd ht (h.not_taken (by simp [hb]) (by simp [hb]))
        kept := by simp [hpc]
        started := by simp [hrun, hr]
        upgraded := by simp [hrun, hr]
        ended := by simp [hrun, hr] }
  | refuse e hb =>
      have hnot : ¬ taken := by
        rcases hb with hb | hb <;> exact h.not_taken (by simp [hb]) (by simp [hb])
      exact .alone (by simp [hpc]) (by simp [hrun]) hnot
  | lose hc hg =>
      have ho := h.away (.inl hc)
      exact {
        inline := by simp [hpc]
        away := fun _ => ho
        here := fun ho' => absurd ho' ho
        queued := fun _ => .inl hpc
        kept := fun _ => .inr (.inr ⟨ho, hgone hg⟩)
        started := by simp [hrun]
        upgraded := by simp [hrun]
        ended := by simp [hrun] }
  | invoke hc =>
      have ho := h.away (.inl hc)
      exact {
        inline := by simp [hpc]
        away := fun _ => ho
        here := fun ho' => absurd ho' ho
        queued := fun ht => absurd ht (h.not_taken (by simp [hc]) (by simp [hc]))
        kept := by simp [hpc]
        started := fun _ => .inr (.inl hpc)
        upgraded := by simp [hrun]
        ended := by simp [hrun] }
  | inlineDone hi he =>
      refine .executed (by rw [hrun, he]) ?_ (h.here (h.inline hi))
      cases hp' : p.panicked with
      | true => exact .inl ⟨by simp [hpc, hp'], hpan.trans hp'⟩
      | false => exact .inr ⟨.inr (by simp [hpc, hp']), ran he hp'⟩
  | invokeDone hi he =>
      refine .executed (by rw [hrun, he]) ?_ (h.not_taken (by simp [hi]) (by simp [hi]))
      cases hp' : p.panicked with
      | true => exact .inl ⟨by simp [hpc, hp'], hpan.trans hp'⟩
      | false => exact .inr ⟨.inl ⟨by simp [hpc, hp'], h.away (.inr (.inl hi))⟩, ran he hp'⟩
  | accept r he =>
      have ho := h.away (.inr (.inr he))
      exact {
        inline := by simp [hpc]
        away := fun _ => ho
        here := fun ho' => absurd ho' ho
        queued := fun _ => .inr ⟨r, hpc⟩
        kept := fun _ => (h.kept (.inl he)).imp (Or.imp happ hclosed)
          (Or.imp_right (And.imp_right hgone))
        started := fun hs => .inr (.inr (by simpa [he] using h.started (hrun ▸ hs)))
        upgraded := fun hu => .inl (happ (by simpa [he] using h.upgraded (hrun ▸ hu)))
        ended := fun hd => by
          have hd := h.ended (hrun ▸ hd)
          simp only [he] at hd
          exact hd.imp happ fun hd => .inl (hclosed (by simpa using hd)) }
  | abandon hr h0 =>
      exact h.carry hpc happ hclosed hgone id .inl (by simp [hrun]) (by simp [hrun])
        fun _ => .inr (.inl (hz h0))
  | upgrade hr h0 =>
      refine h.carry hpc happ hclosed hgone id .inl (by simp [hrun]) (fun hu => ?_) (by simp [hrun])
      by_cases hi : p.pc = .invoking
      · exact .inr hi
      · exact .inl (hopen hr hu hi)
  | finish pan hr hi =>
      refine h.carry hpc happ hclosed hgone id .inl (by simp [hrun]) (by simp [hrun]) fun _ => ?_
      rcases h.upgraded hr with ha | hinv
      · exact .inl (happ ha)
      · exact .inr (.inr ⟨by rw [hpan, hi hinv], .inl hinv⟩)
  | evalPending hr =>
      refine h.carry hpc happ hclosed hgone id .inl (by simp [hrun]) (by simp [hrun]) fun _ => ?_
      rw [hpan]
      exact (h.ended hr).imp happ (Or.imp_left hclosed)

end Placed

/-- The place of a post in a state, with the operations begun so far. -/
def State.PlacedAt (b : Backend) (s : State) (applied : List PostId) (k : PostId) : Prop :=
  (s.posts k).Placed (s.here k = true) (s.Taken k) (s.Began k) (s.QueueGone b k) (k ∈ applied)
    (s.Closed k)

theorem State.PlacedAt.change {s s' : State} {l l' : List PostId} {k : PostId}
    (h : s.PlacedAt b l k) (hp : (s.posts k).Sound) (hc : Change b s s' k) (hk : s.Keeps s' k)
    (hl : k ∈ l → k ∈ l')
    (hopen : (s.posts k).run = .started → (s'.posts k).run = .upgraded →
      (s.posts k).pc ≠ .invoking → k ∈ l') : s'.PlacedAt b l' k := by
  have hclosed : s.Closed k → s'.Closed k := hk.closed
  have hgone : s.QueueGone b k → s'.QueueGone b k := hk.queueGone
  rw [PlacedAt, hk.here]
  cases hc with
  | same he ht hb =>
      rw [he, ht, hb]
      exact Post.Placed.carry h rfl hl hclosed hgone id .inl h.started
        (fun hu => (h.upgraded hu).imp_left hl) fun he => (h.ended he).imp hl (Or.imp_left hclosed)
  | turn hturn ht hb =>
      rw [ht, hb]
      exact Post.Placed.turn h hp hturn hgone hl hclosed hclosed hopen
  | queue hpc hpc' hr' ht =>
      have hown := h.away (.inl hpc)
      exact {
        inline := by simp [hpc']
        away := fun _ => hown
        here := fun ho => absurd ho hown
        queued := fun _ => .inl hpc'
        kept := fun _ => .inr (.inl ht)
        started := by simp [hr']
        upgraded := by simp [hr']
        ended := by simp [hr'] }
  | start hr hpc hr' ht hb =>
      rw [ht]
      exact Post.Placed.carry h hpc hl hclosed hgone id .inl (fun _ => .inr (.inr hb))
        (by simp [hr']) (by simp [hr'])
  | destroy hr hpc hr' ht hgone' =>
      have hown : ¬ s.here k = true := fun hown => h.here hown ht
      exact Post.Placed.carry h hpc hl hclosed hgone (fun _ => ht) (fun _ => .inr ⟨hown, hgone'⟩)
        (by simp [hr']) (by simp [hr']) (by simp [hr'])

/-! ## How a closure goes on -/

/-- A closure that has left the posting thread only goes on. -/
theorem Turn.run_cases {own gone : Prop} {strong : Nat} {p : Post} {pc : CallPc} {run : RunPc}
    {panicked : Bool} (h : Turn own gone strong p pc run panicked) (hp : p.Sound)
    (hnone : p.run ≠ .none) (hheld : p.run ≠ .held) :
    run = p.run ∨ p.run = .started ∧ (run = .upgraded ∨ run = .ended) ∨
      p.run = .upgraded ∧ run = .ended := by
  obtain ⟨hent, hgiven⟩ := hp.past hnone hheld
  cases h with
  | closed e he | build he => exact absurd he hent
  | inline hb => exact absurd (.inl hb) hgiven
  | refuse e hb => exact absurd hb hgiven
  | lose hc | invoke hc => exact absurd (.inr hc) hgiven
  | check | inlineDone | invokeDone | accept => exact .inl rfl
  | evalPending hr => exact .inl hr.symm
  | abandon hr => exact .inr (.inl ⟨hr, .inr rfl⟩)
  | upgrade hr => exact .inr (.inl ⟨hr, .inl rfl⟩)
  | finish _ hr => exact .inr (.inr ⟨hr, rfl⟩)

/-- An operation begins only on a WebView that is there. -/
theorem Turn.not_closed {own gone : Prop} {strong : Nat} {p : Post} {pc : CallPc} {run : RunPc}
    {panicked : Bool} (h : Turn own gone strong p pc run panicked) (hr : p.run = .started)
    (hr' : run = .upgraded) : strong ≠ 0 := by
  cases h with
  | upgrade _ h0 => exact h0
  | closed | check | inlineDone | invokeDone | accept => exact (nomatch hr.symm.trans hr')
  | build | inline | refuse | lose | invoke | abandon | finish | evalPending => cases hr'

theorem Turn.returned {own gone : Prop} {strong : Nat} {p : Post} {pc : CallPc} {run : RunPc}
    {panicked : Bool} (h : Turn own gone strong p pc run panicked) {r : Except Error Unit}
    (hr : p.pc = .returned r) : pc = .returned r := by
  cases h with
  | closed e hpc | build hpc | inline hpc | check hpc | lose hpc | invoke hpc | inlineDone hpc
  | invokeDone hpc | accept r hpc => exact (nomatch hr.symm.trans hpc)
  | refuse e hpc => rcases hpc with hpc | hpc <;> exact (nomatch hr.symm.trans hpc)
  | abandon | upgrade | finish | evalPending => exact hr

namespace State

variable {s s' : State} {k : PostId}

theorem Change.returned (h : Change b s s' k) {r : Except Error Unit}
    (hr : (s.posts k).pc = .returned r) : (s'.posts k).pc = .returned r := by
  cases h with
  | same hp => rwa [hp]
  | turn ht => exact ht.returned hr
  | queue hpc => exact (nomatch hr.symm.trans hpc)
  | start _ hpc | destroy _ hpc => rwa [hpc]

/-- The operation has begun. -/
theorem Change.opened (h : Change b s s' k) (hp : (s.posts k).Sound)
    (ho : (s.posts k).run = .upgraded ∨ (s.posts k).run = .ended) :
    (s'.posts k).run = .upgraded ∨ (s'.posts k).run = .ended := by
  have hnone : (s.posts k).run ≠ .none ∧ (s.posts k).run ≠ .held ∧ (s.posts k).run ≠ .sent := by
    rcases ho with ho | ho <;> simp [ho]
  cases h with
  | same he => rwa [he]
  | turn ht =>
      rcases ht.run_cases hp hnone.1 hnone.2.1 with he | ⟨_, hr⟩ | ⟨_, hr⟩
      · rwa [he]
      · exact hr
      · exact .inr hr
  | queue hpc => exact absurd (hp.held (.inr hpc)) hnone.2.1
  | start hr | destroy hr => exact absurd hr hnone.2.2

theorem Change.not_closed (h : Change b s s' k) (hr : (s.posts k).run = .started)
    (hr' : (s'.posts k).run = .upgraded) : ¬ s.Closed k := by
  cases h with
  | same he => exact (nomatch (he ▸ hr').symm.trans hr)
  | turn ht =>
      exact ht.not_closed hr hr'
  | queue _ _ hs | destroy _ _ hs => exact (nomatch hr'.symm.trans hs)
  | start hs => exact (nomatch hr.symm.trans hs)

/-! ## The run loops -/

/-- How the run loop of a target changes in a step. -/
inductive LoopChange (b : Backend) (l l' : Loop Sent TimerId) (a : Action) (g : Gen) : Prop
  | same : l' = l → LoopChange b l l' a g
  | push (k : PostId) : a = .enqueue k .queued → l' = l.push (.post k) → LoopChange b l l' a g
  | step (la : Act Sent TimerId) : a = .loop g la → l.step b la = some l' →
      (∀ k, .post k ∈ l'.accepted ↔ .post k ∈ l.accepted) → LoopChange b l l' a g
  | discard : l' = l.discard → LoopChange b l l' a g

/-- The run loop of a target that is there; another one is empty, or becomes it. -/
theorem Trail.loop_cases {a : Action} (h : Trail b s a s') (g : Gen) :
    LoopChange b (s.targets g).loop (s'.targets g).loop a g ∨
      s.nextGen ≤ g ∧ (s'.targets g).loop = {} := by
  cases h with
  | turn | begin => exact .inl (.same rfl)
  | queue k hpc =>
      by_cases hg : g = (s.posts k).sender
      · exact .inl (.push k rfl (by simp [setPost, setTarget, hg]))
      · exact .inl (.same (by simp [setPost, setTarget, hg]))
  | env _ ts ng nw ws store hl hold _ _ _ _ =>
      by_cases hg : g < s.nextGen
      · exact .inl (.same (hold g hg).1)
      · rcases hl g with hg' | hg'
        · exact .inl (.same hg')
        · exact .inr ⟨Nat.le_of_not_lt hg, hg'⟩
  | loopQuiet g' la l _ _ hstep ha _ =>
      by_cases hg : g = g'
      · subst hg
        exact .inl (.step la rfl (by simpa [setTarget] using hstep)
          (by simpa [setTarget] using ha))
      · exact .inl (.same (by simp [setTarget, hg]))
  | loopStart g' la l c _ hstep _ ha _ =>
      rw [startRun_targets]
      by_cases hg : g = g'
      · subst hg
        exact .inl (.step la rfl (by simpa [setTarget] using hstep) (by simp [setTarget, ha]))
      · exact .inl (.same (by simp [setTarget, hg]))
  | discard g' _ =>
      by_cases hg : g = g'
      · subst hg
        exact .inl (.discard (by simp [setTarget]))
      · exact .inl (.same (by simp [setTarget, hg]))

/-- On Linux no callback is in the vector of a dispatch pass. -/
def Unparked (b : Backend) (s : State) : Prop := b = .linux → ∀ g, (s.targets g).loop.parked = []

theorem Unparked.step {a : Action} (hu : s.Unparked b) (h : Trail b s a s') : s'.Unparked b := by
  rintro rfl g
  have hg := hu rfl g
  rcases h.loop_cases g with hc | ⟨_, hc⟩
  · cases hc with
    | same he => rwa [he]
    | push k _ he => rwa [he]
    | step la _ hstep _ => exact RunLoop.parked_step_linux hg (Loop.step_cases hstep)
    | discard he => rwa [he]
  · rw [hc]
    rfl

/-- The queues are taken in order. -/
def InQueueOrder (s : State) : Prop := ∀ g, (s.targets g).loop.Ordered

theorem InQueueOrder.step {a : Action} (ho : s.InQueueOrder) (hu : s.Unparked b)
    (h : Trail b s a s') (hp : s.prompt b a = true)
    (hturn : ∀ g la, a = .loop g la → (s.targets g).loop.InOrder la) : s'.InQueueOrder := by
  intro g
  rcases h.loop_cases g with hc | ⟨_, hc⟩
  · cases hc with
    | same he => exact he ▸ ho g
    | push k _ he => exact he ▸ (ho g).push (.post k)
    | step la ha hstep _ =>
        refine (ho g).step (hturn g la ha) (fun c hc => ?_) (Loop.step_cases hstep)
        subst ha hc
        have hb : b = .linux := by
          by_contra hb
          simp [Loop.step, Loop.dispatchSource, hb] at hstep
        exact ⟨hu hb g, by simpa [prompt] using hp⟩
    | discard he =>
        rw [he]
        simp [Loop.Ordered, Loop.discard, Loop.parked]
  · rw [hc]
    rfl

/-- A closure that a dispatch pass has started is on top of the stack until its operation
has begun or it is at its end. -/
def OnTop (s : State) : Prop :=
  ∀ g k, .post k ∈ (s.targets g).loop.started →
    (s.posts k).run = .upgraded ∨ (s.posts k).run = .ended ∨
    (s.posts k).run = .started ∧ ∃ rest, (s.targets g).loop.stack = .callback (.post k) :: rest

theorem update_target {g' : Gen} {t : Target}
    (hs : t.loop.started = (s.targets g').loop.started)
    (hst : t.loop.stack = (s.targets g').loop.stack) (g : Gen) :
    (Function.update s.targets g' t g).loop.started = (s.targets g).loop.started ∧
      (Function.update s.targets g' t g).loop.stack = (s.targets g).loop.stack := by
  by_cases hg : g = g'
  · subst hg
    simp [hs, hst]
  · simp [hg]

theorem OnTop.step {a : Action} (ho : s.OnTop) (h : Trail b s a s') (hl : s.Linked)
    (hp : s.prompt b a = true) : s'.OnTop := by
  intro g k hk
  -- a closure that was started, by what it was
  have hrun : .post k ∈ (s.targets g).loop.started →
      (s.posts k).run ≠ .none ∧ (s.posts k).run ≠ .held ∧ (s.posts k).run ≠ .sent := by
    intro hk
    rcases ho g k hk with hr | hr | ⟨hr, _⟩ <;> simp [hr]
  cases h with
  | turn _ k' p ws store ht _ _ =>
      have hold := ho g k hk
      by_cases he : k = k'
      · subst he
        have hne := hrun hk
        simp only [Function.update_self]
        rcases ht.run_cases (hl.sound k) hne.1 hne.2.1 with hr | ⟨_, hr⟩ | ⟨_, hr⟩
        · rwa [hr]
        · rcases hr with hr | hr <;> simp [hr]
        · simp [hr]
      · simpa [he] using hold
  | queue k' hpc =>
      have hloop := update_target (s := s) (t := { s.targets (s.posts k').sender with
        loop := (s.targets (s.posts k').sender).loop.push (.post k') }) rfl rfl g
      have hk' : .post k ∈ (s.targets g).loop.started := hloop.1 ▸ hk
      have hne : k ≠ k' := by
        rintro rfl
        exact (hrun hk').2.1 ((hl.sound k).held (.inr hpc))
      simpa [setPost, setTarget, hne, hloop.2] using ho g k hk'
  | begin _ w t d n store hw =>
      have hne : k ≠ s.nextPost := by
        rintro rfl
        exact (hrun hk).1 (by rw [hl.fresh _ (Nat.le_refl _)])
      simpa [State.begin, setPost, hne] using ho g k hk
  | env _ ts ng nw ws store hloop _ _ _ _ _ =>
      rcases hloop g with he | he
      · simp only [he] at hk ⊢
        exact ho g k hk
      · simp only [he] at hk
        cases hk
  | loopQuiet g' la l _ hmay hstep _ hs =>
      by_cases hg : g = g'
      · subst hg
        simp only [setTarget, Function.update_self, hs] at hk ⊢
        rcases ho g k hk with hr | hr | ⟨hr, rest, hst⟩
        · exact .inl hr
        · exact .inr (.inl hr)
        · refine .inr (.inr ⟨hr, rest, ?_⟩)
          rcases ((Loop.step_cases hstep).callback_top hst).2 with he | rfl | rfl | rfl
          · rw [he, hst]
          · simp [mayStep, hst, hr] at hmay
          · simp [prompt, hst, hr] at hp
          · simp [prompt, hst, hr] at hp
      · simpa [setTarget, hg] using ho g k (by simpa [setTarget, hg] using hk)
  | loopStart g' la l c _ hstep hc ha hs =>
      rw [startRun_targets] at hk ⊢
      by_cases hck : c = .post k
      · subst hck
        have hg : g = g' := by
          by_contra hg
          have hk' : .post k ∈ (s.targets g).loop.started := by simpa [setTarget, hg] using hk
          have hsender := (hl.known g k ((hl.wf g).mem_accepted hk')).1
          exact hg (hsender.symm.trans (hl.known g' k ((hl.wf g').mem_unstarted.1 hc).1).1)
        subst hg
        obtain ⟨rest, hst⟩ := (Loop.step_cases hstep).start_top hs
        exact .inr (.inr ⟨by simp [startRun, setPost], rest, by simpa [setTarget] using hst⟩)
      · rw [startRun_posts_of_ne _ hck]
        by_cases hg : g = g'
        · subst hg
          simp only [setTarget, Function.update_self, hs, List.mem_append, List.mem_singleton,
            Ne.symm hck, or_false] at hk ⊢
          rcases ho g k hk with hr | hr | ⟨hr, rest, hst⟩
          · exact .inl hr
          · exact .inr (.inl hr)
          · -- nothing is started on top of a callback
            have hsame := ((Loop.step_cases hstep).callback_top hst).1
            simp [hs] at hsame
        · simpa [setTarget, hg] using ho g k (by simpa [setTarget, hg] using hk)
  | discard g' _ =>
      have hloop := update_target (s := s) (t := { s.targets g' with
        dropped := true, loop := (s.targets g').loop.discard }) rfl rfl g
      have hk' : .post k ∈ (s.targets g).loop.started := hloop.1 ▸ hk
      have hnot : .post k ∉ (s.targets g').loop.state.callbacks := fun hc =>
        (hrun hk').2.2 (hl.waiting g' k (List.mem_append_left _ hc))
      simpa [setTarget, hnot, hloop.2] using ho g k hk'

end State

/-! ## Every run -/

namespace Traced

/-- The operation of the post has begun, or never will. -/
def Gone (s : Traced ρ) (k : PostId) : Prop := k ∈ s.applied ∨ s.state.Closed k

/-- The queue of the run loop of `q` has taken `p` before `q`. -/
def QueuedBefore (s : State) (p q : PostId) : Prop :=
  [Sent.post p, .post q].Sublist (s.targets (s.posts q).sender).loop.accepted

structure Tracked (b : Backend) (s : Traced ρ) : Prop where
  linked : s.state.Linked
  registered : s.state.Registered
  unparked : s.state.Unparked b
  queues : s.state.InQueueOrder
  onTop : s.state.OnTop
  placed : ∀ k, s.state.PlacedAt b s.applied k
  opened : ∀ k ∈ s.applied, (s.state.posts k).run = .upgraded ∨ (s.state.posts k).run = .ended
  nodup : s.applied.Nodup
  seen : ∀ q, ∀ p ∈ s.seen q, (s.state.posts p).pc = .returned (.ok ())
  queued : ∀ q, ∀ p ∈ s.seen q, (s.state.posts p).webview = (s.state.posts q).webview →
    s.state.Taken q → s.Gone p ∨ QueuedBefore s.state p q
  order : s.KeepsOrder

/-- A step, with what it adds to the history. -/
structure Follows (b : Backend) (s s' : Traced ρ) (a : Action) : Prop where
  prompt : s.state.prompt b a = true
  step : s.state.step b a = some s'.state
  applied : s'.applied = s.applied ++ s.state.opens s'.state
  seen : s'.seen = s.seen ∨
    s'.seen = Function.update s.seen s.state.nextPost s.state.accepted

theorem Follows.of_follow {s s₀ s' : Traced ρ} {a : Action} (h : s₀.follow b a = some s')
    (hs : s₀.state = s.state) (ha : s₀.applied = s.applied)
    (hseen : s₀.seen = s.seen ∨
      s₀.seen = Function.update s.seen s.state.nextPost s.state.accepted) : Follows b s s' a := by
  simp only [follow, Option.ite_none_right_eq_some, Option.map_eq_some_iff, hs, ha] at h
  obtain ⟨hp, st, hst, rfl⟩ := h
  exact ⟨hp, hst, rfl, hseen⟩

theorem step_follows {s s' : Traced ρ} {ta : TracedAct ρ} (h : s.step b ta = some s') :
    ∃ a, Follows b s s' a ∧ ∀ g la, a = .loop g la → ta = .other (.loop g la) := by
  cases ta with
  | post w t op => exact ⟨_, .of_follow h rfl rfl (.inr rfl), nofun⟩
  | other a =>
      cases a with
      | post w t => cases h
      | sendLargeData w t body => exact ⟨_, .of_follow h rfl rfl (.inr rfl), nofun⟩
      | loop g la =>
          refine ⟨_, .of_follow h rfl rfl (.inl rfl), fun g' la' he => ?_⟩
          cases he
          rfl
      | newLoop | newWebView | dropWebView | ready | evalPending | activityDestroyed | shutdown
      | dropLoop | call | enqueue | run | fetch => exact ⟨_, .of_follow h rfl rfl (.inl rfl), nofun⟩

section Step

variable {s s' : Traced ρ} {a : Action} {p q k : PostId}

theorem Tracked.lt (h : s.Tracked b) (hk : s.state.posts k ≠ {}) : k < s.state.nextPost :=
  Nat.lt_of_not_le fun hle => hk (h.linked.fresh k hle)

theorem Tracked.seen_lt (h : s.Tracked b) (hp : p ∈ s.seen q) : p < s.state.nextPost := by
  refine h.lt fun he => ?_
  have hpc := h.seen q p hp
  rw [he] at hpc
  cases hpc

theorem Tracked.applied_lt (h : s.Tracked b) (hk : k ∈ s.applied) : k < s.state.nextPost := by
  refine h.lt fun he => ?_
  have hr := h.opened k hk
  simp [he] at hr

/-- Two posts on one WebView go to one run loop. -/
theorem Tracked.sender_eq (h : s.Tracked b) (hp : p < s.state.nextPost)
    (hq : q < s.state.nextPost)
    (hw : (s.state.posts p).webview = (s.state.posts q).webview) :
    (s.state.posts p).sender = (s.state.posts q).sender := by
  rw [h.registered.sender p hp, h.registered.sender q hq, hw]

theorem mem_opens {st st' : State} : k ∈ st.opens st' ↔ k < st.nextPost ∧
    (st.posts k).run = .started ∧ (st'.posts k).run = .upgraded ∧ (st.posts k).pc ≠ .invoking := by
  simp [State.opens]

theorem mem_accepted {st : State} :
    k ∈ st.accepted ↔ k < st.nextPost ∧ (st.posts k).pc = .returned (.ok ()) := by
  simp [State.accepted]

/-- What a post has seen is fixed when it begins. -/
theorem Follows.seen_eq (hf : Follows b s s' a) (hq : q < s.state.nextPost) : s'.seen q = s.seen q := by
  rcases hf.seen with he | he
  · rw [he]
  · rw [he, Function.update_of_ne (Nat.ne_of_lt hq)]

variable (hf : Follows b s s' a) (h : s.Tracked b)

include hf h

theorem Follows.trail : s.state.Trail b a s'.state := State.trail_cases h.linked.sound hf.step

theorem Follows.linked : s'.state.Linked :=
  h.linked.step (State.step_cases h.linked.sound hf.step)

theorem Follows.change (hk : k < s.state.nextPost) : State.Change b s.state s'.state k :=
  (hf.trail h).change h.linked h.registered hk

theorem Follows.keeps (hk : k < s.state.nextPost) : s.state.Keeps s'.state k :=
  (hf.trail h).keeps h.registered hk

/-- A post that a step begins, or one that has not begun. -/
theorem Follows.new (hk : s.state.nextPost ≤ k) :
    ((s'.state.posts k).pc = .idle ∨ (s'.state.posts k).pc = .entered) ∧
      (s'.state.posts k).run = .none := by
  by_cases hk' : s'.state.nextPost ≤ k
  · simp [(hf.linked h).fresh k hk']
  · rcases (hf.trail h).nextPost_cases with he | ⟨w, t, d, _, he, _, hp⟩
    · exact absurd (he ▸ hk) hk'
    · have hlt : k < s.state.nextPost + 1 := he ▸ Nat.lt_of_not_le hk'
      obtain rfl := Nat.le_antisymm (Nat.le_of_lt_succ hlt) hk
      simp [hp]

theorem Follows.not_taken_new (hk : s.state.nextPost ≤ k) : ¬ s'.state.Taken k := fun ht =>
  ((hf.linked h).known _ k ht).2.1 (hf.new h hk).2

theorem Follows.gone (hk : k < s.state.nextPost) (hg : s.Gone k) : s'.Gone k := by
  rcases hg with hg | hg
  · exact .inl (hf.applied ▸ List.mem_append_left _ hg)
  · exact .inr ((hf.keeps h hk).closed hg)

theorem Follows.placed (k : PostId) : s'.state.PlacedAt b s'.applied k := by
  by_cases hk : k < s.state.nextPost
  · refine (h.placed k).change (h.linked.sound k) (hf.change h hk) (hf.keeps h hk) ?_ ?_
    · exact fun hl => hf.applied ▸ List.mem_append_left _ hl
    · exact fun h1 h2 h3 => hf.applied ▸ List.mem_append_right _ (mem_opens.2 ⟨hk, h1, h2, h3⟩)
  · have hk := Nat.le_of_not_lt hk
    refine .alone ?_ (by simp [(hf.new h hk).2]) (hf.not_taken_new h hk)
    rcases (hf.new h hk).1 with hpc | hpc <;> simp [hpc]

theorem Follows.opened (hk : k ∈ s'.applied) :
    (s'.state.posts k).run = .upgraded ∨ (s'.state.posts k).run = .ended := by
  rw [hf.applied, List.mem_append] at hk
  rcases hk with hk | hk
  · exact (hf.change h (h.applied_lt hk)).opened (h.linked.sound k) (h.opened k hk)
  · exact .inl (mem_opens.1 hk).2.2.1

theorem Follows.nodup : s'.applied.Nodup := by
  rw [hf.applied, List.nodup_append]
  refine ⟨h.nodup, List.nodup_range.filter _, fun k hk k' hk' he => ?_⟩
  subst he
  have hr := (mem_opens.1 hk').2.1
  have ho := h.opened k hk
  simp [hr] at ho

theorem Follows.seen_returned (hp : p ∈ s'.seen q) :
    (s'.state.posts p).pc = .returned (.ok ()) := by
  have hold : p < s.state.nextPost ∧ (s.state.posts p).pc = .returned (.ok ()) := by
    rcases hf.seen with he | he
    · rw [he] at hp
      exact ⟨h.seen_lt hp, h.seen q p hp⟩
    · by_cases hq : q = s.state.nextPost
      · subst hq
        rw [he, Function.update_self] at hp
        exact mem_accepted.1 hp
      · rw [he, Function.update_of_ne hq] at hp
        exact ⟨h.seen_lt hp, h.seen q p hp⟩
  exact (hf.change h hold.1).returned hold.2

theorem Follows.queued (hp : p ∈ s'.seen q)
    (hw : (s'.state.posts p).webview = (s'.state.posts q).webview) (ht : s'.state.Taken q) :
    s'.Gone p ∨ QueuedBefore s'.state p q := by
  have hq : q < s.state.nextPost := Nat.lt_of_not_le fun hle => hf.not_taken_new h hle ht
  rw [hf.seen_eq hq] at hp
  have hlt := h.seen_lt hp
  have hkp := hf.keeps h hlt
  have hkq := hf.keeps h hq
  rw [hkp.kin.webview, hkq.kin.webview] at hw
  -- what held before, where the queue only grows
  have old (ht : s.state.Taken q)
      (hsub : QueuedBefore s.state p q → QueuedBefore s'.state p q) :
      s'.Gone p ∨ QueuedBefore s'.state p q :=
    (h.queued q p hp hw ht).imp (hf.gone h hlt) hsub
  rw [State.Taken, hkq.kin.sender] at ht
  simp only [QueuedBefore, hkq.kin.sender] at old ⊢
  rcases (hf.trail h).loop_cases (s.state.posts q).sender with hc | ⟨hle, _⟩
  · cases hc with
    | same he =>
        rw [he] at ht old ⊢
        exact old ht id
    | push k ha he =>
        rw [he] at ht old ⊢
        by_cases hk : q = k
        · -- `q` enters the queue, which has not gone
          subst hk
          have hsender := h.sender_eq hlt hq hw
          have hqueue : ¬ s.state.QueueGone b q := by
            simpa [State.prompt, ha] using hf.prompt
          refine ((h.placed p).kept (.inr (h.seen q p hp))).imp (hf.gone h hlt) fun hpt => ?_
          rcases hpt with hpt | ⟨_, hgone⟩
          · rw [State.Taken, hsender] at hpt
            exact before_append hpt (List.mem_singleton_self _)
          · rw [State.QueueGone, hsender] at hgone
            exact absurd hgone hqueue
        · have ht : s.state.Taken q := by
            simpa [Loop.push, hk, State.Taken] using ht
          exact old ht fun hs => hs.trans (List.sublist_append_left _ _)
    | step la _ hstep ha =>
        exact old ((ha q).1 ht) fun hs => hs.trans (Loop.step_cases hstep).accepted_sublist
    | discard he =>
        rw [he] at ht old ⊢
        have hwf := h.linked.wf (s.state.posts q).sender
        refine old (hwf.mem_of_discard ht) fun hs => ?_
        -- what is left was before the queue
        have hord := h.queues (s.state.posts q).sender
        rw [Loop.Ordered, ← List.append_assoc] at hord
        refine before_of_append (hord ▸ hs) fun hc => ?_
        exact (List.nodup_append.1 (hord ▸ hwf.nodup)).2.2 _ ht _ hc rfl
  · exact absurd (h.registered.lt hq) (Nat.not_lt.2 hle)

/-- An operation that begins finds those begun that it is not to overtake. -/
theorem Follows.opens_after (hq : q ∈ s.state.opens s'.state) (hp : p ∈ s.seen q)
    (hw : (s.state.posts p).webview = (s.state.posts q).webview)
    (ho : s.overtaken p q = false) : p ∈ s.applied := by
  obtain ⟨hlt, hr, hr', hpc⟩ := mem_opens.1 hq
  have hopen : ¬ s.state.Closed p := by
    rw [State.Closed, hw]
    exact (hf.change h hlt).not_closed hr hr'
  have of_gone : s.Gone p → p ∈ s.applied := by
    rintro (hg | hg)
    · exact hg
    · exact absurd hg hopen
  have hret := h.seen q p hp
  rcases (h.placed p).kept (.inr hret) with hg | hpt
  · exact of_gone hg
  -- `p` was given to the queue, so `q` was
  have hown : s.state.here p ≠ true := by
    rcases hpt with hpt | ⟨hown, _⟩
    · exact fun hown => (h.placed p).here hown hpt
    · exact hown
  have hqown : s.state.here q ≠ true := by simpa [overtaken, hown] using ho
  have hqb : s.state.Began q := by
    rcases (h.placed q).started hr with hi | hi | hb
    · exact absurd ((h.placed q).inline hi) hqown
    · exact absurd hi hpc
    · exact hb
  have hwf := h.linked.wf (s.state.posts q).sender
  rcases h.queued q p hp hw (hwf.mem_accepted hqb) with hg | hbefore
  · exact of_gone hg
  -- so `p` was started before it, and is not at the start any more
  have hpb : .post p ∈ (s.state.targets (s.state.posts q).sender).loop.started :=
    (h.queues _).before hwf.nodup hbefore hqb
  rcases h.onTop _ p hpb with hpr | hpr | ⟨hpr, rest, htop⟩
  · refine ((h.placed p).upgraded hpr).resolve_right fun hi => ?_
    exact (nomatch hret.symm.trans hi)
  · rcases (h.placed p).ended hpr with ha | hc | ⟨_, hi | hi⟩
    · exact ha
    · exact absurd hc hopen
    · exact (nomatch hret.symm.trans hi)
    · exact (nomatch hret.symm.trans hi)
  · rcases h.onTop _ q hqb with hqr | hqr | ⟨_, rest', htop'⟩
    · exact (nomatch hr.symm.trans hqr)
    · exact (nomatch hr.symm.trans hqr)
    · obtain rfl : p = q := by
        rw [htop'] at htop
        simpa using congrArg List.head? htop.symm
      exact absurd hbefore (List.nodup_iff_sublist.1 hwf.nodup _)

theorem Follows.order : s'.KeepsOrder := by
  intro q hq p hp hw ho
  have hlt : q < s.state.nextPost := by
    rw [hf.applied, List.mem_append] at hq
    exact hq.elim h.applied_lt fun hq => (mem_opens.1 hq).1
  rw [hf.seen_eq hlt] at hp
  have hplt := h.seen_lt hp
  have hkp := hf.keeps h hplt
  have hkq := hf.keeps h hlt
  rw [hkp.kin.webview, hkq.kin.webview] at hw
  have ho : s.overtaken p q = false := by
    rw [overtaken, ← hkp.here, ← hkq.here]
    exact ho
  rw [hf.applied] at hq ⊢
  rcases List.mem_append.1 hq with hq | hq
  · exact (h.order q hq p hp hw ho).trans (List.sublist_append_left _ _)
  · exact before_append (hf.opens_after h hq hp hw ho) hq

theorem Follows.tracked
    (hturn : ∀ g la, a = .loop g la → (s.state.targets g).loop.InOrder la) : s'.Tracked b where
  linked := hf.linked h
  registered := h.registered.step (hf.trail h)
  unparked := h.unparked.step (hf.trail h)
  queues := h.queues.step h.unparked (hf.trail h) hf.prompt hturn
  onTop := h.onTop.step (hf.trail h) h.linked hf.prompt
  placed := hf.placed h
  opened _ := hf.opened h
  nodup := hf.nodup h
  seen _ _ := hf.seen_returned h
  queued _ _ := hf.queued h
  order := hf.order h

end Step

theorem Tracked.init : Tracked b ({} : Traced ρ) where
  linked := .init
  registered := .init
  unparked _ _ := rfl
  queues _ := rfl
  onTop _ _ h := (nomatch h)
  placed _ := .alone (by simp) (by simp) nofun
  opened _ h := (nomatch h)
  nodup := .nil
  seen _ _ h := (nomatch h)
  queued _ _ h := (nomatch h)
  order _ h := (nomatch h)

theorem tracked_of_reachVia {s : Traced ρ} (h : (tracedSystem ρ b).ReachVia InTurn s) :
    s.Tracked b := by
  refine h.invariant (I := Tracked b) .init fun s s' ta _ hi hok hst => ?_
  obtain ⟨a, hf, ha⟩ := step_follows hst
  refine hf.tracked hi fun g la he => ?_
  rw [ha g la he] at hok
  exact hok

/-! ## The result -/

theorem foldl_apply {α : Type} {f : View ρ → α} {ops : PostId → Op ρ} (l : List PostId)
    (h : ∀ k ∈ l, ∀ v, f (v.apply (ops k)) = f v) (v : View ρ) :
    f (l.foldl (fun v k => v.apply (ops k)) v) = f v := by
  induction l generalizing v with
  | nil => rfl
  | cons k l ih =>
      rw [List.foldl_cons, ih fun k' hk' => h k' (List.mem_cons_of_mem _ hk')]
      exact h k List.mem_cons_self v

/-- What the last one sets is what remains. -/
theorem Tracked.view_of_last {α : Type} {s : Traced ρ} (h : s.Tracked b) {f : View ρ → α} {x : α}
    {sets : Op ρ → Bool} (hsets : ∀ o, sets o = false → ∀ v, f (View.apply v o) = f v)
    {w : WebViewId} {r : PostId} (hr : ∀ v, f (View.apply v (s.ops r)) = x)
    (hlast : s.IsLast sets w r) : f (s.view w) = x := by
  obtain ⟨hmem, hw, hev, hall⟩ := hlast
  obtain ⟨l₁, l₂, hl⟩ := List.append_of_mem hmem
  have hn : (l₁ ++ r :: l₂).Nodup := hl ▸ h.nodup
  have hlate : ∀ p ∈ l₂, (s.state.posts p).webview = w → sets (s.ops p) = false := by
    intro p hp hpw
    by_contra hset
    have hpa : p ∈ s.applied := by simp [hl, hp]
    have hne : p ≠ r := by
      rintro rfl
      exact (List.nodup_cons.1 (List.nodup_append.1 hn).2.1).1 hp
    obtain ⟨hseen, ho⟩ := hall p hpa hpw (by simpa using hset) hne
    exact not_before hn hp (hl ▸ h.order r hmem p hseen (hpw.trans hw.symm) ho)
  rw [view, hl, List.filter_append, List.filter_cons_of_pos (by simp [hw, hev]), List.foldl_append,
    List.foldl_cons, foldl_apply (f := f)]
  · exact hr _
  · intro k hk
    simp only [List.mem_filter, Bool.and_eq_true, beq_iff_eq] at hk
    exact hsets _ (hlate k hk.1 hk.2.1)

end Traced

/-- **Operations take effect in the order of acceptance**, in every run whose dispatch passes
are in turn: of two posts on one WebView, of which the first had returned `Ok(())` before
the second began, the first is applied first, unless it was queued and the second one was
executed in place. The bounds and the visibility are those of the last one. -/
theorem operations_keep_order (ρ : Type) (b : Backend) (s : Traced ρ)
    (h : (tracedSystem ρ b).ReachVia Traced.InTurn s) :
    s.KeepsOrder ∧
    (∀ w r bounds, s.ops r = .setBounds bounds → s.IsLast Op.setsBounds w r →
      (s.view w).bounds = some bounds) ∧
    (∀ w r visible, s.ops r = .setVisible visible → s.IsLast Op.setsVisible w r →
      (s.view w).visible = some visible) := by
  have ht := Traced.tracked_of_reachVia h
  refine ⟨ht.order, fun w r x hop => ?_, fun w r x hop => ?_⟩
  · refine ht.view_of_last (f := View.bounds) (fun o ho v => ?_) fun v => by rw [hop]; rfl
    cases o <;> first | rfl | cases ho
  · refine ht.view_of_last (f := View.visible) (fun o ho v => ?_) fun v => by rw [hop]; rfl
    cases o <;> first | rfl | cases ho

/-- Two threads set the bounds and the visibility, one after the other. -/
def queuedOperations : List (TracedAct Nat) :=
  [.other (.newLoop 0), .other (.newWebView 0),
    .post 0 1 (.setBounds 10), .other (.call 0), .other (.call 0), .other (.enqueue 0 .queued),
    .other (.call 0),
    .post 0 2 (.setBounds 20), .other (.call 1), .other (.call 1), .other (.enqueue 1 .queued),
    .other (.call 1),
    .other (.loop 0 (.dispatchCallbacks [])), .other (.loop 0 (.next [])), .other (.run 0 .ok),
    .other (.run 0 .ok), .other (.loop 0 .finish), .other (.loop 0 (.next [])),
    .other (.run 1 .ok), .other (.run 1 .ok), .other (.loop 0 .finish)]

theorem operations_keep_order_queued : ∃ s : Traced Nat, s.applied = [0, 1] ∧ 0 ∈ s.seen 1 ∧
    s.KeepsOrder ∧ (s.view 0).bounds = some 20 := by
  have hrun : ((tracedSystem Nat .android).runVia Traced.InTurn {} queuedOperations).map
      (fun s => decide (s.applied = [0, 1] ∧ 0 ∈ s.seen 1 ∧ s.ops 1 = .setBounds 20 ∧
        s.IsLast Op.setsBounds 0 1)) = some true := by decide +kernel
  obtain ⟨s, hs, hp⟩ := System.exists_reachVia _ _ hrun
  obtain ⟨h1, h2, h3, h4⟩ := of_decide_eq_true hp
  have h := operations_keep_order Nat .android s hs
  exact ⟨s, h1, h2, h.1, h.2.1 0 1 20 h3 h4⟩

/-- Post 1 began on a live WebView when post 0 had returned `Ok(())`, both are applied, and
the bounds are those of post 0. -/
def Traced.Stale (s : Traced Nat) : Prop :=
  0 ∈ s.seen 1 ∧ (s.state.posts 1).pc = .returned (.ok ()) ∧ (s.state.webviews 0).strong = 1 ∧
    s.applied = [1, 0] ∧ s.ops 1 = .setBounds 20 ∧ (s.view 0).bounds = some 10

instance (s : Traced Nat) : Decidable s.Stale :=
  inferInstanceAs (Decidable (_ ∧ _ ∧ _ ∧ _ ∧ _ ∧ _))

/-- A post of thread 1 is queued; then one of the run loop thread is executed in place. -/
def inlineOperations : List (TracedAct Nat) :=
  [.other (.newLoop 0), .other (.newWebView 0),
    .post 0 1 (.setBounds 10), .other (.call 0), .other (.call 0), .other (.enqueue 0 .queued),
    .other (.call 0),
    .post 0 0 (.setBounds 20), .other (.call 1), .other (.call 1), .other (.run 1 .ok),
    .other (.run 1 .ok), .other (.call 1),
    .other (.loop 0 (.dispatchCallbacks [])), .other (.loop 0 (.next [])), .other (.run 0 .ok),
    .other (.run 0 .ok), .other (.loop 0 .finish)]

/-- A callback pumps a loop while a post is in its vector; the next post is queued meanwhile. -/
def nestedOperations : List (TracedAct Nat) :=
  [.other (.newLoop 0), .other (.newWebView 0), .other (.loop 0 (.send (.other 0))),
    .post 0 1 (.setBounds 10), .other (.call 0), .other (.call 0), .other (.enqueue 0 .queued),
    .other (.call 0),
    .other (.loop 0 (.dispatchCallbacks [])), .other (.loop 0 (.next [])),
    .other (.loop 0 .enterNative),
    .post 0 2 (.setBounds 20), .other (.call 1), .other (.call 1), .other (.enqueue 1 .queued),
    .other (.call 1),
    .other (.loop 0 (.dispatchCallbacks [])), .other (.loop 0 (.next [])), .other (.run 1 .ok),
    .other (.run 1 .ok), .other (.loop 0 .finish), .other (.loop 0 (.next [])),
    .other (.loop 0 .exitNative), .other (.loop 0 .finish),
    .other (.loop 0 (.next [])), .other (.run 0 .ok), .other (.run 0 .ok), .other (.loop 0 .finish)]

/-- The bounds of the first post stay: the second one is executed in place, or by a pass that
is nested in that of the first one. -/
theorem operations_overtake :
    (∃ s : Traced Nat, (tracedSystem Nat .win32).Reachable s ∧ s.overtaken 0 1 = true ∧ s.Stale) ∧
    ∃ s : Traced Nat, (tracedSystem Nat .win32).Reachable s ∧ s.overtaken 0 1 = false ∧
      s.Stale := by
  constructor
  · obtain ⟨s, hs, hp⟩ := System.exists_reachable (S := tracedSystem Nat .win32) inlineOperations
      (fun s => decide (s.overtaken 0 1 = true ∧ s.Stale)) (by decide +kernel)
    exact ⟨s, hs, of_decide_eq_true hp⟩
  · obtain ⟨s, hs, hp⟩ := System.exists_reachable (S := tracedSystem Nat .win32) nestedOperations
      (fun s => decide (s.overtaken 0 1 = false ∧ s.Stale)) (by decide +kernel)
    exact ⟨s, hs, of_decide_eq_true hp⟩

end Wxp.WebView
