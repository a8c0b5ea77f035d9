import Wxp.Foundations.System
import Wxp.Page.Channel
import Wxp.Page.Document

/-!
# Page — Registry

What is left in `callbacks`, `channels` and `__WXP_INTERNALS__.invoke` while a page calls
`window.invoke`, gets its responses, and opens and closes channels.

* `window.invoke` registers two ids in `callbacks` and the same two in
  `__WXP_INTERNALS__.invoke`. `handle_ipc` answers through the second table, with the
  plain `resolve` or `reject`.
* A channel is in `callbacks` and `channels`. The end of its messages removes it only if
  the page has closed it, which removes it anyway: a channel stays until it is closed.

Result: `registries_hold_open_channels`.
-/

namespace Wxp.Page

universe u

variable {μ : Type u}

/-! ## One channel -/

/-- The state an outcome leaves behind, with or without an exception, has `P`. -/
def Leaves (P : Channel μ → Prop) : Except (Channel μ) (Channel μ) → Prop
  | .ok c => P c
  | .error c => P c

theorem Leaves.bind {P : Channel μ → Prop} {x : Except (Channel μ) (Channel μ)}
    {f : Channel μ → Except (Channel μ) (Channel μ)} (hx : Leaves P x)
    (hf : ∀ c, P c → Leaves P (f c)) : Leaves P (x >>= f) := by
  cases x with
  | ok c => exact hf c hx
  | error c => exact hx

namespace Channel

/-- The channel is in the registries exactly as long as the page has not closed it. -/
def Matched (c : Channel μ) : Prop := c.registered = c.alive

variable {c : Channel μ}

theorem Matched.unregister (h : c.alive = false) : c.unregister.Matched := h.symm

theorem Matched.close (h : c.Matched) : c.close.Matched := by
  unfold Channel.close
  split
  · exact .unregister rfl
  · exact h

theorem Matched.callOnmessage (h : c.Matched) (m : μ) : Leaves Matched (c.callOnmessage m) := by
  unfold Channel.callOnmessage
  split
  · exact h
  · rename_i handler hc
    have hm : Matched (if (handler (c.handled ++ [m])).closes
        then Channel.close { c with handled := c.handled ++ [m] }
        else { c with handled := c.handled ++ [m] }) := by
      split
      · exact Matched.close h
      · exact h
    dsimp only
    split <;> exact hm

theorem Matched.drainLoop (h : c.Matched) (n : Nat) : Leaves Matched (drainLoop n c) := by
  induction n generalizing c with
  | zero => exact h
  | succ n ih =>
      cases hl : c.pendingMessages.lookup c.nextMessageIndex with
      | none => simpa [Channel.drainLoop, hl, Leaves] using h
      | some m =>
          rw [Channel.drainLoop, hl]
          exact (Matched.callOnmessage (c := { c with
            pendingMessages := c.pendingMessages.erase c.nextMessageIndex }) h m).bind
            fun c' hc' => ih hc'

theorem Matched.drainPendingMessages (h : c.Matched) :
    Leaves Matched c.drainPendingMessages := by
  refine (h.drainLoop _).bind fun c' hc' => ?_
  cases c'.messageEndIndex with
  | none => exact hc'
  | some e =>
      dsimp only
      split
      · rename_i hend
        exact .unregister (by simpa using hend.2)
      · exact hc'

theorem Matched.onRawMessage (h : c.Matched) (raw : RawMessage μ) :
    Leaves Matched (c.onRawMessage raw) := by
  cases raw with
  | ended i =>
      refine (Matched.drainPendingMessages (c := { c with messageEndIndex := some i }) h).bind
        fun c' hc' => ?_
      split
      · rename_i halive
        exact .unregister (by simpa using halive)
      · exact hc'
  | message m i =>
      rw [Channel.onRawMessage]
      split
      · exact (h.callOnmessage m).bind fun c' hc' =>
          Matched.drainPendingMessages (c := { c' with
            nextMessageIndex := c'.nextMessageIndex + 1 }) hc'
      · exact h

theorem Matched.runCallback (h : c.Matched) (raw : RawMessage μ) : (c.runCallback raw).Matched := by
  unfold Channel.runCallback
  split
  · have := h.onRawMessage raw
    split
    · rename_i hc
      rwa [hc] at this
    · rename_i hc
      rwa [hc] at this
  · exact h

/-- The end was received and everything below it delivered. -/
def Finished (c : Channel μ) : Prop := ∃ e, c.messageEndIndex = some e ∧ e ≤ c.nextMessageIndex

end Channel

/-! ## The page -/

structure Registry (μ : Type u) where
  document : Document := {}
  /-- The objects made by `new Channel`, by id. -/
  objects : Nat → Option (Channel μ) := fun _ => none
  /-- History: the callback ids of the calls of `window.invoke`. -/
  invokes : List Nat := []
  /-- History: those whose response was executed. -/
  answered : List Nat := []

inductive RegistryAction (μ : Type u)
  | invoke
  /-- `__WXP_INTERNALS__.invoke[callback](..)`, or `[error]`. -/
  | respond (callback : Nat) (rejects : Bool)
  | newChannel (onmessage : Option (List μ → Reaction))
  | setOnmessage (id : Nat) (onmessage : Option (List μ → Reaction))
  | runCallback (id : Nat) (raw : RawMessage μ)
  | close (id : Nat)

namespace Registry

/-- The channel `id` changes; if it unregisters itself its entries are deleted. -/
def onChannel (s : Registry μ) (id : Nat) (f : Channel μ → Channel μ) : Option (Registry μ) :=
  (s.objects id).map fun c =>
    { s with
      objects := Function.update s.objects id (some (f c))
      document := if (f c).registered then s.document else s.document.closeChannel id }

def step (s : Registry μ) : RegistryAction μ → Option (Registry μ)
  | .invoke =>
      some { s with
        document := s.document.invokeCommand
        invokes := s.document.callbackIdCounter :: s.invokes }
  | .respond callback rejects =>
      if callback ∈ s.invokes ∧ s.document.invoke (if rejects then callback + 1 else callback)
      then some { s with answered := callback :: s.answered }
      else none
  | .newChannel onmessage =>
      some { s with
        document := s.document.newChannel
        objects := Function.update s.objects s.document.callbackIdCounter (some { onmessage }) }
  | .setOnmessage id onmessage => s.onChannel id fun c => c.setOnmessage onmessage
  | .runCallback id raw => s.onChannel id fun c => c.runCallback raw
  | .close id => s.onChannel id Channel.close

def system (μ : Type u) : System (Registry μ) (RegistryAction μ) where
  init := {}
  step := step

/-- The id was given to a call of `window.invoke`. -/
def OfInvoke (s : Registry μ) (id : Nat) : Prop :=
  ∃ callback ∈ s.invokes, id = callback ∨ id = callback + 1

/-- Nothing is left of what is over. -/
def HoldsOnlyLive (s : Registry μ) : Prop :=
  (∀ id, s.document.callbacks id ≠ none →
    (∃ callback ∈ s.invokes, callback ∉ s.answered ∧ (id = callback ∨ id = callback + 1)) ∨
    ∃ c, s.objects id = some c ∧ c.alive = true ∧ ¬ c.Finished) ∧
  ∀ id, s.document.invoke id = true →
    ∃ callback ∈ s.invokes, callback ∉ s.answered ∧ (id = callback ∨ id = callback + 1)

/-- The entries of the registries and what they belong to. -/
structure Sound (s : Registry μ) : Prop where
  fresh : ∀ id, s.document.callbackIdCounter ≤ id →
    s.document.callbacks id = none ∧ s.objects id = none
  matched : ∀ id c, s.objects id = some c → c.Matched
  channel : ∀ id, s.document.callbacks id = some .channel ↔
    ∃ c, s.objects id = some c ∧ c.registered = true
  answer : ∀ id callback error, s.document.callbacks id = some (.answer callback error) →
    s.OfInvoke id
  invoke : ∀ id, s.document.invoke id = true → s.OfInvoke id
  both : ∀ callback ∈ s.invokes, ∀ id, id = callback ∨ id = callback + 1 →
    s.document.callbacks id = some (.answer callback (callback + 1)) ∧
      s.document.invoke id = true

theorem Sound.init : Sound ({} : Registry μ) where
  fresh _ _ := ⟨rfl, rfl⟩
  matched _ _ h := nomatch h
  channel _ := ⟨nofun, fun ⟨_, h, _⟩ => nomatch h⟩
  answer _ _ _ h := nomatch h
  invoke _ h := nomatch h
  both _ h := nomatch h

variable {s s' : Registry μ}

theorem closeChannel_callbacks (d : Document) (id id' : Nat) :
    (d.closeChannel id).callbacks id' =
      if id' = id ∧ d.callbacks id = some .channel then none else d.callbacks id' := by
  unfold Document.closeChannel
  split
  · rename_i h
    by_cases hid : id' = id <;> simp [h, hid]
  · rename_i h
    simp [h]

theorem closeChannel_invoke (d : Document) (id : Nat) : (d.closeChannel id).invoke = d.invoke := by
  unfold Document.closeChannel
  split <;> rfl

theorem closeChannel_counter (d : Document) (id : Nat) :
    (d.closeChannel id).callbackIdCounter = d.callbackIdCounter := by
  unfold Document.closeChannel
  split <;> rfl

/-- A channel changes: it stays registered, or leaves the registries alone with its
entries. -/
theorem Sound.onChannel {id : Nat} {f : Channel μ → Channel μ} (h : s.Sound)
    (hf : ∀ c, c.Matched → (f c).Matched)
    (hreg : ∀ c, c.registered = false → (f c).registered = false)
    (hst : s.onChannel id f = some s') : s'.Sound := by
  obtain ⟨c, hc, rfl⟩ := Option.map_eq_some_iff.1 hst
  have hcallbacks : ∀ id', (if (f c).registered then s.document
      else s.document.closeChannel id).callbacks id' =
        if id' = id ∧ s.document.callbacks id = some .channel ∧ (f c).registered = false
        then none else s.document.callbacks id' := fun id' => by
    cases hr : (f c).registered <;> simp [closeChannel_callbacks]
  have hinvoke : (if (f c).registered then s.document
      else s.document.closeChannel id).invoke = s.document.invoke := by
    split
    · rfl
    · exact closeChannel_invoke _ _
  refine ⟨fun id' hid' => ?_, fun id' c' hc' => ?_, fun id' => ?_, fun id' cb er hid' => ?_,
    fun id' hid' => ?_, fun cb hcb id' hid' => ?_⟩
  · have hcount : (if (f c).registered then s.document
        else s.document.closeChannel id).callbackIdCounter = s.document.callbackIdCounter := by
      split
      · rfl
      · exact closeChannel_counter _ _
    obtain ⟨h1, h2⟩ := h.fresh id' (hcount ▸ hid')
    refine ⟨by rw [hcallbacks]; split <;> simp [h1], ?_⟩
    have hne : id' ≠ id := by
      rintro rfl
      exact (nomatch h2.symm.trans hc)
    simpa [hne] using h2
  · by_cases hid : id' = id
    · subst hid
      simp only [Function.update_self, Option.some.injEq] at hc'
      exact hc' ▸ hf c (h.matched _ c hc)
    · exact h.matched id' c' (by simpa [hid] using hc')
  · rw [hcallbacks]
    by_cases hid : id' = id
    · subst hid
      have hch := h.channel id'
      simp only [hc, Option.some.injEq, exists_eq_left'] at hch
      simp only [Function.update_self, Option.some.injEq, exists_eq_left', true_and]
      cases hr : (f c).registered with
      | true =>
          have : c.registered = true := by
            by_contra hn
            exact (nomatch hr.symm.trans (hreg c (by simpa using hn)))
          simpa using hch.2 this
      | false =>
          split
          · simp
          · rename_i hno
            simpa using hno
    · simp only [hid, false_and, if_false, Function.update_of_ne hid]
      exact h.channel id'
  · rw [hcallbacks] at hid'
    split at hid'
    · cases hid'
    · exact h.answer id' cb er hid'
  · exact h.invoke id' (by rwa [hinvoke] at hid')
  · obtain ⟨h1, h2⟩ := h.both cb hcb id' hid'
    refine ⟨?_, by rwa [hinvoke]⟩
    rw [hcallbacks, if_neg]
    · exact h1
    · rintro ⟨rfl, hch, -⟩
      exact (nomatch h1.symm.trans hch)

theorem Sound.newChannel (h : s.Sound) (onmessage : Option (List μ → Reaction)) :
    Sound { s with
      document := s.document.newChannel
      objects := Function.update s.objects s.document.callbackIdCounter (some { onmessage }) } := by
  have hold : ∀ id, s.document.callbacks id ≠ none → id ≠ s.document.callbackIdCounter := by
    rintro id hid rfl
    exact hid (h.fresh _ (Nat.le_refl _)).1
  refine ⟨fun id hid => ?_, fun id c hc => ?_, fun id => ?_, fun id cb er hid => ?_, h.invoke,
    fun cb hcb id hid => ?_⟩
  · have hlt : s.document.callbackIdCounter < id := hid
    obtain ⟨h1, h2⟩ := h.fresh id (Nat.le_of_lt hlt)
    have hne : id ≠ s.document.callbackIdCounter := Nat.ne_of_gt hlt
    exact ⟨by simpa [Document.newChannel, Document.transformCallback, hne] using h1,
      by simpa [hne] using h2⟩
  · by_cases hid : id = s.document.callbackIdCounter
    · subst hid
      simp only [Function.update_self, Option.some.injEq] at hc
      exact hc ▸ rfl
    · exact h.matched id c (by simpa [hid] using hc)
  · by_cases hid : id = s.document.callbackIdCounter
    · simp [Document.newChannel, Document.transformCallback, hid]
    · simpa [Document.newChannel, Document.transformCallback, hid] using h.channel id
  · have hne : id ≠ s.document.callbackIdCounter := by
      rintro rfl
      simp [Document.newChannel, Document.transformCallback] at hid
    exact h.answer id cb er
      (by simpa [Document.newChannel, Document.transformCallback, hne] using hid)
  · obtain ⟨h1, h2⟩ := h.both cb hcb id hid
    have hne := hold id (by simp [h1])
    exact ⟨by simpa [Document.newChannel, Document.transformCallback, hne] using h1, h2⟩

theorem Sound.invokeCommand (h : s.Sound) :
    Sound { s with
      document := s.document.invokeCommand
      invokes := s.document.callbackIdCounter :: s.invokes } := by
  -- every entry that is there has a smaller id
  have hlt : ∀ id, s.document.callbacks id ≠ none ∨ s.objects id ≠ none →
      id ≠ s.document.callbackIdCounter ∧ id ≠ s.document.callbackIdCounter + 1 := by
    intro id hid
    refine ⟨fun he => ?_, fun he => ?_⟩ <;>
      · obtain ⟨h1, h2⟩ := h.fresh id (by omega)
        exact hid.elim (absurd h1) (absurd h2)
  have hofInvoke : ∀ id, s.OfInvoke id → OfInvoke { s with
      document := s.document.invokeCommand
      invokes := s.document.callbackIdCounter :: s.invokes } id := by
    rintro id ⟨cb, hcb, hid⟩
    exact ⟨cb, List.mem_cons_of_mem _ hcb, hid⟩
  have hcallbacks : ∀ id, s.document.invokeCommand.callbacks id =
      if id = s.document.callbackIdCounter ∨ id = s.document.callbackIdCounter + 1
      then some (.answer s.document.callbackIdCounter (s.document.callbackIdCounter + 1))
      else s.document.callbacks id := fun id => by
    by_cases h1 : id = s.document.callbackIdCounter <;>
      by_cases h2 : id = s.document.callbackIdCounter + 1 <;>
        simp [Document.invokeCommand, Document.transformCallback, h1, h2]
  have hinvoke : ∀ id, s.document.invokeCommand.invoke id =
      if id = s.document.callbackIdCounter ∨ id = s.document.callbackIdCounter + 1
      then true else s.document.invoke id := fun id => by
    by_cases h1 : id = s.document.callbackIdCounter <;>
      by_cases h2 : id = s.document.callbackIdCounter + 1 <;>
        simp [Document.invokeCommand, Document.transformCallback, h1, h2]
  refine ⟨fun id hid => ?_, h.matched, fun id => ?_, fun id cb er hid => ?_, fun id hid => ?_,
    fun cb hcb id hid => ?_⟩
  · have hid' : s.document.callbackIdCounter + 2 ≤ id := hid
    obtain ⟨h1, h2⟩ := h.fresh id (by omega)
    rw [hcallbacks, if_neg (by omega)]
    exact ⟨h1, h2⟩
  · rw [hcallbacks]
    split
    · rename_i hid
      constructor
      · intro h
        cases h
      · rintro ⟨c, hc, _⟩
        have hc : s.objects id = some c := hc
        obtain ⟨h1, h2⟩ := hlt id (.inr (by simp [hc]))
        exact absurd hid (not_or.2 ⟨h1, h2⟩)
    · exact h.channel id
  · rw [hcallbacks] at hid
    split at hid
    · rename_i hnew
      exact ⟨_, List.mem_cons_self, hnew⟩
    · exact hofInvoke id (h.answer id cb er hid)
  · rw [hinvoke] at hid
    split at hid
    · rename_i hnew
      exact ⟨_, List.mem_cons_self, hnew⟩
    · exact hofInvoke id (h.invoke id hid)
  · rw [hcallbacks, hinvoke]
    rcases List.mem_cons.1 hcb with rfl | hcb
    · simp [hid]
    · obtain ⟨h1, h2⟩ := h.both cb hcb id hid
      have := hlt id (.inl (by simp [h1]))
      simp [this, h1, h2]

theorem Sound.step {a : RegistryAction μ} (h : s.Sound) (hst : s.step a = some s') :
    s'.Sound := by
  cases a with
  | invoke =>
      cases hst
      exact h.invokeCommand
  | respond callback rejects =>
      simp only [Registry.step, Option.ite_none_right_eq_some, Option.some.injEq] at hst
      obtain ⟨-, rfl⟩ := hst
      exact ⟨h.fresh, h.matched, h.channel, h.answer, h.invoke, h.both⟩
  | newChannel onmessage =>
      cases hst
      exact h.newChannel onmessage
  | setOnmessage id onmessage =>
      exact h.onChannel (f := fun c => c.setOnmessage onmessage) (fun _ hc => hc)
        (fun _ hc => hc) hst
  | runCallback id raw =>
      refine h.onChannel (fun c hc => hc.runCallback raw) (fun c hc => ?_) hst
      simp [Channel.runCallback, hc]
  | close id =>
      refine h.onChannel (fun c hc => hc.close) (fun c hc => ?_) hst
      unfold Channel.close
      split
      · rfl
      · exact hc

theorem sound_of_reachable (h : (system μ).Reachable s) : s.Sound :=
  h.invariant .init fun _ _ _ _ hi hst => hi.step hst

/-- **What the registries hold** after every step of every run: of the channels exactly
those that the page has not closed, finished or not; besides these only ids of calls of
`window.invoke`, among them both ids of each call that was not answered yet. -/
theorem registries_hold_open_channels (μ : Type u) :
    ∀ s : Registry μ, (system μ).Reachable s →
      (∀ id, s.document.callbacks id = some .channel ↔
        ∃ c, s.objects id = some c ∧ c.alive = true) ∧
      (∀ id c, s.objects id = some c → (c.registered = true ↔ c.alive = true)) ∧
      (∀ id callback error, s.document.callbacks id = some (.answer callback error) →
        s.OfInvoke id) ∧
      (∀ id, s.document.invoke id = true → s.OfInvoke id) ∧
      ∀ callback ∈ s.invokes, callback ∉ s.answered → ∀ id, id = callback ∨ id = callback + 1 →
        s.document.callbacks id = some (.answer callback (callback + 1)) ∧
          s.document.invoke id = true := by
  intro s hs
  have h := sound_of_reachable hs
  have hmatched : ∀ id c, s.objects id = some c → (c.registered = true ↔ c.alive = true) :=
    fun id c hc => by rw [show c.registered = c.alive from h.matched id c hc]
  refine ⟨fun id => ?_, hmatched, h.answer, h.invoke, fun cb hcb _ id hid => h.both cb hcb id hid⟩
  rw [h.channel]
  exact exists_congr fun c => and_congr_right fun hc => hmatched id c hc

/-- A channel that has got its only message and its end is registered until it is closed. -/
theorem registries_hold_open_channels_closed : ∃ s : Registry Nat,
    s.document.callbacks 0 = none ∧ (s.objects 0).isSome ∧
      ∀ id, s.document.callbacks id = some .channel ↔
        ∃ c, s.objects id = some c ∧ c.alive = true := by
  obtain ⟨s, hs, hp⟩ := System.exists_reachable (S := system Nat)
    [.newChannel (some fun _ => {}), .runCallback 0 (.message 7 0), .runCallback 0 (.ended 1),
      .close 0] (fun s => s.document.callbacks 0 == none && (s.objects 0).isSome) (by decide)
  simp only [Bool.and_eq_true, beq_iff_eq] at hp
  exact ⟨s, hp.1, hp.2, (registries_hold_open_channels Nat s hs).1⟩

/-- The answer to a call removes none of its entries, and the end of a channel that the
page holds open does not remove it. -/
theorem registries_hold_dead_entries :
    (∃ s : Registry Nat, (system Nat).Reachable s ∧ ¬ s.HoldsOnlyLive ∧
      s.answered = [0] ∧ s.document.callbacks 0 ≠ none ∧ s.document.invoke 0 = true) ∧
    ∃ s : Registry Nat, (system Nat).Reachable s ∧ ¬ s.HoldsOnlyLive ∧
      s.document.callbacks 0 = some .channel ∧ ∃ c, s.objects 0 = some c ∧ c.Finished := by
  constructor
  · obtain ⟨s, hs, hp⟩ := System.exists_reachable (S := system Nat)
      [.invoke, .respond 0 false] (fun s => decide (s.invokes = [0] ∧ s.answered = [0]) &&
        (s.document.callbacks 0).isSome && s.document.invoke 0) (by decide)
    simp only [Bool.and_eq_true, decide_eq_true_eq] at hp
    obtain ⟨⟨⟨hi, ha⟩, hc⟩, ht⟩ := hp
    refine ⟨s, hs, fun hlive => ?_, ha, Option.isSome_iff_ne_none.1 hc, ht⟩
    obtain ⟨cb, hcb, hno, -⟩ := hlive.2 0 ht
    rw [hi] at hcb
    rw [ha] at hno
    exact hno hcb
  · obtain ⟨s, hs, hp⟩ := System.exists_reachable (S := system Nat)
      [.newChannel none, .runCallback 0 (.message 7 0), .runCallback 0 (.ended 1)]
      (fun s => s.document.callbacks 0 == some .channel && s.invokes.isEmpty &&
        (s.objects 0).any fun c => c.messageEndIndex == some 1 && c.nextMessageIndex == 1)
      (by decide)
    simp only [Bool.and_eq_true, beq_iff_eq, List.isEmpty_iff, Option.any_eq_true] at hp
    obtain ⟨⟨hch, hi⟩, c, hc, he, hn⟩ := hp
    have hfin : c.Finished := ⟨1, he, Nat.le_of_eq hn.symm⟩
    refine ⟨s, hs, fun hlive => ?_, hch, c, hc, hfin⟩
    rcases hlive.1 0 (by simp [hch]) with ⟨cb, hcb, -⟩ | ⟨c', hc', -, hno⟩
    · rw [hi] at hcb
      cases hcb
    · rw [hc, Option.some.injEq] at hc'
      exact hno (hc' ▸ hfin)

end Registry

end Wxp.Page
