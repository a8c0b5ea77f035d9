import Wxp.Android.Requests

/-!
# Android — when the callback panics

Three things make the callback of the looper panic: `get_webview` unwraps the proxy of an
activity that is gone, an answer is for a request that has timed out, and a web view is
created for an activity that goes away meanwhile. None of them happens in a run in which
each message for a web view gets into the channel before the activity's last one, no
request times out, and no activity is removed while its web view is being created
(`never_panics`).
-/

namespace Wxp.Android

variable {s s' : State}

/-- The message removes its activity. -/
def WebViewMessage.destroys : WebViewMessage → Bool
  | .onDestroy _ isChangingConfigurations => !isChangingConfigurations
  | .createWebView _ | .eval _ | .setBackgroundColor .. | .getWebViewVersion _ | .getUrl _
  | .getCookies .. | .jni | .loadUrl .. | .loadHtml _ | .reload | .clearAllBrowsingData => false

def Frame.creates (a : ActivityId) : Frame → Bool
  | .creating b _ => a == b
  | .jni => false

/-- The activity is there, and no message that removes it is on its way. -/
def State.keepsActivity (s : State) (a : ActivityId) : Bool :=
  (s.proxies a).isSome && s.channel.all fun y => !(y.activity == a && y.message.destroys)

/-- The condition on a step. -/
def attended (s : State) : Action → Bool
  | .push t =>
      match s.pending t with
      | some x => !x.message.getsWebview || s.keepsActivity x.activity
      | none => true
  | .recv _ =>
      match s.channel with
      | x :: _ => !x.message.destroys || s.stack.all fun f => !f.creates x.activity
      | [] => true
  | .timeout _ => false
  | .spawn | .send .. | .seek _ | .request .. | .new .. | .androidSetup _ | .onWebviewDestroy ..
  | .wryCreate | .write _ | .read | .endFrame _ | .resume _ => true

/-- The requests whose messages are in the channel. -/
def State.asked (s : State) : List RequestId := s.channel.filterMap (·.message.tx)

structure Sound (s : State) : Prop where
  running : s.panicked = false
  proxy : ∀ pre x post, s.channel = pre ++ x :: post → x.message.getsWebview = true →
    (s.proxies x.activity).isSome = true ∧
      ∀ y ∈ pre, y.message.destroys = true → y.activity ≠ x.activity
  creating : ∀ a v, .creating a v ∈ s.stack → (s.proxies a).isSome = true
  once : s.asked.Nodup
  waiting : ∀ tx ∈ s.asked, (s.requests tx).phase = .waiting
  unsent : ∀ (t : Nat) (x : Sent) (tx : RequestId), s.threads[t]? = some (Pc.pushing x) →
    x.message.tx = some tx → (s.requests tx).phase = .waiting ∧ tx ∉ s.asked

theorem Sound.init : Sound {} where
  running := rfl
  proxy pre x post h := by simp at h
  creating a v h := by simp at h
  once := List.nodup_nil
  waiting tx h := by simp [State.asked] at h
  unsent t x tx h := by
    cases t <;> simp at h

/-- Nothing happens to the channel, the requests and what is at a send. -/
theorem Sound.congr (h : Sound s) (hn : s'.panicked = false) (hchannel : s'.channel = s.channel)
    (hreq : s'.requests = s.requests)
    (hproxy : ∀ a, (s.proxies a).isSome = true → (s'.proxies a).isSome = true)
    (hstack : ∀ a v, .creating a v ∈ s'.stack → .creating a v ∈ s.stack)
    (hpc : ∀ (t : Nat) (x : Sent), s'.threads[t]? = some (Pc.pushing x) →
      x.message.tx ≠ none → s.threads[t]? = some (Pc.pushing x)) : Sound s' where
  running := hn
  proxy pre x post hc hx := by
    rw [hchannel] at hc
    obtain ⟨hp, hpre⟩ := h.proxy pre x post hc hx
    exact ⟨hproxy _ hp, hpre⟩
  creating a v hf := hproxy a (h.creating a v (hstack a v hf))
  once := by
    rw [State.asked, hchannel]
    exact h.once
  waiting tx htx := by
    rw [State.asked, hchannel] at htx
    rw [hreq]
    exact h.waiting tx htx
  unsent t x tx ht htx := by
    rw [State.asked, hchannel, hreq]
    exact h.unsent t x tx (hpc t x ht (by simp [htx])) htx

theorem pushing_set {threads : List Pc} {t t' : Nat} {pc pc' : Pc} {x : Sent}
    (ht : threads[t]? = some pc) (hpc' : pc'.unsent = none)
    (h : (threads.set t pc')[t']? = some (.pushing x)) :
    t' ≠ t ∧ threads[t']? = some (.pushing x) := by
  rw [getElem?_set_pc ht] at h
  split at h
  · cases h
    simp [Pc.unsent] at hpc'
  · next hne => exact ⟨hne, h⟩

/-- A thread goes on, not to a send. -/
theorem Sound.setPc (h : Sound s) {t : Nat} {pc pc' : Pc} (ht : s.threads[t]? = some pc)
    (hpc' : pc'.unsent = none) (bytes : Nat) : Sound { s.setPc t pc' with bytes } :=
  h.congr h.running rfl rfl (fun _ => id) (fun _ _ => id)
    fun _ _ ht' _ => (pushing_set ht hpc' ht').2

theorem mem_asked {x : Sent} (hx : x ∈ s.channel) {tx : RequestId} (htx : x.message.tx = some tx) :
    tx ∈ s.asked :=
  List.mem_filterMap.2 ⟨x, hx, htx⟩

theorem Sound.request (h : Sound s) (hq : Queued s) (ha : Asked s) {t : Nat} {pc : Pc}
    (ht : s.threads[t]? = some pc) (a : ActivityId) (q : Query) :
    Sound ((s.addRequest t).begin ⟨t, a, q.message s.nextRequest⟩) := by
  have hlt : ∀ tx ∈ s.asked, tx < s.nextRequest := by
    intro tx htx
    obtain ⟨x, hx, htx⟩ := List.mem_filterMap.1 htx
    exact ha.fresh x (hq.mem_begun hx) tx htx
  have hreq : ∀ tx, tx < s.nextRequest → (s.addRequest t).requests tx = s.requests tx :=
    fun tx hlt => Function.update_of_ne (Nat.ne_of_lt hlt) _ _
  refine ⟨h.running, h.proxy, h.creating, h.once, fun tx htx => ?_, fun t' x tx ht' htx => ?_⟩
  · show ((s.addRequest t).requests tx).phase = .waiting
    rw [hreq tx (hlt tx htx)]
    exact h.waiting tx htx
  · show ((s.addRequest t).requests tx).phase = .waiting ∧ tx ∉ s.asked
    replace ht' : (s.threads.set t (.pushing ⟨t, a, q.message s.nextRequest⟩))[t']? =
      some (.pushing x) := ht'
    rw [getElem?_set_pc ht] at ht'
    split at ht'
    · cases ht'
      have heq : s.nextRequest = tx := by simpa [tx_message] using htx
      subst heq
      refine ⟨?_, fun hmem => Nat.lt_irrefl _ (hlt _ hmem)⟩
      simp [State.addRequest]
    · rw [hreq tx (ha.owner t' _ tx ht' htx).1]
      exact h.unsent t' x tx ht' htx

theorem isSome_registerActivityProxy (s : State) (a b : ActivityId)
    (h : (s.proxies b).isSome = true) :
    ((s.registerActivityProxy a).proxies b).isSome = true := by
  rw [State.registerActivityProxy, State.setProxy_proxies]
  split
  · rfl
  · exact h

theorem Sound.begin (h : Sound s) (hq : Queued s) (ha : Asked s) {act : Action} {pc : Pc}
    {x : Sent} {s₁ : State} (hp : Prepared s act pc x s₁) (ht : s.threads[x.thread]? = some pc) :
    Sound (s₁.begin x) := by
  have hpc : ∀ {x : Sent}, s.threads[x.thread]? = some .idle → x.message.tx = none →
      ∀ (t : Nat) (y : Sent), (s.threads.set x.thread (.pushing x))[t]? = some (Pc.pushing y) →
        y.message.tx ≠ none → s.threads[t]? = some (Pc.pushing y) := by
    intro x ht hx t y hy hne
    rw [getElem?_set_pc ht] at hy
    split at hy
    · cases hy
      exact absurd hx hne
    · exact hy
  cases hp with
  | send t a m hm =>
      exact h.congr h.running rfl rfl (fun _ => id) (fun _ _ => id) (hpc ht (tx_operation hm))
  | request t a q => exact h.request hq ha ht a q
  | new | onWebviewDestroy =>
      exact h.congr h.running rfl rfl (fun _ => id) (fun _ _ => id) (hpc ht rfl)
  | androidSetup a v hv =>
      exact h.congr h.running rfl rfl (isSome_registerActivityProxy s a) (fun _ _ => id)
        (hpc ht rfl)

theorem split_snoc {l pre post : List Sent} {x y : Sent} (h : l ++ [x] = pre ++ y :: post) :
    l = pre ∧ x = y ∨ ∃ post', l = pre ++ y :: post' := by
  obtain rfl | ⟨post', z, rfl⟩ := List.eq_nil_or_concat post
  · obtain ⟨hl, hx⟩ := List.append_inj' h rfl
    exact .inl ⟨hl, by simpa using hx⟩
  · rw [List.concat_eq_append, ← List.cons_append, ← List.append_assoc] at h
    exact .inr ⟨post', (List.append_inj' h rfl).1⟩

/-- The message gets into the channel before the last one of its activity. -/
theorem Sound.push (h : Sound s) (ha : Asked s) {t : Nat} {x : Sent}
    (ht : s.threads[t]? = some (.pushing x)) (hok : attended s (.push t) = true) :
    Sound { s.setPc t (.writing x) with
      channel := s.channel ++ [x], accepted := s.accepted ++ [x] } := by
  have hx : x.message.getsWebview = true → (s.proxies x.activity).isSome = true ∧
      ∀ y ∈ s.channel, y.message.destroys = true → y.activity ≠ x.activity := by
    intro hget
    have hpending : s.pending t = some x := by rw [State.pending, ht]; rfl
    simp only [attended, hpending, hget, Bool.not_true, Bool.false_or, State.keepsActivity,
      Bool.and_eq_true, List.all_eq_true, Bool.not_eq_true', Bool.and_eq_false_iff,
      beq_eq_false_iff_ne] at hok
    refine ⟨hok.1, fun y hy hd => ?_⟩
    obtain hne | hne := hok.2 y hy
    · exact hne
    · simp [hd] at hne
  have hasked : (s.channel ++ [x]).filterMap (·.message.tx) = s.asked ++ x.message.tx.toList := by
    rw [List.filterMap_append, State.asked]
    cases htx : x.message.tx <;> simp [htx]
  refine ⟨h.running, fun pre y post hc hget => ?_, h.creating, ?_, fun tx htx => ?_,
    fun t' y tx ht' htx => ?_⟩
  · obtain ⟨rfl, rfl⟩ | ⟨post', hc'⟩ := split_snoc hc
    · exact hx hget
    · exact h.proxy pre y post' hc' hget
  · show ((s.channel ++ [x]).filterMap (·.message.tx)).Nodup
    rw [hasked]
    cases htx : x.message.tx with
    | none => simpa using h.once
    | some tx =>
        have hmem := (h.unsent t x tx ht htx).2
        refine List.nodup_append.2 ⟨h.once, by simp, fun tx' htx' b hb heq => ?_⟩
        rw [List.mem_singleton.1 hb] at heq
        exact hmem (heq ▸ htx')
  · replace htx : tx ∈ (s.channel ++ [x]).filterMap (·.message.tx) := htx
    rw [hasked, List.mem_append, Option.mem_toList] at htx
    obtain htx | htx := htx
    · exact h.waiting tx htx
    · exact (h.unsent t x tx ht htx).1
  · have hunsent : (Pc.writing x).unsent = none := rfl
    obtain ⟨hne, ht'⟩ := pushing_set ht hunsent ht'
    obtain ⟨hw, hmem⟩ := h.unsent t' y tx ht' htx
    refine ⟨hw, ?_⟩
    show tx ∉ (s.channel ++ [x]).filterMap (·.message.tx)
    rw [hasked, List.mem_append, not_or]
    refine ⟨hmem, fun hx' => hne ?_⟩
    rw [Option.mem_toList] at hx'
    rw [← (ha.owner t' _ tx ht' htx).2, (ha.owner t _ tx ht hx').2]

theorem running_reply (hn : s.panicked = false) {tx : RequestId}
    (hp : (s.requests tx).phase = .waiting) : (s.reply tx).panicked = false := by
  simp only [State.reply, hp]
  exact hn

theorem running_disconnect (hn : s.panicked = false) (m : WebViewMessage) :
    (s.disconnect m).panicked = false := by
  simp only [State.disconnect]
  split
  · split <;> exact hn
  · exact hn

theorem running_perform (hn : s.panicked = false) (v : ViewId) {m : WebViewMessage}
    (hp : ∀ tx, m.tx = some tx → (s.requests tx).phase = .waiting) (ok : Bool) :
    (s.perform v m ok).panicked = false := by
  cases m with
  | getUrl tx => exact running_reply (s := s.record v _) hn (hp tx rfl)
  | getCookies tx url =>
      cases ok with
      | true => exact running_reply (s := s.record v _) hn (hp tx rfl)
      | false => exact running_disconnect hn _
  | createWebView | eval | setBackgroundColor | getWebViewVersion | jni | loadUrl | loadHtml
  | reload | clearAllBrowsingData | onDestroy =>
      simp only [State.perform]
      split <;> exact hn

/-- The handling of a message does not panic. -/
theorem running_handle (hn : s.panicked = false) {a : ActivityId} {m : WebViewMessage}
    (ha : m.getsWebview = true → (s.proxies a).isSome = true)
    (hp : ∀ tx, m.tx = some tx → (s.requests tx).phase = .waiting) (ok : Bool) :
    (s.handle a m ok).panicked = false := by
  have hget (hm : m.getsWebview = true) : (s.withWebview a m ok).panicked = false := by
    simp only [State.withWebview]
    split
    · next hnone => simp [hnone] at ha; simp [ha] at hm
    · exact running_disconnect hn m
    · exact running_perform hn _ hp ok
  cases m with
  | createWebView v =>
      simp only [State.handle]
      split
      · exact hn
      · split <;> exact hn
  | getWebViewVersion tx => exact running_reply hn (hp tx rfl)
  | jni => exact hn
  | onDestroy v changing =>
      simp only [State.handle]
      split <;> exact hn
  | eval | setBackgroundColor | getUrl | getCookies | loadUrl | loadHtml | reload
  | clearAllBrowsingData => exact hget rfl

/-- What the handling of a message does to the activities and to the stack. -/
structure Registers (a : ActivityId) (m : WebViewMessage) (s s' : State) : Prop where
  proxies : ∀ b, s'.proxies b = s.proxies b ∨ m.destroys = true ∧ b = a
  stack : ∀ b v, .creating b v ∈ s'.stack → .creating b v ∈ s.stack ∨
    b = a ∧ m.destroys = false ∧ (s.proxies a).isSome = true

theorem registers_of_eq {a : ActivityId} {m : WebViewMessage} (hp : s'.proxies = s.proxies)
    (hs : s'.stack = s.stack) : Registers a m s s' :=
  ⟨fun b => .inl (by rw [hp]), fun b v h => .inl (hs ▸ h)⟩

theorem registers_reply (s : State) (a : ActivityId) (m : WebViewMessage) (tx : RequestId) :
    Registers a m s (s.reply tx) := by
  simp only [State.reply]
  split <;> exact registers_of_eq rfl rfl

theorem registers_disconnect (s : State) (a : ActivityId) (m m' : WebViewMessage) :
    Registers a m s (s.disconnect m') := by
  simp only [State.disconnect]
  split
  · split <;> exact registers_of_eq rfl rfl
  · exact registers_of_eq rfl rfl

theorem registers_perform (s : State) (a : ActivityId) (v : ViewId) (m : WebViewMessage)
    (ok : Bool) : Registers a m s (s.perform v m ok) := by
  have hreply : ∀ tx, Registers a m s ((s.record v m).reply tx) := by
    intro tx
    obtain ⟨hp, hs⟩ := registers_reply (s.record v m) a m tx
    exact ⟨hp, hs⟩
  cases m with
  | getUrl tx => exact hreply tx
  | getCookies tx url =>
      cases ok with
      | true => exact hreply tx
      | false =>
          obtain ⟨hp, hs⟩ := registers_disconnect s a (.getCookies tx url) (.getCookies tx url)
          exact ⟨hp, hs⟩
  | createWebView | eval | setBackgroundColor | getWebViewVersion | jni | loadUrl | loadHtml
  | reload | clearAllBrowsingData | onDestroy =>
      simp only [State.perform]
      split <;> exact registers_of_eq rfl rfl

theorem registers_handle (s : State) (a : ActivityId) (m : WebViewMessage) (ok : Bool) :
    Registers a m s (s.handle a m ok) := by
  have hget : Registers a m s (s.withWebview a m ok) := by
    simp only [State.withWebview]
    split
    · exact registers_of_eq rfl rfl
    · exact registers_disconnect s a m m
    · exact registers_perform s a _ m ok
  cases m with
  | createWebView v =>
      simp only [State.handle]
      split
      · exact registers_of_eq rfl rfl
      · next w hp =>
          split
          · refine ⟨fun b => .inl rfl, fun b u hu => ?_⟩
            obtain hu | hu := List.mem_cons.1 hu
            · cases hu
              exact .inr ⟨rfl, rfl, by rw [hp]; rfl⟩
            · exact .inl hu
          · exact registers_of_eq rfl rfl
  | getWebViewVersion tx => exact registers_reply s a _ tx
  | jni =>
      refine ⟨fun b => .inl rfl, fun b u hu => .inl ?_⟩
      obtain hu | hu := List.mem_cons.1 hu
      · cases hu
      · exact hu
  | onDestroy v changing =>
      simp only [State.handle]
      split
      · exact registers_of_eq rfl rfl
      · next hc =>
          refine ⟨fun b => ?_, fun b u hu => .inl hu⟩
          by_cases hb : b = a
          · exact .inr ⟨by simpa [WebViewMessage.destroys] using hc, hb⟩
          · refine .inl ?_
            show (s.setProxy a none).proxies b = s.proxies b
            rw [State.setProxy_proxies, if_neg hb]
  | eval | setBackgroundColor | getUrl | getCookies | loadUrl | loadHtml | reload
  | clearAllBrowsingData => exact hget

/-- The first message of the channel is handled, and does not remove an activity whose web
view is being created. -/
theorem Sound.recv (h : Sound s) {x : Sent} {rest : List Sent}
    (h0 : s.threads[0]? = some .receiving) (hc : s.channel = x :: rest) (ok : Bool)
    (hok : attended s (.recv ok) = true) :
    Sound (State.handle { s.setPc 0 .idle with channel := rest, handled := s.handled ++ [x] }
      x.activity x.message ok) := by
  have hproxy : x.message.getsWebview = true → (s.proxies x.activity).isSome = true :=
    fun hget => (h.proxy [] x rest hc hget).1
  have hwaiting : ∀ tx, x.message.tx = some tx → (s.requests tx).phase = .waiting :=
    fun tx htx => h.waiting tx (mem_asked (by rw [hc]; exact List.mem_cons_self) htx)
  have hasked : s.asked = x.message.tx.toList ++ rest.filterMap (·.message.tx) := by
    rw [State.asked, hc, List.filterMap_cons]
    cases x.message.tx <;> rfl
  have hdestroys : x.message.destroys = true → ∀ v, .creating x.activity v ∉ s.stack := by
    intro hd v hv
    have hall : ∀ f ∈ s.stack, f.creates x.activity = false := by
      simpa [attended, hc, hd] using hok
    simpa [Frame.creates] using hall _ hv
  generalize hs₁ : ({ s.setPc 0 .idle with
    channel := rest, handled := s.handled ++ [x] } : State) = s₁
  have hproxies : s₁.proxies = s.proxies := by subst hs₁; rfl
  have hreq : s₁.requests = s.requests := by subst hs₁; rfl
  have hstack : s₁.stack = s.stack := by subst hs₁; rfl
  have hsame := State.sameQueue_handle s₁ x.activity x.message ok
  have hreg := registers_handle s₁ x.activity x.message ok
  have hphase := phase_handle s₁ x.activity x.message ok
  have hrunning : (s₁.handle x.activity x.message ok).panicked = false := by
    refine running_handle ?_ (by rwa [hproxies]) (by rwa [hreq]) ok
    subst hs₁
    exact h.running
  generalize s₁.handle x.activity x.message ok = s₂ at hsame hreg hphase hrunning
  have hchannel : s₂.channel = rest := by rw [hsame.channel, ← hs₁]
  have hthreads : s₂.threads = s.threads.set 0 .idle := by rw [hsame.threads, ← hs₁]; rfl
  -- only the request of the message itself is answered
  have hkeep : ∀ tx, (s.requests tx).phase = .waiting → x.message.tx ≠ some tx →
      (s₂.requests tx).phase = .waiting := by
    intro tx hw hne
    obtain hp | ⟨htx, -⟩ := hphase tx
    · rw [hp, hreq]
      exact hw
    · exact absurd htx hne
  have honce := h.once
  rw [hasked] at honce
  refine ⟨hrunning, fun pre y post hc' hget => ?_, fun a v hf => ?_, ?_, fun tx htx => ?_,
    fun t y tx ht htx => ?_⟩
  · rw [hchannel] at hc'
    obtain ⟨hp, hpre⟩ := h.proxy (x :: pre) y post (by rw [hc, hc']; rfl) hget
    refine ⟨?_, fun z hz => hpre z (List.mem_cons_of_mem _ hz)⟩
    obtain heq | ⟨hd, heq⟩ := hreg.proxies y.activity
    · rw [heq, hproxies]
      exact hp
    · exact absurd heq.symm (hpre x List.mem_cons_self hd)
  · obtain hf' | ⟨rfl, hd, hp⟩ := hreg.stack a v hf
    · rw [hstack] at hf'
      obtain heq | ⟨hd, rfl⟩ := hreg.proxies a
      · rw [heq, hproxies]
        exact h.creating a v hf'
      · exact absurd hf' (hdestroys hd v)
    · obtain heq | ⟨hd', -⟩ := hreg.proxies x.activity
      · rw [heq]
        exact hp
      · rw [hd] at hd'
        cases hd'
  · rw [State.asked, hchannel]
    exact (List.nodup_append.1 honce).2.1
  · rw [State.asked, hchannel] at htx
    refine hkeep tx (h.waiting tx (by rw [hasked]; exact List.mem_append_right _ htx)) fun heq => ?_
    exact (List.nodup_append.1 honce).2.2 tx (by simp [heq]) tx htx rfl
  · rw [hthreads] at ht
    obtain ⟨hw, hmem⟩ := h.unsent t y tx (pushing_set h0 rfl ht).2 htx
    rw [hasked, List.mem_append, not_or, Option.mem_toList] at hmem
    rw [State.asked, hchannel]
    exact ⟨hkeep tx hw hmem.1, hmem.2⟩

theorem sound_step {act : Action} (h : Sound s) (hq : Queued s) (ha : Asked s)
    (hok : attended s act = true) (hst : step s act = some s') : Sound s' := by
  obtain ⟨-, hst⟩ := step_cases hst
  cases hst with
  | spawn =>
      refine h.congr h.running rfl rfl (fun _ => id) (fun _ _ => id) fun t x ht _ => ?_
      rw [List.getElem?_append] at ht
      split at ht
      · exact ht
      · simpa using List.mem_of_getElem? ht
  | seek t ht => exact h.setPc ht rfl s.bytes
  | begin act pc x s₁ ht hp => exact h.begin hq ha hp ht
  | androidSetup a =>
      exact h.congr h.running rfl rfl (isSome_registerActivityProxy s a) (fun _ _ => id)
        (fun _ _ ht _ => ht)
  | wryCreate =>
      exact h.congr h.running rfl rfl (fun _ => id) (fun _ _ => id) (fun _ _ ht _ => ht)
  | push t x ht => exact h.push ha ht hok
  | write t x ht =>
      refine h.setPc ht ?_ (s.bytes + 1)
      cases x.message.tx <;> rfl
  | read hr h0 => exact h.setPc h0 rfl (s.bytes - 1)
  | recv ok x rest h0 hc => exact h.recv h0 hc ok hok
  | endJni ok rest h0 hs =>
      exact h.congr h.running rfl rfl (fun _ => id)
        (fun a v hf => by rw [hs]; exact List.mem_cons_of_mem _ hf) (fun _ _ ht _ => ht)
  | created a v rest h0 hs hp =>
      refine h.congr h.running rfl rfl (fun b hb => ?_)
        (fun b u hf => by rw [hs]; exact List.mem_cons_of_mem _ hf) (fun _ _ ht _ => ht)
      rw [State.setProxy_proxies]
      split
      · rfl
      · exact hb
  | uncreated a v rest h0 hs hp =>
      have hsome := h.creating a v (by rw [hs]; exact List.mem_cons_self)
      simp [hp] at hsome
  | failed a v rest h0 hs =>
      exact h.congr h.running rfl rfl (fun _ => id)
        (fun b u hf => by rw [hs]; exact List.mem_cons_of_mem _ hf) (fun _ _ ht _ => ht)
  | resume t tx ht => exact h.setPc ht rfl s.bytes
  | timeout t tx ht => simp [attended] at hok

abbrev Attended (s : State) (act : Action) : Prop := attended s act = true

/-- In a run whose steps all meet the condition the callback of the looper never panics. -/
theorem never_panics (h : mainPipe.ReachVia Attended s) :
    s.panicked = false := by
  refine (System.ReachVia.invariant (I := Sound) Sound.init (fun s act s' hr hi hok hst => ?_)
    h).running
  exact sound_step hi (queued_of_reachable hr.reachable) (asked_of_reachable hr.reachable) hok hst

/-- A script is evaluated, and the activity is closed. -/
def closingRun : List Action :=
  [.androidSetup 1, .wryCreate, .new 0 1, .push 0, .write 0, .read, .recv true, .endFrame true,
    .send 0 1 (.eval []), .push 0, .write 0, .onWebviewDestroy 1 0 false, .push 0, .write 0,
    .read, .recv true, .read, .recv true]

theorem never_panics_closing :
    ∃ s, mainPipe.ReachVia Attended s ∧
      s.performed = [(0, .eval [])] ∧ s.proxies 1 = none ∧ s.panicked = false := by
  have hrun : ∃ s, mainPipe.ReachVia Attended s ∧ _ := System.exists_reachVia closingRun
    (fun s => s.performed == [(0, .eval [])] && s.proxies 1 == none) (by decide)
  obtain ⟨s, hs, htest⟩ := hrun
  simp only [Bool.and_eq_true, beq_iff_eq] at htest
  exact ⟨s, hs, htest.1, htest.2, never_panics hs⟩

end Wxp.Android
