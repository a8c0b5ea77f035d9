import Wxp.Android.Messages

/-!
# Android — requests

`url`, `cookies_for_url` and `platform_webview_version` send a message that carries where
the answer goes, and wait. A request of the main thread waits on the one thread that
could answer it, so it always times out; and when its message is handled later, the
answer has nowhere to go, and `tx.send(_).unwrap()` panics (`main_request_unanswered`).
-/

namespace Wxp.Android

variable {s s' : State}

/-- The request that the thread is at. -/
def Pc.request : Pc → Option RequestId
  | .pushing x | .writing x => x.message.tx
  | .awaiting tx => some tx
  | .idle | .seeking | .receiving => none

structure Asked (s : State) : Prop where
  owner : ∀ (t : Nat) (pc : Pc) (tx : RequestId), s.threads[t]? = some pc →
    pc.request = some tx → tx < s.nextRequest ∧ (s.requests tx).thread = t
  fresh : ∀ x ∈ s.begun, ∀ tx, x.message.tx = some tx → tx < s.nextRequest
  told : ∀ p ∈ s.performed, ∀ tx, p.2.tx = some tx → tx < s.nextRequest
  /-- A request of the main thread has timed out, or the main thread is at it. -/
  held : ∀ tx, tx < s.nextRequest → (s.requests tx).thread = 0 →
    (s.requests tx).phase = .timedOut ∨ (s.requests tx).phase = .waiting ∧
      ∃ pc, s.threads[0]? = some pc ∧ pc.request = some tx
  late : ∀ p ∈ s.performed, ∀ tx, p.2.tx = some tx → (s.requests tx).thread = 0 →
    s.panicked = true

/-- What the handling of a message does to a request. -/
theorem phase_reply (s : State) (tx tx' : RequestId) :
    ((s.reply tx).requests tx').phase = (s.requests tx').phase ∨
      tx' = tx ∧ (s.requests tx').phase = .waiting := by
  simp only [State.reply]
  split
  · next hp =>
      rw [State.setRequest_requests]
      split
      · next h =>
          subst h
          exact .inr ⟨rfl, hp⟩
      · exact .inl rfl
  all_goals exact .inl rfl

theorem phase_disconnect (s : State) (m : WebViewMessage) (tx : RequestId) :
    ((s.disconnect m).requests tx).phase = (s.requests tx).phase ∨
      m.tx = some tx ∧ (s.requests tx).phase = .waiting := by
  simp only [State.disconnect]
  split
  · next tx' htx =>
      split
      · next hp =>
          rw [State.setRequest_requests]
          split
          · next h =>
              subst h
              exact .inr ⟨htx, hp⟩
          · exact .inl rfl
      all_goals exact .inl rfl
  · exact .inl rfl

theorem phase_perform (s : State) (v : ViewId) (m : WebViewMessage) (ok : Bool)
    (tx : RequestId) :
    ((s.perform v m ok).requests tx).phase = (s.requests tx).phase ∨
      m.tx = some tx ∧ (s.requests tx).phase = .waiting := by
  cases m with
  | getUrl tx' =>
      obtain h | ⟨rfl, h⟩ := phase_reply (s.record v (.getUrl tx')) tx' tx
      · exact .inl h
      · exact .inr ⟨rfl, h⟩
  | getCookies tx' url =>
      simp only [State.perform]
      split
      · obtain h | ⟨rfl, h⟩ := phase_reply (s.record v (.getCookies tx' url)) tx' tx
        · exact .inl h
        · exact .inr ⟨rfl, h⟩
      · exact phase_disconnect s _ tx
  | createWebView | eval | setBackgroundColor | getWebViewVersion | jni | loadUrl | loadHtml
  | reload | clearAllBrowsingData | onDestroy =>
      simp only [State.perform]
      split <;> exact .inl rfl

theorem phase_withWebview (s : State) (a : ActivityId) (m : WebViewMessage) (ok : Bool)
    (tx : RequestId) :
    ((s.withWebview a m ok).requests tx).phase = (s.requests tx).phase ∨
      m.tx = some tx ∧ (s.requests tx).phase = .waiting := by
  simp only [State.withWebview]
  split
  · exact .inl rfl
  · exact phase_disconnect s m tx
  · exact phase_perform s _ m ok tx

theorem phase_handle (s : State) (a : ActivityId) (m : WebViewMessage) (ok : Bool)
    (tx : RequestId) :
    ((s.handle a m ok).requests tx).phase = (s.requests tx).phase ∨
      m.tx = some tx ∧ (s.requests tx).phase = .waiting := by
  cases m with
  | createWebView v =>
      simp only [State.handle]
      split
      · exact .inl rfl
      · split <;> exact .inl rfl
  | getWebViewVersion tx' =>
      obtain h | ⟨rfl, h⟩ := phase_reply s tx' tx
      · exact .inl h
      · exact .inr ⟨rfl, h⟩
  | jni => exact .inl rfl
  | onDestroy v changing =>
      simp only [State.handle]
      split <;> exact .inl rfl
  | eval | setBackgroundColor | getUrl | getCookies | loadUrl | loadHtml | reload
  | clearAllBrowsingData => exact phase_withWebview s a _ ok tx

/-- An answer that nobody waits for panics. -/
theorem panicked_reply {tx : RequestId} (h : (s.requests tx).phase ≠ .waiting) :
    (s.reply tx).panicked = true := by
  simp only [State.reply]
  split
  · next hp => exact absurd hp h
  all_goals rfl

theorem performed_reply (s : State) (tx : RequestId) : (s.reply tx).performed = s.performed := by
  simp only [State.reply]
  split <;> rfl

theorem performed_disconnect (s : State) (m : WebViewMessage) :
    (s.disconnect m).performed = s.performed := by
  simp only [State.disconnect]
  split
  · split <;> rfl
  · rfl

/-- What a web view is told while a message is handled is that message, and the process
panics if it asks for an answer that nobody waits for. -/
def Tells (m : WebViewMessage) (s s' : State) : Prop :=
  s'.performed = s.performed ∨ ∃ v, s'.performed = s.performed ++ [(v, m)] ∧
    ∀ tx, m.tx = some tx → (s.requests tx).phase ≠ .waiting → s'.panicked = true

theorem tells_perform (s : State) (v : ViewId) {m : WebViewMessage} (hm : m.getsWebview = true)
    (ok : Bool) : Tells m s (s.perform v m ok) := by
  cases m with
  | getUrl tx' =>
      refine .inr ⟨v, performed_reply _ _, fun tx htx hp => ?_⟩
      cases htx
      exact panicked_reply hp
  | getCookies tx' url =>
      cases ok with
      | true =>
          refine .inr ⟨v, performed_reply _ _, fun tx htx hp => ?_⟩
          cases htx
          exact panicked_reply hp
      | false => exact .inl (performed_disconnect s _)
  | getWebViewVersion | createWebView | jni | onDestroy => simp [WebViewMessage.getsWebview] at hm
  | eval | setBackgroundColor | loadUrl | loadHtml | reload | clearAllBrowsingData =>
      simp only [State.perform]
      split
      · exact .inr ⟨v, rfl, fun tx htx => by simp [WebViewMessage.tx] at htx⟩
      · exact .inl rfl

theorem tells_withWebview (s : State) (a : ActivityId) {m : WebViewMessage}
    (hm : m.getsWebview = true) (ok : Bool) : Tells m s (s.withWebview a m ok) := by
  simp only [State.withWebview]
  split
  · exact .inl rfl
  · exact .inl (performed_disconnect s m)
  · exact tells_perform s _ hm ok

theorem tells_handle (s : State) (a : ActivityId) (m : WebViewMessage) (ok : Bool) :
    Tells m s (s.handle a m ok) := by
  cases m with
  | createWebView v =>
      refine .inl ?_
      simp only [State.handle]
      split
      · rfl
      · split <;> rfl
  | getWebViewVersion tx => exact .inl (performed_reply s tx)
  | jni => exact .inl rfl
  | onDestroy v changing =>
      refine .inl ?_
      simp only [State.handle]
      split <;> rfl
  | eval | setBackgroundColor | getUrl | getCookies | loadUrl | loadHtml | reload
  | clearAllBrowsingData => exact tells_withWebview s a rfl ok

theorem request_written (x : Sent) :
    (x.message.tx.elim Pc.idle Pc.awaiting).request = x.message.tx := by
  cases x.message.tx <;> rfl

theorem tx_message (q : Query) (tx : RequestId) : (q.message tx).tx = some tx := by
  cases q <;> rfl

theorem tx_operation {m : WebViewMessage} (h : m.isOperation = true) : m.tx = none := by
  cases m with
  | createWebView | getWebViewVersion | getUrl | getCookies | onDestroy =>
      simp [WebViewMessage.isOperation] at h
  | eval | setBackgroundColor | jni | loadUrl | loadHtml | reload | clearAllBrowsingData => rfl

theorem Asked.init : Asked {} where
  owner t pc tx ht hpc := by
    cases t with
    | zero =>
        have hpc' : pc = .idle := by simpa using ht.symm
        simp [hpc', Pc.request] at hpc
    | succ t => simp at ht
  fresh x hx := by simp at hx
  told p hp := by simp at hp
  held tx h := absurd h (Nat.not_lt_zero tx)
  late p hp := by simp at hp

/-- The threads are at the requests they were at, and nothing happens to the requests. -/
theorem Asked.congr (h : Asked s) (hreq : s'.requests = s.requests)
    (hnext : s'.nextRequest = s.nextRequest)
    (hbegun : ∀ x ∈ s'.begun, x ∈ s.begun ∨ x.message.tx = none)
    (hperf : s'.performed = s.performed) (hpanic : s.panicked = true → s'.panicked = true)
    (hpc : ∀ t : Nat, s'.threads[t]?.bind Pc.request = s.threads[t]?.bind Pc.request) :
    Asked s' := by
  refine ⟨fun t pc tx ht hp => ?_, ?_, ?_, fun tx hlt h0 => ?_, ?_⟩
  · rw [hreq, hnext]
    have hb := hpc t
    rw [ht, Option.bind_some, hp] at hb
    obtain ⟨pc', ht', hp'⟩ := Option.bind_eq_some_iff.1 hb.symm
    exact h.owner t pc' tx ht' hp'
  · intro x hx tx htx
    rw [hnext]
    obtain hx | hx := hbegun x hx
    · exact h.fresh x hx tx htx
    · simp [hx] at htx
  · rw [hperf, hnext]
    exact h.told
  · rw [hreq] at h0 ⊢
    rw [hnext] at hlt
    obtain hp | ⟨hp, pc, ht, hpc'⟩ := h.held tx hlt h0
    · exact .inl hp
    · have hb := hpc 0
      rw [ht, Option.bind_some, hpc'] at hb
      obtain ⟨pc', ht', hp'⟩ := Option.bind_eq_some_iff.1 hb
      exact .inr ⟨hp, pc', ht', hp'⟩
  · rw [hperf, hreq]
    exact fun p hp tx htx h0 => hpanic (h.late p hp tx htx h0)

theorem bind_request_set {threads : List Pc} {t : Nat} {pc pc' : Pc} (ht : threads[t]? = some pc)
    (h : pc'.request = pc.request) (t' : Nat) :
    (threads.set t pc')[t']?.bind Pc.request = threads[t']?.bind Pc.request := by
  rw [getElem?_set_pc ht]
  split
  · next heq => rw [heq, ht, Option.bind_some, Option.bind_some, h]
  · rfl

theorem Asked.request (h : Asked s) {t : Nat} {pc₀ : Pc} (ht : s.threads[t]? = some pc₀)
    (hpc₀ : pc₀.request = none) (a : ActivityId) (q : Query) :
    Asked ((s.addRequest t).begin ⟨t, a, q.message s.nextRequest⟩) := by
  have htx := tx_message q s.nextRequest
  have hget := getElem?_set_pc ht (.pushing ⟨t, a, q.message s.nextRequest⟩)
  have hreq : ∀ tx, tx < s.nextRequest →
      (s.addRequest t).requests tx = s.requests tx := fun tx hlt =>
    Function.update_of_ne (Nat.ne_of_lt hlt) _ _
  have hnew : (s.addRequest t).requests s.nextRequest = { thread := t } :=
    Function.update_self _ _ _
  refine ⟨fun t' pc tx ht' hpc => ?_, fun x hx tx hx' => ?_, fun p hp tx hp' => ?_,
    fun tx hlt h0 => ?_, fun p hp tx hp' h0 => ?_⟩
  · show tx < s.nextRequest + 1 ∧ ((s.addRequest t).requests tx).thread = t'
    replace ht' : (s.threads.set t (.pushing ⟨t, a, q.message s.nextRequest⟩))[t']? = some pc := ht'
    rw [hget] at ht'
    split at ht'
    · next heq =>
        cases ht'
        have htx' : s.nextRequest = tx := by simpa [Pc.request, htx] using hpc
        subst htx' heq
        exact ⟨Nat.lt_succ_self _, by rw [hnew]⟩
    · obtain ⟨hlt, hthread⟩ := h.owner t' pc tx ht' hpc
      exact ⟨Nat.lt_succ_of_lt hlt, by rw [hreq tx hlt, hthread]⟩
  · show tx < s.nextRequest + 1
    obtain hx | hx := List.mem_append.1 hx
    · exact Nat.lt_succ_of_lt (h.fresh x hx tx hx')
    · have hxq : x.message = q.message s.nextRequest := by rw [List.mem_singleton.1 hx]
      have heq : s.nextRequest = tx := by simpa [hxq, htx] using hx'
      rw [← heq]
      exact Nat.lt_succ_self _
  · exact Nat.lt_succ_of_lt (h.told p hp tx hp')
  · obtain hlt | rfl := Nat.lt_succ_iff_lt_or_eq.1 hlt
    · replace h0 : (s.requests tx).thread = 0 := by rw [← hreq tx hlt]; exact h0
      show ((s.addRequest t).requests tx).phase = _ ∨ ((s.addRequest t).requests tx).phase = _ ∧
        ∃ pc, (s.threads.set t (.pushing ⟨t, a, q.message s.nextRequest⟩))[0]? = some pc ∧ _
      rw [hreq tx hlt, hget]
      obtain hp | ⟨hp, pc, h0', hpc⟩ := h.held tx hlt h0
      · exact .inl hp
      · refine .inr ⟨hp, pc, ?_, hpc⟩
        rw [if_neg, h0']
        rintro rfl
        rw [ht] at h0'
        cases h0'
        simp [hpc₀] at hpc
    · have h0' : t = 0 := by rw [← show _ = t from congrArg Request.thread hnew]; exact h0
      subst h0'
      refine .inr ⟨congrArg Request.phase hnew, _, (hget 0).trans (if_pos rfl), htx⟩
  · have hlt := h.told p hp tx hp'
    refine h.late p hp tx hp' ?_
    rw [← hreq tx hlt]
    exact h0

theorem Asked.begin (h : Asked s) {act : Action} {pc : Pc} {x : Sent} {s₁ : State}
    (hp : Prepared s act pc x s₁) (ht : s.threads[x.thread]? = some pc) : Asked (s₁.begin x) := by
  have hmem : ∀ {x : Sent}, x.message.tx = none → ∀ y ∈ s.begun ++ [x],
      y ∈ s.begun ∨ y.message.tx = none := by
    intro x hx y hy
    obtain hy | hy := List.mem_append.1 hy
    · exact .inl hy
    · exact .inr (by rw [List.mem_singleton.1 hy, hx])
  cases hp with
  | send t a m hm =>
      exact h.congr rfl rfl (hmem (tx_operation hm)) rfl id
        (bind_request_set ht (tx_operation hm))
  | request t a q => exact h.request ht (by cases q <;> rfl) a q
  | new | androidSetup | onWebviewDestroy =>
      exact h.congr rfl rfl (hmem rfl) rfl id (bind_request_set ht rfl)

/-- While the main thread is not at a request, its requests have timed out. -/
theorem Asked.timedOut (h : Asked s) {pc : Pc} (h0 : s.threads[0]? = some pc)
    (hpc : pc.request = none) {tx : RequestId} (hlt : tx < s.nextRequest)
    (ht : (s.requests tx).thread = 0) : (s.requests tx).phase = .timedOut := by
  obtain hp | ⟨-, pc', h0', hpc'⟩ := h.held tx hlt ht
  · exact hp
  · rw [h0] at h0'
    cases h0'
    simp [hpc] at hpc'

theorem Asked.recv (h : Asked s) (hq : Queued s) (hn : s.panicked = false) {x : Sent} {rest : List Sent}
    (h0 : s.threads[0]? = some .receiving) (hc : s.channel = x :: rest) (ok : Bool) :
    Asked (State.handle { s.setPc 0 .idle with channel := rest, handled := s.handled ++ [x] }
      x.activity x.message ok) := by
  generalize hs₁ : ({ s.setPc 0 .idle with
    channel := rest, handled := s.handled ++ [x] } : State) = s₁
  have h₁ : Asked s₁ := by
    subst hs₁
    exact h.congr rfl rfl (fun _ => .inl) rfl id (bind_request_set h0 rfl)
  have hn₁ : ¬ s₁.panicked = true := by
    subst hs₁
    exact Bool.eq_false_iff.1 hn
  have hidle : s₁.threads[0]? = some .idle := by
    subst hs₁
    exact (getElem?_set_pc h0 .idle 0).trans (if_pos rfl)
  have hbegun : x ∈ s₁.begun := by
    subst hs₁
    exact hq.mem_begun (by rw [hc]; exact List.mem_cons_self)
  have hsame := State.sameQueue_handle s₁ x.activity x.message ok
  -- the requests of the main thread have timed out, so nothing is waited for
  have hphase : ∀ tx, tx < s₁.nextRequest → (s₁.requests tx).thread = 0 →
      (s₁.requests tx).phase = .timedOut := fun tx hlt ht => h₁.timedOut hidle rfl hlt ht
  refine ⟨?_, ?_, ?_, fun tx hlt ht => ?_, fun p hp tx htx ht => ?_⟩
  · rw [hsame.threads, hsame.nextRequest]
    intro t pc tx ht hpc
    rw [hsame.thread]
    exact h₁.owner t pc tx ht hpc
  · rw [hsame.begun, hsame.nextRequest]
    exact h₁.fresh
  · rw [hsame.nextRequest]
    intro p hp tx htx
    obtain hperf | ⟨v, hperf, -⟩ := tells_handle s₁ x.activity x.message ok
    · exact h₁.told p (hperf ▸ hp) tx htx
    · rw [hperf] at hp
      obtain hp | hp := List.mem_append.1 hp
      · exact h₁.told p hp tx htx
      · rw [List.mem_singleton.1 hp] at htx
        exact h₁.fresh x hbegun tx htx
  · rw [hsame.nextRequest] at hlt
    rw [hsame.thread] at ht
    have hto := hphase tx hlt ht
    obtain hp | ⟨-, hp⟩ := phase_handle s₁ x.activity x.message ok tx
    · exact .inl (hp.trans hto)
    · simp [hto] at hp
  · rw [hsame.thread] at ht
    obtain hperf | ⟨v, hperf, hlate⟩ := tells_handle s₁ x.activity x.message ok
    · exact absurd (h₁.late p (hperf ▸ hp) tx htx ht) hn₁
    · rw [hperf] at hp
      obtain hp | hp := List.mem_append.1 hp
      · exact absurd (h₁.late p hp tx htx ht) hn₁
      · rw [List.mem_singleton.1 hp] at htx
        have hto := hphase tx (h₁.fresh x hbegun tx htx) ht
        exact hlate tx htx (by simp [hto])

/-- The thread returns from its wait. -/
theorem Asked.returns (h : Asked s) {t : Nat} {tx : RequestId}
    (ht : s.threads[t]? = some (.awaiting tx)) (hs' : s'.threads = s.threads.set t .idle)
    (hnext : s'.nextRequest = s.nextRequest) (hbegun : s'.begun = s.begun)
    (hperf : s'.performed = s.performed) (hpanic : s'.panicked = s.panicked)
    (hthread : ∀ tx', (s'.requests tx').thread = (s.requests tx').thread)
    (hphase : ∀ tx', tx' ≠ tx → (s'.requests tx').phase = (s.requests tx').phase)
    (hdone : (s.requests tx).phase ≠ .waiting ∧ (s'.requests tx).phase = (s.requests tx).phase ∨
      (s'.requests tx).phase = .timedOut) : Asked s' := by
  have hget := getElem?_set_pc ht .idle
  refine ⟨fun t' pc tx' ht' hpc => ?_, by rw [hbegun, hnext]; exact h.fresh,
    by rw [hperf, hnext]; exact h.told, fun tx' hlt h0 => ?_, fun p hp tx' htx h0 => ?_⟩
  · rw [hs', hget] at ht'
    split at ht'
    · cases ht'
      simp [Pc.request] at hpc
    · rw [hnext, hthread]
      exact h.owner t' pc tx' ht' hpc
  · rw [hnext] at hlt
    rw [hthread] at h0
    by_cases htx : tx' = tx
    · subst htx
      obtain ⟨hne, heq⟩ | hto := hdone
      · rw [heq]
        obtain hp | ⟨hp, -⟩ := h.held tx' hlt h0
        · exact .inl hp
        · exact absurd hp hne
      · exact .inl hto
    · rw [hphase tx' htx]
      obtain hp | ⟨hp, pc, h0', hpc⟩ := h.held tx' hlt h0
      · exact .inl hp
      · refine .inr ⟨hp, pc, ?_, hpc⟩
        rw [hs', hget, if_neg, h0']
        rintro rfl
        rw [ht] at h0'
        cases h0'
        exact htx (by simpa [Pc.request] using hpc.symm)
  · rw [hpanic]
    rw [hperf] at hp
    rw [hthread] at h0
    exact h.late p hp tx' htx h0

theorem bind_request_spawn (threads : List Pc) (t : Nat) :
    (threads ++ [Pc.idle])[t]?.bind Pc.request = threads[t]?.bind Pc.request := by
  cases ht : threads[t]? with
  | none =>
      have hlen : threads.length ≤ t := by simpa using ht
      rw [List.getElem?_append_right hlen]
      cases t - threads.length <;> rfl
  | some pc => rw [List.getElem?_append_left (List.getElem?_eq_some_iff.1 ht).1, ht]

theorem asked_step {act : Action} (h : Asked s) (hq : Queued s) (hst : step s act = some s') :
    Asked s' := by
  obtain ⟨hn, hst⟩ := step_cases hst
  cases hst with
  | spawn => exact h.congr rfl rfl (fun _ => .inl) rfl id (bind_request_spawn s.threads)
  | seek t ht => exact h.congr rfl rfl (fun _ => .inl) rfl id (bind_request_set ht rfl)
  | begin act pc x s₁ ht hp => exact h.begin hp ht
  | androidSetup | wryCreate | endJni | created | failed =>
      exact h.congr rfl rfl (fun _ => .inl) rfl id (fun _ => rfl)
  | uncreated => exact h.congr rfl rfl (fun _ => .inl) rfl (fun _ => rfl) (fun _ => rfl)
  | push t x ht =>
      exact h.congr rfl rfl (fun _ => .inl) rfl id (bind_request_set ht rfl)
  | write t x ht =>
      exact h.congr rfl rfl (fun _ => .inl) rfl id (bind_request_set ht (request_written x))
  | read hr h0 hb =>
      exact h.congr rfl rfl (fun _ => .inl) rfl id (bind_request_set h0 rfl)
  | recv ok x rest h0 hc => exact h.recv hq hn h0 hc ok
  | resume t tx ht hp =>
      exact h.returns ht rfl rfl rfl rfl rfl (fun _ => rfl) (fun _ _ => rfl) (.inl ⟨hp, rfl⟩)
  | timeout t tx ht hp =>
      refine h.returns ht rfl rfl rfl rfl rfl (fun tx' => ?_) (fun tx' hne => ?_) (.inr ?_)
      · rw [State.setRequest_requests]
        split
        · next heq => rw [heq]; rfl
        · rfl
      · rw [State.setRequest_requests, if_neg hne]
        rfl
      · rw [State.setRequest_requests, if_pos rfl]

theorem asked_of_reachable (h : mainPipe.Reachable s) : Asked s :=
  System.Reachable.invariant (I := Asked) Asked.init
    (fun _ _ _ hr hi hst => asked_step hi (queued_of_reachable hr) hst) h

/-- A request of the main thread is never answered: it waits, or has timed out. The
process has panicked once a web view was asked for what the request is about. -/
theorem main_request_unanswered (h : mainPipe.Reachable s) {tx : RequestId}
    (hlt : tx < s.nextRequest) (h0 : (s.requests tx).thread = 0) :
    ((s.requests tx).phase = .waiting ∨ (s.requests tx).phase = .timedOut) ∧
      ∀ p ∈ s.performed, p.2.tx = some tx → s.panicked = true := by
  have ha := asked_of_reachable h
  refine ⟨?_, fun p hp htx => ha.late p hp tx htx h0⟩
  obtain hp | ⟨hp, -⟩ := ha.held tx hlt h0
  · exact .inr hp
  · exact .inl hp

/-- The main thread asks for the URL of a web view, and is told that it timed out. -/
def mainUrlRun : List Action :=
  [.androidSetup 1, .wryCreate, .new 0 1, .push 0, .write 0, .read, .recv true, .endFrame true,
    .request 0 1 .url, .push 0, .write 0, .timeout 0, .read, .recv true]

theorem main_request_unanswered_url :
    ∃ s, mainPipe.Reachable s ∧ (s.requests 0).phase = .timedOut ∧ s.panicked = true := by
  obtain ⟨s, hs, htest⟩ := System.exists_reachable (S := mainPipe) mainUrlRun
    (fun s => s.nextRequest == 1 && (s.requests 0).thread == 0 &&
      (s.requests 0).phase == .timedOut && s.performed == [(0, .getUrl 0)]) (by decide)
  simp only [Bool.and_eq_true, beq_iff_eq] at htest
  obtain ⟨⟨⟨hnext, h0⟩, hphase⟩, hperf⟩ := htest
  have hlt : (0 : RequestId) < s.nextRequest := hnext ▸ Nat.one_pos
  have h := main_request_unanswered hs hlt h0
  exact ⟨s, hs, hphase, h.2 (0, .getUrl 0) (by simp [hperf]) rfl⟩

end Wxp.Android
