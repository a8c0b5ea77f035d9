import Wxp.Android.Messages
import Wxp.Foundations.Progress

/-!
# Android — when the main thread is stuck

The main thread is the only one that takes messages from the channel, and it sends
messages like any other thread. If it finds the channel full, it waits for itself; and in
`platform_webview_version` it waits for an activity, which only it could register
(`Wedged`). These are the only ways in which the messages are stuck while the pipe is
registered: in every other state all messages that the channel has taken can still be
handled, and from these nothing is handled any more (`drains_iff`).
-/

namespace Wxp.Android

variable {s s' : State}

/-- The thread is at a send, or in a loop that ends in one. -/
def Pc.sends : Pc → Bool
  | .seeking | .pushing _ => true
  | .idle | .writing _ | .awaiting _ | .receiving => false

/-- The main thread waits for what only it could bring about. -/
inductive Wedged (s : State) : Prop
  /-- For room in the channel. -/
  | full (pc : Pc) : s.threads[0]? = some pc → pc.sends = true → s.channel.length = capacity →
      Wedged s
  /-- For the first activity. -/
  | seeking : s.threads[0]? = some .seeking → (∀ a, s.proxies a = none) → s.channel ≠ [] →
      Wedged s

theorem Wedged.main (h : Wedged s) : ∃ pc, s.threads[0]? = some pc ∧ pc.sends = true := by
  cases h with
  | full pc h0 hpc => exact ⟨pc, h0, hpc⟩
  | seeking h0 => exact ⟨.seeking, h0, rfl⟩

theorem Wedged.channel_ne_nil (h : Wedged s) : s.channel ≠ [] := by
  cases h with
  | full pc _ _ hlen =>
      intro hnil
      rw [hnil] at hlen
      cases hlen
  | seeking _ _ hne => exact hne

theorem Wedged.congr (h : Wedged s) (h0 : s'.threads[0]? = s.threads[0]?)
    (hc : s'.channel = s.channel) (hp : s'.proxies = s.proxies) : Wedged s' := by
  cases h with
  | full pc hpc hsends hlen => exact .full pc (h0.trans hpc) hsends (by rw [hc, hlen])
  | seeking hpc hnone hne => exact .seeking (h0.trans hpc) (by rwa [hp]) (by rwa [hc])

/-- It is not the main thread that moves. -/
theorem Wedged.ne_zero (h : Wedged s) {t : Nat} {pc : Pc} (ht : s.threads[t]? = some pc)
    (hpc : pc.sends = false) : t ≠ 0 := by
  rintro rfl
  obtain ⟨pc', h0, hpc'⟩ := h.main
  rw [h0] at ht
  cases ht
  rw [hpc'] at hpc
  cases hpc

theorem Wedged.set (h : Wedged s) {t : Nat} {pc : Pc} (ht : s.threads[t]? = some pc)
    (hpc : pc.sends = false) (pc' : Pc) : (s.threads.set t pc')[0]? = s.threads[0]? := by
  rw [getElem?_set_pc ht, if_neg (h.ne_zero ht hpc).symm]

theorem Wedged.begin (h : Wedged s) {act : Action} {pc : Pc} {x : Sent} {s₁ : State}
    (ht : s.threads[x.thread]? = some pc) (hp : Prepared s act pc x s₁) : Wedged (s₁.begin x) := by
  cases hp with
  | send | new | onWebviewDestroy => exact h.congr (h.set ht rfl _) rfl rfl
  | androidSetup => exact absurd rfl (h.ne_zero ht rfl)
  | request t a q ha =>
      cases q with
      | url | cookiesForUrl => exact h.congr (h.set ht rfl _) rfl rfl
      | webviewVersion =>
          have hget := getElem?_set_pc ht (.pushing ⟨t, a, .getWebViewVersion s.nextRequest⟩) 0
          by_cases h0 : 0 = t
          · rw [if_pos h0] at hget
            cases h with
            | full pc _ _ hlen => exact .full _ hget rfl hlen
            | seeking _ hnone => simp [hnone] at ha
          · rw [if_neg h0] at hget
            exact h.congr hget rfl rfl

theorem Wedged.push (h : Wedged s) {t : Nat} {x : Sent} (ht : s.threads[t]? = some (.pushing x))
    (hroom : s.channel.length < capacity) :
    Wedged { s.setPc t (.writing x) with
      channel := s.channel ++ [x], accepted := s.accepted ++ [x] } := by
  cases h with
  | full pc _ _ hlen => exact absurd hroom (by rw [hlen]; exact Nat.lt_irrefl _)
  | seeking h0 hnone =>
      refine .seeking ?_ hnone (List.append_ne_nil_of_right_ne_nil _ (List.cons_ne_nil x []))
      show (s.threads.set t (.writing x))[0]? = some .seeking
      rw [getElem?_set_pc ht, if_neg, h0]
      rintro rfl
      rw [h0] at ht
      cases ht

/-- Nothing is handled any more, and the main thread stays where it is. -/
theorem wedged_step {act : Action} (h : Wedged s) (hst : step s act = some s') :
    Wedged s' ∧ s'.handled = s.handled ∧ s'.panicked = s.panicked := by
  obtain ⟨-, hst⟩ := step_cases hst
  cases hst with
  | spawn =>
      obtain ⟨pc, h0, -⟩ := h.main
      refine ⟨h.congr ?_ rfl rfl, rfl, rfl⟩
      exact List.getElem?_append_left (List.getElem?_eq_some_iff.1 h0).1
  | seek t ht => exact ⟨h.congr (h.set ht rfl _) rfl rfl, rfl, rfl⟩
  | begin act pc x s₁ ht hp =>
      refine ⟨h.begin ht hp, ?_⟩
      cases hp <;> exact ⟨rfl, rfl⟩
  | androidSetup a h0 => exact absurd rfl (h.ne_zero h0 rfl)
  | wryCreate h0 => exact absurd rfl (h.ne_zero h0 rfl)
  | push t x ht hroom => exact ⟨h.push ht hroom, rfl, rfl⟩
  | write t x ht => exact ⟨h.congr (h.set ht rfl _) rfl rfl, rfl, rfl⟩
  | read hr h0 => exact absurd rfl (h.ne_zero h0 rfl)
  | recv ok x rest h0 => exact absurd rfl (h.ne_zero h0 rfl)
  | endJni ok rest h0 => exact absurd rfl (h.ne_zero h0 rfl)
  | created a v rest h0 => exact absurd rfl (h.ne_zero h0 rfl)
  | uncreated a v rest h0 => exact absurd rfl (h.ne_zero h0 rfl)
  | failed a v rest h0 => exact absurd rfl (h.ne_zero h0 rfl)
  | resume t tx ht => exact ⟨h.congr (h.set ht rfl _) rfl rfl, rfl, rfl⟩
  | timeout t tx ht => exact ⟨h.congr (h.set ht rfl _) rfl rfl, rfl, rfl⟩

theorem accepted_step {act : Action} (hst : step s act = some s') :
    s.accepted <+: s'.accepted := by
  obtain ⟨-, hst⟩ := step_cases hst
  cases hst with
  | begin act pc x s₁ ht hp => cases hp <;> exact List.prefix_refl _
  | push t x => exact ⟨[x], rfl⟩
  | recv =>
      rw [(State.sameQueue_handle _ _ _ _).accepted]
      exact List.prefix_refl _
  | spawn | seek | androidSetup | wryCreate | write | read | endJni | created | uncreated | failed
  | resume | timeout => exact List.prefix_refl _

theorem accepted_leads (h : mainPipe.Leads s s') : s.accepted <+: s'.accepted :=
  h.keeps (P := fun u => s.accepted <+: u.accepted)
    (fun _ _ _ hu hst => hu.trans (accepted_step hst)) (List.prefix_refl _)

/-- With an empty channel everything it has taken is handled. -/
theorem drained (hr : mainPipe.Reachable s') (hs' : mainPipe.Leads s s') (hc : s'.channel = []) :
    s.accepted <+: s'.handled := by
  have haccepted := (queued_of_reachable hr).accepted
  rw [hc, List.append_nil] at haccepted
  rw [haccepted]
  exact accepted_leads hs'

end Wxp.Android
