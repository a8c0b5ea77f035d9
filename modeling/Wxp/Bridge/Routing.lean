import Wxp.Bridge.Transitions

/-!
# Bridge — Routing

Where the response of a request is evaluated. `handle_ipc` reads the handler's
slot when the response is there, and the slot holds the WebView that was built
last with this handler, whichever sent the request.

* `responses_go_home_iff`: a run evaluates responses only in the WebView that
  asked, and only while it is there, exactly if, whenever a response is posted,
  the slot holds the WebView that asked or one that is gone.
-/

namespace Wxp.Bridge

variable {commands : List String} {s s' : State} {act : Action}

namespace State

def AnswersHome (s : State) : Prop :=
  ∀ e ∈ s.evaluated, e.webview = e.asker ∧ e.askerAlive = true

/-- The request whose response a step posts. -/
def answers (commands : List String) (s : State) : Action → Option Request
  | .start r => (s.requests[r]?).filter fun q => q.phase = .posted ∧ parses q = true ∧
      ¬ (s.slot.any s.isAlive ∧ q.cmd ∈ commands)
  | .complete r _ => (s.requests[r]?).filter fun q => q.phase ≠ .posted ∧ q.phase ≠ .finished
  | _ => none

/-- The WebView built last with the handler is the one that asked, or gone. -/
def slotIsHome (s : State) (q : Request) : Bool :=
  s.slot.all fun w => !s.isAlive w || w == q.webview

def Homeward (commands : List String) (s : State) (act : Action) : Prop :=
  (s.answers commands act).all s.slotIsHome = true

instance (commands : List String) (s : State) (act : Action) :
    Decidable (Homeward commands s act) :=
  inferInstanceAs (Decidable ((s.answers commands act).all s.slotIsHome = true))

theorem respond_answersHome {r : Nat} {q : Request} {ok : Bool} :
    (s.respond r q ok).AnswersHome ↔ s.AnswersHome ∧ s.slotIsHome q = true := by
  cases hslot : s.slot with
  | none => simp [respond, hslot, slotIsHome, AnswersHome, setRequest]
  | some w =>
      cases halive : s.isAlive w with
      | false =>
          simp [respond, hslot, Option.filter_some, halive, slotIsHome, AnswersHome, setRequest]
      | true =>
          have hevaluated : (s.respond r q ok).evaluated = s.evaluated ++
              [{ asker := q.webview, webview := w, askerAlive := s.isAlive q.webview }] := by
            simp [respond, hslot, Option.filter_some, halive]
          simp only [AnswersHome, hevaluated, slotIsHome, hslot, halive, Option.all_some,
            Bool.not_true, Bool.false_or, beq_iff_eq, List.mem_append, List.mem_singleton]
          constructor
          · intro h
            exact ⟨fun e he => h e (.inl he), (h _ (.inr rfl)).1⟩
          · rintro ⟨h, rfl⟩ e (he | rfl)
            · exact h e he
            · exact ⟨rfl, halive⟩

theorem Step.answersHome (hst : Step commands s act s') :
    s'.AnswersHome ↔ s.AnswersHome ∧ Homeward commands s act := by
  cases hst with
  | refuse r q hq hphase hparse hcmd =>
      have hanswers : s.answers commands (.start r) = some q := by
        have hnot : s.slot.any s.isAlive = false ∨ q.cmd ∉ commands := by
          cases hslot : s.slot with
          | none => exact .inl rfl
          | some w =>
              cases halive : s.isAlive w with
              | false => exact .inl (by simp [halive])
              | true => exact .inr (hcmd w hslot halive)
        simp [answers, hq, hphase, hparse, hnot]
      rw [Homeward, hanswers, respond_answersHome]
      rfl
  | complete r q w ok hq hphase =>
      have hanswers : s.answers commands (.complete r ok) = some q := by
        simp [answers, hq, hphase]
      rw [Homeward, hanswers, respond_answersHome]
      rfl
  | unparsed r q hq hparse =>
      have hanswers : s.answers commands (.start r) = none := by
        simp [answers, hq, hparse]
      simp [Homeward, hanswers, AnswersHome, setRequest]
  | run r q w hq hphase hslot halive hcmd =>
      have hanswers : s.answers commands (.start r) = none := by
        simp [answers, hq, hslot, halive, hcmd]
      simp [Homeward, hanswers, AnswersHome, setRequest]
  | post | dropChannel | evaluate | settle | fetched => simp [Homeward, answers, AnswersHome]
  | _ => simp [Homeward, answers, AnswersHome, onDocument, State.create, State.dropWebView]

/-- **Responses go back to the WebView that asked** in exactly the runs in which,
whenever a response is posted, the WebView built last with the handler is the one
that asked or is gone. -/
theorem responses_go_home_iff {as : List Action}
    (h : (bridgeSystem commands).run (bridgeSystem commands).init as = some s) :
    s.AnswersHome ↔
      (bridgeSystem commands).runVia (Homeward commands) (bridgeSystem commands).init as =
        some s := by
  have hinit : (bridgeSystem commands).init.AnswersHome := by
    intro e he
    cases he
  have hiff := System.runVia_iff (P := AnswersHome)
    (fun s a s' hst => (step_cases (show s.step commands a = some s' from hst)).answersHome) h
  rw [hiff, and_iff_right hinit]

/-- The editor is closed while its command runs; the next editor is opened after
the command is done. -/
def closedRun : List Action :=
  [.create, .install 0, .invoke 0 "load" [], .start 0, .invoke 0 "load" [], .start 1,
    .complete 0 true, .dropWebView 0, .complete 1 true, .create, .install 1]

theorem responses_go_home_closed :
    ∃ s, (bridgeSystem ["load"]).run (bridgeSystem ["load"]).init closedRun = some s ∧
      s.requests.map Request.phase = [.finished, .finished] ∧
      s.evaluated = [{ asker := 0, webview := 0, askerAlive := true }] ∧ s.AnswersHome := by
  have hvia : ((bridgeSystem ["load"]).runVia (Homeward ["load"]) (bridgeSystem ["load"]).init
      closedRun).isSome = true := by
    decide
  have hrun : ((bridgeSystem ["load"]).run (bridgeSystem ["load"]).init closedRun).map
      (fun s => decide (s.requests.map Request.phase = [.finished, .finished] ∧
        s.evaluated = [{ asker := 0, webview := 0, askerAlive := true }])) = some true := by
    decide
  obtain ⟨s, hs, hp⟩ := Option.map_eq_some_iff.1 hrun
  obtain ⟨hphase, heval⟩ := of_decide_eq_true hp
  obtain ⟨t, ht⟩ := Option.isSome_iff_exists.1 hvia
  have hst : t = s := by
    have := System.run_of_runVia ht
    rw [hs] at this
    exact (Option.some.inj this).symm
  exact ⟨s, hs, hphase, heval, (responses_go_home_iff hs).2 (hst ▸ ht)⟩

/-- The editor is closed while its command runs, and opened again before the
command is done; both pages have called `invoke` once. -/
def reopenedRun : List Action :=
  [.create, .install 0, .invoke 0 "load" [], .start 0, .dropWebView 0, .create, .install 1,
    .invoke 1 "load" [], .complete 0 true, .evaluate 0]

/-- The response to the first WebView is evaluated in the second, and resolves the
call of its page. -/
theorem response_reaches_other_webview :
    ∃ s, (bridgeSystem ["load"]).Reachable s ∧
      s.evaluated = [{ asker := 0, webview := 1, askerAlive := false }] ∧
      s.deliveries = [{ owner := 0, receiver := 1 }] ∧ ¬ s.AnswersHome := by
  have hrun : ((bridgeSystem ["load"]).run (bridgeSystem ["load"]).init reopenedRun).map
      (fun s => decide (s.evaluated = [{ asker := 0, webview := 1, askerAlive := false }] ∧
        s.deliveries = [{ owner := 0, receiver := 1 }])) = some true := by
    decide
  obtain ⟨s, hs, hp⟩ := System.exists_reachable _ _ hrun
  obtain ⟨heval, hdeliveries⟩ := of_decide_eq_true hp
  refine ⟨s, hs, heval, hdeliveries, fun hhome => ?_⟩
  have := (hhome _ (heval ▸ List.mem_singleton_self _)).2
  cases this

end State

end Wxp.Bridge
