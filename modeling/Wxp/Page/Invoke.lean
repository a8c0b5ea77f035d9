import Wxp.Foundations.System
import Wxp.Page.Document
import Mathlib.Data.List.Infix

/-!
# Page — Invoke

`window.invoke` and `waitForIpc` of `INVOKE_INIT_SCRIPT` (`src/initialization.rs`). A
call made before `window.ipc` exists is queued as a closure; `waitForIpc` polls for
`window.ipc` and then runs the closures.

The page runs beside another one in which `window.ipc` is there from the start
(`Pages`). The direct page is ahead by what the queue will post, in its order. That
breaks where a closure reads its arguments, which the page may have changed since the
call; where the `for` loop is left by an exception, after which nothing polls again; and
where a call finds `window.ipc` before the queue was run.

Result: `queued_refines_direct`.
-/

namespace Wxp.Page

universe u v

/-- An object of the page. -/
abbrev Ref := Nat

/-- The object `{ cmd, callback, error, inner }`. A text of it is given by the same parts,
with a text for `inner`. -/
structure Message (ι : Type u) where
  cmd : String
  callback : Nat
  error : Nat
  inner : ι
  deriving DecidableEq, Repr

/-- The closure `action` of a call. -/
structure Closure (ι : Type u) where
  message : Message Ref
  /-- History: the text of its arguments when it was made. -/
  text : Option ι

/-- One document, with the contents `ω` of its objects. -/
structure Window (ω : Type v) (ι : Type u) where
  /-- `'ipc' in window`. -/
  ipc : Bool := false
  document : Document := {}
  objects : Ref → ω
  ipcQueue : List (Closure ι) := []
  isWaitingForIpc : Bool := false
  /-- How many timeouts are set for `waitForIpc`. -/
  timeouts : Nat := 0
  /-- History: what `window.ipc.postMessage` was called with. -/
  posted : List (Message ι) := []
  /-- History: the calls whose promise was rejected before any response. -/
  rejected : List Nat := []

variable {ω : Type v} {ι : Type u}

namespace Window

section

variable (stringify : ω → Option ι)

/-- `JSON.stringify(message)`; `none` where it throws. -/
def text (w : Window ω ι) (m : Message Ref) : Option (Message ι) :=
  (stringify (w.objects m.inner)).map fun t => { m with inner := t }

def post (w : Window ω ι) (m : Message ι) : Window ω ι :=
  { w with posted := w.posted ++ [m] }

/-- `for (const action of ipcQueue) action()`; an error leaves the loop. -/
def runQueue (w : Window ω ι) : List (Closure ι) → Except (Window ω ι) (Window ω ι)
  | [] => .ok w
  | a :: as =>
      match w.text stringify a.message with
      | none => .error w
      | some m => runQueue (w.post m) as

def waitForIpc (w : Window ω ι) : Window ω ι :=
  if w.ipc then
    match w.runQueue stringify w.ipcQueue with
    | .ok w => { w with ipcQueue := [] }
    | .error w => w
  else { w with timeouts := w.timeouts + 1 }

/-- `window.invoke(cmd, args)`. An error of `action` is an error of the promise's
executor, which rejects the promise. -/
def invoke (w : Window ω ι) (cmd : String) (args : Ref) : Window ω ι :=
  let callback := w.document.callbackIdCounter
  let message : Message Ref := { cmd, callback, error := callback + 1, inner := args }
  let w := { w with document := w.document.invokeCommand }
  if w.ipc then
    match w.text stringify message with
    | some m => w.post m
    | none => { w with rejected := w.rejected ++ [callback] }
  else
    let w := { w with ipcQueue := w.ipcQueue ++ [⟨message, stringify (w.objects args)⟩] }
    if w.isWaitingForIpc then w else { w.waitForIpc stringify with isWaitingForIpc := true }

/-- The timeout of `waitForIpc`. -/
def poll (w : Window ω ι) : Option (Window ω ι) :=
  if 0 < w.timeouts then some (waitForIpc stringify { w with timeouts := w.timeouts - 1 })
  else none

end

/-- The page writes to an object. -/
def assign (w : Window ω ι) (r : Ref) (value : ω) : Window ω ι :=
  { w with objects := Function.update w.objects r value }

def newChannel (w : Window ω ι) : Window ω ι :=
  { w with document := w.document.newChannel }

end Window

/-- The page, and the same page with `window.ipc` from the start. -/
structure Pages (ω : Type v) (ι : Type u) where
  page : Window ω ι
  direct : Window ω ι

inductive Event (ω : Type v)
  | invoke (cmd : String) (args : Ref)
  | assign (r : Ref) (value : ω)
  | newChannel
  | ipcAppears
  | poll

namespace Pages

section

variable (stringify : ω → Option ι)

def step (s : Pages ω ι) : Event ω → Option (Pages ω ι)
  | .invoke cmd args =>
      some ⟨s.page.invoke stringify cmd args, s.direct.invoke stringify cmd args⟩
  | .assign r value => some ⟨s.page.assign r value, s.direct.assign r value⟩
  | .newChannel => some ⟨s.page.newChannel, s.direct.newChannel⟩
  | .ipcAppears => some { s with page := { s.page with ipc := true } }
  | .poll => (s.page.poll stringify).map fun page => { s with page }

def system (objects : Ref → ω) : System (Pages ω ι) (Event ω) where
  init := { page := { objects }, direct := { objects, ipc := true } }
  step := step stringify

/-- What is posted and rejected is so on the direct page, in its order; what is missing is
queued, and the queue will be run. -/
structure Refines (s : Pages ω ι) : Prop where
  posted : s.page.posted <+: s.direct.posted
  rejected : s.page.rejected = s.direct.rejected
  complete : s.page.ipcQueue = [] → s.page.posted = s.direct.posted
  polled : s.page.ipcQueue ≠ [] → 0 < s.page.timeouts

/-- No call is made between the appearance of `window.ipc` and the run of the queue, but
one that cannot be serialized; a call that is queued can be; and when the queue is run
the arguments of its calls have the texts they had at the call. -/
def Undisturbed (s : Pages ω ι) : Event ω → Prop
  | .invoke _ args =>
      if s.page.ipc then s.page.ipcQueue = [] ∨ stringify (s.page.objects args) = none
      else stringify (s.page.objects args) ≠ none
  | .poll => s.page.ipc = true →
      ∀ a ∈ s.page.ipcQueue, stringify (s.page.objects a.message.inner) = a.text
  | _ => True

end

end Pages

/-! ## The queue -/

/-- What the closure posts if its arguments still have their text. -/
def Closure.posting (a : Closure ι) : Option (Message ι) :=
  a.text.map fun t => { a.message with inner := t }

namespace Window

variable {stringify : ω → Option ι} {w w' : Window ω ι} {as : List (Closure ι)}
  {ms : List (Message ι)}

/-- The arguments of the closure have the text they had at the call. -/
def Same (stringify : ω → Option ι) (w : Window ω ι) (a : Closure ι) : Prop :=
  stringify (w.objects a.message.inner) = a.text

theorem Same.text_eq {a : Closure ι} (h : Same stringify w a) :
    w.text stringify a.message = a.posting := by
  rw [text, show stringify (w.objects a.message.inner) = a.text from h, Closure.posting]

theorem same_of_text_eq {a : Closure ι} {m : Message ι}
    (h : w.text stringify a.message = some m) (hm : a.posting = some m) :
    Same stringify w a := by
  obtain ⟨t, ht, rfl⟩ := Option.map_eq_some_iff.1 h
  obtain ⟨t', ht', he⟩ := Option.map_eq_some_iff.1 hm
  rw [Same, ht, ht']
  exact congrArg some (congrArg Message.inner he).symm

/-- An undisturbed queue posts what its calls would have posted. -/
theorem runQueue_eq (hms : as.map Closure.posting = ms.map some)
    (h : ∀ a ∈ as, Same stringify w a) :
    w.runQueue stringify as = .ok { w with posted := w.posted ++ ms } := by
  induction as generalizing w ms with
  | nil =>
      obtain rfl : ms = [] := by simpa using hms.symm
      simp [runQueue]
  | cons a as ih =>
      obtain ⟨m, ms, rfl, hm, htail⟩ := List.map_eq_cons_iff.1 hms.symm
      have ha := (h a List.mem_cons_self).text_eq.trans hm.symm
      rw [runQueue, ha]
      simpa [post] using ih (w := w.post m) htail.symm fun b hb => h b (List.mem_cons_of_mem a hb)

/-- Running the queue only posts. -/
theorem runQueue_grows (w : Window ω ι) (as : List (Closure ι)) :
    (∀ w', w.runQueue stringify as = .ok w' → w.posted <+: w'.posted) ∧
    ∀ w', w.runQueue stringify as = .error w' →
      w.posted <+: w'.posted ∧ w'.ipcQueue = w.ipcQueue ∧ w'.timeouts = w.timeouts := by
  induction as generalizing w with
  | nil =>
      refine ⟨fun w' h => ?_, fun w' h => (nomatch h)⟩
      cases h
      exact List.prefix_rfl
  | cons a as ih =>
      rw [runQueue]
      cases hm : w.text stringify a.message with
      | none =>
          refine ⟨fun w' h => (nomatch h), fun w' h => ?_⟩
          cases h
          exact ⟨List.prefix_rfl, rfl, rfl⟩
      | some m =>
          have hpost : w.posted <+: (w.post m).posted := List.prefix_append _ _
          refine ⟨fun w' h => hpost.trans ((ih (w.post m)).1 w' h), fun w' h => ?_⟩
          obtain ⟨hp, hq, ht⟩ := (ih (w.post m)).2 w' h
          exact ⟨hpost.trans hp, hq, ht⟩

/-- A disturbed queue posts something else, or does not come to its end. -/
theorem runQueue_disturbed (hms : as.map Closure.posting = ms.map some)
    (h : ¬ ∀ a ∈ as, Same stringify w a) (hok : w.runQueue stringify as = .ok w') :
    ¬ w'.posted <+: w.posted ++ ms := by
  induction as generalizing w ms with
  | nil => exact absurd (by simp) h
  | cons a as ih =>
      obtain ⟨m, ms, rfl, hpost, htail⟩ := List.map_eq_cons_iff.1 hms.symm
      rw [runQueue] at hok
      cases hm : w.text stringify a.message with
      | none => simp [hm] at hok
      | some m' =>
          rw [hm] at hok
          by_cases he : m' = m
          · subst he
            have hsame : Same stringify w a := same_of_text_eq hm hpost.symm
            have hrest : ¬ ∀ b ∈ as, Same stringify (w.post m') b := fun hall =>
              h (List.forall_mem_cons.2 ⟨hsame, hall⟩)
            simpa [post] using ih htail.symm hrest hok
          · -- the first posting that differs
            intro hp
            have hgrow : w.posted ++ [m'] <+: w'.posted :=
              (runQueue_grows (w.post m') as).1 w' hok
            have := (List.prefix_append_right_inj _).1 (hgrow.trans hp)
            exact he (by simpa using this)

end Window

/-! ## The two pages -/

namespace Pages

variable {stringify : ω → Option ι} {s s' : Pages ω ι} {e : Event ω}

/-- The direct page is ahead by what the queue will post. -/
structure Ahead (s : Pages ω ι) : Prop where
  posted : ∃ ms, s.page.ipcQueue.map Closure.posting = ms.map some ∧
    s.direct.posted = s.page.posted ++ ms
  rejected : s.page.rejected = s.direct.rejected
  document : s.page.document = s.direct.document
  objects : s.page.objects = s.direct.objects
  ipc : s.direct.ipc = true
  timeouts : s.page.timeouts ≤ 1
  waiting : s.page.isWaitingForIpc = true → s.page.ipc = false ∨ s.page.ipcQueue ≠ [] →
    s.page.timeouts = 1
  idle : s.page.isWaitingForIpc = false → s.page.ipcQueue = [] ∧ s.page.timeouts = 0
  old : ∀ a ∈ s.page.ipcQueue, a.message.callback < s.page.document.callbackIdCounter

theorem Ahead.init (objects : Ref → ω) :
    Ahead (⟨{ objects }, { objects, ipc := true }⟩ : Pages ω ι) where
  posted := ⟨[], rfl, rfl⟩
  rejected := rfl
  document := rfl
  objects := rfl
  ipc := rfl
  timeouts := Nat.zero_le 1
  waiting h := nomatch h
  idle _ := ⟨rfl, rfl⟩
  old _ h := nomatch h

theorem Ahead.refines (h : s.Ahead) : s.Refines := by
  obtain ⟨ms, hms, hp⟩ := h.posted
  refine ⟨⟨ms, hp.symm⟩, h.rejected, fun hq => ?_, fun hq => ?_⟩
  · obtain rfl : ms = [] := by simpa [hq] using hms.symm
    simpa using hp.symm
  · cases hw : s.page.isWaitingForIpc with
    | true => exact h.waiting hw (.inr hq) ▸ Nat.one_pos
    | false => exact absurd (h.idle hw).1 hq

/-- The message of a call. -/
def callMessage (s : Pages ω ι) (cmd : String) (args : Ref) : Message Ref :=
  { cmd
    callback := s.page.document.callbackIdCounter
    error := s.page.document.callbackIdCounter + 1
    inner := args }

theorem Ahead.assign (h : s.Ahead) (r : Ref) (value : ω) :
    Ahead ⟨s.page.assign r value, s.direct.assign r value⟩ where
  posted := h.posted
  rejected := h.rejected
  document := h.document
  objects := by simp [Window.assign, h.objects]
  ipc := h.ipc
  timeouts := h.timeouts
  waiting := h.waiting
  idle := h.idle
  old := h.old

theorem Ahead.newChannel (h : s.Ahead) : Ahead ⟨s.page.newChannel, s.direct.newChannel⟩ where
  posted := h.posted
  rejected := h.rejected
  document := by simp [Window.newChannel, h.document]
  objects := h.objects
  ipc := h.ipc
  timeouts := h.timeouts
  waiting := h.waiting
  idle := h.idle
  old a ha := Nat.lt_succ_of_lt (h.old a ha)

theorem Ahead.ipcAppears (h : s.Ahead) : Ahead { s with page := { s.page with ipc := true } } where
  posted := h.posted
  rejected := h.rejected
  document := h.document
  objects := h.objects
  ipc := h.ipc
  timeouts := h.timeouts
  waiting hw hq := h.waiting hw (hq.imp_left nofun)
  idle := h.idle
  old := h.old

theorem callbackIdCounter_invokeCommand (d : Document) :
    d.invokeCommand.callbackIdCounter = d.callbackIdCounter + 2 := rfl

/-- The direct page posts the message of a call, or rejects its promise. -/
theorem Ahead.direct_invoke (h : s.Ahead) (cmd : String) (args : Ref) :
    s.direct.invoke stringify cmd args =
      match s.page.text stringify (s.callMessage cmd args) with
      | some m => Window.post { s.direct with document := s.direct.document.invokeCommand } m
      | none => { s.direct with
          document := s.direct.document.invokeCommand
          rejected := s.direct.rejected ++ [s.page.document.callbackIdCounter] } := by
  simp only [Window.invoke, h.ipc, if_true, callMessage, ← h.document, Window.text, h.objects]

/-- So does the page once it has `window.ipc`. -/
theorem page_invoke (hipc : s.page.ipc = true) (cmd : String) (args : Ref) :
    s.page.invoke stringify cmd args =
      match s.page.text stringify (s.callMessage cmd args) with
      | some m => Window.post { s.page with document := s.page.document.invokeCommand } m
      | none => { s.page with
          document := s.page.document.invokeCommand
          rejected := s.page.rejected ++ [s.page.document.callbackIdCounter] } := by
  simp only [Window.invoke, hipc, if_true, callMessage, Window.text]

/-- Without `window.ipc` it queues the call, and sees to it that a timeout is set. -/
theorem Ahead.page_queue (h : s.Ahead) (hipc : s.page.ipc = false) (cmd : String) (args : Ref) :
    s.page.invoke stringify cmd args =
      { s.page with
        document := s.page.document.invokeCommand
        ipcQueue := s.page.ipcQueue ++
          [⟨s.callMessage cmd args, stringify (s.page.objects args)⟩]
        isWaitingForIpc := true
        timeouts := 1 } := by
  cases hw : s.page.isWaitingForIpc with
  | true =>
      have ht := h.waiting hw (.inl hipc)
      simp [Window.invoke, hipc, hw, callMessage, ← ht]
  | false =>
      have ht := (h.idle hw).2
      simp [Window.invoke, hipc, hw, callMessage, Window.waitForIpc, ht]

theorem Ahead.invoke (h : s.Ahead) {cmd : String} {args : Ref}
    (hok : s.Undisturbed stringify (.invoke cmd args)) :
    Ahead ⟨s.page.invoke stringify cmd args, s.direct.invoke stringify cmd args⟩ := by
  obtain ⟨ms, hms, hp⟩ := h.posted
  have hdoc : s.page.document.invokeCommand = s.direct.document.invokeCommand := by
    rw [h.document]
  have hold : ∀ a ∈ s.page.ipcQueue,
      a.message.callback < s.page.document.invokeCommand.callbackIdCounter := fun a ha => by
    have := h.old a ha
    rw [callbackIdCounter_invokeCommand]
    omega
  simp only [Undisturbed] at hok
  rw [h.direct_invoke]
  cases hipc : s.page.ipc with
  | true =>
      rw [page_invoke hipc]
      simp only [hipc, if_true] at hok
      cases hm : s.page.text stringify (s.callMessage cmd args) with
      | none =>
          refine ⟨⟨ms, hms, hp⟩, ?_, hdoc, h.objects, h.ipc, h.timeouts, h.waiting, h.idle, hold⟩
          rw [h.rejected]
      | some m =>
          have hq : s.page.ipcQueue = [] := hok.resolve_right fun hn => by
            simp [Window.text, callMessage, hn] at hm
          obtain rfl : ms = [] := by simpa [hq] using hms.symm
          refine ⟨⟨[], by simpa [Window.post] using hq, ?_⟩, h.rejected, hdoc, h.objects, h.ipc,
            h.timeouts, h.waiting, h.idle, hold⟩
          simp [Window.post, hp]
  | false =>
      rw [h.page_queue hipc]
      simp only [hipc, Bool.false_eq_true, if_false] at hok
      obtain ⟨t, ht⟩ := Option.ne_none_iff_exists'.1 hok
      have hm : s.page.text stringify (s.callMessage cmd args) =
          some { s.callMessage cmd args with inner := t } := by
        simp [Window.text, callMessage, ht]
      rw [hm]
      refine ⟨⟨ms ++ [{ s.callMessage cmd args with inner := t }], ?_, ?_⟩, h.rejected, hdoc,
        h.objects, h.ipc, Nat.le_refl 1, fun _ _ => rfl, fun hw => (nomatch hw), fun a ha => ?_⟩
      · simp [hms, Closure.posting, ht]
      · simp [Window.post, hp]
      · rcases List.mem_append.1 ha with ha | ha
        · exact hold a ha
        · obtain rfl := List.mem_singleton.1 ha
          exact Nat.lt_succ_of_lt (Nat.lt_succ_self _)

/-- A call against the condition is posted out of turn, or it is not rejected. -/
theorem Ahead.invoke_disturbed (h : s.Ahead) {cmd : String} {args : Ref}
    (hok : ¬ s.Undisturbed stringify (.invoke cmd args)) :
    ¬ Refines ⟨s.page.invoke stringify cmd args, s.direct.invoke stringify cmd args⟩ := by
  obtain ⟨ms, hms, hp⟩ := h.posted
  intro hr
  simp only [Undisturbed] at hok
  have hposted := hr.posted
  have hrejected := hr.rejected
  cases hipc : s.page.ipc with
  | true =>
      simp only [hipc, if_true, not_or] at hok
      obtain ⟨t, ht⟩ := Option.ne_none_iff_exists'.1 hok.2
      have hm : s.page.text stringify (s.callMessage cmd args) =
          some { s.callMessage cmd args with inner := t } := by
        simp [Window.text, callMessage, ht]
      simp only [h.direct_invoke, page_invoke hipc, hm, Window.post, hp, List.append_assoc,
        List.prefix_append_right_inj] at hposted
      obtain ⟨a, as, ha⟩ := List.exists_cons_of_ne_nil hok.1
      cases ms with
      | nil => simp [ha] at hms
      | cons m ms =>
          -- the first message of the queue is of an earlier call
          have hfirst : s.callMessage cmd args = { m with inner := args } := by
            have := (List.cons_prefix_cons.1 hposted).1
            rw [← this]
            rfl
          rw [ha, List.map_cons, List.map_cons, List.cons.injEq] at hms
          obtain ⟨t', ht', rfl⟩ := Option.map_eq_some_iff.1 hms.1
          have hlt := h.old a (ha ▸ List.mem_cons_self)
          have hcb : s.page.document.callbackIdCounter = a.message.callback :=
            congrArg Message.callback hfirst
          omega
  | false =>
      simp only [hipc, Bool.false_eq_true, if_false, not_not] at hok
      have hm : s.page.text stringify (s.callMessage cmd args) = none := by
        simp [Window.text, callMessage, hok]
      simp only [h.direct_invoke, h.page_queue hipc, hm, h.rejected] at hrejected
      simp at hrejected

/-- At most one timeout is set: a poll runs the queue, or sets the next one. -/
theorem Ahead.poll_eq (h : s.Ahead) {page : Window ω ι}
    (hst : s.page.poll stringify = some page) :
    s.page.timeouts = 1 ∧
      page = if s.page.ipc then
          match Window.runQueue stringify { s.page with timeouts := 0 } s.page.ipcQueue with
          | .ok w => { w with ipcQueue := [] }
          | .error w => w
        else s.page := by
  simp only [Window.poll, Option.ite_none_right_eq_some, Option.some.injEq] at hst
  obtain ⟨hpos, rfl⟩ := hst
  have ht : s.page.timeouts = 1 := by
    have := h.timeouts
    omega
  refine ⟨ht, ?_⟩
  simp only [Window.waitForIpc, ht, Nat.sub_self, Nat.zero_add]
  split
  · rfl
  · rw [← ht]

theorem Ahead.poll (h : s.Ahead) {page : Window ω ι} (hok : s.Undisturbed stringify .poll)
    (hst : s.page.poll stringify = some page) : Ahead { s with page } := by
  obtain ⟨-, rfl⟩ := h.poll_eq hst
  obtain ⟨ms, hms, hp⟩ := h.posted
  split
  · rename_i hipc
    rw [Window.runQueue_eq (w := { s.page with timeouts := 0 }) hms (hok hipc)]
    refine ⟨⟨[], rfl, by simp [hp]⟩, h.rejected, h.document, h.objects, h.ipc, Nat.zero_le 1,
      fun _ hq => ?_, fun _ => ⟨rfl, rfl⟩, fun _ ha => (nomatch ha)⟩
    rcases hq with hq | hq
    · exact (nomatch hipc.symm.trans hq)
    · exact absurd rfl hq
  · exact h

/-- A queue that is disturbed when it is run posts something else, or is not run to its
end and not again. -/
theorem Ahead.poll_disturbed (h : s.Ahead) {page : Window ω ι}
    (hok : ¬ s.Undisturbed stringify .poll) (hst : s.page.poll stringify = some page) :
    ¬ Refines { s with page } := by
  obtain ⟨-, rfl⟩ := h.poll_eq hst
  obtain ⟨ms, hms, hp⟩ := h.posted
  simp only [Undisturbed, Classical.not_imp] at hok
  obtain ⟨hipc, hbad⟩ := hok
  rw [if_pos hipc]
  intro hr
  cases hrun : Window.runQueue stringify { s.page with timeouts := 0 } s.page.ipcQueue with
  | ok w =>
      rw [hrun] at hr
      have hposted := hr.posted
      rw [show s.direct.posted = _ from hp] at hposted
      exact Window.runQueue_disturbed (w := { s.page with timeouts := 0 }) hms hbad hrun hposted
  | error w =>
      rw [hrun] at hr
      obtain ⟨-, hq, hz⟩ := (Window.runQueue_grows _ _).2 w hrun
      have hne : w.ipcQueue ≠ [] := fun he => hbad fun a ha => by
        rw [← show w.ipcQueue = s.page.ipcQueue from hq, he] at ha
        cases ha
      have hpos : 0 < w.timeouts := hr.polled hne
      rw [hz] at hpos
      exact Nat.lt_irrefl 0 hpos

theorem Ahead.step (h : s.Ahead) (hok : s.Undisturbed stringify e)
    (hst : s.step stringify e = some s') : s'.Ahead := by
  cases e with
  | invoke cmd args =>
      cases hst
      exact h.invoke hok
  | assign r value =>
      cases hst
      exact h.assign r value
  | newChannel =>
      cases hst
      exact h.newChannel
  | ipcAppears =>
      cases hst
      exact h.ipcAppears
  | poll =>
      obtain ⟨page, hpage, rfl⟩ := Option.map_eq_some_iff.1 hst
      exact h.poll hok hpage

theorem ahead_of_reachVia {objects : Ref → ω}
    (h : (system (ι := ι) stringify objects).ReachVia (Undisturbed stringify) s) : s.Ahead :=
  System.ReachVia.invariant (Ahead.init objects) (fun _ _ _ _ ha hok hst => ha.step hok hst) h

/-- **The queued path refines the direct one** in every run whose calls and polls meet the
condition: what is posted is what the direct page has posted, in its order, up to what is
queued; the same promises are rejected; and a queue that is not empty will be run. Every
call and every poll against the condition breaks this. -/
theorem queued_refines_direct (stringify : ω → Option ι) (objects : Ref → ω) :
    (∀ s, (system stringify objects).ReachVia (Undisturbed stringify) s → s.Refines) ∧
    ∀ s s' e, (system stringify objects).ReachVia (Undisturbed stringify) s →
      ¬ s.Undisturbed stringify e → s.step stringify e = some s' → ¬ s'.Refines := by
  refine ⟨fun s hs => (ahead_of_reachVia hs).refines, fun s s' e hs hok hst => ?_⟩
  have h := ahead_of_reachVia hs
  cases e with
  | invoke cmd args =>
      cases hst
      exact h.invoke_disturbed hok
  | poll =>
      obtain ⟨page, hpage, rfl⟩ := Option.map_eq_some_iff.1 hst
      exact h.poll_disturbed hok hpage
  | assign | newChannel | ipcAppears => exact absurd trivial hok

instance (s : Pages Nat Nat) (stringify : Nat → Option Nat) (e : Event Nat) :
    Decidable (s.Undisturbed stringify e) := by
  cases e <;> unfold Undisturbed <;> infer_instance

/-- The contents of an object are a number, and that of 0 cannot be serialized. -/
def stringifyPositive (n : Nat) : Option Nat := if n = 0 then none else some n

/-- Every object holds 5 at first. -/
def fiveSystem : System (Pages Nat Nat) (Event Nat) := system stringifyPositive fun _ => 5

/-- Two calls are queued, the queue is run, and a third call is posted at once. -/
theorem queued_refines_direct_flush : ∃ s, fiveSystem.Reachable s ∧
    s.page.posted.map Message.callback = [0, 2, 4] ∧ s.Refines := by
  have hrun : (fiveSystem.runVia (Undisturbed stringifyPositive) fiveSystem.init
      [.invoke "a" 0, .poll, .invoke "b" 0, .ipcAppears, .poll, .assign 0 6, .invoke "c" 0]).map
      (fun s => decide (s.page.posted.map Message.callback = [0, 2, 4])) = some true := by decide
  obtain ⟨s, hs, hp⟩ := System.exists_reachVia _ _ hrun
  exact ⟨s, hs.reachable, of_decide_eq_true hp,
    (queued_refines_direct stringifyPositive fun _ => 5).1 s hs⟩

/-- What the page and the direct page have posted, by call and argument. -/
def transcripts (s : Pages Nat Nat) : List (Nat × Nat) × List (Nat × Nat) :=
  (s.page.posted.map fun m => (m.callback, m.inner),
    s.direct.posted.map fun m => (m.callback, m.inner))

/-- The page writes to the arguments of a queued call; a call comes between the appearance
of `window.ipc` and the poll; and the arguments of a queued call cannot be serialized, so
that the call after it is lost, no promise is rejected, and nothing polls again. -/
theorem queued_differs :
    (fiveSystem.run fiveSystem.init [.invoke "a" 0, .assign 0 6, .ipcAppears, .poll]).map
      transcripts = some ([(0, 6)], [(0, 5)]) ∧
    (fiveSystem.run fiveSystem.init [.invoke "a" 0, .ipcAppears, .invoke "b" 0, .poll]).map
      transcripts = some ([(2, 5), (0, 5)], [(0, 5), (2, 5)]) ∧
    (fiveSystem.run fiveSystem.init [.assign 1 0, .invoke "a" 1, .invoke "b" 0, .ipcAppears,
      .poll]).map (fun s => (transcripts s, s.page.rejected, s.direct.rejected, s.page.timeouts))
      = some (([], [(2, 5)]), [], [0], 0) := by
  decide

end Pages

end Wxp.Page
