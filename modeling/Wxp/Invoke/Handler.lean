import Wxp.Invoke.Request

/-!
# Invoke — Handler

`WxpCommandHandler::handle_ipc` (`src/wxp_command/handler.rs`, `unified.rs`), the task it
runs in (`setup.rs`, and `Task::poll` of the run loop), and the page that gets the answer.

* A command is what it does at this call: it returns a result or an error, each with what
  `serde_json::to_value` makes of it, or it panics.
* `handle_ipc` looks at the slot of the handler before the command and again after it,
  when the command may have taken any time (`Moment`).
* The response script calls what `window.invoke` put under the id, if the document of the
  page still has it there.
-/

namespace Wxp.Invoke

open Page (Document)

abbrev WebViewId := Nat

/-- What `serde_json::to_value` makes of something, or the text of its error. -/
abbrev Serialized := Except String Value

inductive Outcome
  | ok (value : Serialized)
  | err (error : Serialized)
  | panic

abbrev Commands := String → Option (Value → Outcome)

/-- `UnifiedCommand::execute`; none is a panic. -/
def execute : Outcome → Option (Except Value Value)
  | .ok (.ok v) => some (.ok v)
  | .ok (.error e) => some (.error (.string ("Failed to serialize result: " ++ e)))
  | .err (.ok v) => some (.error v)
  | .err (.error e) => some (.error (.string ("Failed to serialize error: " ++ e)))
  | .panic => none

structure InvokeResponse where
  value : Option Value
  error : Option Value

/-- `InvokeResponse::success` and `InvokeResponse::error`. -/
def InvokeResponse.ofResult : Except Value Value → InvokeResponse
  | .ok v => { value := some v, error := none }
  | .error e => { value := none, error := some e }

/-- What the handler sees when it looks at its slot. -/
structure Moment where
  /-- `WxpCommandHandler::webview`. -/
  slot : Option WebViewId
  alive : WebViewId → Bool

/-- `WxpCommandHandler::invoke`. -/
def invoke (commands : Commands) (m : Moment) (request : InvokeRequest) :
    Option InvokeResponse :=
  let gone := Json.string "WebView no longer exists"
  match m.slot with
  | none => some (.ofResult (.error gone))
  | some webview =>
      if !m.alive webview then some (.ofResult (.error gone))
      else
        match commands request.cmd with
        | some command => (execute (command request.inner.args)).map .ofResult
        | none => some (.ofResult (.error (.string ("Command not found: " ++ request.cmd))))

/-- The script `invoke[id](value)` or `invoke[id](new Error(error))`. -/
structure Response where
  webview : WebViewId
  id : Nat
  argument : Except Value Value

/-- `handle_ipc`: the scripts it posts; none is a panic. -/
def handleIpc (commands : Commands) (before after : Moment) (body : Json JsString) :
    Option (List Response) :=
  match fromStr body with
  | none => some []
  | some request =>
      (invoke commands before request).map fun response =>
        match after.slot with
        | none => []
        | some webview =>
            -- `post_eval_script` refuses a WebView that is gone
            if !after.alive webview then []
            else
              match response.value, response.error with
              | some v, none => [{ webview, id := request.callback, argument := .ok v }]
              | none, some e => [{ webview, id := request.error, argument := .error e }]
              | _, _ => []

/-- `Task::poll` catches a panic; nobody has the `JoinHandle` that it goes to. -/
def runTask (posted : Option (List Response)) : List Response := posted.getD []

/-! ## One call of `window.invoke` -/

/-- A call of `window.invoke`, whose WebView stays alive and whose page is not reloaded. -/
structure Exchange where
  sender : WebViewId
  document : Document
  cmd : JsString
  args : Args
  commands : Commands
  before : Moment
  after : Moment
  /-- The document when the response script runs. -/
  later : Document
  /-- `evaluate_script` gives no error. -/
  evaluates : Bool
  stays : after.alive sender = true
  same : document.invokeCommand.Later later

namespace Exchange

def callback (x : Exchange) : Nat := x.document.callbackIdCounter
def error (x : Exchange) : Nat := x.document.callbackIdCounter + 1

def responses (x : Exchange) : List Response :=
  runTask (handleIpc x.commands x.before x.after (message x.document x.cmd x.args))

/-- The ids of the page that the script settles. -/
def settles (x : Exchange) (r : Response) : List Nat :=
  if r.webview = x.sender ∧ x.evaluates ∧ x.later.invoke r.id then [r.id] else []

/-- There is one response script, and it settles one of the two ids. -/
def Answered (x : Exchange) : Prop :=
  ∃ r, x.responses = [r] ∧ (x.settles r = [x.callback] ∨ x.settles r = [x.error])

/-- The command is run and panics. -/
def Panics (x : Exchange) : Prop :=
  ∃ w c v command, x.before.slot = some w ∧ x.before.alive w = true ∧ x.cmd.read = some c ∧
    x.args.orDefault.read JsString.read 126 = some v ∧ x.commands c = some command ∧
    command v = .panic

/-- The arguments are an object that `serde_json` reads, the ids are `u32`s, the command
does not panic, and the handler belongs to the WebView of the page. -/
structure Answerable (x : Exchange) : Prop where
  object : isObject x.args.orDefault = true
  depth : x.args.orDefault.depth ≤ 126
  texts : ∀ s ∈ x.cmd :: x.args.orDefault.texts, ∀ n, CodePoint.surrogate n ∉ s
  ids : x.error < 2 ^ 32
  returns : ¬ x.Panics
  slot : x.after.slot = some x.sender
  evaluates : x.evaluates = true

end Exchange

/-! ## What each part does -/

theorem JsString.read_isSome {s : JsString} :
    (JsString.read s).isSome ↔ ∀ n, CodePoint.surrogate n ∉ s := by
  simp only [JsString.read, Option.isSome_map, Json.mapM_isSome]
  constructor
  · intro h n hn
    cases h _ hn
  · intro h c hc
    cases c with
    | scalar a => rfl
    | surrogate n => exact absurd hc (h n)

theorem execute_eq_none {o : Outcome} : execute o = none ↔ o = .panic := by
  rcases o with (v | e) | (v | e) | _ <;> simp [execute]

theorem invoke_eq_none {commands : Commands} {m : Moment} {q : InvokeRequest} :
    invoke commands m q = none ↔ ∃ w command, m.slot = some w ∧ m.alive w = true ∧
      commands q.cmd = some command ∧ command q.inner.args = .panic := by
  unfold invoke
  cases hs : m.slot with
  | none => simp
  | some w =>
      cases ha : m.alive w with
      | false => simp [ha]
      | true =>
          cases hc : commands q.cmd with
          | none => simp [ha]
          | some command => simp [ha, execute_eq_none]

theorem invoke_ofResult {commands : Commands} {m : Moment} {q : InvokeRequest}
    {response : InvokeResponse} (h : invoke commands m q = some response) :
    ∃ r, response = .ofResult r := by
  simp only [invoke] at h
  split at h
  · exact ⟨_, (Option.some.inj h).symm⟩
  · split at h
    · exact ⟨_, (Option.some.inj h).symm⟩
    · split at h
      · obtain ⟨r, -, rfl⟩ := Option.map_eq_some_iff.1 h
        exact ⟨r, rfl⟩
      · exact ⟨_, (Option.some.inj h).symm⟩

/-- The id that a result is sent to. -/
def InvokeRequest.idOf (q : InvokeRequest) : Except Value Value → Nat
  | .ok _ => q.callback
  | .error _ => q.error

/-- For a request that is read and whose command does not panic there is one script, if the
slot holds a WebView that is alive. -/
theorem handleIpc_of_response {commands : Commands} {before : Moment} (after : Moment)
    {body : Json JsString} {q : InvokeRequest} (hq : fromStr body = some q)
    (h : invoke commands before q ≠ none) :
    ∃ r, handleIpc commands before after body = some (match after.slot with
      | none => []
      | some w => if after.alive w then [⟨w, q.idOf r, r⟩] else []) := by
  obtain ⟨response, hr⟩ := Option.ne_none_iff_exists'.1 h
  obtain ⟨r, rfl⟩ := invoke_ofResult hr
  refine ⟨r, ?_⟩
  simp only [handleIpc, hq, hr, Option.map_some]
  cases after.slot with
  | none => rfl
  | some w =>
      cases ha : after.alive w with
      | false => simp [ha]
      | true => cases r <;> simp [ha, InvokeResponse.ofResult, InvokeRequest.idOf]

namespace Exchange

variable {x : Exchange}

/-- The request of the message, if it is read. -/
def request (x : Exchange) (c : String) (v : Value) : InvokeRequest :=
  { cmd := c, callback := x.callback, error := x.error, inner := { args := v } }

theorem fromStr_eq_some (hobj : isObject x.args.orDefault = true) (hids : x.error < 2 ^ 32)
    {c : String} {v : Value} (hc : x.cmd.read = some c)
    (hv : x.args.orDefault.read JsString.read 126 = some v) :
    fromStr (message x.document x.cmd x.args) = some (x.request c v) := by
  have hids : x.document.callbackIdCounter + 1 < 2 ^ 32 := hids
  rw [fromStr_message, hc, hv, Option.bind_some, Option.bind_some, if_pos ⟨hids, hobj⟩]
  rfl

theorem of_fromStr {q : InvokeRequest}
    (h : fromStr (message x.document x.cmd x.args) = some q) :
    isObject x.args.orDefault = true ∧ x.error < 2 ^ 32 ∧ ∃ c v, x.cmd.read = some c ∧
      x.args.orDefault.read JsString.read 126 = some v ∧ q = x.request c v := by
  rw [fromStr_message] at h
  obtain ⟨c, hc, h⟩ := Option.bind_eq_some_iff.1 h
  obtain ⟨v, hv, h⟩ := Option.bind_eq_some_iff.1 h
  rw [Option.ite_none_right_eq_some] at h
  obtain ⟨⟨hids, hobj⟩, h⟩ := h
  exact ⟨hobj, hids, c, v, hc, hv, (Option.some.inj h).symm⟩

theorem readable_iff : (x.cmd.read).isSome ∧ (x.args.orDefault.read JsString.read 126).isSome ↔
    x.args.orDefault.depth ≤ 126 ∧
      ∀ s ∈ x.cmd :: x.args.orDefault.texts, ∀ n, CodePoint.surrogate n ∉ s := by
  rw [Json.read_isSome, JsString.read_isSome]
  simp only [JsString.read_isSome, List.forall_mem_cons]
  tauto

theorem panics_iff {c : String} {v : Value} (hc : x.cmd.read = some c)
    (hv : x.args.orDefault.read JsString.read 126 = some v) :
    x.Panics ↔ invoke x.commands x.before (x.request c v) = none := by
  simp [Panics, invoke_eq_none, hc, hv, request]

theorem invoke_idOf (x : Exchange) (c : String) (v : Value) (r : Except Value Value) :
    (x.request c v).idOf r = x.callback ∨ (x.request c v).idOf r = x.error := by
  cases r with
  | ok _ => exact .inl rfl
  | error _ => exact .inr rfl

/-- The page still has what `window.invoke` put under the two ids. -/
theorem later_invoke {id : Nat} (h : id = x.callback ∨ id = x.error) :
    x.later.invoke id = true := by
  refine x.same.invoke ?_
  rcases h with rfl | rfl <;> simp [Document.invokeCommand, callback, error]

/-- **An invoke is answered exactly if its message is read, its command does not panic, and
the handler belongs to its WebView when it has the result.** -/
theorem invoke_answered_iff (x : Exchange) : x.Answered ↔ x.Answerable := by
  constructor
  · rintro ⟨r, hr, hset⟩
    have hset : x.settles r ≠ [] := by rcases hset with h | h <;> simp [h]
    simp only [settles, ne_eq, ite_eq_right_iff, not_forall, reduceCtorEq] at hset
    obtain ⟨⟨hsender, heval, -⟩, -⟩ := hset
    unfold responses runTask at hr
    cases hq : fromStr (message x.document x.cmd x.args) with
    | none => simp [handleIpc, hq] at hr
    | some q =>
        obtain ⟨hobj, hids, c, v, hc, hv, rfl⟩ := of_fromStr hq
        have hread := readable_iff.1
          ⟨Option.isSome_iff_exists.2 ⟨c, hc⟩, Option.isSome_iff_exists.2 ⟨v, hv⟩⟩
        have hinv : invoke x.commands x.before (x.request c v) ≠ none := by
          intro hnone
          simp [handleIpc, hq, hnone] at hr
        refine ⟨hobj, hread.1, hread.2, hids, fun hp => hinv ((panics_iff hc hv).1 hp), ?_, heval⟩
        obtain ⟨r', hr'⟩ := handleIpc_of_response x.after hq hinv
        rw [hr', Option.getD_some] at hr
        cases hslot : x.after.slot with
        | none => simp [hslot] at hr
        | some w =>
            simp only [hslot] at hr
            split at hr
            · obtain rfl : _ = r := List.singleton_inj.1 hr
              exact congrArg some hsender
            · cases hr
  · rintro ⟨hobj, hdepth, htexts, hids, hpanic, hslot, heval⟩
    obtain ⟨hc, hv⟩ := readable_iff.2 ⟨hdepth, htexts⟩
    obtain ⟨c, hc⟩ := Option.isSome_iff_exists.1 hc
    obtain ⟨v, hv⟩ := Option.isSome_iff_exists.1 hv
    have hq := fromStr_eq_some hobj hids hc hv
    have hinv : invoke x.commands x.before (x.request c v) ≠ none :=
      fun h => hpanic ((panics_iff hc hv).2 h)
    obtain ⟨r, hr⟩ := handleIpc_of_response x.after hq hinv
    have hid := x.invoke_idOf c v r
    refine ⟨⟨x.sender, (x.request c v).idOf r, r⟩, ?_, ?_⟩
    · simp [responses, runTask, hr, hslot, x.stays]
    · have hlater := later_invoke hid
      simpa [settles, heval, hlater] using hid

end Exchange

/-- A page calls `echo` with these arguments, and the command does this. -/
def echo (args : Args) (o : Outcome) : Exchange where
  sender := 0
  document := {}
  cmd := .ofString "echo"
  args := args
  commands _ := some fun _ => o
  before := { slot := some 0, alive := fun _ => true }
  after := { slot := some 0, alive := fun _ => true }
  later := ({} : Document).invokeCommand
  evaluates := true
  stays := rfl
  same := .same

example : (echo .undefined (.ok (.ok (.bool true)))).responses = [⟨0, 0, .ok (.bool true)⟩] := rfl

/-- With `null`, an array or a number as arguments nothing is posted, nor when the command
panics. -/
theorem echo_unanswered :
    ¬ (echo (.value .null) (.ok (.ok .null))).Answered ∧
    ¬ (echo (.value (.array [])) (.ok (.ok .null))).Answered ∧
    ¬ (echo (.value (.number (.int 1))) (.ok (.ok .null))).Answered ∧
    ¬ (echo .undefined .panic).Answered := by
  refine ⟨?_, ?_, ?_, ?_⟩ <;>
  · rintro ⟨r, hr, -⟩
    cases hr

end Wxp.Invoke
