import Wxp.Channel.State
import Wxp.Foundations.Literal

/-!
# Channel — Payload

The two ways a JSON value takes into the page (`src/wxp_channel/channel.rs`,
`src/wxp_command/handler.rs`, `fetchChannelData` in `src/initialization.rs`). A small
message and every command response are spliced into the source of a script; a large
message is fetched and read with `response.json()`.

Result: `Channel.send_eq_iff`. The length of a message decides what it means where an
object has a member `__proto__`.
-/

namespace Wxp.Channel

/-- `WxpChannelMessage`, serialized. -/
def wxpChannelMessage (message : Json String) (index : Nat) : Json String :=
  .object [("message", message), ("index", .number (.int index))]

/-- The argument of `runCallback` in the script of `execute_callback`. -/
def executeCallback (json : Json String) : Option JsValue := json.spliced

/-- `{ message: response, index }` in the script of `send_large_data`, where `response` is
the result of `fetchChannelData`. -/
def sendLargeData (data : Json String) (index : Nat) : JsValue :=
  .object none (createAll [("message", data.jsonParse), ("index", .number (.int index))])

/-- `Channel::send`: what `runCallback` is called with, if it is called. `length` is the
length of the text of the `WxpChannelMessage`. -/
def send (length : Nat) (data : Json String) (index : Nat) : Option JsValue :=
  if length < maxJsonDirectExecuteThreshold then
    executeCallback (wxpChannelMessage data index)
  else some (sendLargeData data index)

/-- The argument of `__WXP_INTERNALS__.invoke[callback]` in the script of `handle_ipc`. -/
def handleIpc (value : Json String) : Option JsValue := value.spliced

theorem duplicateProto_wxpChannelMessage (data : Json String) (index : Nat) :
    (wxpChannelMessage data index).duplicateProto = data.duplicateProto := by
  simp [wxpChannelMessage, Json.duplicateProto, Json.duplicateProtoFields, protoName]

theorem protoFree_wxpChannelMessage (data : Json String) (index : Nat) :
    (wxpChannelMessage data index).protoFree = data.protoFree := by
  simp [wxpChannelMessage, Json.protoFree, Json.protoFreeFields, protoName]

/-- The fetched message arrives as `JSON.parse` would read the whole envelope. -/
theorem sendLargeData_eq (data : Json String) (index : Nat) :
    sendLargeData data index = (wxpChannelMessage data index).jsonParse := by
  simp only [Json.jsonParse, wxpChannelMessage, Json.evaluate, foldl_defineProperty_parse]
  rfl

/-- **Inline and fetched payloads mean the same** exactly if no object of the value has two
members `__proto__` and none that counts has one: the message does not depend on its
length, and a response is what `JSON.parse` makes of its text. -/
theorem send_eq_iff (data : Json String) (index : Nat) :
    ((∀ length length', send length data index = send length' data index) ↔
      data.duplicateProto = false ∧ data.protoFree = true) ∧
    (handleIpc data = some data.jsonParse ↔
      data.duplicateProto = false ∧ data.protoFree = true) := by
  refine ⟨?_, Json.spliced_eq_jsonParse_iff data⟩
  have hsplice := Json.spliced_eq_jsonParse_iff (wxpChannelMessage data index)
  rw [duplicateProto_wxpChannelMessage, protoFree_wxpChannelMessage, ← sendLargeData_eq]
    at hsplice
  rw [← hsplice]
  constructor
  · intro h
    exact h 0 maxJsonDirectExecuteThreshold
  · intro h length length'
    have hsend : ∀ n, send n data index = some (sendLargeData data index) := fun n => by
      unfold send
      split
      · exact h
      · rfl
    rw [hsend, hsend]

/-- The payload `{"__proto__": {"a": null}}`. -/
def protoPayload : Json String := .object [("__proto__", .object [("a", .null)])]

/-- Sent inline it has no property and another prototype, fetched it has a property of that
name; a literal with two of them is no script. -/
theorem send_proto :
    send 40 protoPayload 0 ≠ send 8192 protoPayload 0 ∧
    handleIpc protoPayload ≠ some protoPayload.jsonParse ∧
    handleIpc (.object [("__proto__", .null), ("__proto__", .null)]) = none := by
  have hinline : handleIpc protoPayload =
      some (.object (some (.object none [("a", .null)])) []) := rfl
  have hparse : protoPayload.jsonParse =
      .object none [("__proto__", .object none [("a", .null)])] := rfl
  have hspliced : handleIpc protoPayload ≠ some protoPayload.jsonParse := by
    rw [hinline, hparse]
    simp
  refine ⟨fun h => ?_, hspliced, rfl⟩
  have hsmall : send 40 protoPayload 0 =
      (wxpChannelMessage protoPayload 0).spliced := rfl
  have hlarge : send 8192 protoPayload 0 = some (sendLargeData protoPayload 0) := rfl
  have hiff := Json.spliced_eq_jsonParse_iff (wxpChannelMessage protoPayload 0)
  rw [hsmall, hlarge, sendLargeData_eq, hiff, duplicateProto_wxpChannelMessage,
    protoFree_wxpChannelMessage, ← Json.spliced_eq_jsonParse_iff] at h
  exact hspliced h

end Wxp.Channel
