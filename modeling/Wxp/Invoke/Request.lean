import Wxp.Foundations.Json
import Wxp.Page.Document
import Mathlib.Algebra.Group.Int.Defs
import Mathlib.Algebra.Group.Nat.Defs

/-!
# Invoke — Request

The message of `window.invoke` (`INVOKE_INIT_SCRIPT` of `src/initialization.rs`) and what
Rust makes of it: `serde_json::from_str::<InvokeRequest>` (`src/wxp_command/invoke.rs`).

* A JavaScript string may hold a surrogate without its partner; `JSON.stringify` writes it
  as an escape, which `serde_json` does not read. `serde_json` reads 127 levels of nesting.
* `JSON.stringify` omits nothing of the message: `args` is a value, or `undefined`, for
  which the parameter has a default. What has no JSON text is not modelled.
* `InvokeBody` has a flattened field, so its derived `Deserialize` asks for a map and
  collects all entries of it into `args`.
-/

namespace Wxp.Invoke

open Page (Document)

/-- A code point of a JavaScript string: a surrogate here has no partner. -/
inductive CodePoint
  | scalar (c : Char)
  | surrogate (n : Fin 2048)
  deriving DecidableEq, Repr

abbrev JsString := List CodePoint

def CodePoint.toChar : CodePoint → Option Char
  | .scalar c => some c
  | .surrogate _ => none

namespace JsString

def ofString (s : String) : JsString := s.toList.map .scalar

/-- The Rust string with this text. -/
def read (s : JsString) : Option String := (s.mapM CodePoint.toChar).map String.ofList

theorem read_ofString (s : String) : read (ofString s) = some s := by
  have hchars : ∀ cs : List Char, (cs.map CodePoint.scalar).mapM CodePoint.toChar = some cs := by
    intro cs
    induction cs with
    | nil => rfl
    | cons c cs ih => simp [ih, CodePoint.toChar]
  simp [read, ofString, hchars]

end JsString

/-- `serde_json::Value`. -/
abbrev Value := Json String

/-! ## The page -/

/-- The argument `args` of `window.invoke`, as `JSON.stringify` takes it. -/
inductive Args
  | undefined
  | value (j : Json JsString)

/-- The parameter `args = {}`. -/
def Args.orDefault : Args → Json JsString
  | .undefined => .object []
  | .value j => j

/-- The message of `window.invoke(cmd, args)` in document `d`. -/
def message (d : Document) (cmd : JsString) (args : Args) : Json JsString :=
  let callback := d.callbackIdCounter
  let error := callback + 1
  .object [
    (.ofString "cmd", .string cmd),
    (.ofString "callback", .number (.int callback)),
    (.ofString "error", .number (.int error)),
    (.ofString "inner", args.orDefault)]

/-! ## `serde_json::from_str::<InvokeRequest>` -/

/-- `InvokeBody`; its default has `Value::Null`. -/
structure InvokeBody where
  args : Value := .null

structure InvokeRequest where
  cmd : String
  /-- A `u32`, as is `error`. -/
  callback : Nat
  error : Nat
  inner : InvokeBody := {}

def InvokeBody.deserialize : Value → Option InvokeBody
  | .object fields => some { args := .object fields }
  | _ => none

def readString : Value → Option String
  | .string s => some s
  | _ => none

def readU32 : Value → Option Nat
  | .number (.int n) => if 0 ≤ n ∧ n < 2 ^ 32 then some n.toNat else none
  | _ => none

/-- The values of the fields of this name. -/
def valuesOf (fields : List (String × Value)) (name : String) : List Value :=
  (fields.filter fun f => f.1 == name).map (·.2)

/-- A field that is there once. -/
def required (fields : List (String × Value)) (name : String) (read : Value → Option α) :
    Option α :=
  match valuesOf fields name with
  | [v] => read v
  | _ => none

/-- A field with `#[serde(default)]`. -/
def optional (fields : List (String × Value)) (name : String) (default : α)
    (read : Value → Option α) : Option α :=
  match valuesOf fields name with
  | [] => some default
  | [v] => read v
  | _ => none

/-- The derived `Deserialize`, which takes a map, or a sequence with the fields in order. -/
def InvokeRequest.deserialize : Value → Option InvokeRequest
  | .object fields => do
      let cmd ← required fields "cmd" readString
      let callback ← required fields "callback" readU32
      let error ← required fields "error" readU32
      let inner ← optional fields "inner" {} InvokeBody.deserialize
      some { cmd, callback, error, inner }
  | .array [cmd, callback, error] => do
      some { cmd := ← readString cmd, callback := ← readU32 callback, error := ← readU32 error }
  | .array [cmd, callback, error, inner] => do
      let cmd ← readString cmd
      let callback ← readU32 callback
      let error ← readU32 error
      let inner ← InvokeBody.deserialize inner
      some { cmd, callback, error, inner }
  | _ => none

/-- How deep arrays and objects may nest in what `serde_json` reads. -/
def recursionLimit : Nat := 127

def fromStr (body : Json JsString) : Option InvokeRequest :=
  (body.read JsString.read recursionLimit).bind InvokeRequest.deserialize

/-! ## The request of a message -/

def isObject {σ : Type} : Json σ → Bool
  | .object _ => true
  | _ => false

theorem isObject_of_read {j : Json JsString} {n : Nat} {v : Value}
    (h : j.read JsString.read n = some v) : isObject v = isObject j := by
  cases j <;> cases n <;> simp only [Json.read, Option.map_eq_some_iff, Option.some.injEq,
    reduceCtorEq] at h <;> first | (subst h; rfl) | (obtain ⟨_, -, rfl⟩ := h; rfl)

theorem InvokeBody.deserialize_of_object {v : Value} (h : isObject v = true) :
    InvokeBody.deserialize v = some { args := v } := by
  cases v <;> first | rfl | cases h

theorem InvokeBody.deserialize_of_not_object {v : Value} (h : isObject v = false) :
    InvokeBody.deserialize v = none := by
  cases v <;> first | rfl | cases h

theorem readU32_natCast (n : Nat) :
    readU32 (.number (.int n)) = if n < 2 ^ 32 then some n else none := by
  have hcast : 0 ≤ (n : Int) ∧ (n : Int) < 2 ^ 32 ↔ n < 2 ^ 32 := by omega
  simp only [readU32, hcast, Int.toNat_natCast]

/-- The fields that `window.invoke` sends, as `serde_json` reads them. -/
def messageFields (callback error : Nat) (cmd : String) (args : Value) : Value :=
  .object [("cmd", .string cmd), ("callback", .number (.int callback)),
    ("error", .number (.int error)), ("inner", args)]

theorem message_read (d : Document) (cmd : JsString) (args : Args) :
    (message d cmd args).read JsString.read recursionLimit =
      cmd.read.bind fun c => (args.orDefault.read JsString.read 126).map fun v =>
        messageFields d.callbackIdCounter (d.callbackIdCounter + 1) c v := by
  simp only [message, recursionLimit, Json.read, List.mapM_cons, List.mapM_nil,
    JsString.read_ofString]
  cases cmd.read with
  | none => rfl
  | some c =>
      cases args.orDefault.read JsString.read 126 with
      | none => rfl
      | some v => rfl

theorem deserialize_messageFields (callback error : Nat) (c : String) (v : Value) :
    InvokeRequest.deserialize (messageFields callback error c v) =
      if callback < 2 ^ 32 ∧ error < 2 ^ 32 ∧ isObject v = true then
        some { cmd := c, callback := callback, error := error, inner := { args := v } }
      else none := by
  simp only [InvokeRequest.deserialize, messageFields, required, optional, valuesOf,
    List.filter_cons, String.reduceBEq, if_true, if_false, Bool.false_eq_true, List.filter_nil,
    List.map_cons, List.map_nil, readString, readU32_natCast, -Nat.reducePow]
  generalize 2 ^ 32 = bound
  by_cases hc : callback < bound
  · by_cases he : error < bound
    · by_cases hv : isObject v = true
      · simp [hc, he, hv, InvokeBody.deserialize_of_object]
      · have hv : isObject v = false := by simpa using hv
        simp [hc, he, hv, InvokeBody.deserialize_of_not_object]
    · simp [hc, he]
  · simp [hc]

/-- A message is read as its request if it has a reading, ids that are `u32`s and an object
as its arguments; otherwise it is not read at all. -/
theorem fromStr_message (d : Document) (cmd : JsString) (args : Args) :
    fromStr (message d cmd args) =
      cmd.read.bind fun c => (args.orDefault.read JsString.read 126).bind fun v =>
        if d.callbackIdCounter + 1 < 2 ^ 32 ∧ isObject args.orDefault = true then
          some { cmd := c, callback := d.callbackIdCounter, error := d.callbackIdCounter + 1,
                 inner := { args := v } }
        else none := by
  rw [fromStr, message_read]
  cases hc : cmd.read with
  | none => rfl
  | some c =>
      cases hv : args.orDefault.read JsString.read 126 with
      | none => rfl
      | some v =>
          rw [Option.bind_some, Option.map_some, Option.bind_some, Option.bind_some,
            deserialize_messageFields, isObject_of_read hv]
          by_cases he : d.callbackIdCounter + 1 < 2 ^ 32
          · have hc : d.callbackIdCounter < 2 ^ 32 := by omega
            simp only [hc, he, true_and, Option.bind_some]
          · simp only [he, false_and, and_false, if_false, Option.bind_some]

end Wxp.Invoke
