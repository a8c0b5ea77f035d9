import Wxp.Foundations.Decimal
import Wxp.Invoke.Request
import Mathlib.Data.List.Nodup

/-!
# Channel — Token

How a JavaScript channel becomes a Rust `Channel`: `toIPC` writes its id into a token, the
token goes to Rust as an argument of `window.invoke`, and `CommandContext::arg` reads the id
back (`src/wxp_channel/try_from.rs`, `parse_channel_id`) and binds it to the WebView of the
request. The id of a script that Rust posts is the one the page knows the channel by, so a
wrong id would send the messages to another callback.
-/

namespace Wxp.Channel

open Invoke (JsString Args InvokeRequest fromStr message)
open Page (Document)

def IPC_PAYLOAD_PREFIX : String := "__CHANNEL__:"

/-- `toIPC()`, and `toJSON()` of the `Channel` of the webview-bridge package. -/
def toIPC (id : Nat) : String :=
  String.ofList (IPC_PAYLOAD_PREFIX.toList ++ Nat.toDigits 10 id)

/-- `Error::InvalidChannelId` as it is shown. -/
def invalidChannelId (value : String) : String := "Invalid channel ID format: " ++ value

def parseChannelId (value : String) : Except String Nat :=
  match (IPC_PAYLOAD_PREFIX.toList.isPrefixOf? value.toList).bind (readUnsigned (2 ^ 32)) with
  | some id => .ok id
  | none => .error (invalidChannelId value)

/-- `Value::get` of a string. A map keeps the last of the entries of one key. -/
def argsGet (args : Invoke.Value) (key : String) : Option Invoke.Value :=
  match args with
  | .object fields => fields.reverse.lookup key
  | .null | .bool _ | .number _ | .string _ | .array _ => none

/-- `DeserializeContext`, with the WebView that sent the request. -/
structure DeserializeContext (ω : Type) where
  key : String
  args : Invoke.Value
  webview : ω

/-- A `Channel` as it is made: its `inner` is new. -/
structure BoundChannel (ω : Type) where
  id : Nat
  webview : ω
  deriving DecidableEq, Repr

variable {ω : Type}

/-- `TryFromDeserializeContext for Channel`; `refusal` is what `serde_json` says of a value
that is no string. -/
def tryFrom (refusal : Invoke.Value → String) (cmd : DeserializeContext ω) :
    Except Invoke.Value (BoundChannel ω) :=
  match argsGet cmd.args cmd.key with
  | none => .error (.string ("Missing channel argument '" ++ cmd.key ++ "'"))
  | some (.string channelId) =>
      if IPC_PAYLOAD_PREFIX.toList.isPrefixOf channelId.toList then
        match parseChannelId channelId with
        | .ok id => .ok { id, webview := cmd.webview }
        | .error e => .error (.string ("Failed to parse channel ID: " ++ e))
      else
        .error (.string ("Invalid channel value '" ++ channelId ++ "', expected a string in the '" ++
          IPC_PAYLOAD_PREFIX ++ "ID' format"))
  | some value => .error (.string ("Failed to deserialize channel ID: " ++ refusal value))

/-! ## What is taken -/

/-- A token with this id: it may have a plus sign and leading zeros. -/
def Denotes (token : String) (id : Nat) : Prop :=
  ∃ ds, ds ≠ [] ∧ (token.toList = IPC_PAYLOAD_PREFIX.toList ++ ds ∨
    token.toList = IPC_PAYLOAD_PREFIX.toList ++ '+' :: ds) ∧
    (∀ c ∈ ds, c.isDigit = true) ∧ Nat.ofDigitChars 10 ds 0 = id

theorem parseChannelId_ok {token : String} {id : Nat} :
    parseChannelId token = .ok id ↔ Denotes token id ∧ id < 2 ^ 32 := by
  have hread : parseChannelId token = .ok id ↔
      (IPC_PAYLOAD_PREFIX.toList.isPrefixOf? token.toList).bind (readUnsigned (2 ^ 32)) =
        some id := by
    unfold parseChannelId
    split
    · next hr => rw [hr, Except.ok.injEq, Option.some.injEq]
    · next hr => rw [hr]; simp
  rw [hread, Option.bind_eq_some_iff]
  constructor
  · rintro ⟨rest, hrest, hid⟩
    rw [List.isPrefixOf?_eq_some_iff_append_eq] at hrest
    obtain ⟨ds, hne, hs, hdigits, hval, hlt⟩ := (readUnsigned_eq_some (by decide)).1 hid
    refine ⟨⟨ds, hne, ?_, hdigits, hval⟩, hlt⟩
    obtain rfl | rfl := hs
    · exact .inl hrest.symm
    · exact .inr hrest.symm
  · rintro ⟨⟨ds, hne, hs, hdigits, hval⟩, hlt⟩
    obtain hs | hs := hs
    · refine ⟨ds, List.isPrefixOf?_eq_some_iff_append_eq.2 hs.symm, ?_⟩
      exact (readUnsigned_eq_some (by decide)).2 ⟨ds, hne, .inl rfl, hdigits, hval, hlt⟩
    · refine ⟨'+' :: ds, List.isPrefixOf?_eq_some_iff_append_eq.2 hs.symm, ?_⟩
      exact (readUnsigned_eq_some (by decide)).2 ⟨ds, hne, .inr rfl, hdigits, hval, hlt⟩

theorem Denotes.isPrefixOf {token : String} {id : Nat} (h : Denotes token id) :
    IPC_PAYLOAD_PREFIX.toList.isPrefixOf token.toList = true := by
  obtain ⟨ds, -, hs | hs, -⟩ := h
  · rw [hs, List.isPrefixOf_iff_prefix]
    exact List.prefix_append _ _
  · rw [hs, List.isPrefixOf_iff_prefix]
    exact List.prefix_append _ _

/-- An argument becomes a channel if and only if it is a token with the id of the channel. -/
theorem tryFrom_ok (refusal : Invoke.Value → String) (cmd : DeserializeContext ω)
    (c : BoundChannel ω) :
    tryFrom refusal cmd = .ok c ↔ c.webview = cmd.webview ∧ c.id < 2 ^ 32 ∧
      ∃ token, argsGet cmd.args cmd.key = some (.string token) ∧ Denotes token c.id := by
  constructor
  · intro h
    unfold tryFrom at h
    split at h
    · cases h
    · next token harg =>
        split at h
        · split at h
          · next id hid =>
              obtain ⟨hdenotes, hlt⟩ := parseChannelId_ok.1 hid
              cases h
              exact ⟨rfl, hlt, token, harg, hdenotes⟩
          · cases h
        · cases h
    · cases h
  · rintro ⟨hview, hlt, token, harg, hdenotes⟩
    have hid := parseChannelId_ok.2 ⟨hdenotes, hlt⟩
    simp only [tryFrom, harg, hdenotes.isPrefixOf, hid, if_true, ← hview]

/-! ## The channels of a page -/

theorem denotes_toIPC (id : Nat) : Denotes (toIPC id) id := by
  refine ⟨Nat.toDigits 10 id, Nat.toDigits_ne_nil, .inl (by simp [toIPC]), ?_,
    Nat.ofDigitChars_ten_toDigits⟩
  intro c hc
  exact Nat.isDigit_of_mem_toDigits (by decide) (by decide) hc

theorem read_eq_some {s : JsString} {t : String} : s.read = some t ↔ s = .ofString t := by
  constructor
  · intro h
    have hchars : ∀ (s : JsString) (cs : List Char),
        s.mapM Invoke.CodePoint.toChar = some cs → s = cs.map .scalar := by
      intro s
      induction s with
      | nil =>
          intro cs h
          cases h
          rfl
      | cons c s ih =>
          intro cs h
          simp only [List.mapM_cons, Option.bind_eq_bind, Option.bind_eq_some_iff,
            Option.pure_def, Option.some.injEq] at h
          obtain ⟨d, hd, ds, hds, rfl⟩ := h
          cases c with
          | scalar c =>
              cases hd
              rw [ih ds hds, List.map_cons]
          | surrogate n => cases hd
    simp only [JsString.read, Option.map_eq_some_iff] at h
    obtain ⟨cs, hcs, rfl⟩ := h
    rw [hchars s cs hcs, JsString.ofString, String.toList_ofList]
  · rintro rfl
    exact JsString.read_ofString t

/-- The fields of an object that is read, one by one. -/
theorem read_fields {fields : List (JsString × Json JsString)} {n : Nat} {v : Invoke.Value}
    (h : (Json.object fields).read JsString.read (n + 1) = some v) :
    ∃ read : List (String × Invoke.Value), v = .object read ∧
      fields.map Prod.fst = read.map (fun f => .ofString f.1) ∧
      ∀ k t, (k, .string (.ofString t)) ∈ fields → ∃ k', k = .ofString k' ∧
        (k', .string t) ∈ read := by
  simp only [Json.read, Option.map_eq_some_iff] at h
  obtain ⟨read, hread, rfl⟩ := h
  refine ⟨read, rfl, ?_⟩
  induction fields generalizing read with
  | nil =>
      cases hread
      exact ⟨rfl, fun _ _ hmem => absurd hmem (List.not_mem_nil)⟩
  | cons f fields ih =>
      simp only [List.mapM_cons, Option.bind_eq_bind, Option.bind_eq_some_iff, Option.pure_def,
        Option.some.injEq] at hread
      obtain ⟨g, ⟨k, hk, v, hv, rfl⟩, read, hread, rfl⟩ := hread
      obtain ⟨hkeys, hmem⟩ := ih read hread
      have hk := read_eq_some.1 hk
      refine ⟨by rw [List.map_cons, List.map_cons, hkeys, hk], ?_⟩
      intro k' t ht
      obtain heq | ht := List.mem_cons.1 ht
      · subst heq
        refine ⟨k, hk, ?_⟩
        simp only [Json.read, JsString.read_ofString, Option.map_some, Option.some.injEq] at hv
        rw [hv]
        exact List.mem_cons_self
      · obtain ⟨k'', hk'', hmem⟩ := hmem k' t ht
        exact ⟨k'', hk'', List.mem_cons_of_mem _ hmem⟩

theorem argsGet_of_mem {fields : List (String × Invoke.Value)} (hn : (fields.map Prod.fst).Nodup)
    {key : String} {v : Invoke.Value} (h : (key, v) ∈ fields) :
    argsGet (.object fields) key = some v := by
  obtain ⟨l, r, rfl⟩ := List.append_of_mem h
  rw [argsGet, List.lookup_eq_some_iff]
  refine ⟨r.reverse, l.reverse, by simp, ?_⟩
  intro p hp
  simp only [List.map_append, List.map_cons, List.nodup_append, List.nodup_cons,
    List.mem_map, not_exists, not_and] at hn
  rw [bne_iff_ne]
  intro heq
  exact hn.2.1.1 p (List.mem_reverse.1 hp) heq.symm

/-- A channel of the page that an `invoke` passes on arrives under its own id, whenever the
request is read at all. -/
theorem channel_arrives (refusal : Invoke.Value → String) (d : Document) (cmd : JsString)
    {fields : List (JsString × Json JsString)} (hn : (fields.map Prod.fst).Nodup) {key : String}
    {id : Nat} (hid : id < d.callbackIdCounter)
    (hmem : (.ofString key, .string (.ofString (toIPC id))) ∈ fields) {q : InvokeRequest}
    (hq : fromStr (message d cmd (.value (.object fields))) = some q) (webview : ω) :
    tryFrom refusal { key, args := q.inner.args, webview } = .ok { id, webview } := by
  rw [Invoke.fromStr_message] at hq
  simp only [Option.bind_eq_some_iff, Args.orDefault] at hq
  obtain ⟨c, -, v, hv, hq⟩ := hq
  obtain ⟨hids, hq⟩ := Option.ite_none_right_eq_some.1 hq
  cases hq
  obtain ⟨read, rfl, hkeys, hread⟩ := read_fields hv
  obtain ⟨key', hkey, hmem⟩ := hread _ _ hmem
  have hkey : key = key' := by
    have hread := congrArg JsString.read hkey
    rw [JsString.read_ofString, JsString.read_ofString] at hread
    exact Option.some.inj hread
  subst hkey
  have hnodup : (read.map Prod.fst).Nodup := by
    rw [hkeys] at hn
    have hmap : read.map (fun f => JsString.ofString f.1) =
        (read.map Prod.fst).map JsString.ofString := by
      rw [List.map_map]
      rfl
    rw [hmap] at hn
    exact hn.of_map _
  have hlt : id < 2 ^ 32 := by omega
  refine (tryFrom_ok refusal _ _).2 ⟨rfl, hlt, toIPC id, ?_, denotes_toIPC id⟩
  exact argsGet_of_mem hnodup hmem

/-- The first channel of a page. -/
theorem channel_arrives_first : ∃ q : InvokeRequest,
    fromStr (message { callbackIdCounter := 1 } (.ofString "open")
      (.value (.object [(.ofString "channel", .string (.ofString (toIPC 0)))]))) = some q ∧
    tryFrom (fun _ => "") { key := "channel", args := q.inner.args, webview := () } =
      .ok { id := 0, webview := () } := by
  have hq : fromStr (message { callbackIdCounter := 1 } (.ofString "open")
      (.value (.object [(.ofString "channel", .string (.ofString (toIPC 0)))]))) =
      some { cmd := "open", callback := 1, error := 2,
             inner := { args := .object [("channel", .string (toIPC 0))] } } := by
    rw [Invoke.fromStr_message]
    simp [JsString.read_ofString, Args.orDefault, Json.read, Invoke.isObject]
  refine ⟨_, hq, ?_⟩
  exact channel_arrives (fun _ => "") _ _ (by simp) (by decide) List.mem_cons_self hq ()

end Wxp.Channel
