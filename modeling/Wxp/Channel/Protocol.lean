import Wxp.Channel.State
import Wxp.Foundations.Decimal
import Mathlib.Data.List.Infix

/-!
# Channel — Protocol

The hand-off of large payloads: `CHANNEL_DATA_STORE` with the handler of the `wxp-channel`
protocol (`src/wxp_channel/internals.rs`), and `fetchChannelData` of `CHANNEL_INIT_SCRIPT`,
which asks it. The script of `send_large_data` has the id of the payload as decimal text,
and the page sends this text as a header.

Whatever is stored leaves the store in one of three ways: it is served to the one fetch that
asks for it, it is removed after its script was abandoned, or an insertion under the same id
replaces it (`payloads_conserved`).
-/

namespace Wxp.Channel.Protocol

structure Request where
  method : String := "GET"
  path : String
  /-- The value of the first `X-Channel-Data-Id` header. -/
  dataId : Option (List UInt8) := none

structure Response where
  status : Nat
  headers : List (String × String)
  body : ByteArray

/-- `CHANNEL_DATA_STORE`, without two entries of one id. -/
abbrev Store := List (Nat × Body)

def Store.without (store : Store) (id : Nat) : Store := store.filter fun e => e.1 != id

def Store.insert (store : Store) (id : Nat) (body : Body) : Store :=
  store.without id ++ [(id, body)]

/-- `HeaderValue::to_str`. -/
def headerText (value : List UInt8) : Option (List Char) :=
  if value.all fun b => (32 ≤ b && b < 127) || b == 9 then
    some (value.map fun b => Char.ofNat b.toNat)
  else none

def emptyResponse (status : Nat) (headers : List (String × String)) : Response where
  status := status
  headers := headers ++ [("Content-Length", "0")]
  body := ByteArray.empty

def channelDataResponse (data : Body) : Response :=
  let (contentType, body) := match data with
    | .json text => ("application/json", text.toUTF8)
    | .raw bytes => ("application/octet-stream", bytes.toByteArray)
  { status := 200
    headers := [("Content-Type", contentType), ("Content-Length", toString body.size),
      ("Access-Control-Allow-Origin", "*")]
    body }

/-- The id that a request asks for. -/
def Request.asksFor (r : Request) : Option Nat :=
  if r.path = "/fetch" then (r.dataId.bind headerText).bind (readUnsigned (2 ^ 32)) else none

/-- The handler of the protocol, and what it takes from the store. -/
def handle (store : Store) (r : Request) : Response × Option (Nat × Body) :=
  if r.method = "OPTIONS" then
    (emptyResponse 200 [("Access-Control-Allow-Origin", "*"),
      ("Access-Control-Allow-Methods", "GET, POST, OPTIONS"),
      ("Access-Control-Allow-Headers", "*")], none)
  else
    match r.asksFor.bind fun id => (store.lookup id).map (id, ·) with
    | some (id, data) => (channelDataResponse data, some (id, data))
    | none => (emptyResponse 404 [], none)

/-! ## The page -/

/-- The request of `fetchChannelData` for the header of the script. -/
def fetchRequest (id : Nat) : Request where
  path := "/fetch"
  dataId := some ((Nat.toDigits 10 id).map fun c => UInt8.ofNat c.toNat)

/-- What `fetchChannelData` makes of a response: an `ArrayBuffer`, or JSON text to parse;
`none` is an exception. -/
def received (r : Response) : Option Body :=
  if 200 ≤ r.status ∧ r.status < 300 then
    if (r.headers.lookup "Content-Type").any fun contentType =>
        decide ("application/octet-stream".toList <:+: contentType.toList) then
      some (.raw r.body.data.toList)
    else (String.fromUTF8? r.body).map .json
  else none

/-! ## The runs -/

structure State where
  store : Store := []
  stored : List (Nat × Body) := []
  served : List (Nat × Body) := []
  removed : List (Nat × Body) := []
  overwritten : List (Nat × Body) := []

inductive Action
  /-- `store_channel_data_typed` -/
  | store (id : Nat) (body : Body)
  /-- `remove_channel_data` -/
  | remove (id : Nat)
  | request (r : Request)

namespace State

/-- The entries of an id. -/
def entries (s : State) (id : Nat) : List (Nat × Body) := s.store.filter fun e => e.1 == id

def step (s : State) : Action → Option State
  | .store id body => some { s with
      store := s.store.insert id body
      stored := s.stored ++ [(id, body)]
      overwritten := s.overwritten ++ s.entries id }
  | .remove id => some { s with
      store := s.store.without id
      removed := s.removed ++ s.entries id }
  | .request r =>
      match (handle s.store r).2 with
      | some (id, data) => some { s with
          store := s.store.without id
          served := s.served ++ [(id, data)] }
      | none => some s

end State

/-- The store, with any number of threads that store and remove, and any requests. -/
def dataSystem : System State Action where
  init := {}
  step := State.step

/-! ## The store -/

namespace Store

variable {store : Store} {id : Nat} {body : Body}

/-- No two entries have one id. -/
def Distinct (store : Store) : Prop := (store.map Prod.fst).Nodup

theorem Distinct.without (h : store.Distinct) (id : Nat) : (store.without id).Distinct :=
  h.sublist (List.filter_sublist.map _)

theorem not_mem_without (store : Store) (id : Nat) : id ∉ (store.without id).map Prod.fst := by
  simp [Store.without]

theorem Distinct.insert (h : store.Distinct) (id : Nat) (body : Body) :
    (store.insert id body).Distinct := by
  rw [Distinct, Store.insert, List.map_append, List.map_singleton, List.nodup_append]
  refine ⟨h.without id, List.nodup_singleton _, ?_⟩
  intro k hk k' hk'
  rw [List.mem_singleton] at hk'
  subst hk'
  rintro rfl
  exact not_mem_without store _ hk

theorem Distinct.lookup (h : store.Distinct) (hmem : (id, body) ∈ store) :
    store.lookup id = some body := by
  obtain ⟨l, r, rfl⟩ := List.append_of_mem hmem
  rw [List.lookup_eq_some_iff]
  refine ⟨l, r, rfl, ?_⟩
  intro e he
  rw [Distinct, List.map_append, List.map_cons, List.nodup_append] at h
  rw [bne_iff_ne]
  exact (h.2.2 e.1 (List.mem_map_of_mem he) id List.mem_cons_self).symm

theorem lookup_without (store : Store) (id : Nat) : (store.without id).lookup id = none := by
  rw [List.lookup_eq_none_iff]
  intro e he
  have hne : e.1 ≠ id := by simpa using (List.mem_filter.1 he).2
  rw [bne_iff_ne]
  exact hne.symm

theorem Distinct.entries (h : store.Distinct) (hmem : (id, body) ∈ store) :
    (store.filter fun e => e.1 == id) = [(id, body)] := by
  obtain ⟨l, r, rfl⟩ := List.append_of_mem hmem
  rw [Distinct, List.map_append, List.map_cons, List.nodup_append, List.nodup_cons] at h
  have hl : (l.filter fun e => e.1 == id) = [] := by
    rw [List.filter_eq_nil_iff]
    intro e he heq
    exact h.2.2 e.1 (List.mem_map_of_mem he) id List.mem_cons_self (by simpa using heq)
  have hr : (r.filter fun e => e.1 == id) = [] := by
    rw [List.filter_eq_nil_iff]
    intro e he heq
    have heq : e.1 = id := by simpa using heq
    exact h.2.1.1 (List.mem_map.2 ⟨e, he, heq⟩)
  rw [List.filter_append, List.filter_cons, hl, hr]
  simp

theorem perm_without (store : Store) (id : Nat) :
    store.Perm ((store.filter fun e => e.1 == id) ++ store.without id) :=
  (List.filter_append_perm (fun e : Nat × Body => e.1 == id) store).symm

end Store

/-- What is taken from the store was in it. -/
theorem handle_taken {store : Store} {r : Request} {id : Nat} {data : Body}
    (h : (handle store r).2 = some (id, data)) : r.asksFor = some id ∧ (id, data) ∈ store := by
  unfold handle at h
  split at h
  · cases h
  · split at h
    · next hget =>
        cases h
        obtain ⟨id', hid, hdata⟩ := Option.bind_eq_some_iff.1 hget
        obtain ⟨data', hdata, heq⟩ := Option.map_eq_some_iff.1 hdata
        cases heq
        obtain ⟨l, r, rfl, -⟩ := List.lookup_eq_some_iff.1 hdata
        exact ⟨hid, List.mem_append_right _ List.mem_cons_self⟩
    · cases h

/-! ## What is stored leaves once -/

structure Accounted (s : State) : Prop where
  distinct : Store.Distinct s.store
  perm : s.stored.Perm (s.served ++ s.removed ++ s.overwritten ++ s.store)
  /-- An entry is only overwritten by one of its own id. -/
  twice : ∀ e ∈ s.overwritten, 2 ≤ (s.stored.map Prod.fst).count e.1

variable {s s' : State}

theorem Accounted.store (h : Accounted s) (id : Nat) (body : Body) :
    Accounted { s with
      store := Store.insert s.store id body
      stored := s.stored ++ [(id, body)]
      overwritten := s.overwritten ++ s.entries id } where
  distinct := h.distinct.insert id body
  perm := by
    have hperm := h.perm.trans ((Store.perm_without s.store id).append_left _)
    have hperm := hperm.append_right [(id, body)]
    simpa [Store.insert, State.entries] using hperm
  twice := by
    intro e he
    rw [List.map_append, List.count_append]
    obtain he | he := List.mem_append.1 he
    · exact Nat.le_trans (h.twice e he) (Nat.le_add_right _ _)
    · obtain ⟨hstore, hid⟩ := List.mem_filter.1 he
      have hid : e.1 = id := by simpa using hid
      have hstored : e ∈ s.stored := h.perm.mem_iff.2 (List.mem_append_right _ hstore)
      have hpos : 0 < (s.stored.map Prod.fst).count e.1 :=
        List.count_pos_iff.2 (List.mem_map_of_mem hstored)
      have hone : ([(id, body)].map Prod.fst).count e.1 = 1 := by simp [hid]
      omega

theorem Accounted.remove (h : Accounted s) (id : Nat) :
    Accounted { s with
      store := Store.without s.store id
      removed := s.removed ++ s.entries id } where
  distinct := h.distinct.without id
  perm := by
    refine h.perm.trans (((Store.perm_without s.store id).append_left _).trans ?_)
    simp only [State.entries, List.append_assoc]
    refine List.Perm.append_left _ (List.Perm.append_left _ ?_)
    rw [← List.append_assoc, ← List.append_assoc]
    exact List.perm_append_comm.append_right _
  twice := h.twice

theorem Accounted.serve (h : Accounted s) {id : Nat} {data : Body} (hmem : (id, data) ∈ s.store) :
    Accounted { s with
      store := Store.without s.store id
      served := s.served ++ [(id, data)] } where
  distinct := h.distinct.without id
  perm := by
    have hentries := Store.Distinct.entries h.distinct hmem
    refine h.perm.trans (((Store.perm_without s.store id).append_left _).trans ?_)
    rw [hentries]
    simp only [List.append_assoc]
    refine List.Perm.append_left _ ?_
    rw [← List.append_assoc, ← List.append_assoc, ← List.append_assoc, ← List.append_assoc]
    refine List.Perm.append_right _ ?_
    rw [List.append_assoc [(id, data)]]
    exact List.perm_append_comm
  twice := h.twice

theorem accounted_step {a : Action} (h : Accounted s) (hst : s.step a = some s') :
    Accounted s' := by
  cases a with
  | store id body =>
      cases hst
      exact h.store id body
  | remove id =>
      cases hst
      exact h.remove id
  | request r =>
      simp only [State.step] at hst
      split at hst
      · next id data htaken =>
          cases hst
          exact h.serve (handle_taken htaken).2
      · cases hst
        exact h

theorem accounted_of_reachable (h : dataSystem.Reachable s) : Accounted s := by
  refine System.Reachable.invariant (I := Accounted) ?_ ?_ h
  · exact ⟨List.nodup_nil, List.Perm.refl _, fun e he => absurd he List.not_mem_nil⟩
  · intro s a s' _ hi hst
    exact accounted_step hi hst

/-- The payloads that were stored are those that were served, removed and overwritten, and
those that are still there. If no id is used twice, none is overwritten and each is served at
most once. -/
theorem payloads_conserved (h : dataSystem.Reachable s) :
    s.stored.Perm (s.served ++ s.removed ++ s.overwritten ++ s.store) ∧
      ((s.stored.map Prod.fst).Nodup → s.overwritten = [] ∧ (s.served.map Prod.fst).Nodup) := by
  have hacc := accounted_of_reachable h
  refine ⟨hacc.perm, fun hn => ⟨?_, ?_⟩⟩
  · rw [List.eq_nil_iff_forall_not_mem]
    intro e he
    have htwice := hacc.twice e he
    have hone := List.nodup_iff_count_le_one.1 hn e.1
    omega
  · have hperm := hacc.perm.map Prod.fst
    rw [hperm.nodup_iff] at hn
    refine hn.sublist ?_
    simp only [List.map_append, List.append_assoc]
    exact List.sublist_append_left _ _

/-! ## A fetch of the page -/

theorem headerText_digits {cs : List Char} (h : ∀ c ∈ cs, c.isDigit = true) :
    headerText (cs.map fun c => UInt8.ofNat c.toNat) = some cs := by
  have hdigit : ∀ c ∈ cs, 48 ≤ c.toNat ∧ c.toNat ≤ 57 := by
    intro c hc
    have hc := h c hc
    simp only [Char.isDigit, Bool.and_eq_true, decide_eq_true_eq] at hc
    exact ⟨hc.1, hc.2⟩
  have hbyte : ∀ c ∈ cs, (UInt8.ofNat c.toNat).toNat = c.toNat := by
    intro c hc
    have hc := hdigit c hc
    rw [UInt8.toNat_ofNat']
    omega
  unfold headerText
  rw [if_pos]
  · rw [List.map_map, Option.some.injEq]
    refine (List.map_congr_left fun c hc => ?_).trans (List.map_id cs)
    rw [Function.comp_apply, hbyte c hc, Char.ofNat_toNat]
    rfl
  · rw [List.all_eq_true]
    intro b hb
    obtain ⟨c, hc, rfl⟩ := List.mem_map.1 hb
    have hlow := hdigit c hc
    have hval := hbyte c hc
    simp only [Bool.or_eq_true, Bool.and_eq_true, decide_eq_true_eq, UInt8.le_iff_toNat_le,
      UInt8.lt_iff_toNat_lt, hval]
    refine .inl ⟨?_, ?_⟩
    · show 32 ≤ c.toNat
      omega
    · show c.toNat < 127
      omega

theorem asksFor_fetchRequest {id : Nat} (h : id < 2 ^ 32) :
    (fetchRequest id).asksFor = some id := by
  have hdigits : ∀ c ∈ Nat.toDigits 10 id, c.isDigit = true :=
    fun c hc => Nat.isDigit_of_mem_toDigits (by decide) (by decide) hc
  simp only [Request.asksFor, fetchRequest, if_true, Option.bind_some]
  rw [headerText_digits hdigits, Option.bind_some, readUnsigned_toDigits (by decide), if_pos h]

theorem lookup_contentType (data : Body) :
    (channelDataResponse data).headers.lookup "Content-Type" =
      some (match data with
        | .json _ => "application/json"
        | .raw _ => "application/octet-stream") := by
  cases data <;> simp only [channelDataResponse, List.lookup_cons, BEq.rfl]

theorem received_channelDataResponse (data : Body) :
    received (channelDataResponse data) = some data := by
  have hstatus : 200 ≤ (channelDataResponse data).status ∧
      (channelDataResponse data).status < 300 := by
    show 200 ≤ 200 ∧ 200 < 300
    decide
  unfold received
  rw [if_pos hstatus, lookup_contentType, Option.any_some]
  cases data with
  | json text =>
      have hcontent : ¬ "application/octet-stream".toList <:+: "application/json".toList := by
        intro h
        have hlength := h.length_le
        simp at hlength
      have htext : String.fromUTF8? text.toUTF8 = some text := dif_pos text.isValidUTF8
      rw [decide_eq_false hcontent, if_neg Bool.false_ne_true]
      show (String.fromUTF8? text.toUTF8).map Body.json = _
      rw [htext, Option.map_some]
  | raw bytes =>
      rw [decide_eq_true (List.infix_refl _), if_pos rfl]
      show some (Body.raw bytes.toByteArray.data.toList) = _
      rw [List.toList_data_toByteArray]

theorem received_emptyResponse : received (emptyResponse 404 []) = none := by
  simp [received, emptyResponse]

theorem handle_fetch {store : Store} (hd : store.Distinct) {id : Nat} {body : Body}
    (hid : id < 2 ^ 32) (hmem : (id, body) ∈ store) :
    handle store (fetchRequest id) = (channelDataResponse body, some (id, body)) := by
  have hasks := asksFor_fetchRequest hid
  have hmethod : (fetchRequest id).method = "GET" := rfl
  unfold handle
  rw [if_neg (by rw [hmethod]; decide), hasks, Option.bind_some, hd.lookup hmem]
  rfl

theorem handle_fetch_without (store : Store) {id : Nat} (hid : id < 2 ^ 32) :
    handle (store.without id) (fetchRequest id) = (emptyResponse 404 [], none) := by
  have hasks := asksFor_fetchRequest hid
  have hmethod : (fetchRequest id).method = "GET" := rfl
  unfold handle
  rw [if_neg (by rw [hmethod]; decide), hasks, Option.bind_some, Store.lookup_without]
  rfl

/-- The page receives what was stored under the id of its script, once: the fetch takes this
entry and no other out of the store, and a second fetch throws. -/
theorem fetch_received (h : dataSystem.Reachable s) {id : Nat} (hid : id < 2 ^ 32) {body : Body}
    (hmem : (id, body) ∈ s.store) :
    received (handle s.store (fetchRequest id)).1 = some body ∧
      ∃ s', dataSystem.step s (.request (fetchRequest id)) = some s' ∧
        s'.served = s.served ++ [(id, body)] ∧ s'.store = Store.without s.store id ∧
        received (handle s'.store (fetchRequest id)).1 = none := by
  have hhandle := handle_fetch (accounted_of_reachable h).distinct hid hmem
  rw [hhandle]
  refine ⟨received_channelDataResponse body, ?_⟩
  have hstep : dataSystem.step s (.request (fetchRequest id)) = some { s with
      store := Store.without s.store id
      served := s.served ++ [(id, body)] } := by
    simp only [dataSystem, State.step, hhandle]
  refine ⟨_, hstep, rfl, rfl, ?_⟩
  rw [handle_fetch_without s.store hid]
  exact received_emptyResponse

/-- Two payloads are stored. -/
theorem fetch_received_second : ∃ s : State, (2, .raw [7]) ∈ s.store ∧
    received (handle s.store (fetchRequest 2)).1 = some (.raw [7]) ∧
      ∃ s', dataSystem.step s (.request (fetchRequest 2)) = some s' ∧
        s'.served = s.served ++ [(2, .raw [7])] ∧ s'.store = Store.without s.store 2 ∧
        received (handle s'.store (fetchRequest 2)).1 = none := by
  have hrun : ∃ s, dataSystem.Reachable s ∧ _ := System.exists_reachable
    [.store 1 (.json "[]"), .store 2 (.raw [7])]
    (fun s => s.store == [(1, .json "[]"), (2, .raw [7])]) (by decide)
  obtain ⟨s, hs, hp⟩ := hrun
  have hmem : (2, Body.raw [7]) ∈ s.store := by
    rw [eq_of_beq hp]
    exact List.mem_cons_of_mem _ List.mem_cons_self
  exact ⟨s, hmem, fetch_received hs (by decide) hmem⟩

/-- The second payload is stored under the id of the first. -/
theorem payloads_conserved_overwritten : ∃ s : State, s.overwritten = [(1, .raw [7])] ∧
    s.stored.Perm (s.served ++ s.removed ++ s.overwritten ++ s.store) ∧
      ((s.stored.map Prod.fst).Nodup → s.overwritten = [] ∧ (s.served.map Prod.fst).Nodup) := by
  have hrun : ∃ s, dataSystem.Reachable s ∧ _ := System.exists_reachable
    [.store 1 (.raw [7]), .store 1 (.raw [8]), .request (fetchRequest 1)]
    (fun s => s.overwritten == [(1, .raw [7])]) (by decide)
  obtain ⟨s, hs, hp⟩ := hrun
  exact ⟨s, eq_of_beq hp, payloads_conserved hs⟩

end Wxp.Channel.Protocol
