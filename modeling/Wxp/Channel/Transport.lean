import Wxp.Channel.Numbers

/-!
# Channel — Transport

What holds of every message between its call and the page, in all runs
(`Carried`): while the process has sent fewer than `2 ^ 32` messages, what is on
its way or has arrived is what its call posted, the store holds the data of every
large message that is not fetched yet, and every call that returned `Ok` has its
message on its way or at the page, once.
-/

namespace Wxp.Channel

namespace State

/-! ## From the call to the page -/

/-- What a message on its way says of its call, and the store of it. -/
def Sound (s : State) (t : Transit) : Prop :=
  ∃ c, s.calls[t.call]? = some c ∧ c.result = some .ok ∧ c.index = t.index ∧
    match t.stage with
    | .script body => c.payload.body = some body
    | .response body => c.payload.body = some body
    | .fetchScript d => c.dataId = some d ∧ s.store d ≠ none ∧ s.store d = c.payload.body
    | .request d => c.dataId = some d ∧ s.store d ≠ none ∧ s.store d = c.payload.body

/-- An arrived message, as the last stage of its way. -/
def received (p : Nat × Message) : Transit :=
  { call := p.2.call, index := p.1, stage := .response p.2.body }

/-- The calls whose messages are on their way or at the page. -/
def labels (s : State) : List Nat := s.transits.map Transit.call ++ s.arrived.map fun p => p.2.call

structure Carried (s : State) : Prop where
  ids : s.Ids
  transit : ∀ t ∈ s.transits, s.Sound t
  arrived : ∀ p ∈ s.arrived, s.Sound (received p)
  once : s.labels.Nodup
  complete : s.webviewAlive = true → ∀ (k : Nat) (c : Call), s.calls[k]? = some c →
    c.result = some .ok → k ∈ s.labels
  stored : ∀ (k : Nat) (c : Call) (d : Nat), s.calls[k]? = some c → c.result = none →
    c.dataId = some d → s.store d ≠ none ∧ s.store d = c.payload.body

theorem holds_of_call {s : State} {k : Nat} {c : Call} {d : Nat} (hk : s.calls[k]? = some c)
    (hd : c.dataId = some d) : s.Holds k d := by
  simp [Holds, dataIds, hk, hd]

/-- A step that keeps the returned calls, and the data of a message that still
has to be fetched, keeps what is on its way sound. -/
theorem Sound.mono {s s' : State} {t : Transit} (h : s.Sound t)
    (hcalls : ∀ c, s.calls[t.call]? = some c → c.result = some .ok → s'.calls[t.call]? = some c)
    (hstore : ∀ d, s.Holds t.call d → s'.store d = s.store d) : s'.Sound t := by
  obtain ⟨c, hc, hr, hi, hs⟩ := h
  refine ⟨c, hcalls c hc hr, hr, hi, ?_⟩
  cases hst : t.stage with
  | script body => simpa [hst] using hs
  | response body => simpa [hst] using hs
  | fetchScript d =>
      simp only [hst] at hs ⊢
      rwa [hstore d (holds_of_call hc hs.1)]
  | request d =>
      simp only [hst] at hs ⊢
      rwa [hstore d (holds_of_call hc hs.1)]

theorem Sound.result {s : State} {t : Transit} (h : s.Sound t) :
    ∃ c, s.calls[t.call]? = some c ∧ c.result = some .ok := by
  obtain ⟨c, hc, hr, -, -⟩ := h
  exact ⟨c, hc, hr⟩

/-- A message on its way holds the data id its stage names. -/
theorem Sound.holds {s : State} {t : Transit} {d : Nat} (h : s.Sound t)
    (ht : t.stage = .fetchScript d ∨ t.stage = .request d) : s.Holds t.call d := by
  obtain ⟨c, hc, -, -, hs⟩ := h
  rcases ht with ht | ht
  · rw [ht] at hs
    exact holds_of_call hc hs.1
  · rw [ht] at hs
    exact holds_of_call hc hs.1

theorem Carried.label_result {s : State} (h : s.Carried) {k : Nat} (hk : k ∈ s.labels) :
    ∃ c, s.calls[k]? = some c ∧ c.result = some .ok := by
  rcases List.mem_append.1 hk with hk | hk
  · obtain ⟨t, ht, rfl⟩ := List.mem_map.1 hk
    exact (h.transit t ht).result
  · obtain ⟨p, hp, rfl⟩ := List.mem_map.1 hk
    exact (h.arrived p hp).result

/-- Steps that touch neither a call nor its data. -/
theorem Carried.quiet {s s' : State} (h : s.Carried) (hids : s'.Ids) (hc : s'.calls = s.calls)
    (hstore : ∀ k d, s.Holds k d → s'.store d = s.store d) (ht : s'.transits = s.transits)
    (ha : s'.arrived = s.arrived) (hw : s'.webviewAlive = true → s.webviewAlive = true) :
    s'.Carried where
  ids := hids
  transit t hmem := (h.transit t (ht ▸ hmem)).mono (fun _ hk _ => hc ▸ hk) (hstore t.call)
  arrived p hmem := (h.arrived p (ha ▸ hmem)).mono (fun _ hk _ => hc ▸ hk) (hstore p.2.call)
  once := by simpa [labels, ht, ha] using h.once
  complete hs' k c hk hr := by
    have := h.complete (hw hs') k c (by rwa [hc] at hk) hr
    simpa [labels, ht, ha] using this
  stored k c d hk hr hd := by
    rw [hc] at hk
    rw [hstore k d (holds_of_call hk hd)]
    exact h.stored k c d hk hr hd

theorem Carried.send {s s' : State} (h : s.Carried) {x : Call} (hids : s'.Ids)
    (hc : s'.calls = s.calls ++ [x]) (hr : x.result = none) (hd : x.dataId = none)
    (hs : s'.store = s.store) (ht : s'.transits = s.transits) (ha : s'.arrived = s.arrived)
    (hw : s'.webviewAlive = s.webviewAlive) : s'.Carried where
  ids := hids
  transit t hmem := (h.transit t (ht ▸ hmem)).mono
    (fun c hk _ => hc ▸ getElem?_append_of_some hk _) (by simp [hs])
  arrived p hmem := (h.arrived p (ha ▸ hmem)).mono
    (fun c hk _ => hc ▸ getElem?_append_of_some hk _) (by simp [hs])
  once := by simpa [labels, ht, ha] using h.once
  complete halive k c hk hok := by
    rw [hc] at hk
    rcases getElem?_append_new hk with hk | ⟨-, rfl⟩
    · simpa [labels, ht, ha] using h.complete (hw ▸ halive) k c hk hok
    · simp [hr] at hok
  stored k c d hk hnone hdata := by
    rw [hc] at hk
    rw [hs]
    rcases getElem?_append_new hk with hk | ⟨-, rfl⟩
    · exact h.stored k c d hk hnone hdata
    · simp [hd] at hdata

/-- The calls that have returned stay as they are when another call changes. -/
theorem modify_returned {s : State} {k j : Nat} {c e : Call} {f : Call → Call}
    (hk : s.calls[k]? = some c) (hr : c.result = none) (hj : s.calls[j]? = some e)
    (he : e.result = some .ok) : (s.calls.modify k f)[j]? = some e := by
  by_cases hjk : j = k
  · subst hjk
    simp_all
  · rw [modify_of_ne hjk]
    exact hj

theorem Carried.store {s s' : State} (h : s.Carried) {k : Nat} {c : Call} {body : Body}
    (hids : s'.Ids) (hk : s.calls[k]? = some c) (hr : c.result = none)
    (hbody : c.payload.body = some body) (hfree : ∀ j, ¬ s.Holds j s.dataCounter)
    (hc : s'.calls = s.calls.modify k fun c => { c with dataId := some s.dataCounter })
    (hs : s'.store = Function.update s.store s.dataCounter (some body))
    (ht : s'.transits = s.transits) (ha : s'.arrived = s.arrived)
    (hw : s'.webviewAlive = s.webviewAlive) : s'.Carried := by
  have hstore : ∀ j d, s.Holds j d → s'.store d = s.store d := by
    intro j d hj
    rw [hs, Function.update_of_ne]
    rintro rfl
    exact hfree j hj
  refine ⟨hids, ?_, ?_, ?_, ?_, ?_⟩
  · intro t hmem
    exact (h.transit t (ht ▸ hmem)).mono (fun e he hok => hc ▸ modify_returned hk hr he hok)
      (hstore t.call)
  · intro p hmem
    exact (h.arrived p (ha ▸ hmem)).mono (fun e he hok => hc ▸ modify_returned hk hr he hok)
      (hstore p.2.call)
  · simpa [labels, ht, ha] using h.once
  · intro halive j e he hok
    rw [hc] at he
    by_cases hjk : j = k
    · subst hjk
      simp only [List.getElem?_modify_eq, hk, Option.map_eq_map, Option.map_some,
        Option.some.injEq] at he
      subst he
      simp [hr] at hok
    · rw [modify_of_ne hjk] at he
      simpa [labels, ht, ha] using h.complete (hw ▸ halive) j e he hok
  · intro j e d he hnone hd
    rw [hc] at he
    by_cases hjk : j = k
    · subst hjk
      simp only [List.getElem?_modify_eq, hk, Option.map_eq_map, Option.map_some,
        Option.some.injEq] at he
      subst he
      cases hd
      simp [hs, hbody]
    · rw [modify_of_ne hjk] at he
      rw [hstore j d (holds_of_call he hd)]
      exact h.stored j e d he hnone hd

/-- A call returns: its own data may go, and its message may be posted. -/
theorem Carried.setResult {s s' : State} (h : s.Carried) {k : Nat} {c : Call} {r : Result}
    (hids : s'.Ids) (hk : s.calls[k]? = some c) (hr : c.result = none)
    (hc : s'.calls = (s.setResult k r).calls)
    (hs : ∀ d, ¬ s.Holds k d → s'.store d = s.store d)
    (ht : (r ≠ .ok ∧ s'.transits = s.transits) ∨
      ∃ t, t.call = k ∧ s'.Sound t ∧ s'.transits = s.transits ++ [t])
    (ha : s'.arrived = s.arrived) (hw : s'.webviewAlive = s.webviewAlive) : s'.Carried := by
  have hother : ∀ j d, j ≠ k → s.Holds j d → s'.store d = s.store d :=
    fun j d hjk hj => hs d fun hkd => hjk (h.ids.distinct j k d hj hkd)
  have hnew : ∀ j, j ∈ s.labels → j ≠ k := by
    rintro j hj rfl
    obtain ⟨e, he, hok⟩ := h.label_result hj
    simp_all
  have hsound : ∀ t, t.call ∈ s.labels → s.Sound t → s'.Sound t := by
    intro t hmem hsd
    exact hsd.mono (fun e he hok => hc ▸ modify_returned hk hr he hok)
      (fun d => hother t.call d (hnew _ hmem))
  have hold : ∀ t ∈ s.transits, s'.Sound t := fun t hmem =>
    hsound t (List.mem_append_left _ (List.mem_map_of_mem hmem)) (h.transit t hmem)
  have hmemL : ∀ j, j ∈ s.labels → j ∈ s'.labels := by
    intro j hj
    rcases ht with ⟨-, ht⟩ | ⟨t, -, -, ht⟩
    · simpa [labels, ht, ha] using hj
    · simp only [labels, ht, ha, List.map_append, List.mem_append] at hj ⊢
      tauto
  refine ⟨hids, ?_, ?_, ?_, ?_, ?_⟩
  · intro t hmem
    rcases ht with ⟨-, ht⟩ | ⟨t', -, hsd, ht⟩
    · exact hold t (ht ▸ hmem)
    · rw [ht] at hmem
      rcases List.mem_append.1 hmem with hmem | hmem
      · exact hold t hmem
      · rw [List.mem_singleton.1 hmem]
        exact hsd
  · intro p hmem
    rw [ha] at hmem
    exact hsound (received p) (List.mem_append_right _ (List.mem_map.2 ⟨p, hmem, rfl⟩))
      (h.arrived p hmem)
  · rcases ht with ⟨-, ht⟩ | ⟨t, rfl, -, ht⟩
    · simpa [labels, ht, ha] using h.once
    · have hperm : s'.labels.Perm (t.call :: s.labels) := by
        simp only [labels, ht, ha, List.map_append, List.map_cons, List.map_nil,
          List.append_assoc, List.singleton_append]
        exact List.perm_middle
      rw [hperm.nodup_iff, List.nodup_cons]
      exact ⟨fun hmem => hnew _ hmem rfl, h.once⟩
  · intro halive j e he hok
    rw [hc] at he
    by_cases hjk : j = k
    · subst hjk
      rcases ht with ⟨hne, -⟩ | ⟨t, rfl, -, ht⟩
      · simp only [State.setResult, List.getElem?_modify_eq, hk, Option.map_eq_map,
          Option.map_some, Option.some.injEq] at he
        subst he
        simp_all
      · simp [labels, ht]
    · rw [State.setResult, modify_of_ne hjk] at he
      exact hmemL j (h.complete (hw ▸ halive) j e he hok)
  · intro j e d he hnone hd
    rw [hc] at he
    by_cases hjk : j = k
    · subst hjk
      simp only [State.setResult, List.getElem?_modify_eq, hk, Option.map_eq_map,
        Option.map_some, Option.some.injEq] at he
      subst he
      cases hnone
    · rw [State.setResult, modify_of_ne hjk] at he
      rw [hother j d hjk (holds_of_call he hd)]
      exact h.stored j e d he hnone hd

/-- A message moves on: into another stage, to the page, or away with the
WebView. Only data of its own call is touched. -/
theorem Carried.move {s s' : State} (h : s.Carried) {i : Nat} {t : Transit}
    (ht : s.transits[i]? = some t) (new : List Transit) (arrived : List (Nat × Message))
    (hids : s'.Ids) (hc : s'.calls = s.calls)
    (hs : ∀ d, ¬ s.Holds t.call d → s'.store d = s.store d)
    (hnew : ∀ t' ∈ new ++ arrived.map received, t'.call = t.call ∧ s'.Sound t')
    (hone : (new ++ arrived.map received).length ≤ 1)
    (hlost : s'.webviewAlive = true →
      s.webviewAlive = true ∧ (new ++ arrived.map received).length = 1)
    (hts : s'.transits.Perm (new ++ s.transits.eraseIdx i))
    (ha : s'.arrived = s.arrived ++ arrived) : s'.Carried := by
  have hperm := perm_eraseIdx ht
  have hlabels : s.labels.Perm (t.call ::
      ((s.transits.eraseIdx i).map Transit.call ++ s.arrived.map fun p => p.2.call)) := by
    rw [labels, ← List.cons_append, ← List.map_cons]
    exact (hperm.symm.map _).append_right _
  have hlabels' : s'.labels.Perm ((new ++ arrived.map received).map Transit.call ++
      ((s.transits.eraseIdx i).map Transit.call ++ s.arrived.map fun p => p.2.call)) := by
    rw [labels, ha]
    refine ((hts.map _).append_right _).trans ?_
    simp only [List.map_append, List.append_assoc, List.map_map, List.perm_append_left_iff]
    rw [← List.append_assoc]
    exact List.perm_append_comm
  obtain ⟨hfresh, hrest⟩ := List.nodup_cons.1 (hlabels.nodup_iff.1 h.once)
  have hsound : ∀ t', t'.call ∈ (s.transits.eraseIdx i).map Transit.call ++
      (s.arrived.map fun p => p.2.call) → s.Sound t' → s'.Sound t' := by
    intro t' hmem hsd
    refine hsd.mono (fun e he _ => hc ▸ he) fun d hd => hs d fun hd' => ?_
    have hcall := h.ids.distinct _ _ d hd hd'
    exact hfresh (hcall ▸ hmem)
  refine ⟨hids, ?_, ?_, ?_, ?_, ?_⟩
  · intro t' hmem
    rcases List.mem_append.1 (hts.mem_iff.1 hmem) with hmem | hmem
    · exact (hnew t' (List.mem_append_left _ hmem)).2
    · exact hsound t' (List.mem_append_left _ (List.mem_map_of_mem hmem))
        (h.transit t' (List.mem_of_mem_eraseIdx hmem))
  · intro p hmem
    rw [ha] at hmem
    rcases List.mem_append.1 hmem with hmem | hmem
    · exact hsound (received p) (List.mem_append_right _ (List.mem_map.2 ⟨p, hmem, rfl⟩))
        (h.arrived p hmem)
    · exact (hnew _ (List.mem_append_right _ (List.mem_map_of_mem hmem))).2
  · rw [hlabels'.nodup_iff]
    match hn : new ++ arrived.map received with
    | [] => simpa using hrest
    | [t'] =>
        have := (hnew t' (by simp [hn])).1
        simpa [this] using ⟨by simpa using hfresh, by simpa using hrest⟩
    | _ :: _ :: _ =>
        rw [hn] at hone
        simp at hone
  · intro halive k c hk hok
    obtain ⟨hw, hlen⟩ := hlost halive
    obtain ⟨t', ht'⟩ := List.length_eq_one_iff.1 hlen
    have hcall := (hnew t' (by simp [ht'])).1
    rw [hc] at hk
    rw [hlabels'.mem_iff, ht', List.map_singleton, hcall, List.singleton_append, ← hlabels.mem_iff]
    exact h.complete hw k c hk hok
  · intro k c d hk hnone hd
    rw [hc] at hk
    obtain ⟨e, he, hok⟩ := (h.transit t (List.mem_of_getElem? ht)).result
    have hne : k ≠ t.call := by
      rintro rfl
      simp_all
    rw [hs d fun hd' => hne (h.ids.distinct _ _ d (holds_of_call hk hd) hd')]
    exact h.stored k c d hk hnone hd

theorem body_of_transport {p : Payload} {index : Nat} {t : Transport}
    (h : p.transport index = some t) : p.body = some t.body := by
  cases p with
  | json text =>
      cases text with
      | none => cases h
      | some text =>
          simp only [Payload.transport] at h
          split at h <;> cases h <;> rfl
  | bytes data =>
      simp only [Payload.transport] at h
      split at h <;> cases h <;> rfl

/-- A posted message is sound: its call has returned `Ok`. -/
theorem sound_postMessage {s : State} {k : Nat} {c : Call} {stage : Stage}
    (hk : s.calls[k]? = some c)
    (hstage : match stage with
      | .script body => c.payload.body = some body
      | .response body => c.payload.body = some body
      | .fetchScript d => c.dataId = some d ∧ s.store d ≠ none ∧ s.store d = c.payload.body
      | .request d => c.dataId = some d ∧ s.store d ≠ none ∧ s.store d = c.payload.body) :
    (s.postMessage k c stage).Sound { call := k, index := c.index, stage } := by
  refine ⟨{ c with result := some .ok }, ?_, rfl, rfl, hstage⟩
  simp [postMessage, setResult, hk]

theorem Step.carried {s s' : State} {a : Action} (hst : Step s a s') (h : s.Carried)
    (hb : s'.sends < 2 ^ 32) : s'.Carried := by
  cases hst with
  | extract | clone | close | drop | runEnd | abandonEnd =>
      exact h.quiet (h.ids.of_eq rfl rfl rfl rfl) rfl (fun _ _ _ => rfl) rfl rfl id
  | dropWebView =>
      refine h.quiet (h.ids.of_eq rfl rfl rfl rfl) rfl (fun _ _ _ => rfl) rfl rfl fun halive => ?_
      cases halive
  | endClose | endDrop =>
      refine of_postEnd fun ends posts => ?_
      exact h.quiet (h.ids.of_eq rfl rfl rfl rfl) rfl (fun _ _ _ => rfl) rfl rfl id
  | send v w index payload _ _ _ =>
      exact h.send (h.ids.send rfl rfl rfl rfl rfl) rfl rfl rfl rfl rfl rfl rfl
  | foreignStore body =>
      have hb : s.sends + 1 < 2 ^ 32 := hb
      have hlt : s.nextDataId < 2 ^ 32 := by
        have := s.nextDataId_le
        omega
      refine h.quiet (h.ids.foreignStore body hb) rfl (fun k d hk => ?_) rfl rfl id
      apply Function.update_of_ne
      rintro rfl
      exact h.ids.not_holds hlt k hk
  | foreignTake d hmem =>
      refine h.quiet (h.ids.foreignTake d _) rfl (fun k d' hk => ?_) rfl rfl id
      apply Function.update_of_ne
      rintro rfl
      exact (h.ids.fresh k _ hk).2 hmem
  | unposted k c accepted e hk hr =>
      exact h.setResult (h.ids.of_eq (setResult_dataIds s k _) rfl rfl rfl) hk hr rfl
        (fun _ _ => rfl) (.inl ⟨by simp, rfl⟩) rfl rfl
  | store k c body hk hr hd ht =>
      have hb : s.sends < 2 ^ 32 := by
        simpa [sends] using hb
      have hlt : s.nextDataId < 2 ^ 32 := by
        have hpos : 0 < s.dataIds.countP Option.isNone :=
          List.countP_pos_iff.2 ⟨none, List.mem_map.2 ⟨c, List.mem_of_getElem? hk, hd⟩, rfl⟩
        have := s.countP_dataIds_le
        simp only [nextDataId]
        omega
      exact h.store (h.ids.store hk hd hb rfl rfl rfl rfl) hk hr (body_of_transport ht)
        (h.ids.not_holds hlt) rfl rfl rfl rfl rfl
  | cleanUp k c d accepted hk hr hd hw =>
      refine h.setResult (h.ids.of_eq (setResult_dataIds s k _) rfl rfl rfl) hk hr rfl
        (fun d' hd' => ?_) (.inl ⟨by simp, rfl⟩) rfl rfl
      apply Function.update_of_ne
      rintro rfl
      exact hd' (holds_of_call hk hd)
  | postInline k c body hk hr ht =>
      exact h.setResult (h.ids.of_eq (setResult_dataIds s k _) rfl rfl rfl) hk hr rfl
        (fun _ _ => rfl) (.inr ⟨_, rfl, sound_postMessage hk (body_of_transport ht), rfl⟩) rfl rfl
  | postFetch k c body d hk hr ht hd =>
      exact h.setResult (h.ids.of_eq (setResult_dataIds s k _) rfl rfl rfl) hk hr rfl
        (fun _ _ => rfl) (.inr ⟨_, rfl, sound_postMessage hk ⟨hd, h.stored k c d hk hr hd⟩, rfl⟩)
        rfl rfl
  | arrive i t body ht hstage =>
      have hsound : s.Sound (received (t.index, ⟨t.call, body⟩)) := by
        obtain ⟨c, hc, hr, hi, hs⟩ := h.transit t (List.mem_of_getElem? ht)
        refine ⟨c, hc, hr, hi, ?_⟩
        rcases hstage with hstage | hstage <;> simpa [hstage, received] using hs
      refine h.move ht [] [(t.index, ⟨t.call, body⟩)]
        (h.ids.of_eq rfl rfl rfl rfl) rfl (fun _ _ => rfl) ?_ le_rfl (fun hw => ⟨hw, rfl⟩) (.refl _)
        rfl
      intro t' hmem
      rw [List.mem_singleton.1 hmem]
      exact ⟨rfl, hsound⟩
  | fetch i t d ht hstage =>
      have hlt := (List.getElem?_eq_some_iff.1 ht).1
      have hsound : s.Sound { t with stage := .request d } := by
        obtain ⟨c, hc, hr, hi, hs⟩ := h.transit t (List.mem_of_getElem? ht)
        refine ⟨c, hc, hr, hi, ?_⟩
        simpa [hstage] using hs
      refine h.move ht [{ t with stage := .request d }] []
        (h.ids.of_eq rfl rfl rfl rfl) rfl (fun _ _ => rfl) ?_ le_rfl (fun hw => ⟨hw, rfl⟩)
        (List.set_perm_cons_eraseIdx hlt _) (List.append_nil _).symm
      intro t' hmem
      rw [List.mem_singleton.1 hmem]
      exact ⟨rfl, hsound⟩
  | respond i t d body ht hstage hd =>
      have hlt := (List.getElem?_eq_some_iff.1 ht).1
      have htr := h.transit t (List.mem_of_getElem? ht)
      refine h.move ht [{ t with stage := .response body }] []
        (h.ids.of_eq rfl rfl rfl rfl) rfl (fun d' hd' => ?_) ?_ le_rfl (fun hw => ⟨hw, rfl⟩)
        (List.set_perm_cons_eraseIdx hlt _) (List.append_nil _).symm
      · apply Function.update_of_ne
        rintro rfl
        exact hd' (htr.holds (.inr hstage))
      · intro t' hmem
        rw [List.mem_singleton.1 hmem]
        obtain ⟨c, hc, hr, hi, hs⟩ := htr
        refine ⟨rfl, c, hc, hr, hi, ?_⟩
        simp only [hstage] at hs
        exact hs.2.2.symm.trans hd
  | notFound i t d ht hstage hd =>
      -- the data of a message on its way is in the store until its fetch
      obtain ⟨c, -, -, -, hs⟩ := h.transit t (List.mem_of_getElem? ht)
      simp only [hstage] at hs
      exact absurd hd hs.2.1
  | abandonFetch i t d ht hstage hw =>
      have htr := h.transit t (List.mem_of_getElem? ht)
      refine h.move ht [] [] (h.ids.of_eq rfl rfl rfl rfl) rfl
        (fun d' hd' => ?_) (by simp) (by simp) (fun halive => ?_) (.refl _) (List.append_nil _).symm
      · apply Function.update_of_ne
        rintro rfl
        exact hd' (htr.holds (.inl hstage))
      · simp [hw] at halive
  | abandon i t ht hw =>
      refine h.move ht [] [] (h.ids.of_eq rfl rfl rfl rfl) rfl
        (fun _ _ => rfl) (by simp) (by simp) (fun halive => ?_) (.refl _) (List.append_nil _).symm
      simp [hw] at halive

end State

end Wxp.Channel
