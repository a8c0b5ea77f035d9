import Wxp.Foundations.Replace
import Mathlib.Data.List.Perm.Basic

/-!
# CustomProtocol — the URI work-around

WebView2 and the Android web view cannot load URIs of other schemes than `http(s)`.
`crates/wry/src/custom_protocol_workaround.rs` turns `p://rest` into
`http://p.rest` before the navigation, and a request for such a URI back before it is
handed to the handler of `p`.

Both directions are `str::replace`, on the whole URI. From the text that was made for the
navigation the URI comes back as it was exactly if the text `http://p.` does not stand in
it (`handlerFor_navigationUrl_iff`), and which handler it is given to does not depend on
the order of the hash map of handlers exactly if no name begins with another name and a
dot (`handlerFor_perm_iff`).

What the browser makes of a URL before it asks for it (the case of the host, an empty path,
escapes), and the parse of the text that comes out into an `http::Uri`, are not modelled:
the URIs here are texts, and come back as they were made.
-/

namespace Wxp.CustomProtocol

/-- Rust's `strip_prefix`. -/
def stripPrefix (s pre : List Char) : Option (List Char) :=
  if pre <+: s then some (s.drop pre.length) else none

/-- Rust's `split_once`: the text before the first `sep`, and the text behind it. -/
def splitOnce (sep : List Char) : List Char → Option (List Char × List Char)
  | [] => if sep = [] then some ([], []) else none
  | x :: xs =>
      if sep <+: x :: xs then some ([], (x :: xs).drop sep.length)
      else (splitOnce sep xs).map fun r => (x :: r.1, r.2)

/-- What stands between a scheme and the rest of a URI. -/
def schemeEnd : List Char := [':', '/', '/']

/-- `original_uri_prefix`. -/
def originalUriPrefix (protocol : List Char) : List Char := protocol ++ schemeEnd

/-- `work_around_uri_prefix`. -/
def workAroundUriPrefix (httpOrHttps protocol : List Char) : List Char :=
  httpOrHttps ++ schemeEnd ++ protocol ++ ['.']

/-- `is_work_around_uri`. -/
def isWorkAroundUri (uri httpOrHttps protocol : List Char) : Bool :=
  ((((stripPrefix uri httpOrHttps).bind (stripPrefix · schemeEnd)).bind
    (stripPrefix · protocol)).bind (stripPrefix · ['.'])).isSome

/-- `apply_uri_work_around`. -/
def applyUriWorkAround (uri httpOrHttps protocol : List Char) : List Char :=
  replace (originalUriPrefix protocol) (workAroundUriPrefix httpOrHttps protocol) uri

/-- `revert_uri_work_around`. -/
def revertUriWorkAround (uri httpOrHttps protocol : List Char) : List Char :=
  replace (workAroundUriPrefix httpOrHttps protocol) (originalUriPrefix protocol) uri

/-- The scheme that stands for the custom ones: `use_https` on Windows, `https_scheme` on
Android. -/
def httpOrHttps (useHttps : Bool) : List Char :=
  if useHttps then ['h', 't', 't', 'p', 's'] else ['h', 't', 't', 'p']

/-- The URL that `init_webview` and Android's `WebView::new` navigate to for the URL of
the attributes. -/
def navigationUrl (protocols : List (List Char)) (httpOrHttps url : List Char) : List Char :=
  match splitOnce schemeEnd url with
  | some (protocol, _) =>
      if protocols.contains protocol then applyUriWorkAround url httpOrHttps protocol else url
  | none => url

/-- The handler a request is given to, with the text of the URI it receives. The list stands
for the hash map of handlers in the order it is iterated in. -/
def handlerFor (protocols : List (List Char)) (httpOrHttps uri : List Char) :
    Option (List Char × List Char) :=
  (protocols.find? fun protocol => isWorkAroundUri uri httpOrHttps protocol).map fun protocol =>
    (protocol, revertUriWorkAround uri httpOrHttps protocol)

example : navigationUrl ["wxp".toList] "http".toList "wxp://localhost/a".toList =
    "http://wxp.localhost/a".toList := by decide

/-- Names the two prefixes can be told apart for: of a scheme without a dot, and such that
neither name ends with the other. -/
structure Plain (httpOrHttps protocol : List Char) : Prop where
  colon : ':' ∉ protocol
  slash : '/' ∉ protocol
  dot : '.' ∉ protocol
  notSuffix : ¬ protocol <:+ httpOrHttps
  noSuffix : ¬ httpOrHttps <:+ protocol

/-! ## The two prefixes -/

section Prefixes

variable {b : Bool} {p : List Char}

theorem colon_notMem_httpOrHttps (b : Bool) : ':' ∉ httpOrHttps b := by
  cases b <;> decide

theorem slash_notMem_httpOrHttps (b : Bool) : '/' ∉ httpOrHttps b := by
  cases b <;> decide

theorem originalUriPrefix_ne_nil (p : List Char) : originalUriPrefix p ≠ [] := by
  simp [originalUriPrefix, schemeEnd]

theorem workAroundUriPrefix_ne_nil (h p : List Char) : workAroundUriPrefix h p ≠ [] := by
  simp [workAroundUriPrefix]

theorem length_originalUriPrefix_lt (b : Bool) (p : List Char) :
    (originalUriPrefix p).length < (workAroundUriPrefix (httpOrHttps b) p).length := by
  simp only [originalUriPrefix, workAroundUriPrefix, List.length_append]
  simp
  omega

/-- A text whose last character occurs nowhere else in it is unbordered. -/
theorem unbordered_concat {x : Char} {c : List Char} (hx : x ∉ c) : Unbordered (c ++ [x]) := by
  intro s hs hsuffix hpre
  obtain ⟨t, y, rfl⟩ := (List.eq_nil_or_concat' s).resolve_left hs
  obtain ⟨rfl, ht⟩ : y = x ∧ t <:+ c := by
    obtain ⟨r, hr⟩ := hsuffix
    rw [← List.append_assoc] at hr
    obtain ⟨h₁, h₂⟩ := List.append_inj' hr rfl
    exact ⟨by simpa using h₂, r, h₁⟩
  obtain ⟨r, hr⟩ := hpre
  rcases List.eq_nil_or_concat' r with rfl | ⟨r', z, rfl⟩
  · simpa using hr
  · -- then the last character of `s` stands inside `c`
    rw [← List.append_assoc] at hr
    have hc := (List.append_inj' hr rfl).1
    exact absurd (by simp [← hc]) hx

theorem unbordered_workAroundUriPrefix (b : Bool) (hp : Plain (httpOrHttps b) p) :
    Unbordered (workAroundUriPrefix (httpOrHttps b) p) := by
  refine unbordered_concat ?_
  simp only [List.mem_append, not_or]
  refine ⟨⟨?_, by decide⟩, hp.dot⟩
  cases b <;> decide

/-- The texts that end `p://`. -/
theorem suffix_originalUriPrefix {s : List Char} (hs : s ≠ [])
    (h : s <:+ originalUriPrefix p) :
    '/' ∈ s.head? ∨ ∃ t, t <:+ p ∧ s = originalUriPrefix t := by
  obtain ⟨r, hr⟩ := h
  obtain ⟨a, rfl, rfl⟩ | ⟨c, rfl, hc⟩ := List.append_eq_append_iff.1 hr
  · exact .inr ⟨a, List.suffix_append r a, rfl⟩
  · cases c with
    | nil => exact .inr ⟨[], List.nil_suffix, by simpa [originalUriPrefix] using hc.symm⟩
    | cons x c =>
        have hc' : ['/', '/'] = c ++ s := by
          have hcons : ':' :: ['/', '/'] = x :: (c ++ s) := hc
          exact (List.cons_eq_cons.1 hcons).2
        have hmem : ∀ y ∈ s, y = '/' := by
          intro y hy
          have hy' : y ∈ ['/', '/'] := hc' ▸ List.mem_append_right c hy
          simpa using hy'
        cases s with
        | nil => exact absurd rfl hs
        | cons y s => simp [hmem y (List.mem_cons_self)]

/-- A scheme is what stands before the first colon. -/
theorem scheme_unique {t h x y : List Char} (ht : ':' ∉ t) (hh : ':' ∉ h)
    (e : t ++ ':' :: x <+: h ++ ':' :: y) : t = h := by
  induction t generalizing h with
  | nil =>
      cases h with
      | nil => rfl
      | cons z h =>
          have hz : ':' = z := (List.cons_prefix_cons.1 e).1
          exact absurd (hz ▸ List.mem_cons_self) hh
  | cons w t ih =>
      cases h with
      | nil =>
          have hw : w = ':' := (List.cons_prefix_cons.1 e).1
          exact absurd (hw ▸ List.mem_cons_self) ht
      | cons z h =>
          obtain ⟨rfl, e'⟩ := List.cons_prefix_cons.1 e
          rw [ih (fun hm => ht (List.mem_cons_of_mem _ hm))
            (fun hm => hh (List.mem_cons_of_mem _ hm)) e']

theorem workAroundUriPrefix_eq (h p : List Char) :
    workAroundUriPrefix h p = h ++ ':' :: '/' :: '/' :: (p ++ ['.']) := by
  simp [workAroundUriPrefix, schemeEnd]

theorem originalUriPrefix_notWithin (b : Bool) (hp : Plain (httpOrHttps b) p) :
    NotWithin (originalUriPrefix p) (workAroundUriPrefix (httpOrHttps b) p) := by
  intro s hs hsuffix
  have hlen : s.length < (workAroundUriPrefix (httpOrHttps b) p).length :=
    Nat.lt_of_le_of_lt hsuffix.length_le (length_originalUriPrefix_lt b p)
  refine ⟨fun hpre => ?_, fun hpre => Nat.not_le_of_lt hlen hpre.length_le⟩
  rw [workAroundUriPrefix_eq] at hpre
  obtain hslash | ⟨t, ht, rfl⟩ := suffix_originalUriPrefix hs hsuffix
  · -- no scheme begins with a slash
    cases s with
    | nil => cases hslash
    | cons x s =>
        cases hslash
        have hmem : '/' ∈ httpOrHttps b := by
          cases b <;> exact absurd (List.cons_prefix_cons.1 hpre).1 (by decide)
        exact slash_notMem_httpOrHttps b hmem
  · have hcolon : ':' ∉ t := fun hm => hp.colon (ht.subset hm)
    have heq : t = httpOrHttps b := scheme_unique hcolon (colon_notMem_httpOrHttps b) hpre
    exact hp.noSuffix (heq ▸ ht)

theorem workAroundUriPrefix_notWithin (b : Bool) (hp : Plain (httpOrHttps b) p) :
    NotWithin (workAroundUriPrefix (httpOrHttps b) p) (originalUriPrefix p) := by
  intro s hs hsuffix
  constructor
  · -- a text that ends the work-around prefix ends with a dot
    intro hpre
    obtain ⟨t, y, rfl⟩ := (List.eq_nil_or_concat' s).resolve_left hs
    obtain ⟨r, hr⟩ := hsuffix
    rw [← List.append_assoc, workAroundUriPrefix] at hr
    have hy : y = '.' := by simpa using (List.append_inj' hr rfl).2
    have hmem : '.' ∈ originalUriPrefix p := hpre.subset (by simp [hy])
    rw [originalUriPrefix, List.mem_append] at hmem
    obtain hm | hm := hmem
    · exact hp.dot hm
    · exact absurd hm (by decide)
  · -- the work-around prefix has one colon, so `p` would end the scheme
    rintro ⟨w, rfl⟩
    obtain ⟨r, hr⟩ := hsuffix
    have hz : ':' ∉ '/' :: '/' :: (p ++ ['.']) := by simp [hp.colon]
    have he : httpOrHttps b ++ ':' :: '/' :: '/' :: (p ++ ['.']) =
        (r ++ p) ++ ':' :: '/' :: '/' :: w := by
      rw [← workAroundUriPrefix_eq, ← hr]
      simp [originalUriPrefix, schemeEnd]
    have hcut := ((List.append_cons_inj_of_notMem (colon_notMem_httpOrHttps b) hz).1 he).1
    exact hp.notSuffix ⟨r, hcut.symm⟩

end Prefixes

/-- The work-around can be undone exactly for the URIs without the text it inserts. -/
theorem revert_apply_iff (b : Bool) {p : List Char} (hp : Plain (httpOrHttps b) p)
    (uri : List Char) :
    revertUriWorkAround (applyUriWorkAround uri (httpOrHttps b) p) (httpOrHttps b) p = uri ↔
      ¬ workAroundUriPrefix (httpOrHttps b) p <:+: uri :=
  replace_replace_iff (originalUriPrefix_ne_nil p) (workAroundUriPrefix_ne_nil _ p)
    (unbordered_workAroundUriPrefix b hp) (originalUriPrefix_notWithin b hp)
    (workAroundUriPrefix_notWithin b hp) (Nat.ne_of_lt (length_originalUriPrefix_lt b p)) uri

/-! ## Which handler -/

theorem stripPrefix_eq_some {s pre r : List Char} : stripPrefix s pre = some r ↔ s = pre ++ r := by
  unfold stripPrefix
  split
  · next hpre =>
      obtain ⟨w, rfl⟩ := hpre
      simp [eq_comm]
  · next hpre =>
      simp only [reduceCtorEq, false_iff]
      rintro rfl
      exact hpre (List.prefix_append pre r)

theorem isWorkAroundUri_iff {uri h p : List Char} :
    isWorkAroundUri uri h p = true ↔ workAroundUriPrefix h p <+: uri := by
  simp only [isWorkAroundUri, Option.isSome_iff_exists, Option.bind_eq_some_iff,
    stripPrefix_eq_some]
  constructor
  · rintro ⟨r, c₃, ⟨c₂, ⟨c₁, rfl, rfl⟩, rfl⟩, rfl⟩
    exact ⟨r, by simp [workAroundUriPrefix]⟩
  · rintro ⟨r, rfl⟩
    exact ⟨r, _, ⟨_, ⟨_, by simp only [workAroundUriPrefix, List.append_assoc], rfl⟩, rfl⟩, rfl⟩

/-- Two names that match one URI begin with one another, up to the dot. -/
theorem match_unique {uri h p q : List Char} (hp : isWorkAroundUri uri h p = true)
    (hq : isWorkAroundUri uri h q = true) (hpq : ¬ p ++ ['.'] <+: q)
    (hqp : ¬ q ++ ['.'] <+: p) : p = q := by
  rw [isWorkAroundUri_iff, workAroundUriPrefix, List.append_assoc] at hp hq
  have hcases : p ++ ['.'] <+: q ++ ['.'] ∨ q ++ ['.'] <+: p ++ ['.'] := by
    obtain h₁ | h₁ := List.prefix_or_prefix_of_prefix hp hq
    · exact .inl ((List.prefix_append_right_inj _).1 h₁)
    · exact .inr ((List.prefix_append_right_inj _).1 h₁)
  obtain h₁ | h₁ := hcases
  · obtain h₂ | h₂ := List.prefix_concat_iff.1 h₁
    · exact List.append_cancel_right h₂
    · exact absurd h₂ hpq
  · obtain h₂ | h₂ := List.prefix_concat_iff.1 h₁
    · exact (List.append_cancel_right h₂).symm
    · exact absurd h₂ hqp

theorem find?_eq_of_unique {α : Type} {f : α → Bool} {l l' : List α}
    (hu : ∀ x ∈ l, ∀ y ∈ l, f x = true → f y = true → x = y) (h : l'.Perm l) :
    l'.find? f = l.find? f := by
  cases hf : l.find? f with
  | none =>
      rw [List.find?_eq_none] at hf ⊢
      exact fun x hx => hf x (h.subset hx)
  | some x =>
      have hx := List.mem_of_find?_eq_some hf
      have hfx := List.find?_some hf
      cases hf' : l'.find? f with
      | none => exact absurd hfx (List.find?_eq_none.1 hf' x (h.symm.subset hx))
      | some y =>
          have hy := h.subset (List.mem_of_find?_eq_some hf')
          rw [hu y hy x hx (List.find?_some hf') hfx]

/-- The handler of a request does not depend on the order of the hash map exactly if no
name begins with another name and a dot. -/
theorem handlerFor_perm_iff (h : List Char) (ps : List (List Char)) :
    (∀ qs, qs.Perm ps → ∀ uri, handlerFor qs h uri = handlerFor ps h uri) ↔
      ∀ p ∈ ps, ∀ q ∈ ps, ¬ p ++ ['.'] <+: q := by
  constructor
  · intro hall p hp q hq hpq
    -- a URI of `q` is one of `p`, too, and each of them can come first
    have hmp : isWorkAroundUri (workAroundUriPrefix h q) h p = true := by
      rw [isWorkAroundUri_iff]
      simp only [workAroundUriPrefix, List.append_assoc, List.prefix_append_right_inj]
      exact hpq.trans (List.prefix_append q _)
    have hmq : isWorkAroundUri (workAroundUriPrefix h q) h q = true :=
      isWorkAroundUri_iff.2 List.prefix_rfl
    have h₁ := hall (p :: ps.erase p) (List.perm_cons_erase hp).symm (workAroundUriPrefix h q)
    have h₂ := hall (q :: ps.erase q) (List.perm_cons_erase hq).symm (workAroundUriPrefix h q)
    rw [← h₂] at h₁
    simp only [handlerFor, List.find?_cons, hmp, hmq, Option.map_some, Option.some.injEq,
      Prod.mk.injEq] at h₁
    have hlen := hpq.length_le
    rw [h₁.1, List.length_append, List.length_singleton] at hlen
    omega
  · intro hno qs hqs uri
    have hu : ∀ p ∈ ps, ∀ q ∈ ps, isWorkAroundUri uri h p = true →
        isWorkAroundUri uri h q = true → p = q :=
      fun p hp q hq hmp hmq => match_unique hmp hmq (hno p hp q hq) (hno q hq p hp)
    rw [handlerFor, handlerFor, find?_eq_of_unique hu hqs]

/-! ## From the navigation to the handler -/

theorem splitOnce_schemeEnd {p : List Char} (hp : ':' ∉ p) (rest : List Char) :
    splitOnce schemeEnd (originalUriPrefix p ++ rest) = some (p, rest) := by
  induction p with
  | nil => simp [originalUriPrefix, splitOnce, schemeEnd]
  | cons x p ih =>
      have hx : ¬ schemeEnd <+: x :: (originalUriPrefix p ++ rest) := by
        intro hpre
        have hxc : ':' = x := (List.cons_prefix_cons.1 hpre).1
        exact hp (hxc ▸ List.mem_cons_self)
      have hsplit := ih fun hm => hp (List.mem_cons_of_mem x hm)
      show splitOnce schemeEnd (x :: (originalUriPrefix p ++ rest)) = some (x :: p, rest)
      rw [splitOnce, if_neg hx, hsplit]
      rfl

theorem navigationUrl_registered {ps : List (List Char)} {p : List Char} (hp : p ∈ ps)
    (hcolon : ':' ∉ p) (h rest : List Char) :
    navigationUrl ps h (originalUriPrefix p ++ rest) =
      applyUriWorkAround (originalUriPrefix p ++ rest) h p := by
  rw [navigationUrl, splitOnce_schemeEnd hcolon]
  exact if_pos (List.contains_iff_mem.2 hp)

theorem workAroundUriPrefix_prefix_apply (h p rest : List Char) :
    workAroundUriPrefix h p <+: applyUriWorkAround (originalUriPrefix p ++ rest) h p := by
  rw [applyUriWorkAround, replace_self_append (originalUriPrefix_ne_nil p)]
  exact List.prefix_append _ _

/-- The text made for the navigation to a custom protocol is for the handler of that
protocol, and turned back into the URI it was made of, exactly if the rest of the URI has no
copy of the work-around prefix. -/
theorem handlerFor_navigationUrl_iff (useHttps : Bool) {ps : List (List Char)}
    (hps : ∀ q ∈ ps, '.' ∉ q) {p : List Char} (hp : p ∈ ps)
    (hplain : Plain (httpOrHttps useHttps) p) (rest : List Char) :
    handlerFor ps (httpOrHttps useHttps)
        (navigationUrl ps (httpOrHttps useHttps) (originalUriPrefix p ++ rest)) =
        some (p, originalUriPrefix p ++ rest) ↔
      ¬ workAroundUriPrefix (httpOrHttps useHttps) p <:+: rest := by
  have hmatch : isWorkAroundUri
      (applyUriWorkAround (originalUriPrefix p ++ rest) (httpOrHttps useHttps) p)
      (httpOrHttps useHttps) p = true :=
    isWorkAroundUri_iff.2 (workAroundUriPrefix_prefix_apply _ p rest)
  have hdot : ∀ q ∈ ps, ∀ r ∈ ps, ¬ q ++ ['.'] <+: r := by
    intro q _ r hr hpre
    exact hps r hr (hpre.subset (by simp))
  have hfind : ps.find? (fun q => isWorkAroundUri
      (applyUriWorkAround (originalUriPrefix p ++ rest) (httpOrHttps useHttps) p)
      (httpOrHttps useHttps) q) = some p := by
    cases hf : ps.find? (fun q => isWorkAroundUri
        (applyUriWorkAround (originalUriPrefix p ++ rest) (httpOrHttps useHttps) p)
        (httpOrHttps useHttps) q) with
    | none => exact absurd hmatch (List.find?_eq_none.1 hf p hp)
    | some q =>
        have hq := List.mem_of_find?_eq_some hf
        rw [match_unique (List.find?_some hf) hmatch (hdot q hq p hp) (hdot p hp q hq)]
  have hcount := (originalUriPrefix_notWithin useHttps hplain).matchCount_append rest
  rw [navigationUrl_registered hp hplain.colon, handlerFor, hfind, Option.map_some,
    Option.some.injEq, Prod.mk.injEq, revert_apply_iff useHttps hplain,
    ← matchCount_eq_zero_iff (workAroundUriPrefix_ne_nil _ p), hcount,
    matchCount_eq_zero_iff (workAroundUriPrefix_ne_nil _ p)]
  exact and_iff_right rfl

/-- `wxp://localhost/` comes back as it was, to the handler of `wxp`. -/
theorem handlerFor_navigationUrl_wxp :
    handlerFor ["wxp".toList] (httpOrHttps false)
        (navigationUrl ["wxp".toList] (httpOrHttps false)
          (originalUriPrefix "wxp".toList ++ "localhost/".toList)) =
        some ("wxp".toList, originalUriPrefix "wxp".toList ++ "localhost/".toList) ↔
      ¬ workAroundUriPrefix (httpOrHttps false) "wxp".toList <:+: "localhost/".toList :=
  handlerFor_navigationUrl_iff false (by decide) (by decide)
    ⟨by decide, by decide, by decide, by decide, by decide⟩ "localhost/".toList

end Wxp.CustomProtocol
