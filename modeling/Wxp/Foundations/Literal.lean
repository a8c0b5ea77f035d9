import Wxp.Foundations.Json
import Mathlib.Data.List.Induction
import Mathlib.Data.List.Nodup

/-!
# Foundations — JSON texts as ECMAScript

Every JSON text is also an ECMAScript expression. ECMA-262 has one evaluation of
object literals for both readings and two differences between them, both about the
name `__proto__`:

* in source text a member of that name sets the prototype of the object, if its value
  is an object or null, and is ignored otherwise; for `JSON.parse` it is a property
  like any other;
* source text in which one literal has two such members is a syntax error.

`spliced_eq_jsonParse_iff` says for which trees the two readings agree.
-/

namespace Wxp

/-- The values JSON texts stand for. The prototype of an object is what a `__proto__`
member has set it to; without one it is `Object.prototype`. Properties are in the order
of their creation. -/
inductive JsValue
  | null
  | bool (b : Bool)
  | number (n : JsonNumber)
  | string (s : String)
  | array (elements : List JsValue)
  | object (prototype : Option JsValue) (properties : List (String × JsValue))

/-- The name that source text treats specially. -/
def protoName : String := "__proto__"

/-- `CreateDataProperty`: a property that exists keeps its place. -/
def createDataProperty {α : Type} : List (String × α) → String × α → List (String × α)
  | [], f => [f]
  | (k, v) :: ps, f => if k = f.1 then f :: ps else (k, v) :: createDataProperty ps f

/-- The value of the own property `k`. -/
def getOwn {α : Type} : List (String × α) → String → Option α
  | [], _ => none
  | (k', v) :: ps, k => if k' = k then some v else getOwn ps k

/-- May the value become the prototype of an object? -/
def JsValue.setsPrototype : JsValue → Bool
  | .null | .array _ | .object _ _ => true
  | _ => false

/-- `PropertyDefinitionEvaluation` of a member `name: value`, on the prototype and the
properties of the object; `source` is false for `JSON.parse`. -/
def defineProperty (source : Bool) (o : Option JsValue × List (String × JsValue))
    (f : String × JsValue) : Option JsValue × List (String × JsValue) :=
  if source ∧ f.1 = protoName then
    if f.2.setsPrototype then (some f.2, o.2) else o
  else (o.1, createDataProperty o.2 f)

namespace Json

mutual

/-- The value of a JSON text, read as source text or by `JSON.parse`. -/
def evaluate (source : Bool) : Json String → JsValue
  | .null => .null
  | .bool b => .bool b
  | .number n => .number n
  | .string s => .string s
  | .array xs => .array (evaluateList source xs)
  | .object fields =>
      let o := (evaluateFields source fields).foldl (defineProperty source) (none, [])
      .object o.1 o.2

def evaluateList (source : Bool) : List (Json String) → List JsValue
  | [] => []
  | x :: xs => evaluate source x :: evaluateList source xs

def evaluateFields (source : Bool) : List (String × Json String) → List (String × JsValue)
  | [] => []
  | (k, v) :: fields => (k, evaluate source v) :: evaluateFields source fields

end

mutual

/-- Has some object of the tree two members `__proto__`? -/
def duplicateProto : Json String → Bool
  | .array xs => duplicateProtoList xs
  | .object fields =>
      decide (2 ≤ (fields.map Prod.fst).count protoName) || duplicateProtoFields fields
  | _ => false

def duplicateProtoList : List (Json String) → Bool
  | [] => false
  | x :: xs => duplicateProto x || duplicateProtoList xs

def duplicateProtoFields : List (String × Json String) → Bool
  | [] => false
  | (_, v) :: fields => duplicateProto v || duplicateProtoFields fields

end

mutual

/-- No object has a member `__proto__`, apart from the values of members that a later
one of the same name replaces. -/
def protoFree : Json String → Bool
  | .array xs => protoFreeList xs
  | .object fields => protoFreeFields fields
  | _ => true

def protoFreeList : List (Json String) → Bool
  | [] => true
  | x :: xs => protoFree x && protoFreeList xs

def protoFreeFields : List (String × Json String) → Bool
  | [] => true
  | (k, v) :: fields =>
      k != protoName && (decide (k ∈ fields.map Prod.fst) || protoFree v) &&
        protoFreeFields fields

end

/-- The value of the text as a part of a script; `none` is a syntax error, and nothing
of the script runs. -/
def spliced (j : Json String) : Option JsValue :=
  if j.duplicateProto then none else some (j.evaluate true)

def jsonParse (j : Json String) : JsValue := j.evaluate false

end Json

/-! ## The properties of one object -/

section Properties

variable {α : Type} {ps qs : List (String × α)} {f : String × α} {k : String}

theorem mem_createDataProperty :
    k ∈ (createDataProperty ps f).map Prod.fst ↔ k ∈ ps.map Prod.fst ∨ k = f.1 := by
  induction ps with
  | nil => simp [createDataProperty]
  | cons p ps ih =>
      by_cases hp : p.1 = f.1
      · simp only [createDataProperty, hp, if_true, List.map_cons, List.mem_cons]
        tauto
      · simp only [createDataProperty, hp, if_false, List.map_cons, List.mem_cons, ih]
        tauto

theorem nodup_createDataProperty (h : (ps.map Prod.fst).Nodup) :
    ((createDataProperty ps f).map Prod.fst).Nodup := by
  induction ps with
  | nil => simp [createDataProperty]
  | cons p ps ih =>
      rw [List.map_cons, List.nodup_cons] at h
      by_cases hp : p.1 = f.1
      · simpa only [createDataProperty, hp, if_true, List.map_cons, List.nodup_cons] using
          hp ▸ h
      · simp only [createDataProperty, hp, if_false, List.map_cons, List.nodup_cons,
          mem_createDataProperty, not_or]
        exact ⟨⟨h.1, id⟩, ih h.2⟩

/-- The names after the creation of a property do not depend on the values. -/
theorem keys_createDataProperty_congr {g : String × α}
    (h : ps.map Prod.fst = qs.map Prod.fst) (hfg : f.1 = g.1) :
    (createDataProperty ps f).map Prod.fst = (createDataProperty qs g).map Prod.fst := by
  induction ps generalizing qs with
  | nil =>
      obtain rfl : qs = [] := by simpa using h.symm
      simp [createDataProperty, hfg]
  | cons p ps ih =>
      cases qs with
      | nil => cases h
      | cons q qs =>
          simp only [List.map_cons, List.cons.injEq] at h
          by_cases hp : p.1 = f.1
          · simp [createDataProperty, hp, ← h.1, ← hfg, h.2]
          · simp [createDataProperty, hp, ← h.1, ← hfg, ih h.2]

theorem getOwn_createDataProperty :
    getOwn (createDataProperty ps f) k = if f.1 = k then some f.2 else getOwn ps k := by
  induction ps with
  | nil => simp [createDataProperty, getOwn]
  | cons p ps ih =>
      by_cases hp : p.1 = f.1
      · by_cases hk : f.1 = k <;> simp [createDataProperty, getOwn, hp, hk]
      · by_cases hk : p.1 = k
        · subst hk
          simp [createDataProperty, getOwn, hp, Ne.symm hp]
        · simp [createDataProperty, getOwn, hp, hk, ih]

theorem getOwn_eq_none (h : k ∉ ps.map Prod.fst) : getOwn ps k = none := by
  induction ps with
  | nil => rfl
  | cons p ps ih =>
      simp only [List.map_cons, List.mem_cons, not_or] at h
      simp [getOwn, Ne.symm h.1, ih h.2]

/-- Two objects with the same names, each once, are equal if their values are. -/
theorem eq_of_getOwn_eq (hn : (ps.map Prod.fst).Nodup) (hk : ps.map Prod.fst = qs.map Prod.fst)
    (hl : ∀ k, getOwn ps k = getOwn qs k) : ps = qs := by
  induction ps generalizing qs with
  | nil => simpa using hk.symm
  | cons p ps ih =>
      cases qs with
      | nil => cases hk
      | cons q qs =>
          simp only [List.map_cons, List.cons.injEq, List.nodup_cons] at hk hn
          have hv : p.2 = q.2 := by
            have := hl q.1
            simpa [getOwn, hk.1] using this
          refine List.cons_eq_cons.2 ⟨Prod.ext hk.1 hv, ih hn.2 hk.2 fun k => ?_⟩
          by_cases hkp : q.1 = k
          · rw [getOwn_eq_none (by rw [← hkp, ← hk.1]; exact hn.1),
              getOwn_eq_none (by rw [← hkp, ← hk.1, ← hk.2]; exact hn.1)]
          · have := hl k
            simpa [getOwn, hk.1, hkp] using this

end Properties

/-! ## The members of one object -/

section Members

variable {es ds : List (String × JsValue)} {k : String}

/-- The properties that the members `es` create one after the other. -/
def createAll (es : List (String × JsValue)) : List (String × JsValue) :=
  es.foldl createDataProperty []

theorem createAll_concat (es : List (String × JsValue)) (f : String × JsValue) :
    createAll (es ++ [f]) = createDataProperty (createAll es) f := by
  simp [createAll]

theorem mem_createAll : k ∈ (createAll es).map Prod.fst ↔ k ∈ es.map Prod.fst := by
  induction es using List.reverseRecOn with
  | nil => simp [createAll]
  | append_singleton es f ih => simp [createAll_concat, mem_createDataProperty, ih]

theorem nodup_createAll (es : List (String × JsValue)) :
    ((createAll es).map Prod.fst).Nodup := by
  induction es using List.reverseRecOn with
  | nil => simp [createAll]
  | append_singleton es f ih =>
      rw [createAll_concat]
      exact nodup_createDataProperty ih

/-- The last member of a name decides. -/
theorem getOwn_createAll (es : List (String × JsValue)) (k : String) :
    getOwn (createAll es) k = getOwn es.reverse k := by
  induction es using List.reverseRecOn with
  | nil => rfl
  | append_singleton es f ih => simp [createAll_concat, getOwn_createDataProperty, getOwn, ih]

theorem keys_createAll_congr (h : es.map Prod.fst = ds.map Prod.fst) :
    (createAll es).map Prod.fst = (createAll ds).map Prod.fst := by
  induction es using List.reverseRecOn generalizing ds with
  | nil =>
      obtain rfl : ds = [] := by simpa using h.symm
      rfl
  | append_singleton es f ih =>
      rcases List.eq_nil_or_concat ds with rfl | ⟨ds, g, rfl⟩
      · simp at h
      · rw [List.concat_eq_append] at h ⊢
        simp only [List.map_append, List.map_cons, List.map_nil] at h
        obtain ⟨h1, h2⟩ := List.append_inj' h rfl
        rw [createAll_concat, createAll_concat]
        exact keys_createDataProperty_congr (ih h1) (List.cons.inj h2).1

theorem createAll_eq_iff (h : es.map Prod.fst = ds.map Prod.fst) :
    createAll es = createAll ds ↔ ∀ k, getOwn es.reverse k = getOwn ds.reverse k := by
  constructor
  · intro he k
    rw [← getOwn_createAll, he, getOwn_createAll]
  · intro hl
    refine eq_of_getOwn_eq (nodup_createAll es) (keys_createAll_congr h) fun k => ?_
    rw [getOwn_createAll, getOwn_createAll, hl]

theorem getOwn_append (ps qs : List (String × JsValue)) (k : String) :
    getOwn (ps ++ qs) k = (getOwn ps k).or (getOwn qs k) := by
  induction ps with
  | nil => rfl
  | cons p ps ih => by_cases hp : p.1 = k <;> simp [getOwn, hp, ih]

theorem getOwn_isSome : (getOwn es k).isSome ↔ k ∈ es.map Prod.fst := by
  induction es with
  | nil => simp [getOwn]
  | cons e es ih =>
      by_cases he : e.1 = k
      · simp [getOwn, he]
      · simp [getOwn, he, ih, Ne.symm he]

/-- A first member counts unless a later one has its name. -/
theorem createAll_cons_eq_iff (h : es.map Prod.fst = ds.map Prod.fst) (k : String)
    (v w : JsValue) :
    createAll ((k, v) :: es) = createAll ((k, w) :: ds) ↔
      (k ∈ es.map Prod.fst ∨ v = w) ∧ createAll es = createAll ds := by
  have hmem : ∀ k', k' ∈ es.map Prod.fst → (getOwn es.reverse k').isSome ∧
      (getOwn ds.reverse k').isSome := fun k' hk' => by
    rw [getOwn_isSome, getOwn_isSome, List.map_reverse, List.map_reverse, ← h,
      List.mem_reverse]
    exact ⟨hk', hk'⟩
  have hnot : ∀ k', k' ∉ es.map Prod.fst → getOwn es.reverse k' = none ∧
      getOwn ds.reverse k' = none := fun k' hk' => by
    constructor
    · exact getOwn_eq_none (by rwa [List.map_reverse, List.mem_reverse])
    · exact getOwn_eq_none (by rwa [List.map_reverse, ← h, List.mem_reverse])
  rw [createAll_eq_iff (by simp [h]), createAll_eq_iff h]
  simp only [List.reverse_cons, getOwn_append]
  constructor
  · refine fun hl => ⟨?_, fun k' => ?_⟩
    · by_cases hk : k ∈ es.map Prod.fst
      · exact .inl hk
      · have := hl k
        rw [(hnot k hk).1, (hnot k hk).2] at this
        exact .inr (by simpa [getOwn] using this)
    · by_cases hk : k' ∈ es.map Prod.fst
      · have := hl k'
        rwa [Option.or_of_isSome (hmem k' hk).1, Option.or_of_isSome (hmem k' hk).2] at this
      · rw [(hnot k' hk).1, (hnot k' hk).2]
  · rintro ⟨hv, hl⟩ k'
    by_cases hk : k' ∈ es.map Prod.fst
    · rw [Option.or_of_isSome (hmem k' hk).1, Option.or_of_isSome (hmem k' hk).2, hl]
    · rw [hl]
      rcases hv with hv | rfl
      · have : k ≠ k' := fun he => hk (he ▸ hv)
        simp [getOwn, this]
      · rfl

/-- For `JSON.parse` every member creates a property. -/
theorem foldl_defineProperty_parse (es : List (String × JsValue)) :
    es.foldl (defineProperty false) (none, []) = (none, createAll es) := by
  induction es using List.reverseRecOn with
  | nil => rfl
  | append_singleton es f ih => simp [ih, defineProperty, createAll_concat]

theorem foldl_defineProperty_source (h : protoName ∉ es.map Prod.fst) :
    es.foldl (defineProperty true) (none, []) = (none, createAll es) := by
  induction es using List.reverseRecOn with
  | nil => rfl
  | append_singleton es f ih =>
      simp only [List.map_append, List.mem_append, not_or, List.map_cons, List.map_nil,
        List.mem_singleton] at h
      simp [ih h.1, defineProperty, createAll_concat, Ne.symm h.2]

/-- In source text no member creates a property `__proto__`. -/
theorem not_mem_foldl_defineProperty (es : List (String × JsValue)) :
    protoName ∉ (es.foldl (defineProperty true) (none, [])).2.map Prod.fst := by
  induction es using List.reverseRecOn with
  | nil => simp
  | append_singleton es f ih =>
      rw [List.foldl_append, List.foldl_cons, List.foldl_nil]
      by_cases hf : f.1 = protoName
      · simp only [defineProperty, hf, and_self, if_true]
        split <;> exact ih
      · simp only [defineProperty, hf, and_false, if_false, mem_createDataProperty, not_or]
        exact ⟨ih, Ne.symm hf⟩

end Members

/-! ## The two readings of a text -/

namespace Json

theorem keys_evaluateFields (source : Bool) (fields : List (String × Json String)) :
    (evaluateFields source fields).map Prod.fst = fields.map Prod.fst := by
  induction fields with
  | nil => rfl
  | cons f fields ih => simp [evaluateFields, ih]

/-- The two readings of an object agree if it has no member `__proto__` and the members
that count agree. -/
theorem evaluate_object_eq_iff (fields : List (String × Json String)) :
    evaluate true (.object fields) = evaluate false (.object fields) ↔
      protoName ∉ fields.map Prod.fst ∧
        createAll (evaluateFields true fields) = createAll (evaluateFields false fields) := by
  simp only [evaluate, JsValue.object.injEq, foldl_defineProperty_parse]
  by_cases h : protoName ∈ fields.map Prod.fst
  · have hsource := not_mem_foldl_defineProperty (evaluateFields true fields)
    have hparse : protoName ∈ (createAll (evaluateFields false fields)).map Prod.fst := by
      rw [mem_createAll, keys_evaluateFields]
      exact h
    constructor
    · rintro ⟨-, he⟩
      rw [he] at hsource
      exact absurd hparse hsource
    · rintro ⟨hn, -⟩
      exact absurd h hn
  · rw [foldl_defineProperty_source (by rwa [keys_evaluateFields])]
    simp [h]

mutual

theorem evaluate_eq_iff : ∀ j : Json String,
    evaluate true j = evaluate false j ↔ j.protoFree = true
  | .null | .bool _ | .number _ | .string _ => by simp [evaluate, protoFree]
  | .array xs => by
      simp only [evaluate, JsValue.array.injEq, protoFree]
      exact evaluateList_eq_iff xs
  | .object fields => by
      rw [evaluate_object_eq_iff, protoFree]
      exact evaluateFields_eq_iff fields

theorem evaluateList_eq_iff : ∀ xs : List (Json String),
    evaluateList true xs = evaluateList false xs ↔ protoFreeList xs = true
  | [] => by simp [evaluateList, protoFreeList]
  | x :: xs => by
      simp [evaluateList, protoFreeList, evaluate_eq_iff x, evaluateList_eq_iff xs]

theorem evaluateFields_eq_iff : ∀ fields : List (String × Json String),
    protoName ∉ fields.map Prod.fst ∧
        createAll (evaluateFields true fields) = createAll (evaluateFields false fields) ↔
      protoFreeFields fields = true
  | [] => by simp [evaluateFields, protoFreeFields]
  | (k, v) :: fields => by
      rw [protoFreeFields, Bool.and_eq_true, Bool.and_eq_true, ← evaluateFields_eq_iff fields,
        Bool.or_eq_true, ← evaluate_eq_iff v, evaluateFields, evaluateFields,
        createAll_cons_eq_iff (by simp [keys_evaluateFields]), keys_evaluateFields]
      simp only [List.map_cons, List.mem_cons, not_or, bne_iff_ne, decide_eq_true_eq]
      constructor
      · rintro ⟨⟨hk, hn⟩, hv, hrest⟩
        exact ⟨⟨Ne.symm hk, hv⟩, hn, hrest⟩
      · rintro ⟨⟨hk, hv⟩, hn, hrest⟩
        exact ⟨⟨Ne.symm hk, hn⟩, hv, hrest⟩

end

/-- As a part of a script a text has the value that `JSON.parse` gives it exactly if no
object has two members `__proto__` and none that counts has one. -/
theorem spliced_eq_jsonParse_iff (j : Json String) :
    j.spliced = some j.jsonParse ↔ j.duplicateProto = false ∧ j.protoFree = true := by
  rw [← evaluate_eq_iff]
  cases hd : j.duplicateProto <;> simp [spliced, jsonParse, hd]

end Json

end Wxp
