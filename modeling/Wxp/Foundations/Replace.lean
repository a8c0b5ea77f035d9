import Mathlib.Data.List.Infix
import Mathlib.Data.List.Flatten

/-!
# Foundations — replacing the matches of a pattern

`replace a b u` puts `b` in the place of every match of `a` in `u`: the text is read
from the left, and the search goes on behind each match. This is `str::replace` for a
pattern that is not empty.

Replacing `a` by `b` and then `b` by `a` gives the text back exactly if the text has no
copy of `b` to begin with (`replace_replace_iff`). Two things can go wrong on the way:
a copy of `b` can arise across the border of an inserted `b` (not if `b` is
`Unbordered`), and a copy that was there can be lost because a match of `a` takes a part
of it (not if neither begins inside the other, `NotWithin`).
-/

namespace Wxp

variable {α : Type*}

/-- The text of tokens, with `b` for the matches. -/
def untokens (b : List α) (ts : List (Option α)) : List α :=
  ts.flatMap fun t => t.elim b fun x => [x]

section Definitions

variable [DecidableEq α]

/-- The text as tokens: `none` for a match of `a`, `some x` for an element outside the
matches. The first argument counts the elements of the last match still to be passed. -/
def tokensFrom (a : List α) : Nat → List α → List (Option α)
  | _, [] => []
  | n + 1, _ :: xs => tokensFrom a n xs
  | 0, x :: xs =>
      if a <+: x :: xs then none :: tokensFrom a (a.length - 1) xs
      else some x :: tokensFrom a 0 xs

def tokens (a : List α) : List α → List (Option α) := tokensFrom a 0

/-- `str::replace` with the pattern `a` that is not empty. -/
def replace (a b u : List α) : List α := untokens b (tokens a u)

/-- The number of matches of `a`. -/
def matchCount (a u : List α) : Nat := (tokens a u).count none

end Definitions

/-- No proper part at the end of `b` is also at its beginning. -/
def Unbordered (b : List α) : Prop :=
  ∀ s, s ≠ [] → s <:+ b → s <+: b → s = b

/-- No copy of `b`, whole or cut off by the end of `a`, begins inside `a`. -/
def NotWithin (a b : List α) : Prop :=
  ∀ s, s ≠ [] → s <:+ a → ¬ s <+: b ∧ ¬ b <+: s

theorem NotWithin.tail {x : α} {a b : List α} (h : NotWithin (x :: a) b) : NotWithin a b :=
  fun s hs hsa => h s hs (hsa.trans (List.suffix_cons x a))

theorem NotWithin.not_prefix_append {x : α} {a b : List α} (h : NotWithin (x :: a) b)
    (u : List α) : ¬ b <+: x :: (a ++ u) := by
  intro hp
  have hab := h (x :: a) (List.cons_ne_nil x a) List.suffix_rfl
  obtain hb | ha := List.prefix_or_prefix_of_prefix hp (List.prefix_append (x :: a) u)
  · exact hab.2 hb
  · exact hab.1 ha

@[simp] theorem untokens_nil (b : List α) : untokens b [] = [] := rfl

@[simp] theorem untokens_none (b : List α) (ts : List (Option α)) :
    untokens b (none :: ts) = b ++ untokens b ts := by
  simp [untokens]

@[simp] theorem untokens_some (b : List α) (x : α) (ts : List (Option α)) :
    untokens b (some x :: ts) = x :: untokens b ts := by
  simp [untokens]

/-! ## Tokens -/

variable [DecidableEq α]

theorem tokensFrom_eq_drop (a : List α) (n : Nat) (u : List α) :
    tokensFrom a n u = tokensFrom a 0 (u.drop n) := by
  induction u generalizing n with
  | nil => cases n <;> rfl
  | cons x xs ih =>
      cases n with
      | zero => rfl
      | succ n => simpa [tokensFrom] using ih n

@[simp] theorem tokens_nil (a : List α) : tokens a [] = [] := rfl

theorem tokens_self_append {a : List α} (ha : a ≠ []) (u : List α) :
    tokens a (a ++ u) = none :: tokens a u := by
  cases a with
  | nil => exact absurd rfl ha
  | cons x xs =>
      have hm : x :: xs <+: x :: (xs ++ u) := List.prefix_append (x :: xs) u
      have hd : (xs ++ u).drop ((x :: xs).length - 1) = u := by simp
      rw [tokens, List.cons_append, tokensFrom, if_pos hm, tokensFrom_eq_drop, hd]

theorem tokens_cons {a : List α} {x : α} {xs : List α} (h : ¬ a <+: x :: xs) :
    tokens a (x :: xs) = some x :: tokens a xs := by
  rw [tokens, tokensFrom, if_neg h]

/-- The induction of the search: a match and what is behind it, or one element outside
the matches. -/
theorem scan_induction {a : List α} (ha : a ≠ []) {motive : List α → Prop} (nil : motive [])
    (found : ∀ u, motive u → motive (a ++ u))
    (pass : ∀ x xs, ¬ a <+: x :: xs → motive xs → motive (x :: xs)) (u : List α) :
    motive u := by
  induction hn : u.length using Nat.strong_induction_on generalizing u with
  | _ n ih =>
      cases u with
      | nil => exact nil
      | cons x xs =>
          by_cases hm : a <+: x :: xs
          · obtain ⟨v, hv⟩ := hm
            have hl : v.length < n := by
              have h0 := List.length_pos_iff.2 ha
              have h1 := congrArg List.length hv
              rw [List.length_append] at h1
              omega
            rw [← hv]
            exact found v (ih _ hl v rfl)
          · have hl : xs.length < n := by
              rw [← hn]
              exact Nat.lt_succ_self _
            exact pass x xs hm (ih _ hl xs rfl)

/-- What stands between the matches stays. -/
theorem untokens_tokens {a : List α} (ha : a ≠ []) (u : List α) :
    untokens a (tokens a u) = u := by
  induction u using scan_induction ha with
  | nil => rfl
  | found u ih => rw [tokens_self_append ha, untokens_none, ih]
  | pass x xs hm ih => rw [tokens_cons hm, untokens_some, ih]

theorem length_untokens (b : List α) (ts : List (Option α)) :
    (untokens b ts).length + ts.count none = ts.length + ts.count none * b.length := by
  induction ts with
  | nil => simp
  | cons t ts ih =>
      cases t with
      | none =>
          have h : (ts.count none + 1) * b.length = ts.count none * b.length + b.length :=
            Nat.succ_mul _ _
          simp only [untokens_none, List.length_append, List.count_cons_self, List.length_cons]
          omega
      | some x =>
          simp only [untokens_some, List.length_cons, List.count_cons_of_ne (Option.some_ne_none x)]
          omega

/-! ## Replacing -/

@[simp] theorem replace_nil (a b : List α) : replace a b [] = [] := rfl

theorem replace_self_append {a : List α} (ha : a ≠ []) (b u : List α) :
    replace a b (a ++ u) = b ++ replace a b u := by
  rw [replace, tokens_self_append ha, untokens_none, replace]

theorem replace_cons {a : List α} (b : List α) {x : α} {xs : List α} (h : ¬ a <+: x :: xs) :
    replace a b (x :: xs) = x :: replace a b xs := by
  rw [replace, tokens_cons h, untokens_some, replace]

@[simp] theorem matchCount_nil (a : List α) : matchCount a [] = 0 := rfl

theorem matchCount_self_append {a : List α} (ha : a ≠ []) (u : List α) :
    matchCount a (a ++ u) = matchCount a u + 1 := by
  rw [matchCount, tokens_self_append ha, List.count_cons_self, matchCount]

theorem matchCount_cons {a : List α} {x : α} {xs : List α} (h : ¬ a <+: x :: xs) :
    matchCount a (x :: xs) = matchCount a xs := by
  rw [matchCount, tokens_cons h, List.count_cons_of_ne (Option.some_ne_none x), matchCount]

theorem matchCount_eq_zero_iff {a : List α} (ha : a ≠ []) (u : List α) :
    matchCount a u = 0 ↔ ¬ a <:+: u := by
  induction u using scan_induction ha with
  | nil => simp [ha]
  | found u _ =>
      rw [matchCount_self_append ha]
      have h : a <:+: a ++ u := (List.prefix_append a u).isInfix
      simp [h]
  | pass x xs hm ih => rw [matchCount_cons hm, ih, List.infix_cons_iff, or_iff_right hm]

/-- Each match makes the text longer by the difference of the two patterns. -/
theorem length_replace {a : List α} (ha : a ≠ []) (b u : List α) :
    (replace a b u).length + matchCount a u * a.length =
      u.length + matchCount a u * b.length := by
  have hu := length_untokens a (tokens a u)
  have hr := length_untokens b (tokens a u)
  rw [untokens_tokens ha] at hu
  simp only [replace, matchCount]
  omega

/-- What begins the text after replacing began it before, up to an inserted `b`. -/
theorem prefix_replace {a b c u : List α} (ha : a ≠ []) (h : c <+: replace a b u) :
    c <+: u ∨ ∃ c₁ c₂, c = c₁ ++ c₂ ∧ c₂ ≠ [] ∧ (c₂ <+: b ∨ b <+: c₂) := by
  induction u using scan_induction ha generalizing c with
  | nil => exact .inl h
  | found u _ =>
      rw [replace_self_append ha] at h
      by_cases hc : c = []
      · subst hc
        exact .inl List.nil_prefix
      · exact .inr ⟨[], c, rfl, hc, List.prefix_or_prefix_of_prefix h (List.prefix_append _ _)⟩
  | pass x xs hm ih =>
      rw [replace_cons b hm] at h
      cases c with
      | nil => exact .inl List.nil_prefix
      | cons y c =>
          obtain ⟨rfl, hc⟩ := List.cons_prefix_cons.1 h
          obtain hp | ⟨c₁, c₂, rfl, hne, hb⟩ := ih hc
          · exact .inl (List.cons_prefix_cons.2 ⟨rfl, hp⟩)
          · exact .inr ⟨y :: c₁, c₂, rfl, hne, hb⟩

/-- Behind an element outside the matches, an unbordered `b` begins after replacing only
where it began before. -/
theorem not_prefix_cons_replace {a b : List α} (ha : a ≠ []) (hb : Unbordered b) {x : α}
    {xs : List α} (h : ¬ b <+: x :: xs) : ¬ b <+: x :: replace a b xs := by
  intro hp
  cases b with
  | nil => exact h List.nil_prefix
  | cons y c =>
      obtain ⟨rfl, hc⟩ := List.cons_prefix_cons.1 hp
      obtain hxs | ⟨c₁, c₂, rfl, hne, hborder⟩ := prefix_replace ha hc
      · exact h (List.cons_prefix_cons.2 ⟨rfl, hxs⟩)
      · -- `c₂` is a proper end of `b`, so it must not begin `b`
        have hlt : c₂.length < (y :: (c₁ ++ c₂)).length := by
          rw [List.length_cons, List.length_append]
          omega
        have hsuffix : c₂ <:+ y :: (c₁ ++ c₂) := ⟨y :: c₁, rfl⟩
        obtain hpre | hpre := hborder
        · have heq := congrArg List.length (hb c₂ hne hsuffix hpre)
          omega
        · have hle := hpre.length_le
          omega

/-- Replacing back is right where the text had no copy of `b`. -/
theorem replace_replace {a b u : List α} (ha : a ≠ []) (hb : b ≠ []) (hub : Unbordered b)
    (h : ¬ b <:+: u) : replace b a (replace a b u) = u := by
  induction u using scan_induction ha with
  | nil => rfl
  | found u ih =>
      have hu : ¬ b <:+: u := fun hi => h (hi.trans (List.suffix_append a u).isInfix)
      rw [replace_self_append ha, replace_self_append hb, ih hu]
  | pass x xs hm ih =>
      rw [List.infix_cons_iff, not_or] at h
      rw [replace_cons b hm, replace_cons a (not_prefix_cons_replace ha hub h.1), ih h.2]

/-! ## Patterns that stay apart -/

theorem NotWithin.tokens_append {a b : List α} (h : NotWithin a b) (u : List α) :
    tokens b (a ++ u) = a.map some ++ tokens b u := by
  induction a with
  | nil => rfl
  | cons x xs ih =>
      rw [List.cons_append, tokens_cons (h.not_prefix_append u), ih h.tail]
      rfl

theorem NotWithin.replace_append {a b : List α} (h : NotWithin a b) (c u : List α) :
    replace b c (a ++ u) = a ++ replace b c u := by
  have hmap : ∀ v : List α, untokens c (v.map some ++ tokens b u) = v ++ replace b c u := by
    intro v
    induction v with
    | nil => rfl
    | cons x xs ih => simp [ih]
  rw [replace, h.tokens_append, hmap]

theorem NotWithin.matchCount_append {a b : List α} (h : NotWithin a b) (u : List α) :
    matchCount b (a ++ u) = matchCount b u := by
  have hmap : (a.map some).count none = 0 := List.count_eq_zero.2 (by simp)
  rw [matchCount, h.tokens_append, List.count_append, hmap, Nat.zero_add, matchCount]

/-- The copies of `b` after replacing: those inserted, and those that were there. -/
theorem matchCount_replace {a b : List α} (ha : a ≠ []) (hb : b ≠ []) (hub : Unbordered b)
    (hab : NotWithin a b) (hba : NotWithin b a) (u : List α) :
    matchCount b (replace a b u) = matchCount a u + matchCount b u := by
  induction hn : u.length using Nat.strong_induction_on generalizing u with
  | _ n ih =>
      have hrest : ∀ v, v.length < u.length →
          matchCount b (replace a b v) = matchCount a v + matchCount b v :=
        fun v hv => ih v.length (hn ▸ hv) v rfl
      by_cases hma : a <+: u
      · obtain ⟨v, rfl⟩ := hma
        have hl : v.length < (a ++ v).length := by
          simpa using List.length_pos_iff.2 ha
        rw [replace_self_append ha, matchCount_self_append hb, matchCount_self_append ha,
          hab.matchCount_append, hrest v hl]
        omega
      · by_cases hmb : b <+: u
        · obtain ⟨v, rfl⟩ := hmb
          have hl : v.length < (b ++ v).length := by
            simpa using List.length_pos_iff.2 hb
          rw [hba.replace_append, hba.matchCount_append, matchCount_self_append hb,
            matchCount_self_append hb, hrest v hl, Nat.add_assoc]
        · cases u with
          | nil => rfl
          | cons x xs =>
              rw [replace_cons b hma, matchCount_cons (not_prefix_cons_replace ha hub hmb),
                matchCount_cons hma, matchCount_cons hmb, hrest xs (Nat.lt_succ_self _)]

/-- Replacing `a` by `b` can be undone exactly on the texts that have no copy of `b`. -/
theorem replace_replace_iff {a b : List α} (ha : a ≠ []) (hb : b ≠ []) (hub : Unbordered b)
    (hab : NotWithin a b) (hba : NotWithin b a) (hlen : a.length ≠ b.length) (u : List α) :
    replace b a (replace a b u) = u ↔ ¬ b <:+: u := by
  refine ⟨fun h => ?_, replace_replace ha hb hub⟩
  have h₁ := length_replace ha b u
  have h₂ := length_replace hb a (replace a b u)
  rw [h, matchCount_replace ha hb hub hab hba u] at h₂
  have h₃ : matchCount b u * a.length = matchCount b u * b.length := by
    have e₁ : (matchCount a u + matchCount b u) * a.length =
        matchCount a u * a.length + matchCount b u * a.length := Nat.add_mul _ _ _
    have e₂ : (matchCount a u + matchCount b u) * b.length =
        matchCount a u * b.length + matchCount b u * b.length := Nat.add_mul _ _ _
    omega
  rw [← matchCount_eq_zero_iff hb]
  obtain h0 | h0 := Nat.eq_zero_or_pos (matchCount b u)
  · exact h0
  · exact absurd (Nat.eq_of_mul_eq_mul_left h0 h₃) hlen

end Wxp
