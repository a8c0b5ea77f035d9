import Mathlib.Algebra.GroupWithZero.Nat
import Mathlib.Data.List.Perm.Basic

/-!
# Foundations — lists

Tables kept as lists: a row is added at the end, changed in its place
(`List.modify`) or taken out (`List.eraseIdx`). Histories kept as lists: `c` comes
before `d` in `l` when `[c, d].Sublist l`.
-/

namespace Wxp

universe u

variable {α : Type u} {l : List α} {f : α → α} {i j k : Nat} {a x : α}

theorem map_modify_eq {β : Type u} {g : α → β} (hg : ∀ a, g (f a) = g a) (l : List α) (i : Nat) :
    (l.modify i f).map g = l.map g := by
  refine List.ext_getElem? fun j => ?_
  rw [List.getElem?_map, List.getElem?_map, List.getElem?_modify]
  cases l[j]? with
  | none => rfl
  | some a =>
      by_cases hij : i = j
      · simp [hij, hg]
      · simp [hij]

theorem countP_modify {p : α → Bool} (ha : l[i]? = some a) (hp : p a = true)
    (hf : p (f a) = false) :
    (l.modify i f).countP p + 1 = l.countP p := by
  induction l generalizing i with
  | nil => cases ha
  | cons b l ih =>
      cases i with
      | zero =>
          cases ha
          simp [hp, hf]
      | succ i =>
          have ha : l[i]? = some a := by simpa using ha
          have hl := ih ha
          simp only [List.modify_succ_cons, List.countP_cons]
          omega

theorem sum_modify (w : α → Nat) (ha : l[i]? = some a) :
    ((l.modify i f).map w).sum + w a = (l.map w).sum + w (f a) := by
  induction l generalizing i with
  | nil => cases ha
  | cons b l ih =>
      cases i with
      | zero =>
          cases ha
          simp only [List.modify_zero_cons, List.map_cons, List.sum_cons]
          omega
      | succ i =>
          have hl := ih (by simpa using ha)
          simp only [List.modify_succ_cons, List.map_cons, List.sum_cons]
          omega

/-- Taking the element at `i` out of the list. -/
theorem perm_eraseIdx (h : l[i]? = some a) :
    (a :: l.eraseIdx i).Perm l := by
  obtain ⟨hi, rfl⟩ := List.getElem?_eq_some_iff.1 h
  exact List.getElem_cons_eraseIdx_perm hi

theorem getElem?_append_new (h : (l ++ [x])[k]? = some a) :
    l[k]? = some a ∨ (k = l.length ∧ a = x) := by
  rcases Nat.lt_trichotomy k l.length with hlt | rfl | hgt
  · rw [List.getElem?_append_left hlt] at h
    exact .inl h
  · simp only [List.getElem?_concat_length, Option.some.injEq] at h
    exact .inr ⟨rfl, h.symm⟩
  · rw [List.getElem?_eq_none (by simp; omega)] at h
    cases h

theorem getElem?_append_of_some (h : l[k]? = some a) (l' : List α) :
    (l ++ l')[k]? = some a := by
  rw [List.getElem?_append_left (List.getElem?_eq_some_iff.1 h).1]
  exact h

theorem modify_of_ne (h : j ≠ k) :
    (l.modify k f)[j]? = l[j]? :=
  List.getElem?_modify_ne _ _ (Ne.symm h)

theorem mem_modify (h : x ∈ l.modify k f) : x ∈ l ∨ ∃ y, l[k]? = some y ∧ x = f y := by
  obtain ⟨j, hj⟩ := List.getElem?_of_mem h
  by_cases hjk : j = k
  · subst hjk
    simp only [List.getElem?_modify_eq, Option.map_eq_map, Option.map_eq_some_iff] at hj
    obtain ⟨y, hy, rfl⟩ := hj
    exact .inr ⟨y, hy, rfl⟩
  · rw [modify_of_ne hjk] at hj
    exact .inl (List.mem_of_getElem? hj)

/-! ## One element before another -/

variable {l' : List α} {c d : α}

theorem before_append (hc : c ∈ l) (hd : d ∈ l') : [c, d].Sublist (l ++ l') :=
  (List.singleton_sublist.2 hc).append (List.singleton_sublist.2 hd)

theorem before_of_append (h : [c, d].Sublist (l ++ l')) (hd : d ∉ l') : [c, d].Sublist l := by
  obtain ⟨l₁, l₂, he, h₁, h₂⟩ := List.sublist_append_iff.1 h
  rcases List.eq_nil_or_concat l₂ with rfl | ⟨l₃, x, rfl⟩
  · rwa [he, List.append_nil]
  · have hx : x = d := by simpa using congrArg List.getLast? he.symm
    exact absurd (h₂.subset (by simp [hx])) hd

/-- Without repetition nothing that comes after `d` comes before it. -/
theorem not_before (hn : (l ++ d :: l').Nodup) (hc : c ∈ l') :
    ¬ [c, d].Sublist (l ++ d :: l') := by
  intro h
  have hsplit : l ++ d :: l' = (l ++ [d]) ++ l' := by simp
  rw [hsplit] at hn h
  have hd : d ∉ l' := fun hd => (List.nodup_append.1 hn).2.2 d (by simp) d hd rfl
  have hc' := (before_of_append h hd).subset (List.mem_cons_self (a := c))
  exact (List.nodup_append.1 hn).2.2 c hc' c hc rfl

end Wxp
