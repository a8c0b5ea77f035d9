import Mathlib.Data.List.Perm.Subperm
import Mathlib.Data.List.Nodup
import Mathlib.Data.List.ReduceOption

/-!
# Foundations — reorder buffers

Items arrive with an index, in any order, possibly more than one under the same
index. A reorder buffer passes them on in index order and keeps the rest.

* `Reorders A out buf`: what a buffer guarantees between two arrivals, where `A`
  says which item has arrived under which index, `out` is what it has passed on
  and `buf` what it keeps. The three rules are the three moves of a buffer:
  `arrive_next`, `arrive_other`, `take`.
* `ContiguousPrefix A out`: once nothing more can be taken, `out` is the longest
  contiguous run of what has arrived, from index 0 on.

The second half says which items that run consists of, for the usual shapes of
`A`: an index for every item of a sequence, with or without gaps, or an index
computed from the item.
-/

namespace Wxp

universe u

variable {μ : Type u} {A : Nat → μ → Prop} {out : List μ} {buf : Nat → Option μ}

/-- `out` is the longest run of arrived items with the indices 0, 1, 2, …. -/
structure ContiguousPrefix (A : Nat → μ → Prop) (out : List μ) : Prop where
  arrived : ∀ i m, out[i]? = some m → A i m
  longest : ∀ m, ¬ A out.length m

structure Reorders (A : Nat → μ → Prop) (out : List μ) (buf : Nat → Option μ) : Prop where
  passed : ∀ i m, out[i]? = some m → A i m
  kept : ∀ i m, buf i = some m → A i m
  covered : ∀ i m, A i m → i < out.length ∨ buf i ≠ none

namespace Reorders

theorem empty : Reorders (fun _ _ => False) ([] : List μ) fun _ => none :=
  ⟨by simp, by simp, by simp⟩

/-- An item under the index that is due is passed on at once. -/
theorem arrive_next (h : Reorders A out buf) (m : μ) :
    Reorders (fun i n => A i n ∨ (i = out.length ∧ n = m)) (out ++ [m]) buf where
  passed i n hi := by
    rcases Nat.lt_trichotomy i out.length with hlt | rfl | hgt
    · rw [List.getElem?_append_left hlt] at hi
      exact .inl (h.passed i n hi)
    · simp only [List.getElem?_concat_length, Option.some.injEq] at hi
      exact .inr ⟨rfl, hi.symm⟩
    · rw [List.getElem?_eq_none (by simp; omega)] at hi
      cases hi
  kept i n hi := .inl (h.kept i n hi)
  covered i n hi := by
    simp only [List.length_append, List.length_singleton]
    rcases hi with hi | ⟨rfl, -⟩
    · rcases h.covered i n hi with hlt | hb
      · exact .inl (by omega)
      · exact .inr hb
    · exact .inl (by omega)

/-- Any other item is kept, in the place of one under the same index. -/
theorem arrive_other (h : Reorders A out buf) (i : Nat) (m : μ) {buf' : Nat → Option μ}
    (hi : buf' i = some m) (hne : ∀ j, j ≠ i → buf' j = buf j) :
    Reorders (fun j n => A j n ∨ (j = i ∧ n = m)) out buf' where
  passed j n hj := .inl (h.passed j n hj)
  kept j n hj := by
    by_cases hji : j = i
    · subst hji
      rw [hi] at hj
      cases hj
      exact .inr ⟨rfl, rfl⟩
    · rw [hne j hji] at hj
      exact .inl (h.kept j n hj)
  covered j n hj := by
    by_cases hji : j = i
    · subst hji
      exact .inr (by simp [hi])
    · rw [hne j hji]
      rcases hj with hj | ⟨rfl, -⟩
      · exact h.covered j n hj
      · exact absurd rfl hji

/-- A kept item whose index is due is passed on. -/
theorem take (h : Reorders A out buf) {m : μ} (hm : buf out.length = some m)
    {buf' : Nat → Option μ} (hi : buf' out.length = none)
    (hne : ∀ j, j ≠ out.length → buf' j = buf j) :
    Reorders A (out ++ [m]) buf' where
  passed i n hn := by
    rcases Nat.lt_trichotomy i out.length with hlt | rfl | hgt
    · rw [List.getElem?_append_left hlt] at hn
      exact h.passed i n hn
    · simp only [List.getElem?_concat_length, Option.some.injEq] at hn
      exact hn ▸ h.kept _ _ hm
    · rw [List.getElem?_eq_none (by simp; omega)] at hn
      cases hn
  kept i n hn := by
    by_cases hio : i = out.length
    · rw [hio, hi] at hn
      cases hn
    · rw [hne i hio] at hn
      exact h.kept i n hn
  covered i n hn := by
    simp only [List.length_append, List.length_singleton]
    by_cases hio : i = out.length
    · exact .inl (by omega)
    · rw [hne i hio]
      rcases h.covered i n hn with hlt | hb
      · exact .inl (by omega)
      · exact .inr hb

theorem congr {A' : Nat → μ → Prop} (h : Reorders A out buf) (hA : ∀ i m, A i m ↔ A' i m) :
    Reorders A' out buf := by
  have : A = A' := by
    funext i m
    exact propext (hA i m)
  exact this ▸ h

theorem contiguousPrefix (h : Reorders A out buf) (hstuck : buf out.length = none) :
    ContiguousPrefix A out where
  arrived := h.passed
  longest m hm := by
    rcases h.covered _ _ hm with hlt | hb
    · omega
    · exact hb hstuck

end Reorders

/-! ## What the run consists of -/

namespace ContiguousPrefix

/-- If `f` lists what arrives under each index, the run is `f` up to its first
gap. -/
theorem map_some_eq_takeWhile {f : List (Option μ)} (hA : ∀ i m, A i m ↔ f[i]? = some (some m))
    (h : ContiguousPrefix A out) : out.map some = f.takeWhile Option.isSome := by
  induction f generalizing A out with
  | nil =>
      cases out with
      | nil => rfl
      | cons m out => simpa [hA] using h.arrived 0 m rfl
  | cons x f ih =>
      cases out with
      | nil =>
          cases x with
          | none => rfl
          | some m => exact absurd ((hA 0 m).2 rfl) (h.longest m)
      | cons m out =>
          have hx : x = some m := by simpa [hA] using h.arrived 0 m rfl
          have htail : ContiguousPrefix (fun i n => A (i + 1) n) out :=
            ⟨fun i n hi => h.arrived (i + 1) n (by simpa using hi), fun n => h.longest n⟩
          simp [hx, ih (fun i n => by simpa using hA (i + 1) n) htail]

/-- The run is everything that arrives exactly if nothing follows a gap. -/
theorem eq_reduceOption_iff {f : List (Option μ)} (hA : ∀ i m, A i m ↔ f[i]? = some (some m))
    (h : ContiguousPrefix A out) :
    out = f.reduceOption ↔ f.Pairwise fun x y => x = none → y = none := by
  have hout : out = (f.takeWhile Option.isSome).reduceOption := by
    rw [← h.map_some_eq_takeWhile hA, List.reduceOption, List.filterMap_map]
    simp
  rw [hout]
  clear hout h hA
  induction f with
  | nil => simp
  | cons x f ih =>
      cases x with
      | some m => simpa [List.reduceOption] using ih
      | none =>
          have hgap : f.reduceOption = [] ↔ ∀ y ∈ f, y = none := by
            simp [List.reduceOption, List.filterMap_eq_nil_iff]
          constructor
          · intro hnil
            have hnil : f.reduceOption = [] := by simpa using hnil.symm
            rw [hgap] at hnil
            refine List.pairwise_cons.2 ⟨fun y hy _ => hnil y hy, ?_⟩
            exact List.Pairwise.imp_of_mem (fun _ hy _ _ => hnil _ hy) (List.pairwise_of_forall
              (fun _ _ => trivial))
          · intro hp
            have hnil := hgap.2 fun y hy => (List.pairwise_cons.1 hp).1 y hy rfl
            simpa using hnil.symm

section Indexed

variable {idx : μ → Nat}

theorem map_idx (hidx : ∀ i m, A i m → idx m = i) (h : ContiguousPrefix A out) :
    out.map idx = List.range out.length := by
  refine List.ext_getElem (by simp) fun i hi _ => ?_
  simpa using hidx _ _ (h.arrived i _ (List.getElem?_eq_getElem (by simpa using hi)))

theorem nodup (hidx : ∀ i m, A i m → idx m = i) (h : ContiguousPrefix A out) : out.Nodup := by
  refine List.Nodup.of_map idx ?_
  rw [h.map_idx hidx]
  exact List.nodup_range

/-- The run is all of `sent` exactly if the indices of `sent` are 0, 1, …, each
once. -/
theorem perm_iff {sent : List μ} (hA : ∀ i m, A i m ↔ m ∈ sent ∧ idx m = i)
    (h : ContiguousPrefix A out) :
    out.Perm sent ↔ (sent.map idx).Perm (List.range sent.length) := by
  have hidx : ∀ i m, A i m → idx m = i := fun i m hm => ((hA i m).1 hm).2
  have hsub : out ⊆ sent := by
    intro m hm
    obtain ⟨i, hi⟩ := List.getElem?_of_mem hm
    exact ((hA i m).1 (h.arrived i m hi)).1
  have hsubperm : out.Subperm sent := List.subperm_of_subset (h.nodup hidx) hsub
  constructor
  · intro hp
    rw [← hp.length_eq, ← h.map_idx hidx]
    exact (hp.map idx).symm
  · intro hp
    refine hsubperm.perm_of_length_le ?_
    by_contra hlt
    have hmem : out.length ∈ sent.map idx := hp.mem_iff.2 (List.mem_range.2 (by omega))
    obtain ⟨m, hm, hi⟩ := List.mem_map.1 hmem
    exact h.longest m ((hA _ m).2 ⟨hm, hi⟩)

end Indexed

end ContiguousPrefix

end Wxp
