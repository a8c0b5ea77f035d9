import Mathlib.Algebra.GroupWithZero.Nat
import Mathlib.Logic.Relation

/-!
# Foundations — traversals of a graph

A traversal starts at a root and visits what it finds, each visit adding the successors of the
visited vertex to what is to be visited still. `Traverses` is its invariant: in whatever order
the vertices are visited, and whether or not a vertex is visited twice, a traversal with nothing
left to visit has visited the vertices reachable from the root, and no others.
-/

namespace Wxp

variable {α : Type*} {edge : α → α → Prop} {root a : α}
  {visited visited' todo todo' : α → Prop}

structure Traverses (edge : α → α → Prop) (root : α) (visited todo : α → Prop) : Prop where
  begun : visited root ∨ todo root
  closed : ∀ {a b}, visited a → edge a b → visited b ∨ todo b
  sound : ∀ {a}, visited a ∨ todo a → Relation.ReflTransGen edge root a

namespace Traverses

theorem start : Traverses edge root (fun _ => False) (· = root) where
  begun := .inr rfl
  closed := False.elim
  sound := by
    rintro a (h | rfl)
    · exact h.elim
    · exact .refl

/-- A vertex is visited, and its successors are to be visited. -/
theorem visit (h : Traverses edge root visited todo) (ha : todo a)
    (hv : ∀ b, visited' b ↔ visited b ∨ b = a) (hkeep : ∀ b, todo b → b = a ∨ todo' b)
    (hnew : ∀ b, edge a b → visited b ∨ todo' b) (hfrom : ∀ b, todo' b → todo b ∨ edge a b) :
    Traverses edge root visited' todo' := by
  have hmove : ∀ {b}, visited b ∨ todo b → visited' b ∨ todo' b := by
    rintro b (hb | hb)
    · exact .inl ((hv b).2 (.inl hb))
    · exact (hkeep b hb).imp_left fun hb => (hv b).2 (.inr hb)
  constructor
  · exact hmove h.begun
  · intro b c hb hc
    rcases (hv b).1 hb with hb | rfl
    · exact hmove (h.closed hb hc)
    · exact (hnew c hc).imp_left fun hc => (hv c).2 (.inl hc)
  · rintro b (hb | hb)
    · rcases (hv b).1 hb with hb | rfl
      · exact h.sound (.inl hb)
      · exact h.sound (.inr ha)
    · rcases hfrom b hb with hb | hb
      · exact h.sound (.inr hb)
      · exact (h.sound (.inr ha)).tail hb

/-- Only what is to be visited is said otherwise. -/
theorem congr (h : Traverses edge root visited todo) (ht : ∀ b, todo' b ↔ todo b) :
    Traverses edge root visited todo' := by
  obtain rfl : todo' = todo := funext fun b => propext (ht b)
  exact h

/-- A traversal that is done has visited exactly what is reachable. -/
theorem done (h : Traverses edge root visited todo) (ht : ∀ b, ¬ todo b) :
    visited a ↔ Relation.ReflTransGen edge root a := by
  refine ⟨fun ha => h.sound (.inl ha), fun ha => ?_⟩
  induction ha with
  | refl => exact h.begun.resolve_right (ht _)
  | tail _ hbc ih => exact (h.closed ih hbc).resolve_right (ht _)

end Traverses

end Wxp
