import Wxp.Foundations.System

/-!
# Foundations — forward simulations

A system simulates another one when each of its steps is matched by a run of the other,
of the labels of that step. The steps may be taken under a guard, and from states of an
invariant that is proved separately. Then every run is matched by a run of all its
labels, and what the relation says holds of the states that are reached
(`Simulation.run`).
-/

namespace Wxp

universe u v u' v'

variable {σ : Type u} {α : Type v} {τ : Type u'} {β : Type v'}

/-- The labels of a run of `C` from `s`, with those of a step given by `label`. -/
def System.labels (C : System σ α) (label : σ → α → List β) : σ → List α → List β
  | _, [] => []
  | s, a :: as => label s a ++ (C.step s a).elim [] fun s' => C.labels label s' as

/-- `C` under the guard `ok` is simulated by `A`. -/
structure Simulation (C : System σ α) (A : System τ β) (ok : σ → α → Prop) where
  /-- The steps of `C` in terms of `A`. -/
  label : σ → α → List β
  rel : σ → τ → Prop
  init : rel C.init A.init
  step : ∀ {s t a s'}, C.ReachVia ok s → rel s t → ok s a → C.step s a = some s' →
    ∃ t', A.run t (label s a) = some t' ∧ rel s' t'

namespace Simulation

variable {C : System σ α} {A : System τ β} {ok : σ → α → Prop} (S : Simulation C A ok)

/-- The run rule, from any reached state. -/
theorem run_of_rel [∀ s a, Decidable (ok s a)] {s s' : σ} {t : τ} {as : List α}
    (hs : C.ReachVia ok s) (h : S.rel s t) (hrun : C.runVia ok s as = some s') :
    ∃ t', A.run t (C.labels S.label s as) = some t' ∧ S.rel s' t' := by
  induction as generalizing s t with
  | nil =>
      cases hrun
      exact ⟨t, rfl, h⟩
  | cons a as ih =>
      simp only [System.runVia] at hrun
      split at hrun
      · next hok =>
          obtain ⟨s₁, hst, hrun⟩ := Option.bind_eq_some_iff.1 hrun
          obtain ⟨t₁, ht, h₁⟩ := S.step hs h hok hst
          obtain ⟨t', ht', h'⟩ := ih (.step hs hok hst) h₁ hrun
          refine ⟨t', ?_, h'⟩
          rw [System.labels, hst, System.run_append, ht]
          exact ht'
      · cases hrun

theorem run [∀ s a, Decidable (ok s a)] {s' : σ} {as : List α}
    (hrun : C.runVia ok C.init as = some s') :
    ∃ t', A.run A.init (C.labels S.label C.init as) = some t' ∧ S.rel s' t' :=
  S.run_of_rel .init S.init hrun

end Simulation

/-- Where the labels of a step do not depend on the state, those of a run are the labels
of its actions. -/
theorem System.labels_eq_flatMap {C : System σ α} {label : α → List β} {s s' : σ} {as : List α}
    (h : C.run s as = some s') : C.labels (fun _ => label) s as = as.flatMap label := by
  induction as generalizing s with
  | nil => rfl
  | cons a as ih =>
      rw [System.run_cons] at h
      obtain ⟨s₁, hst, h⟩ := Option.bind_eq_some_iff.1 h
      rw [System.labels, hst, List.flatMap_cons]
      exact congrArg _ (ih h)

end Wxp
