import Mathlib.Data.Option.Basic

/-!
# Foundations — transition systems with guarded runs

A system is a total step function on states with an explicit "not enabled"
answer, so that runs can be evaluated. Every interleaving of a concurrent
program is one action list. Two notions of run are used:

* `Reachable`: any action list;
* `ReachVia ok`: every step `s —a→ s'` of the run meets the guard `ok s a`. A
  guard speaks of the state BEFORE the step, so "the property holds in every
  run whose steps all meet the condition" is a statement about `ReachVia`.

Nothing here names the program; the systems are defined next to the code they
embed.
-/

namespace Wxp

universe u v

/-- A labelled transition system: `step s a` is the state after action `a`,
`none` where `a` is not enabled in `s`. -/
structure System (σ : Type u) (α : Type v) where
  init : σ
  step : σ → α → Option σ

namespace System

variable {σ : Type u} {α : Type v} (S : System σ α)

/-- The states reached by runs all of whose steps meet `ok`. -/
inductive ReachVia (ok : σ → α → Prop) : σ → Prop
  | init : ReachVia ok S.init
  | step {s s' : σ} {a : α} : ReachVia ok s → ok s a → S.step s a = some s' → ReachVia ok s'

/-- The states reached by any run. -/
def Reachable : σ → Prop := S.ReachVia fun _ _ => True

/-- Run a list of actions; `none` once an action is not enabled or its guard
fails. -/
def runVia (ok : σ → α → Prop) [∀ s a, Decidable (ok s a)] : σ → List α → Option σ
  | s, [] => some s
  | s, a :: as => if ok s a then (S.step s a).bind fun s' => runVia ok s' as else none

/-- Run a list of actions. -/
def run : σ → List α → Option σ := S.runVia fun _ _ => True

variable {S}

theorem ReachVia.mono {ok ok' : σ → α → Prop} (h : ∀ s a, ok s a → ok' s a) {s : σ}
    (hs : S.ReachVia ok s) : S.ReachVia ok' s := by
  induction hs with
  | init => exact .init
  | step _ hok hst ih => exact .step ih (h _ _ hok) hst

theorem ReachVia.reachable {ok : σ → α → Prop} {s : σ} (hs : S.ReachVia ok s) :
    S.Reachable s :=
  hs.mono fun _ _ _ => trivial

theorem Reachable.next {s s' : σ} {a : α} (hs : S.Reachable s) (h : S.step s a = some s') :
    S.Reachable s' :=
  ReachVia.step hs trivial h

/-- The induction rule: what holds initially and is kept by every guarded step
of a reached state holds in every reached state. -/
theorem ReachVia.invariant {ok : σ → α → Prop} {I : σ → Prop} (h0 : I S.init)
    (hs : ∀ s a s', S.ReachVia ok s → I s → ok s a → S.step s a = some s' → I s') {s : σ}
    (h : S.ReachVia ok s) : I s := by
  induction h with
  | init => exact h0
  | step hr hok hst ih => exact hs _ _ _ hr ih hok hst

theorem Reachable.invariant {I : σ → Prop} (h0 : I S.init)
    (hs : ∀ s a s', S.Reachable s → I s → S.step s a = some s' → I s') {s : σ}
    (h : S.Reachable s) : I s :=
  ReachVia.invariant h0 (fun s a s' hr hi _ hst => hs s a s' hr hi hst) h

theorem reachVia_runVia {ok : σ → α → Prop} [∀ s a, Decidable (ok s a)] {s s' : σ}
    {as : List α} (hs : S.ReachVia ok s) (h : S.runVia ok s as = some s') :
    S.ReachVia ok s' := by
  induction as generalizing s with
  | nil =>
      cases h
      exact hs
  | cons a as ih =>
      simp only [runVia] at h
      split at h
      · rename_i hok
        cases hst : S.step s a with
        | none => simp [hst] at h
        | some s₁ => exact ih (.step hs hok hst) (by simpa [hst] using h)
      · cases h

theorem run_cons (s : σ) (a : α) (as : List α) :
    S.run s (a :: as) = (S.step s a).bind fun s' => S.run s' as := by
  simp [run, runVia]

theorem run_append (s : σ) (as bs : List α) :
    S.run s (as ++ bs) = (S.run s as).bind fun s' => S.run s' bs := by
  induction as generalizing s with
  | nil => rfl
  | cons a as ih =>
      rw [List.cons_append, run_cons, run_cons]
      cases S.step s a with
      | none => rfl
      | some s₁ => exact ih s₁

/-- A guarded run is a run. -/
theorem run_of_runVia {ok : σ → α → Prop} [∀ s a, Decidable (ok s a)] {s s' : σ} {as : List α}
    (h : S.runVia ok s as = some s') : S.run s as = some s' := by
  induction as generalizing s with
  | nil => exact h
  | cons a as ih =>
      simp only [runVia] at h
      split at h
      · obtain ⟨s₁, hst, h⟩ := Option.bind_eq_some_iff.1 h
        rw [run_cons, hst]
        exact ih h
      · cases h

/-- If a guard says of each step from a state of the invariant whether it keeps a property that
is never regained, then a run keeps the property exactly if all its steps meet the guard. -/
theorem runVia_iff_of_keeps {ok : σ → α → Prop} [∀ s a, Decidable (ok s a)] {I P : σ → Prop}
    (hkeeps : ∀ s a s', I s → S.step s a = some s' → I s')
    (hstep : ∀ s a s', I s → S.step s a = some s' → (P s' ↔ P s ∧ ok s a)) {s s' : σ}
    {as : List α} (hI : I s) (h : S.run s as = some s') :
    P s' ↔ P s ∧ S.runVia ok s as = some s' := by
  induction as generalizing s with
  | nil =>
      cases h
      simp [runVia]
  | cons a as ih =>
      rw [run_cons] at h
      cases hst : S.step s a with
      | none => simp [hst] at h
      | some s₁ =>
          rw [hst] at h
          rw [ih (hkeeps s a s₁ hI hst) h, hstep s a s₁ hI hst, and_assoc]
          by_cases hok : ok s a
          · simp [runVia, hok, hst]
          · simp [runVia, hok]

/-- The same without an invariant. -/
theorem runVia_iff {ok : σ → α → Prop} [∀ s a, Decidable (ok s a)] {P : σ → Prop}
    (hstep : ∀ s a s', S.step s a = some s' → (P s' ↔ P s ∧ ok s a)) {s s' : σ} {as : List α}
    (h : S.run s as = some s') : P s' ↔ P s ∧ S.runVia ok s as = some s' :=
  runVia_iff_of_keeps (I := fun _ => True) (fun _ _ _ _ _ => trivial)
    (fun s a s' _ hst => hstep s a s' hst) trivial h

/-- A concrete run whose last state passes the test `p` reaches such a state. -/
theorem exists_reachVia {ok : σ → α → Prop} [∀ s a, Decidable (ok s a)] (as : List α)
    (p : σ → Bool) (h : (S.runVia ok S.init as).map p = some true) :
    ∃ s, S.ReachVia ok s ∧ p s = true := by
  cases hr : S.runVia ok S.init as with
  | none => simp [hr] at h
  | some s => exact ⟨s, reachVia_runVia .init hr, by simpa [hr] using h⟩

theorem exists_reachable (as : List α) (p : σ → Bool)
    (h : (S.run S.init as).map p = some true) : ∃ s, S.Reachable s ∧ p s = true :=
  exists_reachVia as p h

end System

end Wxp
