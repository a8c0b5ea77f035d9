import Mathlib.Order.Basic

/-!
# Foundations — machines that stop

A machine is a step function on states, with `none` where it stops. A machine whose steps all
take away from a weight has stopped after as many steps (`runFor_final`); what its steps keep
holds wherever it comes (`runFor_keeps`, and `runFor_keeps_of` for the steps that meet a
condition).
-/

namespace Wxp

universe u

variable {σ : Type u}

/-- The state after `n` steps, or where the machine stops before. -/
def runFor (step : σ → Option σ) : Nat → σ → σ
  | 0, s => s
  | n + 1, s =>
      match step s with
      | none => s
      | some s' => runFor step n s'

section Runs

variable {step : σ → Option σ} {s s' : σ} {n : Nat}

theorem runFor_of_final (h : step s = none) : runFor step n s = s := by
  cases n with
  | zero => rfl
  | succ n => simp only [runFor, h]

theorem runFor_of_step (h : step s = some s') : runFor step (n + 1) s = runFor step n s' := by
  simp only [runFor, h]

/-- The last step of a run. -/
theorem runFor_succ (h : step (runFor step n s) = some s') : runFor step (n + 1) s = s' := by
  induction n generalizing s with
  | zero => exact runFor_of_step h
  | succ n ih =>
      cases hs : step s with
      | none =>
          rw [runFor_of_final hs, hs] at h
          cases h
      | some s₁ =>
          rw [runFor_of_step hs] at h ⊢
          exact ih h

theorem runFor_succ_of_final (h : step (runFor step n s) = none) :
    runFor step (n + 1) s = runFor step n s := by
  induction n generalizing s with
  | zero => exact runFor_of_final h
  | succ n ih =>
      cases hs : step s with
      | none => rw [runFor_of_final hs, runFor_of_final hs]
      | some s₁ =>
          rw [runFor_of_step hs] at h
          rw [runFor_of_step hs, runFor_of_step hs]
          exact ih h

theorem runFor_of_le {m : Nat} (h : step (runFor step n s) = none) (hm : n ≤ m) :
    runFor step m s = runFor step n s := by
  induction hm with
  -- Beyond the stop the run stays where it is.
  | refl => rfl
  | step _ ih => rw [runFor_succ_of_final (ih ▸ h), ih]

/-- What the steps that meet `ok` keep holds wherever a run of such steps comes. -/
theorem runFor_keeps_of {I ok : σ → Prop} (hI : ∀ s s', I s → ok s → step s = some s' → I s')
    (hok : ∀ n, ok (runFor step n s)) (h : I s) (n : Nat) : I (runFor step n s) := by
  induction n with
  | zero => exact h
  | succ n ih =>
      cases hs : step (runFor step n s) with
      | none => rwa [runFor_succ_of_final hs]
      | some s' => exact runFor_succ hs ▸ hI _ _ ih (hok n) hs

/-- What every step keeps holds wherever a run comes. -/
theorem runFor_keeps {I : σ → Prop} (hI : ∀ s s', I s → step s = some s' → I s') (h : I s)
    (n : Nat) : I (runFor step n s) :=
  runFor_keeps_of (fun s s' hs (_ : True) => hI s s' hs) (fun _ => trivial) h n

variable {weight : σ → Nat} (hweight : ∀ s s', step s = some s' → weight s' < weight s)

include hweight in
theorem runFor_final (h : weight s ≤ n) : step (runFor step n s) = none := by
  induction n generalizing s with
  | zero =>
      cases hs : step s with
      | none => exact hs
      | some s' =>
          have := hweight s s' hs
          omega
  | succ n ih =>
      cases hs : step s with
      | none => rwa [runFor_of_final hs]
      | some s' =>
          have := hweight s s' hs
          rw [runFor_of_step hs]
          exact ih (by omega)

end Runs

end Wxp
