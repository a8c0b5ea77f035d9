import Mathlib.Data.List.Basic

/-!
# Foundations — reading unsigned decimal numbers

What a fixed-width unsigned type takes from a text: an optional plus sign, then digits,
at least one, and no step of the accumulation may reach the bound. A leading zero and the
sign are read and not written, so reading undoes writing and not the other way round
(`readUnsigned_eq_some`, `readUnsigned_toDigits`).
-/

namespace Wxp

/-- Take up the digits one by one; the product and the sum may each overflow. -/
def readDigits (bound : Nat) : Nat → List Char → Option Nat
  | n, [] => some n
  | n, c :: cs =>
      if c.isDigit ∧ 10 * n < bound ∧ 10 * n + (c.toNat - '0'.toNat) < bound then
        readDigits bound (10 * n + (c.toNat - '0'.toNat)) cs
      else none

/-- Read a text; a sign needs digits after it. -/
def readUnsigned (bound : Nat) : List Char → Option Nat
  | [] => none
  | '+' :: [] => none
  | '+' :: c :: cs => readDigits bound 0 (c :: cs)
  | c :: cs => readDigits bound 0 (c :: cs)

theorem le_ofDigitChars (n : Nat) (cs : List Char) : n ≤ Nat.ofDigitChars 10 cs n := by
  induction cs generalizing n with
  | nil => simp
  | cons c cs ih =>
      rw [Nat.ofDigitChars_cons]
      have hle := ih (10 * n + (c.toNat - '0'.toNat))
      omega

theorem readDigits_eq_some {bound : Nat} {cs : List Char} {n m : Nat} (hn : n < bound) :
    readDigits bound n cs = some m ↔
      (∀ c ∈ cs, c.isDigit = true) ∧ Nat.ofDigitChars 10 cs n = m ∧ m < bound := by
  induction cs generalizing n with
  | nil =>
      simp only [readDigits, Option.some.injEq, Nat.ofDigitChars_nil, List.not_mem_nil]
      constructor
      · rintro rfl
        exact ⟨fun _ h => absurd h id, rfl, hn⟩
      · exact fun h => h.2.1
  | cons c cs ih =>
      have hle := le_ofDigitChars (10 * n + (c.toNat - '0'.toNat)) cs
      rw [readDigits, Nat.ofDigitChars_cons, List.forall_mem_cons]
      constructor
      · intro h
        split at h
        · next hc =>
            obtain ⟨hcs, hm⟩ := (ih hc.2.2).1 h
            exact ⟨⟨hc.1, hcs⟩, hm⟩
        · cases h
      · rintro ⟨⟨hc, hcs⟩, rfl, hm⟩
        have hsum : 10 * n + (c.toNat - '0'.toNat) < bound := by omega
        rw [if_pos ⟨hc, by omega, hsum⟩]
        exact (ih hsum).2 ⟨hcs, rfl, hm⟩

theorem readUnsigned_cons {bound : Nat} {c : Char} {cs : List Char} (h : c ≠ '+') :
    readUnsigned bound (c :: cs) = readDigits bound 0 (c :: cs) := by
  unfold readUnsigned
  split
  · next heq => cases heq
  · next heq =>
      cases heq
      exact absurd rfl h
  · next heq =>
      cases heq
      exact absurd rfl h
  · next heq =>
      cases heq
      rfl

/-- The texts that are read, and as what. -/
theorem readUnsigned_eq_some {bound : Nat} (hb : 0 < bound) {s : List Char} {n : Nat} :
    readUnsigned bound s = some n ↔ ∃ ds, ds ≠ [] ∧ (s = ds ∨ s = '+' :: ds) ∧
      (∀ c ∈ ds, c.isDigit = true) ∧ Nat.ofDigitChars 10 ds 0 = n ∧ n < bound := by
  constructor
  · intro h
    cases s with
    | nil => cases h
    | cons c cs =>
        by_cases hc : c = '+'
        · subst hc
          cases cs with
          | nil => cases h
          | cons d ds => exact ⟨d :: ds, by simp, .inr rfl, (readDigits_eq_some hb).1 h⟩
        · rw [readUnsigned_cons hc] at h
          exact ⟨c :: cs, by simp, .inl rfl, (readDigits_eq_some hb).1 h⟩
  · rintro ⟨ds, hne, rfl | rfl, hds⟩
    · cases s with
      | nil => exact absurd rfl hne
      | cons c cs =>
          have hc : c ≠ '+' := by
            rintro rfl
            have hdigit := hds.1 '+' List.mem_cons_self
            cases hdigit
          rw [readUnsigned_cons hc]
          exact (readDigits_eq_some hb).2 hds
    · cases ds with
      | nil => exact absurd rfl hne
      | cons c cs => exact (readDigits_eq_some hb).2 hds

/-- What is written is read back if it is within the bound, and else not read. -/
theorem readUnsigned_toDigits {bound : Nat} (hb : 0 < bound) (n : Nat) :
    readUnsigned bound (Nat.toDigits 10 n) = if n < bound then some n else none := by
  have hdigits : ∀ c ∈ Nat.toDigits 10 n, c.isDigit = true :=
    fun c hc => Nat.isDigit_of_mem_toDigits (by decide) (by decide) hc
  split
  · next hn =>
      rw [readUnsigned_eq_some hb]
      exact ⟨_, Nat.toDigits_ne_nil, .inl rfl, hdigits, Nat.ofDigitChars_ten_toDigits, hn⟩
  · next hn =>
      rw [Option.eq_none_iff_forall_ne_some]
      intro m hm
      obtain ⟨ds, -, hs, hds, hval, hlt⟩ := (readUnsigned_eq_some hb).1 hm
      obtain rfl | hs := hs
      · rw [Nat.ofDigitChars_ten_toDigits] at hval
        omega
      · have hplus := hdigits '+' (by rw [hs]; exact List.mem_cons_self)
        cases hplus

end Wxp
