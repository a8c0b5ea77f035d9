import Mathlib.Data.List.Basic

/-!
# Foundations — percent-encoding

How a name becomes a segment of a URL path: a character stands for itself, or for the bytes of
its UTF-8 encoding, each as `%` and two hexadecimal digits. Which characters stand for themselves
is a parameter, as the encoders in use differ in it; `/` and `%` never do.

A name is its own encoding exactly if all of its characters stand for themselves
(`encode_eq_self_iff`), and an encoding has no slash (`slash_not_mem_encode`).
-/

namespace Wxp

/-- The characters of a URI that no encoder has to encode. -/
def isUnreserved (c : Char) : Bool :=
  c.isAlphanum || c == '-' || c == '.' || c == '_' || c == '~'

structure SegmentEncoding where
  /-- The character stands for itself. -/
  keeps : Char → Bool
  unreserved : ∀ c, isUnreserved c = true → keeps c = true
  percent : keeps '%' = false
  slash : keeps '/' = false

namespace SegmentEncoding

def hexDigit (n : Nat) : Char := if n < 10 then Char.ofNat (48 + n) else Char.ofNat (55 + n)

def encodeByte (b : UInt8) : List Char := ['%', hexDigit (b.toNat / 16), hexDigit (b.toNat % 16)]

def encodeChar (E : SegmentEncoding) (c : Char) : List Char :=
  if E.keeps c then [c] else (String.utf8EncodeChar c).flatMap encodeByte

def encode (E : SegmentEncoding) (n : List Char) : List Char := n.flatMap E.encodeChar

variable {E : SegmentEncoding} {c : Char} {n : List Char}

theorem hexDigit_ne_slash : ∀ k < 16, hexDigit k ≠ '/' := by decide

theorem slash_not_mem_encodeByte (b : UInt8) : '/' ∉ encodeByte b := by
  have hb : b.toNat < 256 := b.toNat_lt
  have hhi := hexDigit_ne_slash (b.toNat / 16) (by omega)
  have hlo := hexDigit_ne_slash (b.toNat % 16) (by omega)
  simp [encodeByte, hhi.symm, hlo.symm]

theorem slash_not_mem_encode : '/' ∉ E.encode n := by
  intro hmem
  obtain ⟨c, -, hc⟩ := List.mem_flatMap.1 hmem
  unfold encodeChar at hc
  split at hc
  · rename_i hkeeps
    rw [← List.mem_singleton.1 hc, E.slash] at hkeeps
    cases hkeeps
  · obtain ⟨b, -, hb⟩ := List.mem_flatMap.1 hc
    exact slash_not_mem_encodeByte b hb

theorem encode_of_keeps (h : ∀ c ∈ n, E.keeps c = true) : E.encode n = n := by
  induction n with
  | nil => rfl
  | cons c n ih =>
      rw [encode, List.flatMap_cons, encodeChar, if_pos (h c List.mem_cons_self)]
      exact congrArg (c :: ·) (ih fun d hd => h d (List.mem_cons_of_mem c hd))

/-- An encoded character takes three at least. -/
theorem three_le_encodeChar (h : E.keeps c = false) : 3 ≤ (E.encodeChar c).length := by
  obtain ⟨b, bs, hb⟩ := List.exists_cons_of_ne_nil (String.utf8EncodeChar_ne_nil (c := c))
  simp [encodeChar, h, hb, encodeByte]

theorem encodeChar_pos : 0 < (E.encodeChar c).length := by
  cases h : E.keeps c with
  | true => simp [encodeChar, h]
  | false => exact Nat.lt_of_lt_of_le (by decide) (three_le_encodeChar h)

theorem length_le_encode : n.length ≤ (E.encode n).length := by
  induction n with
  | nil => exact Nat.le_refl _
  | cons c n ih =>
      have := encodeChar_pos (E := E) (c := c)
      simp only [encode, List.flatMap_cons, List.length_append, List.length_cons] at ih ⊢
      omega

theorem length_lt_encode (hc : c ∈ n) (h : E.keeps c = false) :
    n.length < (E.encode n).length := by
  obtain ⟨l, r, rfl⟩ := List.append_of_mem hc
  have hl := length_le_encode (E := E) (n := l)
  have hr := length_le_encode (E := E) (n := r)
  have hthree := three_le_encodeChar h
  simp only [encode, List.flatMap_append, List.flatMap_cons, List.length_append,
    List.length_cons] at hl hr ⊢
  omega

theorem encode_eq_self_iff : E.encode n = n ↔ ∀ c ∈ n, E.keeps c = true := by
  refine ⟨fun h c hc => ?_, encode_of_keeps⟩
  by_contra hkeeps
  have hlt := length_lt_encode hc (Bool.not_eq_true _ ▸ hkeeps)
  rw [h] at hlt
  exact Nat.lt_irrefl _ hlt

theorem encode_ne_nil (h : n ≠ []) : E.encode n ≠ [] := by
  intro hnil
  have := length_le_encode (E := E) (n := n)
  rw [hnil] at this
  exact h (List.length_eq_zero_iff.1 (Nat.le_zero.1 this))

/-- What is not its own encoding has a percent sign in it. -/
theorem percent_mem_encode (h : E.encode n ≠ n) : '%' ∈ E.encode n := by
  obtain ⟨c, hc, hkeeps⟩ : ∃ c ∈ n, E.keeps c = false := by
    by_contra hall
    push Not at hall
    exact h (encode_of_keeps fun c hc => by simpa using hall c hc)
  obtain ⟨b, bs, hb⟩ := List.exists_cons_of_ne_nil (String.utf8EncodeChar_ne_nil (c := c))
  refine List.mem_flatMap.2 ⟨c, hc, ?_⟩
  simp [encodeChar, hkeeps, hb, encodeByte]

end SegmentEncoding

end Wxp
