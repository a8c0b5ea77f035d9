import Mathlib.Data.List.Basic

/-!
# Foundations — JSON trees

JSON over any type of strings, and how a reader with a limit on the nesting takes a tree
with one kind of strings to a tree with another: it fails at a string it has no reading
of, and where arrays and objects nest deeper than it goes.

`read_isSome` separates the two: a tree is read exactly if its depth is within the limit
and each of its strings can be read.
-/

namespace Wxp

/-- A number: the digits of an integer, or another form. -/
inductive JsonNumber
  | int (n : Int)
  | real (text : String)
  deriving DecidableEq, Repr

inductive Json (σ : Type)
  | null
  | bool (b : Bool)
  | number (n : JsonNumber)
  | string (s : σ)
  | array (elements : List (Json σ))
  | object (fields : List (σ × Json σ))

namespace Json

variable {σ τ : Type}

/-- Read a tree in which arrays and objects nest at most so deep. -/
def read (text : σ → Option τ) : Nat → Json σ → Option (Json τ)
  | _, .null => some .null
  | _, .bool b => some (.bool b)
  | _, .number n => some (.number n)
  | _, .string s => (text s).map .string
  | 0, .array _ => none
  | 0, .object _ => none
  | n + 1, .array xs => (xs.mapM (read text n)).map .array
  | n + 1, .object fields =>
      (fields.mapM fun (k, v) => do
        let k ← text k
        let v ← read text n v
        some (k, v)).map .object

mutual

/-- How deep arrays and objects nest. -/
def depth : Json σ → Nat
  | .array xs => depthList xs + 1
  | .object fields => depthFields fields + 1
  | _ => 0

def depthList : List (Json σ) → Nat
  | [] => 0
  | x :: xs => max (depth x) (depthList xs)

def depthFields : List (σ × Json σ) → Nat
  | [] => 0
  | (_, v) :: fields => max (depth v) (depthFields fields)

end

mutual

/-- The strings of a tree and the names in its objects. -/
def texts : Json σ → List σ
  | .string s => [s]
  | .array xs => textsList xs
  | .object fields => textsFields fields
  | _ => []

def textsList : List (Json σ) → List σ
  | [] => []
  | x :: xs => texts x ++ textsList xs

def textsFields : List (σ × Json σ) → List σ
  | [] => []
  | (k, v) :: fields => k :: (texts v ++ textsFields fields)

end

theorem depthList_le {xs : List (Json σ)} {n : Nat} :
    depthList xs ≤ n ↔ ∀ x ∈ xs, x.depth ≤ n := by
  induction xs with
  | nil => simp [depthList]
  | cons x xs ih => rw [depthList, Nat.max_le, ih, List.forall_mem_cons]

theorem depthFields_le {fields : List (σ × Json σ)} {n : Nat} :
    depthFields fields ≤ n ↔ ∀ f ∈ fields, f.2.depth ≤ n := by
  induction fields with
  | nil => simp [depthFields]
  | cons f fields ih => rw [depthFields, Nat.max_le, ih, List.forall_mem_cons]

theorem mem_textsList {xs : List (Json σ)} {s : σ} :
    s ∈ textsList xs ↔ ∃ x ∈ xs, s ∈ x.texts := by
  induction xs with
  | nil => simp [textsList]
  | cons x xs ih => simp [textsList, ih]

theorem mem_textsFields {fields : List (σ × Json σ)} {s : σ} :
    s ∈ textsFields fields ↔ ∃ f ∈ fields, s = f.1 ∨ s ∈ f.2.texts := by
  induction fields with
  | nil => simp [textsFields]
  | cons f fields ih => simp [textsFields, ih, or_assoc]

theorem mapM_isSome {α β : Type} {f : α → Option β} {xs : List α} :
    (xs.mapM f).isSome ↔ ∀ x ∈ xs, (f x).isSome := by
  induction xs with
  | nil => simp
  | cons x xs ih =>
      cases hx : f x with
      | none => simp [hx]
      | some y =>
          cases hxs : xs.mapM f with
          | none => simpa [hx, hxs] using ih
          | some ys => simpa [hx, hxs] using ih

theorem read_isSome {text : σ → Option τ} {n : Nat} {j : Json σ} :
    (j.read text n).isSome ↔ j.depth ≤ n ∧ ∀ s ∈ j.texts, (text s).isSome := by
  induction n generalizing j with
  | zero => cases j <;> simp [read, depth, texts]
  | succ n ih =>
      cases j with
      | null | bool | number | string => simp [read, depth, texts]
      | array xs =>
          simp only [read, Option.isSome_map, mapM_isSome, ih, depth, texts,
            Nat.add_le_add_iff_right, depthList_le, mem_textsList]
          exact ⟨fun h => ⟨fun x hx => (h x hx).1, fun s ⟨x, hx, hs⟩ => (h x hx).2 s hs⟩,
            fun h x hx => ⟨h.1 x hx, fun s hs => h.2 s ⟨x, hx, hs⟩⟩⟩
      | object fields =>
          -- a field is read if its name and its value are
          have field : ∀ f : σ × Json σ, (do
              let k ← text f.1
              let v ← read text n f.2
              some (k, v)).isSome ↔ (text f.1).isSome ∧ (read text n f.2).isSome := by
            intro f
            cases text f.1 <;> cases read text n f.2 <;> simp
          simp only [read, Option.isSome_map, mapM_isSome, field, ih, depth, texts,
            Nat.add_le_add_iff_right, depthFields_le, mem_textsFields]
          constructor
          · refine fun h => ⟨fun f hf => (h f hf).2.1, fun s ⟨f, hf, hs⟩ => ?_⟩
            rcases hs with rfl | hs
            · exact (h f hf).1
            · exact (h f hf).2.2 s hs
          · exact fun h f hf => ⟨h.2 _ ⟨f, hf, .inl rfl⟩, h.1 f hf,
              fun s hs => h.2 s ⟨f, hf, .inr hs⟩⟩

end Json

end Wxp
