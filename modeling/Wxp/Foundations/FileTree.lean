import Mathlib.Data.List.Basic

/-!
# Foundations — file trees

Trees of directories, files and symbolic links over any type of names, the locations in
them, and the two ways to take a path to a location:

* `resolve` looks at the components alone: `..` takes the last name away, and at the root
  nothing;
* `walk` looks every component up in a directory that is there, and follows a number of
  symbolic links.

A walk goes through where a first part of its path leads (`walk_append`, `walk_append_eq`). It
ends where the path says once its links are replaced by their targets (`resolve_unlinked`), so
where it meets no link the two agree. Names that are no links lead where they
are found (`walkTo_names`). A path that never goes above where it starts stays below it
(`isPrefix_resolve`).
-/

namespace Wxp

inductive Component (ν : Type)
  | cur
  | parent
  | normal (n : ν)
  deriving DecidableEq, Repr

inductive FileTree (ν β : Type)
  | file (content : β)
  | dir (entries : List (ν × FileTree ν β))
  /-- The target is taken from the root, or from the directory of the link. -/
  | link (root : Bool) (target : List (Component ν))

namespace Component

variable {ν : Type}

def isNormal : Component ν → Bool
  | .normal _ => true
  | _ => false

def map {μ : Type} (f : ν → μ) : Component ν → Component μ
  | .cur => .cur
  | .parent => .parent
  | .normal n => .normal (f n)

/-- The location that a component leads to. -/
def next (loc : List ν) : Component ν → List ν
  | .cur => loc
  | .parent => loc.dropLast
  | .normal n => loc ++ [n]

/-- The location of a path, by its components alone. -/
def resolve (loc : List ν) (cs : List (Component ν)) : List ν := cs.foldl next loc

/-- Starting so deep below some location, the path never goes above that. -/
def stays : Nat → List (Component ν) → Bool
  | _, [] => true
  | d, .cur :: cs => stays d cs
  | 0, .parent :: _ => false
  | d + 1, .parent :: cs => stays d cs
  | d, .normal _ :: cs => stays (d + 1) cs

@[simp] theorem resolve_nil (loc : List ν) : resolve loc [] = loc := rfl

@[simp] theorem resolve_cons (loc : List ν) (c : Component ν) (cs : List (Component ν)) :
    resolve loc (c :: cs) = resolve (c.next loc) cs := rfl

theorem resolve_append (loc : List ν) (cs ds : List (Component ν)) :
    resolve loc (cs ++ ds) = resolve (resolve loc cs) ds :=
  List.foldl_append

theorem resolve_normal (loc ns : List ν) : resolve loc (ns.map .normal) = loc ++ ns := by
  induction ns generalizing loc with
  | nil => simp
  | cons n ns ih => simp [next, ih]

theorem stays_map {μ : Type} (f : ν → μ) (d : Nat) (cs : List (Component ν)) :
    stays d (cs.map (map f)) = stays d cs := by
  induction cs generalizing d with
  | nil => rfl
  | cons c cs ih =>
      cases c with
      | cur => exact ih d
      | parent =>
          cases d with
          | zero => rfl
          | succ d => exact ih d
      | normal n => exact ih (d + 1)

theorem isPrefix_resolve {loc below : List ν} {cs : List (Component ν)}
    (h : stays below.length cs = true) : loc <+: resolve (loc ++ below) cs := by
  induction cs generalizing below with
  | nil => exact List.prefix_append loc below
  | cons c cs ih =>
      cases c with
      | cur => exact ih h
      | parent =>
          cases hb : below.length with
          | zero =>
              rw [hb] at h
              cases h
          | succ d =>
              rw [hb] at h
              have hne : below ≠ [] := by
                rintro rfl
                cases hb
              have hlen : below.dropLast.length = d := by simp [hb]
              rw [resolve_cons, next, List.dropLast_append_of_ne_nil hne]
              exact ih (by rwa [hlen])
      | normal n =>
          rw [resolve_cons, next, List.append_assoc]
          exact ih (by simpa [stays] using h)

theorem eq_map_normal {cs : List (Component ν)} (h : cs.all isNormal = true) :
    ∃ ns : List ν, cs = ns.map .normal := by
  induction cs with
  | nil => exact ⟨[], rfl⟩
  | cons c cs ih =>
      rw [List.all_cons, Bool.and_eq_true] at h
      obtain ⟨ns, rfl⟩ := ih h.2
      cases c with
      | normal n => exact ⟨n :: ns, rfl⟩
      | cur | parent => cases h.1

end Component

namespace FileTree

variable {ν β : Type} [DecidableEq ν]

def find : FileTree ν β → List ν → Option (FileTree ν β)
  | t, [] => some t
  | .dir entries, n :: ns =>
      match entries.lookup n with
      | some t => t.find ns
      | none => none
  | _, _ :: _ => none

def isDir (t : FileTree ν β) (loc : List ν) : Bool :=
  match t.find loc with
  | some (.dir _) => true
  | _ => false

def content (t : FileTree ν β) (loc : List ν) : Option β :=
  match t.find loc with
  | some (.file content) => some content
  | _ => none

/-- A walk up to the first link, which `follow` goes on from. -/
def walkTo (t : FileTree ν β) (follow : List ν → List (Component ν) → Option (List ν)) :
    List ν → List (Component ν) → Option (List ν)
  | loc, [] => if (t.find loc).isSome then some loc else none
  | loc, c :: cs =>
      if t.isDir loc then
        match c with
        | .normal n =>
            match t.find (loc ++ [n]) with
            | some (.link root target) => follow (if root then [] else loc) (target ++ cs)
            | _ => t.walkTo follow (loc ++ [n]) cs
        | c => t.walkTo follow (c.next loc) cs
      else none

/-- A walk that follows at most so many links. -/
def walk (t : FileTree ν β) : Nat → List ν → List (Component ν) → Option (List ν)
  | 0 => t.walkTo fun _ _ => none
  | n + 1 => t.walkTo (t.walk n)

/-- No component of the path is a link. -/
def linkFree (t : FileTree ν β) : List ν → List (Component ν) → Bool
  | _, [] => true
  | loc, c :: cs =>
      (match t.find (c.next loc) with
        | some (.link _ _) => false
        | _ => true) && t.linkFree (c.next loc) cs

/-- The path from the first link on, with its target in its place; `follow` goes on from there. -/
def unlinkTo (t : FileTree ν β)
    (follow : List ν → List (Component ν) → List ν × List (Component ν)) :
    List ν → List (Component ν) → Option (List ν × List (Component ν))
  | _, [] => none
  | loc, c :: cs =>
      match c with
      | .normal n =>
          match t.find (loc ++ [n]) with
          | some (.link root target) => some (follow (if root then [] else loc) (target ++ cs))
          | _ => t.unlinkTo follow (loc ++ [n]) cs
      | c => t.unlinkTo follow (c.next loc) cs

/-- The same, with the path itself where it meets no link. -/
def unlinkFrom (t : FileTree ν β)
    (follow : List ν → List (Component ν) → List ν × List (Component ν)) (loc : List ν)
    (cs : List (Component ν)) : List ν × List (Component ν) :=
  (t.unlinkTo follow loc cs).getD (loc, cs)

/-- The path with the links it meets replaced by what they say: from where it is taken after
the last of them, and what is left to be taken. -/
def unlinked (t : FileTree ν β) : Nat → List ν → List (Component ν) →
    List ν × List (Component ν)
  | 0 => t.unlinkFrom Prod.mk
  | n + 1 => t.unlinkFrom (t.unlinked n)

theorem unlinkTo_of_linkFree {t : FileTree ν β}
    {follow : List ν → List (Component ν) → List ν × List (Component ν)} {loc : List ν}
    {cs : List (Component ν)} (h : t.linkFree loc cs = true) : t.unlinkTo follow loc cs = none := by
  induction cs generalizing loc with
  | nil => rfl
  | cons c cs ih =>
      rw [linkFree, Bool.and_eq_true] at h
      cases c with
      | cur | parent => exact ih h.2
      | normal n =>
          simp only [unlinkTo]
          split
          · rename_i hlink
            simp [Component.next, hlink] at h
          · exact ih h.2

theorem unlinked_of_linkFree {t : FileTree ν β} (n : Nat) {loc : List ν}
    {cs : List (Component ν)} (h : t.linkFree loc cs = true) : t.unlinked n loc cs = (loc, cs) := by
  cases n <;> simp [unlinked, unlinkFrom, unlinkTo_of_linkFree h]

theorem resolve_unlinkTo {t : FileTree ν β}
    {follow : List ν → List (Component ν) → Option (List ν)}
    {follow' : List ν → List (Component ν) → List ν × List (Component ν)}
    (hfollow : ∀ loc cs loc', follow loc cs = some loc' →
      Component.resolve (follow' loc cs).1 (follow' loc cs).2 = loc')
    {loc loc' : List ν} {cs : List (Component ν)} (h : t.walkTo follow loc cs = some loc') :
    match t.unlinkTo follow' loc cs with
    | some (start, rest) => Component.resolve start rest = loc'
    | none => Component.resolve loc cs = loc' := by
  induction cs generalizing loc with
  | nil =>
      rw [walkTo, Option.ite_none_right_eq_some] at h
      exact Option.some.inj h.2
  | cons c cs ih =>
      cases c with
      | cur | parent =>
          simp only [walkTo, Option.ite_none_right_eq_some] at h
          exact ih h.2
      | normal n =>
          simp only [walkTo, Option.ite_none_right_eq_some] at h
          obtain ⟨-, h⟩ := h
          simp only [unlinkTo]
          split at h
          · exact hfollow _ _ _ h
          · exact ih h

theorem resolve_unlinkFrom {t : FileTree ν β}
    {follow : List ν → List (Component ν) → Option (List ν)}
    {follow' : List ν → List (Component ν) → List ν × List (Component ν)}
    (hfollow : ∀ loc cs loc', follow loc cs = some loc' →
      Component.resolve (follow' loc cs).1 (follow' loc cs).2 = loc')
    {loc loc' : List ν} {cs : List (Component ν)} (h : t.walkTo follow loc cs = some loc') :
    Component.resolve (t.unlinkFrom follow' loc cs).1 (t.unlinkFrom follow' loc cs).2 = loc' := by
  have hend := resolve_unlinkTo hfollow h
  rw [unlinkFrom]
  split at hend <;> rename_i hlink <;> simpa [hlink] using hend

/-- A walk ends where its path says, once the links are replaced. -/
theorem resolve_unlinked {t : FileTree ν β} {n : Nat} {loc loc' : List ν}
    {cs : List (Component ν)} (h : t.walk n loc cs = some loc') :
    Component.resolve (t.unlinked n loc cs).1 (t.unlinked n loc cs).2 = loc' := by
  induction n generalizing loc loc' cs with
  | zero => exact resolve_unlinkFrom (fun _ _ _ h => by cases h) h
  | succ n ih => exact resolve_unlinkFrom (fun _ _ _ h => ih h) h

theorem isSome_find_of_walkTo {t : FileTree ν β}
    {follow : List ν → List (Component ν) → Option (List ν)} {loc loc' : List ν}
    {cs : List (Component ν)} (h : t.walkTo follow loc cs = some loc') :
    (t.find loc).isSome = true := by
  cases cs with
  | nil =>
      rw [walkTo, Option.ite_none_right_eq_some] at h
      exact h.1
  | cons c cs =>
      simp only [walkTo, Option.ite_none_right_eq_some] at h
      cases hfind : t.find loc with
      | none => simp [isDir, hfind] at h
      | some u => rfl

/-- What a walk comes through before `ds`, if that is so of the walks it follows. -/
theorem walkTo_append {t : FileTree ν β} {P : List ν → Prop}
    {follow : List ν → List (Component ν) → Option (List ν)} {loc loc' : List ν}
    {cs ds : List (Component ν)} (hends : ∀ mid, t.walkTo follow mid ds = some loc' → P mid)
    (hfollow : ∀ loc cs, follow loc (cs ++ ds) = some loc' →
      ∃ mid, follow loc cs = some mid ∧ P mid)
    (h : t.walkTo follow loc (cs ++ ds) = some loc') :
    ∃ mid, t.walkTo follow loc cs = some mid ∧ P mid := by
  induction cs generalizing loc with
  | nil =>
      refine ⟨loc, ?_, hends loc h⟩
      rw [walkTo, if_pos (isSome_find_of_walkTo h)]
  | cons c cs ih =>
      rw [List.cons_append] at h
      by_cases hdir : t.isDir loc = true
      · cases c with
        | cur | parent =>
            simp only [walkTo, hdir, if_true] at h ⊢
            exact ih h
        | normal n =>
            simp only [walkTo, hdir, if_true] at h ⊢
            split at h
            · rename_i root target hlink
              rw [← List.append_assoc] at h
              simpa only [hlink] using hfollow _ _ h
            · exact ih h
      · cases c <;> simp [walkTo, hdir] at h

theorem walkTo_mono {t : FileTree ν β}
    {follow follow' : List ν → List (Component ν) → Option (List ν)}
    (hfollow : ∀ loc cs loc', follow loc cs = some loc' → follow' loc cs = some loc')
    {loc loc' : List ν} {cs : List (Component ν)} (h : t.walkTo follow loc cs = some loc') :
    t.walkTo follow' loc cs = some loc' := by
  induction cs generalizing loc with
  | nil => exact h
  | cons c cs ih =>
      cases c with
      | cur | parent =>
          simp only [walkTo, Option.ite_none_right_eq_some] at h ⊢
          exact ⟨h.1, ih h.2⟩
      | normal n =>
          simp only [walkTo, Option.ite_none_right_eq_some] at h ⊢
          obtain ⟨hdir, h⟩ := h
          refine ⟨hdir, ?_⟩
          split at h
          · exact hfollow _ _ _ h
          · exact ih h

/-- A walk may follow more links than it meets. -/
theorem walk_succ {t : FileTree ν β} {n : Nat} {loc loc' : List ν} {cs : List (Component ν)}
    (h : t.walk n loc cs = some loc') : t.walk (n + 1) loc cs = some loc' := by
  induction n generalizing loc loc' cs with
  | zero => exact walkTo_mono (fun _ _ _ h => by cases h) h
  | succ n ih => exact walkTo_mono (fun _ _ _ h => ih h) h

/-- A walk goes through where the first part of its path leads. -/
theorem walk_append {t : FileTree ν β} {n : Nat} {loc loc' : List ν}
    {cs ds : List (Component ν)} (h : t.walk n loc (cs ++ ds) = some loc') :
    ∃ mid, t.walk n loc cs = some mid ∧ t.walk n mid ds = some loc' := by
  induction n generalizing loc cs with
  | zero => exact walkTo_append (fun _ hmid => hmid) (fun _ _ h => nomatch h) h
  | succ n ih =>
      refine walkTo_append (fun _ hmid => hmid) (fun loc cs h => ?_) h
      obtain ⟨mid, hcs, hds⟩ := ih h
      exact ⟨mid, hcs, walk_succ hds⟩

/-- If the first part of a walk leads to `mid`, it ends as the walks from `mid` do. -/
theorem walkTo_append_eq {t : FileTree ν β}
    {follow : List ν → List (Component ν) → Option (List ν)} {loc mid : List ν}
    {cs ds : List (Component ν)} {r : Option (List ν)} (hmid : t.walkTo follow mid ds = r)
    (hfollow : ∀ loc cs, follow loc cs = some mid → follow loc (cs ++ ds) = r)
    (h : t.walkTo follow loc cs = some mid) : t.walkTo follow loc (cs ++ ds) = r := by
  induction cs generalizing loc with
  | nil =>
      rw [walkTo, Option.ite_none_right_eq_some, Option.some.injEq] at h
      rw [List.nil_append, h.2, hmid]
  | cons c cs ih =>
      rw [List.cons_append]
      by_cases hdir : t.isDir loc = true
      · cases c with
        | cur | parent =>
            simp only [walkTo, hdir, if_true] at h ⊢
            exact ih h
        | normal n =>
            simp only [walkTo, hdir, if_true] at h ⊢
            split at h
            · rename_i root target hlink
              rw [← List.append_assoc]
              exact hfollow _ _ h
            · exact ih h
      · cases c <;> simp [walkTo, hdir] at h

theorem walk_append_eq {t : FileTree ν β} {n : Nat} {loc mid : List ν}
    {cs ds : List (Component ν)} {r : Option (List ν)}
    (hmid : ∀ follow, t.walkTo follow mid ds = r) (h : t.walk n loc cs = some mid) :
    t.walk n loc (cs ++ ds) = r := by
  induction n generalizing loc cs with
  | zero => exact walkTo_append_eq (hmid _) (fun _ _ h => by cases h) h
  | succ n ih => exact walkTo_append_eq (hmid _) (fun _ _ h => ih h) h

theorem find_append {t : FileTree ν β} {ns ns' : List ν} :
    t.find (ns ++ ns') = (t.find ns).bind fun u => u.find ns' := by
  induction ns generalizing t with
  | nil => simp [find]
  | cons n ns ih =>
      cases t with
      | file content => simp [find]
      | link root target => simp [find]
      | dir entries =>
          simp only [List.cons_append, find]
          cases entries.lookup n with
          | none => rfl
          | some u => exact ih

theorem find_singleton {n m : ν} {ns : List ν} {u : FileTree ν β} :
    (dir [(n, u)]).find (m :: ns) = if m = n then u.find ns else none := by
  by_cases h : m = n
  · simp [find, h]
  · simp [find, List.lookup_cons, beq_false_of_ne h, h]

/-- Names are found in directories only. -/
theorem find_cons_of_not_isDir {t : FileTree ν β} {loc ns : List ν} {n : ν}
    (h : t.isDir loc = false) : t.find (loc ++ n :: ns) = none := by
  rw [find_append]
  unfold isDir at h
  cases hfind : t.find loc with
  | none => rfl
  | some u =>
      cases u with
      | dir entries => simp [hfind] at h
      | file content => rfl
      | link root target => rfl

/-- A walk along names that are no links. -/
theorem walkTo_names {t : FileTree ν β}
    {follow : List ν → List (Component ν) → Option (List ν)} {loc ns : List ν}
    (h : ∀ ns', ns' <+: ns → ∀ root target, t.find (loc ++ ns') ≠ some (.link root target)) :
    t.walkTo follow loc (ns.map .normal) =
      if (t.find (loc ++ ns)).isSome then some (loc ++ ns) else none := by
  induction ns generalizing loc with
  | nil => simp [walkTo]
  | cons n ns ih =>
      by_cases hdir : t.isDir loc = true
      · have hlink : ∀ root target, t.find (loc ++ [n]) ≠ some (.link root target) :=
          h [n] ⟨ns, rfl⟩
        have htail : ∀ ns', ns' <+: ns → ∀ root target,
            t.find ((loc ++ [n]) ++ ns') ≠ some (.link root target) := by
          intro ns' hns'
          rw [List.append_assoc]
          exact h (n :: ns') (List.prefix_cons_inj n |>.2 hns')
        have hnext := ih htail
        rw [List.append_assoc, List.singleton_append] at hnext
        simp only [List.map_cons, walkTo, hdir, if_true]
        cases hfind : t.find (loc ++ [n]) with
        | none => exact hnext
        | some u =>
            cases u with
            | link root target => exact absurd hfind (hlink root target)
            | file | dir => exact hnext
      · have hnone : t.find (loc ++ n :: ns) = none :=
          find_cons_of_not_isDir (Bool.not_eq_true _ ▸ hdir)
        simp [walkTo, hdir, hnone]

/-- On the way to a file there is no link. -/
theorem not_link_of_content {t : FileTree ν β} {loc ns : List ν} {content : β}
    (h : t.content (loc ++ ns) = some content) (ns' : List ν) (hns' : ns' <+: ns) (root : Bool)
    (target : List (Component ν)) : t.find (loc ++ ns') ≠ some (.link root target) := by
  intro hlink
  obtain ⟨rest, rfl⟩ := hns'
  rw [FileTree.content, ← List.append_assoc, find_append, hlink, Option.bind_some] at h
  cases rest <;> simp [find] at h

end FileTree

end Wxp
