import Wxp.Serve.Directory

/-!
# Serve — Segments

The texts made of path segments, what `std::path` makes of them, and where the file system of a
machine finds what they name below the base of `with_serve_dir`.
-/

namespace Wxp.Serve

/-- The name can stand in a directory. -/
def isName (n : Text) : Bool := n != [] && n != ['.'] && n != ['.', '.'] && !n.contains '/'

/-- A name that Windows lets a file have. -/
def isWindowsName (n : Text) : Bool :=
  isName n && (n.all fun c => !("\\:*?\"<>|".toList.contains c) && decide (31 < c.toNat)) &&
    (deviceName n).isNone

def Os.allows : Os → Text → Bool
  | .unix => isName
  | .windows => isWindowsName

/-- The segments with slashes between them, and one at the end. -/
def segmentsText : List Text → Bool → Text
  | [], _ => []
  | [n], slash => n ++ if slash then ['/'] else []
  | n :: ns, slash => n ++ '/' :: segmentsText ns slash

/-! ## From text to components -/

section Parsing

variable {sep : Char → Bool} {ns : List Text} {n : Text} {slash : Bool}

theorem isName_of_allows {os : Os} (h : os.allows n = true) : isName n = true := by
  cases os with
  | unix => exact h
  | windows =>
      simp only [Os.allows, isWindowsName, Bool.and_eq_true] at h
      exact h.1.1

theorem deviceName_of_allows (h : Os.windows.allows n = true) : deviceName n = none := by
  simp only [Os.allows, isWindowsName, Bool.and_eq_true, Option.isNone_iff_eq_none] at h
  exact h.2

theorem ne_nil_of_isName (h : isName n = true) : n ≠ [] := by
  rintro rfl
  simp [isName] at h

theorem slash_not_mem_of_isName (h : isName n = true) : '/' ∉ n := by
  simp only [isName, Bool.and_eq_true, Bool.not_eq_true', List.contains_eq_mem,
    decide_eq_false_iff_not] at h
  exact h.2

theorem parseComponent_of_isName (h : isName n = true) :
    parseComponent n = some (.normal n) := by
  simp only [isName, Bool.and_eq_true, bne_iff_ne, ne_eq] at h
  simp [parseComponent, h.1.1.1, h.1.1.2, h.1.2]

theorem segmentsText_cons (h : ns ≠ []) :
    segmentsText (n :: ns) slash = n ++ '/' :: segmentsText ns slash := by
  cases ns with
  | nil => exact absurd rfl h
  | cons m ns => rfl

/-- Splitting gives the segments back, and an empty one after a slash at the end. -/
theorem splitOnP_segmentsText (hslash : sep '/' = true) (hne : ns ≠ [])
    (h : ∀ n ∈ ns, ∀ c ∈ n, sep c = false) :
    (segmentsText ns slash).splitOnP sep = ns ++ if slash then [[]] else [] := by
  induction ns with
  | nil => exact absurd rfl hne
  | cons n ns ih =>
      have hn := h n List.mem_cons_self
      by_cases hns : ns = []
      · subst hns
        cases slash with
        | true => simp [segmentsText, List.splitOnP_append_cons_of_forall_mem hn '/' hslash]
        | false => simp [segmentsText, List.splitOnP_eq_singleton hn]
      · rw [segmentsText_cons hns, List.splitOnP_append_cons_of_forall_mem hn '/' hslash,
          ih hns fun m hm => h m (List.mem_cons_of_mem n hm), List.cons_append]

theorem segmentsText_ne_nil (slash : Bool) (hne : ns ≠ []) (h : ∀ n ∈ ns, n ≠ []) :
    segmentsText ns slash ≠ [] := by
  cases ns with
  | nil => exact absurd rfl hne
  | cons n ns =>
      have hn := h n List.mem_cons_self
      cases ns with
      | nil => simp [segmentsText, hn]
      | cons m ns => simp [segmentsText_cons, hn]

theorem head_segmentsText (slash : Bool) (hne : ns ≠ []) (h : ∀ n ∈ ns, n ≠ [])
    (hsep : ∀ n ∈ ns, ∀ c ∈ n, sep c = false) :
    (segmentsText ns slash).head?.any sep = false := by
  cases ns with
  | nil => exact absurd rfl hne
  | cons n ns =>
      obtain ⟨c, cs, rfl⟩ := List.exists_cons_of_ne_nil (h n List.mem_cons_self)
      have hc := hsep (c :: cs) List.mem_cons_self c List.mem_cons_self
      cases ns with
      | nil => simp [segmentsText, hc]
      | cons m ns => simp [segmentsText_cons, hc]

theorem getLast_segmentsText (hslash : sep '/' = true) (hne : ns ≠ []) (h : ∀ n ∈ ns, n ≠ [])
    (hsep : ∀ n ∈ ns, ∀ c ∈ n, sep c = false) :
    (segmentsText ns slash).getLast?.any sep = slash := by
  induction ns with
  | nil => exact absurd rfl hne
  | cons n ns ih =>
      by_cases hns : ns = []
      · subst hns
        cases slash with
        | true => simp [segmentsText, hslash]
        | false =>
            -- No slash at the end, and a name does not end in a separator.
            have hlast : n.getLast?.any sep = false := by
              cases hl : n.getLast? with
              | none => rfl
              | some c => exact hsep n List.mem_cons_self c (List.mem_of_getLast? hl)
            simpa [segmentsText] using hlast
      · have hrest := segmentsText_ne_nil slash hns
          fun m hm => h m (List.mem_cons_of_mem n hm)
        obtain ⟨c, t, ht⟩ := List.exists_cons_of_ne_nil hrest
        have hih := ih hns (fun m hm => h m (List.mem_cons_of_mem n hm))
          fun m hm => hsep m (List.mem_cons_of_mem n hm)
        rw [segmentsText_cons hns, List.getLast?_append_of_ne_nil _ (by simp), ht,
          List.getLast?_cons_cons, ← ht]
        exact hih

theorem parseBody_segmentsText (hslash : sep '/' = true) (hne : ns ≠ [])
    (h : ∀ n ∈ ns, isName n = true) (hsep : ∀ n ∈ ns, ∀ c ∈ n, sep c = false) :
    parseBody sep (segmentsText ns slash) = { components := ns.map .normal, slash } := by
  have hnil : ∀ n ∈ ns, n ≠ [] := fun n hn => ne_nil_of_isName (h n hn)
  have hcomponents : ns.filterMap parseComponent = ns.map .normal := by
    rw [List.filterMap_congr (fun n hn => parseComponent_of_isName (h n hn)),
      List.filterMap_eq_map']
  simp only [parseBody, head_segmentsText slash hne hnil hsep,
    getLast_segmentsText hslash hne hnil hsep, splitOnP_segmentsText hslash hne hsep,
    List.filterMap_append, hcomponents]
  cases slash <;> simp [parseComponent]

theorem isSep_of_allows (h : Os.windows.allows n = true) (c : Char) (hc : c ∈ n) :
    isSep c = false := by
  simp only [Os.allows, isWindowsName, Bool.and_eq_true, List.all_eq_true] at h
  have hallowed := (h.1.2 c hc).1
  have hslash : c ≠ '/' := by
    rintro rfl
    exact slash_not_mem_of_isName h.1.1 hc
  simp at hallowed
  simp [isSep, hslash, hallowed]

/-- A character of the text is in a segment, or a slash. -/
theorem mem_segmentsText {c : Char} (h : c ∈ segmentsText ns slash) :
    (∃ n ∈ ns, c ∈ n) ∨ c = '/' := by
  induction ns with
  | nil => cases h
  | cons n ns ih =>
      by_cases hns : ns = []
      · subst hns
        rcases List.mem_append.1 h with h | h
        · exact .inl ⟨n, List.mem_cons_self, h⟩
        · cases slash with
          | false => cases h
          | true => exact .inr (List.mem_singleton.1 h)
      · rw [segmentsText_cons hns, List.mem_append, List.mem_cons] at h
        rcases h with h | h | h
        · exact .inl ⟨n, List.mem_cons_self, h⟩
        · exact .inr h
        · exact (ih h).imp_left fun ⟨m, hm, hc⟩ => ⟨m, List.mem_cons_of_mem n hm, hc⟩

theorem colon_not_mem_segmentsText (h : ∀ n ∈ ns, Os.windows.allows n = true) :
    ':' ∉ segmentsText ns slash := by
  intro hmem
  rcases mem_segmentsText hmem with ⟨n, hn, hc⟩ | hc
  · have hallows := h n hn
    simp only [Os.allows, isWindowsName, Bool.and_eq_true, List.all_eq_true] at hallows
    exact absurd (hallows.1.2 ':' hc).1 (by decide)
  · cases hc

/-- A text with neither a separator at its head nor a colon has no prefix. -/
theorem parsePrefix_eq_none {t : Text} (hhead : t.head?.any isSep = false) (hcolon : ':' ∉ t) :
    parsePrefix t = none := by
  unfold parsePrefix
  split
  · cases hhead
  · rename_i a b t' _
    have ha : isSep a = false := hhead
    have hdrive : parseDrive (a :: b :: t') = none := by
      unfold parseDrive
      split
      · rename_i heq
        simp [heq] at hcolon
      · rfl
    simp [ha, hdrive]
  · rfl

theorem parse_segmentsText {os : Os} (hne : ns ≠ []) (h : ∀ n ∈ ns, os.allows n = true) :
    Path.parse os (segmentsText ns slash) = { components := ns.map .normal, slash } := by
  have hname : ∀ n ∈ ns, isName n = true := fun n hn => isName_of_allows (h n hn)
  cases os with
  | unix =>
      refine parseBody_segmentsText rfl hne hname fun n hn c hc => ?_
      rw [beq_eq_false_iff_ne]
      rintro rfl
      exact slash_not_mem_of_isName (hname n hn) hc
  | windows =>
      have hsep : ∀ n ∈ ns, ∀ c ∈ n, isSep c = false := fun n hn => isSep_of_allows (h n hn)
      have hnil : ∀ n ∈ ns, n ≠ [] := fun n hn => ne_nil_of_isName (hname n hn)
      -- Neither a drive nor a server is named: the text is all body.
      have hprefix := parsePrefix_eq_none (head_segmentsText slash hne hnil hsep)
        (colon_not_mem_segmentsText h)
      rw [Path.parse, hprefix]
      exact parseBody_segmentsText rfl hne hname hsep

end Parsing

/-! ## In the file system -/

namespace Machine

/-- A slash at the end says that there is to be a directory; `join` takes it away after a
verbatim prefix. -/
def keepsSlash (m : Machine) (base : Path) : Bool := !(m.os == .windows && base.isVerbatim)

/-- What the file system has under the names below the directory. -/
def findBelow (m : Machine) (dir : Location) (names : List Text) :
    Option (FileTree Text Bytes) :=
  (m.tree dir.volume).find (dir.names ++ names)

/-- No symbolic link on the way. -/
def NoLink (m : Machine) (dir : Location) (names : List Text) : Prop :=
  ∀ names', names' <+: names → ∀ root target, m.findBelow dir names' ≠ some (.link root target)

section Lookup

variable {m : Machine} {base : Path} {dir : Location} {ns : List Text} {slash : Bool}

theorem components_append : m.components (base.append { components := ns.map .normal, slash }) =
    m.components base ++ (ns.map m.canon).map .normal := by
  simp [components, Path.append, Component.map]

theorem join_pfx {path : Path} (hroot : path.root = false) (hpfx : path.pfx = none) :
    (base.join m.os path).pfx = base.pfx := by
  cases hos : m.os with
  | unix => simp [Path.join, Path.append, hroot]
  | windows =>
      simp only [Path.join, hpfx, hroot, Option.isSome_none, Bool.false_eq_true, if_false]
      split <;> rfl

theorem join_slash {path : Path} (hroot : path.root = false) (hpfx : path.pfx = none) :
    (base.join m.os path).slash = (path.slash && m.keepsSlash base) := by
  cases hos : m.os with
  | unix => simp [Path.join, Path.append, keepsSlash, hroot, hos]
  | windows =>
      by_cases hverbatim : base.isVerbatim = true
      · simp [Path.join, Path.joinVerbatim, keepsSlash, hos, hpfx, hverbatim]
      · simp [Path.join, Path.append, keepsSlash, hos, hroot, hpfx, hverbatim]

/-- A verbatim base takes names as they are. -/
theorem joinVerbatim_names (hnormal : base.components.all Component.isNormal = true) :
    base.joinVerbatim { components := ns.map .normal, slash } =
      { base with components := base.components ++ ns.map .normal, slash := false } := by
  obtain ⟨bs, hbs⟩ := Component.eq_map_normal hnormal
  simp [Path.joinVerbatim, hbs, foldl_pushVerbatim, Component.resolve_normal]

theorem device_join (hne : ns ≠ []) (h : ∀ n ∈ ns, m.os.allows n = true) :
    m.device (base.join m.os { components := ns.map .normal, slash }) = none := by
  cases hos : m.os with
  | unix => exact device_unix hos _
  | windows =>
      rw [← hos]
      exact device_join_names hne fun n hn => deviceName_of_allows (hos ▸ h n hn)

/-- The way to a name below a base: the way to the base, and the names. -/
theorem route_join {start : List Text} {cs : List (Component Text)}
    (hdevice : m.device base = none)
    (hjoin : m.device (base.join m.os { components := ns.map .normal, slash }) = none)
    (h : m.route base = some (start, cs)) :
    m.route (base.join m.os { components := ns.map .normal, slash }) =
      some (start, cs ++ (ns.map m.canon).map .normal) := by
  cases hos : m.os with
  | unix =>
      simp only [route, hos, Option.some.injEq, Prod.mk.injEq] at h ⊢
      obtain ⟨rfl, rfl⟩ := h
      exact ⟨rfl, components_append⟩
  | windows =>
      by_cases hverbatim : base.isVerbatim = true
      · simp only [route, hos, hverbatim, if_true, Option.ite_none_right_eq_some,
          Option.some.injEq, Prod.mk.injEq] at h
        obtain ⟨hnormal, rfl, rfl⟩ := h
        have hall : (base.components ++ ns.map Component.normal).all Component.isNormal = true := by
          simp [hnormal, Component.isNormal]
        -- `join` keeps the base verbatim, and the names are looked up as they are.
        simp only [Path.join, Option.isSome_none, Bool.false_eq_true, if_false, hverbatim, if_true,
          joinVerbatim_names hnormal, route, hos]
        simp only [Path.isVerbatim] at hverbatim
        simp only [Path.isVerbatim, hverbatim, if_true]
        rw [if_pos hall]
        refine congrArg some (Prod.ext rfl ?_)
        simp [components, Component.map]
      · have hplace : m.route base = some ([], (m.place base).names.map .normal) := by
          simp [route, hos, hverbatim]
        obtain ⟨rfl, rfl⟩ := Prod.mk.inj (Option.some.inj (hplace.symm.trans h))
        -- Any other path is made absolute by its text alone, before a link is followed.
        have happend : (base.append { components := ns.map .normal, slash }).isVerbatim = false :=
          Bool.not_eq_true _ ▸ hverbatim
        simp only [hos, Path.join, Option.isSome_none, Bool.false_eq_true, if_false,
          hverbatim] at hjoin
        simp only [Path.join, Option.isSome_none, Bool.false_eq_true, if_false, hverbatim, route,
          hos, happend]
        refine congrArg some (Prod.ext rfl ?_)
        simp only [place_of_device hdevice, place_of_device hjoin, components_append,
          Component.resolve_append, Component.resolve_normal, List.map_append]
        rfl

/-- The names below the directory of the base are looked up there. -/
theorem locate_join_names (hdir : m.locate base = some dir)
    (hisDir : (m.tree dir.volume).isDir dir.names = true) (hne : ns ≠ [])
    (hallows : ∀ n ∈ ns, m.os.allows n = true) (hfree : m.NoLink dir (ns.map m.canon)) :
    m.locate (base.join m.os { components := ns.map .normal, slash }) =
      if (m.findBelow dir (ns.map m.canon)).isSome &&
        (!(slash && m.keepsSlash base) ||
          (m.tree dir.volume).isDir (dir.names ++ ns.map m.canon)) then
        some ⟨dir.volume, dir.names ++ ns.map m.canon⟩
      else none := by
  obtain ⟨hvol, start, cs, hroute, hwalk⟩ := walk_of_locate hdir
  rw [← hvol] at hwalk
  have hwalk := FileTree.walk_append_eq (fun _ => FileTree.walkTo_names hfree) hwalk
  have hdevice := device_of_isDir hdir hisDir
  have hjoin : m.device (base.join m.os { components := ns.map .normal, slash }) = none :=
    device_join hne hallows
  have hplace : (m.place (base.join m.os { components := ns.map .normal, slash })).volume =
      dir.volume := by
    rw [hvol, place_of_device hdevice, place_of_device hjoin, join_pfx rfl rfl]
  simp only [locate, route_join hdevice hjoin hroute, hplace, join_slash, hwalk,
    Option.bind_eq_bind, Option.bind_some]
  cases hfind : m.findBelow dir (ns.map m.canon) with
  | none =>
      simp only [findBelow] at hfind
      simp [hfind]
  | some u =>
      simp only [findBelow] at hfind
      simp [hfind]

/-- What stands below the directory under these names. With a slash at the end it has to be a
directory. -/
def lookupBelow (m : Machine) (base : Path) (dir : Location) (ns : List Text) (slash : Bool) :
    Option (FileTree Text Bytes) :=
  (m.findBelow dir (ns.map m.canon)).filter fun u =>
    !(slash && m.keepsSlash base) || u.isDir []

@[simp] theorem lookupBelow_false :
    m.lookupBelow base dir ns false = m.findBelow dir (ns.map m.canon) := by
  cases h : m.findBelow dir (ns.map m.canon) <;> simp [lookupBelow, h]

theorem isDir_append (loc names : List Text) (u : FileTree Text Bytes)
    (h : m.findBelow ⟨dir.volume, loc⟩ names = some u) :
    (m.tree dir.volume).isDir (loc ++ names) = u.isDir [] := by
  simp only [findBelow] at h
  simp [FileTree.isDir, h, FileTree.find]

theorem pathExists_join_names (slash : Bool) (hdir : m.locate base = some dir)
    (hisDir : (m.tree dir.volume).isDir dir.names = true) (hne : ns ≠ [])
    (hallows : ∀ n ∈ ns, m.os.allows n = true) (hfree : m.NoLink dir (ns.map m.canon)) :
    m.pathExists (base.join m.os { components := ns.map .normal, slash }) =
      (m.lookupBelow base dir ns slash).isSome := by
  rw [pathExists, locate_join_names hdir hisDir hne hallows hfree, lookupBelow]
  cases hfind : m.findBelow dir (ns.map m.canon) with
  | none => rfl
  | some u =>
      rw [isDir_append _ _ u hfind, Option.filter_some]
      generalize (!(slash && m.keepsSlash base) || u.isDir []) = fits
      cases fits <;> rfl

/-- `std::fs::read` gives the contents of the file that stands there. -/
theorem read_join_names (slash : Bool) (hdir : m.locate base = some dir)
    (hisDir : (m.tree dir.volume).isDir dir.names = true) (hne : ns ≠ [])
    (hallows : ∀ n ∈ ns, m.os.allows n = true) (hfree : m.NoLink dir (ns.map m.canon)) :
    (m.read (base.join m.os { components := ns.map .normal, slash })).map (·.2) =
      match m.lookupBelow base dir ns slash with
      | some (.file content) => some content
      | _ => none := by
  rw [read, locate_join_names hdir hisDir hne hallows hfree, lookupBelow]
  cases hfind : m.findBelow dir (ns.map m.canon) with
  | none => rfl
  | some u =>
      rw [isDir_append _ _ u hfind, Option.filter_some]
      simp only [findBelow] at hfind
      -- Where a directory is asked for and a file stands, nothing is found.
      generalize (!(slash && m.keepsSlash base) || u.isDir []) = fits
      cases fits with
      | false => rfl
      | true => cases u <;> simp [FileTree.content, hfind]

/-- Names are found below a directory only. -/
theorem isDir_of_findBelow {u : FileTree Text Bytes} (hne : ns ≠ [])
    (h : m.findBelow dir ns = some u) : (m.tree dir.volume).isDir dir.names = true := by
  obtain ⟨n, ns, rfl⟩ := List.exists_cons_of_ne_nil hne
  by_contra hdir
  rw [findBelow, FileTree.find_cons_of_not_isDir (Bool.not_eq_true _ ▸ hdir)] at h
  cases h

theorem allows_indexHtml (os : Os) : os.allows indexHtml = true := by
  cases os <;> decide

theorem indexPath_eq : m.indexPath base =
    base.join m.os { components := [indexHtml].map .normal, slash := false } := by
  have hparse : Path.parse m.os (segmentsText [indexHtml] false) = _ :=
    parse_segmentsText (by simp) (by simpa using allows_indexHtml m.os)
  rw [indexPath, parse, ← hparse]
  rfl

/-- The file that is asked for first. -/
theorem requestedPath_segments (hne : ns ≠ []) (h : ∀ n ∈ ns, m.os.allows n = true) :
    m.requestedPath base ('/' :: segmentsText ns slash) =
      base.join m.os { components := ns.map .normal, slash } := by
  have hnil := segmentsText_ne_nil slash hne
    fun n hn => ne_nil_of_isName (isName_of_allows (h n hn))
  rw [requestedPath, if_neg (by simp [hnil]), remainder, parse, parse_segmentsText hne h]

theorem handle_of_not_served {mimeType : Path → String} {r : Request}
    (hmethod : r.method ≠ "OPTIONS") (h : m.served base r = none) :
    (m.handle mimeType base r).status = 404 ∧
      (m.handle mimeType base r).body = "Not Found".toUTF8.toList := by
  rw [handle, if_neg hmethod, h]
  exact ⟨rfl, rfl⟩

end Lookup

end Machine

end Wxp.Serve
