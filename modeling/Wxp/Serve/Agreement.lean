import Wxp.Serve.Assets

/-!
# Serve — Agreement

The same tree of files behind `with_serve_dir` and, as an archive, behind `with_serve_zip`
(`src/builder.rs`). The directory answers a path that has no dot and is not there with the
index; the archive does not, and it has answers of its own: an entry for a directory, and a file
that has backslashes in its name.

Result: `dir_and_zip_agree_iff`.
-/

namespace Wxp.Serve

/-- The path of a GET: plain segments, with or without a slash at the end. -/
structure PlainPath (os : Os) where
  segments : List Text
  slash : Bool
  allows : ∀ n ∈ segments, os.allows n = true

namespace PlainPath

variable {os : Os}

def text (p : PlainPath os) : Text :=
  if p.segments = [] then if p.slash then ['/'] else []
  else '/' :: segmentsText p.segments p.slash

/-- The names that are looked up: without a segment, that of the index. -/
def names (p : PlainPath os) : List Text :=
  if p.segments = [] then [indexHtml] else p.segments

/-- The path is that of a directory. -/
def asksDir (p : PlainPath os) : Bool := p.segments ≠ [] && p.slash

end PlainPath

/-- The contents of the file of these names below the directory. -/
def Machine.fileBelow (m : Machine) (dir : Location) (ns : List Text) : Option Bytes :=
  match m.findBelow dir ns with
  | some (.file content) => some content
  | _ => none

/-- The archive is that of the tree in the directory of `base`. -/
structure Packed (m : Machine) (base : Path) (dir : Location) (archive : ZipArchive) : Prop where
  locate : m.locate base = some dir
  isDir : (m.tree dir.volume).isDir dir.names = true
  noLink : ∀ ns root target, m.findBelow dir ns ≠ some (.link root target)
  /-- The names are those that the file system lists. -/
  name : ∀ ns u, m.findBelow dir ns = some u → ∀ n ∈ ns, m.os.allows n = true ∧ m.canon n = n
  file : ∀ ns content, m.findBelow dir ns = some (.file content) →
    ∃ e ∈ archive.entries, e.name = segmentsText ns false
  /-- Every entry is that of a file, or of a directory. -/
  entry : ∀ e ∈ archive.entries, ∃ ns, ns ≠ [] ∧
    ((∃ content, m.findBelow dir ns = some (.file content) ∧ e.name = segmentsText ns false ∧
        e.file = .ok (some content)) ∨
      (∃ entries, m.findBelow dir ns = some (.dir entries) ∧ e.name = segmentsText ns true ∧
        e.file = .ok (some [])))

/-- What the directory has for the path: the file that the file system finds under it; where
nothing stands and the path has no dot, the index. -/
def Machine.instead (m : Machine) (base : Path) (dir : Location) (ns : List Text)
    (slash : Bool) : Option Bytes :=
  match m.lookupBelow base dir ns slash with
  | some (.file content) => some content
  | some _ => none
  | none =>
      if '.' ∈ segmentsText ns slash then none else m.fileBelow dir [m.canon indexHtml]

/-- What the archive has for a path that is not the name of a file: the entry of a directory, or
a file that has backslashes in its name. -/
def ZipArchive.instead (archive : ZipArchive) (m : Machine) (dir : Location) (ns : List Text)
    (slash : Bool) : Option Bytes :=
  if slash ∧ segmentsText ns true ∈ archive.fileNames then some []
  else m.fileBelow dir [withBackslashes (segmentsText ns slash)]

/-- The path is the name of a file, as the tree spells it. -/
def PlainPath.NamesFile {os : Os} (p : PlainPath os) (m : Machine) (dir : Location) : Prop :=
  p.asksDir = false ∧ m.fileBelow dir p.names ≠ none

/-- The same status and the same body. -/
def Response.Agrees (r r' : Response) : Prop := r.status = r'.status ∧ r.body = r'.body

/-- The file of a response, or that there is none. -/
def Response.Answers (r : Response) : Option Bytes → Prop
  | some content => r.status = 200 ∧ r.body = content
  | none => r.status = 404 ∧ r.body = "Not Found".toUTF8.toList

theorem Response.agrees_iff {r r' : Response} {a a' : Option Bytes} (h : r.Answers a)
    (h' : r'.Answers a') : r.Agrees r' ↔ a = a' := by
  cases a with
  | none =>
      cases a' with
      | none => simp [Response.Agrees, h.1, h.2, h'.1, h'.2]
      | some content' => simp [Response.Agrees, h.1, h'.1]
  | some content =>
      cases a' with
      | none => simp [Response.Agrees, h.1, h'.1]
      | some content' => simp [Response.Agrees, h.1, h.2, h'.1, h'.2]

/-! ## The texts of names -/

section Texts

variable {ns ms : List Text} {slash slash' : Bool}

theorem splitOn_segmentsText (hne : ns ≠ []) (h : ∀ n ∈ ns, isName n = true) :
    (segmentsText ns slash).splitOnP (· == '/') = ns ++ if slash then [[]] else [] := by
  refine splitOnP_segmentsText rfl hne fun n hn c hc => ?_
  rw [beq_eq_false_iff_ne]
  rintro rfl
  exact slash_not_mem_of_isName (h n hn) hc

theorem segmentsText_inj (hns : ns ≠ []) (hms : ms ≠ []) (hn : ∀ n ∈ ns, isName n = true)
    (hm : ∀ n ∈ ms, isName n = true) (h : segmentsText ns slash = segmentsText ms slash') :
    ns = ms ∧ slash = slash' := by
  -- Split at the slashes: a slash at the end shows as an empty text, which is no name.
  have hsplit := congrArg (List.splitOnP (· == '/')) h
  rw [splitOn_segmentsText hns hn, splitOn_segmentsText hms hm] at hsplit
  have hnil : ∀ {l : List Text}, (∀ n ∈ l, isName n = true) → [] ∉ l := by
    intro l hl hmem
    exact ne_nil_of_isName (hl [] hmem) rfl
  cases slash with
  | false =>
      cases slash' with
      | false => simpa using hsplit
      | true =>
          refine absurd ?_ (hnil hn)
          simp at hsplit
          simp [hsplit]
  | true =>
      cases slash' with
      | false =>
          refine absurd ?_ (hnil hm)
          simp at hsplit
          simp [← hsplit]
      | true => simpa using hsplit

/-- A text without a slash is one name. -/
theorem eq_singleton_of_slash_not_mem (hne : ns ≠ []) (h : '/' ∉ segmentsText ns slash) :
    slash = false ∧ ns = [segmentsText ns slash] := by
  obtain ⟨n, ns, rfl⟩ := List.exists_cons_of_ne_nil hne
  cases ns with
  | nil => cases slash <;> simp [segmentsText] at h ⊢
  | cons m ns => simp [segmentsText] at h

theorem slash_not_mem_withBackslashes (t : Text) : '/' ∉ ZipArchive.withBackslashes t := by
  intro h
  obtain ⟨c, -, hc⟩ := List.mem_map.1 h
  split at hc
  · cases hc
  · contradiction

theorem withBackslashes_of_not_mem {t : Text} (h : '/' ∉ t) :
    ZipArchive.withBackslashes t = t := by
  have hself : ∀ c ∈ t, (if c = '/' then '\\' else c) = c := by
    intro c hc
    rw [if_neg]
    rintro rfl
    exact h hc
  exact (List.map_congr_left hself).trans (List.map_id t)

end Texts

namespace PlainPath

variable {os : Os} (p : PlainPath os)

theorem names_ne_nil : p.names ≠ [] := by
  unfold names
  split
  · exact List.cons_ne_nil _ _
  · assumption

theorem allows_names : ∀ n ∈ p.names, os.allows n = true := by
  unfold names
  split
  · simpa using Machine.allows_indexHtml os
  · exact p.allows

theorem isName_names (n : Text) (hn : n ∈ p.names) : isName n = true :=
  isName_of_allows (p.allows_names n hn)

/-- The archive looks the names up. -/
theorem filePath_text : ZipArchive.filePath p.text = segmentsText p.names p.asksDir := by
  unfold text names asksDir
  split
  · rename_i hnil
    cases p.slash <;> simp [ZipArchive.filePath, segmentsText, hnil]
  · rename_i hne
    rw [filePath_segments hne fun n hn => isName_of_allows (p.allows n hn)]
    simp [hne]

theorem mem_text (hne : p.segments ≠ []) : '.' ∈ p.text ↔ '.' ∈ segmentsText p.names p.asksDir := by
  simp [text, names, asksDir, hne]

theorem dot_mem_names (hnil : p.segments = []) : '.' ∈ segmentsText p.names p.asksDir := by
  have hdot : '.' ∈ segmentsText [indexHtml] false := by decide
  simpa [names, asksDir, hnil] using hdot

end PlainPath

/-! ## The answer of the directory -/

section Directory

variable {m : Machine} {base : Path} {dir : Location} {archive : ZipArchive}

theorem fileBelow_eq_some {ns : List Text} {content : Bytes} :
    m.fileBelow dir ns = some content ↔ m.findBelow dir ns = some (.file content) := by
  unfold Machine.fileBelow
  cases m.findBelow dir ns with
  | none => simp
  | some u => cases u <;> simp

theorem Packed.noLink' (h : Packed m base dir archive) (ns : List Text) : m.NoLink dir ns :=
  fun ns' _ => h.noLink ns'

theorem read_index (h : Packed m base dir archive) :
    (m.read (m.indexPath base)).map (·.2) = m.fileBelow dir [m.canon indexHtml] := by
  rw [Machine.indexPath_eq, Machine.read_join_names false h.locate h.isDir (by simp)
      (by simpa using Machine.allows_indexHtml m.os) (h.noLink' _),
    Machine.lookupBelow_false]
  rfl

theorem requestedPath_text (p : PlainPath m.os) : m.requestedPath base p.text =
    base.join m.os { components := p.names.map .normal, slash := p.asksDir } := by
  by_cases hnil : p.segments = []
  · have htext : p.text = ['/'] ∨ p.text = [] := by
      unfold PlainPath.text
      cases p.slash <;> simp [hnil]
    rw [Machine.requestedPath, if_pos htext, Machine.indexPath_eq]
    simp [PlainPath.names, PlainPath.asksDir, hnil]
  · have htext : p.text = '/' :: segmentsText p.segments p.slash := if_neg hnil
    rw [htext, Machine.requestedPath_segments hnil p.allows]
    simp [PlainPath.names, PlainPath.asksDir, hnil]

/-- What the directory answers with. -/
theorem served_text (h : Packed m base dir archive) (p : PlainPath m.os) :
    (m.served base (get p.text)).map (·.2) = m.instead base dir p.names p.asksDir := by
  have hread := Machine.read_join_names p.asksDir h.locate h.isDir p.names_ne_nil p.allows_names
    (h.noLink' (p.names.map m.canon))
  have hexists := Machine.pathExists_join_names p.asksDir h.locate h.isDir p.names_ne_nil p.allows_names
    (h.noLink' (p.names.map m.canon))
  rw [← requestedPath_text] at hread hexists
  rw [Machine.served, if_neg (method_get _), get, Machine.filePath, Machine.instead]
  cases hbelow : m.lookupBelow base dir p.names p.asksDir with
  | some u =>
      rw [hbelow] at hread hexists
      simp only [hexists, Option.isSome_some, Bool.not_true, Bool.false_and, Bool.false_eq_true,
        if_false, hread]
      cases u <;> rfl
  | none =>
      rw [hbelow] at hread hexists
      simp only [hexists, Option.isSome_none, Bool.not_false, Bool.true_and]
      -- Nothing is there. Only a path without a dot falls back to the index, and the empty path
      -- stands for the index itself, which has a dot.
      by_cases hnil : p.segments = []
      · have hindex : m.indexPath base = m.requestedPath base p.text := by
          rw [requestedPath_text, Machine.indexPath_eq]
          simp [PlainPath.names, PlainPath.asksDir, hnil]
        rw [hindex, ite_self, if_pos (p.dot_mem_names hnil)]
        exact hread
      · by_cases hdot : '.' ∈ segmentsText p.names p.asksDir
        · have htext : p.text.contains '.' = true := by simpa using (p.mem_text hnil).2 hdot
          rw [if_neg (by rw [htext]; decide), if_pos hdot]
          exact hread
        · have htext : p.text.contains '.' = false := by simpa using fun h => hdot ((p.mem_text hnil).1 h)
          rw [if_pos (by rw [htext]; decide), if_neg hdot]
          exact read_index h

theorem handle_answers (h : Packed m base dir archive) (mimeType : Path → String)
    (p : PlainPath m.os) : (m.handle mimeType base (get p.text)).Answers
      (m.instead base dir p.names p.asksDir) := by
  rw [← served_text h p]
  cases hserved : m.served base (get p.text) with
  | none => exact Machine.handle_of_not_served (method_get _) hserved
  | some found => exact Machine.handle_of_served hserved

end Directory

/-! ## The answer of the archive -/

section Archive

variable {m : Machine} {base : Path} {dir : Location} {archive : ZipArchive} {ns : List Text}
  {e : ZipEntry}

/-- An entry of that name is the file, or the directory, of these names. -/
theorem entry_of_name (h : Packed m base dir archive) (he : e ∈ archive.entries) (hne : ns ≠ [])
    (hname : ∀ n ∈ ns, isName n = true) {slash : Bool} (heq : e.name = segmentsText ns slash) :
    (slash = false ∧ ∃ content, m.fileBelow dir ns = some content ∧
      e.file = .ok (some content)) ∨ slash = true ∧ e.file = .ok (some []) := by
  obtain ⟨ns', hne', hentry⟩ := h.entry e he
  have hinj : ∀ u slash', m.findBelow dir ns' = some u → e.name = segmentsText ns' slash' →
      ns' = ns ∧ slash' = slash := by
    intro u slash' hfind hname'
    have hallows := h.name ns' u hfind
    exact segmentsText_inj hne' hne (fun n hn => isName_of_allows (hallows n hn).1) hname
      (hname'.symm.trans heq)
  rcases hentry with ⟨content, hfind, hname', hfile⟩ | ⟨entries, hfind, hname', hfile⟩
  · obtain ⟨rfl, rfl⟩ := hinj _ _ hfind hname'
    exact .inl ⟨rfl, content, fileBelow_eq_some.2 hfind, hfile⟩
  · obtain ⟨rfl, rfl⟩ := hinj _ _ hfind hname'
    exact .inr ⟨rfl, hfile⟩

/-- A text without a slash is the name of a file, or of nothing. -/
theorem entry_of_slash_not_mem (h : Packed m base dir archive) (he : e ∈ archive.entries)
    (hslash : '/' ∉ e.name) :
    ∃ content, m.fileBelow dir [e.name] = some content ∧ e.file = .ok (some content) := by
  obtain ⟨ns, hne, ⟨content, hfind, hname, hfile⟩ | ⟨entries, hfind, hname, hfile⟩⟩ := h.entry e he
  · rw [hname] at hslash
    obtain ⟨-, hsingle⟩ := eq_singleton_of_slash_not_mem hne hslash
    rw [← hname] at hsingle
    exact ⟨content, fileBelow_eq_some.2 (hsingle ▸ hfind), hfile⟩
  · rw [hname] at hslash
    cases (eq_singleton_of_slash_not_mem hne hslash).1

theorem fileBelow_of_find_none (h : Packed m base dir archive)
    (hnone : archive.find (segmentsText ns false) = none) : m.fileBelow dir ns = none := by
  cases hfile : m.fileBelow dir ns with
  | none => rfl
  | some content =>
      obtain ⟨e, he, hname⟩ := h.file ns content (fileBelow_eq_some.1 hfile)
      exact absurd (hname ▸ List.mem_map_of_mem he) (ZipArchive.find_eq_none.1 hnone)

theorem answers_of_lookup {path : Text} {mimeType : Text → String} {content : Bytes}
    (hlookup : archive.lookup path = some e) (hfile : e.file = .ok (some content)) :
    (archive.handle mimeType false (get path)).Answers (some content) := by
  have hhandle : archive.handle mimeType false (get path) = _ :=
    ZipArchive.handle_of_lookup (method_get _) hlookup hfile
  rw [hhandle]
  exact ⟨rfl, rfl⟩

theorem answers_of_lookup_none {path : Text} {mimeType : Text → String}
    (h : archive.lookup path = none) :
    (archive.handle mimeType false (get path)).Answers none := by
  have hhandle : archive.handle mimeType false (get path) = _ :=
    ZipArchive.handle_of_none (method_get _) h
  rw [hhandle]
  exact ⟨rfl, rfl⟩

/-- What the archive answers with. -/
def packedAnswer (archive : ZipArchive) (m : Machine) (dir : Location) (ns : List Text)
    (slash : Bool) : Option Bytes :=
  (if slash then none else m.fileBelow dir ns).or (archive.instead m dir ns slash)

theorem packed_answers (h : Packed m base dir archive) (mimeType : Text → String)
    (p : PlainPath m.os) : (archive.handle mimeType false (get p.text)).Answers
      (packedAnswer archive m dir p.names p.asksDir) := by
  have hlookup : archive.lookup p.text =
      (archive.find (segmentsText p.names p.asksDir)).or
        (archive.find (ZipArchive.withBackslashes (segmentsText p.names p.asksDir))) := by
    rw [ZipArchive.lookup, p.filePath_text]
  cases hfind : archive.find (segmentsText p.names p.asksDir) with
  | some e =>
      rw [hfind, Option.some_or] at hlookup
      obtain ⟨he, hname⟩ := ZipArchive.find_eq_some.1 hfind
      rcases entry_of_name h he p.names_ne_nil p.isName_names hname with
        ⟨hslash, content, hbelow, hfile⟩ | ⟨hslash, hfile⟩
      · have hanswer : packedAnswer archive m dir p.names p.asksDir = some content := by
          simp [packedAnswer, hslash, hbelow]
        rw [hanswer]
        exact answers_of_lookup hlookup hfile
      · have hmem : segmentsText p.names true ∈ archive.fileNames := by
          rw [← hslash, ← hname]
          exact List.mem_map_of_mem he
        have hanswer : packedAnswer archive m dir p.names p.asksDir = some [] := by
          simp [packedAnswer, ZipArchive.instead, hslash, hmem]
        rw [hanswer]
        exact answers_of_lookup hlookup hfile
  | none =>
      rw [hfind, Option.none_or] at hlookup
      have hanswer : packedAnswer archive m dir p.names p.asksDir =
          m.fileBelow dir [ZipArchive.withBackslashes (segmentsText p.names p.asksDir)] := by
        cases hslash : p.asksDir with
        | false =>
            rw [hslash] at hfind
            simp [packedAnswer, ZipArchive.instead, fileBelow_of_find_none h hfind]
        | true =>
            rw [hslash] at hfind
            simp [packedAnswer, ZipArchive.instead, ZipArchive.find_eq_none.1 hfind]
      -- The second lookup, with backslashes: that text has no slash, so only a file at the top of the
      -- archive can have it for a name.
      rw [hanswer]
      have hslash := slash_not_mem_withBackslashes (segmentsText p.names p.asksDir)
      generalize ZipArchive.withBackslashes (segmentsText p.names p.asksDir) = t at *
      cases hfind' : archive.find t with
      | some e =>
          obtain ⟨he, rfl⟩ := ZipArchive.find_eq_some.1 hfind'
          obtain ⟨content, hbelow, hfile⟩ := entry_of_slash_not_mem h he hslash
          rw [hbelow]
          exact answers_of_lookup (hlookup.trans hfind') hfile
      | none =>
          have hsingle : segmentsText [t] false = t := List.append_nil t
          rw [fileBelow_of_find_none h (hsingle.symm ▸ hfind')]
          exact answers_of_lookup_none (hlookup.trans hfind')

end Archive

/-! ## The result -/

/-- The paths of a tree without backslashes, where names are spelled in one way only. -/
structure Usual (m : Machine) (dir : Location) (slash : Bool) : Prop where
  canon : ∀ n, m.canon n = n
  noBackslash : ∀ ns u, m.findBelow dir ns = some u → ∀ n ∈ ns, '\\' ∉ n
  noSlash : slash = false

section Result

variable {m : Machine} {base : Path} {dir : Location} {archive : ZipArchive} (p : PlainPath m.os)

/-- The directory has a file of the tree under its name. -/
theorem instead_of_namesFile (h : Packed m base dir archive) {content : Bytes}
    (hslash : p.asksDir = false) (hfile : m.fileBelow dir p.names = some content) :
    m.instead base dir p.names p.asksDir = some content := by
  have hfind := fileBelow_eq_some.1 hfile
  have hcanon : p.names.map m.canon = p.names :=
    (List.map_congr_left fun n hn => (h.name _ _ hfind n hn).2).trans (List.map_id _)
  rw [Machine.instead, hslash, Machine.lookupBelow_false, hcanon, hfind]

theorem answers_eq_iff (h : Packed m base dir archive) :
    m.instead base dir p.names p.asksDir = packedAnswer archive m dir p.names p.asksDir ↔
      p.NamesFile m dir ∨
      m.instead base dir p.names p.asksDir = archive.instead m dir p.names p.asksDir := by
  by_cases hnames : p.NamesFile m dir
  · obtain ⟨hslash, hne⟩ := hnames
    obtain ⟨content, hfile⟩ := Option.ne_none_iff_exists'.1 hne
    refine iff_of_true ?_ (.inl ⟨hslash, hne⟩)
    rw [instead_of_namesFile p h hslash hfile]
    simp [packedAnswer, hslash, hfile]
  · have hother : packedAnswer archive m dir p.names p.asksDir =
        archive.instead m dir p.names p.asksDir := by
      unfold packedAnswer
      split
      · rfl
      · rename_i hslash
        have hnone : m.fileBelow dir p.names = none := by
          by_contra hne
          exact hnames ⟨by simpa using hslash, hne⟩
        rw [hnone, Option.none_or]
    rw [hother]
    simp [hnames]

/-- In a usual tree the archive has nothing else. -/
theorem archive_instead_eq_none (h : Usual m dir p.asksDir) (hnames : ¬ p.NamesFile m dir) :
    archive.instead m dir p.names p.asksDir = none := by
  have hslash := h.noSlash
  rw [ZipArchive.instead, if_neg (by simp [hslash]), hslash]
  by_cases hmem : '/' ∈ segmentsText p.names false
  · cases hfile : m.fileBelow dir [ZipArchive.withBackslashes (segmentsText p.names false)] with
    | none => rfl
    | some content =>
        refine absurd ?_ (h.noBackslash _ _ (fileBelow_eq_some.1 hfile) _ List.mem_cons_self)
        exact List.mem_map.2 ⟨'/', hmem, rfl⟩
  · have hsingle := (eq_singleton_of_slash_not_mem p.names_ne_nil hmem).2
    rw [withBackslashes_of_not_mem hmem, ← hsingle]
    by_contra hne
    exact hnames ⟨hslash, hne⟩

theorem usual_iff (h : Usual m dir p.asksDir) :
    p.NamesFile m dir ∨
      m.instead base dir p.names p.asksDir = archive.instead m dir p.names p.asksDir ↔
    m.findBelow dir p.names ≠ none ∨ '.' ∈ segmentsText p.names p.asksDir ∨
      m.fileBelow dir [indexHtml] = none := by
  have hcanon : p.names.map m.canon = p.names :=
    (List.map_congr_left fun n _ => h.canon n).trans (List.map_id _)
  have hbelow : m.lookupBelow base dir p.names p.asksDir = m.findBelow dir p.names := by
    rw [h.noSlash, Machine.lookupBelow_false, hcanon]
  by_cases hnames : p.NamesFile m dir
  · refine iff_of_true (.inl hnames) (.inl fun hnone => hnames.2 ?_)
    rw [Machine.fileBelow, hnone]
  · rw [archive_instead_eq_none p h hnames, Machine.instead, hbelow, h.canon]
    cases hfind : m.findBelow dir p.names with
    | none => simp [hnames, or_iff_not_imp_left]
    | some u =>
        cases u with
        | file content => exact absurd ⟨h.noSlash, by simp [Machine.fileBelow, hfind]⟩ hnames
        | dir entries => simp
        | link root target => simp

end Result

/-- **The directory and the archive of it agree on a path exactly if it names a file of the tree,
or if they have the same instead.** In a usual tree: something stands under the path, or it has a
dot, or there is no index to fall back to. -/
theorem dir_and_zip_agree_iff {m : Machine} {base : Text} {dir : Location} {archive : ZipArchive}
    {mimeType : Path → String} {zipMimeType : Text → String} {handler : Request → Response}
    {zipHandler : Bool → Request → Response} (h : Packed m (m.parse base) dir archive)
    (hdir : m.withServeDir mimeType base = .ok handler)
    (hzip : ZipArchive.withServeZip (.ok archive) zipMimeType = .ok zipHandler)
    (p : PlainPath m.os) :
    ((handler (get p.text)).Agrees (zipHandler false (get p.text)) ↔
      p.NamesFile m dir ∨ m.instead (m.parse base) dir p.names p.asksDir =
        archive.instead m dir p.names p.asksDir) ∧
    (Usual m dir p.asksDir →
      ((handler (get p.text)).Agrees (zipHandler false (get p.text)) ↔
        m.findBelow dir p.names ≠ none ∨ '.' ∈ segmentsText p.names p.asksDir ∨
          m.fileBelow dir [indexHtml] = none)) := by
  obtain ⟨-, rfl⟩ := Machine.withServeDir_cases hdir
  obtain ⟨_, hopened, rfl⟩ := ZipArchive.withServeZip_cases hzip
  cases hopened
  have hagree := (Response.agrees_iff (handle_answers h mimeType p)
    (packed_answers h zipMimeType p)).trans (answers_eq_iff p h)
  exact ⟨hagree, fun husual => hagree.trans (usual_iff p husual)⟩

/-- The directory of a file, and the archive of it. -/
theorem packed_chain (name : AssetName) (content : Bytes) :
    Packed (chainMachine name.segments content) (.parse .unix ['/']) ⟨0, []⟩
      (singleton (segmentsText name.segments false) content) where
  locate := locate_chain content name.ne_nil
  isDir := isDir_chain content name.ne_nil
  noLink := fun _ _ _ => find_chain_ne_link
  name := by
    intro ns u hfind n hn
    have hmem := mem_of_find_chain hfind n hn
    exact ⟨name.isName n hmem, rfl⟩
  file := by
    intro ns content' hfind
    obtain rfl := eq_of_find_chain hfind
    exact ⟨_, List.mem_singleton_self _, rfl⟩
  entry := by
    intro e he
    obtain rfl := List.mem_singleton.1 he
    exact ⟨name.segments, name.ne_nil, .inl ⟨content, find_chain _, rfl, rfl⟩⟩

def app : AssetName where
  segments := [indexHtml]
  ne_nil := by simp
  isName := by decide

def settings : PlainPath .unix where
  segments := ["settings".toList]
  slash := false
  allows := by decide

/-- The page that the directory has for a route. -/
def appHandler : Request → Response :=
  (chainMachine app.segments [72]).handle (fun _ => "") (.parse .unix ['/'])

def appZipHandler : Bool → Request → Response :=
  (singleton indexHtml [72]).handle fun _ => ""

theorem usual_app : Usual (chainMachine app.segments [72]) ⟨0, []⟩ settings.asksDir where
  canon := fun _ => rfl
  noBackslash := by
    intro ns u hfind n hn
    have hmem := List.mem_singleton.1 (mem_of_find_chain hfind n hn)
    rw [hmem]
    decide
  noSlash := rfl

theorem dir_and_zip_agree_iff_app :
    ¬ (appHandler (get settings.text)).Agrees (appZipHandler false (get settings.text)) := by
  intro hagree
  have hcond := ((dir_and_zip_agree_iff (packed_chain app [72])
    (withServeDir_chain (fun _ => "") [72] app.ne_nil) rfl settings).2 usual_app).1 hagree
  revert hcond
  decide

/-- A route of the page is answered with the index from the directory, and with 404 from the
archive of it. -/
theorem route_is_not_in_the_archive : settings.text = "/settings".toList ∧
    Packed (chainMachine app.segments [72]) (.parse .unix ['/']) ⟨0, []⟩
      (singleton indexHtml [72]) ∧
    (appHandler (get settings.text)).status = 200 ∧
    (appHandler (get settings.text)).body = [72] ∧
    (appZipHandler false (get settings.text)).status = 404 := by
  refine ⟨by decide, packed_chain app [72], ?_, ?_, ?_⟩
  all_goals decide

end Wxp.Serve
