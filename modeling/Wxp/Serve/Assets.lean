import Wxp.Foundations.PercentEncoding
import Wxp.Serve.Zip

/-!
# Serve — Assets

The way from the name of an asset to its URL and back. A browser percent-encodes the segments of
the name; `with_serve_dir` and `with_serve_zip` (`src/builder.rs`) look the path up as it is, and
decode nothing.

Result: `asset_reachable_iff`.
-/

namespace Wxp.Serve

/-- The relative name of a file. -/
structure AssetName where
  segments : List Text
  ne_nil : segments ≠ []
  isName : ∀ n ∈ segments, isName n = true

/-- The path of the URL of an asset. -/
def AssetName.urlPath (name : AssetName) (E : SegmentEncoding) : Text :=
  '/' :: segmentsText (name.segments.map E.encode) false

def get (path : Text) : Request where
  method := "GET"
  path := path

theorem method_get (path : Text) : (get path).method ≠ "OPTIONS" := by
  simp [get]

/-- In the directory of `base` stands a regular file of that name. -/
structure Machine.HasAsset (m : Machine) (base : Path) (name : AssetName) (content : Bytes) :
    Prop where
  allows : ∀ n ∈ name.segments, m.os.allows n = true
  /-- The directories list the names so. -/
  canon : name.segments.map m.canon = name.segments
  file : ∃ dir, m.locate base = some dir ∧
    m.findBelow dir name.segments = some (.file content)

/-- An entry of that name can be read. Archives made on Windows may have backslashes. -/
def ZipArchive.HasAsset (archive : ZipArchive) (name : AssetName) (content : Bytes) : Prop :=
  ∃ e, e.file = .ok (some content) ∧
    (archive.find (segmentsText name.segments false) = some e ∨
      archive.find (segmentsText name.segments false) = none ∧
        archive.find (ZipArchive.withBackslashes (segmentsText name.segments false)) = some e)

/-- Every character of the name stands for itself in a URL. -/
def AssetName.Plain (E : SegmentEncoding) (name : AssetName) : Prop :=
  ∀ n ∈ name.segments, ∀ c ∈ n, E.keeps c = true

instance (E : SegmentEncoding) (name : AssetName) : Decidable (name.Plain E) :=
  decidable_of_iff (name.segments.all fun n => n.all E.keeps) (by simp [AssetName.Plain])

/-! ## The path of the URL -/

section Paths

variable {E : SegmentEncoding} {name : AssetName} {ns : List Text}

theorem plain_iff : name.Plain E ↔ name.segments.map E.encode = name.segments := by
  have hmap : name.segments.map E.encode = name.segments.map id ↔ _ := List.map_inj_left
  rw [List.map_id] at hmap
  simp only [AssetName.Plain, ← SegmentEncoding.encode_eq_self_iff, hmap, id]

/-- A path with a segment is not that of the index. -/
theorem segments_ne_root (hne : ns ≠ []) (h : ∀ n ∈ ns, n ≠ []) {slash : Bool} :
    ¬ ('/' :: segmentsText ns slash = ['/'] ∨ '/' :: segmentsText ns slash = []) := by
  have hnil := segmentsText_ne_nil slash hne h
  simp [hnil]

theorem filePath_segments (hne : ns ≠ []) (h : ∀ n ∈ ns, isName n = true) {slash : Bool} :
    ZipArchive.filePath ('/' :: segmentsText ns slash) = segmentsText ns slash := by
  have hnil : ∀ n ∈ ns, n ≠ [] := fun n hn => ne_nil_of_isName (h n hn)
  have hsep : ∀ n ∈ ns, ∀ c ∈ n, (c == '/') = false := by
    intro n hn c hc
    rw [beq_eq_false_iff_ne]
    rintro rfl
    exact slash_not_mem_of_isName (h n hn) hc
  have hhead := head_segmentsText slash hne hnil hsep
  rw [ZipArchive.filePath, if_neg (segments_ne_root hne hnil)]
  cases hs : segmentsText ns slash with
  | nil => rfl
  | cons c t =>
      have hc : (c == '/') = false := by simpa [hs] using hhead
      simp [hc]

/-- An encoded name is a name. -/
theorem isName_encode {n : Text} (h : isName n = true) : isName (E.encode n) = true := by
  by_cases hself : E.encode n = n
  · rwa [hself]
  · have hpercent := SegmentEncoding.percent_mem_encode hself
    have hdots : E.encode n ≠ ['.'] ∧ E.encode n ≠ ['.', '.'] := by
      constructor <;> (intro heq; simp [heq] at hpercent)
    simp [isName, SegmentEncoding.encode_ne_nil (ne_nil_of_isName h), hdots,
      SegmentEncoding.slash_not_mem_encode]

/-- Encoding makes the text longer where it does anything. -/
theorem length_segmentsText_le (slash : Bool) : (segmentsText ns slash).length ≤
    (segmentsText (ns.map E.encode) slash).length := by
  induction ns with
  | nil => exact Nat.le_refl _
  | cons n ns ih =>
      have hn := SegmentEncoding.length_le_encode (E := E) (n := n)
      cases ns with
      | nil => simpa [segmentsText] using hn
      | cons m ns =>
          simp only [List.map_cons, segmentsText, List.length_append, List.length_cons] at ih ⊢
          omega

theorem length_segmentsText_lt {slash : Bool} {n : Text} {c : Char} (hn : n ∈ ns) (hc : c ∈ n)
    (h : E.keeps c = false) :
    (segmentsText ns slash).length < (segmentsText (ns.map E.encode) slash).length := by
  induction ns with
  | nil => cases hn
  | cons m ns ih =>
      have hm := SegmentEncoding.length_le_encode (E := E) (n := m)
      have hrest : (segmentsText ns slash).length ≤ (segmentsText (ns.map E.encode) slash).length :=
        length_segmentsText_le slash
      rcases List.mem_cons.1 hn with rfl | hn
      · have hlt := SegmentEncoding.length_lt_encode hc h
        cases ns with
        | nil => simpa [segmentsText] using hlt
        | cons m' ns =>
            simp only [List.map_cons, segmentsText, List.length_append, List.length_cons] at hrest ⊢
            omega
      · have hih := ih hn
        cases ns with
        | nil => cases hn
        | cons m' ns =>
            simp only [List.map_cons, segmentsText, List.length_append, List.length_cons] at hih ⊢
            omega

theorem length_of_not_plain (h : ¬ name.Plain E) : (segmentsText name.segments false).length <
    (segmentsText (name.segments.map E.encode) false).length := by
  unfold AssetName.Plain at h
  push Not at h
  obtain ⟨n, hn, c, hc, hkeeps⟩ := h
  exact length_segmentsText_lt hn hc (Bool.not_eq_true _ ▸ hkeeps)

end Paths

/-! ## From a directory -/

section Directory

variable {E : SegmentEncoding} {name : AssetName} {content : Bytes}

theorem served_asset {m : Machine} {base : Path} (h : m.HasAsset base name content)
    (hplain : name.Plain E) : ∃ loc, m.served base (get (name.urlPath E)) = some (loc, content) := by
  obtain ⟨dir, hdir, hfile⟩ := h.file
  have hisDir := Machine.isDir_of_findBelow name.ne_nil hfile
  have hurl : name.urlPath E = '/' :: segmentsText name.segments false := by
    rw [AssetName.urlPath, plain_iff.1 hplain]
  have hfree : m.NoLink dir (name.segments.map m.canon) := by
    rw [h.canon]
    refine FileTree.not_link_of_content (?_ : FileTree.content _ _ = some content)
    simp only [Machine.findBelow] at hfile
    simp [FileTree.content, hfile]
  have hbelow : m.lookupBelow base dir name.segments false = some (.file content) := by
    rw [Machine.lookupBelow_false, h.canon, hfile]
  have hrequested : m.requestedPath base (name.urlPath E) = _ :=
    hurl ▸ Machine.requestedPath_segments name.ne_nil h.allows
  have hpath : m.filePath base (name.urlPath E) = m.requestedPath base (name.urlPath E) := by
    have hexists := Machine.pathExists_join_names false hdir hisDir name.ne_nil h.allows hfree
    rw [← hrequested, hbelow] at hexists
    simp [Machine.filePath, hexists]
  have hread := Machine.read_join_names false hdir hisDir name.ne_nil h.allows hfree
  rw [← hrequested, hbelow, Option.map_eq_some_iff] at hread
  obtain ⟨⟨loc, _⟩, hread, rfl⟩ := hread
  refine ⟨loc, ?_⟩
  rw [Machine.served, if_neg (method_get _), get, hpath, hread]

/-- A directory with one file in it, at the end of the names. -/
def chain (content : Bytes) : List Text → FileTree Text Bytes
  | [] => .file content
  | n :: ns => .dir [(n, chain content ns)]

def chainMachine (ns : List Text) (content : Bytes) : Machine where
  os := .unix
  volume := fun _ => 0
  tree
    | 0 => chain content ns
    | _ => .dir []
  devices := 1
  device_file _ _ h := nomatch h
  cwd := fun _ => []
  canon := id

theorem find_chain (ns : List Text) : (chain content ns).find ns = some (.file content) := by
  induction ns with
  | nil => rfl
  | cons n ns ih => rw [chain, FileTree.find_singleton, if_pos rfl, ih]

theorem eq_of_find_chain {ns ms : List Text} {content' : Bytes}
    (h : (chain content ns).find ms = some (.file content')) : ms = ns := by
  induction ns generalizing ms with
  | nil =>
      cases ms with
      | nil => rfl
      | cons m ms => cases h
  | cons n ns ih =>
      cases ms with
      | nil => cases h
      | cons m ms =>
          rw [chain, FileTree.find_singleton, Option.ite_none_right_eq_some] at h
          rw [h.1, ih h.2]

theorem mem_of_find_chain {ns ms : List Text} {u : FileTree Text Bytes}
    (h : (chain content ns).find ms = some u) : ∀ n ∈ ms, n ∈ ns := by
  induction ns generalizing ms with
  | nil =>
      cases ms with
      | nil => simp
      | cons m ms => cases h
  | cons n ns ih =>
      cases ms with
      | nil => simp
      | cons m ms =>
          rw [chain, FileTree.find_singleton, Option.ite_none_right_eq_some] at h
          rw [← h.1]
          exact List.cons_subset_cons _ (ih h.2)

theorem find_chain_ne_link {ns ms : List Text} {root : Bool} {target : List (Component Text)} :
    (chain content ns).find ms ≠ some (.link root target) := by
  intro hlink
  induction ns generalizing ms with
  | nil => cases ms <;> cases hlink
  | cons n ns ih =>
      cases ms with
      | nil => cases hlink
      | cons m ms =>
          rw [chain, FileTree.find_singleton, Option.ite_none_right_eq_some] at hlink
          exact ih hlink.2

theorem isDir_chain (content : Bytes) {ns : List Text} (h : ns ≠ []) :
    (chain content ns).isDir [] = true := by
  obtain ⟨n, ns, rfl⟩ := List.exists_cons_of_ne_nil h
  simp [chain, FileTree.isDir, FileTree.find]

theorem locate_chain (content : Bytes) {ns : List Text} (h : ns ≠ []) :
    (chainMachine ns content).locate (.parse .unix ['/']) = some ⟨0, []⟩ := by
  obtain ⟨n, ns, rfl⟩ := List.exists_cons_of_ne_nil h
  rfl

/-- The index of the directory is a file only if that is the name. -/
theorem not_plain_index (h : ¬ name.Plain E) : name.segments ≠ [indexHtml] := by
  intro hs
  refine h fun n hn c hc => E.unreserved c ?_
  have hall : indexHtml.all isUnreserved = true := by decide
  rw [hs, List.mem_singleton] at hn
  exact List.all_eq_true.1 hall c (hn ▸ hc)

/-- The one file of the directory is not found under its URL. -/
theorem served_chain (h : ¬ name.Plain E) :
    (chainMachine name.segments content).served (.parse .unix ['/']) (get (name.urlPath E)) =
      none := by
  have hdir := locate_chain content name.ne_nil
  have hfree : ∀ names, (chainMachine name.segments content).NoLink ⟨0, []⟩ names :=
    fun _ _ _ _ _ => find_chain_ne_link
  have hisDir := isDir_chain content name.ne_nil
  have hnone : ∀ ms, ms ≠ [] → (∀ n ∈ ms, Os.unix.allows n = true) →
      (∀ c, (chain content name.segments).find ms ≠ some (.file c)) →
      (chainMachine name.segments content).read ((Path.parse .unix ['/']).join
        (chainMachine name.segments content).os { components := ms.map .normal, slash := false }) =
          none := by
    intro ms hne hallows hms
    have hread := Machine.read_join_names false hdir hisDir hne hallows (hfree (ms.map _))
    rw [Machine.lookupBelow_false] at hread
    have hfind : (chainMachine name.segments content).findBelow ⟨0, []⟩
        (ms.map (chainMachine name.segments content).canon) =
          (chain content name.segments).find ms := by
      simp [Machine.findBelow, chainMachine]
    rw [hfind] at hread
    cases hf : (chain content name.segments).find ms with
    | none => simpa [hf] using hread
    | some u =>
        cases u with
        | file c => exact absurd hf (hms c)
        | dir | link => simpa [hf] using hread
  -- The names that are looked up are the encoded ones, which are those of no file.
  have hencoded : ∀ c, (chain content name.segments).find (name.segments.map E.encode) ≠
      some (.file c) := by
    intro c hc
    exact h (plain_iff.2 (eq_of_find_chain hc))
  -- The fallback does not help: a name that has to be encoded is not that of the index.
  have hindex : ∀ c, (chain content name.segments).find [indexHtml] ≠ some (.file c) := by
    intro c hc
    exact not_plain_index h (eq_of_find_chain hc).symm
  have hallows : ∀ n ∈ name.segments.map E.encode, Os.unix.allows n = true := by
    intro n hn
    obtain ⟨n', hn', rfl⟩ := List.mem_map.1 hn
    exact isName_encode (name.isName n' hn')
  have hrequested : (chainMachine name.segments content).requestedPath (.parse .unix ['/'])
      (name.urlPath E) = _ :=
    Machine.requestedPath_segments (by simpa using name.ne_nil) hallows
  rw [Machine.served, if_neg (method_get _), get, Machine.filePath, hrequested]
  split
  · rw [Machine.indexPath_eq]
    exact hnone _ (by simp) (by simpa using Machine.allows_indexHtml .unix) hindex
  · exact hnone _ (by simpa using name.ne_nil) hallows hencoded

theorem hasAsset_chain (name : AssetName) :
    (chainMachine name.segments content).HasAsset (.parse .unix ['/']) name content where
  allows := name.isName
  canon := List.map_id _
  file := ⟨⟨0, []⟩, locate_chain content name.ne_nil, find_chain _⟩

theorem withServeDir_chain (mimeType : Path → String) (content : Bytes) {ns : List Text}
    (h : ns ≠ []) : (chainMachine ns content).withServeDir mimeType ['/'] =
      .ok ((chainMachine ns content).handle mimeType (.parse .unix ['/'])) := by
  have hexists : (chainMachine ns content).pathExists
      ((chainMachine ns content).parse ['/']) = true := by
    rw [Machine.pathExists]
    exact congrArg Option.isSome (locate_chain content h)
  rw [Machine.withServeDir, hexists]
  rfl

end Directory

/-! ## From an archive -/

section Archive

variable {E : SegmentEncoding} {name : AssetName} {content : Bytes} {archive : ZipArchive}

theorem lookup_asset (h : archive.HasAsset name content) (hplain : name.Plain E) :
    ∃ e, archive.lookup (name.urlPath E) = some e ∧ e.file = .ok (some content) := by
  obtain ⟨e, hfile, hfind⟩ := h
  refine ⟨e, ?_, hfile⟩
  rw [ZipArchive.lookup, AssetName.urlPath, plain_iff.1 hplain,
    filePath_segments name.ne_nil name.isName]
  rcases hfind with hfind | ⟨hnone, hfind⟩
  · rw [hfind, Option.some_or]
  · rw [hnone, hfind, Option.none_or]

theorem handle_asset {mimeType : Text → String} (h : archive.HasAsset name content)
    (hplain : name.Plain E) :
    (archive.handle mimeType false (get (name.urlPath E))).status = 200 ∧
      (archive.handle mimeType false (get (name.urlPath E))).body = content := by
  obtain ⟨e, hlookup, hfile⟩ := lookup_asset h hplain
  have hhandle : archive.handle mimeType false (get (name.urlPath E)) = _ :=
    ZipArchive.handle_of_lookup (method_get _) hlookup hfile
  rw [hhandle]
  exact ⟨rfl, rfl⟩

/-- An archive of one file. -/
def singleton (name : Text) (content : Bytes) : ZipArchive where
  entries := [⟨name, .ok (some content)⟩]
  nodup := by simp

theorem lookup_singleton (h : ¬ name.Plain E) :
    (singleton (segmentsText name.segments false) content).lookup (name.urlPath E) = none := by
  have hlen := length_of_not_plain h
  have hencode : ∀ n ∈ name.segments.map E.encode, isName n = true := by
    intro n hn
    obtain ⟨n', hn', rfl⟩ := List.mem_map.1 hn
    exact isName_encode (name.isName n' hn')
  rw [ZipArchive.lookup, AssetName.urlPath, filePath_segments (by simpa using name.ne_nil) hencode,
    Option.or_eq_none_iff, ZipArchive.find_eq_none, ZipArchive.find_eq_none]
  simp only [singleton, ZipArchive.fileNames, List.map_cons, List.map_nil, List.mem_singleton]
  constructor
  · intro heq
    rw [heq] at hlen
    exact Nat.lt_irrefl _ hlen
  · intro heq
    -- Backslashes for slashes leave the length as it is, and the encoded text is longer.
    have hsame : (ZipArchive.withBackslashes
        (segmentsText (name.segments.map E.encode) false)).length =
          (segmentsText (name.segments.map E.encode) false).length := by
      simp [ZipArchive.withBackslashes]
    rw [heq] at hsame
    omega

theorem notFound_singleton {mimeType : Text → String} (h : ¬ name.Plain E) :
    ((singleton (segmentsText name.segments false) content).handle mimeType false
      (get (name.urlPath E))).status = 404 :=
  congrArg Response.status (ZipArchive.handle_of_none (method_get _) (lookup_singleton h))

theorem hasAsset_singleton (name : AssetName) (content : Bytes) :
    (singleton (segmentsText name.segments false) content).HasAsset name content := by
  refine ⟨⟨segmentsText name.segments false, .ok (some content)⟩, rfl, .inl ?_⟩
  exact ZipArchive.find_eq_some.2 ⟨List.mem_singleton_self _, rfl⟩

end Archive

/-! ## The result -/

/-- Every directory that has an asset of this name answers a GET of its URL with its bytes. -/
def AssetName.ServedFromDir (name : AssetName) (E : SegmentEncoding) : Prop :=
  ∀ (m : Machine) (mimeType : Path → String) (base : Text) (handler : Request → Response)
    (content : Bytes), m.withServeDir mimeType base = .ok handler →
    m.HasAsset (m.parse base) name content →
    (handler (get (name.urlPath E))).status = 200 ∧
      (handler (get (name.urlPath E))).body = content

/-- Every archive that has an asset of this name does. -/
def AssetName.ServedFromZip (name : AssetName) (E : SegmentEncoding) : Prop :=
  ∀ (archive : ZipArchive) (mimeType : Text → String) (handler : Bool → Request → Response)
    (content : Bytes), ZipArchive.withServeZip (.ok archive) mimeType = .ok handler →
    archive.HasAsset name content →
    (handler false (get (name.urlPath E))).status = 200 ∧
      (handler false (get (name.urlPath E))).body = content

/-- **An asset is reachable by its URL**, in every directory and in every archive that has it,
exactly if each character of its name stands for itself in a URL. -/
theorem asset_reachable_iff (E : SegmentEncoding) (name : AssetName) :
    (name.ServedFromDir E ↔ name.Plain E) ∧ (name.ServedFromZip E ↔ name.Plain E) := by
  refine ⟨⟨fun h => ?_, fun hplain => ?_⟩, ⟨fun h => ?_, fun hplain => ?_⟩⟩
  · by_contra hplain
    have hserve := withServeDir_chain (fun _ => "") [] name.ne_nil
    have hstatus := (h _ _ _ _ [] hserve (hasAsset_chain name)).1
    rw [(Machine.handle_of_not_served (method_get _) (served_chain hplain)).1] at hstatus
    cases hstatus
  · intro m mimeType base handler content hserve hasset
    obtain ⟨-, rfl⟩ := Machine.withServeDir_cases hserve
    obtain ⟨loc, hserved⟩ := served_asset hasset hplain
    exact Machine.handle_of_served hserved
  · by_contra hplain
    have hstatus : (ZipArchive.handle _ (fun _ => "") false _).status = 200 :=
      (h _ _ _ [] rfl (hasAsset_singleton name [])).1
    rw [notFound_singleton hplain] at hstatus
    cases hstatus
  · intro archive mimeType handler content hserve hasset
    obtain ⟨_, hopened, rfl⟩ := ZipArchive.withServeZip_cases hserve
    cases hopened
    exact handle_asset hasset hplain

/-- The characters that a segment of a URI may have as they are. -/
def pchar : SegmentEncoding where
  keeps c := isUnreserved c || "!$&'()*+,;=:@".toList.contains c
  unreserved := by
    intro c hc
    simp [hc]
  percent := by decide
  slash := by decide

def notes : AssetName where
  segments := ["a b.txt".toList]
  ne_nil := by simp
  isName := by decide

/-- A file with a blank in its name is not found, neither in the directory nor in the archive. -/
theorem blank_is_not_decoded : notes.urlPath pchar = "/a%20b.txt".toList ∧
    (chainMachine notes.segments [72]).HasAsset (.parse .unix ['/']) notes [72] ∧
    ((chainMachine notes.segments [72]).handle (fun _ => "") (.parse .unix ['/'])
      (get (notes.urlPath pchar))).status = 404 ∧
    (singleton "a b.txt".toList [72]).HasAsset notes [72] ∧
    ((singleton "a b.txt".toList [72]).handle (fun _ => "") false
      (get (notes.urlPath pchar))).status = 404 := by
  have hplain : ¬ notes.Plain pchar := by decide
  refine ⟨by decide, hasAsset_chain notes, ?_, hasAsset_singleton notes [72], ?_⟩
  · exact (Machine.handle_of_not_served (method_get _) (served_chain hplain)).1
  · exact notFound_singleton hplain

end Wxp.Serve
