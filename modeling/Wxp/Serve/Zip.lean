import Wxp.Serve.Segments
import Mathlib.Data.List.Nodup
import Mathlib.Logic.Function.Basic

/-!
# Serve — Zip

`WxpWebViewBuilder::with_serve_zip` (`src/builder.rs`) over an archive that is open already: its
entries, in the order of their indices. `file_names` gives the keys of an index map, so no name
is there twice.

The handler looks the path up among the names as it is, and then with a backslash for every
slash.
-/

namespace Wxp.Serve

inductive ZipError
  | fileNotFound
  /-- Any other error, by its text. -/
  | other (text : String)
  deriving DecidableEq, Repr

structure ZipEntry where
  name : Text
  /-- `by_index`, and what `read_to_end` gives. -/
  file : Except ZipError (Option Bytes)

structure ZipArchive where
  entries : List ZipEntry
  nodup : (entries.map (·.name)).Nodup

namespace ZipArchive

def fileNames (archive : ZipArchive) : List Text := archive.entries.map (·.name)

/-- `filepath_to_index.insert(name, i)`. -/
def insertName (map : Text → Option Nat) (v : Text × Nat) : Text → Option Nat :=
  Function.update map v.1 (some v.2)

/-- `filepath_to_index`. -/
def filepathToIndex (archive : ZipArchive) : Text → Option Nat :=
  archive.fileNames.zipIdx.foldl insertName fun _ => none

def byIndex (archive : ZipArchive) (i : Nat) : Except ZipError (Option Bytes) :=
  match archive.entries[i]? with
  | some entry => entry.file
  | none => .error .fileNotFound

/-- The text of the path that is looked up. -/
def filePath (path : Text) : Text :=
  if path = ['/'] ∨ path = [] then indexHtml else path.dropWhile (· == '/')

/-- `replace('/', "\\")`. -/
def withBackslashes (t : Text) : Text := t.map fun c => if c = '/' then '\\' else c

def entryIndex (archive : ZipArchive) (path : Text) : Option Nat :=
  (archive.filepathToIndex (filePath path)).or
    (archive.filepathToIndex (withBackslashes (filePath path)))

def notFound : Response where
  status := 404
  headers := [("Content-Type", "text/plain"), ("Access-Control-Allow-Origin", "*")]
  body := "Not Found".toUTF8.toList

def internalServerError (text : String) : Response where
  status := 500
  headers := [("Content-Type", "text/plain"), ("Access-Control-Allow-Origin", "*")]
  body := ("Internal Server Error: " ++ text).toUTF8.toList

/-- The protocol handler; `mimeType` is that of `mime_guess`, and `poisoned` says that an earlier
request has panicked with the archive locked. -/
def handle (archive : ZipArchive) (mimeType : Text → String) (poisoned : Bool) (r : Request) :
    Response :=
  if r.method = "OPTIONS" then { headers := corsHeaders, body := [] }
  else if poisoned then internalServerError "Failed to lock ZIP archive"
  else
    match archive.entryIndex r.path with
    | none => notFound
    | some i =>
        match archive.byIndex i with
        | .ok (some body) =>
            { headers := ("Content-Type", mimeType (filePath r.path)) :: corsHeaders, body }
        | .ok none => internalServerError "Failed to read ZIP file"
        | .error .fileNotFound => notFound
        | .error (.other text) => internalServerError text

/-- `with_serve_zip`; `opened` is what `ZipArchive::new` gives. -/
def withServeZip (opened : Except String ZipArchive) (mimeType : Text → String) :
    Except String (Bool → Request → Response) :=
  opened.map fun archive => archive.handle mimeType

/-! ## The index -/

theorem foldl_insertName_of_not_mem {names : List Text} {k : Nat} {map : Text → Option Nat}
    {n : Text} (h : n ∉ names) : (names.zipIdx k).foldl insertName map n = map n := by
  induction names generalizing k map with
  | nil => rfl
  | cons m names ih =>
      rw [List.mem_cons, not_or] at h
      rw [List.zipIdx_cons, List.foldl_cons, ih h.2, insertName, Function.update_of_ne h.1]

theorem foldl_insertName_eq {names : List Text} (hnodup : names.Nodup) {k : Nat}
    {map : Text → Option Nat} {n : Text} {i : Nat} (h : names[i]? = some n) :
    (names.zipIdx k).foldl insertName map n = some (k + i) := by
  induction names generalizing k map i with
  | nil => simp at h
  | cons m names ih =>
      rw [List.nodup_cons] at hnodup
      rw [List.zipIdx_cons, List.foldl_cons]
      cases i with
      -- A later name cannot overwrite this one: it would be the same name.
      | zero =>
          obtain rfl : m = n := by simpa using h
          rw [foldl_insertName_of_not_mem hnodup.1, insertName, Function.update_self, Nat.add_zero]
      | succ i =>
          rw [ih hnodup.2 (by simpa using h)]
          congr 1
          omega

/-- The entry of that name. -/
def find (archive : ZipArchive) (n : Text) : Option ZipEntry :=
  archive.entries.find? fun e => e.name = n

variable {archive : ZipArchive} {n path : Text} {e : ZipEntry}

theorem find_of_mem (he : e ∈ archive.entries) : archive.find e.name = some e := by
  cases hfind : archive.find e.name with
  | none => simpa using List.find?_eq_none.1 hfind e he
  | some e' =>
      have hname : e'.name = e.name := by simpa using List.find?_some hfind
      exact congrArg some (List.inj_on_of_nodup_map archive.nodup (List.mem_of_find?_eq_some hfind)
        he hname)

theorem find_eq_some : archive.find n = some e ↔ e ∈ archive.entries ∧ e.name = n := by
  constructor
  · intro h
    exact ⟨List.mem_of_find?_eq_some h, by simpa using List.find?_some h⟩
  · rintro ⟨he, rfl⟩
    exact find_of_mem he

theorem find_eq_none : archive.find n = none ↔ n ∉ archive.fileNames := by
  simp [find, fileNames, List.find?_eq_none]

theorem filepathToIndex_of_find (h : archive.find n = some e) :
    ∃ i, archive.filepathToIndex n = some i ∧ archive.byIndex i = e.file := by
  obtain ⟨he, rfl⟩ := find_eq_some.1 h
  obtain ⟨i, hi⟩ := List.mem_iff_getElem?.1 he
  refine ⟨0 + i, foldl_insertName_eq archive.nodup ?_, ?_⟩
  · simp [hi]
  · simp [byIndex, hi]

theorem filepathToIndex_of_none (h : archive.find n = none) :
    archive.filepathToIndex n = none :=
  foldl_insertName_of_not_mem (find_eq_none.1 h)

/-- The entry that the path leads to. -/
def lookup (archive : ZipArchive) (path : Text) : Option ZipEntry :=
  (archive.find (filePath path)).or (archive.find (withBackslashes (filePath path)))

theorem entryIndex_of_lookup (h : archive.lookup path = some e) :
    ∃ i, archive.entryIndex path = some i ∧ archive.byIndex i = e.file := by
  -- The index map is asked twice, for the path and for the path with backslashes.
  unfold lookup at h
  unfold entryIndex
  cases hname : archive.find (filePath path) with
  | some e' =>
      rw [hname, Option.some_or, Option.some.injEq] at h
      obtain ⟨i, hi, hfile⟩ := filepathToIndex_of_find hname
      exact ⟨i, by rw [hi, Option.some_or], h ▸ hfile⟩
  | none =>
      rw [hname, Option.none_or] at h
      rw [filepathToIndex_of_none hname, Option.none_or]
      exact filepathToIndex_of_find h

theorem entryIndex_of_none (h : archive.lookup path = none) : archive.entryIndex path = none := by
  rw [lookup, Option.or_eq_none_iff] at h
  rw [entryIndex, filepathToIndex_of_none h.1, filepathToIndex_of_none h.2, Option.none_or]

/-- The handler answers with the contents of the entry, if they can be read. -/
theorem handle_of_lookup {mimeType : Text → String} {r : Request} {body : Bytes}
    (hmethod : r.method ≠ "OPTIONS") (h : archive.lookup r.path = some e)
    (hfile : e.file = .ok (some body)) :
    archive.handle mimeType false r =
      { headers := ("Content-Type", mimeType (filePath r.path)) :: corsHeaders, body } := by
  obtain ⟨i, hi, hbyIndex⟩ := entryIndex_of_lookup h
  simp [handle, hmethod, hi, hbyIndex, hfile]

theorem handle_of_none {mimeType : Text → String} {r : Request}
    (hmethod : r.method ≠ "OPTIONS") (h : archive.lookup r.path = none) :
    archive.handle mimeType false r = notFound := by
  simp [handle, hmethod, entryIndex_of_none h]

theorem withServeZip_cases {opened : Except String ZipArchive} {mimeType : Text → String}
    {handler : Bool → Request → Response} (h : withServeZip opened mimeType = .ok handler) :
    ∃ archive, opened = .ok archive ∧ handler = archive.handle mimeType := by
  cases opened with
  | error text => cases h
  | ok archive =>
      cases h
      exact ⟨archive, rfl, rfl⟩

end ZipArchive

end Wxp.Serve
