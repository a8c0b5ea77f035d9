import Wxp.Foundations.FileTree

/-!
# Serve — Paths

`std::path` on Unix and on Windows, as far as `with_serve_dir` (`src/builder.rs`) uses it:
the components of a text and `Path::join`.

* On Unix `/` separates and a leading one is the root.
* On Windows `\` separates as well, and a path may begin with a prefix. All prefixes but
  that of a drive imply a root. After a verbatim prefix only `\` separates, and `join`
  takes `.` and `..` away.

An empty component says nothing, except at the end: there has to be a directory. Windows
reserves some names for its devices (`deviceName`), in every directory.
-/

namespace Wxp.Serve

inductive Os
  | unix
  | windows
  deriving DecidableEq, Repr

abbrev Text := List Char

/-- `std::path::Prefix`. -/
inductive PathPrefix
  | verbatim (name : Text)
  | verbatimUnc (server share : Text)
  | verbatimDisk (drive : Char)
  | deviceNs (name : Text)
  | unc (server share : Text)
  | disk (drive : Char)
  deriving DecidableEq, Repr

def PathPrefix.isVerbatim : PathPrefix → Bool
  | .verbatim _ | .verbatimUnc _ _ | .verbatimDisk _ => true
  | _ => false

def PathPrefix.hasImplicitRoot : PathPrefix → Bool
  | .disk _ => false
  | _ => true

structure Path where
  pfx : Option PathPrefix := none
  root : Bool := false
  components : List (Component Text) := []
  /-- The text ends with a separator. -/
  slash : Bool := false
  deriving DecidableEq, Repr

/-! ## From text to components -/

def isSep (c : Char) : Bool := c == '/' || c == '\\'

def isVerbatimSep (c : Char) : Bool := c == '\\'

/-- `parse_next_component`, with the separator left in the rest. -/
def nextComponent (sep : Char → Bool) (t : Text) : Text × Text :=
  (t.takeWhile fun c => !sep c, t.dropWhile fun c => !sep c)

/-- `parse_drive`. -/
def parseDrive : Text → Option (Char × Text)
  | c :: ':' :: t => if c.isAlpha then some (c.toUpper, t) else none
  | _ => none

/-- What follows `\\?\`. -/
def parseVerbatim (t : Text) : PathPrefix × Text :=
  match t with
  | 'U' :: 'N' :: 'C' :: c :: t' =>
      if isSep c then
        let (server, rest) := nextComponent isVerbatimSep t'
        let (share, rest) := nextComponent isVerbatimSep (rest.drop 1)
        (.verbatimUnc server share, rest)
      else named t
  | _ =>
      match parseDrive t with
      | some (drive, rest) =>
          -- a drive is recognized only if nothing else stands before the separator
          if rest.head?.all isSep then (.verbatimDisk drive, rest) else named t
      | none => named t
where
  named (t : Text) : PathPrefix × Text :=
    let (name, rest) := nextComponent isVerbatimSep t
    (.verbatim name, rest)

/-- `\\server\share`. -/
def parseUnc (t : Text) : Option (PathPrefix × Text) :=
  let (server, rest) := nextComponent isSep t
  let (share, rest) := nextComponent isSep (rest.drop 1)
  if server.isEmpty || share.isEmpty then none else some (.unc server share, rest)

/-- `parse_prefix` on Windows. -/
def parsePrefix (t : Text) : Option (PathPrefix × Text) :=
  match t with
  | '\\' :: '\\' :: '?' :: '\\' :: t' => some (parseVerbatim t')
  | a :: b :: t' =>
      if isSep a && isSep b then
        match t' with
        | '.' :: c :: t'' =>
            if isSep c then
              let (name, rest) := nextComponent isSep t''
              some (.deviceNs name, rest)
            else parseUnc t'
        | _ => parseUnc t'
      else (parseDrive t).map fun (drive, rest) => (.disk drive, rest)
  | _ => none

/-- `parse_single_component`. -/
def parseComponent (t : Text) : Option (Component Text) :=
  if t = [] then none
  else if t = ['.'] then some .cur
  else if t = ['.', '.'] then some .parent
  else some (.normal t)

/-- The path of a text without a prefix. -/
def parseBody (sep : Char → Bool) (t : Text) : Path where
  root := t.head?.any sep
  components := (t.splitOnP sep).filterMap parseComponent
  slash := t.getLast?.any sep

def Path.parse (os : Os) (t : Text) : Path :=
  match os with
  | .unix => parseBody (· == '/') t
  | .windows =>
      match parsePrefix t with
      | none => parseBody isSep t
      | some (p, rest) =>
          { parseBody (if p.isVerbatim then isVerbatimSep else isSep) rest with pfx := some p }

/-! ## `Path::join` -/

/-- A component of the joined path goes to one that has a verbatim prefix. -/
def pushVerbatim (buf : List (Component Text)) : Component Text → List (Component Text)
  | .cur => buf
  | .parent => if buf.getLast?.any Component.isNormal then buf.dropLast else buf
  | .normal n => buf ++ [.normal n]

namespace Path

def hasRoot (p : Path) : Bool := p.root || p.pfx.any PathPrefix.hasImplicitRoot

def isVerbatim (p : Path) : Bool := p.pfx.any PathPrefix.isVerbatim

/-- `path` is taken below `base`. -/
def append (base path : Path) : Path :=
  { base with components := base.components ++ path.components, slash := path.slash }

def joinVerbatim (base path : Path) : Path :=
  { base with
    root := base.root || path.root
    components := path.components.foldl pushVerbatim (if path.root then [] else base.components)
    slash := false }

/-- `Path::join`. -/
def join (os : Os) (base path : Path) : Path :=
  match os with
  | .unix => if path.root then path else base.append path
  | .windows =>
      if path.pfx.isSome then path
      else if base.isVerbatim then base.joinVerbatim path
      else if path.root then { path with pfx := base.pfx }
      else base.append path

end Path

/-! ## Devices -/

/-- The file names that Windows reserves for its devices. -/
def deviceNames : List Text :=
  ["CON", "PRN", "AUX", "NUL"].map String.toList ++
    ["COM", "LPT"].flatMap fun port => "123456789¹²³".toList.map fun d => port.toList ++ [d]

/-- The device of a file name: case, an extension, and spaces before it say nothing. -/
def deviceName (n : Text) : Option Text :=
  let stem := n.takeWhile fun c => c != '.' && c != ':'
  let name := (stem.reverse.dropWhile (· == ' ')).reverse.map Char.toUpper
  if deviceNames.contains name then some name else none

/-- Windows takes a path for its last name alone if that is the name of a device, but after a
prefix other than that of a drive. -/
def Path.device (p : Path) : Option Text :=
  match p.pfx with
  | none | some (.disk _) => (Component.resolve [] p.components).getLast?.bind deviceName
  | _ => none

/-! ## Joining with a path that is taken below the base -/

/-- The path has neither a root nor a prefix. -/
def Path.isRelative (p : Path) : Bool := !p.root && p.pfx.isNone

theorem pushVerbatim_normal (ns : List Text) (c : Component Text) :
    pushVerbatim (ns.map .normal) c = (c.next ns).map .normal := by
  cases c with
  | cur => rfl
  | normal n => simp [pushVerbatim, Component.next]
  | parent =>
      cases hlast : ns.getLast? with
      | none => simp [pushVerbatim, Component.next, List.getLast?_eq_none_iff.1 hlast]
      | some n => simp [pushVerbatim, Component.next, hlast, Component.isNormal]

/-- On names alone, `pushVerbatim` is the resolution of the components. -/
theorem foldl_pushVerbatim (ns : List Text) (cs : List (Component Text)) :
    cs.foldl pushVerbatim (ns.map .normal) = (Component.resolve ns cs).map .normal := by
  induction cs generalizing ns with
  | nil => rfl
  | cons c cs ih => rw [List.foldl_cons, pushVerbatim_normal, ih, Component.resolve_cons]

example : (Path.parse .windows "C:/www/../x".toList).components =
    [.normal "www".toList, .parent, .normal "x".toList] := by decide

example : (Path.join .windows (.parse .windows "C:\\www".toList)
    (.parse .windows "//server/share/x".toList)).pfx =
    some (.unc "server".toList "share".toList) := by decide

end Wxp.Serve
