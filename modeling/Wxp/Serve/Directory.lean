import Wxp.Serve.Paths

/-!
# Serve — Directory

`WxpWebViewBuilder::with_serve_dir` (`src/builder.rs`) over the file trees of a machine.

* A Unix path is walked component by component. Windows takes `.` and `..` away first,
  except after a verbatim prefix, where they are names that no directory has.
* Names may differ from what stands in their directory (`canon`), prefixes may stand for
  one volume (`volume`), and on Windows a path may be that of a device (`devices`).
* The URI gives the path as it is, with its leading slash: nothing is decoded.

`Path::join` gives up the base for a remainder with a root or a prefix, and neither it nor
the handler looks at `..`. The base may be reached through symbolic links. What is walked
`after` it, and whether that is `contained` in it, the text of the path says; where links
are met, the text with their targets in their place (`keeps`).
-/

namespace Wxp.Serve

abbrev Bytes := List UInt8
abbrev Volume := Nat

structure Location where
  volume : Volume
  names : List Text
  deriving DecidableEq, Repr

/-- `loc` is `dir` or below it. -/
def Location.Above (dir loc : Location) : Prop :=
  dir.volume = loc.volume ∧ dir.names <+: loc.names

instance (dir loc : Location) : Decidable (dir.Above loc) := inferInstanceAs (Decidable (_ ∧ _))

/-- `loc` is in a directory that is there. -/
def Location.In (loc : Location) : Option Location → Prop
  | some dir => dir.Above loc
  | none => False

instance (loc : Location) (dir : Option Location) : Decidable (loc.In dir) :=
  match dir with
  | some dir => inferInstanceAs (Decidable (dir.Above loc))
  | none => inferInstanceAs (Decidable False)

structure Machine where
  os : Os
  /-- The volume of a prefix; of none, the one of Unix, or that of the current drive. -/
  volume : Option PathPrefix → Volume
  tree : Volume → FileTree Text Bytes
  /-- The current directory, for each drive. -/
  cwd : Option PathPrefix → List Text
  canon : Text → Text
  /-- The volume of the devices, each under its name. -/
  devices : Volume
  device_file : ∀ n u, (tree devices).find [n] = some u → ∃ content, u = .file content

structure Request where
  method : String
  /-- `Uri::path`. -/
  path : Text

structure Response where
  status : Nat := 200
  headers : List (String × String)
  body : Bytes
  deriving DecidableEq, Repr

inductive Error
  | pathNotFound (path : Text)
  deriving DecidableEq, Repr

def corsHeaders : List (String × String) :=
  [("Access-Control-Allow-Origin", "*"),
    ("Access-Control-Allow-Methods", "GET, POST, OPTIONS"),
    ("Access-Control-Allow-Headers", "*")]

def indexHtml : Text := "index.html".toList

/-- `path.strip_prefix('/').unwrap_or(path)`. -/
def remainder : Text → Text
  | '/' :: t => t
  | t => t

namespace Machine

/-! ## The file system -/

/-- Where the components of a path are taken from. -/
def start (m : Machine) (p : Path) : List Text := if p.hasRoot then [] else m.cwd p.pfx

def components (m : Machine) (p : Path) : List (Component Text) :=
  p.components.map (Component.map m.canon)

/-- The device that a path is taken for. -/
def device (m : Machine) (p : Path) : Option Text :=
  match m.os with
  | .unix => none
  | .windows => p.device

/-- The location of a path by its text. -/
def place (m : Machine) (p : Path) : Location :=
  match m.device p with
  | some n => ⟨m.devices, [n]⟩
  | none => ⟨m.volume p.pfx, Component.resolve (m.start p) (m.components p)⟩

/-- What is walked for a path, and from where. -/
def route (m : Machine) (p : Path) : Option (List Text × List (Component Text)) :=
  match m.os with
  | .unix => some (m.start p, m.components p)
  | .windows =>
      if p.isVerbatim then
        if p.components.all Component.isNormal then some (m.start p, m.components p) else none
      else some ([], (m.place p).names.map .normal)

/-- `SYMLOOP_MAX`. -/
def symloopMax : Nat := 40

/-- The location that the file system finds for a path. -/
def locate (m : Machine) (p : Path) : Option Location := do
  let volume := (m.place p).volume
  let (loc, cs) ← m.route p
  let names ← (m.tree volume).walk symloopMax loc cs
  if !p.slash || (m.tree volume).isDir names then some ⟨volume, names⟩ else none

/-- `Path::exists`. -/
def pathExists (m : Machine) (p : Path) : Bool := (m.locate p).isSome

/-- `std::fs::read`, with the location of the file. -/
def read (m : Machine) (p : Path) : Option (Location × Bytes) := do
  let loc ← m.locate p
  let content ← (m.tree loc.volume).content loc.names
  some (loc, content)

/-! ## The handler -/

def parse (m : Machine) (t : Text) : Path := .parse m.os t

def indexPath (m : Machine) (base : Path) : Path := base.join m.os (m.parse indexHtml)

/-- The first `file_path`. -/
def requestedPath (m : Machine) (base : Path) (path : Text) : Path :=
  if path = ['/'] ∨ path = [] then m.indexPath base
  else base.join m.os (m.parse (remainder path))

/-- `file_path` after the fallback. -/
def filePath (m : Machine) (base : Path) (path : Text) : Path :=
  let file := m.requestedPath base path
  if !m.pathExists file && !path.contains '.' then m.indexPath base else file

/-- The file whose contents the handler answers with. -/
def served (m : Machine) (base : Path) (r : Request) : Option (Location × Bytes) :=
  if r.method = "OPTIONS" then none else m.read (m.filePath base r.path)

/-- The protocol handler; `mimeType` is that of `mime_guess`. -/
def handle (m : Machine) (mimeType : Path → String) (base : Path) (r : Request) : Response :=
  if r.method = "OPTIONS" then { headers := corsHeaders, body := [] }
  else
    match m.served base r with
    | some (_, content) =>
        { headers := ("Content-Type", mimeType (m.filePath base r.path)) :: corsHeaders,
          body := content }
    | none =>
        { status := 404,
          headers := [("Content-Type", "text/plain"), ("Access-Control-Allow-Origin", "*")],
          body := "Not Found".toUTF8.toList }

def withServeDir (m : Machine) (mimeType : Path → String) (base : Text) :
    Except Error (Request → Response) :=
  if !m.pathExists (m.parse base) then .error (.pathNotFound base)
  else .ok (m.handle mimeType (m.parse base))

/-! ## What is to hold, and when it does -/

/-- The location is in the directory of `base`. -/
def Inside (m : Machine) (base : Path) (loc : Location) : Prop := loc.In (m.locate base)

/-- The handler answers with the index of the directory. -/
def ServesIndex (m : Machine) (base : Path) (path : Text) : Prop :=
  path = ['/'] ∨ path = [] ∨ m.pathExists (m.requestedPath base path) = false ∧ '.' ∉ path

/-- Where the walk to `base.join path` goes on from the directory `dir` of the base, and what
it walks there. Where the path leaves the base it begins at a root. -/
def after (m : Machine) (base path : Path) (dir : Location) :
    Location × List (Component Text) :=
  match m.os with
  | .unix => (if path.root then ⟨m.volume path.pfx, []⟩ else dir, m.components path)
  | .windows =>
      let loc := m.place (base.join .windows path)
      if (m.place base).Above loc then
        (dir, (loc.names.drop (m.place base).names.length).map .normal)
      else (⟨loc.volume, []⟩, loc.names.map .normal)

/-- Where the text says that this ends. -/
def reached (m : Machine) (base path : Path) (dir : Location) : Location where
  volume := (m.after base path dir).1.volume
  names := Component.resolve (m.after base path dir).1.names (m.after base path dir).2

/-- No symbolic link is met after the directory. -/
def plain (m : Machine) (base path : Path) : Bool :=
  (m.locate base).all fun dir =>
    (m.tree (m.after base path dir).1.volume).linkFree (m.after base path dir).1.names
      (m.after base path dir).2

/-- By its text, the path goes on in the directory. -/
def contained (m : Machine) (base path : Path) : Bool :=
  (m.locate base).any fun dir => dir.Above (m.reached base path dir)

/-- What is walked after the directory, with each link that is met replaced by what it says. -/
def unlinked (m : Machine) (base path : Path) (dir : Location) :
    List Text × List (Component Text) :=
  (m.tree (m.after base path dir).1.volume).unlinked symloopMax
    (m.after base path dir).1.names (m.after base path dir).2

/-- Where this ends. -/
def leadsTo (m : Machine) (base path : Path) (dir : Location) : Location where
  volume := (m.after base path dir).1.volume
  names := Component.resolve (m.unlinked base path dir).1 (m.unlinked base path dir).2

/-- By its text and by what the links say, the path goes on in the directory. -/
def keeps (m : Machine) (base path : Path) : Bool :=
  (m.locate base).any fun dir => dir.Above (m.leadsTo base path dir)

instance (m : Machine) (base : Path) (loc : Location) : Decidable (m.Inside base loc) :=
  inferInstanceAs (Decidable (loc.In _))

instance (m : Machine) (base : Path) (path : Text) : Decidable (m.ServesIndex base path) :=
  inferInstanceAs (Decidable (_ ∨ _ ∨ _ ∧ _))

/-- The path that is joined to the base in the end. -/
def joined (m : Machine) (base : Path) (path : Text) : Path :=
  m.parse (if m.ServesIndex base path then indexHtml else remainder path)

/-! ## Where the file system finds a joined path -/

theorem place_of_device {m : Machine} {p : Path} (h : m.device p = none) : m.place p =
    ⟨m.volume p.pfx, Component.resolve (m.start p) (m.components p)⟩ := by
  rw [place, h]

theorem device_unix {m : Machine} (hos : m.os = .unix) (p : Path) : m.device p = none := by
  rw [device, hos]

theorem walk_of_locate {m : Machine} {p : Path} {loc : Location} (h : m.locate p = some loc) :
    loc.volume = (m.place p).volume ∧ ∃ start cs, m.route p = some (start, cs) ∧
      (m.tree (m.place p).volume).walk symloopMax start cs = some loc.names := by
  simp only [locate, Option.bind_eq_bind, Option.bind_eq_some_iff,
    Option.ite_none_right_eq_some, Option.some.injEq] at h
  obtain ⟨⟨start, cs⟩, hroute, names, hwalk, -, rfl⟩ := h
  exact ⟨rfl, start, cs, hroute, hwalk⟩

theorem hasRoot_of_isVerbatim {p : Path} (h : p.isVerbatim = true) : p.hasRoot = true := by
  cases hp : p.pfx with
  | none => simp [Path.isVerbatim, hp] at h
  | some x =>
      cases x with
      | disk c => simp [Path.isVerbatim, hp, PathPrefix.isVerbatim] at h
      | _ => simp [Path.hasRoot, hp, PathPrefix.hasImplicitRoot]

theorem device_of_isVerbatim {m : Machine} {p : Path} (h : p.isVerbatim = true) :
    m.device p = none := by
  cases hos : m.os with
  | unix => exact device_unix hos p
  | windows =>
      rw [device, hos]
      dsimp only
      rw [Path.device]
      split
      · rename_i hp
        simp [Path.isVerbatim, hp] at h
      · rename_i hp
        simp [Path.isVerbatim, hp, PathPrefix.isVerbatim] at h
      · rfl

/-- On Windows the names of the place are walked. -/
theorem route_windows {m : Machine} {p : Path} {start : List Text} {cs : List (Component Text)}
    (hos : m.os = .windows) (h : m.route p = some (start, cs)) :
    start = [] ∧ cs = (m.place p).names.map .normal := by
  rw [route, hos] at h
  by_cases hverbatim : p.isVerbatim = true
  · simp only [hverbatim, if_true, Option.ite_none_right_eq_some, Option.some.injEq,
      Prod.mk.injEq] at h
    obtain ⟨hnormal, hstart, hcs⟩ := h
    have hroot : m.start p = [] := by simp [Machine.start, hasRoot_of_isVerbatim hverbatim]
    obtain ⟨ns, hns⟩ := Component.eq_map_normal hnormal
    have hcomponents : m.components p = (ns.map m.canon).map .normal := by
      simp [components, hns, Component.map]
    refine ⟨hstart ▸ hroot, ?_⟩
    rw [← hcs, place_of_device (device_of_isVerbatim hverbatim)]
    simp only [hroot, hcomponents, Component.resolve_normal, List.nil_append]
  · simp only [hverbatim, Bool.false_eq_true, if_false, Option.some.injEq, Prod.mk.injEq] at h
    exact ⟨h.1.symm, h.2.symm⟩

/-- A directory is no device. -/
theorem device_of_isDir {m : Machine} {p : Path} {dir : Location} (hdir : m.locate p = some dir)
    (h : (m.tree dir.volume).isDir dir.names = true) : m.device p = none := by
  cases hdevice : m.device p with
  | none => rfl
  | some n =>
      have hos : m.os = .windows := by
        cases hos : m.os with
        | unix =>
            rw [device_unix hos] at hdevice
            cases hdevice
        | windows => rfl
      have hplace : m.place p = ⟨m.devices, [n]⟩ := by rw [place, hdevice]
      obtain ⟨hvol, start, cs, hroute, hwalk⟩ := walk_of_locate hdir
      obtain ⟨rfl, rfl⟩ := route_windows hos hroute
      rw [hplace] at hvol hwalk
      simp only [FileTree.walk, symloopMax, List.map_cons, List.map_nil, FileTree.walkTo,
        List.nil_append, Option.ite_none_right_eq_some] at hwalk
      obtain ⟨-, hwalk⟩ := hwalk
      cases hfind : (m.tree m.devices).find [n] with
      | none => simp [hfind] at hwalk
      | some u =>
          obtain ⟨content, rfl⟩ := m.device_file n u hfind
          simp only [hfind, Option.isSome_some, if_true, Option.some.injEq] at hwalk
          simp [FileTree.isDir, hvol, ← hwalk, hfind] at h

theorem locate_join_unix {m : Machine} {base path : Path} {dir loc : Location}
    (hos : m.os = .unix) (hdir : m.locate base = some dir)
    (h : m.locate (base.join .unix path) = some loc) :
    loc.volume = (m.after base path dir).1.volume ∧
    (m.tree loc.volume).walk symloopMax (m.after base path dir).1.names (m.after base path dir).2 =
      some loc.names := by
  obtain ⟨hvol, start, cs, hroute, hwalk⟩ := walk_of_locate h
  simp only [route, hos, Option.some.injEq, Prod.mk.injEq] at hroute
  obtain ⟨rfl, rfl⟩ := hroute
  rw [place_of_device (device_unix hos _)] at hvol hwalk
  simp only [after, hos]
  cases hroot : path.root with
  | true =>
      have hstart : m.start path = [] := by simp [Machine.start, Path.hasRoot, hroot]
      simp only [Path.join, hroot, if_true, hstart] at hvol hwalk
      simp only [if_true, hvol]
      exact ⟨trivial, hwalk⟩
  | false =>
      obtain ⟨hdirVol, start, cs, hroute, hbase⟩ := walk_of_locate hdir
      simp only [route, hos, Option.some.injEq, Prod.mk.injEq] at hroute
      obtain ⟨rfl, rfl⟩ := hroute
      rw [place_of_device (device_unix hos _)] at hdirVol hbase
      have hcs : m.components (base.append path) = m.components base ++ m.components path :=
        List.map_append
      simp only [Path.join, hroot, Bool.false_eq_true, if_false, hcs] at hvol hwalk
      obtain ⟨mid, hmid, hrest⟩ := FileTree.walk_append hwalk
      have hname : mid = dir.names := Option.some.inj (hmid.symm.trans hbase)
      simp only [Bool.false_eq_true, if_false]
      refine ⟨hvol.trans hdirVol.symm, ?_⟩
      rw [hvol, ← hname]
      exact hrest

theorem locate_join_windows {m : Machine} {base path : Path} {dir loc : Location}
    (hos : m.os = .windows) (hdir : m.locate base = some dir)
    (h : m.locate (base.join .windows path) = some loc) :
    loc.volume = (m.after base path dir).1.volume ∧
    (m.tree loc.volume).walk symloopMax (m.after base path dir).1.names (m.after base path dir).2 =
      some loc.names := by
  obtain ⟨hvol, start, cs, hroute, hwalk⟩ := walk_of_locate h
  obtain ⟨rfl, rfl⟩ := route_windows hos hroute
  simp only [after, hos]
  by_cases habove : (m.place base).Above (m.place (base.join .windows path))
  · obtain ⟨hdirVol, start, cs, hroute, hbase⟩ := walk_of_locate hdir
    obtain ⟨rfl, rfl⟩ := route_windows hos hroute
    rw [if_pos habove]
    obtain ⟨hsame, below, hbelow⟩ := habove
    have hdirLoc : dir.volume = loc.volume := hdirVol.trans (hsame.trans hvol.symm)
    rw [← hbelow, List.drop_left]
    rw [← hbelow, List.map_append, ← hvol, ← hdirLoc] at hwalk
    obtain ⟨mid, hmid, hrest⟩ := FileTree.walk_append hwalk
    rw [hdirVol] at hmid
    have hname : mid = dir.names := Option.some.inj (hmid.symm.trans hbase)
    refine ⟨hdirLoc.symm, ?_⟩
    rw [← hdirLoc, ← hname]
    exact hrest
  · rw [if_neg habove]
    exact ⟨hvol, hvol ▸ hwalk⟩

/-- The walk to a joined path goes on `after` the directory of the base. -/
theorem locate_join {m : Machine} {base path : Path} {dir loc : Location}
    (hdir : m.locate base = some dir) (h : m.locate (base.join m.os path) = some loc) :
    loc.volume = (m.after base path dir).1.volume ∧
    (m.tree loc.volume).walk symloopMax (m.after base path dir).1.names (m.after base path dir).2 =
      some loc.names := by
  cases hos : m.os with
  | unix => exact locate_join_unix hos hdir (hos ▸ h)
  | windows => exact locate_join_windows hos hdir (hos ▸ h)

/-- The file is in the directory exactly if the text says so, with the links replaced. -/
theorem inside_iff_keeps {m : Machine} {base path : Path} {loc : Location}
    (hbase : m.pathExists base = true) (h : m.locate (base.join m.os path) = some loc) :
    m.Inside base loc ↔ m.keeps base path = true := by
  obtain ⟨dir, hdir⟩ := Option.isSome_iff_exists.1 hbase
  obtain ⟨hvol, hwalk⟩ := locate_join hdir h
  have hnames := FileTree.resolve_unlinked hwalk
  have hloc : loc = m.leadsTo base path dir := by
    rw [leadsTo, unlinked, ← hvol, hnames]
  simp only [Inside, keeps, hdir, Location.In, Option.any_some, decide_eq_true_eq, hloc]

/-- Where no link is met there is none to replace. -/
theorem keeps_of_plain {m : Machine} {base path : Path} (hplain : m.plain base path = true) :
    m.keeps base path = m.contained base path := by
  unfold keeps contained
  cases hdir : m.locate base with
  | none => rfl
  | some dir =>
      rw [plain, hdir, Option.all_some] at hplain
      have hend : m.leadsTo base path dir = m.reached base path dir := by
        rw [leadsTo, unlinked, FileTree.unlinked_of_linkFree _ hplain, reached]
      rw [Option.any_some, Option.any_some, hend]

/-! ## Names that are no devices -/

theorem device_join_names {m : Machine} {base : Path} {ns : List Text} {slash : Bool}
    (hne : ns ≠ []) (h : ∀ n ∈ ns, deviceName n = none) :
    m.device (base.join m.os { components := ns.map .normal, slash }) = none := by
  cases hos : m.os with
  | unix => exact device_unix hos _
  | windows =>
      by_cases hverbatim : base.isVerbatim = true
      · have hjoin : base.join .windows { components := ns.map .normal, slash } =
            base.joinVerbatim { components := ns.map .normal, slash } := by
          simp [Path.join, hverbatim]
        rw [hjoin]
        exact device_of_isVerbatim hverbatim
      · have hlast : ∃ n ∈ ns, (Component.resolve []
            (base.components ++ ns.map Component.normal)).getLast? = some n := by
          refine ⟨ns.getLast hne, List.getLast_mem hne, ?_⟩
          rw [Component.resolve_append, Component.resolve_normal,
            List.getLast?_append_of_ne_nil _ hne, List.getLast?_eq_some_getLast hne]
        obtain ⟨n, hn, hlast⟩ := hlast
        simp only [device, hos, Path.join, Option.isSome_none, Bool.false_eq_true, if_false,
          hverbatim, Path.append, Path.device, hlast, Option.bind_some, h n hn]
        split <;> rfl

/-! ## A remainder that is taken below the base -/

theorem above_of_resolve {start names : List Text} {cs : List (Component Text)}
    (h : Component.stays 0 cs = true) (hn : names = Component.resolve start cs) :
    start <+: names := by
  have hbelow : start <+: Component.resolve (start ++ []) cs := Component.isPrefix_resolve h
  rwa [List.append_nil, ← hn] at hbelow

theorem stays_components (m : Machine) {path : Path}
    (h : Component.stays 0 path.components = true) :
    Component.stays 0 (m.components path) = true := by
  rw [components, Component.stays_map]
  exact h

theorem above_append (m : Machine) (base path : Path) (hbase : m.device base = none)
    (hpath : m.device (base.append path) = none)
    (h : Component.stays 0 path.components = true) :
    (m.place base).Above (m.place (base.append path)) := by
  rw [place_of_device hbase, place_of_device hpath]
  refine ⟨rfl, above_of_resolve (m.stays_components h) ?_⟩
  simp only [components, Path.append, List.map_append, Component.resolve_append]
  rfl

theorem above_joinVerbatim (m : Machine) (base path : Path) (hroot : path.root = false)
    (hbase : m.device base = none) (hpath : m.device (base.joinVerbatim path) = none)
    (hnormal : base.components.all Component.isNormal = true)
    (h : Component.stays 0 path.components = true) :
    (m.place base).Above (m.place (base.joinVerbatim path)) := by
  obtain ⟨ns, hns⟩ := Component.eq_map_normal hnormal
  have hcanon : ∀ ns : List Text, (ns.map Component.normal).map (Component.map m.canon) =
      (ns.map m.canon).map .normal := by
    intro ns
    simp [Component.map]
  have hstart : m.start (base.joinVerbatim path) = m.start base := by
    simp [start, Path.joinVerbatim, Path.hasRoot, hroot]
  rw [place_of_device hbase, place_of_device hpath]
  refine ⟨rfl, ?_⟩
  simp only [components, hstart, hns, hcanon, Component.resolve_normal]
  simp only [Path.joinVerbatim, hroot, hns, Bool.false_eq_true, if_false, foldl_pushVerbatim,
    hcanon, Component.resolve_normal]
  exact (List.prefix_append_right_inj _).2 ((above_of_resolve h rfl).map _)

/-- A path that is there has only names after a verbatim prefix. -/
theorem normal_of_pathExists {m : Machine} {p : Path} (hos : m.os = .windows)
    (hverbatim : p.isVerbatim = true) (h : m.pathExists p = true) :
    p.components.all Component.isNormal = true := by
  by_contra hne
  simp [pathExists, locate, route, hos, hverbatim, hne] at h

/-- On Windows a relative path that never goes above the base is below it. -/
theorem above_join {m : Machine} {base path : Path} (hos : m.os = .windows)
    (hbase : m.pathExists base = true) (hdevice : m.device base = none)
    (hpath : m.device (base.join m.os path) = none) (hrel : path.isRelative = true)
    (h : Component.stays 0 path.components = true) :
    (m.place base).Above (m.place (base.join .windows path)) := by
  simp only [Path.isRelative, Bool.and_eq_true, Bool.not_eq_true',
    Option.isNone_iff_eq_none] at hrel
  obtain ⟨hroot, hpfx⟩ := hrel
  rw [hos] at hpath
  by_cases hverbatim : base.isVerbatim = true
  · have hjoin : base.join .windows path = base.joinVerbatim path := by
      simp [Path.join, hpfx, hverbatim]
    rw [hjoin] at hpath ⊢
    exact m.above_joinVerbatim base path hroot hdevice hpath
      (normal_of_pathExists hos hverbatim hbase) h
  · have hjoin : base.join .windows path = base.append path := by
      simp [Path.join, hpfx, hverbatim, hroot]
    rw [hjoin] at hpath ⊢
    exact m.above_append base path hdevice hpath h

theorem above_reached {m : Machine} {base path : Path} (dir : Location)
    (hbase : m.pathExists base = true) (hdevice : m.device base = none)
    (hpath : m.device (base.join m.os path) = none) (hrel : path.isRelative = true)
    (h : Component.stays 0 path.components = true) : dir.Above (m.reached base path dir) := by
  cases hos : m.os with
  | unix =>
      have hroot : path.root = false := by
        simp only [Path.isRelative, Bool.and_eq_true, Bool.not_eq_true'] at hrel
        exact hrel.1
      simp only [reached, after, hos, hroot, Bool.false_eq_true, if_false]
      exact ⟨rfl, above_of_resolve (m.stays_components h) rfl⟩
  | windows =>
      have habove := above_join hos hbase hdevice hpath hrel h
      simp only [reached, after, hos, if_pos habove, Component.resolve_normal]
      exact ⟨rfl, List.prefix_append _ _⟩

/-- A remainder without a root or a prefix that never goes above the base is below it. -/
theorem contained_of_stays {m : Machine} {base path : Path} (hbase : m.pathExists base = true)
    (hdevice : m.device base = none) (hpath : m.device (base.join m.os path) = none)
    (hrel : path.isRelative = true) (h : Component.stays 0 path.components = true) :
    m.contained base path = true := by
  obtain ⟨dir, hdir⟩ := Option.isSome_iff_exists.1 hbase
  rw [contained, hdir, Option.any_some, decide_eq_true_eq]
  exact above_reached dir hbase hdevice hpath hrel h

theorem parse_indexHtml (m : Machine) :
    m.parse indexHtml = { components := [indexHtml].map .normal } := by
  cases hos : m.os <;> simp only [parse, hos] <;> decide

theorem contained_index {m : Machine} {base : Path} (hbase : m.pathExists base = true)
    (hdevice : m.device base = none) : m.contained base (m.parse indexHtml) = true := by
  have hname : ∀ n ∈ [indexHtml], deviceName n = none := by decide
  rw [parse_indexHtml]
  exact contained_of_stays hbase hdevice (device_join_names (by simp) hname) rfl rfl

/-! ## The result -/

theorem filePath_eq (m : Machine) (base : Path) (path : Text) :
    m.filePath base path = base.join m.os (m.joined base path) := by
  by_cases hroot : path = ['/'] ∨ path = []
  · have hindex : m.ServesIndex base path := hroot.elim .inl (.inr ∘ .inl)
    simp [filePath, requestedPath, hroot, joined, hindex, indexPath]
  · by_cases hback : m.pathExists (m.requestedPath base path) = false ∧ '.' ∉ path
    · have hindex : m.ServesIndex base path := .inr (.inr hback)
      simp [filePath, hback, joined, hindex, indexPath]
    · have hindex : ¬ m.ServesIndex base path := by
        rintro (h | h | h)
        · exact hroot (.inl h)
        · exact hroot (.inr h)
        · exact hback h
      have hkeep : (!m.pathExists (m.requestedPath base path) && !path.contains '.') = false := by
        simpa [Bool.and_eq_false_iff, not_and_or] using hback
      simp only [filePath, hkeep, Bool.false_eq_true, if_false]
      simp [requestedPath, hroot, joined, hindex]

theorem contained_joined {m : Machine} {base : Path} {path : Text}
    (hbase : m.pathExists base = true) (hdevice : m.device base = none) :
    m.contained base (m.joined base path) = true ↔
      m.ServesIndex base path ∨ m.contained base (m.parse (remainder path)) = true := by
  by_cases hindex : m.ServesIndex base path
  · simp [joined, hindex, contained_index hbase hdevice]
  · simp [joined, hindex]

theorem withServeDir_cases {m : Machine} {mimeType : Path → String} {base : Text}
    {handler : Request → Response} (h : m.withServeDir mimeType base = .ok handler) :
    m.pathExists (m.parse base) = true ∧ handler = m.handle mimeType (m.parse base) := by
  unfold withServeDir at h
  cases hbase : m.pathExists (m.parse base) with
  | false =>
      rw [hbase] at h
      cases h
  | true =>
      rw [hbase] at h
      cases h
      exact ⟨rfl, rfl⟩

/-- What is read is what the handler answers with. -/
theorem handle_of_served {m : Machine} {mimeType : Path → String} {base : Path} {r : Request}
    {loc : Location} {content : Bytes} (h : m.served base r = some (loc, content)) :
    (m.handle mimeType base r).status = 200 ∧ (m.handle mimeType base r).body = content := by
  have hmethod : r.method ≠ "OPTIONS" := by
    intro hm
    rw [served, if_pos hm] at h
    cases h
  rw [handle, if_neg hmethod, h]
  exact ⟨rfl, rfl⟩

/-- **The handler serves a file of its directory exactly if the text of the path goes on in
the directory**, with the symbolic links that are met after the directory replaced by their
targets. Where none is met, that is so for the index and for what is contained by its text;
a remainder with neither root nor prefix that never goes above the base is, unless it names
a device. -/
theorem serves_inside_iff (m : Machine) (mimeType : Path → String) (base : Text)
    {handler : Request → Response} (hserve : m.withServeDir mimeType base = .ok handler)
    (r : Request) {loc : Location} {content : Bytes}
    (h : m.served (m.parse base) r = some (loc, content)) :
    ((handler r).status = 200 ∧ (handler r).body = content) ∧
    (m.Inside (m.parse base) loc ↔
      m.keeps (m.parse base) (m.joined (m.parse base) r.path) = true) ∧
    (m.plain (m.parse base) (m.joined (m.parse base) r.path) = true →
      m.device (m.parse base) = none →
      (m.keeps (m.parse base) (m.joined (m.parse base) r.path) = true ↔
        m.ServesIndex (m.parse base) r.path ∨
        m.contained (m.parse base) (m.parse (remainder r.path)) = true)) ∧
    (m.device (m.parse base) = none → (m.parse (remainder r.path)).isRelative = true →
      Component.stays 0 (m.parse (remainder r.path)).components = true →
      m.device ((m.parse base).join m.os (m.parse (remainder r.path))) = none →
      m.contained (m.parse base) (m.parse (remainder r.path)) = true) := by
  obtain ⟨hbase, rfl⟩ := withServeDir_cases hserve
  refine ⟨handle_of_served h, ?_, fun hplain hdevice => ?_, fun hdevice hrel hstays hpath =>
    contained_of_stays hbase hdevice hpath hrel hstays⟩
  · simp only [served, Option.ite_none_left_eq_some, read, Option.bind_eq_bind,
      Option.bind_eq_some_iff, Option.some.injEq, Prod.mk.injEq] at h
    obtain ⟨-, loc', hloc, -, -, rfl, -⟩ := h
    rw [filePath_eq] at hloc
    exact inside_iff_keeps hbase hloc
  · rw [keeps_of_plain hplain, contained_joined hbase hdevice]

/-- `srv/site/index.html` with a link `srv/site/up` to `srv`, `srv/key`, and a link `srv/www` to
the site; every volume but that of the devices has this tree. -/
def srvTree : FileTree Text Bytes :=
  .dir [("srv".toList, .dir [("site".toList, .dir [(indexHtml, .file [60]),
      ("up".toList, .link false [.parent])]),
    ("www".toList, .link false [.normal "site".toList]), ("key".toList, .file [42])])]

def srvMachine (os : Os) : Machine where
  os := os
  volume
    | some (.unc _ _) => 1
    | _ => 0
  tree
    | 2 => .dir [("NUL".toList, .file [])]
    | _ => srvTree
  cwd := fun _ => []
  canon := id
  devices := 2
  device_file n u h := by
    have h : FileTree.find (.dir [("NUL".toList, .file [])]) [n] = some u := h
    rw [FileTree.find_singleton, Option.ite_none_right_eq_some] at h
    exact ⟨[], (Option.some.inj h.2).symm⟩

theorem serves_inside_iff_srv :
    ((srvMachine .unix).handle (fun _ => "text/html") (.parse .unix "/srv/www".toList)
      ⟨"GET", "/.././site/index.html".toList⟩).body = [60] ∧
    (srvMachine .unix).Inside (.parse .unix "/srv/www".toList)
      ⟨0, ["srv".toList, "site".toList, indexHtml]⟩ := by
  have hget : (srvMachine .unix).served (.parse .unix "/srv/www".toList)
      ⟨"GET", "/.././site/index.html".toList⟩ =
        some (⟨0, ["srv".toList, "site".toList, indexHtml]⟩, [60]) := by decide
  have hiff := (srvMachine .unix).serves_inside_iff (fun _ => "text/html") "/srv/www".toList
    (if_neg (by decide)) ⟨"GET", "/.././site/index.html".toList⟩ hget
  exact ⟨hiff.1.2, hiff.2.1.2 (by decide)⟩

/-- The contents of a file outside of the directory are served. -/
def escapes (m : Machine) (base path : String) : Bool :=
  (m.served (m.parse base.toList) ⟨"GET", path.toList⟩).any fun (loc, _) =>
    !decide (m.Inside (m.parse base.toList) loc)

/-- By a second slash, by `..`, by a link, by a drive, by a server and by a device. -/
theorem serves_outside :
    escapes (srvMachine .unix) "/srv/www" "//srv/key" = true ∧
    escapes (srvMachine .unix) "/srv/www" "/../key" = true ∧
    escapes (srvMachine .unix) "/srv/www" "/up/key" = true ∧
    escapes (srvMachine .windows) "C:\\srv\\www" "/C:/srv/key" = true ∧
    escapes (srvMachine .windows) "C:\\srv\\www" "/..\\key" = true ∧
    escapes (srvMachine .windows) "C:\\srv\\www" "///server/share/srv/key" = true ∧
    escapes (srvMachine .windows) "C:\\srv\\www" "/nul" = true := by
  decide

end Machine

end Wxp.Serve
