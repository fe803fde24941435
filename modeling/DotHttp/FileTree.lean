import DotHttp.Text.Lines
import DotHttp.Text.Quoted
import DotHttp.Text.Split
import DotHttp.Text.Utf8

/-!
A tree of files and directories as a value, with a working and a home directory. Paths are texts
as they are given; a location is the list of names from the root. `..` leads out of a directory
only if the directory exists.
-/

namespace DotHttp

/-- The names on the way from the root. -/
abbrev Location := List String

inductive FileTree.Node where
  | file (bytes : List UInt8)
  | directory
  deriving DecidableEq, Repr

structure FileTree where
  nodes : List (Location × FileTree.Node)
  workingDirectory : Location
  homeDirectory : Location
  /-- What is written before the first name of a location. -/
  mount : String
  /-- At each location there is one node at most. -/
  nodup : (nodes.map Prod.fst).Nodup
  deriving DecidableEq, Repr

/-- Why a file cannot be used, with the path as it was given. -/
inductive FileTree.Fault where
  | notFound (path : String)
  | isDirectory (path : String)
  | notDirectory (path : String)
  | exists (path : String)
  deriving DecidableEq, Repr

def FileTree.Fault.message : FileTree.Fault → String
  | .notFound path => s!"[Errno 2] No such file or directory: {path.quotedForm}"
  | .isDirectory path => s!"[Errno 21] Is a directory: {path.quotedForm}"
  | .notDirectory path => s!"[Errno 20] Not a directory: {path.quotedForm}"
  | .exists path => s!"[Errno 17] File exists: {path.quotedForm}"

namespace FileTree

open DotHttp.Text

/-- The names in a path; empty ones and single points lead nowhere and are left out. -/
def names (path : String) : List String :=
  ((splitOn '/' path.toList).filter fun s => s != [] && s != ['.']).map String.ofList

def isAbsolute (path : String) : Bool :=
  ['/'].isPrefixOf path.toList

/-- What a plain path has before its first name. Two slashes stay two; more count as one. -/
def root (path : String) : String :=
  match path.toList with
  | '/' :: '/' :: '/' :: _ => "/"
  | '/' :: '/' :: _ => "//"
  | '/' :: _ => "/"
  | _ => ""

/-- A path in its plain form: no empty names, no single points. -/
def plainPath (path : String) : String :=
  match root path ++ "/".intercalate (names path) with
  | "" => "."
  | plain => plain

/-- A path below another one; an absolute path stands for itself. -/
def join (base path : String) : String :=
  if isAbsolute path then plainPath path
  else
    match names base, names path with
    | [], [] => plainPath base
    | bs, ns => root base ++ "/".intercalate (bs ++ ns)

def display (t : FileTree) (loc : Location) : String :=
  match loc with
  | [] => if t.mount = "" then "/" else t.mount
  | _ => t.mount ++ "/" ++ "/".intercalate loc

/-- The names after the mount in an absolute path. -/
def belowMount (t : FileTree) (path : String) : List String :=
  names (String.ofList ((dropStart? t.mount.toList path.toList).getD path.toList))

def node? (t : FileTree) (loc : Location) : Option Node :=
  if loc = [] then some .directory else t.nodes.lookup loc

def isDirectoryAt (t : FileTree) (loc : Location) : Bool :=
  t.node? loc == some .directory

/-- The directory that a location is in. Above the mount there is nothing to know; the root of a tree
without a mount is in itself. -/
def directoryOf? (t : FileTree) (loc : Location) : Option Location :=
  if loc = [] && t.mount != "" then none else some loc.dropLast

/-- The result of walking along names. -/
inductive Walk where
  | found (loc : Location) (node : Node)
  /-- The last name is missing in an existing directory. -/
  | missing (loc : Location)
  | notFound
  | notDirectory
  deriving DecidableEq, Repr

/-- Walks from a location along names. Above the mount there are directories only. -/
def walk (t : FileTree) (loc : Location) : List String → Walk
  | [] =>
    match t.node? loc with
    | some node => .found loc node
    | none => .missing loc
  | name :: rest =>
    match t.node? loc with
    | some .directory =>
      if name = ".." then
        match t.directoryOf? loc with
        | some above => walk t above rest
        | none => if rest.all (· = "..") then .found [] .directory else .notFound
      else walk t (loc ++ [name]) rest
    | some (.file _) => .notDirectory
    | none => .notFound

/-- Where a path starts, and the names to walk. -/
def start (t : FileTree) (path : String) : Location × List String :=
  if isAbsolute path || (t.mount != "" && t.mount.toList.isPrefixOf path.toList) then
    ([], t.belowMount path)
  else (t.workingDirectory, names path)

/-- What follows the last slash of a path. -/
def lastPiece (path : String) : List Char :=
  ((splitOn '/' path.toList).getLast?).getD []

/-- Looks a path up. A path that ends in a slash, or in a single point after one, must lead to a
directory. -/
def look (t : FileTree) (path : String) : Walk :=
  let (loc, ns) := t.start path
  match t.walk loc ns with
  | .found loc (.file bytes) =>
    if lastPiece path = [] || lastPiece path = ['.'] then .notDirectory
    else .found loc (.file bytes)
  | w => w

/-- Whether a path leads to a file or a directory. -/
def pathExists (t : FileTree) (path : String) : Bool :=
  match t.look path with
  | .found _ _ => true
  | _ => false

def isFile (t : FileTree) (path : String) : Bool :=
  match t.look path with
  | .found _ (.file _) => true
  | _ => false

/-- The location that a path names, whether something is there or not; none above the mount. -/
def resolve? (t : FileTree) (path : String) : Option Location :=
  let (loc, ns) := t.start path
  ns.foldlM (fun loc name => if name = ".." then t.directoryOf? loc else some (loc ++ [name])) loc

/-- The location that a path names, where a path goes no further up than to the mount. -/
def resolve (t : FileTree) (path : String) : Location :=
  let (loc, ns) := t.start path
  ns.foldl (fun loc name => if name = ".." then loc.dropLast else loc ++ [name]) loc

def readBytes (t : FileTree) (path : String) : Except Fault (List UInt8) :=
  if path = "" then .error (.notFound path)
  else
    match t.look path with
    | .found _ (.file bytes) => .ok bytes
    | .found _ .directory => .error (.isDirectory path)
    | .notDirectory => .error (.notDirectory path)
    | .missing _ | .notFound => .error (.notFound path)

/-- The nodes with one at a location, in place of what is there. -/
def replaceNode (loc : Location) (node : Node) (nodes : List (Location × Node)) :
    List (Location × Node) :=
  nodes.filter (·.1 != loc) ++ [(loc, node)]

theorem nodup_replaceNode (loc : Location) (node : Node) {nodes : List (Location × Node)}
    (h : (nodes.map Prod.fst).Nodup) : ((replaceNode loc node nodes).map Prod.fst).Nodup := by
  rw [replaceNode, List.map_append, List.nodup_append]
  refine ⟨(List.filter_sublist.map Prod.fst).nodup h, by simp, ?_⟩
  intro l hl m hm
  simp only [List.mem_map, List.mem_filter, bne_iff_ne] at hl
  obtain ⟨x, ⟨-, hx⟩, rfl⟩ := hl
  simp only [List.map_cons, List.map_nil, List.mem_singleton] at hm
  exact hm ▸ hx

/-- Puts a node at a location, in place of what is there. -/
def put (t : FileTree) (loc : Location) (node : Node) : FileTree :=
  { t with nodes := replaceNode loc node t.nodes, nodup := nodup_replaceNode loc node t.nodup }

def write (t : FileTree) (path : String) (bytes : List UInt8) : Except Fault FileTree :=
  if path = "" then .error (.notFound path)
  else
    match t.look path with
    | .found loc (.file _) => .ok (t.put loc (.file bytes))
    | .found _ .directory => .error (.isDirectory path)
    | .missing loc =>
      if lastPiece path = [] then .error (.isDirectory path)
      else if lastPiece path = ['.'] then .error (.notFound path)
      else if t.isDirectoryAt loc.dropLast then .ok (t.put loc (.file bytes))
      else .error (.notFound path)
    | .notDirectory => .error (.notDirectory path)
    | .notFound => .error (.notFound path)

/-- Makes a directory and those it stands in. What is there already must be directories. -/
def makeDirectories (t : FileTree) (path : String) : Except Fault FileTree :=
  let (loc, ns) := t.start path
  go t loc ns
where
  /-- Walks along the names and makes the directories that are missing. -/
  go (t : FileTree) (loc : Location) : List String → Except Fault FileTree
    | [] => .ok t
    | name :: rest =>
      let loc := if name = ".." then loc.dropLast else loc ++ [name]
      match t.node? loc with
      | some .directory => go t loc rest
      | some (.file _) => .error (if rest.isEmpty then .exists path else .notDirectory path)
      | none => go (t.put loc .directory) loc rest

/-- Names compare by their characters, a shorter name before its extensions. -/
def nameLe (a b : String) : Bool :=
  !(b.toList < a.toList)

/-- Locations compare name by name. -/
def locationLe : Location → Location → Bool
  | [], _ => true
  | _ :: _, [] => false
  | a :: as, b :: bs => if a = b then locationLe as bs else nameLe a b

/-- The files below a directory whose names have an ending, as paths from there, in order. -/
def filesEndingIn (t : FileTree) (ending : String) (root : String) : List String :=
  match t.look root with
  | .found loc .directory =>
    let below := t.nodes.filterMap fun (l, node) =>
      match node with
      | .file _ =>
        if loc.isPrefixOf l && (l.getLast?.any fun n => ending.toList.isSuffixOf n.toList) then
          some (l.drop loc.length)
        else none
      | .directory => none
    (below.mergeSort locationLe).map fun l => join root ("/".intercalate l)
  | _ => []

end FileTree

/-- Why a text file cannot be read. -/
inductive TextFileFault where
  | file (fault : FileTree.Fault)
  | encoding (error : Text.Utf8Error)
  deriving DecidableEq, Repr

/-- The text of a file; every line end is read as a line feed. -/
def FileTree.readText (t : FileTree) (path : String) : Except TextFileFault String :=
  match t.readBytes path with
  | .error fault => .error (.file fault)
  | .ok bytes =>
    match Text.decodeUtf8 bytes with
    | .error e => .error (.encoding e)
    | .ok s => .ok (String.ofList (Text.unifyNewlines s))

end DotHttp
