import WasmBridge.Output.Workspace

/-!
# File trees

A workspace that is a value. Every place is the list of the names that lead to it from the top; the
top itself is a directory. A path is followed name by name from where one is. It must lead through
directories, and two dots lead back. The text of a file is one of characters.
-/

namespace WasmBridge

/-- What is in a place. -/
inductive Node where
  | directory
  | file (text : String)
  deriving DecidableEq

/-- Directories and files by their places. -/
structure FileTree where
  nodes : List (List Text × Node)
  /-- Where relative paths start. -/
  current : List Text

namespace FileTree

/-- What is in a place. -/
def node? (t : FileTree) (place : List Text) : Option Node :=
  if place = [] then some .directory else t.nodes.lookup place

/-- The tree with something put in a place. -/
def put (t : FileTree) (place : List Text) (node : Node) : FileTree :=
  { t with nodes := (t.nodes.filter fun n => n.1 ≠ place) ++ [(place, node)] }

/-- The place that names lead to from a place. There need be nothing in it. -/
def follow (t : FileTree) : (place names : List Text) → Except FileCause (List Text)
  | place, [] => .ok place
  | place, name :: rest =>
    match t.node? place with
    | some .directory =>
      if (Path.byteCount? name).any (nameLimit < ·) then .error .nameTooLong
      else follow t (if name = ".." then place.dropLast else place ++ [name]) rest
    | some (.file _) => .error .notDirectory
    | none => .error .missing

/-- The place that a path leads to. -/
def placeOf (t : FileTree) (path : Path) : Except FileCause (List Text) :=
  t.follow (if path.isAbsolute then [] else t.current) path.names

/-- What is done at the place of a path that can be asked for. -/
def visit {α : Type} (t : FileTree) (path : Path) (action : List Text → Except FileCause α) :
    Except FileError α := do
  path.check
  (t.placeOf path >>= action).mapError fun cause => .refused { cause, path }

/-- The text of a file. -/
def read (t : FileTree) (path : Path) : Except FileError String :=
  t.visit path fun place =>
    match t.node? place with
    | some (.file text) => .ok text
    | some .directory => .error .isDirectory
    | none => .error .missing

/-- The tree with an empty file, and where it is, if it is a place that can be written to. -/
def openFile (t : FileTree) (path : Path) (isWritable : List Text → Bool := fun _ => true) :
    Except FileError (List Text × FileTree) :=
  t.visit path fun place =>
    match t.node? place with
    | some .directory => .error .isDirectory
    | _ => if isWritable place then .ok (place, t.put place (.file "")) else .error .denied

/-- The tree with a file written; a text that cannot be written leaves an empty file. -/
def write (t : FileTree) (path : Path) (text : Text)
    (isWritable : List Text → Bool := fun _ => true) : Except FileError Unit × FileTree :=
  match t.openFile path isWritable with
  | .error e => (.error e, t)
  | .ok (place, opened) =>
    match text.toString? with
    | none => (.error .unencodable, opened)
    | some text => (.ok (), opened.put place (.file text))

/-- The tree with a directory made. -/
def make (t : FileTree) (path : Path) : Except FileError Unit × FileTree :=
  let made := t.visit path fun place =>
    match t.node? place with
    | some _ => .error .alreadyThere
    | none => .ok (t.put place .directory)
  match made with
  | .ok tree => (.ok (), tree)
  | .error e => (.error e, t)

/-- A path leads to a directory. -/
def isDirectory (t : FileTree) (path : Path) : Bool :=
  match t.placeOf path with
  | .ok place => t.node? place = some .directory
  | .error _ => false

instance : Workspace (StateM FileTree) where
  readFile path := return (← get).read path
  writeFile path text := modifyGet fun t => t.write path text
  makeDirectory path := modifyGet fun t => t.make path
  isDirectory path := return (← get).isDirectory path

/-- The files below where one is, by the names that lead to them. -/
def files (t : FileTree) : List (List Text × String) :=
  t.nodes.filterMap fun (place, node) =>
    match node with
    | .file text =>
      if t.current.isPrefixOf place then some (place.drop t.current.length, text) else none
    | .directory => none

end FileTree

/-- A file tree, and in which of its places files can be written. -/
structure Disk where
  tree : FileTree
  isWritable : List Text → Bool

instance : Workspace (StateM Disk) where
  readFile path := return (← get).tree.read path
  writeFile path text := modifyGet fun d =>
    let (result, tree) := d.tree.write path text d.isWritable
    (result, { d with tree })
  makeDirectory path := modifyGet fun d =>
    let (result, tree) := d.tree.make path
    (result, { d with tree })
  isDirectory path := return (← get).tree.isDirectory path

end WasmBridge
