import WasmBridge.Output.Path
import WasmBridge.Room
import WasmBridge.Text.Quoted

/-!
# Workspaces

Where files are read and written. An operation fails for one of the reasons that file systems have,
and names the path that it was asked for; or it cannot even be asked for, because the path or the
text has no bytes. All that is done to files is made from four operations.
-/

namespace WasmBridge

/-- Why a file system refuses an operation. -/
inductive FileCause where
  | missing
  | denied
  | alreadyThere
  | notDirectory
  | isDirectory
  | nameTooLong
  | failed
  deriving DecidableEq

/-- The number of a cause. -/
def FileCause.number : FileCause → Nat
  | missing => 2
  | failed => 5
  | denied => 13
  | alreadyThere => 17
  | notDirectory => 20
  | isDirectory => 21
  | nameTooLong => 36

/-- The wording of the causes. -/
def FileCause.message : FileCause → Text
  | missing => "No such file or directory"
  | failed => "Input/output error"
  | denied => "Permission denied"
  | alreadyThere => "File exists"
  | notDirectory => "Not a directory"
  | isDirectory => "Is a directory"
  | nameTooLong => "File name too long"

/-- An operation that a file system refuses. -/
structure FileRefusal where
  cause : FileCause
  path : Path
  deriving DecidableEq

/-- The wording of a refusal. -/
def FileRefusal.message (r : FileRefusal) : Text :=
  "[Errno " ++ toString r.cause.number ++ "] " ++ r.cause.message ++ ": " ++ Text.quote r.path.text

/-- Why an operation on files fails. -/
inductive FileError where
  | refused (refusal : FileRefusal)
  /-- The path holds the character that ends it. -/
  | nulInPath
  /-- The path or the text has no bytes. -/
  | unencodable
  /-- Too many directories are missing on the way. -/
  | tooDeep
  deriving DecidableEq

/-- The wording of the causes that have one. -/
def FileError.message? : FileError → Option Text
  | refused refusal => some refusal.message
  | nulInPath => some "embedded null byte"
  | unencodable | tooDeep => none

/-- How many bytes a name on a path may have. -/
def nameLimit : Nat := 255

/-- How many bytes a path may have. -/
def pathLimit : Nat := 4095

/-- A path can be asked for. -/
def Path.check (p : Path) : Except FileError Unit :=
  match byteCount? p.text with
  | none => .error .unencodable
  | some count =>
    if p.text.contains (.char '\x00') then .error .nulInPath
    else if pathLimit < count then .error (.refused ⟨.nameTooLong, p⟩)
    else .ok ()

/-- Where files are read and written. -/
class Workspace (m : Type → Type) where
  readFile : Path → m (Except FileError String)
  writeFile : Path → Text → m (Except FileError Unit)
  /-- Makes a directory in a place that there is. -/
  makeDirectory : Path → m (Except FileError Unit)
  isDirectory : Path → m Bool

namespace Workspace

variable {m : Type → Type} [Monad m] [Workspace m]

/-- A directory in a place that there is; it may be there already. -/
def ensureDirectory (path : Path) : m (Except FileError Unit) := do
  match ← makeDirectory path with
  | .ok () => return .ok ()
  | .error (.refused refusal) =>
    if refusal.cause ≠ .missing ∧ (← isDirectory path) then return .ok ()
    else return .error (.refused refusal)
  | .error e => return .error e

/-- A directory and those on the way to it. They are made from the top where the place of the
directory is missing; each that waits for the one above it takes a call. -/
def ensureDirectories (path : Path) (room : Nat := callRoom) : m (Except FileError Unit) := do
  match ← ensureDirectory path with
  | .error (.refused refusal) =>
    if refusal.cause = .missing ∧ path.names ≠ [] then
      match room with
      | 0 => return .error .tooDeep
      | room + 1 =>
        match ← ensureDirectories path.parent room with
        | .ok () => ensureDirectory path
        | .error e => return .error e
    else return .error (.refused refusal)
  | result => return result

end Workspace

end WasmBridge
