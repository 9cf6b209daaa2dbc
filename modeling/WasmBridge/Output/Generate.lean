import WasmBridge.Bindings.Target
import WasmBridge.Output.Formatter
import WasmBridge.Output.Workspace

/-!
# Writing bindings

All files of a target are made and formatted before the first is written. They are written one after
the other, and writing stops at the first that fails.
-/

namespace WasmBridge

/-- Why bindings have no place to go. -/
inductive OutputError where
  | directory (path : Path) (refusal : FileRefusal)
  | file (path : Path) (refusal : FileRefusal)
  deriving DecidableEq

/-- The wording of the causes. -/
def OutputError.message : OutputError → Text
  | directory path refusal =>
    "Could not create output directory " ++ path.text ++ ": " ++ refusal.message
  | file path refusal =>
    "Could not write bindings file " ++ path.text ++ ": " ++ refusal.message

/-- Why bindings cannot be generated. -/
inductive GenerateError where
  | unknownTarget (name : Text)
  | schema (cause : SchemaError)
  | format (cause : FormatError)
  | output (cause : OutputError)
  /-- What is to be written, or where, cannot even be asked for. -/
  | path (cause : FileError)
  deriving DecidableEq

/-- The wording of the causes that have one. -/
def GenerateError.message? : GenerateError → Option Text
  | unknownTarget name => some (Target.unknownMessage name)
  | schema cause => cause.message?
  | format cause => cause.message?
  | output cause => some cause.message
  | path cause => cause.message?

/-- The error for a failure; refusals name what they come from. -/
def GenerateError.ofFile (wrap : FileRefusal → OutputError) : FileError → GenerateError
  | .refused refusal => output (wrap refusal)
  | cause => path cause

section

variable {ν : Type} [Label ν]

/-- The formatted files of a target, by name. -/
def BindingSource.formatted (s : BindingSource ν) (tools : Toolbox) (formatters : List Formatter)
    (target : Target) : Except GenerateError (List (Text × Text)) := do
  let files ← (s.files target).mapError .schema
  files.mapM fun (name, text) => do
    let text ← (Formatter.applyAll tools formatters name text).mapError .format
    return (name, text)

/-- The formatted files of the target of a name. The declared types are put in order before all
else. -/
def Interface.render (i : Interface ν) (settings : Settings) (tools : Toolbox)
    (formatters : List Formatter) (target : Text) :
    Except GenerateError (List (Text × Text)) := do
  match Target.ofName? target with
  | none => throw (.unknownTarget target)
  | some target =>
    let source := i.source settings
    let _ ← source.types.declarations.mapError .schema
    source.formatted tools formatters target

end

section

variable {m : Type → Type} [Monad m] [Workspace m]

/-- Writes files into a directory, one after the other, up to the first that fails; gives back the
path of each that is written. -/
def writeFiles (directory : Path) :
    List (Text × Text) → m (List (Text × Path) × Except GenerateError Unit)
  | [] => return ([], .ok ())
  | (name, text) :: rest => do
    let path := directory.child name
    match ← Workspace.writeFile path text with
    | .error e => return ([], .error (.ofFile (.file path) e))
    | .ok () =>
      let (written, result) ← writeFiles directory rest
      return ((name, path) :: written, result)

/-- Writes bindings into a directory, which is made if it is missing. -/
def writeBindings (files : List (Text × Text)) (directory : Path) :
    m (List (Text × Path) × Except GenerateError Unit) := do
  match ← Workspace.ensureDirectories directory with
  | .error e => return ([], .error (.ofFile (.directory directory) e))
  | .ok () => writeFiles directory files

/-- Writes the bindings of an interface for the target of a name. -/
def Interface.generate {ν : Type} [Label ν] (i : Interface ν) (settings : Settings) (target : Text)
    (directory : Path) (tools : Toolbox := fun _ => none) (formatters : List Formatter := []) :
    m (Except GenerateError (List (Text × Path))) := do
  match i.render settings tools formatters target with
  | .error e => return .error e
  | .ok files =>
    let (written, result) ← writeBindings files directory
    return result.map fun _ => written

end

end WasmBridge
