import WasmBridge.CommandLine.Help
import WasmBridge.Interface.Load
import WasmBridge.Output.Generate

/-!
# Running the command line

A run reads the document, makes the bindings of all targets and then writes those of one target
after the other, each into a directory of its own if there are several. What it has to say goes to
the output, or to the errors if it is verbose; the first failure ends it. Most failures are
reported; the others are the run's own.

Formatters that are asked for are never at hand, so a file that one of them concerns ends the run.
-/

namespace WasmBridge

/-- How a run ends. -/
structure Outcome where
  exitCode : Nat
  out : List Text := []
  err : List Text := []
  /-- The run has done all that was asked for. -/
  completed : Bool := false
  deriving DecidableEq

/-- Why a run fails. -/
inductive RunError where
  /-- The output directory is left without a name. -/
  | noDirectory
  | read (cause : FileError)
  | load (cause : LoadError)
  | generate (cause : GenerateError)

/-- The wording of the causes that have one. -/
def RunError.message? : RunError → Option Text
  | noDirectory => none
  | read cause => cause.message?
  | load cause => cause.message?
  | generate cause => cause.message?

/-- What is reported of a failure that lies in the document, in the schema or with the file system.
Any other is not reported. -/
def RunError.report? : RunError → Option Text
  | read (.refused refusal) => some refusal.message
  | load (.longInteger _) | generate (.format .nulInArgument) => none
  | load cause => cause.message?
  | generate (.schema cause) => cause.message?
  | generate (.format cause) => cause.message?
  | generate (.output cause) => some cause.message
  | noDirectory | read _ | generate (.unknownTarget _) | generate (.path _) => none

namespace CommandLine

/-- What a run has said so far. -/
structure Said where
  out : List Text := []
  err : List Text := []

/-- The settings that the options make. -/
def settings (o : Options) : Settings where
  pluginPath := Options.shown o.pluginPath
  runtimePath := Options.shown o.runtimePath

/-- The formatters that the options ask for. -/
def formatters (o : Options) : List Formatter :=
  (if o.rustfmt then [Formatter.rustfmt] else []) ++ if o.prettier then [Formatter.prettier] else []

/-- The targets that the options ask for. -/
def targets (o : Options) : List (Option Target) :=
  if o.targets.isEmpty then Target.all.map some else o.targets

/-- The source of the messages about a target. -/
def sourceName : Target → Text
  | .rustPlugin => "rust_plugin_generator"
  | .wasmerRuntime => "rust_runtime_generator"
  | .typeScriptRuntime => "ts_runtime_generator"

/-- A message of some level from some source. -/
def message (level source text : Text) : Text := level ++ " plugbind." ++ source ++ ": " ++ text

/-- A count of things. -/
def counted (count : Nat) (things : Text) : Text := toString count ++ " " ++ things ++ "(s)"

/-- What is said of a document that is loaded. -/
def loadedMessage (d : InterfaceDocument) : Text :=
  message "DEBUG" "loader" ("loaded IR: " ++
    Text.separated ", " [
      counted d.types.length "type", counted d.imports.toList.length "import",
      counted d.exports.toList.length "export"])

/-- What is said while the bindings of a target are made, which declares a number of types. -/
def makingMessages {ν : Type} [Label ν] (s : BindingSource ν) (target : Target) (declared : Nat) :
    List Text :=
  message "DEBUG" "generator" ("generating " ++ target.name ++ " bindings: " ++
    Text.separated ", " [
      counted s.imports.toList.length "import", counted s.exports.toList.length "export",
      counted declared "type"]) ::
  (s.madeFiles target).map fun file =>
    message "DEBUG" (sourceName target) ("rendered " ++ target.name ++ " " ++ file)

section

variable {m : Type → Type} [Monad m] [Workspace m]

/-- A step of a run: it says something, and may fail. -/
abbrev Step (m : Type → Type) := ExceptT RunError (StateT Said m)

/-- Says something if the run is verbose. -/
def explain (o : Options) (lines : List Text) : Step m Unit :=
  if o.verbose then modify fun s => { s with err := s.err ++ lines } else pure ()

/-- Says something. -/
def say (lines : List Text) : Step m Unit := modify fun s => { s with out := s.out ++ lines }

/-- The interface of the document. -/
def loadDocument (o : Options) : Step m (Interface Value) := do
  match ← (Workspace.readFile (Path.ofText o.document) : m _) with
  | .error cause => throw (.read cause)
  | .ok text =>
    match InterfaceDocument.parse (Text.unifyLineEnds text) with
    | .error e => throw (.load e)
    | .ok document =>
      match document.interface with
      | .error e => throw (.load e)
      | .ok interface =>
        explain o [loadedMessage document]
        return interface

/-- The files of a target. -/
def makeTarget (o : Options) (interface : Interface Value) (target : Option Target) :
    Step m (Target × List (Text × Text)) := do
  match target with
  | none => throw (.generate (.unknownTarget (Options.shown none)))
  | some target =>
    let source := interface.source (settings o)
    match source.types.declarations with
    | .error e => throw (.generate (.schema e))
    | .ok declared =>
      explain o (makingMessages source target declared.length)
      match source.formatted (fun _ => none) (formatters o) target with
      | .error e => throw (.generate e)
      | .ok files => return (target, files)

/-- Writes the files of a target into a directory. -/
def writeTarget (o : Options) (directory : Path) (files : Target × List (Text × Text)) :
    Step m Unit := do
  let directory :=
    if (targets o).length > 1 then directory.child files.1.name else directory
  let (written, result) ← (writeBindings files.2 directory : m _)
  explain o (written.map fun (_, path) => message "INFO" "generator" ("wrote " ++ path.text))
  match result with
  | .error e => throw (.generate e)
  | .ok () => say (written.map fun (_, path) => "Generated: " ++ path.text)

/-- Does what the options ask for. A target that is named twice is made twice and written once. -/
def carryOut (o : Options) : Step m Unit := do
  match o.outputDirectory with
  | none => throw .noDirectory
  | some directory =>
    let interface ← loadDocument o
    let files ← (targets o).mapM (makeTarget o interface)
    let distinct := (targets o).eraseDups.filterMap fun target =>
      files.find? fun f => some f.1 = target
    distinct.forM (writeTarget o (Path.ofText directory))

/-- Carries out a command line. A failure that is not reported is given back. -/
def run (words : List Text) : m (Except RunError Outcome) := do
  match parse words with
  | .error .usage => return .ok { exitCode := 2, err := helpLines.take 6 }
  | .error .help => return .ok { exitCode := 0, out := helpLines }
  | .ok options =>
    let (result, said) ← (carryOut options : Step m Unit).run.run {}
    match result with
    | .ok () => return .ok { exitCode := 0, out := said.out, err := said.err, completed := true }
    | .error e =>
      match e.report? with
      | none => return .error e
      | some report =>
        let line : Text := "error: " ++ report
        return .ok { exitCode := 1, out := said.out, err := said.err ++ [line] }

end

end CommandLine

/-- The line that ends a completed run. -/
def Outcome.closing (o : Outcome) (time : Text) : List Text :=
  if o.completed then [("Generation completed in " : Text) ++ time ++ " ms"] else []

end WasmBridge
