import WasmBridge.Bindings.RustPlugin
import WasmBridge.Bindings.TypeScriptRuntime
import WasmBridge.Bindings.WasmerRuntime
import WasmBridge.Interface.Load

/-!
# Targets

Bindings are made for one of three targets: a guest in Rust, a host in Rust and a host in
TypeScript. Each gives files by name. The types of an interface are those that the guest sends and
then those that it receives, so of two definitions with one name the latter counts.
-/

namespace WasmBridge

/-- What bindings are made for. -/
inductive Target where
  | rustPlugin
  | wasmerRuntime
  | typeScriptRuntime
  deriving DecidableEq

namespace Target

/-- All targets. -/
def all : List Target := [rustPlugin, wasmerRuntime, typeScriptRuntime]

/-- The name that selects a target. -/
def name : Target → Text
  | rustPlugin => RustPlugin.target
  | wasmerRuntime => WasmerRuntime.target
  | typeScriptRuntime => TypeScriptRuntime.target

/-- The target of a name. -/
def ofName? (text : Text) : Option Target := all.find? (·.name == text)

/-- What is said of a name that no target has. -/
def unknownMessage (text : Text) : Text :=
  let choices := all.map fun t => ("`" : Text) ++ t.name ++ "`"
  "Bindings type must be one of " ++ Text.separated ", " choices ++ ", was: `" ++ text ++ "`"

end Target

variable {ν : Type} [Label ν]

/-- The files of a target, by name. -/
def BindingSource.files (s : BindingSource ν) : Target → Except SchemaError (List (Text × Text))
  | .rustPlugin => RustPlugin.Bindings.files <$> RustPlugin.bindings s
  | .wasmerRuntime => WasmerRuntime.Bindings.files <$> WasmerRuntime.bindings s
  | .typeScriptRuntime => TypeScriptRuntime.Bindings.files <$> TypeScriptRuntime.bindings s

/-- The names of the files that are made before the first error, the file of types before that of
functions. Files that are the same for every interface are not counted. -/
def BindingSource.madeFiles (s : BindingSource ν) (target : Target) : List Text :=
  let made (types functions : Text) (hasTypes hasFunctions : Bool) : List Text :=
    if !hasTypes then [] else if !hasFunctions then [types] else [types, functions]
  match target with
  | .rustPlugin =>
    made "types.rs" "functions.rs" (RustPlugin.types s).isOk (RustPlugin.functions s).isOk
  | .wasmerRuntime =>
    made "types.rs" "bindings.rs" (WasmerRuntime.types s).isOk (WasmerRuntime.functions s).isOk
  | .typeScriptRuntime =>
    made "types.ts" "index.ts" (TypeScriptRuntime.types s).isOk (TypeScriptRuntime.functions s).isOk

/-- What bindings of an interface are made from. -/
def Interface.source (i : Interface ν) (settings : Settings) : BindingSource ν where
  imports := i.imports
  exports := i.exports
  types := TypeMap.ofTypes (i.sent ++ i.received)
  sent := i.sent.map (·.name)
  received := i.received.map (·.name)
  settings := settings

end WasmBridge
