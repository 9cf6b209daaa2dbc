import WasmBridge.Schema.Function
import WasmBridge.Schema.TypeMap

/-!
# What bindings are made from

The functions of both directions, the types by name, and which of them the guest sends and receives.
Settings that do not belong to an interface come with defaults.
-/

namespace WasmBridge

/-- Where generated code finds what it does not hold itself. -/
structure Settings where
  /-- The path of the guest's functions. -/
  pluginPath : Text := "crate"
  /-- The path of the host's functions. -/
  runtimePath : Text := "super"
  messagePackModule : Text := "@msgpack/msgpack"
  deriving DecidableEq

/-- What bindings are made from. -/
structure BindingSource (ν : Type) [Label ν] where
  imports : FunctionList ν
  exports : FunctionList ν
  types : TypeMap ν
  /-- The names of the types that the guest sends. -/
  sent : List ν
  /-- The names of the types that the guest receives. -/
  received : List ν
  settings : Settings := {}

namespace BindingSource

variable {ν : Type} [Label ν]

/-- The guest sends the type of a name. -/
def sends (s : BindingSource ν) (name : ν) : Bool := s.sent.any (Label.same · name)

/-- The guest receives the type of a name. -/
def receives (s : BindingSource ν) (name : ν) : Bool := s.received.any (Label.same · name)

/-- The declared types that cross the boundary, ordered by name. -/
def declared (s : BindingSource ν) : Except SchemaError (List (TypeDef ν)) := do
  return (← s.types.declarations).filter fun type => s.sends type.name || s.receives type.name

/-- An ident stands for the unit. -/
def isUnit (s : BindingSource ν) (ident : TypeIdent) : Except SchemaError Bool := do
  return (← s.types.resolve ident).isUnit

/-- A function has a result: its type is there and not the unit. -/
def result? (s : BindingSource ν) (f : Function ν) : Except SchemaError (Option TypeIdent) := do
  match f.returns with
  | none => return none
  | some ident => return if ← s.isUnit ident then none else some ident

end BindingSource

end WasmBridge
