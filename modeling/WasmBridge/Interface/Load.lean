import WasmBridge.Interface.Declaration
import WasmBridge.JsonText.Document
import WasmBridge.Schema.Reachability

/-!
# Interfaces

An interface is what crosses the boundary: the functions that the guest imports and exports, and the
types that it sends and receives. A document may list these types. If it does not, they are the
declared types that the signatures need: the guest sends the arguments of its imports and the
results of its exports, and receives the rest.
-/

namespace WasmBridge

/-- What crosses the boundary. -/
structure Interface (ν : Type) [Label ν] where
  imports : FunctionList ν
  exports : FunctionList ν
  /-- The types that the guest sends. -/
  sent : List (TypeDef ν)
  /-- The types that the guest receives. -/
  received : List (TypeDef ν)

/-- The declarations of a document, and what it lists. -/
structure InterfaceDocument where
  types : List (TypeDef Value)
  imports : FunctionList Value
  exports : FunctionList Value
  /-- The document itself. -/
  members : Value

namespace InterfaceDocument

open Document

/-- The declarations of an object. -/
def ofMembers (members : Value) : Read InterfaceDocument := do
  return {
    types := ← (← itemsOf members "types").mapM readType
    imports := ← readFunctions members "imports"
    exports := ← readFunctions members "exports"
    members }

/-- The declarations of a text. -/
def parse (text : Text) : Read InterfaceDocument :=
  match JsonText.read text with
  | .error (.misplaced fault place) => .error (.json fault place)
  | .error (.longInteger digits) => .error (.longInteger digits)
  | .error .tooDeep => .error .tooDeep
  | .ok (.map entries) => ofMembers (.map entries)
  | .ok _ => .error .notObject

/-- The declared type of a name; of several the last. -/
def find? (d : InterfaceDocument) (name : Value) : Option (TypeDef Value) :=
  d.types.reverse.find? fun type => Label.same type.name name

/-- The types that a member lists, if it is there. All of its names must be those of types. -/
def listed? (d : InterfaceDocument) (key : Text) : Read (Option (List (TypeDef Value))) := do
  let names ← memberOr d.members key .null
  if names.isNull then return none
  match items? names with
  | none => .error .notNames
  | some names =>
    if !Value.allKeys names then .error .notNames
    else
      let missing := names.filter fun name => (d.find? name).isNone
      if missing.isEmpty then return some (names.filterMap d.find?)
      else .error (.unknownTypes key missing)

/-- The types of a document by name. -/
def typeMap (d : InterfaceDocument) : TypeMap Value := TypeMap.ofTypes d.types

/-- The declared types that some idents need, ordered by name. -/
def needed (d : InterfaceDocument) (idents : List TypeIdent) : List (TypeDef Value) :=
  (d.typeMap.referenced idents).filterMap fun name => d.find? (.str name)

/-- The types of all arguments. -/
def argumentTypes (functions : FunctionList Value) : List TypeIdent :=
  functions.toList.flatMap fun f => f.args.map (·.type)

/-- The types of all results. -/
def resultTypes (functions : FunctionList Value) : List TypeIdent :=
  functions.toList.filterMap (·.returns)

/-- The interface that a document declares. The names of its types must be able to be keys. -/
def interface (d : InterfaceDocument) : Read (Interface Value) := do
  if !Value.allKeys (d.types.map (·.name)) then .error .notNames
  let sent ← d.listed? "serializable"
  let received ← d.listed? "deserializable"
  return {
    imports := d.imports
    exports := d.exports
    sent := sent.getD (d.needed (argumentTypes d.imports ++ resultTypes d.exports))
    received := received.getD (d.needed (argumentTypes d.exports ++ resultTypes d.imports)) }

end InterfaceDocument

/-- The interface that a text declares. -/
def Interface.load (text : Text) : Read (Interface Value) := do
  (← InterfaceDocument.parse text).interface

end WasmBridge
