import WasmBridge.Schema.TypeDef

/-!
# Type maps

Definitions by name, in the order in which the names were first defined. A type map made from
declarations also knows the builtin types; a declaration may take the place of one of them. Idents
name types by texts, so a definition whose name is no text is not found by any.
-/

namespace WasmBridge

variable {ν : Type} [Label ν]

/-- The type of byte strings. -/
def bytesType : TypeDef ν :=
  .custom (Label.ofText "Bytes") [] (Label.ofText "serde_bytes::ByteBuf")
    (Label.ofText "Uint8Array")

/-- The types that need no declaration, but for the primitives. -/
def compoundTypes : List (Text × TypeDef ν) := [
  ("String", .string "String"),
  ("Option", .container "Option" ⟨"T", []⟩),
  ("Vec", .list "Vec" ⟨"T", []⟩),
  ("BTreeMap", .map "BTreeMap" ⟨"K", []⟩ ⟨"V", []⟩),
  ("HashMap", .map "HashMap" ⟨"K", []⟩ ⟨"V", []⟩),
  ("Bytes", bytesType),
  (TypeIdent.unitName, .unit TypeIdent.unitName),
  (TypeIdent.tupleName, .tuple [])]

/-- The types that need no declaration. -/
def builtinTypes : List (Text × TypeDef ν) :=
  Primitive.all.map (fun p => (p.name, .primitive p)) ++ compoundTypes

/-- Two definitions of a kind that builtin types have are the same. -/
def TypeDef.sameFlat : (a b : TypeDef ν) → Bool
  | .container n t, .container m u => n = m ∧ t = u
  | .custom n as r t, .custom m bs s u =>
    Label.equals n m && as = bs && Label.equals r s && Label.equals t u
  | .list n t, .list m u => n = m ∧ t = u
  | .map n k v, .map m l w => n = m ∧ k = l ∧ v = w
  | .primitive p, .primitive q => p = q
  | .string n, .string m => n = m
  | .tuple xs, .tuple ys => xs = ys
  | .unit n, .unit m => n = m
  | _, _ => false

/-- The definition is the builtin one of the name. -/
def TypeDef.isBuiltin (name : Text) (type : TypeDef ν) : Bool :=
  match builtinTypes.lookup name with
  | some builtin => type.sameFlat builtin
  | none => false

/-- Definitions by name. -/
structure TypeMap (ν : Type) where
  entries : List (ν × TypeDef ν)

namespace TypeMap

/-- The definition of a name. -/
def find? (types : TypeMap ν) (name : Text) : Option (TypeDef ν) :=
  (types.entries.find? fun e => Label.isText e.1 name).map (·.2)

/-- Entries with a name defined: in its place if it has one, else at the end. -/
def insertEntry (name : ν) (type : TypeDef ν) :
    List (ν × TypeDef ν) → List (ν × TypeDef ν)
  | [] => [(name, type)]
  | (n, t) :: rest =>
    if Label.same n name then (n, type) :: rest else (n, t) :: insertEntry name type rest

/-- The map with a name defined. -/
def insert (types : TypeMap ν) (name : ν) (type : TypeDef ν) : TypeMap ν :=
  ⟨insertEntry name type types.entries⟩

/-- The map that defines the builtin types alone. -/
def builtin : TypeMap ν := ⟨builtinTypes.map fun (name, type) => (Label.ofText name, type)⟩

/-- The builtin types and the given ones; of two with one name the later counts. Parameters define
nothing. -/
def ofTypes (declared : List (TypeDef ν)) : TypeMap ν :=
  declared.foldl (fun types type =>
    match type with
    | .generic _ => types
    | type => types.insert type.name type) builtin

/-- What an ident stands for, where the names in `scope` are parameters. The items of a tuple are
the arguments of its ident; any other definition must be applied to as many arguments as it has
parameters. -/
def resolve (types : TypeMap ν) (ident : TypeIdent) (scope : List ν := []) :
    Except SchemaError (TypeDef ν) :=
  if scope.any (Label.isText · ident.name) then
    if ident.args.isEmpty then .ok (.generic ident.name)
    else .error (.appliedParameter ident.name)
  else
    match types.find? ident.name with
    | none => .error (.unresolved ident)
    | some (.tuple _) => .ok (.tuple ident.args)
    | some type =>
      if ident.args.length = type.generics.length then .ok type
      else .error (.wrongArity ident type.generics.length)

/-- The head of the ident names a primitive. -/
def isPrimitive (types : TypeMap ν) (ident : TypeIdent) : Bool :=
  match types.find? ident.name with
  | some (.primitive _) => true
  | _ => false

/-- The head of the ident names an optional type. -/
def isOptional (types : TypeMap ν) (ident : TypeIdent) : Bool :=
  match types.find? ident.name with
  | some (.container ..) => true
  | _ => false

/-- The entries that differ from the builtin type of their name. -/
def declaredEntries (types : TypeMap ν) : List (ν × TypeDef ν) :=
  types.entries.filter fun (name, type) => !(Label.text? name).any (TypeDef.isBuiltin · type)

/-- The declared types, ordered by their own names. -/
def declarations (types : TypeMap ν) : Except SchemaError (List (TypeDef ν)) :=
  let declared := types.declaredEntries.map (·.2)
  if Label.ordered (declared.map (·.name)) then .ok (Label.sortBy (·.name) declared)
  else .error (.label .unordered)

end TypeMap

end WasmBridge
