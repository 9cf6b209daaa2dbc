import WasmBridge.Bindings.Lines
import WasmBridge.Bindings.RustType
import WasmBridge.Bindings.Source
import WasmBridge.Bindings.Symbols

/-!
# Functions in Rust

A generated function converts its arguments, passes them on in one call and converts the result. Its
body is kept as statements, so that the names it binds can be told from the text around them.
-/

namespace WasmBridge.Rust

variable {ν : Type} [Label ν]

/-- A piece of the body of a function. -/
inductive Statement where
  /-- An argument is converted and keeps its name. -/
  | convert (name rest : Text)
  /-- A name of the function's own is bound; the value may go on over further lines. -/
  | bind (name rest : Text) (more : List Text)
  /-- The call that passes the arguments on, with the name that its result is bound to. -/
  | call (result : Option Text) (text : Text)
  | line (text : Text)
  | block (head : Text) (body : List Statement) (closing : Text)

mutual

/-- The lines of a statement. -/
def Statement.lines : Statement → List Text
  | .convert name rest => ["let " ++ name ++ rest]
  | .bind name rest more => ("let " ++ name ++ rest) :: Lines.nested more
  | .call (some result) text => ["let " ++ result ++ " = " ++ text]
  | .call none text => [text]
  | .line text => [text]
  | .block head body closing => Lines.block head (Statement.linesAll body) closing

/-- The lines of several statements. -/
def Statement.linesAll : List Statement → List Text
  | [] => []
  | s :: rest => s.lines ++ Statement.linesAll rest

end

/-- A function: what stands above it, its head, the names of its parameters and its body. -/
structure FunctionCode where
  above : List Text
  head : Text
  params : List Text
  body : List Statement

/-- The lines of a function. -/
def FunctionCode.lines (c : FunctionCode) : List Text :=
  c.above ++ Lines.block c.head (Statement.linesAll c.body)

/-- A parameter at the boundary. -/
structure BoundaryParam where
  name : Text
  type : Crossing Text
  deriving DecidableEq

/-- A function as it is seen from across the boundary. -/
structure BoundarySignature where
  symbol : Text
  params : List BoundaryParam
  result : Option (Crossing Text)
  deriving DecidableEq

/-- Parameters with their types. -/
def BoundarySignature.paramTexts (s : BoundarySignature) : List Text :=
  s.params.map fun p => p.name ++ ": " ++ crossingText p.type

/-- The type of the result behind an arrow, if there is one. -/
def arrow : Option Text → Text
  | some type => " -> " ++ type
  | none => ""

/-- The signature under some name. -/
def BoundarySignature.text (s : BoundarySignature) : Text :=
  s.symbol ++ Text.bracketed "(" ")" s.paramTexts ++ arrow (s.result.map crossingText)

/-- An argument that crosses the boundary. -/
def boundaryParam (s : BindingSource ν) (a : Argument ν) : Except SchemaError BoundaryParam := do
  return { name := Label.display (← escape a.name), type := ← crossingOf s.types a.type }

/-- The result that crosses the boundary: a pointer if the call is asynchronous, else nothing if the
function has no result. -/
def boundaryResult (s : BindingSource ν) (f : Function ν) :
    Except SchemaError (Option (Crossing Text)) := do
  if f.isAsync then return some .pointer
  else
    match ← s.result? f with
    | none => return none
    | some type => some <$> crossingOf s.types type

/-- The signature of a function at the boundary. -/
def boundarySignature (s : BindingSource ν) (f : Function ν) :
    Except SchemaError BoundarySignature := do
  return {
    symbol := Symbols.function (Label.display f.name)
    params := ← f.args.mapM (boundaryParam s)
    result := ← boundaryResult s f }

/-- An argument with its type in full. -/
def fullParam (s : BindingSource ν) (a : Argument ν) : Except SchemaError Text := do
  return Label.display (← escape a.name) ++ ": " ++ (← shownType s.types [] a.type)

/-- The modifiers of a function, each with a blank behind it. -/
def modifierText (f : Function ν) : Text :=
  let others := f.modifiers.filter fun m => !Label.isText m "async"
  Text.concat (others.map fun m => Label.display m ++ " ") ++
    if f.isAsync then "async " else ""

/-- The identifiers of the arguments. -/
def argumentNames (f : Function ν) : Except SchemaError (List ν) :=
  f.args.mapM fun a => escape a.name

/-- The arguments of a call by their identifiers, which must be texts. -/
def callArguments (f : Function ν) : Except SchemaError (List Text) := do
  Label.texts (← argumentNames f)

end WasmBridge.Rust
