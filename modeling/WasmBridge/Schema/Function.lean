import WasmBridge.Schema.Label

/-!
# Functions

The signatures of functions that cross the boundary, and lists of them in which no two have equal
names.
-/

namespace WasmBridge

open Text

/-- A parameter of a function. -/
structure Argument (ν : Type) where
  name : ν
  type : TypeIdent
  deriving DecidableEq

/-- The signature of a function that crosses the boundary. -/
structure Function (ν : Type) where
  name : ν
  args : List (Argument ν) := []
  returns : Option TypeIdent := none
  isAsync : Bool := false
  doc : List ν := []
  modifiers : List ν := []
  deriving DecidableEq

/-- Functions in the order of their declaration, no two with equal names. -/
structure FunctionList (ν : Type) [Label ν] where
  toList : List (Function ν)
  distinct : toList.Pairwise fun f g => Label.equals f.name g.name = false

namespace FunctionList

variable {ν : Type} [Label ν]

/-- No functions. -/
def empty : FunctionList ν := ⟨[], .nil⟩

/-- The names of the functions. -/
def names (fs : FunctionList ν) : List ν := fs.toList.map (·.name)

/-- Some function has the name. -/
def contains (fs : FunctionList ν) (name : ν) : Bool :=
  fs.toList.any fun f => Label.equals f.name name

/-- The list with a function more; its name must be new. -/
def add (fs : FunctionList ν) (f : Function ν) : Except SchemaError (FunctionList ν) :=
  if h : fs.contains f.name then .error (.duplicateFunction (Label.display f.name))
  else .ok ⟨fs.toList ++ [f], by
    refine List.pairwise_append.2 ⟨fs.distinct, List.pairwise_singleton _ _, ?_⟩
    intro g hg k hk
    obtain rfl := List.mem_singleton.1 hk
    simp only [contains, List.any_eq_true, not_exists, not_and, Bool.not_eq_true] at h
    exact h g hg⟩

/-- The functions of a list, added one after the other. -/
def ofList (functions : List (Function ν)) : Except SchemaError (FunctionList ν) :=
  functions.foldlM add empty

/-- The list by the names of its functions. -/
def describe (fs : FunctionList ν) : Text :=
  "FunctionList(" ++ bracketed "[" "]" (fs.names.map Label.describe) ++ ")"

end FunctionList

end WasmBridge
