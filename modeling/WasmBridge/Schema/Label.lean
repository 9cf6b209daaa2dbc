import WasmBridge.RunSort
import WasmBridge.Schema.Error
import WasmBridge.Value.Describe

/-!
# Labels

What declared things go by: the names of types, members and functions, the lines of their
documentation. A schema that is put together in a program has texts for labels. A document may have
any value where a label belongs, and its schema keeps that value: it is shown as the value is, and
is an error only where nothing but a text will do.
-/

namespace WasmBridge

open Text

/-- Labels of the type `ν`. -/
class Label (ν : Type) where
  /-- A text as a label. -/
  ofText : Text → ν
  /-- The text that a label is. -/
  text? : ν → Option Text
  /-- A label as it stands in running text. -/
  display : ν → Text
  /-- A label as messages show it. -/
  describe : ν → Text
  /-- A label is there, and neither empty nor zero. -/
  isGiven : ν → Bool
  /-- A label can be looked up. -/
  isKey : ν → Bool
  /-- Two labels are found under each other. -/
  same : ν → ν → Bool
  /-- Two labels are equal. -/
  equals : ν → ν → Bool
  /-- The order of two labels, if they have one. -/
  order? : ν → ν → Option Ordering
  /-- A label has a place among those that it has an order with. -/
  isPlaced : ν → Bool

/-- Texts are labels. -/
instance : Label Text where
  ofText t := t
  text? t := some t
  display t := t
  describe t := quote t
  isGiven t := !t.isEmpty
  isKey _ := true
  same s t := s == t
  equals s t := s == t
  order? s t := some (compare s t)
  isPlaced _ := true

/-- Values are labels. A NaN is found under itself though it is not equal to itself, and has no
place among numbers. -/
instance : Label Value where
  ofText t := .str t
  text?
    | .str t => some t
    | _ => none
  display := Value.display
  describe := Value.describe
  isGiven := Value.isSet
  isKey := Value.isKey
  same := Value.equalsWith true
  equals v w := !(v.isNaN && w.isNaN) && Value.equalsWith true v w
  order? := Value.order?
  isPlaced v := !v.isNaN

namespace Label

variable {ν : Type} [Label ν]

/-- A label is a given text. -/
def isText (label : ν) (t : Text) : Bool := text? label == some t

/-- A label as a line of its own: an empty one if nothing is given. -/
def line (label : ν) : Text := if isGiven label then display label else []

/-- A label where only a text can stand. -/
def text (label : ν) : Except SchemaError Text :=
  match text? label with
  | some t => .ok t
  | none => .error (.label .notText)

/-- Labels where only texts can stand. -/
def texts (labels : List ν) : Except SchemaError (List Text) := labels.mapM text

/-- The label at a place in a list, as it stands in running text. -/
def displayAt (labels : List ν) (place : Nat) : Except SchemaError Text :=
  match labels[place]? with
  | some label => .ok (display label)
  | none => .error .missingArgument

/-- Every two of some labels have an order. -/
def ordered : List ν → Bool
  | [] => true
  | l :: ls => ls.all (fun m => (order? l m).isSome) && ordered ls

/-- Things in the order of their labels, those with one label as they stand. Where all labels have
places it does not matter how they are sorted. -/
def sortBy {α : Type} (label : α → ν) (things : List α) : List α :=
  let order (a b : α) : Ordering := (order? (label a) (label b)).getD .eq
  if things.all fun a => isPlaced (label a) then things.mergeSort fun a b => (order a b).isLE
  else RunSort.sort (fun a b => (order a b).isLT) things

/-! ## Labels that are texts -/

theorem line_text (t : Text) : line t = t := by
  cases t <;> rfl

theorem map_line (texts : List Text) : texts.map line = texts := by
  rw [List.map_congr_left fun t _ => line_text t, List.map_id']

theorem texts_ok (labels : List Text) : texts labels = .ok labels :=
  List.mapM_pure.trans (congrArg Except.ok (List.map_id labels))

end Label

end WasmBridge
