import WasmBridge.Room
import WasmBridge.Text.Quoted

/-!
# Type idents

A type is referred to by a name and the types it is applied to. This module holds the idents, their
order, the way they are written and the substitution of generic parameters. Two names are
special: tuples are the applications of `Tuple`, and `()` names the unit.
-/

namespace WasmBridge

open Text

/-- A type name applied to generic arguments. -/
structure TypeIdent where
  name : Text
  args : List TypeIdent := []
  deriving Inhabited

namespace TypeIdent

/-- The name of the unit type. -/
def unitName : Text := "()"

/-- The name that tuples apply to their items. -/
def tupleName : Text := "Tuple"

mutual

/-- Equality of idents is decided by structure. -/
def decEq : (a b : TypeIdent) → Decidable (a = b)
  | ⟨n, as⟩, ⟨m, bs⟩ =>
    if hn : n = m then
      match decEqAll as bs with
      | isTrue ha => isTrue (by rw [hn, ha])
      | isFalse ha => isFalse fun h => ha (TypeIdent.mk.inj h).2
    else isFalse fun h => hn (TypeIdent.mk.inj h).1

/-- Equality of argument lists. -/
def decEqAll : (as bs : List TypeIdent) → Decidable (as = bs)
  | [], [] => isTrue rfl
  | [], _ :: _ => isFalse nofun
  | _ :: _, [] => isFalse nofun
  | a :: as, b :: bs =>
    match decEq a b with
    | isTrue h =>
      match decEqAll as bs with
      | isTrue hs => isTrue (by rw [h, hs])
      | isFalse hs => isFalse fun e => hs (List.cons.inj e).2
    | isFalse h => isFalse fun e => h (List.cons.inj e).1

end

instance : DecidableEq TypeIdent := decEq

mutual

/-- Idents are ordered by name, then by their arguments. -/
def order : (a b : TypeIdent) → Ordering
  | ⟨n, as⟩, ⟨m, bs⟩ => (compare n m).then (orderAll as bs)

/-- Argument lists are ordered item by item; the beginning of a list precedes it. -/
def orderAll : (as bs : List TypeIdent) → Ordering
  | [], [] => .eq
  | [], _ :: _ => .lt
  | _ :: _, [] => .gt
  | a :: as, b :: bs => (order a b).then (orderAll as bs)

end

/-- Idents in their order. -/
def sort (idents : List TypeIdent) : List TypeIdent :=
  idents.mergeSort fun a b => (order a b).isLE

mutual

/-- The room that it takes to find the order of two idents: four calls for a pair of arguments. -/
def orderRoom : (a b : TypeIdent) → Nat
  | ⟨n, as⟩, ⟨m, bs⟩ => if n = m then orderRoomAll as bs else 0

/-- The most room that one of the pairs takes that are looked at to find the order of two argument
lists: those before the first difference, and the one where it lies. -/
def orderRoomAll : (as bs : List TypeIdent) → Nat
  | a :: as, b :: bs =>
    Nat.max (4 + orderRoom a b) (if a = b then orderRoomAll as bs else 0)
  | _, _ => 0

end

/-- Idents in their order, if there is room to find it. Whichever way they are sorted, each one is
compared with the next. -/
def sort? (idents : List TypeIdent) : Option (List TypeIdent) :=
  let sorted := sort idents
  if (sorted.zip (sorted.drop 1)).all fun (a, b) => orderRoom a b ≤ callRoom then some sorted
  else none

mutual

/-- The ident as it is written: `Name`, `Name<A, B>` or `(A, B)`. -/
def text : TypeIdent → Text
  | ⟨name, args⟩ =>
    if name = tupleName then tupled (texts args)
    else if args.isEmpty then name
    else name ++ bracketed "<" ">" (texts args)

/-- The written forms of several idents. -/
def texts : List TypeIdent → List Text
  | [] => []
  | a :: as => text a :: texts as

end

mutual

/-- The room that it takes to write an ident: three calls within the brackets around a single item,
four within all others. -/
def textRoom : TypeIdent → Nat
  | ⟨name, args⟩ =>
    if args.isEmpty then 0
    else if name = tupleName ∧ args.length = 1 then 3 + textRoomAll args
    else 4 + textRoomAll args

/-- The most room that one of several idents takes. -/
def textRoomAll : List TypeIdent → Nat
  | [] => 0
  | a :: as => Nat.max (textRoom a) (textRoomAll as)

end

/-- The ident as it is written, if there is room to write it. -/
def text? (ident : TypeIdent) : Option Text :=
  if ident.textRoom ≤ callRoom then some ident.text else none

mutual

/-- Every parameter name that stands without arguments gives way to what it is bound to. -/
def substitute (bindings : List (Text × TypeIdent)) : TypeIdent → TypeIdent
  | ⟨name, []⟩ => (bindings.lookup name).getD ⟨name, []⟩
  | ⟨name, a :: as⟩ => ⟨name, substitute bindings a :: substituteAll bindings as⟩

/-- Substitution in several idents. -/
def substituteAll (bindings : List (Text × TypeIdent)) : List TypeIdent → List TypeIdent
  | [] => []
  | a :: as => substitute bindings a :: substituteAll bindings as

end

mutual

/-- The names that occur in an ident, at any depth. -/
def names : TypeIdent → List Text
  | ⟨name, args⟩ => name :: namesAll args

/-- The names that occur in several idents. -/
def namesAll : List TypeIdent → List Text
  | [] => []
  | a :: as => names a ++ namesAll as

end

end TypeIdent

end WasmBridge
