import Mathlib.Data.List.Infix
import WasmBridge.Bindings.TypeScriptDeclaration
import WasmBridge.Bindings.WasmerRuntime

/-!
# Lines of a file

A file is printed line by line, but who reads it has one text. A line that is printed may hold line
ends of its own, from documentation or from a name, and is then several lines of the file. So lines
are said to stand in a file if, broken at all line ends, they are lines of the file one below the
other. Whatever is printed as part of a file stands in it: a declaration in its file of types, what
a block holds wherever the block stands.
-/

namespace WasmBridge

open Text

/-- The lines of a text. -/
def linesOf (t : Text) : List Text := t.splitOn (.char '\n')

/-- The lines of printed lines. -/
theorem linesOf_join {lines : List Text} (h : lines ≠ []) :
    linesOf (Lines.join lines) = lines.flatMap linesOf := by
  induction lines with
  | nil => exact absurd rfl h
  | cons line rest ih =>
    rw [List.flatMap_cons]
    cases rest with
    | nil =>
      rw [Lines.join, separated, List.intercalate_singleton, List.flatMap_nil, List.append_nil]
    | cons next rest =>
      rw [← ih (List.cons_ne_nil _ _), Lines.join, separated, List.intercalate_cons_cons,
        List.append_assoc]
      exact List.splitOn_append_cons_self ..

/-- What stands before the first line end goes on with the first line of what follows. -/
theorem exists_linesOf_append {s : Text} (hs : .char '\n' ∉ s) (t : Text) :
    ∃ line rest, linesOf t = line :: rest ∧ linesOf (s ++ t) = (s ++ line) :: rest := by
  obtain ⟨line, rest, hline⟩ := List.exists_cons_of_ne_nil (List.splitOn_ne_nil (.char '\n') t)
  refine ⟨line, rest, hline, ?_⟩
  induction s with
  | nil => exact hline
  | cons c s ih =>
    obtain ⟨hc, hs⟩ := List.ne_and_not_mem_of_not_mem_cons hs
    have hrest := ih hs
    rw [linesOf, List.splitOn] at hrest ⊢
    rw [List.cons_append, List.splitOnP_cons_eq_if_modifyHead, if_neg, hrest]
    · rfl
    · exact fun heq => hc (eq_of_beq heq).symm

theorem linesOf_of_not_mem {t : Text} (ht : .char '\n' ∉ t) : linesOf t = [t] := by
  obtain ⟨line, rest, hline, happend⟩ := exists_linesOf_append ht []
  cases hline
  simpa using happend

/-- The lines stand in a file, one below the other. -/
def StandIn (lines : List Text) (file : Text) : Prop :=
  lines.flatMap linesOf <:+: linesOf file

section StandIn

variable {lines part : List Text} {file : Text}

theorem standIn_join (h : part <:+: lines) : StandIn part (Lines.join lines) := by
  by_cases hlines : lines = []
  · -- nothing stands in an empty file, which has an empty line all the same
    rw [hlines, List.infix_nil] at h
    rw [h]
    exact List.nil_infix
  · rw [StandIn, linesOf_join hlines]
    exact h.flatMap linesOf

/-- What stands in a file, part by part stands there. -/
theorem StandIn.of_part (h : StandIn lines file) (hpart : part <:+: lines) : StandIn part file :=
  (hpart.flatMap linesOf).trans h

end StandIn

/-! ## Blocks -/

namespace Lines

theorem infix_nested {part lines : List Text} (h : part <:+: lines) :
    nested part <:+: nested lines :=
  h.map _

theorem nested_append (lines lines' : List Text) :
    nested (lines ++ lines') = nested lines ++ nested lines' := List.map_append

theorem nested_flatMap {α : Type} (items : List α) (lines : α → List Text) :
    nested (items.flatMap lines) = items.flatMap fun a => nested (lines a) := List.map_flatMap

theorem nested_cons {line : Text} (h : line ≠ []) (rest : List Text) :
    nested (line :: rest) = ("    " ++ line) :: nested rest := by
  rw [nested, indented, List.map_cons, if_neg (by rwa [List.isEmpty_iff])]
  rfl

theorem nested_ne_nil {lines : List Text} (h : lines ≠ []) : nested lines ≠ [] :=
  fun hnil => h (List.map_eq_nil_iff.mp hnil)

theorem block_eq (head : Text) (body : List Text) (closing : Text) :
    block head body closing = [head ++ " \x7b"] ++ nested body ++ ["\x7d" ++ closing] := by
  rw [block, group, List.append_assoc]
  rfl

/-- What a block holds is nested in it. -/
theorem infix_block (head : Text) (body : List Text) (closing : Text) :
    nested body <:+: block head body closing :=
  ⟨[head ++ " " ++ "\x7b"], ["\x7d" ++ closing], rfl⟩

end Lines

/-! ## What files hold -/

/-- Declarations are set apart by blank lines. -/
theorem infix_declarations {α : Type} {lines : α → List Text} {decl : α} {decls : List α}
    (h : decl ∈ decls) : lines decl <:+: decls.flatMap fun d => lines d ++ [Lines.blank] := by
  have hown : lines decl <:+: lines decl ++ [Lines.blank] := (List.prefix_append _ _).isInfix
  exact hown.trans (List.infix_of_mem_flatten (List.mem_map_of_mem h))

/-- What opens the declaration of a struct or an enum behind the line of its derives. -/
def Rust.openingOf {ν : Type} [Label ν] (type : TypeDef ν) : Except SchemaError (List Text) :=
  match type with
  | .struct name generics _ _ => do
    return ["pub struct " ++ applied (Label.display name) (← Label.texts generics) ++ " \x7b"]
  | .enum name generics _ options _ => do
    return encodingLines (options.encoding.map Label.display) ++
      ["pub enum " ++ applied (Label.display name) (← Label.texts generics) ++ " \x7b"]
  | _ => .ok []

theorem Rust.standIn_typesFile {decl : Rust.TypeDecl} {decls : List Rust.TypeDecl}
    (h : decl ∈ decls) : StandIn decl.lines (Rust.typesFile decls) :=
  standIn_join ((infix_declarations h).trans (List.suffix_append _ _).isInfix)

theorem TypeScript.standIn_typesFile {decl : TypeScript.TypeDecl}
    {decls : List TypeScript.TypeDecl} (h : decl ∈ decls) :
    StandIn decl.lines (TypeScript.typesFile decls) :=
  standIn_join ((infix_declarations h).trans (List.suffix_append _ _).isInfix)

/-- The methods of a host's exports stand one below the other. -/
theorem WasmerRuntime.standIn_methods (b : Functions) :
    StandIn (b.exports.flatMap fun m => Lines.blank :: Lines.nested m.lines) (functionsFile b) := by
  refine standIn_join ?_
  refine List.infix_append_of_infix_left (List.infix_append_of_infix_left ?_)
  refine List.infix_append_of_infix_left (List.infix_append_of_infix_left ?_)
  refine List.infix_append_of_infix_left (List.infix_append_of_infix_right ?_)
  refine List.IsInfix.trans ?_ (Lines.infix_block ..)
  refine List.IsInfix.trans ?_ (Lines.infix_nested List.infix_append_right)
  rw [Lines.nested_flatMap]
  exact List.infix_rfl

end WasmBridge
