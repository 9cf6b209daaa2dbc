import WasmBridge.Text.Blank

/-!
# Lines of source

Files are built from lines. Here are the lines of doc comments, indentation, and the notice that
heads every generated file.
-/

namespace WasmBridge.Lines

open Text

/-- A line with nothing on it. -/
def blank : Text := []

/-- What every generated file begins with. -/
def notice : Text := "// AUTO-GENERATED - DO NOT EDIT"

/-- Doc comment lines behind a mark; an empty line is the mark alone. -/
def marked (mark indent : Text) (doc : List Text) : List Text :=
  doc.map fun line =>
    trimEnd (indent ++ if line.isEmpty then mark else mark ++ " " ++ line)

/-- Doc comment lines of Rust. -/
def rustDoc (doc : List Text) : List Text := marked "///" "" doc

/-- A block comment of TypeScript; without lines there is none. -/
def blockDoc (indent : Text) (doc : List Text) : List Text :=
  if doc.isEmpty then []
  else
    (indent ++ "/**") :: doc.map (fun line => trimEnd (indent ++ " * " ++ line)) ++
      [indent ++ " */"]

/-- Lines moved to the right; empty ones stay empty. -/
def indented (indent : Text) (lines : List Text) : List Text :=
  lines.map fun line => if line.isEmpty then line else indent ++ line

/-- Lines moved to the right by one level. -/
def nested (lines : List Text) : List Text := indented "    " lines

/-- Lines in braces, moved to the right; `closing` follows the closing brace. -/
def group (head : Text) (body : List Text) (closing : Text := "") : List Text :=
  (head ++ "\x7b") :: nested body ++ ["\x7d" ++ closing]

/-- Lines in braces that are set apart from what stands before them. -/
def block (head : Text) (body : List Text) (closing : Text := "") : List Text :=
  group (head ++ " ") body closing

/-- Lines as a text; the last line has no end. -/
def join (lines : List Text) : Text := separated "\n" lines

end WasmBridge.Lines
