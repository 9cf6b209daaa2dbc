import WasmBridge.Text.Blank
import WasmBridge.Text.LineEnd

/-!
# Formatters

Generated files may be piped through external commands. A command formats the files whose names end
in one of its suffixes and leaves the others alone. What commands do is not known here: they are
looked up by name in a toolbox. They take and give characters only, and the NUL character ends an
argument.
-/

namespace WasmBridge

open Text

/-- How a command ends. -/
structure Ending where
  /-- Zero if the command succeeds. -/
  status : Nat
  output : String
  errors : String
  /-- How long the command takes, in milliseconds. -/
  duration : Nat := 0

/-- What a command makes of its arguments and its input. -/
abbrev Tool := (args : List String) → (input : String) → Ending

/-- The commands at hand, by name. -/
abbrev Toolbox := (name : Text) → Option Tool

/-- Why a file cannot be formatted. -/
inductive FormatError where
  /-- The formatter has no command. -/
  | noCommand
  | notFound (command : Text)
  | failed (command file errors : Text)
  | timedOut (command file : Text)
  | nulInArgument
  /-- An argument or the source has no bytes. -/
  | unencodable
  deriving DecidableEq

/-- The wording of the causes that have one. -/
def FormatError.message? : FormatError → Option Text
  | noCommand | unencodable => none
  | nulInArgument => some "embedded null byte"
  | notFound command => some ("Formatter not found: " ++ command)
  | failed command file errors => some (command ++ " failed on " ++ file ++ ": " ++ errors)
  | timedOut command file => some (command ++ " timed out on " ++ file)

/-- A command that formats files. -/
structure Formatter where
  /-- The name of the command and its arguments; `fileMark` in them stands for the file name. -/
  command : List Text
  /-- The endings of the names of files that are formatted. -/
  suffixes : List Text
  /-- How long the command may take, in milliseconds. -/
  timeout : Option Nat := some 60000
  deriving DecidableEq

namespace Formatter

/-- What stands for the name of the file in a command. -/
def fileMark : Text := "\x7bfilename\x7d"

/-- The formatter is meant for a file. -/
def concerns (f : Formatter) (file : Text) : Bool :=
  f.suffixes.any fun suffix => suffix.isSuffixOf file

/-- The command takes longer than it may. -/
def isTooLong (f : Formatter) (e : Ending) : Bool :=
  match f.timeout with
  | some limit => limit < e.duration
  | none => false

/-- A text as an argument of a command. -/
def argument (text : Text) : Except FormatError String :=
  match text.toString? with
  | none => .error .unencodable
  | some s => if text.contains (.char '\x00') then .error .nulInArgument else .ok s

/-- The formatted source of a file. -/
def apply (tools : Toolbox) (f : Formatter) (file source : Text) : Except FormatError Text := do
  if !f.concerns file then return source
  match f.command with
  | [] => throw .noCommand
  | name :: args =>
    match tools name with
    | none => throw (.notFound name)
    | some tool =>
      let name := name.replace fileMark file
      let _ ← argument name
      let args ← args.mapM fun arg => argument (arg.replace fileMark file)
      match source.toString? with
      | none => throw .unencodable
      | some source =>
        let ending := tool args source
        if f.isTooLong ending then throw (.timedOut name file)
        else if ending.status ≠ 0 then
          throw (.failed name file (trim (unifyLineEnds ending.errors)))
        else return unifyLineEnds ending.output

/-- A source formatted by several formatters, one after the other. -/
def applyAll (tools : Toolbox) (formatters : List Formatter) (file source : Text) :
    Except FormatError Text :=
  formatters.foldlM (fun source f => f.apply tools file source) source

/-- The usual formatter of Rust. -/
def rustfmt (edition : Text := "2018") : Formatter where
  command := ["rustfmt", "--edition", edition, "--emit", "stdout"]
  suffixes := [".rs"]

/-- The usual formatter of TypeScript. -/
def prettier : Formatter where
  command := ["prettier", "--stdin-filepath", fileMark]
  suffixes := [".ts"]

end Formatter

end WasmBridge
