import WasmBridge.CommandLine.Run

/-!
# The command line

The workspace is the file system here, and a run ends with the time that it took.
-/

open WasmBridge

/-- The cause of a refusal by the file system. -/
def fileCause : IO.Error → FileCause
  | .noFileOrDirectory .. | .noSuchThing .. => .missing
  | .alreadyExists .. => .alreadyThere
  | .permissionDenied .. => .denied
  | .inappropriateType _ code _ => if code = 21 then .isDirectory else .notDirectory
  | .invalidArgument _ 36 _ => .nameTooLong
  | _ => .failed

/-- An operation of the file system on a path, or why it fails. -/
def attempt {α : Type} (path : Path) (operation : String → IO α) : IO (Except FileError α) := do
  match path.check, path.text.toString? with
  | .error e, _ => return .error e
  | .ok (), none => return .error .unencodable
  | .ok (), some name =>
    try
      return .ok (← operation name)
    catch e =>
      return .error (.refused { cause := fileCause e, path })

instance : Workspace IO where
  readFile path := attempt path fun name => IO.FS.readFile name
  writeFile path text := do
    match text.toString? with
    | some text => attempt path fun name => IO.FS.writeFile name text
    | none =>
      match ← attempt path fun name => IO.FS.writeFile name "" with
      | .ok () => return .error .unencodable
      | .error e => return .error e
  makeDirectory path := attempt path fun name => IO.FS.createDir name
  isDirectory path := do
    match ← attempt path fun name => IO.FS.readFile name with
    | .error (.refused refusal) => return refusal.cause = .isDirectory
    | _ => return false

/-- A time in milliseconds with two decimals. -/
def millisecondsText (nanoseconds : Nat) : Text :=
  let hundredths := (nanoseconds + 5000) / 10000
  let rest := toString (hundredths % 100)
  toString (hundredths / 100) ++ "." ++ (if rest.length < 2 then "0" ++ rest else rest)

/-- A line as it is printed: halves of surrogate pairs by their numbers. -/
def printed (line : Text) : String := (line.escapeHalves.toString?).getD ""

/-- Carries out a command line. -/
def main (words : List String) : IO UInt32 := do
  let start ← IO.monoNanosNow
  let outcome ← (CommandLine.run (words.map Text.ofString) : IO (Except RunError Outcome))
  let finish ← IO.monoNanosNow
  match outcome with
  | .error e =>
    IO.eprintln (printed (e.message?.getD "The document cannot be used."))
    return 1
  | .ok outcome =>
    for line in outcome.err do IO.eprintln (printed line)
    for line in outcome.out ++ outcome.closing (millisecondsText (finish - start)) do
      IO.println (printed line)
    return UInt32.ofNat outcome.exitCode
