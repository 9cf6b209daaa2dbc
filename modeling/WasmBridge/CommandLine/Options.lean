import WasmBridge.Bindings.Target
import WasmBridge.Text.Digit

/-!
# Options of the command line

A word of the command line is an option if it begins with a dash and is not taken for something
else: numbers and words with a blank in them are operands, and so is everything behind two dashes.
Long options may be shortened as long as they stay distinct. A value follows its option as the next
operand, behind an equals sign, or, after a short option, at once. What follows a short option that
takes no value in the same word are further short options.

Words take effect in their order, and a word only if all of it can be read; so help that is asked
for before the first mistake is given. Two dashes as the value of an option leave it without a
value.
-/

namespace WasmBridge

/-- What the command line can ask for. -/
inductive Flag where
  | help
  | outputDirectory
  | target
  | pluginPath
  | runtimePath
  | rustfmt
  | prettier
  | verbose
  deriving DecidableEq

/-- The names of the flags. -/
def Flag.names : List (Text × Flag) := [
  ("-h", help), ("--help", help), ("--output-dir", outputDirectory), ("-o", outputDirectory),
  ("--target", target), ("-t", target), ("--plugin-impl-path", pluginPath),
  ("--runtime-impl-path", runtimePath), ("--rustfmt", rustfmt), ("--prettier", prettier),
  ("--verbose", verbose), ("-v", verbose)]

/-- The flag is followed by a value. -/
def Flag.takesValue : Flag → Bool
  | outputDirectory | target | pluginPath | runtimePath => true
  | _ => false

/-- What the command line asks for. Options that are given without a value have none. -/
structure Options where
  /-- The file of the interface document. -/
  document : Text
  outputDirectory : Option Text := some "generated"
  /-- The targets in the order in which they are named; without any, all are meant. -/
  targets : List (Option Target) := []
  pluginPath : Option Text := some "crate"
  runtimePath : Option Text := some "super"
  rustfmt : Bool := false
  prettier : Bool := false
  verbose : Bool := false
  deriving DecidableEq

/-- The value of an option as it is shown. -/
def Options.shown (value : Option Text) : Text := value.getD "[]"

/-- Why the command line is not carried out. -/
inductive Refusal where
  /-- The command line is no proper one. -/
  | usage
  /-- Help is given instead. -/
  | help
  deriving DecidableEq

namespace CommandLine

/-- What a word of the command line is. -/
inductive Word where
  | operand (text : Text)
  /-- A long option, with a value if the word holds one. -/
  | long (flag : Flag) (value : Option Text)
  /-- A short option, with what follows it in the word. -/
  | short (flag : Flag) (rest : Option Text)
  | unknown
  /-- Two dashes, behind which there are only operands. -/
  | separator

/-- A text before its first equals sign, and behind it if it has one. -/
def splitEquals (s : Text) : Text × Option Text :=
  let name := s.takeWhile (· ≠ .char '=')
  match s.drop name.length with
  | [] => (s, none)
  | _ :: value => (name, some value)

/-- The long options that a word may be short for. -/
def expansions (word : Text) : List Word :=
  let (start, value) := splitEquals word
  (Flag.names.filter fun (name, _) => start.isPrefixOf name).map fun (_, flag) => .long flag value

/-- The flag with a short name. -/
def shortFlag? (c : Code) : Option Flag := Flag.names.lookup [.char '-', c]

/-- A dash and digits, of which the last ones may stand behind a point; a line end may follow. -/
def isNegativeNumber (word : Text) : Bool :=
  let isDigits (s : Text) : Bool := !s.isEmpty && s.all Text.isDecimal
  let line := if word.getLast? = some (.char '\n') then word.dropLast else word
  match line with
  | .char '-' :: rest =>
    isDigits rest ||
      match rest.dropWhile Text.isDecimal with
      | .char '.' :: behind => isDigits behind
      | _ => false
  | _ => false

/-- A word that begins with a dash but names no option. -/
def otherWord (word : Text) : Word :=
  if isNegativeNumber word || word.contains (.char ' ') then .operand word else .unknown

/-- What stands behind a short option in its word, where an equals sign may set it apart. -/
def behindShort : Text → Option Text
  | [] => none
  | .char '=' :: rest => some rest
  | rest => some rest

/-- What a word that begins with a dash is; nothing if it is short for several options. -/
def dashedWord (word : Text) : Option Word :=
  match word with
  | [] | [_] => some (.operand word)
  | _ :: .char '-' :: _ =>
    match expansions word with
    | [] => some (otherWord word)
    | [option] => some option
    | _ => none
  | _ :: c :: rest =>
    match shortFlag? c with
    | some flag => some (.short flag (behindShort rest))
    | none => some (otherWord word)

/-- What the words of a command line are. -/
def classify : List Text → Option (List Word)
  | [] => some []
  | word :: rest =>
    if word = "--" then some (.separator :: rest.map .operand)
    else if word.head? ≠ some (.char '-') then do return .operand word :: (← classify rest)
    else do return (← dashedWord word) :: (← classify rest)

/-- Flags in order, with their values as far as the word holds them. Only the last one may lack
a value that it takes. -/
abbrev Request := List (Flag × Option Text)

/-- A short option and what follows it in its word: its value, or else further short options. -/
def readRow (flag : Flag) : Text → Except Refusal Request
  | [] => if flag.takesValue then .ok [(flag, some [])] else .error .usage
  | c :: rest =>
    if flag.takesValue then .ok [(flag, some (c :: rest))]
    else
      match shortFlag? c, rest with
      | none, _ => .error .usage
      | some next, [] => .ok [(flag, none), (next, none)]
      | some next, d :: more => do return (flag, none) :: (← readRow next (d :: more))

/-- The flags that a word asks for; words that ask for none are no options. -/
def Word.request : Word → Except Refusal Request
  | .long flag value =>
    if value.isSome && !flag.takesValue then .error .usage else .ok [(flag, value)]
  | .short flag none => .ok [(flag, none)]
  | .short flag (some rest) => readRow flag rest
  | _ => .ok []

/-- What has been read of a command line. -/
structure State where
  options : Options := { document := [] }
  /-- The document is named. -/
  found : Bool := false
  /-- Some words have no use. -/
  extra : Bool := false

/-- The value that is meant by a text. -/
def optionValue (text : Text) : Option Text := if text = "--" then none else some text

/-- The target that is meant by a value. -/
def targetValue (value : Option Text) : Except Refusal (Option Target) :=
  match value with
  | none => .ok none
  | some name =>
    match Target.ofName? name with
    | some target => .ok (some target)
    | none => .error .usage

/-- The effect of a flag with its value. -/
def applyFlag (options : Options) (flag : Flag) (value : Text) : Except Refusal Options := do
  let value := optionValue value
  match flag with
  | .help => throw .help
  | .outputDirectory => return { options with outputDirectory := value }
  | .target => return { options with targets := options.targets ++ [← targetValue value] }
  | .pluginPath => return { options with pluginPath := value }
  | .runtimePath => return { options with runtimePath := value }
  | .rustfmt => return { options with rustfmt := true }
  | .prettier => return { options with prettier := true }
  | .verbose => return { options with verbose := true }

/-- The flags with all their values; the value of the last may be an operand that follows. The
number is that of the words that were used. -/
def withValues (request : Request) (following : List Word) :
    Except Refusal (List (Flag × Text) × Nat) := do
  match request.find? fun (flag, value) => flag.takesValue && value.isNone with
  | none => return (request.map fun (flag, value) => (flag, value.getD []), 0)
  | some _ =>
    match following with
    | .operand text :: _ => return (request.map fun (flag, value) => (flag, value.getD text), 1)
    | _ => throw .usage

/-- Carries out what a word asks for. The number is that of the words behind it that were used. -/
def State.apply (state : State) (request : Request) (following : List Word) :
    Except Refusal (State × Nat) := do
  let (flags, used) ← withValues request following
  let options ← flags.foldlM (fun options (flag, value) => applyFlag options flag value)
    state.options
  return ({ state with options }, used)

/-- Reads words. `named` says that the document was the word before. -/
def readWords (state : State) (named : Bool) : List Word → Except Refusal State
  | [] => .ok state
  | .operand text :: rest =>
    if state.found then readWords { state with extra := true } false rest
    else
      readWords { state with options := { state.options with document := text }, found := true }
        true rest
  | .separator :: rest =>
    readWords { state with extra := state.extra || (state.found && !named) } false rest
  | .unknown :: rest => readWords { state with extra := true } false rest
  | word :: rest => do
    let request ← word.request
    let (state, used) ← state.apply request rest
    readWords state false (rest.drop used)
  termination_by words => words.length
  decreasing_by
    all_goals simp only [List.length_cons, List.length_drop]; omega

/-- The options of a command line. -/
def parse (words : List Text) : Except Refusal Options :=
  match classify words with
  | none => .error .usage
  | some words => do
    let state ← readWords {} false words
    if state.found && !state.extra then return state.options else throw .usage

end CommandLine

end WasmBridge
