import WasmBridge.Bindings.Symbols
import WasmBridge.Bindings.TypeScriptDeclaration
import WasmBridge.Memory.AsyncRecord

/-!
# Bindings for hosts in TypeScript

A host gets the declared types and a function that starts a guest. The guest is handed a callback
for each import, and the host an object with a function for each export. An export whose arguments
and result all cross the boundary as themselves is handed out as it is.
-/

namespace WasmBridge.TypeScriptRuntime

open TypeScript

variable {ν : Type} [Label ν]

/-- The name of this target. -/
def target : Text := "ts-runtime"

/-- The name of a function or an argument as user code sees it. -/
def camel (name : ν) : Except SchemaError Text := Casing.camelCase.format <$> Label.text name

/-- The name of the pointer to an argument. -/
def pointerName (a : Argument ν) : Text := Label.display a.name ++ "_ptr"

/-- An argument with its type in full. -/
def fullParam (s : BindingSource ν) (a : Argument ν) : Except SchemaError Text := do
  return (← camel a.name) ++ ": " ++ (← shownType s.types [] a.type)

/-- A function as a property of its direction. -/
structure Declaration where
  name : Text
  params : List Text
  result : Text

/-- A declaration behind its name, which `mark` follows. -/
def Declaration.text (mark : Text) (d : Declaration) : Text :=
  d.name ++ mark ++ ": " ++ Text.bracketed "(" ")" d.params ++ " => " ++ d.result

/-- The declaration of a function. -/
def declaration (s : BindingSource ν) (f : Function ν) : Except SchemaError Declaration := do
  let params ← f.args.mapM (fullParam s)
  let result ← match f.returns with
    | some type => shownType s.types [] type
    | none => pure "void"
  return {
    name := ← camel f.name, params
    result := if f.isAsync then "Promise<" ++ result ++ ">" else result }

/-- A parameter of a callback. -/
structure CallbackParam where
  name : Text
  type : Crossing Primitive

/-- The callback of an import: the symbol that the guest calls, and its code. -/
structure ImportCallback where
  symbol : Text
  params : List CallbackParam
  result : Option (Crossing Primitive)
  body : List Text

/-- The lines of a callback. -/
def ImportCallback.lines (c : ImportCallback) : List Text :=
  let params := c.params.map fun p => p.name ++ ": " ++ crossingText p.type
  let result := match c.result with
    | some type => ": " ++ crossingText type
    | none => ""
  Lines.block (c.symbol ++ ": " ++ Text.bracketed "(" ")" params ++ result ++ " =>") c.body ","

/-- A parameter of a callback, and the line that reads it if it is serialized. -/
def callbackParam (s : BindingSource ν) (a : Argument ν) :
    Except SchemaError (CallbackParam × List Text) := do
  let name ← camel a.name
  if s.types.isPrimitive a.type then
    return ({ name, type := ← crossingOf s.types a.type }, [])
  else
    let type ← shownType s.types [] a.type
    let line := "const " ++ name ++ " = parseObject<" ++ type ++ ">(" ++ pointerName a ++ ");"
    return ({ name := pointerName a, type := .pointer }, [line])

/-- What a callback does around the call of an asynchronous host function. -/
def asyncCallback (name call : Text) : List Text :=
  Text.ofStrings ["const _async_result_ptr = createAsyncValue();"] ++ [call] ++
  Lines.nested (
    Lines.block ".then((result) =>" [
      "assignAsyncValue(_async_result_ptr, result);",
      "resolveFuture(_async_result_ptr);"] ")" ++
    Lines.block ".catch((error) =>" [
      "console.error(",
      "    'Unrecoverable exception trying to call async host function \"" ++ name ++ "\"',",
      "    error",
      ");"] ");") ++
  Text.ofStrings ["return _async_result_ptr;"]

/-- The callback of an import. -/
def importCallback (s : BindingSource ν) (f : Function ν) : Except SchemaError ImportCallback := do
  let params ← f.args.mapM (callbackParam s)
  let names ← f.args.mapM fun a => camel a.name
  let call := "importFunctions." ++ (← camel f.name) ++ Text.bracketed "(" ")" names
  let parse := params.flatMap (·.2)
  let made (result : Option (Crossing Primitive)) (body : List Text) : ImportCallback :=
    { symbol := Symbols.function (Label.display f.name), params := params.map (·.1), result
      body := parse ++ body }
  if f.isAsync then return made (some .pointer) (asyncCallback (Label.display f.name) call)
  else
    match ← s.result? f with
    | none => return made none [call ++ ";"]
    | some type =>
      let crossing ← crossingOf s.types type
      return made (some crossing) [
        if s.types.isPrimitive type then "return " ++ call ++ ";"
        else "return serializeObject(" ++ call ++ ");"]

/-- What a function does with the result of an export. -/
inductive ExportResult where
  | none
  | value
  /-- The result is serialized. -/
  | parsed (type : Text)
  /-- The result is promised and serialized. -/
  | promised (type : Text)

/-- A function that calls an export of the guest. -/
structure ExportWrapper where
  params : List Text
  /-- The arguments of the call by their names at the boundary. -/
  arguments : List Text
  /-- The lines that serialize arguments. -/
  conversions : List Text
  result : ExportResult

/-- An export as user code sees it. -/
structure ExportEntry where
  name : Text
  symbol : Text
  /-- The function around the export; without one the export is handed out as it is. -/
  wrapper : Option ExportWrapper

/-- The line that calls an export. -/
def ExportWrapper.call (w : ExportWrapper) : Text :=
  let call := "export_fn" ++ Text.bracketed "(" ")" w.arguments
  match w.result with
  | .none => call ++ ";"
  | .value => "return " ++ call ++ ";"
  | .parsed type => "return parseObject<" ++ type ++ ">(" ++ call ++ ");"
  | .promised type => "return promiseFromPtr<" ++ type ++ ">(" ++ call ++ ");"

/-- The lines of an export. -/
def ExportEntry.lines (e : ExportEntry) : List Text :=
  match e.wrapper with
  | none => [e.name ++ ": instance.exports." ++ e.symbol ++ " as any,"]
  | some w =>
    Lines.block (e.name ++ ": (() =>") ([
      "const export_fn = instance.exports." ++ e.symbol ++ " as any;",
      "if (!export_fn) return;",
      ""] ++
      Lines.block ("return " ++ Text.bracketed "(" ")" w.params ++ " =>")
        (w.conversions ++ [w.call]) ";") ")(),"

/-- The function around an export whose result, if it has one, is of type `result`. -/
def exportWrapper (s : BindingSource ν) (f : Function ν) (result : Option TypeIdent) :
    Except SchemaError ExportWrapper := do
  let params ← f.args.mapM (fullParam s)
  let type ← match result with
    | some type => shownType s.types [] type
    | none => pure "void"
  let isPrimitive (a : Argument ν) : Bool := s.types.isPrimitive a.type
  return {
    params
    arguments := ← f.args.mapM fun a => do
      if isPrimitive a then camel a.name else return pointerName a
    conversions := ← (f.args.filter (!isPrimitive ·)).mapM fun a => do
      return "const " ++ pointerName a ++ " = serializeObject(" ++ (← camel a.name) ++ ");"
    result :=
      if f.isAsync then .promised type
      else
        match result with
        | none => .none
        | some ident => if s.types.isPrimitive ident then .value else .parsed type }

/-- An export as user code sees it. -/
def exportEntry (s : BindingSource ν) (f : Function ν) : Except SchemaError ExportEntry := do
  let plainArguments := f.args.all fun a => s.types.isPrimitive a.type
  let name ← camel f.name
  let made (wrapper : Option ExportWrapper) : ExportEntry :=
    { name, symbol := Symbols.function (Label.display f.name), wrapper }
  if plainArguments && !f.isAsync then
    match ← s.result? f with
    | none => return made none
    | some type =>
      if s.types.isPrimitive type then return made none
      else return made (some (← exportWrapper s f (some type)))
  else return made (some (← exportWrapper s f (← s.result? f)))

/-- The functions of a host's bindings. -/
structure Functions where
  importDecls : List Declaration
  exportDecls : List Declaration
  imports : List ImportCallback
  exports : List ExportEntry

/-- The functions of a host's bindings. -/
def functions (s : BindingSource ν) : Except SchemaError Functions := do
  return {
    importDecls := ← s.imports.toList.mapM (declaration s)
    exportDecls := ← s.exports.toList.mapM (declaration s)
    imports := ← s.imports.toList.mapM (importCallback s)
    exports := ← s.exports.toList.mapM (exportEntry s) }

/-- The parts of a host's bindings. -/
structure Bindings where
  types : List TypeDecl
  functions : Functions
  /-- The module that serializes values. -/
  messagePackModule : Text

/-- The declared types, provided that all names stay apart. -/
def types (s : BindingSource ν) : Except SchemaError (List TypeDecl) := do
  s.checkNames target
  typeDecls target s

/-- The bindings of a host. -/
def bindings (s : BindingSource ν) : Except SchemaError Bindings := do
  return {
    types := ← types s
    functions := ← functions s
    messagePackModule := s.settings.messagePackModule }

/-- The error that a runtime cannot recover from. -/
def errorLines : List Text :=
  Lines.blockDoc "" [
    "Represents an unrecoverable error in the FP runtime.",
    "",
    "After this, your only recourse is to create a new runtime, probably with a different WASM plugin."] ++
  Lines.block "export class FPRuntimeError extends Error" (
    Lines.block "constructor(message: string)" ["super(message);"])

/-- The statement that gives up. -/
def throwRuntimeError (message : Text) : Text := "throw new FPRuntimeError(" ++ message ++ ");"

/-- The functions that values and asynchronous results are passed with. -/
def passingLines : List Text :=
  Text.ofStrings ["const promises = new Map<FatPtr, (result: unknown) => void>();", ""] ++
  Lines.block "function assignAsyncValue<T>(fatPtr: FatPtr, result: T)" (
    Text.ofStrings [
      "const [ptr, len] = fromFatPtr(fatPtr);",
      "const buffer = new Uint32Array(memory.buffer, ptr, len / 4);"] ++
    Lines.block "if (buffer[0] !== 0)"
      [throwRuntimeError "\"Tried to assign async value that was already assigned\""] ++
    Text.ofStrings [
      "const [resultPtr, resultLen] = fromFatPtr(serializeObject(result));",
      "buffer[1] = resultPtr;",
      "buffer[2] = resultLen;",
      "buffer[0] = 1; // Set status to ready."]) ++
  [Lines.blank] ++
  Lines.block "function createAsyncValue(): FatPtr" [
    "const len = " ++ toString recordSize ++ "; // status, ptr, len",
    "const fatPtr = malloc(len);",
    "const [ptr] = fromFatPtr(fatPtr);",
    "const buffer = new Uint8Array(memory.buffer, ptr, len);",
    "buffer.fill(0);",
    "return fatPtr;"] ++
  [Lines.blank] ++
  Lines.block "function parseObject<T>(fatPtr: FatPtr): T" [
    "const [ptr, len] = fromFatPtr(fatPtr);",
    "const buffer = new Uint8Array(memory.buffer, ptr, len);",
    "const object = decode(buffer) as unknown as T;",
    "free(fatPtr);",
    "return object;"] ++
  [Lines.blank] ++
  Lines.block "function promiseFromPtr<T>(ptr: FatPtr): Promise<T>" (
    Lines.block "return new Promise<T>((resolve) =>" [
      "promises.set(ptr, resolve as (result: unknown) => void);"] ");") ++
  [Lines.blank] ++
  Lines.block "function resolvePromise(ptr: FatPtr)" (
    Text.ofStrings ["const resolve = promises.get(ptr);"] ++
    Lines.block "if (!resolve)" [throwRuntimeError "\"Tried to resolve unknown promise\""] ++
    Text.ofStrings [
      "const [asyncPtr, asyncLen] = fromFatPtr(ptr);",
      "const buffer = new Uint32Array(memory.buffer, asyncPtr, asyncLen / 4);"] ++
    Lines.block "switch (buffer[0])" [
      "case 0:",
      "    " ++ throwRuntimeError "\"Tried to resolve promise that is not ready\"",
      "case 1:",
      "    promises.delete(ptr);",
      "    resolve(parseObject(toFatPtr(buffer[1]!, buffer[2]!)));",
      "    free(ptr);",
      "    break;",
      "default:",
      "    " ++ throwRuntimeError "\"Unexpected status: \" + buffer[0]"]) ++
  [Lines.blank] ++
  Lines.block "function serializeObject<T>(object: T): FatPtr" [
    "const serialized = encode(object);",
    "const fatPtr = malloc(serialized.length);",
    "const [ptr, len] = fromFatPtr(fatPtr);",
    "const buffer = new Uint8Array(memory.buffer, ptr, len);",
    "buffer.set(serialized);",
    "return fatPtr;"] ++
  [Lines.blank]

/-- The symbols that a guest must have. -/
def symbolLines : List Text :=
  Lines.block "const getExport = <T>(name: string): T =>" (
    Text.ofStrings ["const exp = instance.exports[name];"] ++
    Lines.block "if (!exp)" [
      throwRuntimeError "`Plugin did not export expected symbol: \"$\x7bname\x7d\"`"] ++
    Text.ofStrings ["return exp as unknown as T;"]) ";" ++
  [Lines.blank] ++
  ["const memory = getExport<WebAssembly.Memory>(\"" ++ Symbols.memory ++ "\");",
   "const malloc = getExport<(len: number) => FatPtr>(\"" ++ Symbols.malloc ++ "\");",
   "const free = getExport<(ptr: FatPtr) => void>(\"" ++ Symbols.free ++ "\");",
   "const resolveFuture = getExport<(ptr: FatPtr) => void>(\"" ++ Symbols.guestResolve ++ "\");"]

/-- The function that starts a guest. -/
def startLines (fs : Functions) : List Text :=
  Lines.blockDoc "" [
    "Creates a runtime for executing the given plugin.",
    "",
    "@param plugin The raw WASM plugin.",
    "@param importFunctions The host functions that may be imported by the plugin.",
    "@returns The functions that may be exported by the plugin."] ++
  Text.ofStrings [
    "export async function createRuntime(",
    "    plugin: ArrayBuffer,",
    "    importFunctions: Imports"] ++
  Lines.block "): Promise<Exports>" (
    passingLines ++
    Lines.block "const \x7b instance \x7d = await WebAssembly.instantiate(plugin," (
      Lines.block (Symbols.importModule ++ ":") (
        (Symbols.hostResolve ++ ": resolvePromise,") :: fs.imports.flatMap (·.lines)) ",") ");" ++
    [Lines.blank] ++ symbolLines ++ [Lines.blank] ++
    Lines.block "return" (fs.exports.flatMap (·.lines)) ";")

/-- The functions that take fat pointers apart and put them together. -/
def pointerLines : List Text :=
  Lines.block "function fromFatPtr(fatPtr: FatPtr): [ptr: number, len: number]" [
    "return [",
    "    Number.parseInt((fatPtr >> 32n).toString()),",
    "    Number.parseInt((fatPtr & 0xffff_ffffn).toString()),",
    "];"] ++
  [Lines.blank] ++
  Lines.block "function toFatPtr(ptr: number, len: number): FatPtr" [
    "return (BigInt(ptr) << 32n) | BigInt(len);"] ++
  [Lines.blank]

/-- The types that the file of functions uses. -/
def usedTypeLines (names : List Text) : List Text :=
  if names.isEmpty then []
  else Lines.block "import type" (names.map (· ++ ",")) " from \"./types\";" ++ [Lines.blank]

/-- The declarations of one direction. -/
def directionLines (direction mark : Text) (decls : List Declaration) : List Text :=
  Lines.block ("export type " ++ direction ++ " =") (decls.map fun d => d.text mark ++ ";") ";" ++
  [Lines.blank]

/-- The file of functions. A guest may leave out exports, but the host must provide all imports. -/
def functionsFile (b : Bindings) : Text :=
  Lines.join (
    [Lines.notice,
     "import \x7b encode, decode \x7d from \"" ++ b.messagePackModule ++ "\";",
     ""] ++
    usedTypeLines (b.types.map (·.name)) ++
    Text.ofStrings ["type FatPtr = bigint;", ""] ++
    directionLines "Imports" "" b.functions.importDecls ++
    directionLines "Exports" "?" b.functions.exportDecls ++
    errorLines ++ [Lines.blank] ++ startLines b.functions ++ [Lines.blank] ++ pointerLines)

/-- The files of a host's bindings. -/
def Bindings.files (b : Bindings) : List (Text × Text) := [
  ("types.ts", typesFile b.types),
  ("index.ts", functionsFile b)]

end WasmBridge.TypeScriptRuntime
