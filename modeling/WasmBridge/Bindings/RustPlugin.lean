import WasmBridge.Bindings.RustCode
import WasmBridge.Bindings.RustDeclaration
import WasmBridge.Memory.AsyncRecord

/-!
# Bindings for guests in Rust

A guest gets the declared types, a function for each import that calls the host, and a symbol for
each export that calls the guest's own function. An asynchronous export returns at once with a
pointer to its record; a task awaits the result, fills the record and tells the host.
-/

namespace WasmBridge.RustPlugin

open Rust

variable {ν : Type} [Label ν]

/-- The name of this target. -/
def target : Text := "rust-plugin"

/-- A function that calls a host function, as user code sees it. -/
def importHead (s : BindingSource ν) (f : Function ν) : Except SchemaError Text := do
  let params ← f.args.mapM (fullParam s)
  let result ← match ← s.result? f with
    | some type => some <$> shownType s.types [] type
    | none => pure none
  let name ← escape f.name
  return "pub " ++ modifierText f ++ "fn " ++ Label.display name ++
    Text.bracketed "(" ")" params ++ arrow result

/-- An argument on its way to the host: serialized, unless it is primitive. -/
def exportArgument (s : BindingSource ν) (a : Argument ν) :
    Except SchemaError (List Statement × ν) := do
  let name ← escape a.name
  let shown := Label.display name
  if s.types.isPrimitive a.type then return ([], Label.ofText (shown ++ ".to_abi()"))
  else return ([.convert shown (" = export_value_to_host(&" ++ shown ++ ");")], name)

/-- What is done with the result of a host function. -/
def importCall (s : BindingSource ν) (f : Function ν) (result : Option TypeIdent) (call : Text) :
    List Statement :=
  if f.isAsync then [
    .call (some "ret") call,
    .bind "result_ptr" " = HostFuture::new(ret).await;" [],
    .line (if result.isSome then "import_value_from_host(result_ptr)"
      else "import_value_from_host::<()>(result_ptr);")]
  else
    match result with
    | none => [.call none call]
    | some type => [
      .call (some "ret") call,
      .line (if s.types.isPrimitive type then "WasmAbi::from_abi(ret)"
        else "import_value_from_host(ret)")]

/-- The function that calls a host function. -/
def importWrapper (s : BindingSource ν) (f : Function ν) : Except SchemaError FunctionCode := do
  let head ← importHead s f
  let arguments ← f.args.mapM (exportArgument s)
  let passed ← Label.texts (arguments.map (·.2))
  let call := Symbols.function (Label.display f.name) ++ Text.bracketed "(" ")" passed ++ ";"
  let result ← s.result? f
  return {
    above := Lines.rustDoc (f.doc.map Label.line)
    head
    params := (← argumentNames f).map Label.display
    body := arguments.flatMap (·.1) ++ [.block "unsafe" (importCall s f result call) ""] }

/-- An argument that has come from the host. -/
def importArgument (s : BindingSource ν) (a : Argument ν) : Except SchemaError Statement := do
  let type ← shownType s.types [] a.type
  let name := Label.display (← escape a.name)
  if s.types.isPrimitive a.type then
    return .convert name (": " ++ type ++ " = WasmAbi::from_abi(" ++ name ++ ");")
  else
    return .convert name
      (" = unsafe \x7b import_value_from_host::<" ++ type ++ ">(" ++ name ++ ") \x7d;")

/-- What an asynchronous export does around the call of the guest's function. The status is written
last, and then the host is told once. -/
def asyncBody (call : Text) : List Statement := [
  .bind "len" (" = " ++ toString recordSize ++ ";") [],
  .bind "ptr" " = malloc(len);" [],
  .bind "fat_ptr" " = to_fat_ptr(ptr, len);" [],
  .bind "ptr" " = ptr as *mut AsyncValue;" [],
  .line "unsafe \x7b ptr.write(AsyncValue::new()) \x7d;",
  .block "Task::spawn(Box::pin(async move" [
    .call (some "ret") (call ++ ".await;"),
    .block "unsafe" [
      .bind "(result_ptr, result_len)" " = from_fat_ptr(export_value_to_host(&ret));" [],
      .line "(*ptr).ptr = result_ptr as u32;",
      .line "(*ptr).len = result_len;",
      .line "(*ptr).status = 1;",
      .line (Symbols.hostResolve ++ "(fat_ptr);")] ""] "));",
  .line "fat_ptr"]

/-- What is done around the call of the guest's function. -/
def exportCall (s : BindingSource ν) (f : Function ν) (result : Option TypeIdent) (call : Text) :
    List Statement :=
  if f.isAsync then asyncBody call
  else
    match result with
    | none => [.call none (call ++ ";")]
    | some type => [
      .call (some "ret") (call ++ ";"),
      .line (if s.types.isPrimitive type then "ret.to_abi()" else "export_value_to_host(&ret)")]

/-- The symbol that the host calls, with its code. -/
structure ExportWrapper where
  signature : BoundarySignature
  body : List Statement

/-- The code of the symbol. -/
def ExportWrapper.code (w : ExportWrapper) : FunctionCode where
  above := ["#[doc(hidden)]", "#[no_mangle]"]
  head := "pub extern \"C\" fn " ++ w.signature.text
  params := w.signature.params.map (·.name)
  body := w.body

/-- The symbol that calls a function of the guest. -/
def exportWrapper (s : BindingSource ν) (f : Function ν) : Except SchemaError ExportWrapper := do
  let signature ← boundarySignature s f
  let conversions ← f.args.mapM (importArgument s)
  let names ← callArguments f
  let name ← escape f.name
  let call := s.settings.pluginPath ++ "::" ++ Label.display name ++ Text.bracketed "(" ")" names
  let result ← s.result? f
  return { signature, body := conversions ++ exportCall s f result call }

/-- The functions of a guest's bindings. -/
structure Functions where
  /-- The host's functions as they are declared. -/
  externs : List BoundarySignature
  imports : List FunctionCode
  exports : List ExportWrapper

/-- The functions of a guest's bindings. -/
def functions (s : BindingSource ν) : Except SchemaError Functions := do
  return {
    externs := ← s.imports.toList.mapM (boundarySignature s)
    imports := ← s.imports.toList.mapM (importWrapper s)
    exports := ← s.exports.toList.mapM (exportWrapper s) }

/-- The declarations of the host's functions. -/
def externLines (externs : List BoundarySignature) : List Text :=
  ("#[link(wasm_import_module = " ++ quoted Symbols.importModule ++ ")]") ::
    Lines.block "extern \"C\"" (
      ("fn " ++ Symbols.hostResolve ++ "(async_value_ptr: FatPtr);") ::
        externs.map fun e => "fn " ++ e.text ++ ";")

/-- The file of functions. -/
def functionsFile (fs : Functions) : Text :=
  Lines.join (
    ([Lines.notice, "use super::types::*;"] : List Text) ++
    Lines.group "use fp_bindgen_support::" (
      (["common::\x7babi::WasmAbi, mem::FatPtr\x7d,"] : List Text) ++
      Lines.group "guest::" [
        "r#async::\x7btask::Task, AsyncValue, HostFuture\x7d,",
        "io::\x7bexport_value_to_host, from_fat_ptr, import_value_from_host, malloc, to_fat_ptr\x7d,"]
        ",") ";" ++
    [Lines.blank] ++ externLines fs.externs ++ [Lines.blank] ++
    fs.imports.flatMap (fun c => c.lines ++ [Lines.blank]) ++
    fs.exports.flatMap fun w => w.code.lines ++ [Lines.blank])

/-- The file that the guest's code refers to. -/
def moduleFile : Text :=
  Lines.join [
    Lines.notice,
    "#![allow(clippy::all)]",
    "mod functions;",
    "mod types;",
    "",
    "pub use functions::*;",
    "pub use types::*;",
    "",
    "// Symbols the host expects every plugin to export.",
    "pub use fp_bindgen_support::guest::io::\x7b" ++ Symbols.malloc ++ ", " ++ Symbols.free ++
      "\x7d;",
    "pub use fp_bindgen_support::guest::r#async::" ++ Symbols.guestResolve ++ ";",
    ""]

/-- What a type of the guest derives: what is sent is written, what is received is read. -/
def derives (s : BindingSource ν) (name : ν) : Derives where
  serialize := s.sends name
  deserialize := s.receives name

/-- The parts of a guest's bindings. -/
structure Bindings where
  types : List TypeDecl
  functions : Functions

/-- The declared types, provided that all names stay apart. -/
def types (s : BindingSource ν) : Except SchemaError (List TypeDecl) := do
  s.checkNames target
  typeDecls target s (derives s)

/-- The bindings of a guest. -/
def bindings (s : BindingSource ν) : Except SchemaError Bindings := do
  return { types := ← types s, functions := ← functions s }

/-- The files of a guest's bindings. -/
def Bindings.files (b : Bindings) : List (Text × Text) := [
  ("types.rs", typesFile b.types),
  ("functions.rs", functionsFile b.functions),
  ("mod.rs", moduleFile)]

end WasmBridge.RustPlugin
