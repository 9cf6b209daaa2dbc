import WasmBridge.Bindings.RustCode
import WasmBridge.Bindings.RustDeclaration

/-!
# Bindings for hosts in Rust

A host on Wasmer gets the declared types, a `Runtime` with two methods for each export of the guest,
one on values and one on serialized bytes, and a callback for each import. An asynchronous import is
driven by an executor of its own while the callback keeps the store and waits for the result.
-/

namespace WasmBridge.WasmerRuntime

open Rust

variable {ν : Type} [Label ν]

/-- The name of this target. -/
def target : Text := "rust-wasmer-runtime"

/-- The methods that every runtime has. -/
def ownMethods : List Text := ["new", "default_store", "function_env_mut"]

/-- The name of the method of an export on serialized bytes. -/
def rawName (f : Function ν) : Text := Label.display f.name ++ "_raw"

/-- The methods of an export. -/
def methodsOf (f : Function ν) : List Text := [Label.display f.name, rawName f]

/-- The methods of exports stay apart, from each other and from those that every runtime has. -/
def checkMethods (seen : List (Text × Text)) :
    List (Text × Text) → Except SchemaError Unit
  | [] => .ok ()
  | (method, function) :: rest =>
    if ownMethods.contains method then reject target (.reservedMethod function method)
    else
      match seen.lookup method with
      | some earlier => reject target (.sharedMethod earlier function method)
      | none => checkMethods ((method, function) :: seen) rest

/-- No import takes an argument named like the environment of its callback. -/
def checkEnvironment (f : Function ν) : Except SchemaError Unit :=
  if f.args.any fun a => Label.isText a.name "env" then
    reject target (.environmentArgument (Label.display f.name))
  else .ok ()

/-- The type of the environment of a callback. -/
def environmentType : Text := "FunctionEnvMut<Arc<RuntimeInstanceData>>"

/-- The methods that every runtime has. -/
def runtimeMethods : List Text :=
  Lines.block "pub fn new(wasm_module: impl AsRef<[u8]>) -> Result<Self, RuntimeError>" [
    "let mut store = Self::default_store();",
    "let module = Module::new(&store, wasm_module)?;",
    "let env = FunctionEnv::new(&mut store, Arc::new(RuntimeInstanceData::default()));",
    "let import_object = create_imports(&mut store, &env);",
    "let instance = Instance::new(&mut store, &module, &import_object)?;",
    "let env_from_instance = RuntimeInstanceData::from_instance(&mut store, &instance);",
    "Arc::get_mut(env.as_mut(&mut store)).unwrap().copy_from(env_from_instance);",
    "Ok(Self \x7b store, instance, env \x7d)"] ++
  [Lines.blank] ++
  Lines.block "fn default_store() -> wasmer::Store" [
    "Store::new(Singlepass::default())"] ++
  [Lines.blank] ++
  Lines.block ("fn function_env_mut(&mut self) -> " ++ environmentType) [
    "self.env.clone().into_mut(&mut self.store)"]

/-- The executor of asynchronous imports. -/
def executorLines : List Text :=
  Lines.block "fn async_import_executor() -> &'static tokio::runtime::Runtime" (
    "static EXECUTOR: OnceLock<tokio::runtime::Runtime> = OnceLock::new();" ::
    Lines.block "EXECUTOR.get_or_init(||" [
      "tokio::runtime::Builder::new_multi_thread()",
      "    .enable_all()",
      "    .build()",
      "    .expect(\"failed to start the async import executor\")"] ")")

/-- The type of the arguments of a call: one stands alone, others make up a tuple. -/
def argumentsType : List (Crossing Text) → Text
  | [a] => crossingText a
  | types => Text.bracketed "(" ")" (types.map crossingText)

/-- The methods of an export: what the guest is called as, and the code on values and on bytes. -/
structure ExportMethods where
  symbol : Text
  params : List (Crossing Text)
  result : Option (Crossing Text)
  logical : FunctionCode
  raw : FunctionCode

/-- What stands before the name of a method. -/
def methodPrefix (f : Function ν) : Text := "pub " ++ modifierText f ++ "fn "

/-- The head of a method. -/
def methodHead (f : Function ν) (name : Text) (params : List Text) (result : Text) : Text :=
  methodPrefix f ++ name ++ Text.bracketed "(" ")" ("&mut self" :: params) ++
    " -> Result<" ++ result ++ ", InvocationError>"

/-- Conversions of the arguments that are not primitive. -/
def conversions (s : BindingSource ν) (f : Function ν) (convert : Text → Text) :
    Except SchemaError (List Statement) := do
  let args := f.args.filter fun a => !s.types.isPrimitive a.type
  args.mapM fun a => do
    let name := Label.display (← escape a.name)
    return .convert name (convert name)

/-- What a method on bytes does with the result of the call. -/
def rawResult (s : BindingSource ν) (f : Function ν) (result : Option TypeIdent) : List Statement :=
  if f.isAsync then
    [.bind "result" " = ModuleRawFuture::new(self.function_env_mut(), result).await;" []]
  else
    match result with
    | none => []
    | some type =>
      if s.types.isPrimitive type then [.bind "result" " = WasmAbi::from_abi(result);" []]
      else
        [.bind "result" " = import_from_guest_raw(&mut self.function_env_mut(), result);" []]

/-- What a method on values does with the result of the method on bytes. -/
def logicalResult (s : BindingSource ν) (f : Function ν) (result : Option TypeIdent) :
    List Statement :=
  let serialized := match result with
    | some type => !s.types.isPrimitive type
    | none => false
  (if f.isAsync then [.bind "result" " = result.await;" []] else []) ++
    if f.isAsync || serialized then
      [.bind "result" " = result.map(|ref data| deserialize_from_slice(data));" []]
    else []

/-- The types of a result: in full, as bytes and at the boundary. The result of an asynchronous call
is always serialized. -/
def resultTypes (s : BindingSource ν) (f : Function ν) (result : Option TypeIdent) :
    Except SchemaError (Text × Text × Option (Crossing Text)) := do
  let full ← match result with
    | some type => shownType s.types [] type
    | none => pure "()"
  if f.isAsync then return (full, "Vec<u8>", some .pointer)
  else
    match result with
    | none => return (full, "()", none)
    | some type =>
      return (full, ← rawTypeOf s.types type, some (← crossingOf s.types type))

/-- The methods of an export. -/
def exportMethods (s : BindingSource ν) (f : Function ν) : Except SchemaError ExportMethods := do
  let name := Label.display (← escape f.name)
  let symbol := Symbols.function (Label.display f.name)
  let params ← f.args.mapM (fullParam s)
  let rawParams ← f.args.mapM fun a => do
    return Label.display (← escape a.name) ++ ": " ++ (← rawTypeOf s.types a.type)
  let names ← callArguments f
  let result ← s.result? f
  let (full, raw, boundary) ← resultTypes s f result
  let serialize ← conversions s f fun n => " = serialize_to_vec(&" ++ n ++ ");"
  let hand ← conversions s f fun n =>
    " = export_to_guest_raw(&mut self.function_env_mut(), " ++ n ++ ");"
  let crossings ← f.args.mapM fun a => crossingOf s.types a.type
  let signature := argumentsType crossings ++ ", " ++ (boundary.map crossingText).getD "()"
  return {
    symbol, params := crossings, result := boundary
    logical := {
      above := Lines.rustDoc (f.doc.map Label.line)
      head := methodHead f name params full
      params := names
      body := serialize ++
        [.call (some "result") ("self." ++ rawName f ++ Text.bracketed "(" ")" names ++ ";")] ++
        logicalResult s f result ++ [.line "result"] }
    raw := {
      above := []
      head := methodHead f (rawName f) rawParams raw
      params := names
      body := hand ++ [
        .bind "function" " = self" [
          ".instance",
          ".exports",
          ".get_typed_function::<" ++ signature ++ ">(&self.store, " ++ quoted symbol ++ ")",
          ".map_err(|_| InvocationError::FunctionNotExported(" ++ quoted symbol ++
            ".to_owned()))?;"],
        .call (some "result") ("function.call" ++
          Text.bracketed "(" ")" ("&mut self.store" :: names.map (· ++ ".to_abi()")) ++ "?;")] ++
        rawResult s f result ++ [.line "Ok(result)"] } }

/-- The lines of the methods of an export. -/
def ExportMethods.lines (m : ExportMethods) : List Text := m.logical.lines ++ m.raw.lines

/-- The callback of an import: the symbol that the guest calls, and the host's code. -/
structure ImportCallback where
  /-- The name of the function in the host's code. -/
  name : Text
  signature : BoundarySignature
  body : List Statement

/-- The code of a callback. -/
def ImportCallback.code (c : ImportCallback) : FunctionCode where
  above := []
  head := "pub fn " ++ c.name ++
    Text.bracketed "(" ")" (("mut env: " ++ environmentType) :: c.signature.paramTexts) ++
    arrow (c.signature.result.map crossingText)
  params := c.signature.params.map (·.name)
  body := c.body

/-- An argument that has come from the guest. -/
def importArgument (s : BindingSource ν) (a : Argument ν) : Except SchemaError Statement := do
  let name := Label.display (← escape a.name)
  if s.types.isPrimitive a.type then
    return .convert name (" = WasmAbi::from_abi(" ++ name ++ ");")
  else
    let type ← shownType s.types [] a.type
    return .convert name (" = import_from_guest::<" ++ type ++ ">(&mut env, " ++ name ++ ");")

/-- What a callback does with the result of an asynchronous host function. The store stays with the
callback, which writes the result and resolves the record when the task is done. -/
def asyncResult (name : Text) : List Statement := [
  .bind "async_ptr" " = create_future_value(&mut env);" [],
  .bind "(sender, receiver)" " = mpsc::channel();" [],
  .block "async_import_executor().spawn(async move" [
    .bind "_" " = sender.send(serialize_to_vec(&result.await));" []] ");",
  .bind "result" " = receiver" [
    ".recv()",
    ".expect(\"async import `" ++ name ++ "` did not complete\");"],
  .bind "result_ptr" " = export_to_guest_raw(&mut env, &result);" [],
  .line "env.data()",
  .line "    .clone()",
  .line "    .guest_resolve_async_value(&mut env.as_store_mut(), async_ptr, result_ptr);",
  .line "async_ptr"]

/-- What a callback does with the result of a host function. -/
def callbackResult (s : BindingSource ν) (f : Function ν) (result : Option TypeIdent) :
    List Statement :=
  if f.isAsync then asyncResult (Label.display f.name)
  else
    match result with
    | none => []
    | some type => [
      .line (if s.types.isPrimitive type then "result.to_abi()"
        else "export_to_guest(&mut env, &result)")]

/-- The callback of an import. -/
def importCallback (s : BindingSource ν) (f : Function ν) : Except SchemaError ImportCallback := do
  let params ← f.args.mapM (boundaryParam s)
  let result ← s.result? f
  let boundary ← if f.isAsync then pure (some Crossing.pointer) else
    match result with
    | none => pure none
    | some type => some <$> crossingOf s.types type
  let arguments ← f.args.mapM (importArgument s)
  let names ← callArguments f
  let name := Label.display (← escape f.name)
  let call := s.settings.runtimePath ++ "::" ++ name ++ Text.bracketed "(" ")" names ++ ";"
  return {
    name := "_" ++ Label.display f.name
    signature := { symbol := Symbols.function (Label.display f.name), params, result := boundary }
    body := arguments ++ [.call (some "result") call] ++ callbackResult s f result }

/-- The functions of a host's bindings. -/
structure Functions where
  exports : List ExportMethods
  imports : List ImportCallback
  /-- Some import is asynchronous. -/
  needsExecutor : Bool

/-- The functions of a host's bindings. -/
def functions (s : BindingSource ν) : Except SchemaError Functions := do
  return {
    exports := ← s.exports.toList.mapM (exportMethods s)
    imports := ← s.imports.toList.mapM (importCallback s)
    needsExecutor := s.imports.toList.any (·.isAsync) }

/-- The function that hands the callbacks to the guest. -/
def importsLines (imports : List ImportCallback) : List Text :=
  let entry (symbol name : Text) : Text :=
    quoted symbol ++ " => Function::new_typed_with_env(store, env, " ++ name ++ "),"
  Lines.block
    "fn create_imports(store: &mut Store, env: &FunctionEnv<Arc<RuntimeInstanceData>>) -> Imports"
    (Lines.block "imports!"
      (Lines.block (quoted Symbols.importModule ++ " =>")
        (entry Symbols.hostResolve "resolve_async_value" ::
          imports.map fun c => entry c.signature.symbol c.name)))

/-- The parts of the support library that callbacks and methods use. -/
def supportLines : List Text :=
  let memory := Lines.group "mem::" [
    "deserialize_from_slice, export_to_guest, export_to_guest_raw, import_from_guest,",
    "import_from_guest_raw, serialize_to_vec,"] ","
  let host : List Text := ["errors::\x7bInvocationError, RuntimeError\x7d,"]
  let calls : List Text := [
    "r#async::\x7bcreate_future_value, future::ModuleRawFuture, resolve_async_value\x7d,",
    "runtime::RuntimeInstanceData,"]
  let common : List Text := ["common::\x7babi::WasmAbi, mem::FatPtr\x7d,"]
  Lines.group "use fp_bindgen_support::"
    (common ++ Lines.group "host::" (host ++ memory ++ calls) ",") ";"

/-- What the file of functions uses. -/
def useLines : List Text :=
  let types : List Text := ["use super::types::*;"]
  let sync : List Text := ["use std::sync::\x7bmpsc, Arc, OnceLock\x7d;"]
  types ++ supportLines ++ sync ++
    Lines.group "use wasmer::" [
      "imports, AsStoreMut, Function, FunctionEnv, FunctionEnvMut, Imports, Instance, Module,",
      "Singlepass, Store,"] ";"

/-- The file of functions. -/
def functionsFile (fs : Functions) : Text :=
  Lines.join (
    [Lines.notice] ++ useLines ++ [Lines.blank] ++
    Lines.block "pub struct Runtime" [
      "store: Store,",
      "instance: Instance,",
      "env: FunctionEnv<Arc<RuntimeInstanceData>>,"] ++
    [Lines.blank] ++
    Lines.block "impl Runtime"
      (runtimeMethods ++ fs.exports.flatMap fun m => Lines.blank :: m.lines) ++
    [Lines.blank] ++ importsLines fs.imports ++
    (if fs.needsExecutor then Lines.blank :: executorLines else []) ++
    fs.imports.flatMap (fun c => Lines.blank :: c.code.lines) ++ [Lines.blank])

/-- What a type of the host derives: what the guest sends is read, what it receives is written. -/
def derives (s : BindingSource ν) (name : ν) : Derives where
  serialize := s.receives name
  deserialize := s.sends name

/-- The parts of a host's bindings. -/
structure Bindings where
  types : List TypeDecl
  functions : Functions

/-- The declared types, provided that all names stay apart. -/
def types (s : BindingSource ν) : Except SchemaError (List TypeDecl) := do
  s.checkNames target
  checkMethods [] (s.exports.toList.flatMap fun f =>
    (methodsOf f).map fun method => (method, Label.display f.name))
  s.imports.toList.forM checkEnvironment
  typeDecls target s (derives s)

/-- The bindings of a host. -/
def bindings (s : BindingSource ν) : Except SchemaError Bindings := do
  return { types := ← types s, functions := ← functions s }

/-- The files of a host's bindings. -/
def Bindings.files (b : Bindings) : List (Text × Text) := [
  ("types.rs", typesFile b.types),
  ("bindings.rs", functionsFile b.functions)]

end WasmBridge.WasmerRuntime
