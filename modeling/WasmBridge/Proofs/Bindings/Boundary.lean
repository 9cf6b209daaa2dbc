import WasmBridge.Bindings.Target
import WasmBridge.Proofs.Bindings.Signatures

/-!
# Both sides of the boundary

Three files hold the code at the boundary: the functions of a guest in Rust, those of a
host in Rust and those of a host in TypeScript. In each of them every import and every
export has its place, so there are six places where it is said how a function crosses.
Here they are looked up in the texts of the files, and what is read there is the same in
all six: one symbol, the parameters of the function in their order, and what its
declaration says of how they and the result cross.
-/

namespace WasmBridge

open Outcome Text

variable {ν : Type} [Label ν]

/-! ## Where functions stand -/

/-- In a guest's file the imports are declared in one block, which begins with the function that
resolves asynchronous values. -/
def RustPlugin.DeclaresImports (s : BindingSource ν) (file : Text) : Prop :=
  ∃ lines : List Text,
    StandIn (Lines.block "extern \"C\""
      (("fn " ++ Symbols.hostResolve ++ "(async_value_ptr: FatPtr);") :: lines)) file
    ∧ List.Forall₂ (fun f line =>
        Rust.boundaryStyle.signatureIn? (byName rustName) ("fn " ++ symbolOf f ++ "(") "" f ";" line
          = some (s.crossings f)) s.imports.toList lines

/-- In a guest's file the exports are defined one below the other, each by a head and a body. -/
def RustPlugin.DefinesExports (s : BindingSource ν) (file : Text) : Prop :=
  ∃ codes : List (Text × List Text),
    StandIn (codes.flatMap fun code =>
      Text.ofStrings ["#[doc(hidden)]", "#[no_mangle]"] ++ Lines.block code.1 code.2 ++
        [Lines.blank]) file
    ∧ List.Forall₂ (fun f code =>
        Rust.boundaryStyle.signatureIn? (byName rustName)
          ("pub extern \"C\" fn " ++ symbolOf f ++ "(") "" f "" code.1
          = some (s.crossings f)) s.exports.toList codes

/-- The line that hands a function of the host to the guest. -/
def WasmerRuntime.importEntry (symbol name : Text) : Text :=
  Rust.quoted symbol ++ " => Function::new_typed_with_env(store, env, " ++ name ++ "),"

/-- The parameter that all callbacks begin with. -/
def WasmerRuntime.environmentParam : Text := "mut env: " ++ WasmerRuntime.environmentType

/-- In the file of a host in Rust the imports are handed to the guest by their symbols, and each is
defined below by a head and a body. -/
def WasmerRuntime.DefinesImports (s : BindingSource ν) (file : Text) : Prop :=
  ∃ codes : List (Text × List Text),
    StandIn (Lines.nested (Lines.block "imports!"
      (Lines.block (Rust.quoted Symbols.importModule ++ " =>")
        (importEntry Symbols.hostResolve "resolve_async_value" ::
          s.imports.toList.map fun f => importEntry (symbolOf f) ("_" ++ Label.display f.name)))))
      file
    ∧ StandIn (codes.flatMap fun code => Lines.blank :: Lines.block code.1 code.2) file
    ∧ List.Forall₂ (fun f code =>
        Rust.boundaryStyle.signatureIn? (byName rustName)
          ("pub fn _" ++ Label.display f.name ++ "(" ++ environmentParam) ", " f "" code.1
          = some (s.crossings f)) s.imports.toList codes

/-- In the file of a host in Rust there are methods for each export, of which one looks up the
function of the guest by its symbol and calls it with all arguments. -/
def WasmerRuntime.CallsExports (s : BindingSource ν) (file : Text) : Prop :=
  ∃ methods : List (List Text),
    StandIn (methods.flatMap fun lines => Lines.blank :: Lines.nested lines) file
    ∧ List.Forall₂ (fun f lines => ∃ lookup names, f.args.mapM rustText = .ok names
        ∧ WasmerRuntime.typeArgumentsIn? f (symbolOf f) lookup = some (s.crossings f)
        ∧ Lines.nested (WasmerRuntime.callLines (symbolOf f) lookup names) <:+: lines)
        s.exports.toList methods

/-- In the file of a host in TypeScript the imports are handed to the guest in one block, each by
its symbol with a head and a body. -/
def TypeScriptRuntime.DefinesImports (s : BindingSource ν) (file : Text) : Prop :=
  ∃ codes : List (Text × List Text),
    StandIn (Lines.nested (Lines.block
      "const \x7b instance \x7d = await WebAssembly.instantiate(plugin,"
      (Lines.block (Symbols.importModule ++ ":")
        ((Symbols.hostResolve ++ ": resolvePromise,") ::
          codes.flatMap fun code => Lines.block code.1 code.2 ",") ",") ");")) file
    ∧ List.Forall₂ (fun f code =>
        TypeScript.boundaryStyle.signatureIn? (byName (scriptName s)) (symbolOf f ++ ": " ++ "(") ""
          f " =>" code.1 = some (s.crossings f)) s.imports.toList codes

/-- The lines of an export in TypeScript. It is handed out as it is if everything crosses by itself
and at once, and only then. Any other export is called by a function. -/
def TypeScriptRuntime.HandsOut (s : BindingSource ν) (f : Function ν) (lines : List Text) : Prop :=
  ∃ name, TypeScriptRuntime.camel f.name = .ok name
    ∧ if s.PassedThrough f then lines = [name ++ ": instance.exports." ++ symbolOf f ++ " as any,"]
      else ∃ params conversions call,
        lines = Lines.block (name ++ ": (() =>") ([
          "const export_fn = instance.exports." ++ symbolOf f ++ " as any;",
          "if (!export_fn) return;",
          ""] ++
          Lines.block ("return " ++ bracketed "(" ")" params ++ " =>") (conversions ++ [call]) ";")
          ")(),"
        ∧ TypeScriptRuntime.wrapperIn? s f conversions call = some (s.crossings f)

/-- In the file of a host in TypeScript the exports are handed out in one block. -/
def TypeScriptRuntime.CallsExports (s : BindingSource ν) (file : Text) : Prop :=
  ∃ entries : List (List Text),
    StandIn (Lines.nested (Lines.block "return" entries.flatten ";")) file
    ∧ List.Forall₂ (fun f lines => TypeScriptRuntime.HandsOut s f lines) s.exports.toList entries

/-! ## Each place in its file -/

variable {s : BindingSource ν}

theorem Rust.BoundarySignature.Matches.read {f : Function ν} {e : Rust.BoundarySignature}
    (h : e.Matches s f) {closing : Text}
    (hclosing : behind? Rust.boundaryStyle.arrow closing = none) (before : Text) :
    Rust.boundaryStyle.signatureIn? (byName rustName) (before ++ symbolOf f ++ "(") "" f closing
      (before ++ e.text ++ closing) = some (s.crossings f) := by
  have hline : before ++ e.text ++ closing = before ++ symbolOf f ++
      bracketed "(" ")" e.paramTexts ++
      (e.result.map Rust.crossingText).elim [] (Rust.boundaryStyle.arrow ++ ·) ++ closing := by
    rw [Rust.BoundarySignature.text, h.symbol, Rust.arrow_eq]
    simp only [List.append_assoc]
  rw [hline]
  exact BoundaryStyle.signatureIn?_printed h.declares.showsParams h.declares.result hclosing _

namespace RustPlugin

theorem declaresImports {b : Functions}
    (h : s.imports.toList.mapM (Rust.boundarySignature s) = .ok b.externs) :
    DeclaresImports s (functionsFile b) := by
  refine ⟨b.externs.map fun e => "fn " ++ e.text ++ ";", standIn_join ?_, ?_⟩
  · -- the block is one of the parts that the file is put together from
    refine List.infix_append_of_infix_left (List.infix_append_of_infix_left ?_)
    refine List.infix_append_of_infix_left (List.infix_append_of_infix_right ?_)
    exact List.infix_cons List.infix_rfl
  · rw [List.forall₂_map_right_iff]
    exact (mapM_eq_ok_iff.mp h).imp fun f e he => (boundarySignature_matches he).read rfl "fn "

theorem definesExports {b : Functions}
    (h : s.exports.toList.mapM (exportWrapper s) = .ok b.exports) :
    DefinesExports s (functionsFile b) := by
  refine ⟨b.exports.map fun w => (w.code.head, Rust.Statement.linesAll w.body), standIn_join ?_, ?_⟩
  · refine List.infix_append_of_infix_right ?_
    rw [List.flatMap_map]
    exact List.infix_rfl
  · rw [List.forall₂_map_right_iff]
    refine (mapM_eq_ok_iff.mp h).imp fun f w hw => ?_
    have hclosing : behind? Rust.boundaryStyle.arrow [] = none := rfl
    have hread := (exportWrapper_matches hw).read hclosing "pub extern \"C\" fn "
    rwa [List.append_nil] at hread

end RustPlugin

namespace WasmerRuntime

theorem definesImports {b : Functions}
    (h : s.imports.toList.mapM (importCallback s) = .ok b.imports) :
    DefinesImports s (functionsFile b) := by
  have hentries : (b.imports.map fun c => importEntry c.signature.symbol c.name)
      = s.imports.toList.map fun f => importEntry (symbolOf f) ("_" ++ Label.display f.name) :=
    map_eq_of_mapM h fun f c hc => by
      obtain ⟨hname, hmatches⟩ := wasmer_import_matches hc
      rw [hname, hmatches.symbol]
  refine ⟨b.imports.map fun c => (c.code.head, Rust.Statement.linesAll c.body),
    standIn_join ?_, standIn_join ?_, ?_⟩
  · refine List.infix_append_of_infix_left (List.infix_append_of_infix_left ?_)
    refine List.infix_append_of_infix_left (List.infix_append_of_infix_right ?_)
    rw [← hentries]
    exact Lines.infix_block ..
  · refine List.infix_append_of_infix_left (List.infix_append_of_infix_right ?_)
    rw [List.flatMap_map]
    exact List.infix_rfl
  · rw [List.forall₂_map_right_iff]
    refine (mapM_eq_ok_iff.mp h).imp fun f c hc => ?_
    obtain ⟨hname, hmatches⟩ := wasmer_import_matches hc
    have hclosing : behind? Rust.boundaryStyle.arrow [] = none := rfl
    have hread := BoundaryStyle.signatureIn?_behind hmatches.declares.showsParams
      hmatches.declares.result hclosing ("pub fn _" ++ Label.display f.name) environmentParam
    -- the environment is a parameter that the declaration knows nothing of
    have hhead : c.code.head = "pub fn _" ++ Label.display f.name ++
        bracketed "(" ")" (environmentParam :: c.signature.paramTexts) ++
        (c.signature.result.map Rust.crossingText).elim [] (Rust.boundaryStyle.arrow ++ ·) := by
      unfold ImportCallback.code
      dsimp only
      rw [hname, Rust.arrow_eq]
      rfl
    rw [hhead]
    rwa [List.append_nil] at hread

theorem callsExports {b : Functions}
    (h : s.exports.toList.mapM (exportMethods s) = .ok b.exports) :
    CallsExports s (functionsFile b) := by
  refine ⟨b.exports.map (·.lines), ?_, ?_⟩
  · rw [List.flatMap_map]
    exact standIn_methods b
  · rw [List.forall₂_map_right_iff]
    exact (mapM_eq_ok_iff.mp h).imp fun f m hm => exportMethods_calls hm

end WasmerRuntime

namespace TypeScriptRuntime

theorem ImportCallback.Matches.read {f : Function ν} {c : ImportCallback} (h : c.Matches s f) :
    TypeScript.boundaryStyle.signatureIn? (byName (scriptName s)) (symbolOf f ++ ": " ++ "(") ""
      f " =>" c.head = some (s.crossings f) := by
  have hclosing : behind? TypeScript.boundaryStyle.arrow " =>" = none := rfl
  have hread := BoundaryStyle.signatureIn?_printed h.declares.showsParams h.declares.result
    hclosing (symbolOf f ++ ": ")
  unfold ImportCallback.head
  rw [h.symbol]
  cases hresult : c.result with
  | none =>
    rw [hresult] at hread
    exact hread
  | some type =>
    rw [hresult] at hread
    exact hread

theorem standIn_startLines (b : Bindings) : StandIn (startLines b.functions) (functionsFile b) :=
  standIn_join (List.infix_append_of_infix_left (List.infix_append_of_infix_left
    List.infix_append_right))

theorem definesImports {b : Bindings}
    (h : s.imports.toList.mapM (importCallback s) = .ok b.functions.imports) :
    DefinesImports s (functionsFile b) := by
  refine ⟨b.functions.imports.map fun c => (c.head, c.body), ?_, ?_⟩
  · refine (standIn_startLines b).of_part (List.infix_append_of_infix_right ?_)
    refine List.IsInfix.trans (Lines.infix_nested ?_) (Lines.infix_block ..)
    refine List.infix_append_of_infix_left (List.infix_append_of_infix_left ?_)
    refine List.infix_append_of_infix_left (List.infix_append_of_infix_left ?_)
    rw [List.flatMap_map]
    exact List.infix_append_right
  · rw [List.forall₂_map_right_iff]
    exact (mapM_eq_ok_iff.mp h).imp fun f c hc => (script_import_matches hc).read

theorem ExportEntry.Matches.handsOut {f : Function ν} {e : ExportEntry} (h : e.Matches s f) :
    HandsOut s f e.lines := by
  refine ⟨e.name, h.name, ?_⟩
  cases hw : e.wrapper with
  | none =>
    rw [if_pos (h.plain.mp hw), ExportEntry.lines, hw, h.symbol]
  | some w =>
    have hnot : ¬s.PassedThrough f := by
      rw [← h.plain, hw]
      exact nofun
    rw [if_neg hnot, ExportEntry.lines_eq hw, h.symbol]
    exact ⟨w.params, w.conversions, w.call, rfl, h.wrapped w hw⟩

theorem callsExports {b : Bindings}
    (h : s.exports.toList.mapM (exportEntry s) = .ok b.functions.exports) :
    CallsExports s (functionsFile b) := by
  refine ⟨b.functions.exports.map (·.lines), ?_, ?_⟩
  · refine (standIn_startLines b).of_part (List.infix_append_of_infix_right ?_)
    exact (Lines.infix_nested List.infix_append_right).trans (Lines.infix_block ..)
  · rw [List.forall₂_map_right_iff]
    exact (mapM_eq_ok_iff.mp h).imp fun f e he => (script_export_matches he).handsOut

end TypeScriptRuntime

/-! ## All targets agree -/

/--
**The three targets take every function for the same.**

If all three make bindings from one source, then each import and each export has its
place in the file of each, where it goes by its symbol, and what is read there is how
everything crosses by its declaration: the parameters, by their names and in their
order, and the kind of result. In a guest's file these are the declarations of imports
and the heads of exports, in the file of a host in Rust the heads of callbacks and the
types with which the guest's functions are looked up, and in the file of a host in
TypeScript the heads of callbacks and the functions that call exports. TypeScript hands
out an export as it is exactly if everything crosses by itself and at once.
-/
theorem targets_agree {guest host script : List (Text × Text)}
    (hguest : s.files .rustPlugin = .ok guest) (hhost : s.files .wasmerRuntime = .ok host)
    (hscript : s.files .typeScriptRuntime = .ok script) :
    ∃ functions bindings index,
      guest.lookup ("functions.rs" : Text) = some functions
      ∧ host.lookup ("bindings.rs" : Text) = some bindings
      ∧ script.lookup ("index.ts" : Text) = some index
      ∧ RustPlugin.DeclaresImports s functions ∧ RustPlugin.DefinesExports s functions
      ∧ WasmerRuntime.DefinesImports s bindings ∧ WasmerRuntime.CallsExports s bindings
      ∧ TypeScriptRuntime.DefinesImports s index ∧ TypeScriptRuntime.CallsExports s index := by
  obtain ⟨_, hplugin, rfl⟩ := map_eq_ok.mp hguest
  obtain ⟨_, hruntime, rfl⟩ := map_eq_ok.mp hhost
  obtain ⟨_, hstart, rfl⟩ := map_eq_ok.mp hscript
  obtain ⟨_, _, hrest⟩ := bind_eq_ok.mp hplugin
  obtain ⟨_, hfunctions, ⟨⟩⟩ := bind_eq_ok.mp hrest
  obtain ⟨_, hexterns, hrest⟩ := bind_eq_ok.mp hfunctions
  obtain ⟨_, _, hrest⟩ := bind_eq_ok.mp hrest
  obtain ⟨_, hwrappers, ⟨⟩⟩ := bind_eq_ok.mp hrest
  obtain ⟨_, _, hrest⟩ := bind_eq_ok.mp hruntime
  obtain ⟨_, hfunctions, ⟨⟩⟩ := bind_eq_ok.mp hrest
  obtain ⟨_, hmethods, hrest⟩ := bind_eq_ok.mp hfunctions
  obtain ⟨_, hcallbacks, ⟨⟩⟩ := bind_eq_ok.mp hrest
  obtain ⟨_, _, hrest⟩ := bind_eq_ok.mp hstart
  obtain ⟨_, hfunctions, ⟨⟩⟩ := bind_eq_ok.mp hrest
  obtain ⟨_, _, hrest⟩ := bind_eq_ok.mp hfunctions
  obtain ⟨_, _, hrest⟩ := bind_eq_ok.mp hrest
  obtain ⟨_, himports, hrest⟩ := bind_eq_ok.mp hrest
  obtain ⟨_, hentries, ⟨⟩⟩ := bind_eq_ok.mp hrest
  exact ⟨_, _, _, rfl, rfl, rfl, RustPlugin.declaresImports hexterns,
    RustPlugin.definesExports hwrappers, WasmerRuntime.definesImports hcallbacks,
    WasmerRuntime.callsExports hmethods, TypeScriptRuntime.definesImports himports,
    TypeScriptRuntime.callsExports hentries⟩

/-- Of these two exports TypeScript hands out the first as it is, and calls the second. -/
theorem targets_agree_sum_and_greeting :
    let fetch : Function Text :=
      { name := "fetch", args := [⟨"url", ⟨"String", []⟩⟩], isAsync := true }
    let sum : Function Text :=
      { name := "sum", args := [⟨"a", ⟨"u32", []⟩⟩, ⟨"b", ⟨"u32", []⟩⟩],
        returns := some ⟨"u32", []⟩ }
    let greet : Function Text := { name := "greet", args := [⟨"name", ⟨"String", []⟩⟩] }
    let s : BindingSource Text := {
      imports := ⟨[fetch], by decide⟩
      exports := ⟨[sum, greet], by decide⟩
      types := .builtin
      sent := []
      received := [] }
    s.crossings fetch = ([.byPointer], some .byPointer)
      ∧ s.crossings sum = ([.byValue, .byValue], some .byValue)
      ∧ s.crossings greet = ([.byPointer], none)
      ∧ s.PassedThrough sum ∧ ¬s.PassedThrough greet
      ∧ ∃ guest host script functions bindings index,
        s.files .rustPlugin = .ok guest ∧ s.files .wasmerRuntime = .ok host
        ∧ s.files .typeScriptRuntime = .ok script
        ∧ guest.lookup ("functions.rs" : Text) = some functions
        ∧ host.lookup ("bindings.rs" : Text) = some bindings
        ∧ script.lookup ("index.ts" : Text) = some index
        ∧ RustPlugin.DeclaresImports s functions ∧ RustPlugin.DefinesExports s functions
        ∧ WasmerRuntime.DefinesImports s bindings ∧ WasmerRuntime.CallsExports s bindings
        ∧ TypeScriptRuntime.DefinesImports s index ∧ TypeScriptRuntime.CallsExports s index := by
  intro fetch sum greet s
  obtain ⟨guest, hguest⟩ := exists_of_isOk
    (show (s.files .rustPlugin).isOk = true by decide +kernel)
  obtain ⟨host, hhost⟩ := exists_of_isOk
    (show (s.files .wasmerRuntime).isOk = true by decide +kernel)
  obtain ⟨script, hscript⟩ := exists_of_isOk
    (show (s.files .typeScriptRuntime).isOk = true by decide +kernel)
  obtain ⟨functions, bindings, index, hplaces⟩ := targets_agree hguest hhost hscript
  exact ⟨by decide +kernel, by decide +kernel, by decide +kernel, by decide +kernel,
    by decide +kernel, guest, host, script, functions, bindings, index, hguest, hhost, hscript,
    hplaces⟩

end WasmBridge
