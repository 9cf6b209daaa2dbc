import WasmBridge.CommandLine.Options

/-!
# Help

What the command line says of itself when it is asked.
-/

namespace WasmBridge.CommandLine

/-- The choices of targets. -/
def targetChoices : Text := "\x7b" ++ Text.separated "," (Target.all.map (·.name)) ++ "\x7d"

/-- The lines of help. -/
def helpLines : List Text := [
  "usage: generate_bindings.py [-h] [--output-dir OUTPUT_DIR]",
  "                            [--target " ++ targetChoices ++ "]",
  "                            [--plugin-impl-path PLUGIN_IMPL_PATH]",
  "                            [--runtime-impl-path RUNTIME_IMPL_PATH]",
  "                            [--rustfmt] [--prettier] [--verbose]",
  "                            ir_file",
  "",
  "Generate WASM plugin bindings from an IR document",
  "",
  "positional arguments:",
  "  ir_file               Path to IR document (JSON)",
  "",
  "options:",
  "  -h, --help            show this help message and exit",
  "  --output-dir OUTPUT_DIR, -o OUTPUT_DIR",
  "                        Output directory",
  "  --target " ++ targetChoices ++ ", -t " ++ targetChoices,
  "                        Target to generate (repeatable, default: all)",
  "  --plugin-impl-path PLUGIN_IMPL_PATH",
  "                        Rust path of the plugin's export implementations",
  "  --runtime-impl-path RUNTIME_IMPL_PATH",
  "                        Rust path of the host's import implementations",
  "  --rustfmt             Format Rust output with rustfmt",
  "  --prettier            Format TypeScript output with prettier",
  "  --verbose, -v         Enable debug logging"]

end WasmBridge.CommandLine
