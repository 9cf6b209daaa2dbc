import WasmBridge.Text.Basic

/-!
# Symbols

The names under which functions and memory are found across the boundary.
-/

namespace WasmBridge.Symbols

/-- The module that the guest's imports come from. -/
def importModule : Text := "fp"

/-- The guest's function that hands out buffers. -/
def malloc : Text := "__fp_malloc"

/-- The guest's function that takes buffers back. -/
def free : Text := "__fp_free"

/-- The guest's function that resolves an asynchronous value. -/
def guestResolve : Text := "__fp_guest_resolve_async_value"

/-- The host's function that resolves an asynchronous value. -/
def hostResolve : Text := "__fp_host_resolve_async_value"

/-- The guest's memory. -/
def memory : Text := "memory"

/-- The symbol of a declared function. -/
def function (name : Text) : Text := "__fp_gen_" ++ name

end WasmBridge.Symbols
