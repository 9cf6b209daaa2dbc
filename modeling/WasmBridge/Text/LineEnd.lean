import WasmBridge.Text.Basic

/-!
# Line ends

Texts that come from elsewhere may end their lines by a carriage return, with or without a newline
behind it. They are read as if every line ended by a newline.
-/

namespace WasmBridge.Text

/-- Every line end as a newline. -/
def unifyLineEnds : Text → Text
  | [] => []
  | .char '\r' :: .char '\n' :: rest => .char '\n' :: unifyLineEnds rest
  | .char '\r' :: rest => .char '\n' :: unifyLineEnds rest
  | c :: rest => c :: unifyLineEnds rest

end WasmBridge.Text
