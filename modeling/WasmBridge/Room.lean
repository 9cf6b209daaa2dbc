/-!
# Room

Nested things are worked on by nested calls: one for each list around a value, several for each pair
of brackets around an ident. Only so many calls can be open at once, so whatever is nested too deep
is refused, and what there is to say about it may be too deep to be said. Each module states how
many calls its own work takes; this one states how many there are.
-/

namespace WasmBridge

/-- How many calls can be open at once. -/
def callRoom : Nat := 990

end WasmBridge
