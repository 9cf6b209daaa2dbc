import WasmBridge.Memory.AsyncCalls
import WasmBridge.Memory.Transfer
import WasmBridge.TypeIdent.Parser

/-!
# Sessions

Scripts of operations on one memory and one registry. Results are kept under names. A callback is a
script too: when its call is resolved, the payload is reported, its actions are performed one after
the other, and the answer of each is reported, whether it succeeds or fails. The answer of the
action that resolved the call comes after all of these.

The parts of an action are looked at in turn: what it works on comes before the type that it is
taken as. A part that makes no sense is found out when its turn comes.
-/

namespace WasmBridge

/-- A pointer as scripts write it. -/
inductive PointerExpr where
  | named (name : Text)
  | literal (fat : Int)
  /-- Some bytes of a buffer. -/
  | part (base : PointerExpr) (offset length : Int)

/-- Why an action has no result. -/
inductive ScriptError where
  | boundary (cause : BoundaryError)
  | ident (cause : TypeIdentError)
  | value (cause : ValueFault)
  | unknownName (name : Text)
  | notAHandle (name : Text)
  /-- No payload is at hand outside a callback. -/
  | noPayload

/-- A part of an action as it is written: it may make no sense. -/
abbrev Written (α : Type) := Except ScriptError α

/-- An action of a script. -/
inductive ScriptAction where
  | malloc (length : Int) (name : Option Text)
  | free (pointer : PointerExpr)
  | read (pointer : PointerExpr)
  | write (pointer : PointerExpr) (bytes : List UInt8)
  | isAllocated (pointer : PointerExpr)
  | grow (extra : Int)
  | readWord (offset : Int)
  | writeWord (offset value : Int)
  | peek (first length : Int)
  | newRecord (name : Text)
  | attach (pointer : PointerExpr) (name : Text)
  | status (handle : Text)
  | isReady (handle : Text)
  | offset (handle : Text)
  | isConsumed (handle : Text)
  | assign (handle : Text) (pointer : PointerExpr)
  | result (handle : Text) (name : Option Text)
  | consume (handle : Text)
  | register (handle : Text) (callback : List ScriptAction)
  | resolve (pointer : PointerExpr)
  | isPending (pointer : PointerExpr)
  | exportValue (value : Written Value) (type : Written TypeIdent) (name : Option Text)
  | importValue (pointer : PointerExpr) (type : Written TypeIdent)
  | decodePayload (type : Written TypeIdent)

/-- What an action gives back. -/
inductive Reply where
  | done
  | number (n : Int)
  | truth (b : Bool)
  | bytes (bytes : List UInt8)
  | value (v : Value)

/-- The outcome of an action. -/
abbrev Answer := Except ScriptError Reply

/-- What happens while an action is performed. -/
inductive Event where
  | payload (bytes : List UInt8)
  | answer (answer : Answer)

/-- What a name stands for. -/
inductive Binding where
  | pointer (fat : Int)
  | handle (id : Nat)

/-- The state of a script. -/
structure Session where
  format : PackFormat
  types : TypeMap Text
  calls : AsyncCalls (List ScriptAction)
  names : List (Text × Binding) := []
  events : List Event := []

/-- An operation of a script. -/
abbrev ScriptOp := EStateM ScriptError Session

mutual

/-- The number of actions in an action, those of its callback included. -/
def ScriptAction.count : ScriptAction → Nat
  | .register _ callback => 1 + ScriptAction.countAll callback
  | _ => 1

/-- The number of actions in several actions. -/
def ScriptAction.countAll : List ScriptAction → Nat
  | [] => 0
  | a :: as => a.count + ScriptAction.countAll as

end

namespace Session

/-- A session on a fresh memory. -/
def start (format : PackFormat) (types : TypeMap Text) (size align : Int) :
    Except BoundaryError Session := do
  let memory ← LinearMemory.create size align
  return { format, types, calls := { memory } }

/-- An operation on the calls. -/
def onCalls {α : Type} (op : CallOp (List ScriptAction) α) : ScriptOp α := fun s =>
  match op s.calls with
  | .ok a calls => .ok a { s with calls }
  | .error e calls => .error (.boundary e) { s with calls }

/-- An operation on the memory. -/
def onMemory {α : Type} (op : MemoryOp α) : ScriptOp α := onCalls (AsyncCalls.onMemory op)

/-- A question to the memory. -/
def ask {α : Type} (question : LinearMemory → Except BoundaryError α) : ScriptOp α :=
  onCalls (AsyncCalls.ask question)

/-- A part of an action, when its turn comes. -/
def part {α : Type} : Written α → ScriptOp α
  | .ok a => pure a
  | .error e => throw e

/-- A name for a result. -/
def bindName (name : Option Text) (binding : Binding) : ScriptOp Unit :=
  match name with
  | none => pure ()
  | some name => modify fun s => { s with names := (name, binding) :: s.names }

/-- What a name stands for. -/
def lookup (name : Text) : ScriptOp Binding := do
  match (← get).names.lookup name with
  | some binding => return binding
  | none => throw (.unknownName name)

/-- The handle of a name. -/
def handleId (name : Text) : ScriptOp Nat := do
  match ← lookup name with
  | .handle id => return id
  | .pointer _ => throw (.notAHandle name)

/-- The handle of a name. -/
def handleOf (name : Text) : ScriptOp Handle := do
  let id ← handleId name
  return (← get).calls.handle id

/-- The pointer that an expression stands for; a handle stands for the pointer to its record. -/
def pointer : PointerExpr → ScriptOp Int
  | .literal fat => return fat
  | .named name => do
    match ← lookup name with
    | .pointer fat => return fat
    | .handle id => return ((← get).calls.handle id).fat
  | .part base offset length => do
    let fat ← pointer base
    let (start, _) ← ask fun _ => FatPtr.unpack fat
    ask fun _ => FatPtr.pack (start + offset) length

/-- Performs an action, where `payload` is that of the callback it belongs to. The callback of a
call that it resolves is left to be run, with the payload of that call. -/
def perform (payload : Option (List UInt8)) :
    ScriptAction → ScriptOp (Reply × Option (List UInt8 × List ScriptAction))
  | .malloc length name => do
    let fat ← onMemory (LinearMemory.malloc length)
    bindName name (.pointer fat)
    return (.number fat, none)
  | .free p => do
    onMemory (LinearMemory.free (← pointer p))
    return (.done, none)
  | .read p => do
    let fat ← pointer p
    return (.bytes (← ask fun m => m.read fat), none)
  | .write p bytes => do
    onMemory (LinearMemory.write (← pointer p) bytes)
    return (.done, none)
  | .isAllocated p => do
    let fat ← pointer p
    return (.truth (← ask fun m => m.isAllocated fat), none)
  | .grow extra => do
    onMemory (LinearMemory.grow extra)
    return (.done, none)
  | .readWord offset => return (.number (← ask fun m => m.readWord offset), none)
  | .writeWord offset value => do
    onMemory (LinearMemory.writeWord offset value)
    return (.done, none)
  | .peek first length =>
    return (.bytes (← ask fun m => .ok (m.slice first (first + length))), none)
  | .newRecord name => do
    let id ← onCalls AsyncCalls.create
    bindName (some name) (.handle id)
    return (.number ((← get).calls.handle id).fat, none)
  | .attach p name => do
    let id ← onCalls (AsyncCalls.attach (← pointer p))
    bindName (some name) (.handle id)
    return (.done, none)
  | .status handle => do
    let h ← handleOf handle
    return (.number (← ask h.status), none)
  | .isReady handle => do
    let h ← handleOf handle
    return (.truth (← ask h.isReady), none)
  | .offset handle => do
    let h ← handleOf handle
    return (.number (← ask fun _ => h.offset), none)
  | .isConsumed handle => return (.truth (← handleOf handle).consumed, none)
  | .assign handle p => do
    let id ← handleId handle
    onCalls (AsyncCalls.assign id (← pointer p))
    return (.done, none)
  | .result handle name => do
    let h ← handleOf handle
    let fat ← ask h.result
    bindName name (.pointer fat)
    return (.number fat, none)
  | .consume handle => do
    let id ← handleId handle
    return (.bytes (← onCalls (AsyncCalls.consume id)), none)
  | .register handle callback => do
    let id ← handleId handle
    onCalls (AsyncCalls.register id callback)
    return (.done, none)
  | .resolve p => do
    let called ← onCalls (AsyncCalls.resolve (← pointer p))
    return (.done, some called)
  | .isPending p => do
    let fat ← pointer p
    return (.truth ((← get).calls.pendingAt? fat).isSome, none)
  | .exportValue value type name => do
    let value ← part value
    let type ← part type
    let s ← get
    let fat ← onMemory (WasmBridge.exportValue s.format s.types value type)
    bindName name (.pointer fat)
    return (.number fat, none)
  | .importValue p type => do
    let fat ← pointer p
    let type ← part type
    let s ← get
    return (.value (← onMemory (WasmBridge.importValue s.format s.types fat type)), none)
  | .decodePayload type => do
    match payload with
    | none => throw .noPayload
    | some bytes =>
      let type ← part type
      let s ← get
      match decode s.format s.types bytes type with
      | .ok value => return (.value value, none)
      | .error e => throw (.boundary (.codec e))

/-- What is left to be done while an action is performed. -/
inductive Task where
  | perform (payload : List UInt8) (action : ScriptAction)
  | report (answer : Answer)

/-- The session with an event more. -/
def emit (s : Session) (event : Event) : Session := { s with events := s.events ++ [event] }

/-- Performs an action and reports the payload of a call that it resolves. What the callback of
that call has to do comes back as tasks. -/
def act (payload : Option (List UInt8)) (action : ScriptAction) (s : Session) :
    Answer × List Task × Session :=
  match perform payload action s with
  | .ok (reply, none) s => (.ok reply, [], s)
  | .ok (reply, some (bytes, callback)) s =>
    (.ok reply, callback.map (.perform bytes), s.emit (.payload bytes))
  | .error e s => (.error e, [], s)

/-- Works off tasks. An action makes way for what its callback has to do and for the report of its
answer. -/
def work : (fuel : Nat) → List Task → Session → Session
  | 0, _, s | _, [], s => s
  | fuel + 1, .report answer :: rest, s => work fuel rest (s.emit (.answer answer))
  | fuel + 1, .perform payload action :: rest, s =>
    let (answer, tasks, s) := act (some payload) action s
    work fuel (tasks ++ .report answer :: rest) s

/-- The number of actions in the callbacks that wait. -/
def waiting (s : Session) : Nat :=
  s.calls.pending.foldr (fun p n => ScriptAction.countAll p.callback + n) 0

/-- Performs an action of the script, with all that its callbacks do. Every action of a waiting
callback is performed and reported at most once, which bounds the number of tasks. -/
def step (action : ScriptAction) (s : Session) : Answer × Session :=
  let (answer, tasks, s') := act none action { s with events := [] }
  (answer, work (2 * (s.waiting + action.count) + 1) tasks s')

end Session

end WasmBridge
