import WasmBridge.Main
import WasmBridge.Memory.Session
import WasmBridge.Output.FileTree
import WasmBridge.Schema.TypeDef.Describe
import WasmBridge.Proofs.Memory.Bytes
import WasmBridge.Proofs.Memory.FatPtr
import WasmBridge.Proofs.Memory.Effects
import WasmBridge.Proofs.Memory.Records
import WasmBridge.Proofs.Memory.Interleaving
import WasmBridge.Proofs.Bindings.Signatures
import WasmBridge.Proofs.Wire.Canonical
import WasmBridge.Proofs.Wire.Entries
import WasmBridge.Proofs.Wire.Readable
import WasmBridge.Proofs.Wire.RoundTrip
import WasmBridge.Proofs.Wire.Places
import WasmBridge.Proofs.Schema.Resolution
import WasmBridge.Proofs.Wire.Faults
import WasmBridge.Proofs.Wire.Soundness
import WasmBridge.Proofs.Bindings.Declarations
import WasmBridge.Proofs.Bindings.Accepted
import WasmBridge.Proofs.Bindings.Distinct
import WasmBridge.Proofs.Wire.Tags
import WasmBridge.Proofs.Wire.Chains
import WasmBridge.Proofs.Wire.Formats
import WasmBridge.Proofs.Wire.Unpacked
import WasmBridge.Proofs.Wire.Untrusted
import WasmBridge.Proofs.Text.Marks
import WasmBridge.Proofs.Bindings.ReadBack
import WasmBridge.Proofs.Bindings.Keys
import WasmBridge.Proofs.Memory.Steps
import WasmBridge.Proofs.Memory.Inert
import WasmBridge.Proofs.Memory.Registrations
import WasmBridge.Proofs.Memory.Scripts
import WasmBridge.Proofs.Memory.Nesting
import WasmBridge.Proofs.Bindings.Refusals
import WasmBridge.Proofs.Bindings.Unresolved
import WasmBridge.Proofs.Bindings.Omission
import WasmBridge.Proofs.Schema.Reachability
import WasmBridge.Proofs.Interface.Inferred
import WasmBridge.Proofs.Interface.Escapes
import WasmBridge.Proofs.Wire.Packed
import WasmBridge.Proofs.Wire.Transparent
import WasmBridge.Proofs.Bindings.Members
import WasmBridge.Proofs.Bindings.Methods
import WasmBridge.Proofs.Bindings.Apart
import WasmBridge.Proofs.Bindings.Boundary
import WasmBridge.Proofs.Memory.Isolation
import WasmBridge.Proofs.Memory.Stale
import WasmBridge.Proofs.Memory.Passing
import WasmBridge.Proofs.Memory.Failures
import WasmBridge.Proofs.Wire.MapKeys
import WasmBridge.Proofs.Output.Kept
import WasmBridge.Proofs.Bindings.Scopes
import WasmBridge.Proofs.Bindings.Parameters
import WasmBridge.Proofs.Wire.SharedKeys
import WasmBridge.Proofs.TypeIdent.Reading
import WasmBridge.Proofs.Wire.Decoded
import WasmBridge.Proofs.Wire.SentAgain
import WasmBridge.Proofs.Wire.Unsent
import WasmBridge.Proofs.Wire.MoreRoom
import WasmBridge.Proofs.Wire.Untagged
import WasmBridge.Proofs.TypeIdent.Writing
import WasmBridge.Proofs.Bindings.Formatting
import WasmBridge.Proofs.Casing.Conventions
import WasmBridge.Proofs.Schema.Rearranged
import WasmBridge.Proofs.Bindings.Rearranged
import WasmBridge.Proofs.Bindings.Tokens
import WasmBridge.Proofs.Text.Letters
import WasmBridge.Proofs.Bindings.Usable
import WasmBridge.Proofs.Wire.EncodingRoom
import WasmBridge.Proofs.Bindings.Encodable
import WasmBridge.Proofs.Memory.Requests
import WasmBridge.Proofs.Memory.Leftovers
import WasmBridge.Proofs.Wire.Termination
import WasmBridge.Proofs.Wire.UnknownKeys
import WasmBridge.Proofs.Bindings.Mirrored
