import WasmBridge.Text.Quoted

/-!
# Primitive types

The types that cross the boundary by value: the Boolean, two floats, and signed and unsigned
integers of 8 to 128 bits.
-/

namespace WasmBridge

open Text

/-- A type that crosses the boundary by value. -/
inductive Primitive where
  | bool
  | f32
  | f64
  | i8
  | i16
  | i32
  | i64
  | i128
  | u8
  | u16
  | u32
  | u64
  | u128
  deriving DecidableEq

namespace Primitive

/-- All primitives. -/
def all : List Primitive :=
  [bool, f32, f64, i8, i16, i32, i64, i128, u8, u16, u32, u64, u128]

/-- The name of a primitive. -/
def name : Primitive → Text
  | bool => "bool"
  | f32 => "f32"
  | f64 => "f64"
  | i8 => "i8"
  | i16 => "i16"
  | i32 => "i32"
  | i64 => "i64"
  | i128 => "i128"
  | u8 => "u8"
  | u16 => "u16"
  | u32 => "u32"
  | u64 => "u64"
  | u128 => "u128"

/-- The label of a primitive, its name in capitals. -/
def label : Primitive → Text
  | bool => "BOOL"
  | f32 => "F32"
  | f64 => "F64"
  | i8 => "I8"
  | i16 => "I16"
  | i32 => "I32"
  | i64 => "I64"
  | i128 => "I128"
  | u8 => "U8"
  | u16 => "U16"
  | u32 => "U32"
  | u64 => "U64"
  | u128 => "U128"

/-- The primitive of a name. -/
def ofName? (text : Text) : Option Primitive := all.find? (·.name == text)

/-- What is said of a name that no primitive has. -/
def unknownMessage (text : Text) : Text := quote text ++ " is not a valid Primitive"

/-- The number of bits of a value. -/
def bits : Primitive → Nat
  | bool => 1
  | i8 | u8 => 8
  | i16 | u16 => 16
  | f32 | i32 | u32 => 32
  | f64 | i64 | u64 => 64
  | i128 | u128 => 128

/-- The values are floating-point numbers. -/
def isFloat : Primitive → Bool
  | f32 | f64 => true
  | _ => false

/-- The values are integers with a sign. -/
def isSigned : Primitive → Bool
  | i8 | i16 | i32 | i64 | i128 => true
  | _ => false

/-- A value needs more than a machine word of 32 bits. -/
def isWide (p : Primitive) : Bool := 32 < p.bits

/-- The least integer of an integer type. -/
def least (p : Primitive) : Int := if p.isSigned then -(Nat.pow 2 (p.bits - 1) : Int) else 0

/-- The greatest integer of an integer type. -/
def greatest (p : Primitive) : Int :=
  if p.isSigned then (Nat.pow 2 (p.bits - 1) : Int) - 1 else (Nat.pow 2 p.bits : Int) - 1

end Primitive

end WasmBridge
