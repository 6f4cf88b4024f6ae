import DualCall.SpecList

namespace DualCall

/-- An argument or a result as native code sees it. Truth values travel as bytes. -/
inductive Scalar where
  | i8 (x : Int8)
  | u8 (x : UInt8)
  | i16 (x : Int16)
  | u16 (x : UInt16)
  | i32 (x : Int32)
  | u32 (x : UInt32)
  | i64 (x : Int64)
  | u64 (x : UInt64)
  | f32 (x : Binary32)
  | f64 (x : Binary64)
  | pointer (address : UInt64)
deriving DecidableEq, Repr

namespace Scalar

/-- A value that stands for an integer in a range, as a scalar. -/
def ofRange? (low high : Int) (build : Int → Scalar) (value : Value) : Option Scalar :=
  value.asInt?.bind fun n => if low ≤ n.toInt ∧ n.toInt ≤ high then some (build n.toInt) else none

/-- The address that a value can be passed as: that of the pointer facet of a callable, and an
    integer that is not negative, besides what stands for an address anyway. -/
def addressOf? : Value → Option UInt64
  | .unified c => some c.pointer.address
  | .int n => if 0 ≤ n.toInt then some n.toUInt64 else none
  | value => value.asPointer?

/-- A value as a scalar of a type, if the type has it. -/
def ofValue? (type : NativeType) (value : Value) : Option Scalar :=
  match type with
  | .void => none
  | .bool => value.asInt?.map fun n => .u8 (if n = 0 then 0 else 1)
  | .i8 => ofRange? Int8.minValue.toInt Int8.maxValue.toInt (fun n => .i8 (Int8.ofInt n)) value
  | .u8 => ofRange? 0 (UInt8.size - 1) (fun n => .u8 (UInt8.ofNat n.toNat)) value
  | .i16 => ofRange? Int16.minValue.toInt Int16.maxValue.toInt (fun n => .i16 (Int16.ofInt n)) value
  | .u16 => ofRange? 0 (UInt16.size - 1) (fun n => .u16 (UInt16.ofNat n.toNat)) value
  | .i32 => ofRange? Int32.minValue.toInt Int32.maxValue.toInt (fun n => .i32 (Int32.ofInt n)) value
  | .u32 => ofRange? 0 (UInt32.size - 1) (fun n => .u32 (UInt32.ofNat n.toNat)) value
  | .i64 => value.asInt?.map .i64
  | .u64 => value.asInt?.map fun n => .u64 n.toUInt64
  | .f32 => value.asFloat?.map fun x => .f32 x.narrow
  | .f64 => value.asFloat?.map .f64
  | .pointer => (addressOf? value).map .pointer

/-- The argument at a position as a scalar of its declared type. -/
def marshal (position : Nat) (type : NativeType) (value : Value) : Except CallError Scalar :=
  match type, ofValue? type value with
  | .void, _ => .error (.unsupportedType ("argument " ++ toString position) .void)
  | _, some scalar => .ok scalar
  | _, none => .error (.typeMismatch position type value.describe)

/-- The arguments from a position on as scalars; the first that has none is reported. -/
def marshalFrom (position : Nat) : List NativeType → List Value → Except CallError (List Scalar)
  | type :: types, value :: values =>
    match marshal position type value with
    | .error e => .error e
    | .ok scalar =>
      match marshalFrom (position + 1) types values with
      | .error e => .error e
      | .ok scalars => .ok (scalar :: scalars)
  | _, _ => .ok []

/-- The word that holds a scalar in its low bytes, as an argument is stored for native code. -/
def word : Scalar → UInt64
  | .i8 x => x.toUInt8.toUInt64
  | .u8 x => x.toUInt64
  | .i16 x => x.toUInt16.toUInt64
  | .u16 x => x.toUInt64
  | .i32 x => x.toUInt32.toUInt64
  | .u32 x => x.toUInt64
  | .i64 x => x.toUInt64
  | .u64 x => x
  | .f32 x => x.bits.toUInt64
  | .f64 x => x.bits
  | .pointer address => address

/-- A return slot after a scalar was stored there. Integers fill the whole slot, with their sign or
    with zeros; a number of 32 bits leaves the upper half as it was. -/
def store (scalar : Scalar) (slot : UInt64) : UInt64 :=
  match scalar with
  | .i8 x => x.toInt64.toUInt64
  | .u8 x => x.toUInt64
  | .i16 x => x.toInt64.toUInt64
  | .u16 x => x.toUInt64
  | .i32 x => x.toInt64.toUInt64
  | .u32 x => x.toUInt64
  | .i64 x => x.toUInt64
  | .u64 x => x
  | .f32 x => (slot >>> 32) <<< 32 ||| x.bits.toUInt64
  | .f64 x => x.bits
  | .pointer address => address

end Scalar

namespace Value

/-- The value of an argument of a type that is stored in the low bytes of a word. -/
def ofWord (type : NativeType) (word : UInt64) : Value :=
  match type with
  | .void => .null
  | .bool => .bool (word.toUInt8 != 0)
  | .i8 => .int word.toUInt8.toInt8.toInt64
  | .u8 => .int word.toUInt8.toUInt64.toInt64
  | .i16 => .int word.toUInt16.toInt16.toInt64
  | .u16 => .int word.toUInt16.toUInt64.toInt64
  | .i32 => .int word.toUInt32.toInt32.toInt64
  | .u32 => .int word.toUInt32.toUInt64.toInt64
  | .i64 => .int word.toInt64
  | .u64 => .int word.toInt64
  | .f32 => .float (Binary32.mk word.toUInt32).widen
  | .f64 => .float ⟨word⟩
  | .pointer => .pointer word

/-- The value of a result of a type that a callee left in a return slot. An unsigned result of 64
    bits keeps its bits and so may be negative. -/
def ofSlot (ret : NativeType) (slot : UInt64) : Value :=
  let unsigned (size : Nat) : Value := .int (Int64.ofNat (slot.toNat % size))
  let signed (size : Nat) : Value := .int (Int64.ofInt ((slot.toNat : Int).bmod size))
  match ret with
  | .void => .null
  | .bool => .bool (slot.toNat % UInt8.size != 0)
  | .i8 => signed UInt8.size
  | .u8 => unsigned UInt8.size
  | .i16 => signed UInt16.size
  | .u16 => unsigned UInt16.size
  | .i32 => signed UInt32.size
  | .u32 => unsigned UInt32.size
  | .i64 => signed UInt64.size
  | .u64 => signed UInt64.size
  | .f32 => .float (Binary32.mk (UInt32.ofNat slot.toNat)).widen
  | .f64 => .float ⟨slot⟩
  | .pointer => .pointer slot

end Value

/-- No argument can have the void type. -/
def checkArgTypes (context : String) (types : List NativeType) : Except CallError Unit :=
  if .void ∈ types then .error (.unsupportedType (context ++ ": argument") .void) else .ok ()

end DualCall
