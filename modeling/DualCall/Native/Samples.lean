import DualCall.Native.Library

namespace DualCall.Samples

open NativeFunction

/-- The sum of products in which every argument of a mixed signature counts with a factor of its
    own, added from the left. -/
def mix (r : Registers) : Binary64 :=
  let term (x : Binary64) (factor : Int) : Binary64 := x.mul (.ofInt factor)
  let a : Binary64 := .ofInt (r.word 0).toUInt8.toInt8.toInt
  let x : Binary64 := (Binary32.encode (r.single 0)).widen
  let b : Binary64 := .ofInt (r.word 1).toUInt16.toNat
  let y : Binary64 := .encode (r.double 1)
  let c : Binary64 := .ofInt (r.int64 2).toInt
  let d : Binary64 := .ofInt (if (r.word 3).toUInt8 = 0 then 0 else 1)
  ((((a.add (term x 2)).add (term b 3)).add (term y 5)).add (term c 7)).add (term d 11)

/-- Call the code at an address twice, the second time with its own result. -/
def applyTwice : NativeFunction := fun args memory =>
  let r := Registers.ofScalars args
  .call (r.word 0) [.i32 (r.int32 1)] memory fun slot memory =>
    .call (r.word 0) [.i32 slot.toUInt32.toInt32] memory .finish

def all : List Exported := [
  ⟨"nothing", ofEffect fun _ memory => memory⟩,
  ⟨"increment", ofInt32 fun r => r.int32 0 + 1⟩,
  ⟨"add3", ofInt32 fun r => r.int32 0 + r.int32 1 + r.int32 2⟩,
  ⟨"scale", ofDouble fun r => (r.double 0).mul .double (r.double 1)⟩,
  ⟨"widen", ofInt64 fun r =>
    (r.word 0).toUInt8.toUInt64.toInt64 + (r.word 1).toUInt16.toInt16.toInt64 +
      (r.word 2).toUInt32.toUInt64.toInt64⟩,
  ⟨"is_positive", ofScalar fun r => .u8 (if 0 < r.int64 0 then 1 else 0)⟩,
  ⟨"not", ofScalar fun r => .u8 (if (r.word 0).toUInt8 = 0 then 1 else 0)⟩,
  ⟨"max_u64", ofScalar fun _ => .u64 0xffffffffffffffff⟩,
  ⟨"max_u32", ofScalar fun _ => .u32 0xffffffff⟩,
  ⟨"identity_i8", ofScalar fun r => .i8 (r.word 0).toUInt8.toInt8⟩,
  ⟨"identity_u8", ofScalar fun r => .u8 (r.word 0).toUInt8⟩,
  ⟨"identity_i16", ofScalar fun r => .i16 (r.word 0).toUInt16.toInt16⟩,
  ⟨"identity_u16", ofScalar fun r => .u16 (r.word 0).toUInt16⟩,
  ⟨"identity_i32", ofInt32 fun r => r.int32 0⟩,
  ⟨"identity_u32", ofScalar fun r => .u32 (r.word 0).toUInt32⟩,
  ⟨"identity_i64", ofInt64 fun r => r.int64 0⟩,
  ⟨"identity_u64", ofScalar fun r => .u64 (r.word 0)⟩,
  ⟨"identity_f32", ofSingle fun r => r.single 0⟩,
  ⟨"identity_f64", ofDouble fun r => r.double 0⟩,
  ⟨"identity_ptr", ofScalar fun r => .pointer (r.word 0)⟩,
  ⟨"store", ofEffect fun r memory => memory.setInt32 (r.word 0) (r.int32 1)⟩,
  ⟨"load", ofMemory fun r memory => (.i32 (memory.int32 (r.word 0)), memory)⟩,
  ⟨"apply_twice", applyTwice⟩,
  ⟨"mix", ofScalar fun r => .f64 (mix r)⟩]

/-- The address of the first sample. -/
def start : UInt64 := 0x560000000000

/-- The pointer to a sample. -/
def lookup? (name : String) : Option NativePointer :=
  (Library.addressIn? start all name).map fun address => ⟨address, none⟩

end DualCall.Samples
