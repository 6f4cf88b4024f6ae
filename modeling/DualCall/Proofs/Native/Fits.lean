import DualCall.Proofs.Native.Reading
import Mathlib.Algebra.Group.Int.Defs

namespace DualCall

/-- The integers that an integer type has. An unsigned type of 64 bits is left out: it takes every
    integer as a pattern of bits. -/
def NativeType.HasInteger (type : NativeType) (n : Int) : Prop :=
  match type with
  | .i8 | .i16 | .i32 | .i64 => -2 ^ (type.bits - 1) ≤ n ∧ n < 2 ^ (type.bits - 1)
  | .u8 | .u16 | .u32 => 0 ≤ n ∧ n < 2 ^ type.bits
  | .void | .bool | .u64 | .f32 | .f64 | .pointer => False

namespace Value

/-- The integer that a value is, or that a truth value counts as. -/
def integer? : Value → Option Int
  | .int n => some n.toInt
  | .bool b => some (if b then 1 else 0)
  | .null | .float _ | .pointer _ | .procedure _ | .unified _ => none

/-- The address that a value is passed as. -/
def address? : Value → Option Nat
  | .null => some 0
  | .pointer address => some address.toNat
  | .int n => if 0 ≤ n.toInt then some n.toInt.toNat else none
  | .unified c => some c.pointer.address.toNat
  | .bool _ | .float _ | .procedure _ => none

/-- The values that a type takes. -/
def Fits (type : NativeType) (value : Value) : Prop :=
  match type with
  | .void => False
  | .bool | .u64 => ∃ n, value.integer? = some n
  | .i8 | .u8 | .i16 | .u16 | .i32 | .u32 | .i64 =>
    ∃ n, value.integer? = some n ∧ type.HasInteger n
  | .f32 | .f64 => (∃ x, value = .float x) ∨ ∃ n, value = .int n
  | .pointer => ∃ address, value.address? = some address

theorem integer?_eq (value : Value) : value.integer? = value.asInt?.map Int64.toInt := by
  cases value with
  | bool b => cases b <;> rfl
  | _ => rfl

end Value

/-- The pattern of bits of an integer is its residue. -/
theorem Int64.toNat_toUInt64 (n : Int64) : (n.toUInt64.toNat : Int) = n.toInt % 2 ^ 64 := by
  have hbits : n.toInt = (n.toUInt64.toNat : Int).bmod (2 ^ 64) := by
    rw [← Int64.toInt_toBitVec, BitVec.toInt_eq_toNat_bmod]
    rfl
  have hlt := n.toUInt64.toNat_lt
  have hmod : (n.toUInt64.toNat : Int).bmod (2 ^ 64) % (2 ^ 64 : Nat) =
      n.toUInt64.toNat % (2 ^ 64 : Nat) := Int.bmod_emod
  rw [hbits]
  omega

theorem Int64.toNat_toUInt64_of_nonneg {n : Int64} (hn : 0 ≤ n.toInt) :
    n.toUInt64.toNat = n.toInt.toNat := by
  have hresidue := Int64.toNat_toUInt64 n
  have hlt := n.toInt_lt
  omega

namespace Scalar

/-- A value has a scalar of a range exactly when its integer lies there. -/
theorem ofRange?_eq_some_iff {low high : Int} {build : Int → Scalar} {value : Value} {x : Scalar} :
    ofRange? low high build value = some x ↔
      ∃ n, value.integer? = some n ∧ (low ≤ n ∧ n ≤ high) ∧ build n = x := by
  rw [ofRange?, Value.integer?_eq, Option.bind_eq_some_iff]
  constructor
  · rintro ⟨n, hn, hx⟩
    split at hx
    · next hrange => exact ⟨n.toInt, by simp [hn], hrange, Option.some.inj hx⟩
    · cases hx
  · rintro ⟨n, hn, hrange, rfl⟩
    obtain ⟨m, hm, rfl⟩ := Option.map_eq_some_iff.mp hn
    exact ⟨m, hm, if_pos hrange⟩

theorem exists_ofRange?_iff {low high : Int} {build : Int → Scalar} {value : Value} :
    (∃ x, ofRange? low high build value = some x) ↔
      ∃ n, value.integer? = some n ∧ low ≤ n ∧ n ≤ high := by
  simp only [ofRange?_eq_some_iff]
  constructor
  · rintro ⟨x, n, hn, hrange, -⟩
    exact ⟨n, hn, hrange⟩
  · rintro ⟨n, hn, hrange⟩
    exact ⟨build n, n, hn, hrange, rfl⟩

theorem map_addressOf? (value : Value) :
    (addressOf? value).map UInt64.toNat = value.address? := by
  cases value with
  | int n =>
    by_cases hn : 0 ≤ n.toInt
    · simp [addressOf?, Value.address?, hn, Int64.toNat_toUInt64_of_nonneg hn]
    · simp [addressOf?, Value.address?, hn]
  | _ => rfl

/-- A value has a scalar of a type exactly when the type takes it. -/
theorem exists_ofValue?_iff {type : NativeType} {value : Value} :
    (∃ x, ofValue? type value = some x) ↔ value.Fits type := by
  cases type with
  | void => simp [ofValue?, Value.Fits]
  | i8 | i16 | i32 =>
    simp only [ofValue?, exists_ofRange?_iff, Value.Fits]
    refine exists_congr fun n => and_congr_right fun _ => ?_
    simp only [NativeType.HasInteger, NativeType.bits, Int8.toInt_minValue, Int8.toInt_maxValue,
      Int16.toInt_minValue, Int16.toInt_maxValue, Int32.toInt_minValue, Int32.toInt_maxValue]
    omega
  | u8 | u16 | u32 =>
    simp only [ofValue?, exists_ofRange?_iff, Value.Fits]
    refine exists_congr fun n => and_congr_right fun _ => ?_
    simp only [NativeType.HasInteger, NativeType.bits, UInt8.size, UInt16.size, UInt32.size]
    omega
  | i64 =>
    simp only [ofValue?, Value.Fits, ← Option.isSome_iff_exists, Option.isSome_map]
    rw [Option.isSome_iff_exists, Value.integer?_eq]
    constructor
    · rintro ⟨n, hn⟩
      exact ⟨n.toInt, by simp [hn], n.le_toInt, n.toInt_lt⟩
    · rintro ⟨n, hn, -⟩
      obtain ⟨m, hm, -⟩ := Option.map_eq_some_iff.mp hn
      exact ⟨m, hm⟩
  | bool | u64 =>
    simp only [ofValue?, Value.Fits, Value.integer?_eq, ← Option.isSome_iff_exists,
      Option.isSome_map]
  | f32 | f64 =>
    simp only [ofValue?, Value.Fits]
    cases value <;> simp [Value.asFloat?]
  | pointer =>
    simp only [ofValue?, Value.Fits, ← map_addressOf?, ← Option.isSome_iff_exists,
      Option.isSome_map]

theorem isSome_ofValue?_iff {type : NativeType} {value : Value} :
    (ofValue? type value).isSome ↔ value.Fits type := by
  rw [Option.isSome_iff_exists, exists_ofValue?_iff]

theorem ofValue?_eq_none_iff {type : NativeType} {value : Value} :
    ofValue? type value = none ↔ ¬ value.Fits type := by
  rw [← isSome_ofValue?_iff, Option.not_isSome_iff_eq_none]

theorem marshal_mismatch {position : Nat} {type : NativeType} {value : Value}
    (htype : type ≠ .void) (hfits : ¬ value.Fits type) :
    marshal position type value = .error (.typeMismatch position type value.describe) := by
  unfold marshal
  rw [ofValue?_eq_none_iff.mpr hfits]
  cases type with
  | void => exact absurd rfl htype
  | _ => rfl

end Scalar

instance {type : NativeType} {value : Value} : Decidable (value.Fits type) :=
  decidable_of_iff _ Scalar.isSome_ofValue?_iff

end DualCall
