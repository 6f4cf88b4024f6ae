import DualCall.Native.Scalar
import DualCall.Proofs.Binary.Conversion
import Mathlib.Algebra.Group.Nat.Defs

namespace DualCall

namespace NativeType

/-- The width in bits of what is stored of a type. -/
def bits : NativeType → Nat
  | .void => 0
  | .bool | .i8 | .u8 => 8
  | .i16 | .u16 => 16
  | .i32 | .u32 | .f32 => 32
  | .i64 | .u64 | .f64 | .pointer => 64

/-- The type of the scalars as which values of a type travel. -/
def carrier : NativeType → NativeType
  | .bool => .u8
  | type => type

end NativeType

namespace Scalar

/-- The type that a scalar is marked with. -/
def type : Scalar → NativeType
  | .i8 _ => .i8
  | .u8 _ => .u8
  | .i16 _ => .i16
  | .u16 _ => .u16
  | .i32 _ => .i32
  | .u32 _ => .u32
  | .i64 _ => .i64
  | .u64 _ => .u64
  | .f32 _ => .f32
  | .f64 _ => .f64
  | .pointer _ => .pointer

/-- The scalar of a type in the low bits of a word, in its normal form: a truth value is zero or
    one, and what is no number of 32 bits has its quiet bit set. -/
def ofWord? (type : NativeType) (word : UInt64) : Option Scalar :=
  match type with
  | .void => none
  | .bool => some (.u8 (if word.toUInt8 = 0 then 0 else 1))
  | .i8 => some (.i8 word.toUInt8.toInt8)
  | .u8 => some (.u8 word.toUInt8)
  | .i16 => some (.i16 word.toUInt16.toInt16)
  | .u16 => some (.u16 word.toUInt16)
  | .i32 => some (.i32 word.toUInt32.toInt32)
  | .u32 => some (.u32 word.toUInt32)
  | .i64 => some (.i64 word.toInt64)
  | .u64 => some (.u64 word)
  | .f32 => some (.f32 (Binary32.mk word.toUInt32).quieted)
  | .f64 => some (.f64 ⟨word⟩)
  | .pointer => some (.pointer word)

theorem ofRange?_int {low high : Int} {build : Int → Scalar} {n : Int64}
    (hlow : low ≤ n.toInt) (hhigh : n.toInt ≤ high) :
    ofRange? low high build (.int n) = some (build n.toInt) := by
  simp [ofRange?, Value.asInt?, hlow, hhigh]

/-- A word below the sign bit is the same number when it is read with a sign. -/
theorem toInt_toInt64_of_lt {word : UInt64} (hword : word.toNat < 2 ^ 63) :
    word.toInt64.toInt = word.toNat := by
  have hmod : word.toInt64.toInt = (word.toNat : Int).bmod (2 ^ 64) := by
    rw [← Int64.toInt_toBitVec, UInt64.toBitVec_toInt64, BitVec.toInt_eq_toNat_bmod]
    rfl
  rw [hmod]
  exact Int.bmod_eq_of_le (by omega) (by omega)

theorem ofRange?_unsigned (size : Nat) (hsize : size ≤ 2 ^ 63) (build : Int → Scalar)
    {word : UInt64} (hword : word.toNat < size) :
    ofRange? 0 (size - 1) build (.int word.toInt64) = some (build word.toNat) := by
  have hn := toInt_toInt64_of_lt (Nat.lt_of_lt_of_le hword hsize)
  rw [ofRange?_int (by omega) (by omega), hn]

/-- Every word is read as a value that the type of the reading takes back. -/
theorem ofValue?_ofWord (type : NativeType) (word : UInt64) :
    ofValue? type (Value.ofWord type word) = ofWord? type word := by
  cases type with
  | void => rfl
  | bool =>
    by_cases hzero : word.toUInt8 = 0 <;>
      simp [ofValue?, Value.ofWord, ofWord?, Value.asInt?, hzero]
  | i8 =>
    simp only [ofValue?, Value.ofWord, ofWord?]
    rw [ofRange?_int, Int8.toInt_toInt64, Int8.ofInt_toInt]
    · simpa only [Int8.toInt_toInt64] using Int8.minValue_le_toInt _
    · simpa only [Int8.toInt_toInt64] using Int8.toInt_le _
  | i16 =>
    simp only [ofValue?, Value.ofWord, ofWord?]
    rw [ofRange?_int, Int16.toInt_toInt64, Int16.ofInt_toInt]
    · simpa only [Int16.toInt_toInt64] using Int16.minValue_le_toInt _
    · simpa only [Int16.toInt_toInt64] using Int16.toInt_le _
  | i32 =>
    simp only [ofValue?, Value.ofWord, ofWord?]
    rw [ofRange?_int, Int32.toInt_toInt64, Int32.ofInt_toInt]
    · simpa only [Int32.toInt_toInt64] using Int32.minValue_le_toInt _
    · simpa only [Int32.toInt_toInt64] using Int32.toInt_le _
  | u8 =>
    simp only [ofValue?, Value.ofWord, ofWord?]
    rw [ofRange?_unsigned UInt8.size (by decide)]
    · simp only [UInt8.toNat_toUInt64, Int.toNat_natCast, UInt8.ofNat_toNat]
    · simpa only [UInt8.toNat_toUInt64] using word.toUInt8.toNat_lt
  | u16 =>
    simp only [ofValue?, Value.ofWord, ofWord?]
    rw [ofRange?_unsigned UInt16.size (by decide)]
    · simp only [UInt16.toNat_toUInt64, Int.toNat_natCast, UInt16.ofNat_toNat]
    · simpa only [UInt16.toNat_toUInt64] using word.toUInt16.toNat_lt
  | u32 =>
    simp only [ofValue?, Value.ofWord, ofWord?]
    rw [ofRange?_unsigned UInt32.size (by decide)]
    · simp only [UInt32.toNat_toUInt64, Int.toNat_natCast, UInt32.ofNat_toNat]
    · simpa only [UInt32.toNat_toUInt64] using word.toUInt32.toNat_lt
  | i64 => rfl
  | u64 => rfl
  | f32 => simp [ofValue?, Value.ofWord, ofWord?, Value.asFloat?, Binary32.narrow_widen]
  | f64 => rfl
  | pointer => rfl

theorem ofRange?_eq_some {low high : Int} {build : Int → Scalar} {value : Value} {x : Scalar}
    (hx : ofRange? low high build value = some x) : ∃ n, x = build n := by
  obtain ⟨n, -, hn⟩ := Option.bind_eq_some_iff.mp hx
  split at hn
  · exact ⟨n.toInt, (Option.some.inj hn).symm⟩
  · cases hn

/-- What a value is marshalled to is in its normal form, so it is found again in its own word. -/
theorem ofWord?_word {type : NativeType} {value : Value} {x : Scalar}
    (hx : ofValue? type value = some x) : ofWord? type x.word = some x := by
  cases type with
  | void => cases hx
  | bool =>
    obtain ⟨n, -, rfl⟩ := Option.map_eq_some_iff.mp hx
    by_cases hzero : n = 0 <;> simp [ofWord?, word, hzero]
  | i8 | i16 | i32 | u8 | u16 | u32 =>
    simp only [ofValue?] at hx
    obtain ⟨n, rfl⟩ := ofRange?_eq_some hx
    simp [ofWord?, word]
  | i64 | u64 | f64 | pointer =>
    obtain ⟨_, -, rfl⟩ := Option.map_eq_some_iff.mp hx
    rfl
  | f32 =>
    obtain ⟨y, -, rfl⟩ := Option.map_eq_some_iff.mp hx
    simp [ofWord?, word, y.quieted_narrow]

/-- A value that was marshalled and read is marshalled to the same scalar again. -/
theorem ofValue?_ofWord_word {type : NativeType} {value : Value} {x : Scalar}
    (hx : ofValue? type value = some x) : ofValue? type (Value.ofWord type x.word) = some x := by
  rw [ofValue?_ofWord, ofWord?_word hx]

theorem type_of_ofWord? {type : NativeType} {word : UInt64} {x : Scalar}
    (hx : ofWord? type word = some x) : x.type = type.carrier := by
  cases type with
  | void => cases hx
  | _ =>
    cases hx
    rfl

/-- A scalar takes over the bits of the word, but of a truth value only whether there are any. -/
theorem word_of_ofWord? {type : NativeType} {word : UInt64} {x : Scalar}
    (hx : ofWord? type word = some x) (hbool : type ≠ .bool)
    (hnumber : ¬ (type = .f32 ∧ (Binary32.mk word.toUInt32).isNaN)) :
    x.word.toNat = word.toNat % 2 ^ type.bits := by
  cases type with
  | void => cases hx
  | bool => exact absurd rfl hbool
  | i8 | u8 | i16 | u16 | i32 | u32 =>
    cases hx
    simp [Scalar.word, NativeType.bits]
  | i64 | u64 | f64 | pointer =>
    cases hx
    exact (Nat.mod_eq_of_lt word.toNat_lt).symm
  | f32 =>
    cases hx
    have hnan : (Binary32.mk word.toUInt32).isNaN = false := by simpa using hnumber
    simp [Scalar.word, NativeType.bits, Binary32.quieted_of_not_nan hnan]

theorem word_of_ofWord?_bool {word : UInt64} {x : Scalar} (hx : ofWord? .bool word = some x) :
    x.word.toNat = if word.toNat % 2 ^ 8 = 0 then 0 else 1 := by
  cases hx
  have hzero : word.toUInt8 = 0 ↔ word.toNat % 2 ^ 8 = 0 := by
    rw [← UInt8.toNat_inj, UInt64.toNat_toUInt8]
    rfl
  by_cases h : word.toUInt8 = 0
  · rw [if_pos (hzero.mp h)]
    simp [Scalar.word, h]
  · rw [if_neg (mt hzero.mpr h)]
    simp [Scalar.word, h]

theorem word_of_ofWord?_nan {word : UInt64} {x : Scalar} (hx : ofWord? .f32 word = some x)
    (hnan : (Binary32.mk word.toUInt32).isNaN) :
    x.word.toNat = word.toNat % 2 ^ 32 ||| 2 ^ 22 := by
  cases hx
  simp [Scalar.word, Binary32.quieted, hnan]

theorem marshal_eq_ok_iff {position : Nat} {type : NativeType} {value : Value} {x : Scalar} :
    marshal position type value = .ok x ↔ ofValue? type value = some x := by
  unfold marshal
  cases hx : ofValue? type value with
  | none => cases type <;> simp
  | some y => cases type <;> simp_all [ofValue?]

/-- Every word is read as a value that is marshalled back to a scalar of the type, with the bits
    that the type has in the word. Only a truth value is reduced to zero or one, and only the
    quiet bit of what is no number of 32 bits may change. So every value that can be marshalled is
    read as one that marshalling and reading leave as it is. -/
theorem marshal_ofWord_lossless {type : NativeType} (htype : type ≠ .void) :
    (∀ position word, ∃ x, marshal position type (Value.ofWord type word) = .ok x ∧
      x.type = type.carrier ∧ x.type.bits = type.bits ∧
      (type ≠ .bool → ¬ (type = .f32 ∧ (Binary32.mk word.toUInt32).isNaN) →
        x.word.toNat = word.toNat % 2 ^ type.bits) ∧
      (type = .bool → x.word.toNat = if word.toNat % 2 ^ type.bits = 0 then 0 else 1) ∧
      (type = .f32 → (Binary32.mk word.toUInt32).isNaN →
        x.word.toNat = word.toNat % 2 ^ type.bits ||| 2 ^ 22)) ∧
    ∀ position value x, marshal position type value = .ok x →
      ∀ again, marshal again type (Value.ofWord type x.word) = .ok x ∧
        ∀ y, marshal again type (Value.ofWord type x.word) = .ok y →
          Value.ofWord type y.word = Value.ofWord type x.word := by
  refine ⟨fun position word => ?_, fun position value x hx again => ?_⟩
  · obtain ⟨x, hx⟩ : ∃ x, ofWord? type word = some x := by
      cases type with
      | void => exact absurd rfl htype
      | _ => exact ⟨_, rfl⟩
    have htypes := type_of_ofWord? hx
    refine ⟨x, marshal_eq_ok_iff.mpr (by rw [ofValue?_ofWord, hx]), htypes, ?_,
      word_of_ofWord? hx, ?_, ?_⟩
    · rw [htypes]
      cases type <;> rfl
    · rintro rfl
      exact word_of_ofWord?_bool hx
    · rintro rfl hnan
      exact word_of_ofWord?_nan hx hnan
  · have hback : marshal again type (Value.ofWord type x.word) = .ok x :=
      marshal_eq_ok_iff.mpr (ofValue?_ofWord_word (marshal_eq_ok_iff.mp hx))
    refine ⟨hback, fun y hy => ?_⟩
    rw [hback] at hy
    cases hy
    rfl

/-- The largest unsigned word is read as minus one and comes back as it was, and a truth value that
    is passed as a number is read as that number from then on. -/
theorem marshal_ofWord_lossless_u64 :
    NativeType.u64 ≠ .void ∧
    (∃ x, marshal 1 .u64 (Value.ofWord .u64 0xffffffffffffffff) = .ok x ∧
      x.word.toNat = 2 ^ 64 - 1) ∧
    marshal 0 .u64 (.bool true) = .ok (.u64 1) ∧ marshal 2 .u64 (.int 1) = .ok (.u64 1) := by
  have htype : NativeType.u64 ≠ .void := by decide
  have htrue : marshal 0 .u64 (.bool true) = .ok (.u64 1) := rfl
  obtain ⟨hwords, hvalues⟩ := marshal_ofWord_lossless htype
  obtain ⟨x, hx, -, -, hword, -⟩ := hwords 1 0xffffffffffffffff
  exact ⟨htype, ⟨x, hx, hword (by decide) (by decide)⟩, htrue, (hvalues 0 _ _ htrue 2).1⟩

end Scalar

end DualCall
