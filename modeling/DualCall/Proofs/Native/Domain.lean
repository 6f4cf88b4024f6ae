import DualCall.Proofs.Native.Fits
import DualCall.Proofs.Native.Promotion

namespace DualCall

namespace Value

/-- The integer that native code sees of a value that a type takes: the value's own, whether it is
    zero, its residue or its address. There is none for floating-point types. -/
def carried? (type : NativeType) (value : Value) : Option Int :=
  match type with
  | .bool => value.integer?.map fun n => if n = 0 then 0 else 1
  | .i8 | .u8 | .i16 | .u16 | .i32 | .u32 | .i64 => value.integer?
  | .u64 => value.integer?.map fun n => n % 2 ^ 64
  | .pointer => value.address?.map Int.ofNat
  | .void | .f32 | .f64 => none

/-- The number of 64 bits that an argument of a floating-point type is made from: the value's own,
    or the one nearest to its integer. -/
def Widens (value : Value) (wide : Binary64) : Prop :=
  value = .float wide ∨ ∃ n : Int64, value = .int n ∧ wide.decode.IsNearest .double n.toInt

theorem widens_of_asFloat? {value : Value} {wide : Binary64} (hwide : value.asFloat? = some wide) :
    value.Widens wide := by
  cases value with
  | float =>
    cases hwide
    exact .inl rfl
  | int n =>
    cases hwide
    exact .inr ⟨n, rfl, Binary64.isNearest_ofInt n⟩
  | null | bool | pointer | procedure | unified => cases hwide

end Value

namespace Scalar

/-- The integer that a scalar holds. -/
def integer? : Scalar → Option Int
  | .i8 x => some x.toInt
  | .u8 x => some x.toNat
  | .i16 x => some x.toInt
  | .u16 x => some x.toNat
  | .i32 x => some x.toInt
  | .u32 x => some x.toNat
  | .i64 x => some x.toInt
  | .u64 x => some x.toNat
  | .pointer address => some address.toNat
  | .f32 _ | .f64 _ => none

/-- A scalar of a range holds the integer of its value when it is built so. -/
theorem integer?_of_ofRange? {low high : Int} {build : Int → Scalar} {value : Value} {x : Scalar}
    (hbuild : ∀ n, low ≤ n → n ≤ high → (build n).integer? = some n)
    (hx : ofRange? low high build value = some x) : x.integer? = value.integer? := by
  obtain ⟨n, hn, ⟨hlow, hhigh⟩, rfl⟩ := ofRange?_eq_some_iff.mp hx
  rw [hn, hbuild n hlow hhigh]

/-- The scalar of a value holds the integer that native code is to see. -/
theorem integer?_of_ofValue? {type : NativeType} {value : Value} {x : Scalar}
    (hx : ofValue? type value = some x) : x.integer? = value.carried? type := by
  cases type with
  | void => cases hx
  | i8 =>
    simp only [ofValue?, Int8.toInt_minValue, Int8.toInt_maxValue] at hx
    refine integer?_of_ofRange? (fun n hlow hhigh => ?_) hx
    rw [integer?, Int8.toInt_ofInt_of_le hlow (by omega)]
  | i16 =>
    simp only [ofValue?, Int16.toInt_minValue, Int16.toInt_maxValue] at hx
    refine integer?_of_ofRange? (fun n hlow hhigh => ?_) hx
    rw [integer?, Int16.toInt_ofInt_of_le hlow (by omega)]
  | i32 =>
    simp only [ofValue?, Int32.toInt_minValue, Int32.toInt_maxValue] at hx
    refine integer?_of_ofRange? (fun n hlow hhigh => ?_) hx
    rw [integer?, Int32.toInt_ofInt_of_le hlow (by omega)]
  | u8 =>
    simp only [ofValue?] at hx
    refine integer?_of_ofRange? (fun n hlow hhigh => ?_) hx
    rw [integer?, UInt8.toNat_ofNat_of_lt' (by omega), Int.toNat_of_nonneg hlow]
  | u16 =>
    simp only [ofValue?] at hx
    refine integer?_of_ofRange? (fun n hlow hhigh => ?_) hx
    rw [integer?, UInt16.toNat_ofNat_of_lt' (by omega), Int.toNat_of_nonneg hlow]
  | u32 =>
    simp only [ofValue?] at hx
    refine integer?_of_ofRange? (fun n hlow hhigh => ?_) hx
    rw [integer?, UInt32.toNat_ofNat_of_lt' (by omega), Int.toNat_of_nonneg hlow]
  | i64 =>
    obtain ⟨n, hn, rfl⟩ := Option.map_eq_some_iff.mp hx
    simp [Value.carried?, Value.integer?_eq, hn, integer?]
  | u64 =>
    obtain ⟨n, hn, rfl⟩ := Option.map_eq_some_iff.mp hx
    simp [Value.carried?, Value.integer?_eq, hn, integer?, Int64.toNat_toUInt64]
  | bool =>
    obtain ⟨n, hn, rfl⟩ := Option.map_eq_some_iff.mp hx
    have hzero : n.toInt = 0 ↔ n = 0 := by rw [← Int64.toInt_zero, Int64.toInt_inj]
    by_cases h : n = 0 <;> simp [Value.carried?, Value.integer?_eq, hn, integer?, hzero, h]
  | f32 | f64 =>
    obtain ⟨y, -, rfl⟩ := Option.map_eq_some_iff.mp hx
    rfl
  | pointer =>
    obtain ⟨address, haddress, rfl⟩ := Option.map_eq_some_iff.mp hx
    simp [Value.carried?, ← map_addressOf?, haddress, integer?]

/-- A value is marshalled exactly when the type takes it, at every position. The scalar is one of
    the type and holds the integer of the value: unchanged for the integer types, its residue for
    unsigned words, one or zero for truth values, and the address for pointers. A floating-point
    number is passed on as it is at its full width, and narrowed to the nearest one for 32 bits; an
    integer becomes the nearest number of 64 bits before. What the type does not take is reported
    with its position, the type and the description of the value, and void, which takes nothing, as
    unsupported. -/
theorem marshal_domain (position : Nat) (type : NativeType) (value : Value) :
    ((∃ x, marshal position type value = .ok x) ↔ value.Fits type) ∧
    (∀ x, marshal position type value = .ok x → x.type = type.carrier ∧
      x.integer? = value.carried? type ∧
      (type = .f64 → ∃ wide, value.Widens wide ∧ x = .f64 wide) ∧
      (type = .f32 → ∃ wide narrow, value.Widens wide ∧ wide.NarrowsTo narrow ∧ x = .f32 narrow)) ∧
    (type = .void → marshal position type value =
      .error (.unsupportedType ("argument " ++ toString position) .void)) ∧
    (type ≠ .void → ¬ value.Fits type →
      marshal position type value = .error (.typeMismatch position type value.describe)) := by
  refine ⟨?_, fun x hx => ?_, ?_, fun htype hfits => ?_⟩
  · simp only [marshal_eq_ok_iff, exists_ofValue?_iff]
  · have hvalue := marshal_eq_ok_iff.mp hx
    refine ⟨type_of_ofWord? (ofWord?_word hvalue), integer?_of_ofValue? hvalue, ?_, ?_⟩
    · rintro rfl
      obtain ⟨wide, hwide, rfl⟩ := Option.map_eq_some_iff.mp hvalue
      exact ⟨wide, Value.widens_of_asFloat? hwide, rfl⟩
    · rintro rfl
      obtain ⟨wide, hwide, rfl⟩ := Option.map_eq_some_iff.mp hvalue
      exact ⟨wide, _, Value.widens_of_asFloat? hwide, wide.narrowsTo_narrow, rfl⟩
  · rintro rfl
    rfl
  · exact marshal_mismatch htype hfits

/-- The least number of eight bits fits, and the number above the greatest does not; a negative
    number is an unsigned word, and no integer that is passed as a truth value is lost for being too
    large. A tenth is narrowed, the first whole number without one of 64 bits is rounded, and an
    integer is the address that it counts. -/
theorem marshal_domain_extremes :
    (∃ x, marshal 0 .i8 (.int (-128)) = .ok x ∧ x.integer? = some (-128)) ∧
      NativeType.i8 ≠ .void ∧ ¬ (Value.int 128).Fits .i8 ∧
      marshal 4 .i8 (.int 128) = .error (.typeMismatch 4 .i8 "integer 128") ∧
      (∃ x, marshal 0 .u64 (.int (-1)) = .ok x ∧ x.integer? = some (2 ^ 64 - 1)) ∧
      (∃ x, marshal 2 .bool (.int 256) = .ok x ∧ x.integer? = some 1) ∧
      marshal 1 .void .null = .error (.unsupportedType "argument 1" .void) ∧
      (∃ narrow, marshal 0 .f32 (.float ⟨0x3fb999999999999a⟩) = .ok (.f32 narrow) ∧
        Binary64.NarrowsTo ⟨0x3fb999999999999a⟩ narrow) ∧
      (∃ wide, marshal 0 .f64 (.int 9007199254740993) = .ok (.f64 wide) ∧
        wide.decode.IsNearest .double (9007199254740993 : Int64).toInt) ∧
      (∃ x, marshal 3 .pointer (.int 4096) = .ok x ∧ x.integer? = some 4096) := by
  have hfits : ¬ (Value.int 128).Fits .i8 := by
    rintro ⟨n, hn, -, hhigh⟩
    cases hn
    revert hhigh
    decide
  have hleast : (Value.int (-128)).Fits .i8 := ⟨-128, rfl, by decide, by decide⟩
  have hdescribe : (Value.int 128).describe = "integer 128" := by decide +kernel
  have hgreater := (marshal_domain 4 .i8 (.int 128)).2.2.2 (by decide) hfits
  rw [hdescribe] at hgreater
  obtain ⟨hsome, hscalar, -⟩ := marshal_domain 0 .i8 (.int (-128))
  obtain ⟨hword, hresidue, -⟩ := marshal_domain 0 .u64 (.int (-1))
  obtain ⟨htruth, hone, -⟩ := marshal_domain 2 .bool (.int 256)
  obtain ⟨hnumber, hnarrow, -⟩ := marshal_domain 0 .f32 (.float ⟨0x3fb999999999999a⟩)
  obtain ⟨hwhole, hwide, -⟩ := marshal_domain 0 .f64 (.int 9007199254740993)
  obtain ⟨hpointer, haddress, -⟩ := marshal_domain 3 .pointer (.int 4096)
  obtain ⟨x, hx⟩ := hsome.mpr hleast
  obtain ⟨y, hy⟩ := hword.mpr ⟨-1, rfl⟩
  obtain ⟨z, hz⟩ := htruth.mpr ⟨256, rfl⟩
  obtain ⟨a, ha⟩ := hpointer.mpr ⟨4096, rfl⟩
  refine ⟨⟨x, hx, (hscalar x hx).2.1⟩, by decide, hfits, hgreater, ⟨y, hy, (hresidue y hy).2.1⟩,
    ⟨z, hz, (hone z hz).2.1⟩, (marshal_domain 1 .void .null).2.2.1 rfl, ?_, ?_,
    ⟨a, ha, (haddress a ha).2.1⟩⟩
  · obtain ⟨v, hv⟩ := hnumber.mpr (.inl ⟨_, rfl⟩)
    obtain ⟨wide, narrow, hwide | ⟨n, hn, -⟩, hnarrows, rfl⟩ := (hnarrow v hv).2.2.2 rfl
    · cases hwide
      exact ⟨narrow, hv, hnarrows⟩
    · cases hn
  · obtain ⟨v, hv⟩ := hwhole.mpr (.inr ⟨_, rfl⟩)
    obtain ⟨wide, hfloat | ⟨n, hn, hnearest⟩, rfl⟩ := (hwide v hv).2.2.1 rfl
    · cases hfloat
    · cases hn
      exact ⟨wide, hv, hnearest⟩

end Scalar

end DualCall
