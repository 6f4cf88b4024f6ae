import DualCall.CommandLine.Run
import DualCall.Proofs.Native.Canonical
import DualCall.Proofs.Value.Literal

namespace DualCall

namespace Value

/-- A number that is none. -/
def isNaN : Value → Bool
  | .float x => x.isNaN
  | _ => false

theorem withoutPayload_of_not_nan {v : Value} (hv : v.isNaN = false) : v.withoutPayload = v := by
  cases v with
  | float x => exact congrArg float (Binary64.withoutPayload_of_not_nan hv)
  | _ => rfl

theorem isData_ofWord (type : NativeType) (word : UInt64) : (ofWord type word).isData := by
  cases type <;> rfl

/-- Only floating-point types have words that are read as no number. -/
theorem eq_of_isNaN_ofWord {type : NativeType} {word : UInt64} (hnan : (ofWord type word).isNaN) :
    (type = .f32 ∨ type = .f64) ∧ (ofWord type word).withoutPayload = .float .nan := by
  cases type with
  | f32 | f64 => exact ⟨by simp, congrArg float (if_pos hnan)⟩
  | _ => cases hnan

end Value

namespace Scalar

/-- A number of either width that is none. -/
def isNaN : Scalar → Bool
  | .f32 x => x.isNaN
  | .f64 x => x.isNaN
  | _ => false

end Scalar

namespace CommandLine

theorem resultLines_ofSlot {type : NativeType} (htype : type ≠ .void) (slot : UInt64) :
    resultLines (.ofSlot type slot) = [(Value.ofSlot type slot).display] := by
  cases type with
  | void => exact absurd rfl htype
  | _ => rfl

theorem readValues_display {v : Value} (hv : v.isData) :
    readValues [v.display] = .ok [v.withoutPayload] := by
  rw [readValues, Value.read?_display hv]
  rfl

/-- The line that is printed for a native result is read as a value that every position of the
    type takes. The scalar has the bits of the type in the return slot; a truth value is reduced
    to zero or one, and what is no number stays none. A callee reads from it what the line was
    printed for. -/
theorem readValues_resultLines {type : NativeType} (htype : type ≠ .void) (slot : UInt64) :
    ∃ v x, readValues (resultLines (.ofSlot type slot)) = .ok [v] ∧
      (∀ position, Scalar.marshal position type v = .ok x) ∧ x.type = type.carrier ∧
      (type ≠ .bool → (Value.ofSlot type slot).isNaN = false →
        x.word.toNat = slot.toNat % 2 ^ type.bits) ∧
      (type = .bool → x.word.toNat = if slot.toNat % 2 ^ type.bits = 0 then 0 else 1) ∧
      ((Value.ofSlot type slot).isNaN → x.isNaN) ∧
      Value.ofWord type x.word = (Value.ofSlot type slot).withoutPayload := by
  have hdata := Value.isData_ofWord type slot
  rw [← Value.ofSlot_eq_ofWord] at hdata
  have hread : readValues (resultLines (.ofSlot type slot)) =
      .ok [(Value.ofSlot type slot).withoutPayload] := by
    rw [resultLines_ofSlot htype, readValues_display hdata]
  rw [hread]
  simp only [Value.ofSlot_eq_ofWord, Scalar.marshal_eq_ok_iff]
  cases hnan : (Value.ofWord type slot).isNaN with
  | false =>
    obtain ⟨x, hx⟩ : ∃ x, Scalar.ofWord? type slot = some x := by
      cases type with
      | void => exact absurd rfl htype
      | _ => exact ⟨_, rfl⟩
    have hsingle : ¬ (type = .f32 ∧ (Binary32.mk slot.toUInt32).isNaN) := by
      rintro ⟨rfl, hsingle⟩
      rw [← Binary32.isNaN_widen] at hsingle
      exact absurd (hnan.symm.trans hsingle) (by decide)
    rw [Value.withoutPayload_of_not_nan hnan]
    refine ⟨_, x, rfl, fun _ => ?_, Scalar.type_of_ofWord? hx,
      fun hbool _ => Scalar.word_of_ofWord? hx hbool hsingle, ?_, by simp,
      Value.ofWord_of_ofWord? hx⟩
    · rw [Scalar.ofValue?_ofWord, hx]
    · rintro rfl
      exact Scalar.word_of_ofWord?_bool hx
  | true =>
    obtain ⟨hfloat, hvalue⟩ := Value.eq_of_isNaN_ofWord hnan
    rw [hvalue]
    rcases hfloat with rfl | rfl
    · have hback : (Binary32.mk (Scalar.f32 Binary64.nan.narrow).word.toUInt32).widen = .nan := by
        decide +kernel
      exact ⟨_, .f32 Binary64.nan.narrow, rfl, fun _ => rfl, rfl, by simp, by simp,
        fun _ => by decide +kernel, congrArg Value.float hback⟩
    · exact ⟨_, .f64 .nan, rfl, fun _ => rfl, rfl, by simp, by simp,
        fun _ => by decide +kernel, rfl⟩

/-- An unsigned number with its highest bit set is printed as a negative one, and the largest number
    of 32 bits with an exponent; both arrive at the next call with the bits that they came with. -/
theorem readValues_resultLines_extremes :
    NativeType.u64 ≠ .void ∧ NativeType.f32 ≠ .void ∧
      resultLines (.ofSlot .u64 0xfedcba9876543210) = ["-81985529216486896"] ∧
      (∃ v x, readValues ["-81985529216486896"] = .ok [v] ∧ Scalar.marshal 1 .u64 v = .ok x ∧
        x.word.toNat = 0xfedcba9876543210) ∧
      resultLines (.ofSlot .f32 0x7f7fffff) = ["3.4028234663852886e38"] ∧
      ∃ v x, readValues ["3.4028234663852886e38"] = .ok [v] ∧ Scalar.marshal 0 .f32 v = .ok x ∧
        x.word.toNat = 0x7f7fffff := by
  have hlong : resultLines (.ofSlot .u64 0xfedcba9876543210) = ["-81985529216486896"] := by
    decide +kernel
  have hsingle : resultLines (.ofSlot .f32 0x7f7fffff) = ["3.4028234663852886e38"] := by
    decide +kernel
  obtain ⟨v, x, hread, hmarshal, -, hbits, -⟩ :=
    readValues_resultLines (show NativeType.u64 ≠ .void by decide) 0xfedcba9876543210
  obtain ⟨v', x', hread', hmarshal', -, hbits', -⟩ :=
    readValues_resultLines (show NativeType.f32 ≠ .void by decide) 0x7f7fffff
  rw [hlong] at hread
  rw [hsingle] at hread'
  exact ⟨by decide, by decide, hlong, ⟨v, x, hread, hmarshal 1, hbits (by decide) rfl⟩, hsingle,
    v', x', hread', hmarshal' 0, hbits' (by decide) (by decide +kernel)⟩

end CommandLine

end DualCall
