import DualCall.Call.Execution
import DualCall.Proofs.Native.Arguments

namespace DualCall

/-- The low bits of a number that was extended with its sign are the number. -/
theorem setWidth_signExtend {w v : Nat} (hwidth : w ≤ v) (x : BitVec w) :
    (x.signExtend v).setWidth w = x := by
  ext i hi
  simp only [BitVec.getElem_setWidth, BitVec.getLsbD_signExtend, hi, ↓reduceIte]
  simp only [show i < v by omega, decide_true, Bool.true_and]
  exact BitVec.getLsbD_eq_getElem hi

theorem Int8.toInt8_toUInt8_toInt64 (x : Int8) : x.toInt64.toUInt64.toUInt8.toInt8 = x := by
  rw [← Int8.toBitVec_inj]
  exact setWidth_signExtend (show 8 ≤ 64 by decide) x.toBitVec

theorem Int16.toInt16_toUInt16_toInt64 (x : Int16) : x.toInt64.toUInt64.toUInt16.toInt16 = x := by
  rw [← Int16.toBitVec_inj]
  exact setWidth_signExtend (show 16 ≤ 64 by decide) x.toBitVec

theorem Int32.toInt32_toUInt32_toInt64 (x : Int32) : x.toInt64.toUInt64.toUInt32.toInt32 = x := by
  rw [← Int32.toBitVec_inj]
  exact setWidth_signExtend (show 32 ≤ 64 by decide) x.toBitVec

namespace Value

/-- A return slot is decoded as an argument in the same word is. -/
theorem ofSlot_eq_ofWord (ret : NativeType) (slot : UInt64) :
    ofSlot ret slot = ofWord ret slot := by
  cases ret with
  | void | f32 | f64 | pointer => rfl
  | bool =>
    have hbyte : (slot.toNat % UInt8.size != 0) = (slot.toUInt8 != 0) := by
      rw [Bool.eq_iff_iff, bne_iff_ne, bne_iff_ne, ne_eq, ne_eq, ← UInt8.toNat_inj]
      rfl
    simp only [ofSlot, ofWord, hbyte]
  | u8 =>
    have hbyte : Int64.ofNat (slot.toNat % UInt8.size) = slot.toUInt8.toUInt64.toInt64 := by
      rw [← UInt64.toInt64_ofNat', ← UInt64.toNat_toUInt8, ← UInt8.toNat_toUInt64,
        UInt64.ofNat_toNat]
    simp only [ofSlot, ofWord, hbyte]
  | u16 =>
    have hhalf : Int64.ofNat (slot.toNat % UInt16.size) = slot.toUInt16.toUInt64.toInt64 := by
      rw [← UInt64.toInt64_ofNat', ← UInt64.toNat_toUInt16, ← UInt16.toNat_toUInt64,
        UInt64.ofNat_toNat]
    simp only [ofSlot, ofWord, hhalf]
  | u32 =>
    have hword : Int64.ofNat (slot.toNat % UInt32.size) = slot.toUInt32.toUInt64.toInt64 := by
      rw [← UInt64.toInt64_ofNat', ← UInt64.toNat_toUInt32, ← UInt32.toNat_toUInt64,
        UInt64.ofNat_toNat]
    simp only [ofSlot, ofWord, hword]
  | i8 =>
    have hbyte : (slot.toNat : Int).bmod UInt8.size = slot.toUInt8.toInt8.toInt := by
      rw [← Int8.toInt_toBitVec, UInt8.toBitVec_toInt8, UInt64.toBitVec_toUInt8,
        BitVec.toInt_setWidth]
      rfl
    simp only [ofSlot, ofWord, hbyte, Int64.ofInt_int8ToInt]
  | i16 =>
    have hhalf : (slot.toNat : Int).bmod UInt16.size = slot.toUInt16.toInt16.toInt := by
      rw [← Int16.toInt_toBitVec, UInt16.toBitVec_toInt16, UInt64.toBitVec_toUInt16,
        BitVec.toInt_setWidth]
      rfl
    simp only [ofSlot, ofWord, hhalf, Int64.ofInt_int16ToInt]
  | i32 =>
    have hword : (slot.toNat : Int).bmod UInt32.size = slot.toUInt32.toInt32.toInt := by
      rw [← Int32.toInt_toBitVec, UInt32.toBitVec_toInt32, UInt64.toBitVec_toUInt32,
        BitVec.toInt_setWidth]
      rfl
    simp only [ofSlot, ofWord, hword, Int64.ofInt_int32ToInt]
  | i64 | u64 =>
    have hslot : (slot.toNat : Int).bmod UInt64.size = slot.toInt64.toInt := by
      rw [← Int64.toInt_toBitVec, BitVec.toInt_eq_toNat_bmod]
      rfl
    simp only [ofSlot, ofWord, hslot, Int64.ofInt_toInt]

/-- A reader of a type sees no more of a word than the low bits that the type has. -/
theorem ofWord_eq_of_mod {type : NativeType} {word word' : UInt64}
    (hmod : word.toNat % 2 ^ type.bits = word'.toNat % 2 ^ type.bits) :
    ofWord type word = ofWord type word' := by
  have hbyte (hbits : type.bits = 8) : word.toUInt8 = word'.toUInt8 := by
    rw [hbits] at hmod
    simpa only [← UInt8.toNat_inj, UInt64.toNat_toUInt8] using hmod
  have hhalf (hbits : type.bits = 16) : word.toUInt16 = word'.toUInt16 := by
    rw [hbits] at hmod
    simpa only [← UInt16.toNat_inj, UInt64.toNat_toUInt16] using hmod
  have hsingle (hbits : type.bits = 32) : word.toUInt32 = word'.toUInt32 := by
    rw [hbits] at hmod
    simpa only [← UInt32.toNat_inj, UInt64.toNat_toUInt32] using hmod
  have hwhole (hbits : type.bits = 64) : word = word' := by
    rw [hbits, Nat.mod_eq_of_lt word.toNat_lt, Nat.mod_eq_of_lt word'.toNat_lt] at hmod
    exact UInt64.toNat_inj.mp hmod
  cases type with
  | void => rfl
  | bool | i8 | u8 => simp only [ofWord, hbyte rfl]
  | i16 | u16 => simp only [ofWord, hhalf rfl]
  | i32 | u32 | f32 => simp only [ofWord, hsingle rfl]
  | i64 | u64 | f64 | pointer => rw [hwhole rfl]

/-- How a stored scalar fills the rest of its slot does not matter to a reader of its type. -/
theorem ofWord_store {ret : NativeType} {word : UInt64} {x : Scalar}
    (hx : Scalar.ofWord? ret word = some x) (slot : UInt64) :
    ofWord ret (x.store slot) = ofWord ret x.word := by
  cases ret with
  | void => cases hx
  | bool | u8 | u16 | u32 | i64 | u64 | f64 | pointer =>
    cases hx
    rfl
  | i8 =>
    cases hx
    simp only [ofWord, Scalar.store, Scalar.word, Int8.toInt8_toUInt8_toInt64,
      UInt8.toUInt8_toUInt64, Int8.toInt8_toUInt8]
  | i16 =>
    cases hx
    simp only [ofWord, Scalar.store, Scalar.word, Int16.toInt16_toUInt16_toInt64,
      UInt16.toUInt16_toUInt64, Int16.toInt16_toUInt16]
  | i32 =>
    cases hx
    simp only [ofWord, Scalar.store, Scalar.word, Int32.toInt32_toUInt32_toInt64,
      UInt32.toUInt32_toUInt64, Int32.toInt32_toUInt32]
  | f32 =>
    cases hx
    have hupper : (slot >>> 32 <<< 32).toUInt32 = 0 := by
      rw [← UInt32.toNat_inj]
      simp [Nat.shiftLeft_eq, Nat.shiftRight_eq_div_pow]
    simp [ofWord, Scalar.store, Scalar.word, hupper]

/-- The value of a type whose bits are all zero. -/
def zero : NativeType → Value
  | .void => .null
  | .bool => .bool false
  | .f32 | .f64 => .float .zero
  | .pointer => .pointer 0
  | .i8 | .u8 | .i16 | .u16 | .i32 | .u32 | .i64 | .u64 => .int 0

theorem ofWord_zero (type : NativeType) : ofWord type 0 = zero type := by
  cases type with
  | f32 =>
    have hzero : (Binary32.mk 0).widen = .zero := by decide +kernel
    exact congrArg Value.float hzero
  | _ => rfl

/-- The zero of a type arrives as it is. -/
theorem arrival?_zero {type : NativeType} (htype : type ≠ .void) :
    (zero type).arrival? type = some (zero type) := by
  rw [arrival?, ← ofWord_zero, Scalar.ofValue?_ofWord]
  cases type with
  | void => exact absurd rfl htype
  | f32 =>
    have hword : (Binary32.mk (UInt64.toUInt32 0)).quieted.bits.toUInt64 = 0 := by
      rw [Binary32.quieted_of_not_nan (by decide)]
      rfl
    simp only [Scalar.ofWord?, Option.map_some, Scalar.word, hword]
  | _ => rfl

end Value

/-- What the caller of a procedure through native code receives as its result: the value that
    arrives of the procedure's own, or the zero of the type when the procedure has none that the
    type can carry. -/
def Outcome.received (ret : NativeType) : Outcome → Value
  | .value v => (v.arrival? ret).getD (.zero ret)
  | .failure _ => .zero ret
  | .panic => .zero ret

theorem ofSlot_fillSlot (ret : NativeType) (outcome : Outcome) (slot : UInt64) :
    Value.ofSlot ret (fillSlot ret outcome slot) = outcome.received ret := by
  have hcleared : slot &&& 0 = 0 := by simp
  rw [Value.ofSlot_eq_ofWord]
  cases outcome with
  | value v =>
    cases hx : Scalar.ofValue? ret v with
    | none => simp [fillSlot, Outcome.received, Value.arrival?, hx, hcleared, Value.ofWord_zero]
    | some x =>
      have hstore := Value.ofWord_store (Scalar.ofWord?_word hx) 0
      simp [fillSlot, Outcome.received, Value.arrival?, hx, hcleared, hstore]
  | failure e => simp [fillSlot, Outcome.received, hcleared, Value.ofWord_zero]
  | panic => simp [fillSlot, Outcome.received, hcleared, Value.ofWord_zero]

/-- A result that was received is received as it is from then on. -/
theorem Outcome.received_received (ret : NativeType) (outcome : Outcome) :
    (Outcome.value (outcome.received ret)).received ret = outcome.received ret := by
  have hzero : ((Value.zero ret).arrival? ret).getD (.zero ret) = .zero ret := by
    by_cases hvoid : ret = .void
    · subst hvoid
      rfl
    · rw [Value.arrival?_zero hvoid]
      rfl
  cases outcome with
  | value v =>
    cases harrival : v.arrival? ret with
    | none => simpa [received, harrival] using hzero
    | some arrived => simp [received, harrival, Value.arrival?_arrival harrival]
  | failure e => simpa [received] using hzero
  | panic => simpa [received] using hzero

namespace Scalar

/-- A scalar on the whole width of a slot: a signed integer with copies of its sign, an unsigned
    one and a number of 32 bits with zeros, and what has 64 bits as it is. -/
def extended : Scalar → BitVec 64
  | .i8 x => x.toBitVec.signExtend 64
  | .i16 x => x.toBitVec.signExtend 64
  | .i32 x => x.toBitVec.signExtend 64
  | .u8 x => x.toBitVec.zeroExtend 64
  | .u16 x => x.toBitVec.zeroExtend 64
  | .u32 x => x.toBitVec.zeroExtend 64
  | .f32 x => x.bits.toBitVec.zeroExtend 64
  | .i64 x => x.toBitVec
  | .u64 x => x.toBitVec
  | .f64 x => x.bits.toBitVec
  | .pointer address => address.toBitVec

theorem toBitVec_store_zero (x : Scalar) : (x.store 0).toBitVec = x.extended := by
  cases x with
  | f32 x => simp [store, extended]
  | _ => rfl

/-- What a value is marshalled to is decoded alike on both ways: from its own storage, as a callee
    reads an argument, and from the cleared slot it was stored to, as a caller reads a result. What
    stands behind the bits of the type in the storage does not count. The slot holds the scalar on
    its whole width, whatever was there before. -/
theorem ofSlot_store_of_marshal {position : Nat} {type : NativeType} {value : Value} {x : Scalar}
    (hx : marshal position type value = .ok x) :
    x.type = type.carrier ∧
      (∀ word : UInt64, word.toNat % 2 ^ type.bits = x.word.toNat % 2 ^ type.bits →
        Value.ofSlot type (x.store 0) = Value.ofWord type word) ∧
      (x.store 0).toBitVec = x.extended ∧
      ∀ slot, fillSlot type (.value value) slot = x.store 0 := by
  have hvalue := marshal_eq_ok_iff.mp hx
  have hword := ofWord?_word hvalue
  refine ⟨type_of_ofWord? hword, fun word hbits => ?_, toBitVec_store_zero x, fun slot => ?_⟩
  · rw [Value.ofSlot_eq_ofWord, Value.ofWord_store hword, Value.ofWord_eq_of_mod hbits]
  · have hcleared : slot &&& 0 = 0 := by simp
    simp only [fillSlot, hvalue, hcleared]

/-- A negative number fills the slot with its sign, and both ways lead back to it. -/
theorem ofSlot_store_of_marshal_negative :
    marshal 3 .i16 (.int (-2)) = .ok (.i16 (-2)) ∧
      fillSlot .i16 (.value (.int (-2))) 7 = 0xfffffffffffffffe ∧
      Value.ofSlot .i16 0xfffffffffffffffe = Value.ofWord .i16 0x5fffe := by
  have hx : marshal 3 .i16 (.int (-2)) = .ok (.i16 (-2)) := by rfl
  obtain ⟨-, hread, -, hfill⟩ := ofSlot_store_of_marshal hx
  exact ⟨hx, hfill 7, hread 0x5fffe (by decide)⟩

end Scalar

end DualCall
