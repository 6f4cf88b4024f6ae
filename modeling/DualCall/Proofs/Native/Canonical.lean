import DualCall.Proofs.Native.ReturnSlot

namespace DualCall.Value

/-- A value that some word is read as. Of void there is only the null value. -/
def Canonical (type : NativeType) (v : Value) : Prop :=
  ∃ word, v = ofWord type word

variable {type : NativeType} {v : Value}

/-- Bringing the bits of a word into normal form does not change what is read of them. -/
theorem ofWord_of_ofWord? {word : UInt64} {x : Scalar} (hx : Scalar.ofWord? type word = some x) :
    ofWord type x.word = ofWord type word := by
  by_cases hbool : type = .bool
  · subst hbool
    cases hx
    by_cases hzero : word.toUInt8 = 0 <;> simp [Scalar.word, ofWord, hzero]
  by_cases hsingle : type = .f32
  · subst hsingle
    cases hx
    have hword : (Binary32.mk word.toUInt32).quieted.bits.toUInt64.toUInt32 =
        (Binary32.mk word.toUInt32).quieted.bits := UInt32.toUInt32_toUInt64 _
    simp only [Scalar.word, ofWord, hword]
    exact congrArg float (Binary32.widen_quieted _)
  · have hbits := Scalar.word_of_ofWord? hx hbool fun h => hsingle h.1
    exact ofWord_eq_of_mod (by rw [hbits, Nat.mod_mod])

/-- A canonical value arrives as it is. -/
theorem Canonical.arrival? (hv : v.Canonical type) (htype : type ≠ .void) :
    v.arrival? type = some v := by
  obtain ⟨word, rfl⟩ := hv
  rw [Value.arrival?, Scalar.ofValue?_ofWord]
  cases hx : Scalar.ofWord? type word with
  | none =>
    cases type with
    | void => exact absurd rfl htype
    | _ => cases hx
  | some x => rw [Option.map_some, ofWord_of_ofWord? hx]

/-- A canonical result is received as it is. -/
theorem Canonical.received (hv : v.Canonical type) : (Outcome.value v).received type = v := by
  by_cases htype : type = .void
  · subst htype
    obtain ⟨word, rfl⟩ := hv
    rfl
  · rw [Outcome.received, hv.arrival? htype, Option.getD_some]

/-- Values that are canonical for the types declared at their positions. -/
def AllCanonical (types : List NativeType) (values : List Value) : Prop :=
  ∀ (i : Nat) type v, types[i]? = some type → values[i]? = some v → v.Canonical type

/-- Arguments that are canonical for their types arrive as they are. -/
theorem AllCanonical.arrive {types : List NativeType} {values : List Value}
    (hcanonical : AllCanonical types values) (hlength : types.length = values.length)
    (hvoid : .void ∉ types) : Arrive types values values := by
  induction types generalizing values with
  | nil =>
    cases values with
    | nil => exact .nil
    | cons v vs => cases hlength
  | cons t types ih =>
    cases values with
    | nil => cases hlength
    | cons v values =>
      obtain ⟨htype, hvoid⟩ := not_or.mp (mt List.mem_cons.mpr hvoid)
      exact .cons ((hcanonical 0 t v rfl rfl).arrival? (Ne.symm htype))
        (ih (fun i => hcanonical (i + 1)) (Nat.succ.inj hlength) hvoid)

end DualCall.Value
