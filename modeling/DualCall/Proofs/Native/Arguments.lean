import DualCall.Proofs.Native.Fits
import Mathlib.Data.List.Forall2

namespace DualCall

namespace Scalar

/-- Values travel as scalars, each as one of its declared type. -/
def Carry (types : List NativeType) (values : List Value) (scalars : List Scalar) : Prop :=
  List.Forall₂ (fun argument x => ofValue? argument.1 argument.2 = some x)
    (types.zip values) scalars

/-- Every value fits the type declared at its position. -/
def Convert (types : List NativeType) (values : List Value) : Prop :=
  ∀ (i : Nat) t v, types[i]? = some t → values[i]? = some v → v.Fits t

theorem convert_iff_zip {types : List NativeType} {values : List Value} :
    Convert types values ↔
      ∀ argument ∈ types.zip values, argument.2.Fits argument.1 := by
  constructor
  · intro hconvert argument hargument
    obtain ⟨i, hi⟩ := List.mem_iff_getElem?.mp hargument
    obtain ⟨ht, hv⟩ := List.getElem?_zip_eq_some.mp hi
    exact hconvert i argument.1 argument.2 ht hv
  · intro hzip i t v ht hv
    exact hzip (t, v) (List.mem_of_getElem? (List.getElem?_zip_eq_some.mpr ⟨ht, hv⟩))

instance {types : List NativeType} {values : List Value} : Decidable (Convert types values) :=
  decidable_of_iff _ convert_iff_zip.symm

/-- The value at a position does not fit the type declared there, and every value before it does. -/
structure FirstMismatch (types : List NativeType) (values : List Value) (position : Nat)
    (type : NativeType) (value : Value) : Prop where
  type_eq : types[position]? = some type
  value_eq : values[position]? = some value
  mismatch : ¬ value.Fits type
  before : ∀ i < position, ∀ t v, types[i]? = some t → values[i]? = some v → v.Fits t

theorem FirstMismatch.head {type : NativeType} {types : List NativeType} {value : Value}
    {values : List Value} (hvalue : ¬ value.Fits type) :
    FirstMismatch (type :: types) (value :: values) 0 type value :=
  ⟨rfl, rfl, hvalue, fun i hi => absurd hi (Nat.not_lt_zero i)⟩

theorem FirstMismatch.tail {type t : NativeType} {types : List NativeType} {value v : Value}
    {values : List Value} {position : Nat} (hvalue : v.Fits t)
    (hfirst : FirstMismatch types values position type value) :
    FirstMismatch (t :: types) (v :: values) (position + 1) type value := by
  obtain ⟨htype, hval, hnone, hbefore⟩ := hfirst
  refine ⟨by simpa using htype, by simpa using hval, hnone, fun i hi t' v' ht hv => ?_⟩
  cases i with
  | zero =>
    simp only [List.getElem?_cons_zero, Option.some.injEq] at ht hv
    rwa [← ht, ← hv]
  | succ i => exact hbefore i (by omega) t' v' (by simpa using ht) (by simpa using hv)

/-- There is only one first mismatch. -/
theorem FirstMismatch.unique {types : List NativeType} {values : List Value} {p q : Nat}
    {s t : NativeType} {u v : Value} (hp : FirstMismatch types values p s u)
    (hq : FirstMismatch types values q t v) : p = q ∧ s = t ∧ u = v := by
  have hle {p q : Nat} {s t : NativeType} {u v : Value} (hp : FirstMismatch types values p s u)
      (hq : FirstMismatch types values q t v) : q ≤ p := by
    apply Nat.le_of_not_lt
    exact fun hlt => hp.mismatch (hq.before p hlt s u hp.type_eq hp.value_eq)
  obtain rfl := Nat.le_antisymm (hle hq hp) (hle hp hq)
  exact ⟨rfl, Option.some.inj (hp.type_eq.symm.trans hq.type_eq),
    Option.some.inj (hp.value_eq.symm.trans hq.value_eq)⟩

/-- The first mismatch stays the first one, whatever is appended. -/
theorem FirstMismatch.append {types : List NativeType} {values : List Value} {position : Nat}
    {type : NativeType} {value : Value} (hfirst : FirstMismatch types values position type value)
    (moreTypes : List NativeType) (more : List Value) :
    FirstMismatch (types ++ moreTypes) (values ++ more) position type value := by
  obtain ⟨htype, hvalue, hmismatch, hbefore⟩ := hfirst
  have htypes : position < types.length := (List.getElem?_eq_some_iff.mp htype).1
  have hvalues : position < values.length := (List.getElem?_eq_some_iff.mp hvalue).1
  refine ⟨?_, ?_, hmismatch, fun i hi t v ht hv => ?_⟩
  · rwa [List.getElem?_append_left htypes]
  · rwa [List.getElem?_append_left hvalues]
  · rw [List.getElem?_append_left (Nat.lt_trans hi htypes)] at ht
    rw [List.getElem?_append_left (Nat.lt_trans hi hvalues)] at hv
    exact hbefore i hi t v ht hv

/-- Marshalling succeeds with the scalars of all arguments, or fails at the first that has none. -/
theorem marshalFrom_cases {types : List NativeType} {values : List Value}
    (hlength : types.length = values.length) (hvoid : .void ∉ types) (start : Nat) :
    (∃ scalars, Carry types values scalars ∧ marshalFrom start types values = .ok scalars) ∨
    ∃ position type value, FirstMismatch types values position type value ∧
      marshalFrom start types values =
        .error (.typeMismatch (start + position) type value.describe) := by
  induction types generalizing values start with
  | nil =>
    cases values with
    | nil => exact .inl ⟨[], .nil, rfl⟩
    | cons v vs => cases hlength
  | cons type types ih =>
    cases values with
    | nil => cases hlength
    | cons value values =>
      obtain ⟨htype, hvoid⟩ := not_or.mp (mt List.mem_cons.mpr hvoid)
      cases hvalue : ofValue? type value with
      | none =>
        have hfits := ofValue?_eq_none_iff.mp hvalue
        refine .inr ⟨0, type, value, .head hfits, ?_⟩
        rw [marshalFrom, marshal_mismatch (Ne.symm htype) hfits]
        rfl
      | some x =>
        have hhead : marshal start type value = .ok x := marshal_eq_ok_iff.mpr hvalue
        obtain ⟨scalars, hcarry, hrest⟩ | ⟨position, t, v, hfirst, hrest⟩ :=
          ih (Nat.succ.inj hlength) hvoid (start + 1)
        · refine .inl ⟨x :: scalars, .cons hvalue hcarry, ?_⟩
          rw [marshalFrom, hhead, hrest]
        · refine .inr ⟨position + 1, t, v, hfirst.tail (exists_ofValue?_iff.mp ⟨x, hvalue⟩), ?_⟩
          rw [marshalFrom, hhead, hrest, Nat.add_right_comm]
          rfl

section

variable {types : List NativeType} {values : List Value}

theorem Carry.unique {xs ys : List Scalar} (hxs : Carry types values xs)
    (hys : Carry types values ys) : xs = ys := by
  apply List.right_unique_forall₂' _ hxs hys
  intro argument x y hx hy
  exact Option.some.inj (hx.symm.trans hy)

theorem Carry.convert {scalars : List Scalar} (hcarry : Carry types values scalars) :
    Convert types values := by
  intro i t v ht hv
  have hzip : (types.zip values)[i]? = some (t, v) := List.getElem?_zip_eq_some.mpr ⟨ht, hv⟩
  obtain ⟨hi, heq⟩ := List.getElem?_eq_some_iff.mp hzip
  have hx := List.Forall₂.get hcarry hi (hcarry.length_eq ▸ hi)
  rw [List.get_eq_getElem, heq] at hx
  exact exists_ofValue?_iff.mp ⟨_, hx⟩

theorem FirstMismatch.not_convert {position : Nat} {type : NativeType} {value : Value}
    (hfirst : FirstMismatch types values position type value) : ¬ Convert types values :=
  fun hconvert => hfirst.mismatch (hconvert position type value hfirst.type_eq hfirst.value_eq)

theorem marshalFrom_of_carry (hlength : types.length = values.length) (hvoid : .void ∉ types)
    {scalars : List Scalar} (hcarry : Carry types values scalars) (start : Nat) :
    marshalFrom start types values = .ok scalars := by
  obtain ⟨xs, hxs, hok⟩ | ⟨position, type, value, hfirst, -⟩ :=
    marshalFrom_cases hlength hvoid start
  · rw [hok, hcarry.unique hxs]
  · exact absurd hcarry.convert hfirst.not_convert

theorem marshalFrom_of_firstMismatch (hlength : types.length = values.length)
    (hvoid : .void ∉ types) {position : Nat} {type : NativeType} {value : Value}
    (hfirst : FirstMismatch types values position type value) (start : Nat) :
    marshalFrom start types values =
      .error (.typeMismatch (start + position) type value.describe) := by
  obtain ⟨xs, hxs, -⟩ | ⟨p, t, v, hp, herror⟩ := marshalFrom_cases hlength hvoid start
  · exact absurd hxs.convert hfirst.not_convert
  · obtain ⟨rfl, rfl, rfl⟩ := hp.unique hfirst
    exact herror

theorem exists_carry_of_convert (hlength : types.length = values.length) (hvoid : .void ∉ types)
    (hconvert : Convert types values) : ∃ scalars, Carry types values scalars := by
  obtain ⟨scalars, hcarry, -⟩ | ⟨position, type, value, hfirst, -⟩ :=
    marshalFrom_cases hlength hvoid 0
  · exact ⟨scalars, hcarry⟩
  · exact absurd hconvert hfirst.not_convert

theorem convert_iff_exists_carry (hlength : types.length = values.length)
    (hvoid : .void ∉ types) : Convert types values ↔ ∃ scalars, Carry types values scalars :=
  ⟨exists_carry_of_convert hlength hvoid, fun ⟨_, hcarry⟩ => hcarry.convert⟩

theorem exists_firstMismatch_of_not_convert (hlength : types.length = values.length)
    (hvoid : .void ∉ types) (hconvert : ¬ Convert types values) :
    ∃ position type value, FirstMismatch types values position type value := by
  obtain ⟨scalars, hcarry, -⟩ | ⟨position, type, value, hfirst, -⟩ :=
    marshalFrom_cases hlength hvoid 0
  · exact absurd hcarry.convert hconvert
  · exact ⟨position, type, value, hfirst⟩

end

end Scalar

namespace Value

/-- The value that is read when a value was passed as a type, if it can be passed so. -/
def arrival? (type : NativeType) (value : Value) : Option Value :=
  (Scalar.ofValue? type value).map fun x => ofWord type x.word

/-- Values are read as others when they were passed each as its declared type. -/
def Arrive (types : List NativeType) (values arrived : List Value) : Prop :=
  List.Forall₂ (fun argument v => argument.2.arrival? argument.1 = some v)
    (types.zip values) arrived

/-- A value that has arrived arrives as it is from then on. -/
theorem arrival?_arrival {type : NativeType} {value arrived : Value}
    (harrival : value.arrival? type = some arrived) : arrived.arrival? type = some arrived := by
  obtain ⟨x, hx, rfl⟩ := Option.map_eq_some_iff.mp harrival
  rw [arrival?, Scalar.ofValue?_ofWord_word hx]
  rfl

/-- The values that arrive are read from the words of the scalars that carry them. -/
theorem arrive_iff_carry {types : List NativeType} {values arrived : List Value}
    (hlength : types.length = values.length) :
    Arrive types values arrived ↔ ∃ scalars, Scalar.Carry types values scalars ∧
      List.zipWith ofWord types (scalars.map Scalar.word) = arrived := by
  induction types generalizing values arrived with
  | nil =>
    constructor
    · intro harrive
      cases harrive
      exact ⟨[], .nil, rfl⟩
    · rintro ⟨scalars, -, rfl⟩
      exact .nil
  | cons type types ih =>
    cases values with
    | nil => cases hlength
    | cons value values =>
      have hrest {tail : List Value} : Arrive types values tail ↔ _ := ih (Nat.succ.inj hlength)
      constructor
      · intro harrive
        cases harrive with
        | cons hvalue hvalues =>
          obtain ⟨x, hx, rfl⟩ := Option.map_eq_some_iff.mp hvalue
          obtain ⟨scalars, hcarry, rfl⟩ := hrest.mp hvalues
          exact ⟨x :: scalars, .cons hx hcarry, rfl⟩
      · rintro ⟨scalars, hcarry, rfl⟩
        cases hcarry with
        | cons hx hscalars =>
          exact .cons (Option.map_eq_some_iff.mpr ⟨_, hx, rfl⟩) (hrest.mpr ⟨_, hscalars, rfl⟩)

theorem ofValue?_of_arrival? {type : NativeType} {value arrived : Value}
    (harrival : value.arrival? type = some arrived) :
    Scalar.ofValue? type arrived = Scalar.ofValue? type value := by
  obtain ⟨x, hx, rfl⟩ := Option.map_eq_some_iff.mp harrival
  rw [Scalar.ofValue?_ofWord_word hx, hx]

/-- What arrives of arguments travels on as the same scalars, whatever travels behind them. -/
theorem Arrive.carry_iff {types : List NativeType} {values arrived : List Value}
    (hlength : types.length = values.length) (harrive : Arrive types values arrived)
    {moreTypes : List NativeType} {more : List Value} {scalars : List Scalar} :
    Scalar.Carry (types ++ moreTypes) (arrived ++ more) scalars ↔
      Scalar.Carry (types ++ moreTypes) (values ++ more) scalars := by
  induction types generalizing values arrived scalars with
  | nil =>
    cases values with
    | nil =>
      cases harrive
      rfl
    | cons value values => cases hlength
  | cons type types ih =>
    cases values with
    | nil => cases hlength
    | cons value values =>
      cases harrive with
      | cons hvalue hrest =>
        cases scalars with
        | nil => constructor <;> intro hcarry <;> cases hcarry
        | cons x scalars =>
          have hhead := ofValue?_of_arrival? hvalue
          have htail : Scalar.Carry (types ++ moreTypes) (_ ++ more) scalars ↔ _ :=
            ih (Nat.succ.inj hlength) hrest
          exact (List.forall₂_cons.trans (and_congr (by rw [hhead]) htail)).trans
            List.forall₂_cons.symm

theorem Arrive.unique {types : List NativeType} {values vs ws : List Value}
    (hvs : Arrive types values vs) (hws : Arrive types values ws) : vs = ws := by
  apply List.right_unique_forall₂' _ hvs hws
  intro argument v w hv hw
  exact Option.some.inj (hv.symm.trans hw)

theorem exists_arrive_of_convert {types : List NativeType} {values : List Value}
    (hlength : types.length = values.length) (hvoid : .void ∉ types)
    (hconvert : Scalar.Convert types values) : ∃ arrived, Arrive types values arrived := by
  obtain ⟨scalars, hcarry⟩ := Scalar.exists_carry_of_convert hlength hvoid hconvert
  exact ⟨_, (arrive_iff_carry hlength).mpr ⟨scalars, hcarry, rfl⟩⟩

theorem Arrive.length_eq {types : List NativeType} {values arrived : List Value}
    (hlength : types.length = values.length) (harrive : Arrive types values arrived) :
    arrived.length = types.length := by
  have hzip := List.Forall₂.length_eq harrive
  simp only [List.length_zip, hlength, Nat.min_self] at hzip
  rw [hlength, hzip]

/-- Arguments that have arrived arrive as they are when they are passed on. -/
theorem Arrive.again {types : List NativeType} {values arrived : List Value}
    (hlength : types.length = values.length) (harrive : Arrive types values arrived) :
    Arrive types arrived arrived := by
  induction types generalizing values arrived with
  | nil =>
    cases harrive
    exact .nil
  | cons type types ih =>
    cases values with
    | nil => cases hlength
    | cons value values =>
      cases harrive with
      | cons hvalue hrest =>
        exact .cons (arrival?_arrival hvalue) (ih (Nat.succ.inj hlength) hrest)

end Value

end DualCall
