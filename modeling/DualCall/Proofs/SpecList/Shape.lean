import DualCall.Proofs.SpecList

namespace DualCall

/-- The specification of a type and its default, if it has one. -/
def ArgSpec.ofDefault (type : NativeType) : Option Value → ArgSpec
  | none => .bare type
  | some default => .paired type default

theorem ArgSpec.ofDefault_default? (spec : ArgSpec) : ofDefault spec.type spec.default? = spec := by
  cases spec <;> rfl

/-- Bare specifications, followed by paired ones. -/
def bareThenPaired (types : List NativeType) (pairs : List (NativeType × Value)) : List ArgSpec :=
  types.map .bare ++ pairs.map fun pair => .paired pair.1 pair.2

/-- A number of bare specifications, followed by paired ones only. -/
def BareFirst (specs : List ArgSpec) (required : Nat) : Prop :=
  ∃ types pairs, types.length = required ∧ specs = bareThenPaired types pairs

/-- A bare specification stands at a position, and a paired one somewhere before it. -/
def Misplaced (specs : List ArgSpec) (position : Nat) : Prop :=
  (∃ type, specs[position]? = some (.bare type)) ∧
    ∃ earlier < position, ∃ type default, specs[earlier]? = some (.paired type default)

/-- The least position of a misplaced specification. -/
def FirstMisplaced (specs : List ArgSpec) (position : Nat) : Prop :=
  Misplaced specs position ∧ ∀ earlier < position, ¬ Misplaced specs earlier

theorem not_misplaced_zero (specs : List ArgSpec) : ¬ Misplaced specs 0 :=
  fun ⟨_, earlier, hearlier, _⟩ => Nat.not_lt_zero earlier hearlier

theorem misplaced_cons_bare {type : NativeType} {rest : List ArgSpec} {position : Nat} :
    Misplaced (.bare type :: rest) (position + 1) ↔ Misplaced rest position := by
  constructor
  · rintro ⟨hbare, earlier, hearlier, hpaired⟩
    cases earlier with
    | zero =>
      obtain ⟨_, _, hpaired⟩ := hpaired
      cases hpaired
    | succ earlier => exact ⟨hbare, earlier, Nat.lt_of_succ_lt_succ hearlier, hpaired⟩
  · rintro ⟨hbare, earlier, hearlier, hpaired⟩
    exact ⟨hbare, earlier + 1, Nat.succ_lt_succ hearlier, hpaired⟩

/-- Behind a paired specification every bare one is misplaced. -/
theorem misplaced_cons_paired {type : NativeType} {default : Value} {rest : List ArgSpec}
    {position : Nat} : Misplaced (.paired type default :: rest) (position + 1) ↔
      ∃ type, rest[position]? = some (.bare type) :=
  ⟨fun h => h.1, fun h => ⟨h, 0, Nat.succ_pos position, type, default, rfl⟩⟩

theorem FirstMisplaced.cons {spec : ArgSpec} {rest : List ArgSpec} {position : Nat}
    (hhere : Misplaced (spec :: rest) (position + 1))
    (hbefore : ∀ earlier < position, ¬ Misplaced (spec :: rest) (earlier + 1)) :
    FirstMisplaced (spec :: rest) (position + 1) := by
  refine ⟨hhere, fun earlier hearlier => ?_⟩
  cases earlier with
  | zero => exact not_misplaced_zero _
  | succ earlier => exact hbefore earlier (Nat.lt_of_succ_lt_succ hearlier)

/-- After a paired specification the scan stops at the first bare one. -/
theorem firstBare_of_firstMisplaced_true {start found : Nat} {specs : List ArgSpec}
    (hfound : firstMisplaced true start specs = some found) :
    ∃ position, found = start + position ∧ (∃ type, specs[position]? = some (.bare type)) ∧
      ∀ earlier < position, ¬ ∃ type, specs[earlier]? = some (.bare type) := by
  induction specs generalizing start with
  | nil => cases hfound
  | cons spec rest ih =>
    cases spec with
    | bare type =>
      cases hfound
      exact ⟨0, rfl, ⟨type, rfl⟩, fun earlier hearlier => absurd hearlier (Nat.not_lt_zero _)⟩
    | paired type default =>
      obtain ⟨position, rfl, hbare, hbefore⟩ := ih hfound
      refine ⟨position + 1, by omega, hbare, fun earlier hearlier => ?_⟩
      cases earlier with
      | zero => rintro ⟨type, ⟨⟩⟩
      | succ earlier => exact hbefore earlier (Nat.lt_of_succ_lt_succ hearlier)

theorem firstMisplaced_of_eq_some {start found : Nat} {specs : List ArgSpec}
    (hfound : firstMisplaced false start specs = some found) :
    ∃ position, found = start + position ∧ FirstMisplaced specs position := by
  induction specs generalizing start with
  | nil => cases hfound
  | cons spec rest ih =>
    cases spec with
    | bare type =>
      rw [firstMisplaced, if_neg (by decide)] at hfound
      obtain ⟨position, rfl, hhere, hbefore⟩ := ih hfound
      refine ⟨position + 1, by omega, .cons (misplaced_cons_bare.mpr hhere) ?_⟩
      exact fun earlier hearlier h => hbefore earlier hearlier (misplaced_cons_bare.mp h)
    | paired type default =>
      obtain ⟨position, rfl, hbare, hbefore⟩ := firstBare_of_firstMisplaced_true hfound
      refine ⟨position + 1, by omega, .cons (misplaced_cons_paired.mpr hbare) ?_⟩
      exact fun earlier hearlier h => hbefore earlier hearlier (misplaced_cons_paired.mp h)

section

variable (types : List NativeType) (pairs : List (NativeType × Value))

theorem firstMisplaced_paired (seenPaired : Bool) (start : Nat) :
    firstMisplaced seenPaired start (pairs.map fun pair => .paired pair.1 pair.2) = none := by
  induction pairs generalizing seenPaired start with
  | nil => rfl
  | cons pair pairs ih => exact ih true (start + 1)

/-- In a list whose bare specifications come first nothing is misplaced. -/
theorem firstMisplaced_bareThenPaired (start : Nat) :
    firstMisplaced false start (bareThenPaired types pairs) = none := by
  induction types generalizing start with
  | nil => exact firstMisplaced_paired pairs false start
  | cons type types ih => exact ih (start + 1)

theorem countP_bareThenPaired :
    (bareThenPaired types pairs).countP (fun spec => !spec.isPaired) = types.length := by
  have hbare : (fun spec : ArgSpec => !spec.isPaired) ∘ .bare = fun _ => true := rfl
  have hpaired : (fun spec : ArgSpec => !spec.isPaired) ∘
      (fun pair : NativeType × Value => .paired pair.1 pair.2) = fun _ => false := rfl
  rw [bareThenPaired, List.countP_append, List.countP_map, List.countP_map, hbare, hpaired,
    List.countP_true, List.countP_false]
  rfl

/-- All defaults stand behind the bare specifications. -/
theorem filterMap_default?_bareThenPaired :
    (bareThenPaired types pairs).filterMap ArgSpec.default? =
      ((bareThenPaired types pairs).drop types.length).filterMap ArgSpec.default? := by
  have hnone : (types.map ArgSpec.bare).filterMap ArgSpec.default? = [] := by
    rw [List.filterMap_map, List.filterMap_eq_nil_iff]
    exact fun _ _ => rfl
  rw [bareThenPaired, List.filterMap_append, hnone, List.nil_append,
    List.drop_left' (List.length_map _)]

end

/-- Arguments that are all required. -/
def SplitSpec.bare (types : List NativeType) : SplitSpec :=
  ⟨types, types.map fun _ => none, ⟨types.length, types.length⟩⟩

theorem splitSpecs_bare (types : List NativeType) :
    splitSpecs (types.map .bare) = .ok (.bare types) := by
  have hbare : types.map ArgSpec.bare = bareThenPaired types [] := (List.append_nil _).symm
  have htypes : (types.map ArgSpec.bare).map ArgSpec.type = types := by
    rw [List.map_map]
    exact List.map_id types
  have hdefaults : (types.map ArgSpec.bare).map ArgSpec.default? = types.map fun _ => none :=
    List.map_map
  rw [splitSpecs, htypes, hdefaults, hbare, firstMisplaced_bareThenPaired, countP_bareThenPaired,
    ← hbare, List.length_map]
  rfl

theorem SplitSpec.accepts_bare {types : List NativeType} {count : Nat} :
    (bare types).arity.accepts count ↔ count = types.length :=
  Arity.accepts_iff.trans ⟨fun h => Nat.le_antisymm h.2 h.1, fun h => ⟨Nat.le_of_eq h.symm,
    Nat.le_of_eq h⟩⟩

theorem exists_pairs_of_isPaired {specs : List ArgSpec} (hspecs : ∀ spec ∈ specs, spec.isPaired) :
    ∃ pairs : List (NativeType × Value), specs = pairs.map fun pair => .paired pair.1 pair.2 := by
  induction specs with
  | nil => exact ⟨[], rfl⟩
  | cons spec rest ih =>
    obtain ⟨hspec, hrest⟩ := List.forall_mem_cons.mp hspecs
    obtain ⟨pairs, rfl⟩ := ih hrest
    cases spec with
    | bare type => cases hspec
    | paired type default => exact ⟨(type, default) :: pairs, rfl⟩

theorem exists_bareFirst_of_firstMisplaced {start : Nat} {specs : List ArgSpec}
    (hspecs : firstMisplaced false start specs = none) : ∃ required, BareFirst specs required := by
  induction specs generalizing start with
  | nil => exact ⟨0, [], [], rfl, rfl⟩
  | cons spec rest ih =>
    cases spec with
    | bare type =>
      rw [firstMisplaced, if_neg (by decide)] at hspecs
      obtain ⟨_, types, pairs, rfl, rfl⟩ := ih hspecs
      exact ⟨_, type :: types, pairs, rfl, rfl⟩
    | paired type default =>
      obtain ⟨pairs, rfl⟩ := exists_pairs_of_isPaired (isPaired_of_firstMisplaced_true hspecs)
      exact ⟨0, [], (type, default) :: pairs, rfl, rfl⟩

theorem bareFirst_iff {specs : List ArgSpec} {required : Nat} : BareFirst specs required ↔
    firstMisplaced false 0 specs = none ∧
      specs.countP (fun spec => !spec.isPaired) = required := by
  constructor
  · rintro ⟨types, pairs, rfl, rfl⟩
    exact ⟨firstMisplaced_bareThenPaired types pairs 0, countP_bareThenPaired types pairs⟩
  · rintro ⟨hnone, rfl⟩
    obtain ⟨_, types, pairs, rfl, rfl⟩ := exists_bareFirst_of_firstMisplaced hnone
    exact ⟨types, pairs, (countP_bareThenPaired types pairs).symm, rfl⟩

/-- What a list of specifications becomes when it is taken apart. -/
structure SplitSpec.TakenFrom (split : SplitSpec) (specs : List ArgSpec) : Prop where
  total_eq : split.arity.total = specs.length
  length_types_eq : split.types.length = specs.length
  length_defaults_eq : split.defaults.length = specs.length
  /-- Types and defaults, put together again, are the list. -/
  zipWith_eq : List.zipWith ArgSpec.ofDefault split.types split.defaults = specs
  /-- Exactly the required arguments have no default. -/
  absent_iff : ∀ i < specs.length, split.defaults[i]? = some none ↔ i < split.arity.required
  /-- The optional defaults are all that are declared, in order. -/
  optional_eq : split.optional = specs.filterMap ArgSpec.default?
  length_optional_eq : split.optional.length = split.arity.total - split.arity.required

theorem bareFirst_of_splitSpecs {specs : List ArgSpec} {split : SplitSpec}
    (hsplit : splitSpecs specs = .ok split) : BareFirst specs split.arity.required := by
  obtain ⟨hnone, -, -, harity⟩ := SplitSpec.eq_of_splitSpecs hsplit
  exact bareFirst_iff.mpr ⟨hnone, by rw [harity]⟩

theorem SplitSpec.takenFrom {specs : List ArgSpec} {split : SplitSpec}
    (hsplit : splitSpecs specs = .ok split) : split.TakenFrom specs := by
  obtain ⟨-, htypes, hdefaults, harity⟩ := eq_of_splitSpecs hsplit
  have htotal : split.arity.total = specs.length := by rw [harity]
  refine ⟨htotal, ?_, ?_, ?_, fun i hi => ?_, ?_, ?_⟩
  · rw [length_types hsplit, htotal]
  · rw [length_defaults hsplit, htotal]
  · rw [htypes, hdefaults, List.zipWith_map, List.zipWith_self]
    simp [ArgSpec.ofDefault_default?]
  · rw [hdefaults, List.getElem?_map]
    constructor
    · intro hnone
      apply Nat.lt_of_not_le
      intro hle
      obtain ⟨type, default, hspec⟩ := getElem?_of_required_le hsplit hle (htotal ▸ hi)
      rw [hspec] at hnone
      cases hnone
    · intro hlt
      obtain ⟨type, hspec⟩ := getElem?_of_lt_required hsplit hlt
      rw [hspec]
      rfl
  · obtain ⟨types, pairs, hrequired, hspecs⟩ := bareFirst_of_splitSpecs hsplit
    rw [optional, hdefaults, ← hrequired, ← List.map_drop, List.filterMap_map, Function.id_comp,
      hspecs, filterMap_default?_bareThenPaired]
  · have hlength := required_add_length_optional hsplit
    omega

/-- In a list that can be taken apart no specification is misplaced. -/
theorem not_misplaced_of_splitSpecs {specs : List ArgSpec} {split : SplitSpec}
    (hsplit : splitSpecs specs = .ok split) (position : Nat) : ¬ Misplaced specs position := by
  rintro ⟨⟨type, hbare⟩, earlier, hearlier, declared, default, hpaired⟩
  have htotal := (SplitSpec.takenFrom hsplit).total_eq
  have hposition : position < specs.length := (List.getElem?_eq_some_iff.mp hbare).1
  by_cases hrequired : position < split.arity.required
  · obtain ⟨_, hspec⟩ := SplitSpec.getElem?_of_lt_required hsplit (Nat.lt_trans hearlier hrequired)
    cases hpaired.symm.trans hspec
  · obtain ⟨_, _, hspec⟩ := SplitSpec.getElem?_of_required_le hsplit (Nat.le_of_not_lt hrequired)
      (htotal ▸ hposition)
    cases hbare.symm.trans hspec

/-- Either a list of specifications can be taken apart, or its first misplaced one is reported. -/
theorem splitSpecs_cases (specs : List ArgSpec) :
    (∃ split, splitSpecs specs = .ok split) ∨ ∃ position, FirstMisplaced specs position ∧
      splitSpecs specs = .error (.malformedSpecification position specs) := by
  cases hfound : firstMisplaced false 0 specs with
  | none => exact .inl ⟨_, by rw [splitSpecs, hfound]⟩
  | some found =>
    obtain ⟨position, rfl, hfirst⟩ := firstMisplaced_of_eq_some hfound
    exact .inr ⟨position, hfirst, by rw [splitSpecs, hfound, Nat.zero_add]⟩

/-- A list of specifications can be taken apart exactly when it is a number of bare ones followed by
    paired ones only. That number is the number of required arguments, and what the list becomes
    says all that the list said. Any other list is reported whole, with the least position of a
    bare specification that has a paired one somewhere before it. -/
theorem splitSpecs_exact (specs : List ArgSpec) :
    (∀ required, BareFirst specs required ↔
      ∃ split, splitSpecs specs = .ok split ∧ split.arity.required = required) ∧
    (∀ split, splitSpecs specs = .ok split → split.TakenFrom specs) ∧
    ((∀ required, ¬ BareFirst specs required) → ∃ position, FirstMisplaced specs position ∧
      splitSpecs specs = .error (.malformedSpecification position specs)) := by
  refine ⟨fun required => ⟨fun hbare => ?_, ?_⟩, fun split => SplitSpec.takenFrom, fun hnot => ?_⟩
  · obtain ⟨hnone, hcount⟩ := bareFirst_iff.mp hbare
    exact ⟨_, by rw [splitSpecs, hnone], hcount⟩
  · rintro ⟨split, hsplit, rfl⟩
    exact bareFirst_of_splitSpecs hsplit
  · obtain ⟨split, hsplit⟩ | hmisplaced := splitSpecs_cases specs
    · exact absurd (bareFirst_of_splitSpecs hsplit) (hnot _)
    · exact hmisplaced

/-- One required argument and two optional ones, and the same with two bare specifications behind
    them, of which the first is reported. -/
theorem splitSpecs_exact_one_required :
    let specs : List ArgSpec := [.bare .i32, .paired .u8 (.int 7), .paired .pointer .null]
    let wrong := specs ++ [.bare .f64, .bare .i8]
    BareFirst specs 1 ∧
      (∃ split, splitSpecs specs = .ok split ∧ split.arity.required = 1 ∧
        split.optional = [.int 7, .null]) ∧
      (∀ required, ¬ BareFirst wrong required) ∧ FirstMisplaced wrong 3 ∧
      splitSpecs wrong = .error (.malformedSpecification 3 wrong) := by
  intro specs wrong
  have hbare : BareFirst specs 1 := ⟨[.i32], [(.u8, .int 7), (.pointer, .null)], rfl, rfl⟩
  obtain ⟨split, hsplit, hrequired⟩ := ((splitSpecs_exact specs).1 1).mp hbare
  have hoptional := ((splitSpecs_exact specs).2.1 split hsplit).optional_eq
  have hwrong : splitSpecs wrong = .error (.malformedSpecification 3 wrong) := rfl
  have hnot (required : Nat) : ¬ BareFirst wrong required := by
    rw [(splitSpecs_exact wrong).1 required, hwrong]
    rintro ⟨split, ⟨⟩, -⟩
  obtain ⟨position, hfirst, herror⟩ := (splitSpecs_exact wrong).2.2 hnot
  cases herror
  exact ⟨hbare, ⟨split, hsplit, hrequired, hoptional⟩, hnot, hfirst, hwrong⟩

end DualCall
