import DualCall.Call.Execution

namespace DualCall

@[simp] theorem ArgSpec.isPaired_bare (type : NativeType) : (bare type).isPaired = false := rfl

@[simp] theorem ArgSpec.isPaired_paired (type : NativeType) (default : Value) :
    (paired type default).isPaired = true := rfl

theorem isPaired_of_firstMisplaced_true {position : Nat} {specs : List ArgSpec}
    (hspecs : firstMisplaced true position specs = none) : ∀ spec ∈ specs, spec.isPaired := by
  induction specs generalizing position with
  | nil => simp
  | cons spec rest ih =>
    cases spec with
    | bare type => simp [firstMisplaced] at hspecs
    | paired type default =>
      rw [firstMisplaced] at hspecs
      simpa using ih hspecs

/-- No bare specification stands behind the number of bare ones in a list without a misplaced
    one. -/
theorem isPaired_of_firstMisplaced {position : Nat} {specs : List ArgSpec}
    (hspecs : firstMisplaced false position specs = none) :
    ∀ spec ∈ specs.drop (specs.countP fun spec => !spec.isPaired), spec.isPaired := by
  induction specs generalizing position with
  | nil => simp
  | cons spec rest ih =>
    cases spec with
    | bare type =>
      rw [firstMisplaced, if_neg (by decide)] at hspecs
      simpa using ih hspecs
    | paired type default =>
      rw [firstMisplaced] at hspecs
      have hrest := isPaired_of_firstMisplaced_true hspecs
      have hcount : rest.countP (fun spec => !spec.isPaired) = 0 :=
        List.countP_eq_zero.mpr (by simpa using hrest)
      simpa [List.countP_cons, hcount] using hrest

theorem Arity.accepts_iff {arity : Arity} {count : Nat} :
    arity.accepts count ↔ arity.required ≤ count ∧ count ≤ arity.total := by simp [accepts]

namespace SplitSpec

/-- The arguments of a call, with the defaults declared for the positions left out behind them. -/
def completed (split : SplitSpec) (args : List Value) : List Value :=
  args ++ (split.defaults.drop args.length).filterMap id

variable {specs : List ArgSpec} {split : SplitSpec}

theorem eq_of_splitSpecs (hsplit : splitSpecs specs = .ok split) :
    firstMisplaced false 0 specs = none ∧ split.types = specs.map ArgSpec.type ∧
      split.defaults = specs.map ArgSpec.default? ∧
      split.arity = ⟨specs.countP (fun spec => !spec.isPaired), specs.length⟩ := by
  unfold splitSpecs at hsplit
  split at hsplit
  · cases hsplit
  · next hnone =>
    cases hsplit
    exact ⟨hnone, rfl, rfl, rfl⟩

theorem length_types (hsplit : splitSpecs specs = .ok split) :
    split.types.length = split.arity.total := by
  obtain ⟨-, htypes, -, harity⟩ := eq_of_splitSpecs hsplit
  simp [htypes, harity]

theorem length_defaults (hsplit : splitSpecs specs = .ok split) :
    split.defaults.length = split.arity.total := by
  obtain ⟨-, -, hdefaults, harity⟩ := eq_of_splitSpecs hsplit
  simp [hdefaults, harity]

/-- The required arguments come first. -/
theorem getElem?_of_lt_required (hsplit : splitSpecs specs = .ok split) {i : Nat}
    (hi : i < split.arity.required) : ∃ type, specs[i]? = some (.bare type) := by
  obtain ⟨hnone, -, -, harity⟩ := eq_of_splitSpecs hsplit
  rw [harity] at hi
  -- All that are counted stand in the front part, so it consists of them.
  let required := specs.countP fun spec => !spec.isPaired
  have hbehind : (specs.drop required).countP (fun spec => !spec.isPaired) = 0 :=
    List.countP_eq_zero.mpr (by simpa using isPaired_of_firstMisplaced hnone)
  have hfront : (specs.take required).countP (fun spec => !spec.isPaired) = required := by
    have hall : specs.countP (fun spec => !spec.isPaired) = required := rfl
    rwa [← List.take_append_drop required specs, List.countP_append, hbehind] at hall
  have hlength : (specs.take required).length = required :=
    List.length_take_of_le List.countP_le_length
  have hbare := List.countP_eq_length.mp (hfront.trans hlength.symm)
  obtain ⟨spec, hspec⟩ : ∃ spec, (specs.take required)[i]? = some spec :=
    ⟨_, List.getElem?_eq_getElem (hlength.symm ▸ hi)⟩
  have hkind := hbare spec (List.mem_of_getElem? hspec)
  rw [List.getElem?_take_of_lt hi] at hspec
  cases spec with
  | bare type => exact ⟨type, hspec⟩
  | paired type default => simp at hkind

/-- Behind the required arguments every specification has a default. -/
theorem getElem?_of_required_le (hsplit : splitSpecs specs = .ok split) {i : Nat}
    (hlow : split.arity.required ≤ i) (hhigh : i < split.arity.total) :
    ∃ type default, specs[i]? = some (.paired type default) := by
  obtain ⟨hnone, -, -, harity⟩ := eq_of_splitSpecs hsplit
  rw [harity] at hlow hhigh
  obtain ⟨spec, hspec⟩ : ∃ spec, specs[i]? = some spec := ⟨_, List.getElem?_eq_getElem hhigh⟩
  have hmem : spec ∈ specs.drop (specs.countP fun spec => !spec.isPaired) := by
    apply List.mem_of_getElem?
    rwa [List.getElem?_drop, Nat.add_sub_cancel' hlow]
  have hkind := isPaired_of_firstMisplaced hnone spec hmem
  cases spec with
  | bare type => simp at hkind
  | paired type default => exact ⟨type, default, hspec⟩

/-- Behind the required arguments every position has a default. -/
theorem drop_defaults (hsplit : splitSpecs specs = .ok split) :
    split.defaults.drop split.arity.required = split.optional.map some := by
  obtain ⟨hnone, -, hdefaults, harity⟩ := eq_of_splitSpecs hsplit
  have hpaired := isPaired_of_firstMisplaced hnone
  rw [optional, hdefaults, harity, ← List.map_drop]
  generalize specs.drop _ = rest at hpaired
  induction rest with
  | nil => rfl
  | cons spec rest ih =>
    obtain ⟨hspec, hrest⟩ := List.forall_mem_cons.mp hpaired
    obtain ⟨default, hdefault⟩ := Option.isSome_iff_exists.mp hspec
    simpa [hdefault] using ih hrest

/-- The optional arguments are those behind the required ones. -/
theorem required_add_length_optional (hsplit : splitSpecs specs = .ok split) :
    split.arity.required + split.optional.length = split.arity.total := by
  have hlength := congrArg List.length (drop_defaults hsplit)
  rw [List.length_drop, List.length_map, length_defaults hsplit] at hlength
  have hcount : split.arity.required ≤ split.arity.total := by
    rw [(eq_of_splitSpecs hsplit).2.2.2]
    exact List.countP_le_length
  omega

/-- The positions that the arguments of a call do not reach all have a default, when the required
    ones are reached. -/
theorem drop_length_defaults (hsplit : splitSpecs specs = .ok split) {args : List Value}
    (hrequired : split.arity.required ≤ args.length) :
    split.defaults.drop args.length =
      (split.optional.drop (args.length - split.arity.required)).map some := by
  rw [List.map_drop, ← drop_defaults hsplit, List.drop_drop, Nat.add_sub_cancel' hrequired]

/-- Cutting the optional defaults at the number of arguments leaves those of the positions that the
    arguments do not reach. -/
theorem padArguments_eq_completed (hsplit : splitSpecs specs = .ok split) {args : List Value}
    (hrequired : split.arity.required ≤ args.length) :
    padArguments split.arity split.optional args = split.completed args := by
  rw [padArguments, completed, drop_length_defaults hsplit hrequired, List.filterMap_map,
    Function.id_comp, List.filterMap_some]

/-- Each completed argument was passed at its position or is the default declared there. -/
theorem getElem?_completed (hsplit : splitSpecs specs = .ok split) {args : List Value}
    (hrequired : split.arity.required ≤ args.length) {i : Nat} {v : Value}
    (hv : (split.completed args)[i]? = some v) :
    args[i]? = some v ∨ ∃ type, specs[i]? = some (.paired type v) := by
  rw [← padArguments_eq_completed hsplit hrequired, padArguments, List.getElem?_append] at hv
  split at hv
  · exact .inl hv
  · next hreached =>
    have hdefault : (split.defaults.drop args.length)[i - args.length]? = some (some v) := by
      rw [drop_length_defaults hsplit hrequired, List.getElem?_map, hv]
      rfl
    rw [List.getElem?_drop, Nat.add_sub_cancel' (Nat.le_of_not_lt hreached),
      (eq_of_splitSpecs hsplit).2.2.1, List.getElem?_map] at hdefault
    obtain ⟨spec, hspec, hpaired⟩ := Option.map_eq_some_iff.mp hdefault
    cases spec with
    | bare type => cases hpaired
    | paired type default =>
      cases hpaired
      exact .inr ⟨type, hspec⟩

theorem length_completed (hsplit : splitSpecs specs = .ok split) {args : List Value}
    (haccepts : split.arity.accepts args.length) :
    (split.completed args).length = split.types.length := by
  have hbounds := Arity.accepts_iff.mp haccepts
  have hlength := required_add_length_optional hsplit
  rw [← padArguments_eq_completed hsplit hbounds.1, padArguments, List.length_append,
    List.length_drop, length_types hsplit]
  omega

/-- Every position that the arguments do not reach has a default, which stands there. -/
theorem getElem?_completed_of_le (hsplit : splitSpecs specs = .ok split) {args : List Value}
    (haccepts : split.arity.accepts args.length) {i : Nat} (hi : args.length ≤ i)
    (htotal : i < split.arity.total) :
    ∃ type default, specs[i]? = some (.paired type default) ∧
      (split.completed args)[i]? = some default := by
  have hlength := length_completed hsplit haccepts
  rw [length_types hsplit] at hlength
  have hv := List.getElem?_eq_getElem (hlength ▸ htotal)
  obtain hpassed | ⟨type, hspec⟩ :=
    getElem?_completed hsplit (Arity.accepts_iff.mp haccepts).1 hv
  · rw [List.getElem?_eq_none hi] at hpassed
    cases hpassed
  · exact ⟨type, _, hspec, hv⟩

/-- A call with all arguments is complete. -/
theorem completed_of_length (hsplit : splitSpecs specs = .ok split) {args : List Value}
    (htotal : args.length = split.arity.total) : split.completed args = args := by
  have hdrop : split.defaults.drop args.length = [] :=
    List.drop_eq_nil_of_le (Nat.le_of_eq ((length_defaults hsplit).trans htotal.symm))
  simp [completed, hdrop]

end SplitSpec

end DualCall
