import DualCall.Proofs.Signature.Flags

namespace DualCall

/-- The same field; defaults that are no numbers lose their sign and their payload. -/
def SignatureField.withoutPayload : SignatureField → SignatureField
  | .args specs => .args (specs.map ArgSpec.withoutPayload)
  | field => field

namespace Signature

/-- Fields that tell of a signature what it is, in any order. A library that there is not and
    arguments that there are not may be left out. -/
def DescribedBy (s : Signature) (fields : List SignatureField) : Prop :=
  ∃ library args, fields.Perm (.symbol s.symbol :: .returns s.returns :: (library ++ args)) ∧
    (library = [.library s.library] ∨ s.library = none ∧ library = []) ∧
    (args = [.args s.args] ∨ s.args = [] ∧ args = [])

/-- The symbol or the returned type is missing, or one of the four fields occurs again. -/
def Faulty (fields : List SignatureField) : Prop :=
  fields.filterMap SignatureField.symbol? = [] ∨ fields.filterMap SignatureField.returns? = [] ∨
    1 < (fields.filterMap SignatureField.symbol?).length ∨
    1 < (fields.filterMap SignatureField.library?).length ∨
    1 < (fields.filterMap SignatureField.returns?).length ∨
    1 < (fields.filterMap SignatureField.args?).length

variable {s : Signature} {fields : List SignatureField}

/-- Fields are refused exactly if they are faulty. -/
theorem ofFields?_eq_none_iff : ofFields? fields = none ↔ Faulty fields := by
  unfold ofFields? Faulty
  generalize fields.filterMap SignatureField.symbol? = symbols
  generalize fields.filterMap SignatureField.returns? = returns
  rcases symbols with _ | ⟨symbol, _ | ⟨symbol', symbols⟩⟩ <;>
    rcases returns with _ | ⟨type, _ | ⟨type', returns⟩⟩ <;> simp
  omega

theorem faulty_withoutPayload :
    Faulty (fields.map SignatureField.withoutPayload) ↔ Faulty fields := by
  have hsymbol : SignatureField.symbol? ∘ SignatureField.withoutPayload =
      SignatureField.symbol? := by
    funext field
    cases field <;> rfl
  have hlibrary : SignatureField.library? ∘ SignatureField.withoutPayload =
      SignatureField.library? := by
    funext field
    cases field <;> rfl
  have hreturns : SignatureField.returns? ∘ SignatureField.withoutPayload =
      SignatureField.returns? := by
    funext field
    cases field <;> rfl
  have hargs : SignatureField.args? ∘ SignatureField.withoutPayload = fun field =>
      field.args?.map (List.map ArgSpec.withoutPayload) := by
    funext field
    cases field <;> rfl
  simp only [Faulty, List.filterMap_map, hsymbol, hlibrary, hreturns, hargs, ← List.map_filterMap,
    List.length_map]

theorem eq_of_perm_of_length_le {α : Type} {as bs : List α} (hperm : as.Perm bs)
    (hlength : as.length ≤ 1) : as = bs := by
  match as, hlength with
  | [], _ => exact hperm.nil_eq
  | [a], _ => exact (List.perm_singleton.mp hperm.symm).symm

/-- The order of fields does not matter. -/
theorem ofFields?_of_perm {fields' : List SignatureField} (hperm : fields.Perm fields') :
    ofFields? fields = ofFields? fields' := by
  have hsymbol := hperm.filterMap SignatureField.symbol?
  have hlibrary := hperm.filterMap SignatureField.library?
  have hreturns := hperm.filterMap SignatureField.returns?
  have hargs := hperm.filterMap SignatureField.args?
  by_cases hfaulty : Faulty fields
  · have hfaulty' : Faulty fields' := by
      simpa only [Faulty, ← List.length_eq_zero_iff, hsymbol.length_eq, hlibrary.length_eq,
        hreturns.length_eq, hargs.length_eq] using hfaulty
    rw [ofFields?_eq_none_iff.mpr hfaulty, ofFields?_eq_none_iff.mpr hfaulty']
  · simp only [Faulty, not_or, Nat.not_lt] at hfaulty
    obtain ⟨-, -, hsymbols, hlibraries, hreturns', hargs'⟩ := hfaulty
    rw [ofFields?, ofFields?, eq_of_perm_of_length_le hsymbol hsymbols,
      eq_of_perm_of_length_le hlibrary hlibraries, eq_of_perm_of_length_le hreturns hreturns',
      eq_of_perm_of_length_le hargs hargs']

/-- Fields that describe a signature are put together to it. -/
theorem DescribedBy.ofFields?_eq (hfields : s.DescribedBy fields) : ofFields? fields = some s := by
  obtain ⟨library, args, hperm, hlibrary, hargs⟩ := hfields
  obtain ⟨symbol, path, returns, specs⟩ := s
  rw [ofFields?_of_perm hperm]
  rcases hlibrary with rfl | ⟨rfl, rfl⟩ <;> rcases hargs with rfl | ⟨rfl, rfl⟩ <;> rfl

theorem DescribedBy.withoutPayload (hfields : s.DescribedBy fields) :
    s.withoutPayload.DescribedBy (fields.map SignatureField.withoutPayload) := by
  obtain ⟨library, args, hperm, hlibrary, hargs⟩ := hfields
  refine ⟨library.map SignatureField.withoutPayload, args.map SignatureField.withoutPayload, ?_,
    ?_, ?_⟩
  · rw [← List.map_append]
    exact hperm.map SignatureField.withoutPayload
  · rcases hlibrary with rfl | ⟨hnone, rfl⟩
    · exact .inl rfl
    · exact .inr ⟨hnone, rfl⟩
  · rcases hargs with rfl | ⟨hnil, rfl⟩
    · exact .inl rfl
    · exact .inr ⟨by simp [Signature.withoutPayload, hnil], rfl⟩

end Signature

end DualCall
