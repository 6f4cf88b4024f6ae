import DualCall.Proofs.Specification
import DualCall.Signature.Flags

namespace DualCall

namespace Signature

/-- The same signature; defaults that are no numbers lose their sign and their payload. -/
def withoutPayload (s : Signature) : Signature :=
  { s with args := s.args.map ArgSpec.withoutPayload }

/-- A signature that holds neither procedures nor callables. -/
def IsData (s : Signature) : Prop := ∀ spec ∈ s.args, spec.isData

instance {s : Signature} : Decidable s.IsData := inferInstanceAs (Decidable (∀ spec ∈ s.args, _))

end Signature

namespace SignatureFlags

/-- The flags that say of a signature what is shown of it. -/
def ofSignature (s : Signature) : SignatureFlags where
  symbol := some s.symbol
  library := s.library
  returns := some s.returns.display
  args := s.args.map ArgSpec.display

theorem readArgs_display {specs : List ArgSpec} (hspecs : ∀ spec ∈ specs, spec.isData) :
    readArgs (specs.map ArgSpec.display) = .ok (specs.map ArgSpec.withoutPayload) := by
  induction specs with
  | nil => rfl
  | cons spec rest ih =>
    obtain ⟨hspec, hrest⟩ := List.forall_mem_cons.mp hspecs
    rw [List.map_cons, readArgs, ArgSpec.read_display hspec]
    simp only [ih hrest]
    rfl

/-- The first specification with a procedure or a callable is the one that is reported. -/
theorem readArgs_display_of_not_data {before after : List ArgSpec} {type : NativeType}
    {default : Value} (hbefore : ∀ spec ∈ before, spec.isData) (hdefault : ¬ default.isData) :
    readArgs ((before ++ .paired type default :: after).map ArgSpec.display) =
      .error (.arg (ArgSpec.paired type default).display (.invalidDefault default.display)) := by
  induction before with
  | nil =>
    rw [List.nil_append, List.map_cons, readArgs, ArgSpec.read_display_of_not_data hdefault]
  | cons spec rest ih =>
    obtain ⟨hspec, hrest⟩ := List.forall_mem_cons.mp hbefore
    rw [List.cons_append, List.map_cons, readArgs, ArgSpec.read_display hspec]
    simp only [ih hrest]
    rfl

theorem exists_first_not_data {specs : List ArgSpec} (hspecs : ¬ ∀ spec ∈ specs, spec.isData) :
    ∃ before type default after, specs = before ++ .paired type default :: after ∧
      (∀ spec ∈ before, spec.isData) ∧ ¬ default.isData := by
  induction specs with
  | nil => exact absurd (by simp) hspecs
  | cons spec rest ih =>
    by_cases hspec : spec.isData
    · have hrest : ¬ ∀ spec ∈ rest, spec.isData :=
        fun hall => hspecs (List.forall_mem_cons.mpr ⟨hspec, hall⟩)
      obtain ⟨before, type, default, after, rfl, hbefore, hdefault⟩ := ih hrest
      exact ⟨spec :: before, type, default, after, rfl,
        List.forall_mem_cons.mpr ⟨hspec, hbefore⟩, hdefault⟩
    · cases spec with
      | bare type => exact absurd rfl hspec
      | paired type default =>
        have hdefault : ¬ default.isData := by
          simpa [ArgSpec.isData, ArgSpec.default?] using hspec
        exact ⟨[], type, default, rest, rfl, by simp, hdefault⟩

/-- Flags that are put on top of a signature leave of it only what they do not say. -/
theorem resolve_eq {s start : Signature} {file : Option String} {source : Source}
    (hstart : ({ ofSignature s with file := file } : SignatureFlags).initial source = .ok start) :
    ({ ofSignature s with file := file } : SignatureFlags).resolve source =
      (if s.args = [] then .ok start.args else readArgs (s.args.map ArgSpec.display)).map
        fun args => ⟨s.symbol, s.library.or start.library, s.returns, args⟩ := by
  have hreturns : readReturns start.returns (some s.returns.display) = .ok s.returns := by
    rw [readReturns, NativeType.read_display]
    rfl
  rw [resolve, hstart]
  simp only [ofSignature, List.map_eq_nil_iff, bind, Except.bind, hreturns]
  by_cases hargs : s.args = []
  · rw [if_pos hargs, if_pos hargs]
    rfl
  · rw [if_neg hargs, if_neg hargs]
    cases readArgs (s.args.map ArgSpec.display) <;> rfl

theorem initial_ofSignature {s : Signature} {file : Option String} {source : Source}
    (hfile : ∀ path ∈ file, ∃ start, Signature.load source path = .ok start) :
    ∃ start, ({ ofSignature s with file := file } : SignatureFlags).initial source = .ok start := by
  cases file with
  | none => exact ⟨⟨s.symbol, none, .i32, []⟩, rfl⟩
  | some path => exact hfile path rfl

/-- A signature whose defaults are data is described by the flags that are written from it, in
    whatever order its arguments stand. When it has arguments and a library, the flags describe it
    on top of every file that holds a signature as well, whatever that signature is. A procedure
    or a callable among the defaults is never read: the first such specification is reported,
    with a file and without. -/
theorem resolve_ofSignature (s : Signature) (source : Source) :
    (s.IsData → (ofSignature s).resolve source = .ok s.withoutPayload) ∧
    (s.IsData → s.args ≠ [] → s.library ≠ none → ∀ path start,
      Signature.load source path = .ok start →
      ({ ofSignature s with file := some path } : SignatureFlags).resolve source =
        .ok s.withoutPayload) ∧
    (¬ s.IsData → ∃ before type default after, s.args = before ++ .paired type default :: after ∧
      (∀ spec ∈ before, spec.isData) ∧ ¬ default.isData ∧
      ∀ file : Option String,
        (∀ path ∈ file, ∃ start, Signature.load source path = .ok start) →
        ({ ofSignature s with file := file } : SignatureFlags).resolve source =
          .error (.arg (ArgSpec.paired type default).display
            (.invalidDefault default.display))) := by
  refine ⟨fun hdata => ?_, fun hdata hargs hlibrary path start hload => ?_, fun hdata => ?_⟩
  · have hstart : ({ ofSignature s with file := none } : SignatureFlags).initial source =
        .ok ⟨s.symbol, none, .i32, []⟩ := rfl
    have hread := resolve_eq hstart
    have hargs : (if s.args = [] then .ok [] else readArgs (s.args.map ArgSpec.display)) =
        .ok (s.args.map ArgSpec.withoutPayload) := by
      split
      · next hnil => rw [hnil, List.map_nil]
      · exact readArgs_display hdata
    rw [hargs, Option.or_none] at hread
    exact hread
  · have hstart : ({ ofSignature s with file := some path } : SignatureFlags).initial source =
        .ok start := hload
    have hread := resolve_eq hstart
    obtain ⟨library, hsome⟩ := Option.ne_none_iff_exists'.mp hlibrary
    rw [if_neg hargs, readArgs_display hdata, hsome, Option.some_or, ← hsome] at hread
    exact hread
  · obtain ⟨before, type, default, after, hargs, hbefore, hdefault⟩ := exists_first_not_data hdata
    refine ⟨before, type, default, after, hargs, hbefore, hdefault, fun file hfile => ?_⟩
    obtain ⟨start, hstart⟩ := initial_ofSignature (s := s) hfile
    rw [resolve_eq hstart, if_neg (by simp [hargs]), hargs,
      readArgs_display_of_not_data hbefore hdefault]
    rfl

/-- A number that is written with an exponent, the least integer and the largest address come back
    through flags on top of a file that says otherwise; a procedure does not, whose name has an
    equals sign in it. -/
theorem resolve_ofSignature_extremes :
    let s : Signature := ⟨"scale", some "libm.so.6", .f64,
      [.paired .f64 (.float ⟨0x4341c37937e08000⟩), .bare .u8, .paired .i64 (.int Int64.minValue),
        .paired .pointer (.pointer 0xffffffffffffffff)]⟩
    let source : Source := fun _ => .ok "(symbol:\"f\",returns:Void)"
    let broken : Signature := ⟨"f", none, .void,
      [.bare .i8, .paired .pointer (.procedure ⟨0, "a=b ", .routine []⟩)]⟩
    s.IsData ∧ s.args ≠ [] ∧ s.library ≠ none ∧
      (∃ start, Signature.load source "f.ron" = .ok start) ∧
      ({ ofSignature s with file := some "f.ron" } : SignatureFlags).resolve source = .ok s ∧
      ¬ broken.IsData ∧ (ofSignature broken).resolve source =
        .error (.arg "pointer=<procedure a=b >" (.invalidDefault "<procedure a=b >")) := by
  intro s source broken
  have hdata : s.IsData := by decide
  have hload : Signature.load source "f.ron" = .ok ⟨"f", none, .void, []⟩ := by rfl
  have hsame : s.withoutPayload = s := by rfl
  have hbroken : ¬ broken.IsData := by decide
  obtain ⟨-, hfile, -⟩ := resolve_ofSignature s source
  obtain ⟨before, type, default, after, hargs, -, hdefault, herror⟩ :=
    (resolve_ofSignature broken source).2.2 hbroken
  refine ⟨hdata, by simp [s], by simp [s], ⟨_, hload⟩, ?_, hbroken, ?_⟩
  · rw [hfile hdata (by simp [s]) (by simp [s]) "f.ron" _ hload, hsame]
  · obtain _ | ⟨first, _ | ⟨second, others⟩⟩ := before
    · cases hargs
    · cases hargs
      exact herror none (by simp)
    · simp [broken] at hargs

end SignatureFlags

end DualCall
