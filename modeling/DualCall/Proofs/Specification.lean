import DualCall.Proofs.Text.Words
import DualCall.Proofs.Value.Literal
import DualCall.Specification

namespace DualCall

namespace NativeType

theorem display_ne_nil (type : NativeType) : type.display.toList ≠ [] := by
  cases type <;> decide

/-- The names that are shown are plain words, and none of their characters has a meaning. -/
theorem plain_of_mem_display {type : NativeType} {c : Char} (hc : c ∈ type.display.toList) :
    Text.isBlank c = false ∧ c ≠ '*' ∧ c ≠ '=' := by
  have hall : type.display.toList.all fun c => !Text.isBlank c && c != '*' && c != '=' := by
    cases type <;> decide
  simpa [and_assoc] using List.all_eq_true.mp hall c hc

theorem ofName?_display (type : NativeType) : ofName? type.display = some type := by
  cases type <;> decide +kernel

/-- A type is read from the name under which it is shown. -/
theorem read_display (type : NativeType) : read type.display = .ok type := by
  have hstar : '*' ∉ type.display.toList := fun hmem => (plain_of_mem_display hmem).2.1 rfl
  have hwords := Text.words_of_forall (display_ne_nil type) fun c hc => (plain_of_mem_display hc).1
  have hread : read? type.display.toList = some type := by
    rw [read?, if_neg hstar, hwords, Text.unwords, List.intercalate_singleton, String.ofList_toList,
      ofName?_display]
  rw [read, hread]

end NativeType

namespace ArgSpec

/-- The same specification; a default that is no number loses its sign and its payload. -/
def withoutPayload : ArgSpec → ArgSpec
  | .bare type => .bare type
  | .paired type default => .paired type default.withoutPayload

/-- Specifications whose default, if there is one, is data. -/
def isData (spec : ArgSpec) : Bool :=
  spec.default?.all Value.isData

theorem cut_of_not_mem {cs : List Char} (hcs : '=' ∉ cs) : cut cs = (cs, none) := by
  induction cs with
  | nil => rfl
  | cons c cs ih =>
    obtain ⟨hc, hrest⟩ := not_or.mp (mt List.mem_cons.mpr hcs)
    simp [cut, Ne.symm hc, ih hrest]

/-- Only the first equals sign counts. -/
theorem cut_append {cs : List Char} (hcs : '=' ∉ cs) (rest : List Char) :
    cut (cs ++ '=' :: rest) = (cs, some rest) := by
  induction cs with
  | nil => simp [cut]
  | cons c cs ih =>
    obtain ⟨hc, hrest⟩ := not_or.mp (mt List.mem_cons.mpr hcs)
    simp [cut, Ne.symm hc, ih hrest]

theorem cut_display_paired (type : NativeType) (default : Value) :
    cut (paired type default).display.toList =
      (type.display.toList, some default.display.toList) := by
  have hequals : '=' ∉ type.display.toList :=
    fun hmem => (NativeType.plain_of_mem_display hmem).2.2 rfl
  have htext : (paired type default).display.toList =
      type.display.toList ++ '=' :: default.display.toList := by
    simp [display]
  rw [htext, cut_append hequals]

/-- A specification without a procedure or a callable is read from its text. -/
theorem read_display {spec : ArgSpec} (hspec : spec.isData) :
    read spec.display = .ok spec.withoutPayload := by
  cases spec with
  | bare type =>
    have hequals : '=' ∉ type.display.toList :=
      fun hmem => (NativeType.plain_of_mem_display hmem).2.2 rfl
    rw [read, display, cut_of_not_mem hequals]
    simp only [String.ofList_toList, NativeType.read_display]
    rfl
  | paired type default =>
    have hdata : default.isData := by simpa [isData, default?] using hspec
    have htrim := Text.trim_of_forall fun c hc => Value.isBlank_of_mem_display hdata hc
    rw [read, cut_display_paired]
    simp only [String.ofList_toList, NativeType.read_display, htrim,
      Value.readTrimmed?_display hdata]
    rfl

/-- What is shown of a procedure or a callable stands in angle brackets, whatever its name is. -/
theorem angle_of_not_data {v : Value} (hv : ¬ v.isData) :
    ∃ inner, v.display.toList = '<' :: (inner ++ ['>']) := by
  cases v with
  | procedure p => exact ⟨"procedure ".toList ++ p.name.toList, by simp [Value.display]⟩
  | unified c =>
    exact ⟨"unified ".toList ++ c.procedure.name.toList ++ " @ ".toList ++
      c.pointer.display.toList, by simp [Value.display]⟩
  | _ => exact absurd rfl hv

/-- The text of a specification with a procedure or a callable is refused for its default. -/
theorem read_display_of_not_data {type : NativeType} {default : Value} (hdata : ¬ default.isData) :
    read (paired type default).display = .error (.invalidDefault default.display) := by
  obtain ⟨inner, hinner⟩ := angle_of_not_data hdata
  have htrim : Text.trim default.display.toList = default.display.toList := by
    rw [hinner]
    refine Text.trim_of_ends (fun c hc => ?_) fun c hc => ?_
    · cases hc
      decide
    · rw [← List.cons_append, List.getLast?_append] at hc
      cases hc
      decide
  have hread : Value.readTrimmed? default.display.toList = none := by
    rw [hinner, Value.readTrimmed?_angle]
  rw [read, cut_display_paired]
  simp only [String.ofList_toList, NativeType.read_display, htrim, hread]

end ArgSpec

end DualCall
