import DualCall.Proofs.Call.NativeFacet
import DualCall.Proofs.Ownership.Program

namespace DualCall

/-- A callable made from a procedure points to the code that was generated for this procedure; one
    made from a pointer calls this pointer behind a check of its arguments. -/
def Callable.Formed (s : Machine) (c : Callable) : Prop :=
  match c.origin with
  | .managed => c.pointer.owner = some (.generated c.pointer.address) ∧
      s.code? c.pointer.address = some ⟨c.procedure, c.ret, c.types, false⟩
  | .native => ∃ specs split, splitSpecs specs = .ok split ∧
      c.procedure.CallsNative c.ret c.pointer split ∧ c.types = split.types ∧
      c.arity = split.arity ∧ c.defaults = split.defaults

namespace Handle

/-- An owner of generated code goes with the address of this code. -/
def Formed (s : Machine) : Handle → Prop
  | .pointer q => ∀ address, q.owner = some (.generated address) → q.address = address
  | .value (.unified c) => c.Formed s
  | _ => True

/-- A handle that is well formed at any depth, and whose owners have their code. -/
structure Usable (s : Machine) (h : Handle) : Prop where
  formed : ∀ h', h.Within h' → h'.Formed s
  generated : ∀ address ∈ h.owned, Generated s.codes address

variable {s : Machine}

theorem Usable.part {h h' : Handle} (husable : h.Usable s) (hpart : h.Part h') : h'.Usable s where
  formed h'' hwithin := husable.formed h'' (.head hpart hwithin)
  generated a ha := husable.generated a (hpart.mem_owned ha)

/-- A value is usable when it is well formed and all that it is made of is usable. -/
theorem Usable.of_parts {v : Value} (hformed : Formed s (.value v))
    (hparts : ∀ h', (Handle.value v).Part h' → h'.Usable s) : Usable s (.value v) where
  formed h' hwithin := by
    obtain rfl | ⟨part, hpart, hrest⟩ := Relation.ReflTransGen.cases_head_iff.mp hwithin
    · exact hformed
    · exact (hparts part hpart).formed h' hrest
  generated a ha := by
    obtain ⟨q, hwithin, hq⟩ := hasOwner_iff.mpr ha
    obtain heq | ⟨part, hpart, hrest⟩ := Relation.ReflTransGen.cases_head_iff.mp hwithin
    · cases heq
    · exact (hparts part hpart).generated a (hasOwner_iff.mp ⟨q, hrest, hq⟩)

theorem Usable.pointer {q : NativePointer} (howner : ∀ address,
      q.owner = some (.generated address) → q.address = address ∧ Generated s.codes address) :
    Usable s (.pointer q) where
  formed h' hwithin := by
    obtain rfl | ⟨part, hpart, -⟩ := Relation.ReflTransGen.cases_head_iff.mp hwithin
    · exact fun a ha => (howner a ha).1
    · cases hpart
  generated a ha := (howner a (NativePointer.mem_owned.mp ha)).2

theorem Usable.data {v : Value} (hdata : v.isData = true) : Usable s (.value v) := by
  refine .of_parts ?_ fun h' hpart => ?_
  · cases v with
    | unified c => cases hdata
    | _ => trivial
  · cases hpart <;> cases hdata

theorem Usable.memory (start : UInt64) : Usable s (.memory start) where
  formed h' hwithin := by
    obtain rfl | ⟨part, hpart, -⟩ := Relation.ReflTransGen.cases_head_iff.mp hwithin
    · trivial
    · cases hpart
  generated a ha := by cases ha

/-- A handle stays usable on another machine while the code that it owns stays where it is. -/
theorem Usable.of_code_eq {s' : Machine} {h : Handle} (husable : h.Usable s)
    (hcode : ∀ a ∈ h.owned, Generated s'.codes a ∧ s'.code? a = s.code? a) : h.Usable s' where
  formed h' hwithin := by
    have hformed := husable.formed h' hwithin
    cases h' with
    | value v =>
      cases v with
      | unified c =>
        change c.Formed s at hformed
        change c.Formed s'
        unfold Callable.Formed at hformed ⊢
        cases horigin : c.origin with
        | native => simpa only [horigin] using hformed
        | managed =>
          obtain ⟨howner, hat⟩ : _ ∧ _ := by simpa only [horigin] using hformed
          have howned := hwithin.mem_owned ((Part.pointer c).mem_owned
            (NativePointer.mem_owned.mpr howner))
          exact ⟨howner, (hcode _ howned).2.trans hat⟩
      | _ => trivial
    | pointer q => exact hformed
    | memory start => trivial
  generated a ha := (hcode a ha).1

theorem Usable.generatedPointer {address : UInt64} (hgenerated : Generated s.codes address) :
    Usable s (.pointer ⟨address, some (.generated address)⟩) :=
  .pointer fun a ha => by
    cases ha
    exact ⟨rfl, hgenerated⟩

theorem Usable.routine {p : Procedure} {captured : List Value} (hbody : p.body = .routine captured)
    (hcaptured : ∀ v ∈ captured, Usable s (.value v)) : Usable s (.value (.procedure p)) := by
  refine .of_parts trivial fun h' hpart => ?_
  cases hpart with
  | captured hbody' hv =>
    cases hbody.symm.trans hbody'
    exact hcaptured _ hv
  | called hbody' | adapted hbody' | optional hbody' => cases hbody.symm.trans hbody'

theorem Usable.invoker {p : Procedure} {ret : NativeType} {pointer : NativePointer}
    {types : List NativeType} (hbody : p.body = .invoker ret pointer types)
    (hpointer : Usable s (.pointer pointer)) : Usable s (.value (.procedure p)) := by
  refine .of_parts trivial fun h' hpart => ?_
  cases hpart with
  | called hbody' =>
    cases hbody.symm.trans hbody'
    exact hpointer
  | captured hbody' | adapted hbody' | optional hbody' => cases hbody.symm.trans hbody'

theorem Usable.adapter {p raw : Procedure} {arity : Arity} {optional : List Value}
    (hbody : p.body = .adapter raw arity optional) (hraw : Usable s (.value (.procedure raw)))
    (hoptional : ∀ v ∈ optional, Usable s (.value v)) : Usable s (.value (.procedure p)) := by
  refine .of_parts trivial fun h' hpart => ?_
  cases hpart with
  | adapted hbody' =>
    cases hbody.symm.trans hbody'
    exact hraw
  | optional hbody' hv =>
    cases hbody.symm.trans hbody'
    exact hoptional _ hv
  | captured hbody' | called hbody' => cases hbody.symm.trans hbody'

theorem Usable.unified {c : Callable} (hformed : c.Formed s)
    (hprocedure : Usable s (.value (.procedure c.procedure)))
    (hpointer : Usable s (.pointer c.pointer))
    (hdefaults : ∀ v, some v ∈ c.defaults → Usable s (.value v)) :
    Usable s (.value (.unified c)) := by
  refine .of_parts hformed fun h' hpart => ?_
  cases hpart with
  | procedure => exact hprocedure
  | pointer => exact hpointer
  | default hdefault => exact hdefaults _ hdefault

end Handle

/-- What a value that is usable stands for is usable. -/
theorem Value.usable_behavior {s : Machine} {v : Value} (husable : Handle.Usable s (.value v))
    {behavior : Behavior} (hbehavior : v.behavior? = some behavior) : behavior.handle.Usable s := by
  cases v with
  | procedure p =>
    cases hbehavior
    exact husable
  | unified c =>
    cases hbehavior
    exact husable.part (.procedure c)
  | pointer address =>
    obtain ⟨q, hq, rfl⟩ := Option.map_eq_some_iff.mp hbehavior
    have hbare : q.owner = none := by
      unfold NativePointer.ofAddress? at hq
      split at hq
      · cases hq
      · cases hq
        rfl
    exact .pointer fun a ha => by rw [hbare] at ha; cases ha
  | null | bool | int | float => cases hbehavior

end DualCall
