import DualCall.Proofs.Call.RoundTrip
import DualCall.Proofs.Native.Canonical
import DualCall.Proofs.SpecList.Shape

namespace DualCall

namespace SplitSpec

variable {specs : List ArgSpec} {split : SplitSpec}

/-- With all arguments required, a call is complete as it is. -/
theorem completed_bare {types : List NativeType} {args : List Value}
    (hlength : args.length = types.length) : (bare types).completed args = args :=
  completed_of_length (splitSpecs_bare types) hlength

/-- What arrives of the first arguments is completed to what travels on as the same scalars. -/
theorem carry_completed_arrived {types : List NativeType} (hstart : types <+: split.types)
    {args arrived : List Value} (hlength : args.length = types.length)
    (harrive : Value.Arrive types args arrived) {scalars : List Scalar} :
    Scalar.Carry split.types (split.completed arrived) scalars ↔
      Scalar.Carry split.types (split.completed args) scalars := by
  obtain ⟨rest, hrest⟩ := hstart
  have harrived := harrive.length_eq hlength.symm
  rw [completed, completed, harrived, hlength, ← hrest]
  exact harrive.carry_iff hlength.symm

/-- The first arguments convert when all completed ones do. -/
theorem convert_of_convert_completed {types : List NativeType} (hstart : types <+: split.types)
    {args : List Value} (hconvert : Scalar.Convert split.types (split.completed args)) :
    Scalar.Convert types args := by
  intro i type value htype hvalue
  obtain ⟨rest, hrest⟩ := hstart
  apply hconvert i type value
  · rw [← hrest, List.getElem?_append_left (List.getElem?_eq_some_iff.mp htype).1, htype]
  · rw [completed, List.getElem?_append_left (List.getElem?_eq_some_iff.mp hvalue).1, hvalue]

theorem firstMismatch_completed {types : List NativeType} (hstart : types <+: split.types)
    {args : List Value} {position : Nat} {type : NativeType} {value : Value}
    (hfirst : Scalar.FirstMismatch types args position type value) :
    Scalar.FirstMismatch split.types (split.completed args) position type value := by
  obtain ⟨rest, hrest⟩ := hstart
  rw [← hrest]
  exact hfirst.append rest _

/-- When only something behind the arguments does not convert, it is a default. -/
theorem default_of_firstMismatch_completed (hsplit : splitSpecs specs = .ok split)
    {types : List NativeType} (hstart : types <+: split.types) {args : List Value}
    (hlength : args.length = types.length) (hrequired : split.arity.required ≤ args.length)
    (hconvert : Scalar.Convert types args) {position : Nat} {type : NativeType} {value : Value}
    (hfirst : Scalar.FirstMismatch split.types (split.completed args) position type value) :
    args.length ≤ position ∧ split.defaults[position]? = some (some value) := by
  have hpassed (hvalue : args[position]? = some value) : False := by
    have hlt : position < types.length := hlength ▸ (List.getElem?_eq_some_iff.mp hvalue).1
    have htype : types[position]? = some type := by
      rw [← hfirst.type_eq, List.prefix_iff_getElem?.mp hstart position hlt]
      exact List.getElem?_eq_getElem hlt
    exact hfirst.mismatch (hconvert position type value htype hvalue)
  constructor
  · apply Nat.le_of_not_lt
    intro hlt
    apply hpassed
    rw [← hfirst.value_eq, completed, List.getElem?_append_left hlt]
  · obtain hvalue | ⟨declared, hspec⟩ := getElem?_completed hsplit hrequired hfirst.value_eq
    · exact (hpassed hvalue).elim
    · rw [(eq_of_splitSpecs hsplit).2.2.1, List.getElem?_map, hspec]
      rfl

end SplitSpec

namespace Machine

variable {s : Machine} {specs : List ArgSpec} {split : SplitSpec} {p : Procedure}
  {ret : NativeType} {pointer : NativePointer}

/-- Only a call of native code whose arguments and defaults all convert returns. -/
theorem convert_of_call_eq_value (hnative : s.backend = .native)
    (hsplit : splitSpecs specs = .ok split) (hvoid : .void ∉ split.types)
    (hp : p.CallsNative ret pointer split) {depth : Nat} {args : List Value}
    (haccepts : split.arity.accepts args.length) {v : Value} {before after : Activity}
    (hcall : (s.call (depth + 2) p args).run before = .ok (.value v, after)) :
    Scalar.Convert split.types (split.completed args) := by
  by_contra hconvert
  obtain ⟨position, type, value, -, hfailure⟩ :=
    call_of_not_convert hnative hsplit hvoid hp haccepts hconvert depth
  rw [hfailure] at hcall
  cases hcall

/-- The result of native code is received as it is. -/
theorem call_received (hnative : s.backend = .native) (hsplit : splitSpecs specs = .ok split)
    (hvoid : .void ∉ split.types) (hp : p.CallsNative ret pointer split) {args : List Value}
    (haccepts : split.arity.accepts args.length)
    (hconvert : Scalar.Convert split.types (split.completed args)) (depth : Nat) :
    (do
      let outcome ← s.call (depth + 2) p args
      return .value (outcome.received ret)) = s.call (depth + 2) p args := by
  have hlength := SplitSpec.length_completed hsplit haccepts
  obtain ⟨scalars, hcarry⟩ := Scalar.exists_carry_of_convert hlength.symm hvoid hconvert
  have hreceived (slot : UInt64) :
      (Outcome.value (.ofSlot ret slot)).received ret = .ofSlot ret slot :=
    Value.Canonical.received ⟨slot, Value.ofSlot_eq_ofWord ret slot⟩
  rw [call_of_carry hnative hsplit hvoid hp haccepts hcarry]
  simp only [bind_assoc, pure_bind, hreceived]

/-- A call of native code with what has arrived of the first arguments is the call with the
    arguments themselves, when these and the defaults behind them convert. When something does not
    convert, it fails as well. -/
theorem call_arrived (hnative : s.backend = .native) (hsplit : splitSpecs specs = .ok split)
    (hvoid : .void ∉ split.types) (hp : p.CallsNative ret pointer split)
    {types : List NativeType} (hstart : types <+: split.types)
    (haccepts : split.arity.accepts types.length) {args arrived : List Value}
    (hlength : args.length = types.length) (harrive : Value.Arrive types args arrived)
    (depth : Nat) :
    (Scalar.Convert split.types (split.completed args) →
      s.call (depth + 2) p arrived = s.call (depth + 2) p args) ∧
    (¬ Scalar.Convert split.types (split.completed args) →
      ∃ e, s.call (depth + 2) p arrived = pure (.failure e)) := by
  have hcarry {scalars : List Scalar} : Scalar.Carry split.types (split.completed arrived) scalars ↔
      Scalar.Carry split.types (split.completed args) scalars :=
    SplitSpec.carry_completed_arrived hstart hlength harrive
  have hargs : split.arity.accepts args.length := hlength.symm ▸ haccepts
  have harrived : split.arity.accepts arrived.length :=
    (harrive.length_eq hlength.symm).symm ▸ haccepts
  have hcompleted := SplitSpec.length_completed hsplit hargs
  have hcompleted' := SplitSpec.length_completed hsplit harrived
  constructor
  · intro hconvert
    obtain ⟨scalars, hscalars⟩ := Scalar.exists_carry_of_convert hcompleted.symm hvoid hconvert
    rw [call_of_carry hnative hsplit hvoid hp hargs hscalars,
      call_of_carry hnative hsplit hvoid hp harrived (hcarry.mpr hscalars)]
  · intro hconvert
    have hnot : ¬ Scalar.Convert split.types (split.completed arrived) := by
      rw [Scalar.convert_iff_exists_carry hcompleted.symm hvoid] at hconvert
      rw [Scalar.convert_iff_exists_carry hcompleted'.symm hvoid]
      exact fun ⟨scalars, hscalars⟩ => hconvert ⟨scalars, hcarry.mp hscalars⟩
    obtain ⟨position, type, value, -, hfailure⟩ :=
      call_of_not_convert hnative hsplit hvoid hp harrived hnot depth
    exact ⟨_, hfailure⟩

/-- How calls of a procedure in front of native code go together with the same calls of another one
    that leads to it under the first of its types, with nothing left out. -/
structure LeadsTo (s : Machine) (outer : Procedure) (types : List NativeType) (inner : Procedure)
    (ret : NativeType) (split : SplitSpec) (args : List Value) (depth : Nat) : Prop where
  /-- While everything converts there is no difference. -/
  converted : Scalar.Convert split.types (split.completed args) →
    s.call (depth + 5) outer args = s.call (depth + 2) inner args
  value : ∀ v before after,
    (s.call (depth + 2) inner args).run before = .ok (.value v, after) →
    (s.call (depth + 5) outer args).run before = .ok (.value v, after)
  /-- A mistake in an argument is noticed in front of both. -/
  supplied : ¬ Scalar.Convert types args → ∃ position type value,
    Scalar.FirstMismatch types args position type value ∧
    s.call (depth + 2) inner args = pure (.failure (.typeMismatch position type value.describe)) ∧
    s.call (depth + 5) outer args = pure (.failure (.typeMismatch position type value.describe))
  /-- A mistake in a default is noticed behind the first. -/
  omitted : Scalar.Convert types args → ¬ Scalar.Convert split.types (split.completed args) →
    ∃ position type default, args.length ≤ position ∧
      split.types[position]? = some type ∧ split.defaults[position]? = some (some default) ∧
      Scalar.FirstMismatch split.types (split.completed args) position type default ∧
      s.call (depth + 2) inner args =
        pure (.failure (.typeMismatch position type default.describe)) ∧
      s.call (depth + 5) outer args = pure (.value (.zero ret))

section

variable {types : List NativeType} {outer : Procedure} {front : NativePointer}
  {args : List Value}

theorem leadsTo_of_wraps (hnative : s.backend = .native) (hsplit : splitSpecs specs = .ok split)
    (hvoid : .void ∉ split.types) (hp : p.CallsNative ret pointer split)
    (hwraps : s.Wraps front ret (.bare types) outer p) (hstart : types <+: split.types)
    (haccepts : split.arity.accepts types.length) (hlength : args.length = types.length)
    (depth : Nat) : s.LeadsTo outer types p ret split args depth := by
  have hbare := splitSpecs_bare types
  have hvoid' : .void ∉ types := fun hmem => hvoid (hstart.subset hmem)
  have hargs : split.arity.accepts args.length := hlength.symm ▸ haccepts
  have hargs' : (SplitSpec.bare types).arity.accepts args.length :=
    SplitSpec.accepts_bare.mpr hlength
  have hcompleted : (SplitSpec.bare types).completed args = args := SplitSpec.completed_bare hlength
  have houter {arrived : List Value} (harrive : Value.Arrive types args arrived) :=
    call_of_wraps hnative hbare hvoid' hwraps hargs' (hcompleted.symm ▸ harrive) (depth + 2)
  have hconverted (hconvert : Scalar.Convert split.types (split.completed args)) :
      s.call (depth + 5) outer args = s.call (depth + 2) p args := by
    obtain ⟨arrived, harrive⟩ :=
      Value.exists_arrive_of_convert hlength.symm hvoid'
        (SplitSpec.convert_of_convert_completed hstart hconvert)
    rw [houter harrive, (call_arrived hnative hsplit hvoid hp hstart haccepts hlength harrive
      depth).1 hconvert, call_received hnative hsplit hvoid hp hargs hconvert]
  refine ⟨hconverted, fun v before after hcall => ?_, fun hconvert => ?_,
    fun hconvert hdefault => ?_⟩
  · rwa [hconverted (convert_of_call_eq_value hnative hsplit hvoid hp hargs hcall)]
  · obtain ⟨position, type, value, hfirst⟩ :=
      Scalar.exists_firstMismatch_of_not_convert hlength.symm hvoid' hconvert
    refine ⟨position, type, value, hfirst, ?_, ?_⟩
    · exact call_of_firstMismatch hnative hsplit hvoid hp hargs
        (SplitSpec.firstMismatch_completed hstart hfirst) depth
    · exact call_of_firstMismatch hnative hbare hvoid' hwraps.calls hargs'
        (hcompleted.symm ▸ hfirst) (depth + 3)
  · obtain ⟨position, type, default, hfirst, hfailure⟩ :=
      call_of_not_convert hnative hsplit hvoid hp hargs hdefault depth
    obtain ⟨hle, hdeclared⟩ := SplitSpec.default_of_firstMismatch_completed hsplit hstart hlength
      (Arity.accepts_iff.mp hargs).1 hconvert hfirst
    refine ⟨position, type, default, hle, hfirst.type_eq, hdeclared, hfirst, hfailure, ?_⟩
    obtain ⟨arrived, harrive⟩ := Value.exists_arrive_of_convert hlength.symm hvoid' hconvert
    obtain ⟨e, he⟩ :=
      (call_arrived hnative hsplit hvoid hp hstart haccepts hlength harrive depth).2 hdefault
    rw [houter harrive, he]
    rfl

/-- A number of arguments that native code does not take is noticed behind the procedure in front
    of it, and the native code is not entered. -/
theorem call_of_wraps_not_accepts (hnative : s.backend = .native)
    (hp : p.CallsNative ret pointer split) (hwraps : s.Wraps front ret (.bare types) outer p)
    (hvoid : .void ∉ types) (haccepts : ¬ split.arity.accepts types.length)
    (hlength : args.length = types.length) (hconvert : Scalar.Convert types args) (depth : Nat) :
    s.call (depth + 4) outer args = pure (.value (.zero ret)) := by
  obtain ⟨arrived, harrive⟩ := Value.exists_arrive_of_convert hlength.symm hvoid hconvert
  have harrived : ¬ split.arity.accepts arrived.length :=
    (harrive.length_eq hlength.symm).symm ▸ haccepts
  rw [call_of_wraps hnative (splitSpecs_bare types) hvoid hwraps
    (SplitSpec.accepts_bare.mpr hlength) ((SplitSpec.completed_bare hlength).symm ▸ harrive)
    (depth + 1), call_of_not_accepts hp harrived]
  rfl

end

/-- A callable of native code that is unified again under other types, all of them required. The new
    callable itself calls the old one as it is. The callable of its pointer checks its arguments
    against the new types, calls the old one with what arrives of them, and receives zero where the
    old one fails. If the new types are the first ones of the old signature and as many as it
    accepts, both therefore return the same and report the same mistakes in arguments, but only the
    old one reports a mistake in a default. If the old one does not accept as many, only zero comes
    back. All this stays so as long as the code does. -/
theorem call_reunified {s₀ s₀' : Machine} (hnative₀ : s₀.backend = .native) {ret : NativeType}
    {pointer : NativePointer} {specs : List ArgSpec} {u : Callable}
    (hu : (unify ret (.native pointer) specs).run s₀ = .ok (.ok u, s₀')) {s : Machine}
    (hnative : s.backend = .native) (types : List NativeType) :
    (∀ m s₁, (unifyValue ret (.unified u) (types.map .bare)).run s = .ok (.ok m, s₁) →
      ∀ (t : Machine) depth args,
        t.call depth m.procedure args = t.call depth u.procedure args) ∧
    (.void ∈ types → (unifyValue ret (.unified u) (types.map .bare)).run s =
      .ok (.error (.unsupportedType "derive: argument" .void), s)) ∧
    (types <+: u.types → .void ∉ types) ∧
    (.void ∉ types → ∃ m s₁,
      (unifyValue ret (.unified u) (types.map .bare)).run s = .ok (.ok m, s₁) ∧
      s₁.backend = .native ∧
      ∀ r : Machine, r.backend = .native → ∃ n r₁,
        (unify ret (.native m.pointer) (types.map .bare)).run r = .ok (.ok n, r₁) ∧
        r₁.backend = .native ∧ r₁.codes = r.codes ∧
        ∀ t : Machine, t.backend = .native →
          t.code? m.pointer.address = s₁.code? m.pointer.address →
          ∀ args, args.length = types.length → ∀ depth,
            (types <+: u.types → u.arity.accepts types.length →
              t.LeadsTo n.procedure types u.procedure ret u.split args depth) ∧
            (¬ u.arity.accepts types.length → Scalar.Convert types args →
              t.call (depth + 4) n.procedure args = pure (.value (.zero ret)))) := by
  obtain ⟨hsplit, hvoid, hcalls⟩ := of_unify_native hnative₀ hu
  have hbare := splitSpecs_bare types
  refine ⟨fun m s₁ hm t depth args => ?_, fun hmem => ?_, fun hstart hmem => ?_,
    fun hnone => ?_⟩
  · rw [procedure_of_unify hm]
  · exact unify_procedure_of_void hnative hbare hmem ret u.procedure
  · exact hvoid (hstart.subset hmem)
  · obtain ⟨m, hm, hprocedure, hpointer⟩ :=
      unify_procedure hnative hbare hnone ret u.procedure
    refine ⟨m, _, hm, hnative, fun r hr => ?_⟩
    obtain ⟨n, hn, -, hn'⟩ := unify_native hr hbare hnone ret m.pointer
    refine ⟨n, _, hn, hr, rfl, fun t ht hcode args hlength depth => ?_⟩
    have hwraps : t.Wraps m.pointer ret (.bare types) n.procedure u.procedure := by
      refine ⟨hn', false, ?_⟩
      rw [hcode, hpointer]
      simp [code?, SplitSpec.bare]
    exact ⟨fun hstart haccepts =>
      leadsTo_of_wraps ht hsplit hvoid hcalls hwraps hstart haccepts hlength depth,
      fun haccepts hconvert =>
        call_of_wraps_not_accepts ht hcalls hwraps hnone haccepts hlength hconvert depth⟩

/-- A sum of three numbers, of which the last is declared with a default that does not fit. Under
    its first two types the mistake is reported by the callable itself, and the one in front of it
    returns zero. -/
theorem call_reunified_sum :
    let f : NativeFunction := fun scalars memory =>
      .finish (scalars.foldr (fun x total => x.word + total) 0) memory
    let s := Machine.native fun address => if address = 0x40 then some f else none
    let specs : List ArgSpec := [.bare .i32, .paired .u8 (.int 7), .paired .u8 (.int 300)]
    let args : List Value := [.int 5, .int 6]
    s.backend = .native ∧
      ∃ u s', (unify .i64 (.native ⟨0x40, none⟩) specs).run s = .ok (.ok u, s') ∧
      [.i32, .u8] <+: u.types ∧ u.arity.accepts 2 ∧
      ∃ m s₁, (unifyValue .i64 (.unified u) [.bare .i32, .bare .u8]).run s' = .ok (.ok m, s₁) ∧
        ∃ n t, (unify .i64 (.native m.pointer) [.bare .i32, .bare .u8]).run s₁ = .ok (.ok n, t) ∧
          t.call 2 u.procedure args = pure (.failure (.typeMismatch 2 .u8 "integer 300")) ∧
          t.call 5 n.procedure args = pure (.value (.int 0)) := by
  intro f s specs args
  let split : SplitSpec := ⟨[.i32, .u8, .u8], [none, some (.int 7), some (.int 300)], ⟨1, 3⟩⟩
  have hsplit : splitSpecs specs = .ok split := rfl
  have hnative : s.backend = .native := rfl
  obtain ⟨u, hu, -, -⟩ := unify_native hnative hsplit (by decide) .i64 ⟨0x40, none⟩
  obtain hsame : split = u.split :=
    Except.ok.inj (hsplit.symm.trans (of_unify_native hnative hu).1)
  have htypes : u.types = [.i32, .u8, .u8] := congrArg SplitSpec.types hsame.symm
  have harity : u.arity = ⟨1, 3⟩ := congrArg SplitSpec.arity hsame.symm
  have hstart : [.i32, .u8] <+: u.types := htypes ▸ ⟨[.u8], rfl⟩
  have haccepts : u.arity.accepts 2 := harity ▸ rfl
  obtain ⟨-, -, -, hcallable⟩ := call_reunified hnative hu (s := { s with nextIdentity := 3 }) rfl
    [.i32, .u8]
  obtain ⟨m, s₁, hm, hnative₁, hpointer⟩ := hcallable (by decide)
  obtain ⟨n, t, hn, ht, hcodes, hcalls⟩ := hpointer s₁ hnative₁
  have hcode : t.code? m.pointer.address = s₁.code? m.pointer.address := by
    simp only [code?, hcodes]
  have hleads := (hcalls t ht hcode args rfl 0).1 hstart haccepts
  have hconvert : ¬ Scalar.Convert u.split.types (u.split.completed args) := by
    rw [← hsame]
    decide
  obtain ⟨position, type, default, -, -, -, hfirst, hinner, houter⟩ :=
    hleads.omitted (by decide) hconvert
  rw [← hsame] at hfirst
  obtain ⟨rfl, rfl, rfl⟩ := hfirst.unique (.tail (by decide) (.tail (by decide) (.head (by decide))))
  have htext : (Value.int 300).describe = "integer 300" := by decide +kernel
  rw [htext] at hinner
  exact ⟨hnative, u, _, hu, hstart, haccepts, m, s₁, hm, n, t, hn, hinner, houter⟩

end Machine

end DualCall
