import DualCall.Call.Unification
import DualCall.Proofs.Call.Machine
import DualCall.Proofs.Native.ReturnSlot
import DualCall.Proofs.SpecList

namespace DualCall

/-- A procedure that checks the number of its arguments, completes them and then calls the native
    code at a pointer with the types of a split signature. -/
def Procedure.CallsNative (p : Procedure) (ret : NativeType) (pointer : NativePointer)
    (split : SplitSpec) : Prop :=
  ∃ raw : Procedure, raw.body = .invoker ret pointer split.types ∧
    p.body = .adapter raw split.arity split.optional

/-- The signature under which a callable was made, taken apart. -/
def Callable.split (c : Callable) : SplitSpec := ⟨c.types, c.defaults, c.arity⟩

namespace Machine

variable {s : Machine}

theorem call_adapter {p raw : Procedure} {arity : Arity} {optional : List Value}
    (hbody : p.body = .adapter raw arity optional) (depth : Nat) (args : List Value) :
    s.call (depth + 1) p args =
      if arity.accepts args.length then s.call depth raw (padArguments arity optional args)
      else pure (.failure (.arity arity.required arity.total args.length args)) := by
  rw [call, hbody]

theorem call_invoker (hnative : s.backend = .native) {p : Procedure} {ret : NativeType}
    {pointer : NativePointer} {types : List NativeType}
    (hbody : p.body = .invoker ret pointer types) (depth : Nat) (args : List Value) :
    s.call (depth + 1) p args = invokeNative (s.enter depth) ret pointer types args := by
  rw [call, hbody]
  simp only [hnative]

/-- Entering generated code calls its procedure once, with the values in the words. -/
theorem enter_code {address : UInt64} {code : Code} (hcode : s.code? address = some code)
    (depth : Nat) (scalars : List Scalar) :
    s.enter (depth + 1) address scalars = (do
      let outcome ← s.call depth code.procedure
        (List.zipWith Value.ofWord code.types (scalars.map Scalar.word))
      return fillSlot code.ret outcome 0) := by
  rw [enter]
  simp only [hcode]
  rfl

theorem enter_function {address : UInt64} {f : NativeFunction} (hcode : s.code? address = none)
    (hfunction : s.functions address = some f) (depth : Nat) (scalars : List Scalar) :
    s.enter (depth + 1) address scalars = (do
      let activity ← get
      followNative (s.enter depth) (f scalars activity.memory)) := by
  rw [enter]
  simp only [hcode, hfunction]

section

variable {specs : List ArgSpec} {split : SplitSpec} {p : Procedure} {ret : NativeType}
  {pointer : NativePointer} {args : List Value}

/-- A call with too few or too many arguments fails before anything else is done. -/
theorem call_of_not_accepts (hp : p.CallsNative ret pointer split)
    (haccepts : ¬ split.arity.accepts args.length) (depth : Nat) :
    s.call (depth + 1) p args =
      pure (.failure (.arity split.arity.required split.arity.total args.length args)) := by
  obtain ⟨raw, -, hbody⟩ := hp
  rw [call_adapter hbody, if_neg haccepts]

theorem call_of_accepts (hnative : s.backend = .native) (hsplit : splitSpecs specs = .ok split)
    (hp : p.CallsNative ret pointer split) (haccepts : split.arity.accepts args.length)
    (depth : Nat) :
    s.call (depth + 2) p args =
      invokeNative (s.enter depth) ret pointer split.types (split.completed args) := by
  obtain ⟨raw, hraw, hbody⟩ := hp
  have hrequired := (Arity.accepts_iff.mp haccepts).1
  rw [call_adapter hbody, if_pos haccepts, call_invoker hnative hraw,
    SplitSpec.padArguments_eq_completed hsplit hrequired]

/-- When an argument or a default that stands for one does not convert, the call fails with the
    first such position, and the native code is not entered. -/
theorem call_of_firstMismatch (hnative : s.backend = .native)
    (hsplit : splitSpecs specs = .ok split) (hvoid : .void ∉ split.types)
    (hp : p.CallsNative ret pointer split) (haccepts : split.arity.accepts args.length)
    {position : Nat} {type : NativeType} {value : Value}
    (hfirst : Scalar.FirstMismatch split.types (split.completed args) position type value)
    (depth : Nat) :
    s.call (depth + 2) p args =
      pure (.failure (.typeMismatch position type value.describe)) := by
  have hlength := SplitSpec.length_completed hsplit haccepts
  rw [call_of_accepts hnative hsplit hp haccepts, invokeNative, if_neg (not_not_intro hlength),
    Scalar.marshalFrom_of_firstMismatch hlength.symm hvoid hfirst, Nat.zero_add]

theorem call_of_not_convert (hnative : s.backend = .native) (hsplit : splitSpecs specs = .ok split)
    (hvoid : .void ∉ split.types) (hp : p.CallsNative ret pointer split)
    (haccepts : split.arity.accepts args.length)
    (hconvert : ¬ Scalar.Convert split.types (split.completed args)) (depth : Nat) :
    ∃ position type value,
      Scalar.FirstMismatch split.types (split.completed args) position type value ∧
      s.call (depth + 2) p args =
        pure (.failure (.typeMismatch position type value.describe)) := by
  have hlength := SplitSpec.length_completed hsplit haccepts
  obtain ⟨position, type, value, hfirst⟩ :=
    Scalar.exists_firstMismatch_of_not_convert hlength.symm hvoid hconvert
  exact ⟨position, type, value, hfirst,
    call_of_firstMismatch hnative hsplit hvoid hp haccepts hfirst depth⟩

/-- When all arguments and defaults convert, the native code is entered once with their scalars, and
    the call returns what is decoded from the return slot. -/
theorem call_of_carry (hnative : s.backend = .native) (hsplit : splitSpecs specs = .ok split)
    (hvoid : .void ∉ split.types) (hp : p.CallsNative ret pointer split)
    (haccepts : split.arity.accepts args.length) {scalars : List Scalar}
    (hcarry : Scalar.Carry split.types (split.completed args) scalars) (depth : Nat) :
    s.call (depth + 2) p args = (do
      let slot ← s.enter depth pointer.address scalars
      return .value (Value.ofSlot ret slot)) := by
  have hlength := SplitSpec.length_completed hsplit haccepts
  rw [call_of_accepts hnative hsplit hp haccepts, invokeNative, if_neg (not_not_intro hlength),
    Scalar.marshalFrom_of_carry hlength.symm hvoid hcarry]

/-- A call fails for the number of its arguments or for the first that does not convert, and then
    nothing was done. Once the code is entered there is no way left to fail. -/
theorem of_call_eq_failure (hnative : s.backend = .native) (hsplit : splitSpecs specs = .ok split)
    (hvoid : .void ∉ split.types) (hp : p.CallsNative ret pointer split) {depth : Nat}
    {before after : Activity} {e : CallError}
    (hcall : (s.call (depth + 2) p args).run before = .ok (.failure e, after)) :
    after = before ∧
      (¬ split.arity.accepts args.length ∧
        e = .arity split.arity.required split.arity.total args.length args ∨
      split.arity.accepts args.length ∧ ∃ position type value,
        Scalar.FirstMismatch split.types (split.completed args) position type value ∧
        e = .typeMismatch position type value.describe) := by
  by_cases haccepts : split.arity.accepts args.length
  · by_cases hconvert : Scalar.Convert split.types (split.completed args)
    · have hlength := SplitSpec.length_completed hsplit haccepts
      obtain ⟨scalars, hcarry⟩ := Scalar.exists_carry_of_convert hlength.symm hvoid hconvert
      rw [call_of_carry hnative hsplit hvoid hp haccepts hcarry, StateT.run_bind] at hcall
      cases hrun : (s.enter depth pointer.address scalars).run before with
      | error cause =>
        rw [hrun] at hcall
        cases hcall
      | ok result =>
        rw [hrun] at hcall
        cases hcall
    · obtain ⟨position, type, value, hfirst, hfailure⟩ :=
        call_of_not_convert hnative hsplit hvoid hp haccepts hconvert depth
      rw [hfailure] at hcall
      cases hcall
      exact ⟨rfl, .inr ⟨haccepts, position, type, value, hfirst, rfl⟩⟩
  · rw [call_of_not_accepts hp haccepts] at hcall
    cases hcall
    exact ⟨rfl, .inl ⟨haccepts, rfl⟩⟩

end

theorem invoker_native (hnative : s.backend = .native) {types : List NativeType}
    (hvoid : .void ∉ types) (ret : NativeType) (pointer : NativePointer) :
    (invoker ret pointer types).run s =
      .ok (.ok ⟨s.nextIdentity, "native@" ++ pointer.display, .invoker ret pointer types⟩,
        { s with nextIdentity := s.nextIdentity + 1 }) := by
  have hcheck : checkArgTypes "invoke" types = .ok () := by simp [checkArgTypes, hvoid]
  simp [invoker, newProcedure, hnative, hcheck]
  rfl

theorem derive_native (hnative : s.backend = .native) {types : List NativeType}
    (hvoid : .void ∉ types) (ret : NativeType) (p : Procedure) :
    (derive ret p types).run s =
      .ok (.ok ⟨s.nextAddress, some (.generated s.nextAddress)⟩,
        { s with
          codes := (s.nextAddress, ⟨p, ret, types, false⟩) :: s.codes
          nextAddress := s.nextAddress + addressStep }) := by
  have hcheck : checkArgTypes "derive" types = .ok () := by simp [checkArgTypes, hvoid]
  simp [derive, insert, guarded, hnative, hcheck]
  rfl

/-- A list that is not well formed is reported before anything else is done. -/
theorem unify_of_malformed {specs : List ArgSpec} {e : CallError}
    (hsplit : splitSpecs specs = .error e) (ret : NativeType) (behavior : Behavior) :
    (unify ret behavior specs).run s = .ok (.error e, s) := by
  simp only [unify, hsplit]
  rfl

/-- An invoker for a pointer is all that unifying the pointer needs. -/
theorem unify_of_invoker {specs : List ArgSpec} {split : SplitSpec}
    (hsplit : splitSpecs specs = .ok split) {ret : NativeType} {pointer : NativePointer}
    {raw : Procedure} {s' : Machine}
    (hinvoker : (invoker ret pointer split.types).run s = .ok (.ok raw, s'))
    (hraw : raw.body = .invoker ret pointer split.types) :
    ∃ n, (unify ret (.native pointer) specs).run s =
        .ok (.ok n, { s' with nextIdentity := s'.nextIdentity + 2 }) ∧
      n.split = split ∧ n.ret = ret ∧ n.pointer = pointer ∧
      n.procedure.CallsNative ret pointer split := by
  let adapted : Procedure := ⟨s'.nextIdentity, raw.name, .adapter raw split.arity split.optional⟩
  refine ⟨⟨s'.nextIdentity + 1, adapted, pointer, split.defaults, ret, split.types, split.arity,
    .native⟩, ?_, rfl, rfl, rfl, raw, hraw, rfl⟩
  simp [unify, facets, adapt, newProcedure, hsplit, hinvoker, adapted]
  rfl

/-- Unifying a pointer fails as the request for its invoker does. -/
theorem unify_of_invoker_error {specs : List ArgSpec} {split : SplitSpec}
    (hsplit : splitSpecs specs = .ok split) {ret : NativeType} {pointer : NativePointer}
    {e : CallError} {s' : Machine}
    (hinvoker : (invoker ret pointer split.types).run s = .ok (.error e, s')) :
    (unify ret (.native pointer) specs).run s = .ok (.error e, s') := by
  simp [unify, facets, hsplit, hinvoker]
  rfl

/-- New code for a procedure is all that unifying the procedure needs. -/
theorem unify_of_derive {specs : List ArgSpec} {split : SplitSpec}
    (hsplit : splitSpecs specs = .ok split) {ret : NativeType} {p : Procedure}
    {pointer : NativePointer} {s' : Machine}
    (hderive : (derive ret p split.types).run s = .ok (.ok pointer, s')) :
    ∃ m, (unify ret (.procedure p) specs).run s =
        .ok (.ok m, { s' with nextIdentity := s'.nextIdentity + 1 }) ∧
      m.split = split ∧ m.ret = ret ∧ m.pointer = pointer ∧ m.procedure = p := by
  refine ⟨⟨s'.nextIdentity, p, pointer, split.defaults, ret, split.types, split.arity, .managed⟩,
    ?_, rfl, rfl, rfl, rfl⟩
  simp [unify, facets, hsplit, hderive]
  rfl

/-- Unifying a procedure fails as the request for its code does. -/
theorem unify_of_derive_error {specs : List ArgSpec} {split : SplitSpec}
    (hsplit : splitSpecs specs = .ok split) {ret : NativeType} {p : Procedure} {e : CallError}
    {s' : Machine} (hderive : (derive ret p split.types).run s = .ok (.error e, s')) :
    (unify ret (.procedure p) specs).run s = .ok (.error e, s') := by
  simp [unify, facets, hsplit, hderive]
  rfl

/-- On native code, a well-formed signature without void arguments and a pointer always make a
    callable. No code is generated for it. -/
theorem unify_native (hnative : s.backend = .native) {specs : List ArgSpec} {split : SplitSpec}
    (hsplit : splitSpecs specs = .ok split) (hvoid : .void ∉ split.types) (ret : NativeType)
    (pointer : NativePointer) :
    ∃ c, (unify ret (.native pointer) specs).run s =
        .ok (.ok c, { s with nextIdentity := s.nextIdentity + 3 }) ∧
      c.pointer = pointer ∧ c.procedure.CallsNative ret pointer split := by
  obtain ⟨c, hunify, -, -, hpointer, hcalls⟩ :=
    unify_of_invoker hsplit (invoker_native hnative hvoid ret pointer) rfl
  exact ⟨c, hunify, hpointer, hcalls⟩

/-- On native code, a well-formed signature without void arguments and a procedure always make a
    callable. Its pointer leads to new code for the procedure. -/
theorem unify_procedure (hnative : s.backend = .native) {specs : List ArgSpec} {split : SplitSpec}
    (hsplit : splitSpecs specs = .ok split) (hvoid : .void ∉ split.types) (ret : NativeType)
    (p : Procedure) :
    ∃ c, (unify ret (.procedure p) specs).run s =
        .ok (.ok c, { s with
          codes := (s.nextAddress, ⟨p, ret, split.types, false⟩) :: s.codes
          nextAddress := s.nextAddress + addressStep
          nextIdentity := s.nextIdentity + 1 }) ∧
      c.procedure = p ∧ c.pointer = ⟨s.nextAddress, some (.generated s.nextAddress)⟩ := by
  obtain ⟨c, hunify, -, -, hpointer, hprocedure⟩ :=
    unify_of_derive hsplit (derive_native hnative hvoid ret p)
  exact ⟨c, hunify, hprocedure, hpointer⟩

theorem unify_native_of_void (hnative : s.backend = .native) {specs : List ArgSpec}
    {split : SplitSpec} (hsplit : splitSpecs specs = .ok split) (hvoid : .void ∈ split.types)
    (ret : NativeType) (pointer : NativePointer) :
    (unify ret (.native pointer) specs).run s =
      .ok (.error (.unsupportedType "invoke: argument" .void), s) := by
  have hcheck : checkArgTypes "invoke" split.types =
      .error (.unsupportedType "invoke: argument" .void) := if_pos hvoid
  refine unify_of_invoker_error hsplit ?_
  simp [invoker, hnative, hcheck]
  rfl

theorem unify_procedure_of_void (hnative : s.backend = .native) {specs : List ArgSpec}
    {split : SplitSpec} (hsplit : splitSpecs specs = .ok split) (hvoid : .void ∈ split.types)
    (ret : NativeType) (p : Procedure) :
    (unify ret (.procedure p) specs).run s =
      .ok (.error (.unsupportedType "derive: argument" .void), s) := by
  have hcheck : checkArgTypes "derive" split.types =
      .error (.unsupportedType "derive: argument" .void) := if_pos hvoid
  refine unify_of_derive_error hsplit ?_
  simp [derive, hnative, hcheck]
  rfl

/-- A callable that was made from a pointer on native code calls it, and takes no void argument. -/
theorem of_unify_native (hnative : s.backend = .native) {specs : List ArgSpec} {ret : NativeType}
    {pointer : NativePointer} {c : Callable} {s' : Machine}
    (hunify : (unify ret (.native pointer) specs).run s = .ok (.ok c, s')) :
    splitSpecs specs = .ok c.split ∧ .void ∉ c.types ∧
      c.procedure.CallsNative ret pointer c.split := by
  cases hsplit : splitSpecs specs with
  | error e => cases hunify.symm.trans (unify_of_malformed hsplit ret _)
  | ok split =>
    by_cases hvoid : .void ∈ split.types
    · cases hunify.symm.trans (unify_native_of_void hnative hsplit hvoid ret pointer)
    · obtain ⟨n, hn, rfl, -, -, hcalls⟩ :=
        unify_of_invoker hsplit (invoker_native hnative hvoid ret pointer) rfl
      cases hunify.symm.trans hn
      exact ⟨rfl, hvoid, hcalls⟩

/-- Whatever a procedure is unified as, the callable calls the procedure as it is. -/
theorem procedure_of_unify {specs : List ArgSpec} {ret : NativeType} {p : Procedure} {c : Callable}
    {s' : Machine} (hunify : (unify ret (.procedure p) specs).run s = .ok (.ok c, s')) :
    c.procedure = p := by
  cases hsplit : splitSpecs specs with
  | error e => cases hunify.symm.trans (unify_of_malformed hsplit ret _)
  | ok split =>
    simp only [unify, hsplit] at hunify
    obtain ⟨result, s₁, hfacets, hrest⟩ := run_bind_eq_ok hunify
    obtain ⟨derived, s₂, -, hderived⟩ := run_bind_eq_ok hfacets
    cases derived with
    | error e =>
      cases hderived
      cases hrest
    | ok pointer =>
      cases hderived
      cases hrest
      rfl

end Machine

end DualCall
