import DualCall.Proofs.Call.NativeFacet

namespace DualCall

namespace Machine

/-- A native function is what machine code finds at an address. -/
structure FunctionAt (s : Machine) (address : UInt64) (f : NativeFunction) : Prop where
  native : s.backend = .native
  no_code : s.code? address = none
  function : s.functions address = some f

/-- A call whose arguments convert enters the function once, with their scalars in the declared
    order, and decodes what it leaves in the return slot. -/
theorem call_function {s : Machine} {specs : List ArgSpec} {split : SplitSpec}
    {p : Procedure} {ret : NativeType} {pointer : NativePointer} {f : NativeFunction}
    (hf : s.FunctionAt pointer.address f) (hsplit : splitSpecs specs = .ok split)
    (hvoid : .void ∉ split.types) (hp : p.CallsNative ret pointer split) {args : List Value}
    (haccepts : split.arity.accepts args.length) {scalars : List Scalar}
    (hcarry : Scalar.Carry split.types (split.completed args) scalars) (depth : Nat) :
    s.call (depth + 3) p args = (do
      let activity ← get
      let slot ← followNative (s.enter depth) (f scalars activity.memory)
      return .value (Value.ofSlot ret slot)) := by
  rw [call_of_carry hf.native hsplit hvoid hp haccepts hcarry,
    enter_function hf.no_code hf.function, bind_assoc]

/-- A native function under a well-formed signature without void arguments makes a callable whose
    calls end in one of three ways. A wrong number of arguments is reported with all of them. Then
    the first position at which an argument, or the default that stands for it, does not fit its
    type is reported. Both leave everything as it was, whatever is at the address of the function,
    even if nothing there can be executed. Otherwise the function is entered once with the scalars
    of the completed arguments, and the call returns what it decodes from the return slot. -/
theorem call_native_outcome {s : Machine} (hnative : s.backend = .native) {specs : List ArgSpec}
    {split : SplitSpec} (hsplit : splitSpecs specs = .ok split) (hvoid : .void ∉ split.types)
    (ret : NativeType) (pointer : NativePointer) :
    ∃ c s', (unify ret (.native pointer) specs).run s = .ok (.ok c, s') ∧
      (∀ f, s.FunctionAt pointer.address f → s'.FunctionAt pointer.address f) ∧
      ∀ t : Machine, t.backend = .native → ∀ args depth before,
        (¬ split.arity.accepts args.length →
          (t.call (depth + 3) c.procedure args).run before =
            .ok (.failure (.arity split.arity.required split.arity.total args.length args),
              before)) ∧
        (split.arity.accepts args.length →
          ¬ Scalar.Convert split.types (split.completed args) →
          ∃ position type value,
            Scalar.FirstMismatch split.types (split.completed args) position type value ∧
            (t.call (depth + 3) c.procedure args).run before =
              .ok (.failure (.typeMismatch position type value.describe), before)) ∧
        (split.arity.accepts args.length → Scalar.Convert split.types (split.completed args) →
          ∃ scalars, Scalar.Carry split.types (split.completed args) scalars ∧
            ∀ f, t.FunctionAt pointer.address f →
              (t.call (depth + 3) c.procedure args).run before = (do
                let slot ← followNative (t.enter depth) (f scalars before.memory)
                return .value (Value.ofSlot ret slot) : Effect Outcome).run before ∧
              ∀ slot memory, f scalars before.memory = .finish slot memory →
                (t.call (depth + 3) c.procedure args).run before =
                  .ok (.value (Value.ofSlot ret slot), { before with memory := memory })) ∧
        (∀ e after, (t.call (depth + 3) c.procedure args).run before = .ok (.failure e, after) →
          after = before ∧
            (¬ split.arity.accepts args.length ∧
              e = .arity split.arity.required split.arity.total args.length args ∨
            split.arity.accepts args.length ∧ ∃ position type value,
              Scalar.FirstMismatch split.types (split.completed args) position type value ∧
              e = .typeMismatch position type value.describe)) := by
  obtain ⟨c, hunify, -, hc⟩ := unify_native hnative hsplit hvoid ret pointer
  refine ⟨c, _, hunify, fun f hf => ⟨hf.native, hf.no_code, hf.function⟩, fun t ht args depth
    before => ?_⟩
  refine ⟨fun haccepts => ?_, fun haccepts hconvert => ?_, fun haccepts hconvert => ?_,
    fun e after hfailure => of_call_eq_failure ht hsplit hvoid hc hfailure⟩
  · rw [call_of_not_accepts hc haccepts]
    rfl
  · obtain ⟨position, type, value, hfirst, hcall⟩ :=
      call_of_not_convert ht hsplit hvoid hc haccepts hconvert (depth + 1)
    refine ⟨position, type, value, hfirst, ?_⟩
    rw [hcall]
    rfl
  · have hlength := SplitSpec.length_completed hsplit haccepts
    obtain ⟨scalars, hcarry⟩ := Scalar.exists_carry_of_convert hlength.symm hvoid hconvert
    refine ⟨scalars, hcarry, fun f hf => ?_⟩
    rw [call_function hf hsplit hvoid hc haccepts hcarry]
    refine ⟨rfl, fun slot memory hslot => ?_⟩
    simp only [StateT.run_bind, StateT.run_get, pure_bind, hslot]
    rfl

/-- A function that subtracts its second argument from its first gets the default seven behind a
    single argument, and is not entered without any. -/
theorem call_native_outcome_subtraction :
    let f : NativeFunction := fun scalars memory =>
      .finish (scalars.foldr (fun x total => x.word - total) 0) memory
    let s := Machine.native fun address => if address = 0x40 then some f else none
    let specs : List ArgSpec := [.bare .i32, .paired .u8 (.int 7)]
    let split : SplitSpec := ⟨[.i32, .u8], [none, some (.int 7)], ⟨1, 2⟩⟩
    s.backend = .native ∧ splitSpecs specs = .ok split ∧ .void ∉ split.types ∧
      ∃ c s', (unify .i64 (.native ⟨0x40, none⟩) specs).run s = .ok (.ok c, s') ∧
        (s'.call 3 c.procedure [.int 35]).run {} = .ok (.value (.int 28), {}) ∧
        (s'.call 3 c.procedure []).run {} = .ok (.failure (.arity 1 2 0 []), {}) := by
  intro f s specs split
  have hsplit : splitSpecs specs = .ok split := rfl
  have hvoid : .void ∉ split.types := by decide
  obtain ⟨c, s', hunify, hfunction, hcalls⟩ :=
    call_native_outcome (show s.backend = .native from rfl) hsplit hvoid .i64 ⟨0x40, none⟩
  have hf : s'.FunctionAt 0x40 f := hfunction f ⟨rfl, rfl, rfl⟩
  refine ⟨rfl, hsplit, hvoid, c, s', hunify, ?_, (hcalls s' hf.native [] 0 {}).1 (by decide)⟩
  obtain ⟨scalars, hcarry, hentry⟩ := (hcalls s' hf.native [.int 35] 0 {}).2.2.1 rfl (by decide)
  obtain rfl : scalars = [.i32 35, .u8 7] := hcarry.unique (.cons rfl (.cons rfl .nil))
  have hresult : Value.ofSlot .i64 28 = .int 28 := Value.ofSlot_eq_ofWord .i64 28
  rw [← hresult]
  exact (hentry f hf).2 28 {} rfl

end Machine

end DualCall
