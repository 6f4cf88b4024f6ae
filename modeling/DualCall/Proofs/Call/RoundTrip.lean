import DualCall.Proofs.Call.Depth
import DualCall.Proofs.Call.Machine
import DualCall.Proofs.Call.NativeFacet

namespace DualCall

namespace Machine

/-- Unify a procedure, and then the pointer that this leads to, under one signature. -/
def wrap (ret : NativeType) (specs : List ArgSpec) (p : Procedure) :
    Act (Except CallError (Callable × Callable)) := do
  match ← unify ret (.procedure p) specs with
  | .error e => return .error e
  | .ok m =>
    match ← unify ret (.native m.pointer) specs with
    | .error e => return .error e
    | .ok n => return .ok (m, n)

/-- A procedure stands in front of another: it calls a pointer to code that stands for the other
    under the same signature. -/
structure Wraps (s : Machine) (pointer : NativePointer) (ret : NativeType) (split : SplitSpec)
    (outer inner : Procedure) : Prop where
  calls : outer.CallsNative ret pointer split
  code : ∃ registered, s.code? pointer.address = some ⟨inner, ret, split.types, registered⟩

theorem Wraps.of_code_eq {s t : Machine} {pointer : NativePointer} {ret : NativeType}
    {split : SplitSpec} {outer inner : Procedure} (hwraps : s.Wraps pointer ret split outer inner)
    (hcode : t.code? pointer.address = s.code? pointer.address) :
    t.Wraps pointer ret split outer inner :=
  ⟨hwraps.calls, hcode ▸ hwraps.code⟩

/-- What wrapping a procedure makes and changes. One code is new, at the next address. -/
structure Wrapped (s s' : Machine) (ret : NativeType) (split : SplitSpec) (p : Procedure)
    (m n : Callable) : Prop where
  native : s'.backend = .native
  routines : s'.routines = s.routines
  nextAddress : s'.nextAddress = s.nextAddress + addressStep
  procedure : m.procedure = p
  address : m.pointer.address = s.nextAddress
  wraps : s'.Wraps m.pointer ret split n.procedure p
  frame : ∀ address, address ≠ s.nextAddress → s'.code? address = s.code? address

theorem run_wrap {s : Machine} (hnative : s.backend = .native) {specs : List ArgSpec}
    {split : SplitSpec} (hsplit : splitSpecs specs = .ok split) (hvoid : .void ∉ split.types)
    (ret : NativeType) (p : Procedure) :
    ∃ m n s', (wrap ret specs p).run s = .ok (.ok (m, n), s') ∧
      Wrapped s s' ret split p m n := by
  let s₁ : Machine := { s with
    codes := (s.nextAddress, ⟨p, ret, split.types, false⟩) :: s.codes
    nextAddress := s.nextAddress + addressStep
    nextIdentity := s.nextIdentity + 1 }
  obtain ⟨m, hm, hprocedure, hpointer⟩ :
      ∃ m, (unify ret (.procedure p) specs).run s = .ok (.ok m, s₁) ∧ m.procedure = p ∧
        m.pointer = ⟨s.nextAddress, some (.generated s.nextAddress)⟩ :=
    unify_procedure hnative hsplit hvoid ret p
  obtain ⟨n, hn, -, hcalls⟩ := unify_native (s := s₁) hnative hsplit hvoid ret m.pointer
  have haddress : m.pointer.address = s.nextAddress := by rw [hpointer]
  refine ⟨m, n, { s₁ with nextIdentity := s₁.nextIdentity + 3 }, ?_, hnative, rfl, rfl,
    hprocedure, haddress, ⟨hcalls, false, ?_⟩, fun address hother => ?_⟩
  · rw [wrap, run_bind_of_ok hm]
    dsimp only
    rw [run_bind_of_ok hn]
    rfl
  · simp [code?, haddress, s₁]
  · simp [code?, Ne.symm hother, s₁]

/-- A call whose arguments all convert enters the code of the inner procedure once. That procedure
    is called once, with what arrives of the arguments, and what is received of its outcome is
    returned. -/
theorem call_of_wraps {s : Machine} (hnative : s.backend = .native) {specs : List ArgSpec}
    {split : SplitSpec} (hsplit : splitSpecs specs = .ok split) (hvoid : .void ∉ split.types)
    {pointer : NativePointer} {ret : NativeType} {outer inner : Procedure}
    (hwraps : s.Wraps pointer ret split outer inner) {args arrived : List Value}
    (haccepts : split.arity.accepts args.length)
    (harrive : Value.Arrive split.types (split.completed args) arrived) (depth : Nat) :
    s.call (depth + 3) outer args = (do
      let outcome ← s.call depth inner arrived
      return .value (outcome.received ret)) := by
  have hlength := SplitSpec.length_completed hsplit haccepts
  obtain ⟨scalars, hcarry, rfl⟩ := (Value.arrive_iff_carry hlength.symm).mp harrive
  obtain ⟨registered, hcode⟩ := hwraps.code
  rw [call_of_carry hnative hsplit hvoid hwraps.calls haccepts hcarry, enter_code hcode]
  simp only [bind_assoc, pure_bind, ofSlot_fillSlot]

/-- A procedure behind native code under a well-formed signature without void arguments. When the
    number of arguments is accepted and all of them, with the defaults that complete them, convert,
    the procedure is called once, with what arrives of them; a traced routine is recorded once.
    The caller never receives an error. It receives what arrives of a value that the procedure
    returns, null for void, and the zero of the type for everything else. When nothing changes on
    the way, the call cannot be told from a direct one. All this stays so as long as the code
    does. -/
theorem call_round_trip {s : Machine} (hnative : s.backend = .native) {specs : List ArgSpec}
    {split : SplitSpec} (hsplit : splitSpecs specs = .ok split) (hvoid : .void ∉ split.types)
    (ret : NativeType) (p : Procedure) :
    ∃ m n s', (wrap ret specs p).run s = .ok (.ok (m, n), s') ∧ m.procedure = p ∧
      s'.backend = .native ∧ s'.routines = s.routines ∧
      ∀ t : Machine, t.backend = .native →
        t.code? m.pointer.address = s'.code? m.pointer.address →
        ∀ args, split.arity.accepts args.length →
          Scalar.Convert split.types (split.completed args) →
          ∃ arrived, Value.Arrive split.types (split.completed args) arrived ∧
            ∀ depth,
              t.call (depth + 3) n.procedure args = (do
                let outcome ← t.call depth p arrived
                return .value (outcome.received ret)) ∧
              (∀ captured, p.body = .routine captured → (t.routines p.identity).traced →
                ∀ before, (t.call (depth + 4) n.procedure args).run before = (do
                  let outcome ← followRoutine (t.call depth)
                    ((t.routines p.identity).run arrived before.memory)
                  return .value (outcome.received ret) : Effect Outcome).run
                  { before with entered := before.entered ++ [⟨p.name, arrived⟩] }) ∧
              (∀ outcome before after,
                (t.call depth p arrived).run before = .ok (outcome, after) →
                ∃ result,
                  (t.call (depth + 3) n.procedure args).run before = .ok (.value result, after) ∧
                  (∀ v w, outcome = .value v → v.arrival? ret = some w → result = w) ∧
                  (ret = .void → result = .null) ∧
                  ((∀ v, outcome = .value v → v.arrival? ret = none) → result = .zero ret)) ∧
              (arrived = args → ∀ v before after,
                (t.call depth m.procedure args).run before = .ok (.value v, after) →
                (Outcome.value v).received ret = v →
                (t.call (depth + 3) n.procedure args).run before =
                  (t.call (depth + 3) m.procedure args).run before) := by
  obtain ⟨m, n, s', hrun, hwrapped⟩ := run_wrap hnative hsplit hvoid ret p
  refine ⟨m, n, s', hrun, hwrapped.procedure, hwrapped.native, hwrapped.routines,
    fun t ht hcode args haccepts hconvert => ?_⟩
  have hlength := SplitSpec.length_completed hsplit haccepts
  obtain ⟨arrived, harrive⟩ := Value.exists_arrive_of_convert hlength.symm hvoid hconvert
  refine ⟨arrived, harrive, fun depth => ?_⟩
  have hcall (depth : Nat) : t.call (depth + 3) n.procedure args = (do
      let outcome ← t.call depth p arrived
      return .value (outcome.received ret)) :=
    call_of_wraps ht hsplit hvoid (hwrapped.wraps.of_code_eq hcode) haccepts harrive depth
  have hreceived {outcome : Outcome} {before after : Activity}
      (hp : (t.call depth p arrived).run before = .ok (outcome, after)) :
      (t.call (depth + 3) n.procedure args).run before =
        .ok (.value (outcome.received ret), after) := by
    rw [hcall, run_bind_of_ok hp]
    rfl
  refine ⟨hcall depth, ?_, ?_, ?_⟩
  · intro captured hbody htraced before
    rw [hcall, call, hbody]
    simp only [enterRoutine, htraced]
    rfl
  · intro outcome before after hp
    refine ⟨_, hreceived hp, ?_, ?_, ?_⟩
    · rintro v w rfl hw
      simp [Outcome.received, hw]
    · rintro rfl
      cases outcome <;> rfl
    · intro hnone
      cases outcome with
      | value v => simp [Outcome.received, hnone v rfl]
      | failure e => rfl
      | panic => rfl
  · rintro rfl v before after hm hv
    have hdirect := call_refines t (Nat.le_add_right depth 3) m.procedure arrived before _ hm
    rw [hwrapped.procedure] at hm
    rw [hreceived hm, hdirect, hv]

/-- An integer that is passed as a truth value arrives as one, and a truth value that stands for an
    integer left out arrives as an integer. The routine is entered with both once and returns the
    second. -/
theorem call_round_trip_coerced :
    let last : Routine := ⟨true, fun args _ => .finish (.value (args.getLastD .null))⟩
    let s := { Machine.native fun _ => none with routines := fun _ => last }
    let specs : List ArgSpec := [.bare .bool, .paired .i32 (.bool true)]
    let split : SplitSpec := ⟨[.bool, .i32], [none, some (.bool true)], ⟨1, 2⟩⟩
    let p : Procedure := ⟨0, "last", .routine []⟩
    s.backend = .native ∧ splitSpecs specs = .ok split ∧ .void ∉ split.types ∧
      ∃ m n s', (wrap .i16 specs p).run s = .ok (.ok (m, n), s') ∧
        (s'.call 4 n.procedure [.int 5]).run {} =
          .ok (.value (.int 1), { entered := [⟨"last", [.bool true, .int 1]⟩] }) := by
  intro last s specs split p
  have hsplit : splitSpecs specs = .ok split := rfl
  have hvoid : .void ∉ split.types := by decide
  obtain ⟨m, n, s', hrun, -, hnative, hroutines, hcalls⟩ :=
    call_round_trip (show s.backend = .native from rfl) hsplit hvoid .i16 p
  refine ⟨rfl, hsplit, hvoid, m, n, s', hrun, ?_⟩
  obtain ⟨arrived, harrive, hdepth⟩ := hcalls s' hnative rfl [.int 5] rfl (by decide)
  obtain rfl : arrived = [.bool true, .int 1] := harrive.unique (.cons rfl (.cons rfl .nil))
  rw [(hdepth 0).2.1 [] rfl (by rw [hroutines]) {}, hroutines]
  rfl

end Machine

end DualCall
