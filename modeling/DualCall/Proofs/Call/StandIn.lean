import DualCall.Proofs.Call.RoundTrip
import DualCall.Proofs.Native.Canonical
import DualCall.Proofs.Ownership.Entry

namespace DualCall

/-- With canonical defaults, canonical arguments are completed to canonical ones. -/
theorem SplitSpec.allCanonical_completed {specs : List ArgSpec} {split : SplitSpec}
    (hsplit : splitSpecs specs = .ok split)
    (hdefaults : ∀ type default, .paired type default ∈ specs → default.Canonical type)
    {args : List Value} (haccepts : split.arity.accepts args.length)
    (hargs : Value.AllCanonical split.types args) :
    Value.AllCanonical split.types (split.completed args) := by
  intro i type v htype hv
  have hrequired := (Arity.accepts_iff.mp haccepts).1
  obtain hpassed | ⟨declared, hspec⟩ := getElem?_completed hsplit hrequired hv
  · exact hargs i type v htype hpassed
  · rw [(eq_of_splitSpecs hsplit).2.1, List.getElem?_map, hspec] at htype
    cases htype
    exact hdefaults declared v (List.mem_of_getElem? hspec)

namespace Machine

/-- Derive a pointer for a procedure and unify it under the same signature. -/
def unifyDerived (ret : NativeType) (specs : List ArgSpec) (p : Procedure) :
    Act (Except CallError Callable) := do
  match splitSpecs specs with
  | .error e => return .error e
  | .ok split =>
    match ← derive ret p split.types with
    | .error e => return .error e
    | .ok pointer => unify ret (.native pointer) specs

/-- What unifying a derived pointer makes and leaves. The pointer leads to the procedure. -/
structure UnifiedDerived (s s' : Machine) (ret : NativeType) (split : SplitSpec) (p : Procedure)
    (n : Callable) : Prop where
  backend : s'.backend = s.backend
  locked : s'.locked = s.locked
  routines : s'.routines = s.routines
  split_eq : n.split = split
  ret_eq : n.ret = ret
  wraps : s'.Wraps n.pointer ret split n.procedure p

variable {s : Machine} {specs : List ArgSpec} {split : SplitSpec} {ret : NativeType}
  {p : Procedure}

theorem UnifiedDerived.callsPointer {s' : Machine} {n : Callable}
    (hn : UnifiedDerived s s' ret split p n) (hsplit : splitSpecs specs = .ok split) :
    n.CallsPointer :=
  ⟨specs, hn.split_eq ▸ hsplit, hn.split_eq ▸ hn.ret_eq ▸ hn.wraps.calls⟩

/-- A procedure can be unified through a derived pointer on both backends. -/
theorem run_unifyDerived (hfree : s.backend = .inMemory → s.locked = false)
    (hsplit : splitSpecs specs = .ok split) (hvoid : .void ∉ split.types) (ret : NativeType)
    (p : Procedure) :
    ∃ n s', (unifyDerived ret specs p).run s = .ok (.ok n, s') ∧
      UnifiedDerived s s' ret split p n := by
  let pointer : NativePointer := ⟨s.nextAddress, some (.generated s.nextAddress)⟩
  let derived : Machine := { s with
    codes := (s.nextAddress, ⟨p, ret, split.types, false⟩) :: s.codes
    nextAddress := s.nextAddress + addressStep }
  have hcode : derived.code? pointer.address = some ⟨p, ret, split.types, false⟩ := by
    simp [code?, derived, pointer]
  have hderive : (derive ret p split.types).run s = .ok (.ok pointer, derived) := by
    cases hbackend : s.backend with
    | inMemory => exact derive_inMemory hbackend (hfree hbackend) ret p split.types
    | native => exact derive_native hbackend hvoid ret p
  let raw : Procedure := ⟨s.nextIdentity, "native@" ++ pointer.display,
    .invoker ret pointer split.types⟩
  obtain ⟨s', hinvoker, hbackend, hlocked, hroutines, hcodes⟩ : ∃ s',
      (invoker ret pointer split.types).run derived = .ok (.ok raw, s') ∧
      s'.backend = derived.backend ∧ s'.locked = derived.locked ∧
      s'.routines = derived.routines ∧ s'.codes = derived.codes := by
    cases hbackend : s.backend with
    | inMemory =>
      refine ⟨{ derived with requests := s.requests + 1, nextIdentity := s.nextIdentity + 1 }, ?_,
        hbackend, rfl, rfl, rfl⟩
      rw [invoker_inMemory (s := derived) hbackend (hfree hbackend), hcode]
      exact if_pos rfl
    | native =>
      exact ⟨_, invoker_native (s := derived) hbackend hvoid ret pointer, hbackend, rfl, rfl, rfl⟩
  obtain ⟨n, hunify, hsame, hret, hpointer, hcalls⟩ := unify_of_invoker hsplit hinvoker rfl
  refine ⟨n, { s' with nextIdentity := s'.nextIdentity + 2 }, ?_, hbackend, hlocked, hroutines,
    hsame, hret, hpointer ▸ hcalls, false, ?_⟩
  · simp only [unifyDerived, hsplit]
    rw [run_bind_of_ok hderive]
    exact hunify
  · rw [hpointer, ← hcode]
    simp only [code?, hcodes]

/-- Within a depth, a procedure answers all canonical arguments of the declared types with a
    canonical value of the return type. -/
def Answers (s : Machine) (depth : Nat) (p : Procedure) (ret : NativeType)
    (types : List NativeType) (answer : List Value → Activity → Value × Activity) : Prop :=
  ∀ args, args.length = types.length → Value.AllCanonical types args → ∀ before,
    (answer args before).1.Canonical ret ∧
      (s.call depth p args).run before =
        .ok (.value (answer args before).1, (answer args before).2)

/-- On both backends a call of a procedure that is unified through a derived pointer yields what
    the procedure answers to the completed arguments. -/
theorem run_call_of_answers (hfree : s.backend = .inMemory → s.locked = false)
    (hsplit : splitSpecs specs = .ok split) (hvoid : .void ∉ split.types) {n : Callable}
    (hcalls : n.CallsPointer) (hsame : n.split = split)
    (hwraps : s.Wraps n.pointer ret split n.procedure p) {depth : Nat}
    {answer : List Value → Activity → Value × Activity}
    (hanswers : s.Answers depth p ret split.types answer) {args : List Value}
    (haccepts : split.arity.accepts args.length)
    (hcanonical : Value.AllCanonical split.types (split.completed args)) (before : Activity) :
    (s.call (depth + 3) n.procedure args).run before =
      .ok (.value (answer (split.completed args) before).1,
        (answer (split.completed args) before).2) := by
  have hlength := SplitSpec.length_completed hsplit haccepts
  obtain ⟨hresult, hp⟩ := hanswers _ hlength hcanonical before
  cases hbackend : s.backend with
  | inMemory =>
    obtain ⟨registered, hcode⟩ := hwraps.code
    have hn : n.split.arity.accepts args.length := hsame ▸ haccepts
    have hcall := callsCode_of_code (hfree hbackend) hcalls hcode args hn depth
    simp only [hbackend] at hcall
    refine call_refines s (Nat.le_succ (depth + 2)) n.procedure args before _ ?_
    rw [hcall, hsame]
    exact hp
  | native =>
    have harrive := hcanonical.arrive hlength.symm hvoid
    rw [call_of_wraps hbackend hsplit hvoid hwraps haccepts harrive, run_bind_of_ok hp]
    exact congrArg (fun v => Except.ok (Outcome.value v, _)) hresult.received

/-- What a callable needs to stay as it is: the code at its address, and a registry that is locked
    no more than before. -/
structure Keeps (s s' : Machine) (address : UInt64) : Prop where
  backend : s'.backend = s.backend
  locked : s'.locked = s.locked
  code : s'.code? address = s.code? address

/-- The in-memory backend stands in for the native one. Under a well-formed signature without void
    arguments, whose defaults are canonical, a procedure can be unified through a derived pointer on
    both. If it answers canonical arguments with canonical values, the same on both, then all calls
    of the two callables with canonical arguments, however many, end in the same way and leave the
    same: with the answer to the completed arguments when their number is accepted, and with the
    same complaint about it when it is not. All this stays so as long as the code does. -/
theorem call_unifyDerived_same {s t : Machine} (hmemory : s.backend = .inMemory)
    (hfree : s.locked = false) (hnative : t.backend = .native) {specs : List ArgSpec}
    {split : SplitSpec} (hsplit : splitSpecs specs = .ok split) (hvoid : .void ∉ split.types)
    (hdefaults : ∀ type default, .paired type default ∈ specs → default.Canonical type)
    (ret : NativeType) (p : Procedure) :
    ∃ m s' n t', (unifyDerived ret specs p).run s = .ok (.ok m, s') ∧
      (unifyDerived ret specs p).run t = .ok (.ok n, t') ∧
      s'.backend = .inMemory ∧ s'.routines = s.routines ∧
      t'.backend = .native ∧ t'.routines = t.routines ∧
      ∀ u v : Machine, s'.Keeps u m.pointer.address → t'.Keeps v n.pointer.address →
        ∀ depth answer, u.Answers depth p ret split.types answer →
          v.Answers depth p ret split.types answer →
          ∀ args, Value.AllCanonical split.types args → ∀ before,
            (u.call (depth + 3) m.procedure args).run before =
              (v.call (depth + 3) n.procedure args).run before ∧
            (split.arity.accepts args.length →
              (answer (split.completed args) before).1.Canonical ret ∧
              (u.call (depth + 3) m.procedure args).run before =
                .ok (.value (answer (split.completed args) before).1,
                  (answer (split.completed args) before).2)) ∧
            (¬ split.arity.accepts args.length →
              (u.call (depth + 3) m.procedure args).run before =
                .ok (.failure (.arity split.arity.required split.arity.total args.length args),
                  before)) := by
  have hnativeFree : t.backend = .inMemory → t.locked = false := by
    rw [hnative]
    exact nofun
  obtain ⟨m, s', hm, hs⟩ := run_unifyDerived (fun _ => hfree) hsplit hvoid ret p
  obtain ⟨n, t', hn, ht⟩ := run_unifyDerived hnativeFree hsplit hvoid ret p
  refine ⟨m, s', n, t', hm, hn, hs.backend.trans hmemory, hs.routines, ht.backend.trans hnative,
    ht.routines, fun u v hu hv depth answer hanswers hanswers' args hargs before => ?_⟩
  by_cases haccepts : split.arity.accepts args.length
  · have hcanonical := SplitSpec.allCanonical_completed hsplit hdefaults haccepts hargs
    have hlength := SplitSpec.length_completed hsplit haccepts
    have hufree : u.locked = false := by rw [hu.locked, hs.locked, hfree]
    have hvfree : v.backend = .inMemory → v.locked = false := by
      rw [hv.backend, ht.backend, hnative]
      exact nofun
    have hcall := run_call_of_answers (fun _ => hufree) hsplit hvoid (hs.callsPointer hsplit)
      hs.split_eq (hs.wraps.of_code_eq hu.code) hanswers haccepts hcanonical before
    have hcall' := run_call_of_answers hvfree hsplit hvoid (ht.callsPointer hsplit) ht.split_eq
      (ht.wraps.of_code_eq hv.code) hanswers' haccepts hcanonical before
    refine ⟨hcall.trans hcall'.symm, fun _ => ⟨?_, hcall⟩, fun h => absurd haccepts h⟩
    exact (hanswers _ hlength hcanonical before).1
  · have hcall := call_of_not_accepts (s := u) hs.wraps.calls haccepts (depth + 2)
    have hcall' := call_of_not_accepts (s := v) ht.wraps.calls haccepts (depth + 2)
    exact ⟨by rw [hcall, hcall'], fun h => absurd h haccepts, fun _ => by rw [hcall]; rfl⟩

/-- A routine that returns its first argument, behind a default for the second. -/
theorem call_unifyDerived_same_first :
    let first : Routine := ⟨true, fun args _ => .finish (.value (args.headD .null))⟩
    let s := { Machine.inMemory with routines := fun _ => first }
    let t := { Machine.native fun _ => none with routines := fun _ => first }
    let specs : List ArgSpec := [.bare .i32, .paired .bool (.bool true)]
    let p : Procedure := ⟨0, "first", .routine []⟩
    let entered : Activity := { entered := [⟨"first", [.int (-5), .bool true]⟩] }
    ∃ m s' n t', (unifyDerived .i32 specs p).run s = .ok (.ok m, s') ∧
      (unifyDerived .i32 specs p).run t = .ok (.ok n, t') ∧
      (s'.call 4 m.procedure [.int (-5)]).run {} = .ok (.value (.int (-5)), entered) ∧
      (t'.call 4 n.procedure [.int (-5)]).run {} = .ok (.value (.int (-5)), entered) ∧
      (s'.call 4 m.procedure []).run {} = .ok (.failure (.arity 1 2 0 []), {}) ∧
      (t'.call 4 n.procedure []).run {} = .ok (.failure (.arity 1 2 0 []), {}) := by
  intro first s t specs p entered
  let split : SplitSpec := ⟨[.i32, .bool], [none, some (.bool true)], ⟨1, 2⟩⟩
  have hsplit : splitSpecs specs = .ok split := rfl
  have hdefaults : ∀ type default, .paired type default ∈ specs →
      Value.Canonical type default := by
    intro type default hspec
    obtain ⟨rfl, rfl⟩ : type = .bool ∧ default = .bool true := by simpa [specs] using hspec
    exact ⟨1, rfl⟩
  obtain ⟨m, s', n, t', hm, hn, -, hs, -, ht, hcalls⟩ :=
    call_unifyDerived_same (s := s) (t := t) rfl rfl rfl hsplit (by decide) hdefaults .i32 p
  let answer (args : List Value) (before : Activity) : Value × Activity :=
    (args.headD .null, { before with entered := before.entered ++ [⟨"first", args⟩] })
  have hanswers (u : Machine) (hu : u.routines = fun _ => first) :
      u.Answers 1 p .i32 split.types answer := by
    intro args hlength hcanonical before
    refine ⟨?_, by rw [call, hu]; rfl⟩
    cases args with
    | nil => cases hlength
    | cons v args => exact hcanonical 0 .i32 v rfl rfl
  have hsame := hcalls s' t' ⟨rfl, rfl, rfl⟩ ⟨rfl, rfl, rfl⟩ 1 answer (hanswers s' hs)
    (hanswers t' ht)
  have hnegative : Value.AllCanonical split.types [.int (-5)] := by
    rintro (_ | i) type v htype hv
    · cases htype
      cases hv
      exact ⟨0xfffffffb, rfl⟩
    · cases hv
  obtain ⟨hboth, haccepted, -⟩ := hsame [.int (-5)] hnegative {}
  obtain ⟨hboth', -, hrejected⟩ := hsame [] (fun _ _ _ _ hv => by cases hv) {}
  have hvalue := (haccepted rfl).2
  have hfailure := hrejected (by decide)
  exact ⟨m, s', n, t', hm, hn, hvalue, hboth ▸ hvalue, hfailure, hboth' ▸ hfailure⟩

end Machine

end DualCall
