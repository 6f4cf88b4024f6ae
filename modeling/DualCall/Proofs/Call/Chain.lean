import DualCall.Proofs.Call.RoundTrip

namespace DualCall

theorem map_fst_run_bind_pure {α β : Type} (e : Effect α) (f : α → β) (before : Activity) :
    ((do return f (← e) : Effect β).run before).map Prod.fst =
      ((e.run before).map Prod.fst).map f := by
  rw [StateT.run_bind]
  cases e.run before <;> rfl

namespace Machine

/-- Wrap a procedure a number of times under one signature, each time the one that the wrapping
    before has made. -/
def wrapRepeatedly (ret : NativeType) (specs : List ArgSpec) :
    Nat → Procedure → Act (Except CallError (List (Callable × Callable)))
  | 0, _ => return .ok []
  | count + 1, p => do
    match ← wrap ret specs p with
    | .error e => return .error e
    | .ok (m, n) =>
      match ← wrapRepeatedly ret specs count n.procedure with
      | .error e => return .error e
      | .ok chain => return .ok ((m, n) :: chain)

/-- The addresses of the codes that stand in a chain. -/
def addresses (chain : List (Callable × Callable)) : List UInt64 :=
  chain.map fun link => link.1.pointer.address

/-- Each link of a chain stands in front of the procedure of the one before it, and the first in
    front of a given procedure. -/
def IsChain (s : Machine) (ret : NativeType) (split : SplitSpec) :
    Procedure → List (Callable × Callable) → Prop
  | _, [] => True
  | p, (m, n) :: rest =>
    m.procedure = p ∧ s.Wraps m.pointer ret split n.procedure p ∧
      IsChain s ret split n.procedure rest

/-- What wrapping repeatedly makes and changes. The new codes follow each other, and nothing else is
    found at any other address. -/
structure WrappedRepeatedly (s s' : Machine) (ret : NativeType) (split : SplitSpec) (count : Nat)
    (p : Procedure) (chain : List (Callable × Callable)) : Prop where
  native : s'.backend = .native
  routines : s'.routines = s.routines
  addresses_eq : addresses chain = successive s.nextAddress count
  frame : ∀ address ∉ addresses chain, s'.code? address = s.code? address
  isChain : (addresses chain).Nodup → s'.IsChain ret split p chain

theorem run_wrapRepeatedly {s : Machine} (hnative : s.backend = .native) {specs : List ArgSpec}
    {split : SplitSpec} (hsplit : splitSpecs specs = .ok split) (hvoid : .void ∉ split.types)
    (ret : NativeType) (count : Nat) (p : Procedure) :
    ∃ chain s', (wrapRepeatedly ret specs count p).run s = .ok (.ok chain, s') ∧
      WrappedRepeatedly s s' ret split count p chain := by
  induction count generalizing s p with
  | zero => exact ⟨[], s, rfl, hnative, rfl, rfl, fun _ _ => rfl, fun _ => trivial⟩
  | succ count ih =>
    obtain ⟨m, n, s₁, hfirst, hwrapped⟩ := run_wrap hnative hsplit hvoid ret p
    obtain ⟨rest, s', hrest, hrepeated⟩ := ih hwrapped.native n.procedure
    have haddresses : addresses ((m, n) :: rest) = s.nextAddress :: addresses rest := by
      simp [addresses, hwrapped.address]
    refine ⟨(m, n) :: rest, s', ?_, hrepeated.native,
      hrepeated.routines.trans hwrapped.routines, ?_, fun address hother => ?_, fun hnodup => ?_⟩
    · rw [wrapRepeatedly, run_bind_of_ok hfirst]
      dsimp only
      rw [run_bind_of_ok hrest]
      rfl
    · rw [haddresses, hrepeated.addresses_eq, hwrapped.nextAddress, successive_succ]
    · rw [haddresses, List.mem_cons, not_or] at hother
      rw [hrepeated.frame address hother.2, hwrapped.frame address hother.1]
    · -- The later codes are at other addresses, so they leave the first where it is.
      rw [haddresses, List.nodup_cons, ← hwrapped.address] at hnodup
      exact ⟨hwrapped.procedure, hwrapped.wraps.of_code_eq (hrepeated.frame _ hnodup.1),
        hrepeated.isChain hnodup.2⟩

theorem IsChain.of_code_eq {s t : Machine} {ret : NativeType} {split : SplitSpec} {p : Procedure}
    {chain : List (Callable × Callable)} (hchain : s.IsChain ret split p chain)
    (hcode : ∀ address ∈ addresses chain, t.code? address = s.code? address) :
    t.IsChain ret split p chain := by
  induction chain generalizing p with
  | nil => trivial
  | cons link rest ih =>
    obtain ⟨hprocedure, hwraps, hrest⟩ := hchain
    obtain ⟨hhead, htail⟩ := List.forall_mem_cons.mp hcode
    exact ⟨hprocedure, hwraps.of_code_eq hhead, ih hrest htail⟩

section

variable {s : Machine} {specs : List ArgSpec} {split : SplitSpec} {ret : NativeType}

/-- The arguments and the signature decide alone whether a call through native code fails, and how,
    and with what the procedure behind it is called otherwise. Such arguments would be accepted
    again as they are. -/
theorem call_wraps_cases (hnative : s.backend = .native) (hsplit : splitSpecs specs = .ok split)
    (hvoid : .void ∉ split.types) (ret : NativeType) (args : List Value) :
    (∃ e, ∀ {pointer outer inner}, s.Wraps pointer ret split outer inner → ∀ depth,
      s.call (depth + 3) outer args = pure (.failure e)) ∨
    ∃ arrived, split.arity.accepts arrived.length ∧
      Value.Arrive split.types (split.completed arrived) arrived ∧
      ∀ {pointer outer inner}, s.Wraps pointer ret split outer inner → ∀ depth,
        s.call (depth + 3) outer args = (do
          let outcome ← s.call depth inner arrived
          return .value (outcome.received ret)) := by
  by_cases haccepts : split.arity.accepts args.length
  · have hlength := SplitSpec.length_completed hsplit haccepts
    by_cases hconvert : Scalar.Convert split.types (split.completed args)
    · obtain ⟨arrived, harrive⟩ := Value.exists_arrive_of_convert hlength.symm hvoid hconvert
      have htotal : arrived.length = split.arity.total := by
        rw [harrive.length_eq hlength.symm, SplitSpec.length_types hsplit]
      refine .inr ⟨arrived, ?_, ?_, fun hwraps depth =>
        call_of_wraps hnative hsplit hvoid hwraps haccepts harrive depth⟩
      · simp only [Arity.accepts, Bool.and_eq_true, decide_eq_true_eq] at haccepts ⊢
        omega
      · rw [SplitSpec.completed_of_length hsplit htotal]
        exact harrive.again hlength.symm
    · -- The mismatch is one of the arguments, so it is the same for every callable.
      obtain ⟨position, type, value, hfirst⟩ :=
        Scalar.exists_firstMismatch_of_not_convert hlength.symm hvoid hconvert
      exact .inl ⟨_, fun hwraps depth => call_of_firstMismatch hnative hsplit hvoid hwraps.calls
        haccepts hfirst (depth + 1)⟩
  · exact .inl ⟨_, fun hwraps depth => call_of_not_accepts hwraps.calls haccepts (depth + 2)⟩

/-- Wrapping a procedure that already is in front of another changes nothing but the depth. -/
theorem call_wraps_wraps (hnative : s.backend = .native) (hsplit : splitSpecs specs = .ok split)
    (hvoid : .void ∉ split.types) {pointer pointer' : NativePointer} {p p' p'' : Procedure}
    (hwraps : s.Wraps pointer ret split p' p) (hwraps' : s.Wraps pointer' ret split p'' p')
    (args : List Value) (depth : Nat) :
    s.call (depth + 6) p'' args = s.call (depth + 3) p' args := by
  obtain ⟨e, hfailure⟩ | ⟨arrived, haccepts, harrive, hcall⟩ :=
    call_wraps_cases hnative hsplit hvoid ret args
  · rw [hfailure hwraps, hfailure hwraps' (depth + 3)]
  · rw [hcall hwraps, hcall hwraps' (depth + 3),
      call_of_wraps hnative hsplit hvoid hwraps haccepts harrive]
    simp only [bind_assoc, pure_bind, Outcome.received_received]

/-- All links of a chain answer as the first does. Each takes three levels of depth more than the
    one before it. -/
theorem call_chain (hnative : s.backend = .native) (hsplit : splitSpecs specs = .ok split)
    (hvoid : .void ∉ split.types) {p : Procedure} {m n m' n' : Callable}
    {rest : List (Callable × Callable)} (hchain : s.IsChain ret split p ((m, n) :: rest)) {i : Nat}
    (hi : ((m, n) :: rest)[i]? = some (m', n')) (args : List Value) (depth : Nat) :
    s.call (depth + 3 * i + 3) n'.procedure args = s.call (depth + 3) n.procedure args := by
  induction rest generalizing p m n i depth with
  | nil =>
    cases i with
    | zero =>
      cases hi
      rfl
    | succ i => cases hi
  | cons link rest ih =>
    cases i with
    | zero =>
      cases hi
      rfl
    | succ i =>
      obtain ⟨-, hwraps, hrest⟩ := hchain
      have hstep := call_wraps_wraps hnative hsplit hvoid hwraps hrest.2.1 args depth
      have hdepth : depth + 3 * (i + 1) + 3 = depth + 3 + 3 * i + 3 := by omega
      rw [hdepth, ih hrest hi (depth + 3), hstep]

/-- When the outcome of a procedure does not depend on what was done before, neither does that of a
    procedure in front of it. -/
theorem call_wraps_outcome (hnative : s.backend = .native) (hsplit : splitSpecs specs = .ok split)
    (hvoid : .void ∉ split.types) {pointer : NativePointer} {outer inner : Procedure}
    (hwraps : s.Wraps pointer ret split outer inner) {depth : Nat}
    (hinner : ∀ args before before', ((s.call depth inner args).run before).map Prod.fst =
      ((s.call depth inner args).run before').map Prod.fst)
    (args : List Value) (before before' : Activity) :
    ((s.call (depth + 3) outer args).run before).map Prod.fst =
      ((s.call (depth + 3) outer args).run before').map Prod.fst := by
  obtain ⟨e, hfailure⟩ | ⟨arrived, -, -, hcall⟩ :=
    call_wraps_cases hnative hsplit hvoid ret args
  · rw [hfailure hwraps]
    rfl
  · rw [hcall hwraps, map_fst_run_bind_pure, map_fst_run_bind_pure, hinner arrived before before']

end

/-- A procedure that is wrapped any number of times under a well-formed signature without void
    arguments. Every callable of the chain answers each call, whatever its arguments, as the first
    one does: with the same value or the same error, and with the same effects. When the outcome
    of the procedure depends on its arguments alone, the calls need not even start from the same
    activity. The codes that live together have to be at different addresses, which is so until
    all words are used up, and have to stay. -/
theorem call_wrapped_repeatedly {s : Machine} (hnative : s.backend = .native)
    {specs : List ArgSpec} {split : SplitSpec} (hsplit : splitSpecs specs = .ok split)
    (hvoid : .void ∉ split.types) (ret : NativeType) (p : Procedure) (count : Nat) :
    ∃ chain s', (wrapRepeatedly ret specs count p).run s = .ok (.ok chain, s') ∧
      chain.length = count ∧ s'.backend = .native ∧ s'.routines = s.routines ∧
      (count ≤ 2 ^ 60 → (addresses chain).Nodup) ∧
      ((addresses chain).Nodup → ∀ t : Machine, t.backend = .native →
        (∀ address ∈ addresses chain, t.code? address = s'.code? address) →
        t.IsChain ret split p chain ∧
        ∀ m n m' n' i, chain[0]? = some (m, n) → chain[i]? = some (m', n') → ∀ depth args,
          t.call (depth + 3 * i + 3) n'.procedure args = t.call (depth + 3) n.procedure args ∧
          ((∀ args before before', ((t.call depth p args).run before).map Prod.fst =
              ((t.call depth p args).run before').map Prod.fst) →
            ∀ before before',
              ((t.call (depth + 3 * i + 3) n'.procedure args).run before).map Prod.fst =
                ((t.call (depth + 3) n.procedure args).run before').map Prod.fst)) := by
  obtain ⟨chain, s', hrun, hrepeated⟩ := run_wrapRepeatedly hnative hsplit hvoid ret count p
  have hlength := congrArg List.length hrepeated.addresses_eq
  simp only [addresses, successive, List.length_map, List.length_range] at hlength
  refine ⟨chain, s', hrun, hlength, hrepeated.native, hrepeated.routines, fun hcount => ?_,
    fun hnodup t ht hcode => ?_⟩
  · rw [hrepeated.addresses_eq]
    exact nodup_successive _ hcount
  · have hchain := (hrepeated.isChain hnodup).of_code_eq hcode
    refine ⟨hchain, fun m n m' n' i hfirst hi depth args => ?_⟩
    cases chain with
    | nil => cases hfirst
    | cons link rest =>
      cases hfirst
      have hcall := call_chain ht hsplit hvoid hchain hi args depth
      refine ⟨hcall, fun hp before before' => ?_⟩
      rw [hcall]
      exact call_wraps_outcome ht hsplit hvoid hchain.2.1 hp args before before'

/-- A truth value that stands for an argument left out arrives as a number. The routine returns this
    number, and a truth value comes back, at the third wrapping as at the first. -/
theorem call_wrapped_repeatedly_coerced :
    let last : Routine := ⟨true, fun args _ => .finish (.value (args.getLastD .null))⟩
    let s := { Machine.native fun _ => none with routines := fun _ => last }
    let specs : List ArgSpec := [.paired .u16 (.bool true)]
    let split : SplitSpec := ⟨[.u16], [some (.bool true)], ⟨0, 1⟩⟩
    let p : Procedure := ⟨0, "last", .routine []⟩
    s.backend = .native ∧ splitSpecs specs = .ok split ∧ .void ∉ split.types ∧
      ∃ chain s' m n, (wrapRepeatedly .bool specs 3 p).run s = .ok (.ok chain, s') ∧
        (addresses chain).Nodup ∧ chain[2]? = some (m, n) ∧
        (s'.call 1 p [.int 1]).run {} =
          .ok (.value (.int 1), { entered := [⟨"last", [.int 1]⟩] }) ∧
        (s'.call 10 n.procedure []).run {} =
          .ok (.value (.bool true), { entered := [⟨"last", [.int 1]⟩] }) := by
  intro last s specs split p
  have hsplit : splitSpecs specs = .ok split := rfl
  have hvoid : .void ∉ split.types := by decide
  obtain ⟨chain, s', hrun, hlength, hnative, hroutines, hnodup, hsame⟩ :=
    call_wrapped_repeatedly (show s.backend = .native from rfl) hsplit hvoid .bool p 3
  obtain ⟨hchain, hcalls⟩ := hsame (hnodup (by decide)) s' hnative fun _ _ => rfl
  obtain ⟨⟨m, n⟩, hthird⟩ : ∃ link, chain[2]? = some link :=
    ⟨_, List.getElem?_eq_getElem (by omega)⟩
  have hdirect : (s'.call 1 p [.int 1]).run {} =
      .ok (.value (.int 1), { entered := [⟨"last", [.int 1]⟩] }) := by
    rw [call, hroutines]
    rfl
  refine ⟨rfl, hsplit, hvoid, chain, s', m, n, hrun, hnodup (by decide), hthird, hdirect, ?_⟩
  have harrive : Value.Arrive split.types (split.completed []) [.int 1] := .cons rfl .nil
  cases chain with
  | nil => cases hlength
  | cons link rest =>
    rw [(hcalls _ _ m n 2 rfl hthird 1 []).1,
      call_of_wraps hnative hsplit hvoid hchain.2.1 rfl harrive, run_bind_of_ok hdirect]
    rfl

end Machine

end DualCall
