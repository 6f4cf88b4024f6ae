import DualCall.Proofs.Call.Machine
import DualCall.Proofs.Call.NativeFacet

namespace DualCall

/-- A list is a completion of the arguments of a call: they stand at its start as they were
    supplied, and each position that they do not reach holds the default declared there. -/
structure Completes (specs : List ArgSpec) (args all : List Value) : Prop where
  length_eq : all.length = specs.length
  supplied : args <+: all
  omitted : ∀ i, args.length ≤ i → i < specs.length →
    ∃ type default, specs[i]? = some (.paired type default) ∧ all[i]? = some default

namespace SplitSpec

variable {specs : List ArgSpec} {split : SplitSpec}

theorem completes_completed (hsplit : splitSpecs specs = .ok split) {args : List Value}
    (haccepts : split.arity.accepts args.length) : Completes specs args (split.completed args) := by
  have htotal : split.arity.total = specs.length := by rw [(eq_of_splitSpecs hsplit).2.2.2]
  refine ⟨?_, List.prefix_append _ _, fun i hi hlength => ?_⟩
  · rw [length_completed hsplit haccepts, length_types hsplit, htotal]
  · exact getElem?_completed_of_le hsplit haccepts hi (htotal ▸ hlength)

/-- Where the number of arguments was accepted, no difference of numbers that an adapter takes is
    negative, and no part of its defaults that it takes begins behind their end. -/
theorem sub_le_length_optional (hsplit : splitSpecs specs = .ok split) {count : Nat}
    (haccepts : split.arity.accepts count) :
    split.arity.required ≤ count ∧ count ≤ split.arity.total ∧
      count - split.arity.required ≤ split.optional.length := by
  have hlength := required_add_length_optional hsplit
  obtain ⟨hrequired, htotal⟩ := Arity.accepts_iff.mp haccepts
  omega

/-- The calls with an accepted number of arguments, completed. -/
def admitted (split : SplitSpec) (calls : List (List Value)) : List (List Value) :=
  (calls.filter fun args =>
    split.arity.required ≤ args.length ∧ args.length ≤ split.arity.total).map split.completed

theorem admitted_cons (split : SplitSpec) (args : List Value) (calls : List (List Value)) :
    split.admitted (args :: calls) =
      if split.arity.required ≤ args.length ∧ args.length ≤ split.arity.total then
        split.completed args :: split.admitted calls
      else split.admitted calls := by
  by_cases hrange : split.arity.required ≤ args.length ∧ args.length ≤ split.arity.total <;>
    simp [admitted, hrange]

/-- The complaint about the number of arguments of a call. -/
def refusal (split : SplitSpec) (args : List Value) : Outcome :=
  .failure (.arity split.arity.required split.arity.total args.length args)

end SplitSpec

namespace Machine

/-- Call a procedure with one list of arguments after the other. -/
def callEach (s : Machine) (depth : Nat) (p : Procedure) (calls : List (List Value)) :
    Effect (List Outcome) :=
  calls.mapM (s.call depth p)

theorem callEach_cons (s : Machine) (depth : Nat) (p : Procedure) (args : List Value)
    (calls : List (List Value)) :
    s.callEach depth p (args :: calls) = (do
      let outcome ← s.call depth p args
      let outcomes ← s.callEach depth p calls
      return outcome :: outcomes) :=
  List.mapM_cons

variable {specs : List ArgSpec} {split : SplitSpec} {p raw : Procedure}

/-- One call of an adapter is one call of the procedure behind it or none. -/
theorem call_adapter_completed (hsplit : splitSpecs specs = .ok split)
    (hbody : p.body = .adapter raw split.arity split.optional) (s : Machine) (depth : Nat)
    (args : List Value) :
    s.call (depth + 1) p args =
      if split.arity.required ≤ args.length ∧ args.length ≤ split.arity.total then
        s.call depth raw (split.completed args)
      else pure (split.refusal args) := by
  rw [call_adapter hbody]
  by_cases haccepts : split.arity.accepts args.length
  · have hrange := Arity.accepts_iff.mp haccepts
    rw [if_pos haccepts, if_pos hrange, SplitSpec.padArguments_eq_completed hsplit hrange.1]
  · rw [if_neg haccepts, if_neg (mt Arity.accepts_iff.mpr haccepts), SplitSpec.refusal]

/-- A traced routine that comes to its end is recorded once. -/
theorem run_call_routine {s : Machine} {captured : List Value}
    (hbody : raw.body = .routine captured) (htraced : (s.routines raw.identity).traced)
    {answer : List Value → Memory → Outcome}
    (hanswer : ∀ args memory, (s.routines raw.identity).run args memory =
      .finish (answer args memory)) (depth : Nat) (args : List Value) (before : Activity) :
    (s.call (depth + 1) raw args).run before = .ok (answer args before.memory,
      { before with entered := before.entered ++ [⟨raw.name, args⟩] }) := by
  rw [call, hbody]
  simp only [enterRoutine, htraced, hanswer]
  rfl

/-- A sequence of calls leaves one record for each call that was accepted, in their order. -/
theorem run_callEach_adapter (hsplit : splitSpecs specs = .ok split)
    (hbody : p.body = .adapter raw split.arity split.optional) {s : Machine}
    {captured : List Value} (hraw : raw.body = .routine captured)
    (htraced : (s.routines raw.identity).traced) {answer : List Value → Memory → Outcome}
    (hanswer : ∀ args memory, (s.routines raw.identity).run args memory =
      .finish (answer args memory)) (depth : Nat) (calls : List (List Value))
    (before : Activity) :
    (s.callEach (depth + 2) p calls).run before = .ok
      (calls.map fun args =>
        if split.arity.required ≤ args.length ∧ args.length ≤ split.arity.total then
          answer (split.completed args) before.memory
        else split.refusal args,
      { before with
        entered := before.entered ++ (split.admitted calls).map (Entry.mk raw.name) }) := by
  induction calls generalizing before with
  | nil =>
    simp only [SplitSpec.admitted, List.filter_nil, List.map_nil, List.append_nil]
    rfl
  | cons args calls ih =>
    rw [callEach_cons, call_adapter_completed hsplit hbody]
    by_cases hrange : split.arity.required ≤ args.length ∧ args.length ≤ split.arity.total
    · rw [if_pos hrange, run_bind_of_ok (run_call_routine hraw htraced hanswer depth _ before),
        run_bind_of_ok (ih _), List.map_cons, if_pos hrange, SplitSpec.admitted_cons,
        if_pos hrange, List.map_cons,
        List.append_cons _ _ (List.map _ (split.admitted calls))]
      rfl
    · rw [if_neg hrange, pure_bind, run_bind_of_ok (ih before), List.map_cons, if_neg hrange,
        SplitSpec.admitted_cons, if_neg hrange]
      rfl

/-- An adapter in front of a procedure, made from a well-formed list of specifications. In a
    sequence of any number of calls, each one with an accepted number of arguments is exactly one
    call of the procedure, with a completion of the arguments, and ends as that does; each other
    one is refused with the bounds, the number and the arguments, and nothing happens. The record of
    a traced routine behind the adapter shows this. On the way no difference of numbers is negative
    and no part of the defaults is taken from behind their end. -/
theorem callEach_adapt (hsplit : splitSpecs specs = .ok split) (s : Machine) (raw : Procedure) :
    split.arity.required ≤ split.defaults.length ∧
    (∀ count, split.arity.accepts count → split.arity.required ≤ count ∧
      count ≤ split.arity.total ∧ count - split.arity.required ≤ split.optional.length) ∧
    (∀ args : List Value, split.arity.required ≤ args.length → args.length ≤ split.arity.total →
      Completes specs args (split.completed args)) ∧
    ∃ p s', (adapt raw split).run s = .ok (p, s') ∧ p.name = raw.name ∧
      ∀ (t : Machine) (depth : Nat) (calls : List (List Value)),
        t.callEach (depth + 1) p calls = calls.mapM (fun args =>
          if split.arity.required ≤ args.length ∧ args.length ≤ split.arity.total then
            t.call depth raw (split.completed args)
          else pure (split.refusal args)) ∧
        ∀ captured (answer : List Value → Memory → Outcome), raw.body = .routine captured →
          (t.routines raw.identity).traced →
          (∀ args memory, (t.routines raw.identity).run args memory =
            .finish (answer args memory)) →
          ∀ before, (t.callEach (depth + 2) p calls).run before = .ok
            (calls.map fun args =>
              if split.arity.required ≤ args.length ∧ args.length ≤ split.arity.total then
                answer (split.completed args) before.memory
              else split.refusal args,
            { before with
              entered := before.entered ++ (split.admitted calls).map (Entry.mk raw.name) }) := by
  have hlength := SplitSpec.required_add_length_optional hsplit
  have hdefaults := SplitSpec.length_defaults hsplit
  let p : Procedure := ⟨s.nextIdentity, raw.name, .adapter raw split.arity split.optional⟩
  refine ⟨by omega, fun count => SplitSpec.sub_le_length_optional hsplit,
    fun args hrequired htotal => ?_, p, _, rfl, rfl, fun t depth calls => ⟨?_, ?_⟩⟩
  · exact SplitSpec.completes_completed hsplit (Arity.accepts_iff.mpr ⟨hrequired, htotal⟩)
  · exact congrArg calls.mapM (funext (call_adapter_completed hsplit rfl t depth))
  · intro captured answer hraw htraced hanswer before
    exact run_callEach_adapter hsplit rfl hraw htraced hanswer depth calls before

/-- An adapter with one required and two optional arguments, in front of a routine that returns the
    last of its arguments, called with each number of arguments up to one too many. -/
theorem callEach_adapt_last :
    let last : Routine := ⟨true, fun args _ => .finish (.value (args.getLastD .null))⟩
    let t := { Machine.inMemory with routines := fun _ => last }
    let specs : List ArgSpec := [.bare .i32, .paired .i32 (.int 2), .paired .i32 (.int 3)]
    let split : SplitSpec :=
      ⟨[.i32, .i32, .i32], [none, some (.int 2), some (.int 3)], ⟨1, 3⟩⟩
    let raw : Procedure := ⟨0, "last", .routine []⟩
    let calls : List (List Value) := [[], [.int 7], [.int 7, .int 8], [.int 7, .int 8, .int 9],
      [.int 7, .int 8, .int 9, .int 0]]
    splitSpecs specs = .ok split ∧
      ∃ p s', (adapt raw split).run t = .ok (p, s') ∧
        (t.callEach 2 p calls).run {} = .ok
          ([.failure (.arity 1 3 0 []), .value (.int 3), .value (.int 3), .value (.int 9),
            .failure (.arity 1 3 4 [.int 7, .int 8, .int 9, .int 0])],
          { entered := [⟨"last", [.int 7, .int 2, .int 3]⟩, ⟨"last", [.int 7, .int 8, .int 3]⟩,
              ⟨"last", [.int 7, .int 8, .int 9]⟩] }) := by
  intro last t specs split raw calls
  have hsplit : splitSpecs specs = .ok split := rfl
  obtain ⟨-, -, -, p, s', hadapt, -, hcalls⟩ := callEach_adapt hsplit t raw
  refine ⟨hsplit, p, s', hadapt, ?_⟩
  exact (hcalls t 0 calls).2 [] (fun args _ => .value (args.getLastD .null)) rfl rfl
    (fun _ _ => rfl) {}

end Machine

end DualCall
