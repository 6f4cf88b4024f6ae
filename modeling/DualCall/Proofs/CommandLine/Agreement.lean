import DualCall.CommandLine.Run
import DualCall.Proofs.Call.NativeCall
import DualCall.Proofs.Signature.Flags
import DualCall.Proofs.Text.Numeral

namespace DualCall

/-- Numbers with the same digits are the same. -/
theorem toDigits_ten_inj {n n' : Nat} : Nat.toDigits 10 n = Nat.toDigits 10 n' ↔ n = n' := by
  refine ⟨fun heq => ?_, congrArg _⟩
  calc
    n = Nat.ofDigitChars 10 (Nat.toDigits 10 n) 0 := Nat.ofDigitChars_ten_toDigits.symm
    _ = Nat.ofDigitChars 10 (Nat.toDigits 10 n') 0 := by rw [heq]
    _ = n' := Nat.ofDigitChars_ten_toDigits

namespace Arity

/-- What is shown of the upper bound behind the lower one. -/
def shownTotal (arity : Arity) : List Char :=
  if arity.required = arity.total then [] else "..=".toList ++ Nat.toDigits 10 arity.total

theorem toList_display (arity : Arity) :
    arity.display.toList = Nat.toDigits 10 arity.required ++ arity.shownTotal := by
  unfold display shownTotal
  split
  · next heq => simp [heq]
  · simp

theorem shownTotal_inj {required total total' : Nat}
    (heq : shownTotal ⟨required, total⟩ = shownTotal ⟨required, total'⟩) : total = total' := by
  unfold shownTotal at heq
  split at heq <;> split at heq
  · next hlower hlower' => exact hlower.symm.trans hlower'
  · cases heq
  · cases heq
  · exact toDigits_ten_inj.mp (List.append_cancel_left heq)

/-- The digits of the lower bound end where the rest of the text begins. -/
theorem span_display (arity : Arity) :
    arity.display.toList.takeWhile Char.isDigit = Nat.toDigits 10 arity.required ∧
      arity.display.toList.dropWhile Char.isDigit = arity.shownTotal := by
  rw [toList_display]
  apply Text.span_append
  · intro c hc
    exact Nat.isDigit_of_mem_toDigits (by omega) (by omega) hc
  · unfold shownTotal
    split
    · simp
    · exact Text.forall_mem_head?_cons rfl _

/-- Different bounds are shown differently. -/
theorem display_inj {arity arity' : Arity} : arity.display = arity'.display ↔ arity = arity' := by
  refine ⟨fun heq => ?_, congrArg display⟩
  obtain ⟨hrequired, htotal⟩ := span_display arity
  obtain ⟨hrequired', htotal'⟩ := span_display arity'
  rw [heq, hrequired', toDigits_ten_inj] at hrequired
  rw [heq, htotal'] at htotal
  obtain ⟨required, total⟩ := arity
  obtain ⟨required', total'⟩ := arity'
  cases hrequired
  rw [shownTotal_inj htotal]

end Arity

/-- What a report shows of a signature that was taken apart: types and defaults of all positions,
    where the first ones must be given and have no default and all later ones have the declared
    one, and the bounds of the number of arguments, in a text that is that of no other bounds. -/
structure Report.Shows (r : Report) (signature : Signature) (split : SplitSpec) : Prop where
  display_iff : ∀ arity : Arity, arity.display = r.arity ↔ arity = split.arity
  length_args : r.args.length = split.arity.total
  length_defaults : r.defaults.length = split.arity.total
  required : ∀ i < split.arity.required, r.defaults[i]? = some none
  optional : ∀ i, split.arity.required ≤ i → i < split.arity.total →
    ∃ type default, signature.args[i]? = some (.paired type default) ∧
      r.defaults[i]? = some (some default.display)

theorem Report.shows_ofCallable {signature : Signature} {split : SplitSpec}
    (hsplit : splitSpecs signature.args = .ok split) {c : Callable} (hc : c.split = split) :
    (ofCallable signature c).Shows signature split := by
  obtain ⟨-, -, hdefaults, harity⟩ := SplitSpec.eq_of_splitSpecs hsplit
  have hshown : (ofCallable signature c).defaults =
      signature.args.map fun spec => spec.default?.map Value.display := by
    have hkept : c.defaults = signature.args.map ArgSpec.default? := by rw [← hdefaults, ← hc]; rfl
    simp [ofCallable, hkept]
  have hlength : split.arity.total = signature.args.length := by rw [harity]
  refine ⟨fun arity => ?_, by simp [ofCallable, hlength], by simp [hshown, hlength],
    fun i hi => ?_, fun i hlow hhigh => ?_⟩
  · rw [← hc]
    exact Arity.display_inj
  · obtain ⟨type, hspec⟩ := SplitSpec.getElem?_of_lt_required hsplit hi
    simp [hshown, hspec, ArgSpec.default?]
  · obtain ⟨type, default, hspec⟩ := SplitSpec.getElem?_of_required_le hsplit hlow hhigh
    exact ⟨type, default, hspec, by simp [hshown, hspec, ArgSpec.default?]⟩

namespace Library

theorem exists_functionIn?_of_addressIn? {start address : UInt64} {functions : List Exported}
    {name : String} (haddress : addressIn? start functions name = some address) :
    ∃ f, functionIn? start functions address = some f := by
  obtain ⟨place, hplace, rfl⟩ := Option.map_eq_some_iff.mp haddress
  have hbound := (List.findIdx?_eq_some_iff_findIdx_eq.mp hplace).1
  have hfound : ((List.range functions.length).find? fun i =>
      addressOf start i == addressOf start place).isSome := by
    rw [List.find?_isSome]
    exact ⟨place, List.mem_range.mpr hbound, by simp⟩
  obtain ⟨i, hi⟩ := Option.isSome_iff_exists.mp hfound
  have hlow := List.mem_range.mp (List.mem_of_find?_eq_some hi)
  refine ⟨functions[i].function, ?_⟩
  rw [functionIn?, hi, Option.bind_some, List.getElem?_eq_getElem hlow, Option.map_some]

/-- What is found by a name is always a function, so that a call can enter it. -/
theorem exists_function_of_lookup {name : String} {library : Option String}
    {pointer : NativePointer} (hlookup : lookup name library = .ok pointer) :
    ∃ f, function? pointer.address = some f := by
  obtain ⟨names, wanted, haddress⟩ :
      ∃ names wanted, addressAmong? names wanted = some pointer.address := by
    unfold lookup at hlookup
    split at hlookup
    · split at hlookup
      · next haddress =>
        cases hlookup
        exact ⟨_, _, haddress⟩
      · cases hlookup
    · split at hlookup
      · cases hlookup
      · split at hlookup
        · cases hlookup
        · split at hlookup
          · next haddress =>
            cases hlookup
            exact ⟨_, _, haddress⟩
          · cases hlookup
  unfold addressAmong? at haddress
  split at haddress
  · exact exists_functionIn?_of_addressIn? haddress
  · cases haddress

end Library

namespace CommandLine

/-- Texts that all are literals are read in order. -/
theorem readValues_of_map_read? {texts : List String} {args : List Value}
    (hargs : texts.map Value.read? = args.map some) : readValues texts = .ok args := by
  induction texts generalizing args with
  | nil => cases args with
    | nil => rfl
    | cons arg args => cases hargs
  | cons text rest ih => cases args with
    | nil => cases hargs
    | cons arg args =>
      rw [List.map_cons, List.map_cons, List.cons.injEq] at hargs
      rw [readValues, hargs.1]
      simp only [ih hargs.2]
      rfl

namespace Environment

variable (env : Environment) (flags : SignatureFlags) {signature : Signature}
  {pointer : NativePointer} {split : SplitSpec}

/-- The state in which the unified function of a command is called. -/
def unified : Machine := { Machine.native env.functions with nextIdentity := 3 }

/-- What a native function comes to that a command enters: the return slot, if it comes back. -/
def entered (f : NativeFunction) (scalars : List Scalar) : Except Abort (UInt64 × Activity) :=
  (followNative (env.unified.enter (Machine.callDepth - 3)) (f scalars {})).run {}

/-- A function that calls nothing back comes back. -/
theorem entered_of_finish {f : NativeFunction} {scalars : List Scalar} {slot : UInt64}
    {memory : Memory} (hf : f scalars {} = .finish slot memory) :
    env.entered f scalars = .ok (slot, { memory := memory }) := by
  rw [entered, hf]
  rfl

section

variable (pointer)

theorem unify_of_malformed {e : CallError} (hsplit : splitSpecs signature.args = .error e) :
    env.unify signature pointer = .error (.call e) := by
  have hrun := Machine.unify_of_malformed (s := .native env.functions) hsplit signature.returns
    (.native pointer)
  simp [unify, hrun]

theorem unify_of_void (hsplit : splitSpecs signature.args = .ok split)
    (hvoid : .void ∈ split.types) :
    env.unify signature pointer =
      .error (.call (.unsupportedType "invoke: argument" .void)) := by
  have hrun := Machine.unify_native_of_void (s := .native env.functions) rfl hsplit hvoid
    signature.returns pointer
  simp [unify, hrun]

theorem exists_unify (hsplit : splitSpecs signature.args = .ok split)
    (hvoid : .void ∉ split.types) :
    ∃ c, env.unify signature pointer = .ok (c, env.unified) ∧ c.split = split ∧
      c.procedure.CallsNative signature.returns pointer split := by
  have hinvoker := Machine.invoker_native (s := .native env.functions) rfl hvoid
    signature.returns pointer
  obtain ⟨c, hunify, hc, -, -, hcalls⟩ := Machine.unify_of_invoker hsplit hinvoker rfl
  refine ⟨c, ?_, hc, hcalls⟩
  simp [unify, hunify]
  rfl

end

/-- What both commands do first: to make a callable of the function that flags describe. -/
def prepare (flags : SignatureFlags) : Except CommandError (Signature × Callable × Machine) := do
  let signature ← (flags.resolve env.source).mapError .signature
  let pointer ← env.find signature
  let (c, s) ← env.unify signature pointer
  return (signature, c, s)

theorem report_eq :
    env.report flags = (do
      let (signature, c, _) ← env.prepare flags
      return .ofCallable signature c) := by
  simp only [report, prepare, bind_assoc, pure_bind]

/-- Values that can be read do not change what fails first. -/
theorem evaluate_eq {texts : List String} {args : List Value}
    (hargs : texts.map Value.read? = args.map some) :
    env.evaluate flags texts = (do
      let (_, c, s) ← env.prepare flags
      callWith s c args) := by
  have hread : (readValues texts : Except CommandError _) = pure args :=
    readValues_of_map_read? hargs
  simp only [evaluate, prepare, hread, bind_assoc, pure_bind]

theorem evaluate_of_prepare_eq_error {texts : List String} {args : List Value}
    (hargs : texts.map Value.read? = args.map some) {e : CommandError}
    (hfailure : env.prepare flags = .error e) : env.evaluate flags texts = .error e := by
  rw [evaluate_eq env flags hargs, hfailure]
  rfl

section

variable {flags} (hresolve : flags.resolve env.source = .ok signature)
include hresolve

theorem prepare_of_resolve :
    env.prepare flags = (do
      let pointer ← env.find signature
      let (c, s) ← env.unify signature pointer
      return (signature, c, s)) := by
  have hstart : (flags.resolve env.source).mapError CommandError.signature = pure signature := by
    rw [hresolve]
    rfl
  rw [prepare, hstart, pure_bind]

theorem prepare_of_not_lookup {e : CallError}
    (hlookup : env.lookup signature.symbol signature.library = .error e) :
    env.prepare flags = .error (.call e) := by
  rw [env.prepare_of_resolve hresolve, find, hlookup]
  rfl

theorem prepare_of_lookup
    (hlookup : env.lookup signature.symbol signature.library = .ok pointer) :
    env.prepare flags = (do
      let (c, s) ← env.unify signature pointer
      return (signature, c, s)) := by
  rw [env.prepare_of_resolve hresolve, find, hlookup]
  rfl

end

/-- A callable that both commands make of a signature. Calls start in the unified state. -/
structure Prepared (signature : Signature) (pointer : NativePointer) (split : SplitSpec)
    (c : Callable) : Prop where
  resolve_eq : flags.resolve env.source = .ok signature
  lookup_eq : env.lookup signature.symbol signature.library = .ok pointer
  split_eq : splitSpecs signature.args = .ok split
  no_void : .void ∉ split.types
  callable_split : c.split = split
  calls : c.procedure.CallsNative signature.returns pointer split
  prepare_eq : env.prepare flags = .ok (signature, c, env.unified)

/-- Whether a callable can be made, and why it cannot, does not depend on any function. -/
theorem prepare_cases :
    (∃ e, ∀ functions, { env with functions := functions }.prepare flags = .error e) ∨
      ∃ signature pointer split c, env.Prepared flags signature pointer split c := by
  let changed (functions : UInt64 → Option NativeFunction) : Environment :=
    { env with functions := functions }
  cases hresolve : flags.resolve env.source with
  | error e =>
    refine .inl ⟨.signature e, fun functions => ?_⟩
    rw [prepare, hresolve]
    rfl
  | ok signature =>
    cases hlookup : env.lookup signature.symbol signature.library with
    | error e =>
      exact .inl ⟨.call e, fun functions =>
        (changed functions).prepare_of_not_lookup hresolve hlookup⟩
    | ok pointer =>
      have hprepare functions := (changed functions).prepare_of_lookup hresolve hlookup
      cases hsplit : splitSpecs signature.args with
      | error e =>
        refine .inl ⟨.call e, fun functions => (hprepare functions).trans ?_⟩
        rw [unify_of_malformed _ pointer hsplit]
        rfl
      | ok split =>
        by_cases hvoid : .void ∈ split.types
        · refine .inl ⟨.call (.unsupportedType "invoke: argument" .void), fun functions =>
            (hprepare functions).trans ?_⟩
          rw [unify_of_void _ pointer hsplit hvoid]
          rfl
        · obtain ⟨c, hunify, hc, hcalls⟩ := env.exists_unify pointer hsplit hvoid
          refine .inr ⟨signature, pointer, split, c, hresolve, hlookup, hsplit, hvoid, hc, hcalls,
            (hprepare env.functions).trans ?_⟩
          rw [hunify]
          rfl

theorem callWith_of_failure {s : Machine} {c : Callable} {args : List Value} {e : CallError}
    (hcall : s.call Machine.callDepth c.procedure args = pure (.failure e)) :
    callWith s c args = .error (.call e) := by
  rw [callWith, hcall]
  rfl

namespace Prepared

variable {env flags} {c : Callable} (h : env.Prepared flags signature pointer split c)
include h

theorem report_eq_ok : env.report flags = .ok (.ofCallable signature c) := by
  rw [report_eq, h.prepare_eq]
  rfl

theorem shows : (Report.ofCallable signature c).Shows signature split :=
  Report.shows_ofCallable h.split_eq h.callable_split

theorem exists_carry {args : List Value} (haccepts : split.arity.accepts args.length)
    (hconvert : Scalar.Convert split.types (split.completed args)) :
    ∃ scalars, Scalar.Carry split.types (split.completed args) scalars :=
  Scalar.exists_carry_of_convert (SplitSpec.length_completed h.split_eq haccepts).symm h.no_void
    hconvert

variable {texts : List String} {args : List Value}
  (hargs : texts.map Value.read? = args.map some)
include hargs

theorem evaluate_eq_callWith : env.evaluate flags texts = callWith env.unified c args := by
  rw [evaluate_eq env flags hargs, h.prepare_eq]
  rfl

theorem evaluate_of_not_accepts (haccepts : ¬ split.arity.accepts args.length) :
    env.evaluate flags texts =
      .error (.call (.arity split.arity.required split.arity.total args.length args)) := by
  rw [h.evaluate_eq_callWith hargs]
  exact callWith_of_failure (Machine.call_of_not_accepts h.calls haccepts _)

variable (haccepts : split.arity.accepts args.length)
include haccepts

theorem evaluate_of_not_convert
    (hconvert : ¬ Scalar.Convert split.types (split.completed args)) :
    ∃ position type value,
      Scalar.FirstMismatch split.types (split.completed args) position type value ∧
      env.evaluate flags texts =
        .error (.call (.typeMismatch position type value.describe)) := by
  obtain ⟨position, type, value, hfirst, hcall⟩ :=
    Machine.call_of_not_convert (s := env.unified) rfl h.split_eq h.no_void h.calls haccepts
      hconvert _
  refine ⟨position, type, value, hfirst, ?_⟩
  rw [h.evaluate_eq_callWith hargs]
  exact callWith_of_failure hcall

/-- When all arguments and defaults convert, the command does not fail any more. -/
theorem evaluate_of_carry {scalars : List Scalar}
    (hcarry : Scalar.Carry split.types (split.completed args) scalars) :
    env.evaluate flags texts =
      match (env.unified.enter (Machine.callDepth - 2) pointer.address scalars).run {} with
      | .error cause => .error (.abort cause)
      | .ok (slot, _) => .ok (.ofSlot signature.returns slot) := by
  rw [h.evaluate_eq_callWith hargs, callWith, Machine.callDepth,
    Machine.call_of_carry rfl h.split_eq h.no_void h.calls haccepts hcarry, StateT.run_bind]
  cases (env.unified.enter _ pointer.address scalars).run {} <;> rfl

theorem evaluate_of_function {scalars : List Scalar}
    (hcarry : Scalar.Carry split.types (split.completed args) scalars) {f : NativeFunction}
    (hf : env.functions pointer.address = some f) :
    env.evaluate flags texts =
      match env.entered f scalars with
      | .error cause => .error (.abort cause)
      | .ok (slot, _) => .ok (.ofSlot signature.returns slot) := by
  have hentered :
      (env.unified.enter (Machine.callDepth - 2) pointer.address scalars).run {} =
        env.entered f scalars :=
    congrArg (StateT.run · {}) (Machine.enter_function (s := env.unified) rfl hf _ scalars)
  rw [h.evaluate_of_carry hargs haccepts hcarry, hentered]

omit haccepts in
/-- The number of arguments is found to be wrong only if it is. -/
theorem evaluate_eq_arity_iff :
    env.evaluate flags texts =
        .error (.call (.arity split.arity.required split.arity.total args.length args)) ↔
      ¬ split.arity.accepts args.length := by
  refine ⟨fun heq haccepts => ?_, h.evaluate_of_not_accepts hargs⟩
  by_cases hconvert : Scalar.Convert split.types (split.completed args)
  · obtain ⟨scalars, hcarry⟩ := h.exists_carry haccepts hconvert
    rw [h.evaluate_of_carry hargs haccepts hcarry] at heq
    split at heq <;> cases heq
  · obtain ⟨position, type, value, -, hfailure⟩ :=
      h.evaluate_of_not_convert hargs haccepts hconvert
    rw [hfailure] at heq
    cases heq

end Prepared

section

variable {env flags}

/-- A report that fails is one for which no callable can be made, for the same cause. -/
theorem prepare_of_report_eq_error {e : CommandError} (hreport : env.report flags = .error e)
    (functions : UInt64 → Option NativeFunction) :
    { env with functions := functions }.prepare flags = .error e := by
  rcases env.prepare_cases flags with ⟨failure, hfailure⟩ | ⟨signature, pointer, split, c, h⟩
  · have hsame : env.report flags = .error failure := by
      rw [report_eq, show env.prepare flags = _ from hfailure env.functions]
      rfl
    cases hreport.symm.trans hsame
    exact hfailure functions
  · cases hreport.symm.trans h.report_eq_ok

/-- A report that succeeds is one on a callable that was made. -/
theorem exists_prepared_of_report {r : Report} (hreport : env.report flags = .ok r) :
    ∃ signature pointer split c, env.Prepared flags signature pointer split c ∧
      r = .ofCallable signature c := by
  rcases env.prepare_cases flags with ⟨failure, hfailure⟩ | ⟨signature, pointer, split, c, h⟩
  · rw [report_eq, show env.prepare flags = _ from hfailure env.functions] at hreport
    cases hreport
  · cases hreport.symm.trans h.report_eq_ok
    exact ⟨signature, pointer, split, c, h, rfl⟩

/-- Among the libraries that can be loaded, a report is always one on a function that can be
    entered. -/
theorem exists_function_of_report {source : Source} {r : Report}
    (hreport : (standard source).report flags = .ok r) :
    ∃ signature pointer f, flags.resolve source = .ok signature ∧
      Library.lookup signature.symbol signature.library = .ok pointer ∧
      Library.function? pointer.address = some f := by
  obtain ⟨signature, pointer, split, c, h, -⟩ := exists_prepared_of_report hreport
  obtain ⟨f, hf⟩ := Library.exists_function_of_lookup h.lookup_eq
  exact ⟨signature, pointer, f, h.resolve_eq, h.lookup_eq, hf⟩

end

/-- A report tells how a call of the same function with readable values goes on. Where the report
    fails, the call fails alike, whatever the native functions do, since none is entered. Where it
    succeeds, the values are too few or too many exactly when their number is out of the bounds
    shown. Otherwise the call fails for the first value or omitted default that does not convert,
    or else returns what the native function leaves in the return slot, if that comes back. -/
theorem evaluate_agrees_report (env : Environment) (flags : SignatureFlags) {texts : List String}
    {args : List Value} (hargs : texts.map Value.read? = args.map some) :
    (∀ e, env.report flags = .error e →
      ∀ functions, { env with functions := functions }.evaluate flags texts = .error e) ∧
    ∀ r, env.report flags = .ok r →
      ∃ signature pointer split, flags.resolve env.source = .ok signature ∧
        env.lookup signature.symbol signature.library = .ok pointer ∧
        splitSpecs signature.args = .ok split ∧ r.Shows signature split ∧
        (∀ arity : Arity, arity.display = r.arity →
          (env.evaluate flags texts =
              .error (.call (.arity arity.required arity.total args.length args)) ↔
            ¬ arity.accepts args.length)) ∧
        (split.arity.accepts args.length →
          ¬ Scalar.Convert split.types (split.completed args) →
          ∃ position type value,
            Scalar.FirstMismatch split.types (split.completed args) position type value ∧
            env.evaluate flags texts =
              .error (.call (.typeMismatch position type value.describe))) ∧
        (split.arity.accepts args.length → Scalar.Convert split.types (split.completed args) →
          ∃ scalars, Scalar.Carry split.types (split.completed args) scalars ∧
            ∀ f, env.functions pointer.address = some f →
              (∀ slot after, env.entered f scalars = .ok (slot, after) →
                env.evaluate flags texts = .ok (.ofSlot signature.returns slot)) ∧
              ∀ e, env.evaluate flags texts = .error e →
                ∃ cause, env.entered f scalars = .error cause ∧ e = .abort cause) := by
  refine ⟨fun e hreport functions => ?_, fun r hreport => ?_⟩
  · exact evaluate_of_prepare_eq_error _ flags hargs (prepare_of_report_eq_error hreport functions)
  · obtain ⟨signature, pointer, split, c, h, rfl⟩ := exists_prepared_of_report hreport
    refine ⟨signature, pointer, split, h.resolve_eq, h.lookup_eq, h.split_eq, h.shows,
      fun arity harity => ?_, fun haccepts hconvert => ?_, fun haccepts hconvert => ?_⟩
    · cases (h.shows.display_iff arity).mp harity
      exact h.evaluate_eq_arity_iff hargs
    · exact h.evaluate_of_not_convert hargs haccepts hconvert
    · obtain ⟨scalars, hcarry⟩ := h.exists_carry haccepts hconvert
      refine ⟨scalars, hcarry, fun f hf => ?_⟩
      rw [h.evaluate_of_function hargs haccepts hcarry hf]
      cases env.entered f scalars with
      | error cause =>
        refine ⟨fun slot after hentered => (by cases hentered), fun e he => ?_⟩
        cases he
        exact ⟨cause, rfl, rfl⟩
      | ok result =>
        refine ⟨fun slot after hentered => ?_, fun e he => (by cases he)⟩
        cases hentered
        rfl

/-- The absolute value of a number with minus seven for the default takes up to one value, so that
    a second one is refused. A void argument is refused by both commands. -/
theorem evaluate_agrees_report_abs :
    let env := standard fun _ => .error "no files"
    let flags : SignatureFlags := { symbol := some "abs", args := ["int32=-7"] }
    let broken : SignatureFlags := { symbol := some "abs", args := ["void"] }
    ([] : List String).map Value.read? = [].map some ∧
      ["-1", "1"].map Value.read? = [.int (-1), .int 1].map some ∧
      env.report flags = .ok
        ⟨"abs", "0x550000000000", "int32", ["int32"], "0..=1", [some "-7"], true⟩ ∧
      env.evaluate flags [] = .ok (.int 7) ∧
      env.evaluate flags ["-1", "1"] = .error (.call (.arity 0 1 2 [.int (-1), .int 1])) ∧
      env.report broken = .error (.call (.unsupportedType "invoke: argument" .void)) ∧
      env.evaluate broken [] = .error (.call (.unsupportedType "invoke: argument" .void)) := by
  intro env flags broken
  have hnone : ([] : List String).map Value.read? = [].map some := rfl
  have htwo : ["-1", "1"].map Value.read? = [.int (-1), .int 1].map some := rfl
  have hresolve (text : String) (spec : ArgSpec) (htext : text = spec.display)
      (hspec : ∀ spec' ∈ [spec], spec'.isData) :
      ({ symbol := some "abs", args := [text] } : SignatureFlags).resolve env.source =
        .ok ⟨"abs", none, .i32, [spec.withoutPayload]⟩ := by
    have hargs := SignatureFlags.readArgs_display hspec
    rw [List.map_singleton, ← htext] at hargs
    rw [SignatureFlags.resolve, hargs]
    rfl
  have hstart : flags.resolve env.source = .ok ⟨"abs", none, .i32, [.paired .i32 (.int (-7))]⟩ :=
    hresolve _ (.paired .i32 (.int (-7))) (by decide +kernel) (by decide)
  have hfound : env.lookup "abs" none = .ok ⟨0x550000000000, none⟩ := rfl
  have hreport : env.report flags = .ok
      ⟨"abs", "0x550000000000", "int32", ["int32"], "0..=1", [some "-7"], true⟩ := by
    rw [Environment.report, hstart]
    refine (show _ = Except.ok (Report.ofCallable _ _) from rfl).trans (congrArg _ ?_)
    decide +kernel
  have hbroken :
      env.report broken = .error (.call (.unsupportedType "invoke: argument" .void)) := by
    rw [Environment.report, hresolve _ (.bare .void) (by decide +kernel) (by decide)]
    rfl
  refine ⟨hnone, htwo, hreport, ?_, ?_, hbroken, ?_⟩
  · obtain ⟨_, _, _, hresolve', hlookup, hsplit, -, -, -, hreturns⟩ :=
      (evaluate_agrees_report env flags hnone).2 _ hreport
    cases hstart.symm.trans hresolve'
    obtain rfl := Except.ok.inj (hfound.symm.trans hlookup)
    cases hsplit
    obtain ⟨scalars, hcarry, hentry⟩ := hreturns (by decide) (by decide)
    obtain rfl : scalars = [.i32 (-7)] := hcarry.unique (.cons rfl .nil)
    let magnitude (r : Registers) : Int32 := if r.int32 0 < 0 then -r.int32 0 else r.int32 0
    have hf : env.functions 0x550000000000 = some (.ofInt32 magnitude) := rfl
    have hslot : (Scalar.i32 (magnitude (.ofScalars [.i32 (-7)]))).store 0 = 7 := by decide +kernel
    have hvalue : Value.ofSlot .i32 7 = .int 7 := Value.ofSlot_eq_ofWord .i32 7
    rw [← hvalue]
    exact (hentry _ hf).1 7 {} (env.entered_of_finish (congrArg (NativeRun.finish · {}) hslot))
  · obtain ⟨_, _, _, -, -, -, hshows, harity, -⟩ :=
      (evaluate_agrees_report env flags htwo).2 _ hreport
    exact (harity ⟨0, 1⟩ (by decide +kernel)).mpr (by decide)
  · exact (evaluate_agrees_report env broken hnone).1 _ hbroken env.functions

end Environment

end CommandLine

end DualCall
