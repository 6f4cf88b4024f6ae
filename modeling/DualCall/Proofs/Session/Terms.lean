import DualCall.Proofs.Ownership.Leads
import DualCall.Session.Step

namespace DualCall

def SpecTerm.terms : SpecTerm → List Term
  | .bare _ => []
  | .paired _ default => [default]

def ErrorTerm.terms : ErrorTerm → List Term
  | .malformedSpecification _ specs => specs.flatMap SpecTerm.terms
  | .arity _ _ _ args => args
  | .typeMismatch _ _ found => [found]
  | .invalidBehavior _ | .notUnified _ | .unsupportedType _ _ | .native _ _ | .routine _ => []

def RoutineTerm.terms : RoutineTerm → List Term
  | .constant value => [value]
  | .raise error => error.terms
  | .argument _ | .count | .sum | .digits | .floatSum | .panic | .forward _ | .compare _ => []

def Step.terms : Step → List Term
  | .procedure _ _ routine | .register _ _ routine => routine.terms
  | .value _ term | .introspect term | .inspect term | .serializable term => [term]
  | .unify _ _ _ specs => specs.flatMap SpecTerm.terms
  | .unifyValue _ _ term specs => term :: specs.flatMap SpecTerm.terms
  | .call _ args => args
  | .equal left right => [left, right]
  | .sample _ _ | .symbol _ _ _ | .pointer _ _ | .own _ _ | .memory _ _ | .peek _
  | .invoker _ _ _ _ | .derive _ _ _ _ | .takeProcedure _ _ | .takePointer _ _ | .facets _
  | .samePointer _ _ | .stats | .drop _ => []

/-- Values that are written out are data. -/
def Literal (terms : List Term) : Prop :=
  ∀ v, .value v ∈ terms → v.isData = true

theorem Literal.of_subset {terms fewer : List Term} (hliteral : Literal terms)
    (hfewer : fewer ⊆ terms) : Literal fewer :=
  fun v hv => hliteral v (hfewer hv)

namespace Session

/-- The program that holds what the registers of a session hold, and what is left over of the terms
    of a step. -/
def program (session : Session) (left : List Handle) (issued : List (UInt64 × Code)) : Program where
  machine := session.machine
  handles := left ++ session.registers.map Prod.snd
  issued := issued

/-- A session that has come from another one by reading terms. -/
structure Reads (session session' : Session) : Prop where
  registers : session'.registers = session.registers
  codes : session'.machine.codes = session.machine.codes
  backend : session'.machine.backend = session.machine.backend

/-- A computation that reads terms: it makes nothing but procedures that own nothing, and when
    `given` is available to the program, then so is what it yields. -/
def Evaluates {α : Type} (given : List Handle) (x : SessionM α) (yields : α → List Handle) : Prop :=
  ∀ session left issued, session.machine.backend = .inMemory →
    (∀ h ∈ given, (session.program left issued).Available h) →
    ∀ a session', x.run session = .ok (a, session') →
      session.Reads session' ∧ ∃ made, (∀ h ∈ made, h.owned = []) ∧
        (session.program left issued).Leads (session'.program (made ++ left) issued) ∧
        ∀ h ∈ yields a, (session'.program (made ++ left) issued).Available h

theorem Reads.available {session session' : Session} (hreads : session.Reads session')
    {made left : List Handle} {issued : List (UInt64 × Code)} {h : Handle}
    (havailable : (session.program left issued).Available h) :
    (session'.program (made ++ left) issued).Available h := by
  refine havailable.mono hreads.codes fun g hg => ?_
  simp only [program, hreads.registers, List.append_assoc] at hg ⊢
  exact List.mem_append_right _ hg

namespace Evaluates

variable {α β : Type} {given : List Handle}

/-- A computation that changes neither the machine nor the registers. -/
theorem of_unchanged {x : SessionM α} {yields : α → List Handle}
    (hx : ∀ session a session', x.run session = .ok (a, session') →
      session'.machine = session.machine ∧ session'.registers = session.registers ∧
        ∀ left issued, (∀ h ∈ given, (session.program left issued).Available h) →
          ∀ h ∈ yields a, (session.program left issued).Available h) :
    Evaluates given x yields := by
  intro session left issued _ hgiven a session' hrun
  obtain ⟨hmachine, hregisters, hyields⟩ := hx session a session' hrun
  have hsame : session'.program left issued = session.program left issued := by
    rw [program, hmachine, hregisters, program]
  refine ⟨⟨hregisters, by rw [hmachine], by rw [hmachine]⟩, [],
    fun h hh => (List.not_mem_nil hh).elim, ?_⟩
  rw [List.nil_append, hsame]
  exact ⟨.refl _, hyields left issued hgiven⟩

/-- What is yielded at once was available before. -/
theorem pure {a : α} {yields : α → List Handle}
    (ha : ∀ p : Program, (∀ h ∈ given, p.Available h) → ∀ h ∈ yields a, p.Available h) :
    Evaluates given (Pure.pure a : SessionM α) yields := by
  refine of_unchanged fun session a' session' hrun => ?_
  cases hrun
  exact ⟨rfl, rfl, fun left issued => ha _⟩

theorem pure_of_subset {a : α} {yields : α → List Handle} (ha : yields a ⊆ given) :
    Evaluates given (Pure.pure a : SessionM α) yields :=
  .pure fun _ hgiven h hh => hgiven h (ha hh)

theorem bind {x : SessionM α} {next : α → SessionM β} {first : α → List Handle}
    {yields : β → List Handle} (hx : Evaluates given x first)
    (hnext : ∀ a, Evaluates (first a ++ given) (next a) yields) :
    Evaluates given (x >>= next) yields := by
  intro session left issued hmemory hgiven b session' hrun
  obtain ⟨a, session₁, hfirst, hsecond⟩ := run_bind_eq_ok hrun
  obtain ⟨hreads, made, hfree, hleads, hyields⟩ :=
    hx session left issued hmemory hgiven a session₁ hfirst
  have hgiven' (h : Handle) (hh : h ∈ first a ++ given) :
      (session₁.program (made ++ left) issued).Available h :=
    (List.mem_append.mp hh).elim (hyields h) fun hh => hreads.available (hgiven h hh)
  obtain ⟨hreads', made', hfree', hleads', hyields'⟩ := hnext a session₁ (made ++ left) issued
    (hreads.backend.trans hmemory) hgiven' b session' hsecond
  refine ⟨⟨hreads'.registers.trans hreads.registers, hreads'.codes.trans hreads.codes,
    hreads'.backend.trans hreads.backend⟩, made' ++ made, ?_, ?_, ?_⟩
  · exact fun h hh => (List.mem_append.mp hh).elim (hfree' h) (hfree h)
  · rw [List.append_assoc]
    exact hleads.trans hleads'
  · rw [List.append_assoc]
    exact hyields'

theorem of_subset {x : SessionM α} {yields : α → List Handle} {fewer : List Handle}
    (hx : Evaluates fewer x yields) (hfewer : fewer ⊆ given) : Evaluates given x yields :=
  fun session left issued hmemory hgiven =>
    hx session left issued hmemory fun h hh => hgiven h (hfewer hh)

theorem of_eq {x : SessionM α} {yields yields' : α → List Handle} (hx : Evaluates given x yields)
    (hsame : ∀ a, yields' a = yields a) : Evaluates given x yields' :=
  funext hsame ▸ hx

theorem stop (why : Stop) (yields : α → List Handle) :
    Evaluates given (throw why : SessionM α) yields := by
  intro session left issued _ _ a session' hrun
  cases hrun

theorem mapM {f : α → SessionM β} {yields : β → List Handle} (xs : List α)
    (hf : ∀ x ∈ xs, Evaluates given (f x) yields) :
    Evaluates given (xs.mapM f) fun ys => ys.flatMap yields := by
  induction xs with
  | nil => exact .pure_of_subset (List.nil_subset _)
  | cons x xs ih =>
    obtain ⟨hx, hxs⟩ := List.forall_mem_cons.mp hf
    rw [List.mapM_cons]
    refine hx.bind fun y => ((ih hxs).of_subset (List.subset_append_right _ _)).bind fun ys => ?_
    refine .pure_of_subset fun h hh => ?_
    rw [List.flatMap_cons] at hh
    obtain hh | hh := List.mem_append.mp hh
    · exact List.mem_append_right _ (List.mem_append_left _ hh)
    · exact List.mem_append_left _ hh

theorem state : Evaluates given (get : SessionM Session) fun _ => [] := by
  refine of_unchanged fun session a session' hrun => ?_
  cases hrun
  exact ⟨rfl, rfl, fun _ _ _ h hh => (List.not_mem_nil hh).elim⟩

theorem read (name : String) : Evaluates given (Session.read name) fun h => [h] := by
  refine of_unchanged fun session h session' hrun => ?_
  obtain ⟨s, s', hget, hrun⟩ := run_bind_eq_ok hrun
  cases hget
  cases hregister : session.register? name with
  | none =>
    rw [hregister] at hrun
    cases hrun
  | some found =>
    rw [hregister] at hrun
    cases hrun
    refine ⟨rfl, rfl, fun left issued _ h' hh => ?_⟩
    obtain rfl := List.mem_singleton.mp hh
    obtain ⟨entry, hfind, rfl⟩ := Option.map_eq_some_iff.mp hregister
    have hentry := List.mem_of_find?_eq_some hfind
    exact .reached (.held (List.mem_append_right _ (List.mem_map_of_mem hentry)))

/-- A register is read in a certain way, which yields what is available with its content. -/
theorem readAs {view : Handle → Option α} {yields : α → Handle} (name : String)
    (hview : ∀ (p : Program) h a, p.Available h → view h = some a → p.Available (yields a)) :
    Evaluates given (Session.readAs view name) fun a => [yields a] := by
  refine (Evaluates.read name).bind fun h => ?_
  cases hfound : view h with
  | none => exact .stop _ _
  | some a =>
    refine .pure fun p hp h' hh => ?_
    obtain rfl := List.mem_singleton.mp hh
    exact hview p h a (hp h List.mem_cons_self) hfound

theorem procedure (name : String) :
    Evaluates given (Session.readAs Handle.procedure? name) fun q => [.value (.procedure q)] :=
  .readAs name fun _ _ _ => Program.Available.procedure

theorem pointer (name : String) :
    Evaluates given (Session.readAs Handle.pointer? name) fun q => [.pointer q] :=
  .readAs name fun _ _ _ => Program.Available.pointer

theorem behavior (name : String) :
    Evaluates given (Session.readAs Handle.behavior? name) fun behavior => [behavior.handle] :=
  .readAs name fun _ _ _ => Program.Available.behavior

/-- A routine that captures nothing. -/
theorem newRoutine (name : String) (routine : Routine) :
    Evaluates given (onMachine (Machine.newRoutine name [] routine))
      fun p => [.value (.procedure p)] := by
  intro session left issued hmemory _ p session' hrun
  cases hrun
  let made : Handle := .value (.procedure ⟨session.machine.nextIdentity, name, .routine []⟩)
  have hstep : (session.program left issued).Step (.routine name [] routine) _ :=
    .of_perform hmemory (fun h hh => nomatch hh) (Program.perform_routine _ name [] routine)
  refine ⟨⟨rfl, rfl, rfl⟩, [made], fun h hh => ?_, .of_step hstep, fun h hh => ?_⟩
  · obtain rfl := List.mem_singleton.mp hh
    rfl
  · obtain rfl := List.mem_singleton.mp hh
    exact .reached (.held List.mem_cons_self)

theorem eval {term : Term} (hliteral : Literal [term]) :
    Evaluates given (Session.eval term) fun v => [.value v] := by
  cases term with
  | value v =>
    refine .pure fun p _ h hh => ?_
    obtain rfl := List.mem_singleton.mp hh
    exact .data (hliteral v List.mem_cons_self)
  | newProcedure name =>
    exact (Evaluates.newRoutine name { Routine.null with traced := false }).bind fun q =>
      .pure_of_subset (List.subset_append_left _ _)
  | register name =>
    refine (Evaluates.read name).bind fun h => .pure fun p hp h' hh => ?_
    obtain rfl := List.mem_singleton.mp hh
    cases h with
    | value v => exact hp _ List.mem_cons_self
    | pointer | memory => exact .data rfl
  | address name =>
    refine (Evaluates.pointer name).bind fun q => .pure fun p _ h hh => ?_
    obtain rfl := List.mem_singleton.mp hh
    exact .data rfl
  | memory name offset =>
    refine (Evaluates.read name).bind fun h => ?_
    cases h with
    | value | pointer => exact .stop _ _
    | memory start =>
      refine .pure fun p _ h hh => ?_
      obtain rfl := List.mem_singleton.mp hh
      exact .data rfl

theorem evalAll {terms : List Term} (hliteral : Literal terms) :
    Evaluates given (terms.mapM Session.eval) fun values => values.map .value := by
  have hterms : Evaluates given (terms.mapM Session.eval) fun values =>
      values.flatMap fun v => [.value v] :=
    .mapM terms fun term hterm => .eval (hliteral.of_subset (by simpa using hterm))
  exact hterms.of_eq fun values => List.map_eq_flatMap

theorem evalSpec {spec : SpecTerm} (hliteral : Literal spec.terms) :
    Evaluates given (Session.evalSpec spec) fun spec => spec.default?.toList.map .value := by
  cases spec with
  | bare type => exact .pure_of_subset (List.nil_subset _)
  | paired type default =>
    exact (Evaluates.eval hliteral).bind fun v => .pure_of_subset (List.subset_append_left _ _)

theorem evalSpecs {specs : List SpecTerm} (hliteral : Literal (specs.flatMap SpecTerm.terms)) :
    Evaluates given (specs.mapM Session.evalSpec) fun specs =>
      (specs.filterMap ArgSpec.default?).map .value := by
  have hspecs : Evaluates given (specs.mapM Session.evalSpec) fun specs =>
      specs.flatMap fun spec => spec.default?.toList.map .value :=
    .mapM specs fun spec hspec => .evalSpec (hliteral.of_subset fun term hterm =>
      List.mem_flatMap.mpr ⟨spec, hspec, hterm⟩)
  refine hspecs.of_eq fun specs => ?_
  rw [List.filterMap_eq_flatMap_toList, List.map_flatMap]

theorem evalError {error : ErrorTerm} (hliteral : Literal error.terms) :
    Evaluates given (Session.evalError error) fun e => e.values.map .value := by
  cases error with
  | malformedSpecification position specs =>
    exact (Evaluates.evalSpecs hliteral).bind fun specs =>
      .pure_of_subset (List.subset_append_left _ _)
  | arity required total actual args =>
    exact (Evaluates.evalAll hliteral).bind fun args =>
      .pure_of_subset (List.subset_append_left _ _)
  | typeMismatch position expected found =>
    exact (Evaluates.eval hliteral).bind fun v => .pure_of_subset (List.nil_subset _)
  | invalidBehavior | notUnified | unsupportedType | native | routine =>
    exact .pure_of_subset (List.nil_subset _)

/-- What a routine captures is available. -/
theorem build {routine : RoutineTerm} (hliteral : Literal routine.terms) :
    Evaluates given routine.build fun built => built.1.map .value := by
  cases routine with
  | constant term =>
    exact (Evaluates.eval hliteral).bind fun v => .pure_of_subset (List.subset_append_left _ _)
  | raise error =>
    exact (Evaluates.evalError hliteral).bind fun e =>
      .pure_of_subset (List.subset_append_left _ _)
  | forward name =>
    exact (Evaluates.procedure name).bind fun q => .pure_of_subset (List.subset_append_left _ _)
  | argument | count | sum | digits | floatSum | panic | compare =>
    exact .pure_of_subset (List.nil_subset _)

end Evaluates

end Session

end DualCall
