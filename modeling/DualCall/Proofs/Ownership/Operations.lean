import DualCall.Proofs.Ownership.Usable

namespace DualCall

namespace Machine

/-- A machine that has come from another one by adding at most one code, at the next address. -/
structure Grows (s : Machine) (new : List (UInt64 × Code)) (s' : Machine) : Prop where
  codes : s'.codes = new ++ s.codes
  counter : new = [] ∧ s'.nextAddress = s.nextAddress ∨
    ∃ code, new = [(s.nextAddress, code)] ∧ s'.nextAddress = s.nextAddress + addressStep
  backend : s'.backend = s.backend
  locked : s'.locked = s.locked

variable {s : Machine}

theorem Grows.refl (s : Machine) : s.Grows [] s := ⟨rfl, .inl ⟨rfl, rfl⟩, rfl, rfl⟩

theorem Grows.of_identity {new : List (UInt64 × Code)} {s' : Machine} (h : s.Grows new s')
    (identity : Nat) : s.Grows new { s' with nextIdentity := identity } :=
  ⟨h.codes, h.counter, h.backend, h.locked⟩

theorem run_newRoutine (name : String) (captured : List Value) (body : Routine) :
    ∃ p s', (newRoutine name captured body).run s = .ok (p, s') ∧
      p.body = .routine captured ∧ s.Grows [] s' :=
  ⟨_, _, rfl, rfl, rfl, .inl ⟨rfl, rfl⟩, rfl, rfl⟩

theorem grows_insert (s : Machine) (code : Code) :
    s.Grows [(s.nextAddress, code)] { s with
      codes := (s.nextAddress, code) :: s.codes
      nextAddress := s.nextAddress + addressStep } :=
  ⟨rfl, .inr ⟨code, rfl, rfl⟩, rfl, rfl⟩

theorem run_register (hfree : s.locked = false) (p : Procedure) :
    ∃ s', (register p).run s = .ok (⟨s.nextAddress, none⟩, s') ∧
      s.Grows [(s.nextAddress, ⟨p, .void, [], true⟩)] s' := by
  refine ⟨_, ?_, grows_insert s _⟩
  rw [register, run_bind_of_ok (run_insert hfree _)]
  rfl

theorem derive_inMemory (hmemory : s.backend = .inMemory) (hfree : s.locked = false)
    (ret : NativeType) (p : Procedure) (types : List NativeType) :
    (derive ret p types).run s =
      .ok (.ok ⟨s.nextAddress, some (.generated s.nextAddress)⟩, { s with
        codes := (s.nextAddress, ⟨p, ret, types, false⟩) :: s.codes
        nextAddress := s.nextAddress + addressStep }) := by
  have hrun : (derive ret p types).run s = (do
      let address ← insert ⟨p, ret, types, false⟩
      return .ok ⟨address, some (.generated address)⟩ : Act (Except CallError NativePointer)).run
        s := by
    simp [derive, hmemory]
  rw [hrun, run_bind_of_ok (run_insert hfree _)]
  rfl

/-- Only native code can refuse to generate code, which changes nothing. -/
theorem run_derive (hfree : s.locked = false) (ret : NativeType) (p : Procedure)
    (types : List NativeType) :
    (s.backend = .native ∧ ∃ e, (derive ret p types).run s = .ok (.error e, s)) ∨
    ∃ s', (derive ret p types).run s =
        .ok (.ok ⟨s.nextAddress, some (.generated s.nextAddress)⟩, s') ∧
      s.Grows [(s.nextAddress, ⟨p, ret, types, false⟩)] s' := by
  let insertion : Act (Except CallError NativePointer) := do
    let address ← insert ⟨p, ret, types, false⟩
    return .ok ⟨address, some (.generated address)⟩
  have hcases : (s.backend = .native ∧ ∃ e, (derive ret p types).run s = .ok (.error e, s)) ∨
      (derive ret p types).run s = insertion.run s := by
    cases hbackend : s.backend with
    | inMemory => exact .inr (by simp [derive, hbackend, insertion])
    | native =>
      cases hcheck : checkArgTypes "derive" types with
      | error e =>
        refine .inl ⟨rfl, e, ?_⟩
        simp [derive, hbackend, hcheck]
        rfl
      | ok => exact .inr (by simp [derive, hbackend, hcheck, insertion])
  refine hcases.imp_right fun hrun => ⟨_, ?_, grows_insert s _⟩
  rw [hrun, run_bind_of_ok (run_insert hfree _)]
  rfl

theorem invoker_inMemory (hmemory : s.backend = .inMemory) (hfree : s.locked = false)
    (ret : NativeType) (pointer : NativePointer) (types : List NativeType) :
    (invoker ret pointer types).run s =
      if (s.code? pointer.address).isSome then
        .ok (.ok ⟨s.nextIdentity, "native@" ++ pointer.display, .invoker ret pointer types⟩,
          { s with requests := s.requests + 1, nextIdentity := s.nextIdentity + 1 })
      else .ok (.error (.native "invoke" ("no function at " ++ pointer.display)),
        { s with requests := s.requests + 1 }) := by
  obtain ⟨backend, codes, nextAddress, requests, locked, nextIdentity, routines, functions⟩ := s
  obtain rfl : locked = false := hfree
  obtain rfl : backend = .inMemory := hmemory
  let asked : Machine := ⟨.inMemory, codes, nextAddress, requests + 1, false, nextIdentity,
    routines, functions⟩
  have hrun : (invoker ret pointer types).run { asked with requests := requests } = (do
      if (asked.code? pointer.address).isSome then
        return .ok (← newProcedure ("native@" ++ pointer.display) (.invoker ret pointer types))
      else return .error (.native "invoke" ("no function at " ++ pointer.display)) :
        Act (Except CallError Procedure)).run asked := rfl
  refine hrun.trans ?_
  change _ = if (asked.code? pointer.address).isSome then _ else _
  split <;> rfl

theorem run_invoker (hfree : s.locked = false) (ret : NativeType) (pointer : NativePointer)
    (types : List NativeType) :
    ∃ result s', (invoker ret pointer types).run s = .ok (result, s') ∧ s.Grows [] s' ∧
      ∀ q, result = .ok q → q.body = .invoker ret pointer types := by
  let name := "native@" ++ pointer.display
  cases hbackend : s.backend with
  | inMemory =>
    rw [invoker_inMemory hbackend hfree]
    split
    · refine ⟨_, _, rfl, ⟨rfl, .inl ⟨rfl, rfl⟩, rfl, rfl⟩, fun q hq => ?_⟩
      cases hq
      rfl
    · refine ⟨_, _, rfl, ⟨rfl, .inl ⟨rfl, rfl⟩, rfl, rfl⟩, fun q hq => ?_⟩
      cases hq
  | native =>
    cases hcheck : checkArgTypes "invoke" types with
    | error e =>
      have hrun : (invoker ret pointer types).run s = .ok (.error e, s) := by
        simp [invoker, hbackend, hcheck]
        rfl
      refine ⟨_, _, hrun, ⟨rfl, .inl ⟨rfl, rfl⟩, rfl, rfl⟩, fun q hq => ?_⟩
      cases hq
    | ok =>
      have hrun : (invoker ret pointer types).run s =
          .ok (.ok ⟨s.nextIdentity, name, .invoker ret pointer types⟩,
            { s with nextIdentity := s.nextIdentity + 1 }) := by
        simp [invoker, newProcedure, hbackend, hcheck]
        rfl
      refine ⟨_, _, hrun, ⟨rfl, .inl ⟨rfl, rfl⟩, rfl, rfl⟩, fun q hq => ?_⟩
      cases hq
      rfl

/-- What unification makes of a behavior under a signature: nothing when it fails; from a procedure
    a callable with a pointer to new code; from a pointer a callable that calls it. -/
inductive Unified (s : Machine) (ret : NativeType) (specs : List ArgSpec) :
    Behavior → Except CallError Callable → Machine → Prop where
  | failed {behavior : Behavior} {e : CallError} {s' : Machine} (hgrows : s.Grows [] s') :
    Unified s ret specs behavior (.error e) s'
  | managed {c : Callable} {split : SplitSpec} {s' : Machine}
    (hsplit : splitSpecs specs = .ok split) (horigin : c.origin = .managed)
    (hpointer : c.pointer = ⟨s.nextAddress, some (.generated s.nextAddress)⟩)
    (hdefaults : c.defaults = split.defaults)
    (hgrows : s.Grows [(s.nextAddress, ⟨c.procedure, c.ret, c.types, false⟩)] s') :
    Unified s ret specs (.procedure c.procedure) (.ok c) s'
  | native {c : Callable} {split : SplitSpec} {s' : Machine} (hsplit : splitSpecs specs = .ok split)
    (horigin : c.origin = .native) (hcalls : c.procedure.CallsNative c.ret c.pointer split)
    (htypes : c.types = split.types) (harity : c.arity = split.arity)
    (hdefaults : c.defaults = split.defaults) (hgrows : s.Grows [] s') :
    Unified s ret specs (.native c.pointer) (.ok c) s'

theorem run_unify (hfree : s.locked = false) (ret : NativeType) (behavior : Behavior)
    (specs : List ArgSpec) :
    ∃ result s', (unify ret behavior specs).run s = .ok (result, s') ∧
      s.Unified ret specs behavior result s' := by
  cases hsplit : splitSpecs specs with
  | error e => exact ⟨.error e, s, unify_of_malformed hsplit ret behavior, .failed (.refl s)⟩
  | ok split =>
    cases behavior with
    | procedure p =>
      obtain ⟨-, e, hderive⟩ | ⟨s₁, hderive, hgrows⟩ := run_derive hfree ret p split.types
      · exact ⟨.error e, s, unify_of_derive_error hsplit hderive, .failed (.refl s)⟩
      · let c : Callable := ⟨s₁.nextIdentity, p, ⟨s.nextAddress, some (.generated s.nextAddress)⟩,
          split.defaults, ret, split.types, split.arity, .managed⟩
        refine ⟨.ok c, { s₁ with nextIdentity := s₁.nextIdentity + 1 }, ?_,
          .managed (c := c) hsplit rfl rfl rfl (hgrows.of_identity _)⟩
        simp [unify, facets, hsplit, hderive, c]
        rfl
    | native pointer =>
      obtain ⟨result, s₁, hinvoker, hgrows, hbody⟩ := run_invoker hfree ret pointer split.types
      cases result with
      | error e =>
        exact ⟨.error e, s₁, unify_of_invoker_error hsplit hinvoker, .failed hgrows⟩
      | ok raw =>
        let adapted : Procedure := ⟨s₁.nextIdentity, raw.name,
          .adapter raw split.arity split.optional⟩
        let c : Callable := ⟨s₁.nextIdentity + 1, adapted, pointer, split.defaults, ret,
          split.types, split.arity, .native⟩
        refine ⟨.ok c, { s₁ with nextIdentity := s₁.nextIdentity + 2 }, ?_,
          .native (c := c) hsplit rfl ⟨raw, hbody raw rfl, rfl⟩ rfl rfl rfl
            (hgrows.of_identity _)⟩
        simp [unify, facets, adapt, newProcedure, hsplit, hinvoker, adapted, c]
        rfl

section

variable {s' : Machine} {ret : NativeType} {behavior : Behavior} {specs : List ArgSpec}

theorem run_unifyTaken_of_ok {c : Callable}
    (hunify : (unify ret behavior specs).run s = .ok (.ok c, s')) (outside : List UInt64) :
    (unifyTaken outside ret behavior specs).run s = .ok (.ok c, s') := by
  rw [unifyTaken, run_bind_of_ok hunify]
  rfl

theorem run_unifyTaken_of_error {e : CallError}
    (hunify : (unify ret behavior specs).run s = .ok (.error e, s')) (outside : List UInt64) :
    (unifyTaken outside ret behavior specs).run s =
      ((release outside behavior.owned).run s').map fun result => (.error e, result.2) := by
  rw [unifyTaken, run_bind_of_ok hunify]
  dsimp only
  rw [StateT.run_bind]
  cases (release outside behavior.owned).run s' <;> rfl

end

/-- A machine that has come from another one by an operation: what stands behind new code, and what
    the program receives, is usable, and new generated code is owned by what the program
    receives. -/
structure Extends (s : Machine) (received : List Handle) (new : List (UInt64 × Code))
    (s' : Machine) : Prop extends s.Grows new s' where
  procedures : ∀ entry ∈ new, Handle.Usable s (.value (.procedure entry.2.procedure))
  owned : ∀ entry ∈ new, entry.2.registered = false → entry.1 ∈ heldBy received
  usable : ∀ h ∈ received, h.Usable s'

variable {s s' : Machine}

theorem Extends.of_grows (hgrows : s.Grows [] s') : s.Extends [] [] s' where
  toGrows := hgrows
  procedures _ hentry := by cases hentry
  owned _ hentry := by cases hentry
  usable _ hh := by cases hh

/-- Something was made, without new code. -/
theorem Extends.made (hgrows : s.Grows [] s') {h : Handle} (husable : h.Usable s') :
    s.Extends [h] [] s' where
  toGrows := hgrows
  procedures _ hentry := by cases hentry
  owned _ hentry := by cases hentry
  usable h' hh := by
    obtain rfl := List.mem_singleton.mp hh
    exact husable

section

variable {new : List (UInt64 × Code)} (hgrows : s.Grows new s')
  (hnodup : (s.codes.map Prod.fst).Nodup) (hfresh : s.nextAddress ∉ s.codes.map Prod.fst)
include hgrows hnodup hfresh

theorem Grows.nodup : (s'.codes.map Prod.fst).Nodup := by
  rw [hgrows.codes]
  obtain ⟨rfl, -⟩ | ⟨code, rfl, -⟩ := hgrows.counter
  · exact hnodup
  · exact List.nodup_cons.mpr ⟨hfresh, hnodup⟩

theorem Grows.usable {h : Handle} (husable : h.Usable s) : h.Usable s' := by
  refine husable.of_code_eq fun a ha => ?_
  obtain ⟨code, hmem, hgenerated⟩ := husable.generated a ha
  have hmem' : (a, code) ∈ s'.codes := hgrows.codes ▸ List.mem_append_right new hmem
  refine ⟨⟨code, hmem', hgenerated⟩, ?_⟩
  rw [code?_of_mem (hgrows.nodup hnodup hfresh) hmem', code?_of_mem hnodup hmem]

end

theorem Grows.generated {address : UInt64} {code : Code} (hgrows : s.Grows [(address, code)] s')
    (hgenerated : code.registered = false) : Generated s'.codes address :=
  ⟨code, hgrows.codes ▸ List.mem_cons_self, hgenerated⟩

theorem Grows.code?_eq {address : UInt64} {code : Code} (hgrows : s.Grows [(address, code)] s') :
    s'.code? address = some code := by
  simp [code?, hgrows.codes]

end Machine

theorem mem_filterMap_of_default {specs : List ArgSpec} {split : SplitSpec}
    (hsplit : splitSpecs specs = .ok split) {v : Value} (hdefault : some v ∈ split.defaults) :
    v ∈ specs.filterMap ArgSpec.default? := by
  rw [(SplitSpec.eq_of_splitSpecs hsplit).2.2.1] at hdefault
  obtain ⟨spec, hspec, hv⟩ := List.mem_map.mp hdefault
  exact List.mem_filterMap.mpr ⟨spec, hspec, hv⟩

theorem SplitSpec.mem_defaults_of_optional {split : SplitSpec} {v : Value}
    (hoptional : v ∈ split.optional) : some v ∈ split.defaults := by
  obtain ⟨default, hdefault, hv⟩ := List.mem_filterMap.mp hoptional
  obtain rfl : default = some v := hv
  exact List.mem_of_mem_drop hdefault

namespace Machine

variable {s s' : Machine}

/-- What is unified from usable handles is usable. -/
theorem Unified.extends {ret : NativeType} {behavior : Behavior} {specs : List ArgSpec}
    {result : Except CallError Callable} (hunified : s.Unified ret specs behavior result s')
    (hnodup : (s.codes.map Prod.fst).Nodup) (hfresh : s.nextAddress ∉ s.codes.map Prod.fst)
    (hbehavior : behavior.handle.Usable s)
    (hspecs : ∀ v ∈ specs.filterMap ArgSpec.default?, Handle.Usable s (.value v)) :
    ∃ new, s.Extends (Operation.receive (.value ∘ .unified) [] result) new s' ∧
      ∀ entry ∈ new, entry.2.registered = false := by
  cases hunified with
  | failed hgrows => exact ⟨[], .of_grows hgrows, fun _ hentry => nomatch hentry⟩
  | @managed c split _ hsplit horigin hpointer hdefaults hgrows =>
    have hkeep {h : Handle} : h.Usable s → h.Usable s' := hgrows.usable hnodup hfresh
    have hformed : c.Formed s' := by
      rw [Callable.Formed, horigin, hpointer]
      exact ⟨rfl, hgrows.code?_eq⟩
    have husable : Handle.Usable s' (.value (.unified c)) := by
      refine .unified hformed (hkeep hbehavior) ?_ fun v hv => ?_
      · rw [hpointer]
        exact .generatedPointer (hgrows.generated rfl)
      · exact hkeep (hspecs v (mem_filterMap_of_default hsplit (hdefaults ▸ hv)))
    refine ⟨_, ⟨hgrows, ?_, ?_, ?_⟩, ?_⟩
    · intro entry hentry
      obtain rfl := List.mem_singleton.mp hentry
      exact hbehavior
    · have howned : s.nextAddress ∈ (Handle.value (.unified c)).owned := by
        refine (Handle.Part.pointer c).mem_owned ?_
        rw [hpointer]
        exact List.mem_singleton.mpr rfl
      simpa [mem_heldBy, Operation.receive] using howned
    · simpa [Operation.receive] using husable
    · simp
  | @native c split _ hsplit horigin hcalls htypes harity hdefaults hgrows =>
    have hkeep {h : Handle} : h.Usable s → h.Usable s' := hgrows.usable hnodup hfresh
    have hformed : c.Formed s' := by
      rw [Callable.Formed, horigin]
      exact ⟨specs, split, hsplit, hcalls, htypes, harity, hdefaults⟩
    have hdefault (v : Value) (hv : some v ∈ split.defaults) : Handle.Usable s' (.value v) :=
      hkeep (hspecs v (mem_filterMap_of_default hsplit hv))
    obtain ⟨raw, hraw, hbody⟩ := hcalls
    have hprocedure : Handle.Usable s' (.value (.procedure c.procedure)) :=
      .adapter hbody (.invoker hraw (hkeep hbehavior)) fun v hv =>
        hdefault v (SplitSpec.mem_defaults_of_optional hv)
    have husable : Handle.Usable s' (.value (.unified c)) :=
      .unified hformed hprocedure (hkeep hbehavior) (hdefaults ▸ hdefault)
    exact ⟨[], .made hgrows husable, fun _ hentry => nomatch hentry⟩

/-- The callable owns what the behavior owns that it was made from. -/
theorem Unified.owned {ret : NativeType} {behavior : Behavior} {specs : List ArgSpec} {c : Callable}
    (hunified : s.Unified ret specs behavior (.ok c) s') {address : UInt64}
    (howned : address ∈ behavior.handle.owned) : address ∈ (Handle.value (.unified c)).owned := by
  cases hunified with
  | managed => exact (Handle.Part.procedure c).mem_owned howned
  | native => exact (Handle.Part.pointer c).mem_owned howned

end Machine

namespace Operation

/-- An operation that gives the program something new and takes nothing; the others are calls, and
    those that take a handle. -/
def makes : Operation → Bool
  | .call .. | .unifyTaken .. | .drop _ => false
  | _ => true

theorem place?_of_makes {op : Operation} (hmakes : op.makes = true) : op.place? = none := by
  cases op with
  | unifyTaken | drop => cases hmakes
  | _ => rfl

theorem receive_eq {α : Type} (handle : α → Handle) (handles : List Handle)
    (result : Except CallError α) :
    receive handle handles result = receive handle [] result ++ handles := by
  cases result <;> rfl

/-- While the registry is free and the next address is not taken, every operation that makes
    something comes to its end. -/
theorem act_extends {op : Operation} (hmakes : op.makes = true) {s : Machine}
    (hfree : s.locked = false) (hnodup : (s.codes.map Prod.fst).Nodup)
    (hfresh : s.nextAddress ∉ s.codes.map Prod.fst) (hinputs : ∀ h ∈ op.inputs, h.Usable s)
    (handles : List Handle) :
    ∃ received new s', (op.act handles).run s = .ok (received ++ handles, s') ∧
      s.Extends received new s' ∧
      new.countP (fun entry => entry.2.registered) = if op.isRegister then 1 else 0 := by
  have hunify (ret : NativeType) (behavior : Behavior) (specs : List ArgSpec)
      (hbehavior : behavior.handle.Usable s)
      (hspecs : ∀ v ∈ specs.filterMap ArgSpec.default?, Handle.Usable s (.value v)) :
      ∃ result new s', (Machine.unify ret behavior specs).run s = .ok (result, s') ∧
        s.Extends (receive (.value ∘ .unified) [] result) new s' ∧
        new.countP (fun entry => entry.2.registered) = 0 := by
    obtain ⟨result, s', hrun, hunified⟩ := Machine.run_unify hfree ret behavior specs
    obtain ⟨new, hextends, hnone⟩ := hunified.extends hnodup hfresh hbehavior hspecs
    exact ⟨result, new, s', hrun, hextends, List.countP_eq_zero.mpr (by simpa using hnone)⟩
  cases op with
  | call | unifyTaken | drop => cases hmakes
  | routine name captured body =>
    obtain ⟨p, s', hrun, hbody, hgrows⟩ := Machine.run_newRoutine (s := s) name captured body
    refine ⟨[.value (.procedure p)], [], s', ?_, .made hgrows (.routine hbody fun v hv => ?_), rfl⟩
    · rw [act, run_bind_of_ok hrun]
      rfl
    · exact hgrows.usable hnodup hfresh (hinputs _ (List.mem_map_of_mem hv))
  | register p =>
    obtain ⟨s', hrun, hgrows⟩ := Machine.run_register hfree p
    refine ⟨[.pointer ⟨s.nextAddress, none⟩], _, s', ?_, ⟨hgrows, ?_, ?_, ?_⟩, rfl⟩
    · rw [act, run_bind_of_ok hrun]
      rfl
    · intro entry hentry
      obtain rfl := List.mem_singleton.mp hentry
      exact hinputs _ List.mem_cons_self
    · intro entry hentry hgenerated
      obtain rfl := List.mem_singleton.mp hentry
      cases hgenerated
    · intro h hh
      obtain rfl := List.mem_singleton.mp hh
      exact .pointer fun a ha => nomatch ha
  | derive ret p types =>
    obtain ⟨-, e, hrun⟩ | ⟨s', hrun, hgrows⟩ := Machine.run_derive hfree ret p types
    · refine ⟨[], [], s, ?_, .of_grows (.refl s), rfl⟩
      rw [act, run_bind_of_ok hrun]
      rfl
    · refine ⟨[.pointer ⟨s.nextAddress, some (.generated s.nextAddress)⟩], _, s', ?_,
        ⟨hgrows, ?_, ?_, ?_⟩, rfl⟩
      · rw [act, run_bind_of_ok hrun]
        rfl
      · intro entry hentry
        obtain rfl := List.mem_singleton.mp hentry
        exact hinputs _ List.mem_cons_self
      · intro entry hentry _
        obtain rfl := List.mem_singleton.mp hentry
        simp [mem_heldBy, Handle.owned, NativePointer.mem_owned]
      · intro h hh
        obtain rfl := List.mem_singleton.mp hh
        exact .generatedPointer (hgrows.generated rfl)
  | invoker ret pointer types =>
    obtain ⟨result, s', hrun, hgrows, hbody⟩ := Machine.run_invoker hfree ret pointer types
    refine ⟨receive (.value ∘ .procedure) [] result, [], s', ?_, ?_, rfl⟩
    · rw [act, run_bind_of_ok hrun, ← receive_eq]
      rfl
    · cases result with
      | error e => exact .of_grows hgrows
      | ok q =>
        have hpointer : Handle.Usable s (.pointer pointer) := hinputs _ List.mem_cons_self
        exact .made hgrows (.invoker (hbody q rfl) (hgrows.usable hnodup hfresh hpointer))
  | unify ret behavior specs =>
    obtain ⟨hbehavior, hspecs⟩ := List.forall_mem_cons.mp hinputs
    obtain ⟨result, new, s', hrun, hextends, hcount⟩ :=
      hunify ret behavior specs hbehavior fun v hv => hspecs _ (List.mem_map_of_mem hv)
    refine ⟨_, new, s', ?_, hextends, hcount⟩
    rw [act, run_bind_of_ok hrun, ← receive_eq]
    rfl
  | unifyValue ret value specs =>
    obtain ⟨hvalue, hspecs⟩ := List.forall_mem_cons.mp hinputs
    cases hbehavior : value.behavior? with
    | none =>
      refine ⟨[], [], s, ?_, .of_grows (.refl s), rfl⟩
      simp [act, Machine.unifyValue, hbehavior, receive]
      rfl
    | some behavior =>
      obtain ⟨result, new, s', hrun, hextends, hcount⟩ :=
        hunify ret behavior specs (Value.usable_behavior hvalue hbehavior) fun v hv =>
          hspecs _ (List.mem_map_of_mem hv)
      refine ⟨_, new, s', ?_, hextends, hcount⟩
      rw [act, Machine.unifyValue, hbehavior]
      dsimp only
      rw [run_bind_of_ok hrun, ← receive_eq]
      rfl
  | copy handle =>
    exact ⟨[handle], [], s, rfl, .made (.refl s) (hinputs _ List.mem_cons_self), rfl⟩

variable {s : Machine} {handles : List Handle}

/-- A call leaves everything as it is. -/
theorem act_call (depth : Nat) (q : Procedure) (args : List Value) (before : Activity) :
    ((call depth q args before).act handles).run s =
      ((s.call depth q args).run before).map fun _ => (handles, s) := by
  have hget : (get : Act Machine).run s = .ok (s, s) := rfl
  rw [act, run_bind_of_ok hget]
  cases (s.call depth q args).run before <;> rfl

theorem act_drop {place : Nat} {h : Handle} (hplace : handles[place]? = some h) :
    ((drop place).act handles).run s =
      ((Machine.release (heldBy (handles.eraseIdx place)) h.owned).run s).map
        fun result => (handles.eraseIdx place, result.2) := by
  rw [act, hplace]
  dsimp only
  rw [StateT.run_bind]
  cases (Machine.release (heldBy (handles.eraseIdx place)) h.owned).run s <;> rfl

theorem act_drop_of_none {place : Nat} (hplace : handles[place]? = none) :
    ((drop place).act handles).run s = .ok (handles, s) := by
  rw [act, hplace]
  rfl

section

variable {s' : Machine} {ret : NativeType} {place : Nat} {specs : List ArgSpec}

theorem act_unifyTaken_of_none (hplace : handles[place]?.bind Handle.asBehavior? = none) :
    ((unifyTaken ret place specs).act handles).run s = .ok (handles, s) := by
  rw [act, hplace]
  rfl

variable {behavior : Behavior} (hplace : handles[place]? = some behavior.handle)
include hplace

theorem act_unifyTaken : (unifyTaken ret place specs).act handles = do
    let result ← Machine.unifyTaken (heldBy (handles.eraseIdx place)) ret behavior specs
    return receive (.value ∘ .unified) (handles.eraseIdx place) result := by
  rw [act, hplace, Option.bind_some, behavior.asBehavior?_handle]

/-- The callable comes in the place of the behavior that was handed over. -/
theorem act_unifyTaken_of_ok {c : Callable}
    (hunify : (Machine.unify ret behavior specs).run s = .ok (.ok c, s')) :
    ((unifyTaken ret place specs).act handles).run s =
      .ok (.value (.unified c) :: handles.eraseIdx place, s') := by
  rw [act_unifyTaken hplace, run_bind_of_ok (Machine.run_unifyTaken_of_ok hunify _)]
  rfl

/-- When the request fails, the behavior that was handed over is dropped. -/
theorem act_unifyTaken_of_error {e : CallError}
    (hunify : (Machine.unify ret behavior specs).run s = .ok (.error e, s')) :
    ((unifyTaken ret place specs).act handles).run s = ((drop place).act handles).run s' := by
  rw [act_unifyTaken hplace, act_drop hplace, StateT.run_bind,
    Machine.run_unifyTaken_of_error hunify, behavior.owned_handle]
  cases (Machine.release (heldBy (handles.eraseIdx place)) behavior.owned).run s' <;> rfl

end

end Operation

end DualCall
