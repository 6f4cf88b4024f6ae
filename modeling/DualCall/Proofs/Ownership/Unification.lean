import DualCall.Proofs.Ownership.Blocking
import DualCall.Proofs.SpecList.Shape

namespace DualCall

/-- Computations that stay with the backend and do not leave the registry locked. -/
def Act.KeepsReady {α : Type} (act : Act α) : Prop :=
  ∀ s a s', act.run s = .ok (a, s') →
    s'.backend = s.backend ∧ (s.locked = false → s'.locked = false)

namespace Act.KeepsReady

theorem pure {α : Type} (a : α) : KeepsReady (Pure.pure a) := by
  rintro s a s' ⟨⟩
  exact ⟨rfl, id⟩

theorem bind {α β : Type} {x : Act α} {next : α → Act β} (hx : KeepsReady x)
    (hnext : ∀ a, KeepsReady (next a)) : KeepsReady (x >>= next) := by
  intro s b s' hrun
  obtain ⟨a, s₁, hfirst, hsecond⟩ := run_bind_eq_ok hrun
  obtain ⟨hbackend, hfree⟩ := hx s a s₁ hfirst
  obtain ⟨hbackend', hfree'⟩ := hnext a s₁ b s' hsecond
  exact ⟨hbackend'.trans hbackend, hfree' ∘ hfree⟩

/-- Whoever locks the registry in memory unlocks it at the end. -/
theorem guarded {α : Type} {act : Act α} (hact : KeepsReady act) :
    KeepsReady (Machine.guarded act) := by
  intro s a s' hrun
  obtain ⟨-, hguarded⟩ | ⟨-, -, hguarded⟩ | ⟨-, -, hguarded⟩ := Machine.run_guarded_cases act s
  · exact hact s a s' (hguarded.symm.trans hrun)
  · cases hguarded.symm.trans hrun
  · rw [hguarded] at hrun
    cases hinner : act.run { s with locked := true } with
    | error cause =>
      rw [hinner] at hrun
      cases hrun
    | ok result =>
      rw [hinner] at hrun
      cases hrun
      exact ⟨(hact _ _ _ hinner).1, fun _ => rfl⟩

theorem get : KeepsReady (MonadState.get : Act Machine) := by
  rintro s a s' ⟨⟩
  exact ⟨rfl, id⟩

theorem modify {f : Machine → Machine}
    (hf : ∀ s, (f s).backend = s.backend ∧ (f s).locked = s.locked) :
    KeepsReady (modify f : Act PUnit) := by
  rintro s a s' ⟨⟩
  exact ⟨(hf s).1, (hf s).2.trans⟩

theorem newProcedure (name : String) (body : Body) :
    KeepsReady (Machine.newProcedure name body) := by
  rintro s a s' ⟨⟩
  exact ⟨rfl, id⟩

theorem insert (code : Code) : KeepsReady (Machine.insert code) :=
  .bind .get fun _ => .bind (.modify fun _ => ⟨rfl, rfl⟩) fun _ =>
    .bind (.guarded (.modify fun _ => ⟨rfl, rfl⟩)) fun _ => .pure _

theorem derive (ret : NativeType) (p : Procedure) (types : List NativeType) :
    KeepsReady (Machine.derive ret p types) := by
  refine .bind .get fun s => ?_
  dsimp only
  split
  · exact .pure _
  · exact .bind (.insert _) fun _ => .pure _

theorem invoker (ret : NativeType) (pointer : NativePointer) (types : List NativeType) :
    KeepsReady (Machine.invoker ret pointer types) := by
  refine .bind .get fun s => ?_
  split
  · refine .bind (.modify fun _ => ⟨rfl, rfl⟩) fun _ =>
      .bind (.guarded (.bind .get fun _ => .pure _))
      fun known => ?_
    split
    · exact .bind (.newProcedure _ _) fun _ => .pure _
    · exact .pure _
  · split
    · exact .pure _
    · exact .bind (.newProcedure _ _) fun _ => .pure _

theorem facets (ret : NativeType) (behavior : Behavior) (split : SplitSpec) :
    KeepsReady (Machine.facets ret behavior split) := by
  cases behavior with
  | procedure p =>
    refine .bind (.derive ret p split.types) fun result => ?_
    cases result <;> exact .pure _
  | native pointer =>
    refine .bind (.invoker ret pointer split.types) fun result => ?_
    cases result with
    | error e => exact .pure _
    | ok raw => exact .bind (.newProcedure _ _) fun _ => .pure _

theorem unify (ret : NativeType) (behavior : Behavior) (specs : List ArgSpec) :
    KeepsReady (Machine.unify ret behavior specs) := by
  unfold Machine.unify
  split
  · exact .pure _
  · refine .bind (.facets ret behavior _) fun result => ?_
    cases result with
    | error e => exact .pure _
    | ok made =>
      rintro s a s' ⟨⟩
      exact ⟨rfl, id⟩

theorem unifyValue (ret : NativeType) (value : Value) (specs : List ArgSpec) :
    KeepsReady (Machine.unifyValue ret value specs) := by
  unfold Machine.unifyValue
  split
  · exact .unify ret _ specs
  · exact .pure _

theorem releaseEach {nested : List UInt64 → List UInt64 → Act Unit}
    (hnested : ∀ outside owners, KeepsReady (nested outside owners))
    (outside owners : List UInt64) : KeepsReady (Machine.releaseEach nested outside owners) := by
  induction owners with
  | nil => exact .pure ()
  | cons address rest ih =>
    rw [Machine.releaseEach]
    refine .bind .get fun s => ?_
    dsimp only
    split
    · split
      · exact .bind (.pure ()) fun _ => ih
      · exact .bind (.guarded (.bind (.modify fun _ => ⟨rfl, rfl⟩) fun _ => hnested _ _))
          fun _ => ih
    · exact ih

theorem release (outside owners : List UInt64) :
    KeepsReady (Machine.release outside owners) := by
  have hdepth (depth : Nat) (outside owners : List UInt64) :
      KeepsReady (Machine.releaseUpTo depth outside owners) := by
    induction depth generalizing outside owners with
    | zero => exact .pure ()
    | succ depth ih => exact releaseEach ih outside owners
  exact .bind .get fun _ => hdepth _ _ _

theorem unifyTaken (outside : List UInt64) (ret : NativeType) (behavior : Behavior)
    (specs : List ArgSpec) : KeepsReady (Machine.unifyTaken outside ret behavior specs) := by
  refine .bind (.unify ret behavior specs) fun result => ?_
  cases result with
  | ok c => exact .pure _
  | error e => exact .bind (.release _ _) fun _ => .pure _

theorem act (op : Operation) (handles : List Handle) : KeepsReady (op.act handles) := by
  cases op with
  | routine name captured body =>
    rintro s a s' ⟨⟩
    exact ⟨rfl, id⟩
  | register p => exact .bind (.bind (.insert _) fun _ => .pure _) fun _ => .pure _
  | derive ret p types => exact .bind (.derive ret p types) fun _ => .pure _
  | invoker ret pointer types => exact .bind (.invoker ret pointer types) fun _ => .pure _
  | unify ret behavior specs => exact .bind (.unify ret behavior specs) fun _ => .pure _
  | unifyTaken ret place specs =>
    rw [Operation.act]
    split
    · exact .pure _
    · exact .bind (.unifyTaken _ ret _ specs) fun _ => .pure _
  | unifyValue ret value specs => exact .bind (.unifyValue ret value specs) fun _ => .pure _
  | call depth p args before =>
    refine .bind .get fun s => ?_
    split
    · exact .pure _
    · rintro s a s' ⟨⟩
  | copy handle => exact .pure _
  | drop place =>
    rw [Operation.act]
    split
    · exact .pure _
    · exact .bind (.release _ _) fun _ => .pure _

end Act.KeepsReady

/-- What a value stands for when it is unified: a procedure, the procedure facet of a callable, or
    the code at an address other than zero. -/
inductive Value.StandsFor : Value → Behavior → Prop where
  | procedure (q : Procedure) : StandsFor (.procedure q) (.procedure q)
  | unified (u : Callable) : StandsFor (.unified u) (.procedure u.procedure)
  | pointer {address : UInt64} (haddress : address ≠ 0) :
    StandsFor (.pointer address) (.native ⟨address, none⟩)

theorem Value.behavior?_eq_some_iff {value : Value} {behavior : Behavior} :
    value.behavior? = some behavior ↔ value.StandsFor behavior := by
  constructor
  · intro hbehavior
    cases value with
    | procedure q =>
      cases hbehavior
      exact .procedure q
    | unified u =>
      cases hbehavior
      exact .unified u
    | pointer address =>
      by_cases haddress : address = 0
      · rw [behavior?, NativePointer.ofAddress?, if_pos haddress] at hbehavior
        cases hbehavior
      · rw [behavior?, NativePointer.ofAddress?, if_neg haddress] at hbehavior
        cases hbehavior
        exact .pointer haddress
    | _ => cases hbehavior
  · intro hstands
    cases hstands with
    | procedure | unified => rfl
    | pointer haddress => rw [behavior?, NativePointer.ofAddress?, if_neg haddress]; rfl

namespace Machine

/-- What unification in memory makes of a behavior under a signature, and what it leaves. It fails
    for the list before it looks at the address, and for the address before it makes anything. -/
inductive UnifiedInMemory (s : Machine) (ret : NativeType) (specs : List ArgSpec) :
    Behavior → Except CallError Callable → Machine → Prop where
  | malformed {behavior : Behavior} {position : Nat} (hfirst : FirstMisplaced specs position) :
    UnifiedInMemory s ret specs behavior (.error (.malformedSpecification position specs)) s
  | unknown {pointer : NativePointer} {split : SplitSpec} (hsplit : splitSpecs specs = .ok split)
    (hcode : s.code? pointer.address = none) :
    UnifiedInMemory s ret specs (.native pointer)
      (.error (.native "invoke" ("no function at " ++ pointer.display)))
      { s with requests := s.requests + 1 }
  | managed {q : Procedure} {c : Callable} (hsplit : splitSpecs specs = .ok c.split)
    (hret : c.ret = ret) (hprocedure : c.procedure = q)
    (hpointer : c.pointer = ⟨s.nextAddress, some (.generated s.nextAddress)⟩) :
    UnifiedInMemory s ret specs (.procedure q) (.ok c) { s with
      codes := (s.nextAddress, ⟨q, ret, c.types, false⟩) :: s.codes
      nextAddress := s.nextAddress + addressStep
      nextIdentity := s.nextIdentity + 1 }
  | native {pointer : NativePointer} {c : Callable} (hsplit : splitSpecs specs = .ok c.split)
    (hret : c.ret = ret) (hpointer : c.pointer = pointer)
    (hcode : (s.code? pointer.address).isSome)
    (hcalls : c.procedure.CallsNative ret pointer c.split) :
    UnifiedInMemory s ret specs (.native pointer) (.ok c) { s with
      requests := s.requests + 1
      nextIdentity := s.nextIdentity + 3 }

theorem run_unify_inMemory {s : Machine} (hmemory : s.backend = .inMemory)
    (hfree : s.locked = false) (ret : NativeType) (behavior : Behavior) (specs : List ArgSpec) :
    ∃ result s', (unify ret behavior specs).run s = .ok (result, s') ∧
      s.UnifiedInMemory ret specs behavior result s' := by
  obtain ⟨split, hsplit⟩ | ⟨position, hfirst, hsplit⟩ := splitSpecs_cases specs
  · cases behavior with
    | procedure q =>
      obtain ⟨c, hunify, rfl, hret, hpointer, hprocedure⟩ :=
        unify_of_derive hsplit (derive_inMemory hmemory hfree ret q split.types)
      exact ⟨_, _, hunify, .managed hsplit hret hprocedure hpointer⟩
    | native pointer =>
      have hinvoker := invoker_inMemory hmemory hfree ret pointer split.types
      by_cases hcode : (s.code? pointer.address).isSome
      · rw [if_pos hcode] at hinvoker
        obtain ⟨c, hunify, rfl, hret, hpointer, hcalls⟩ := unify_of_invoker hsplit hinvoker rfl
        exact ⟨_, _, hunify, .native hsplit hret hpointer hcode hcalls⟩
      · rw [if_neg hcode] at hinvoker
        exact ⟨_, _, unify_of_invoker_error hsplit hinvoker,
          .unknown hsplit (Option.not_isSome_iff_eq_none.mp hcode)⟩
  · exact ⟨_, s, unify_of_malformed hsplit ret behavior, .malformed hfirst⟩

/-- A behavior that is handed over is not missed when all that it owns is owned elsewhere too. -/
theorem run_unifyTaken_of_kept {s : Machine} (hfree : s.locked = false) {behavior : Behavior}
    {outside : List UInt64} (hkept : ∀ a ∈ behavior.owned, a ∈ outside ∨ HeldByCode s.codes a)
    (ret : NativeType) (specs : List ArgSpec) :
    (unifyTaken outside ret behavior specs).run s = (unify ret behavior specs).run s := by
  obtain ⟨result, s', hunify, hunified⟩ := run_unify hfree ret behavior specs
  rw [hunify]
  cases result with
  | ok c => exact run_unifyTaken_of_ok hunify outside
  | error e =>
    obtain ⟨hgrows⟩ := hunified
    have hcodes : s'.codes = s.codes := hgrows.codes
    have hrelease : (release outside behavior.owned).run s' = .ok ((), s') :=
      run_releaseUpTo_of_all_kept fun a ha => hcodes ▸ hkept a ha
    rw [run_unifyTaken_of_error hunify, hrelease]
    rfl

end Machine

namespace Program

/-- The backend stays, and its registry is free between operations, however many there were. -/
theorem Run.ready {p p' : Program} {ops : List Operation} (hrun : Run p ops p') :
    p'.machine.backend = p.machine.backend ∧
      (p.machine.locked = false → p'.machine.locked = false) := by
  induction hrun with
  | refl => exact ⟨rfl, id⟩
  | @step _ op p₁ p₂ _ hstep ih =>
    obtain ⟨-, address, -, hperform⟩ := hstep
    rw [perform_eq] at hperform
    cases hact : (op.act (p₁.placing address).handles).run (p₁.placing address).machine with
    | error cause =>
      rw [hact] at hperform
      cases hperform
    | ok result =>
      rw [hact] at hperform
      cases hperform
      obtain ⟨hbackend, hfree⟩ := Act.KeepsReady.act op _ _ _ _ hact
      exact ⟨hbackend.trans ih.1, hfree ∘ ih.2⟩

/-- Handing over a copy is unifying what the copy was made of. -/
theorem perform_unifyTaken_copy {p : Program} (hfree : p.machine.locked = false)
    {behavior : Behavior} (havailable : p.Available behavior.handle) (ret : NativeType)
    (specs : List ArgSpec) :
    { p with handles := behavior.handle :: p.handles }.perform (.unifyTaken ret 0 specs) =
      p.perform (.unify ret behavior specs) := by
  have hkept (a : UInt64) (ha : a ∈ behavior.owned) :
      a ∈ heldBy p.handles ∨ HeldByCode p.machine.codes a :=
    havailable.kept (behavior.owned_handle ▸ ha)
  have hplace : (behavior.handle :: p.handles)[0]? = some behavior.handle := rfl
  have hact : ((Operation.unifyTaken ret 0 specs).act (behavior.handle :: p.handles)).run
      p.machine = ((Operation.unify ret behavior specs).act p.handles).run p.machine := by
    rw [Operation.act_unifyTaken hplace, Operation.act, StateT.run_bind, StateT.run_bind]
    exact congrArg (· >>= _) (Machine.run_unifyTaken_of_kept hfree hkept ret specs)
  rw [perform_eq, perform_eq, hact]
  rfl

/-- A behavior was given up. The generated code that is reached through it only goes with it, and
    nothing else happens to the registry. -/
structure GaveUp (p : Program) (place : Nat) (p' : Program) : Prop where
  handles : p'.handles = p.handles.eraseIdx place
  issued : p'.issued = p.issued
  nextAddress : p'.machine.nextAddress = p.machine.nextAddress
  codes : p'.machine.codes.Sublist p.machine.codes
  kept : ∀ entry, entry ∈ p'.machine.codes ↔ entry ∈ p.machine.codes ∧
    (entry.2.registered = true ∨ (p.without place).ReachesOwner entry.1)

/-- What comes of a behavior at a place that is handed over to be unified, when this has a result
    and leaves a machine: a callable in its place, or else the behavior is dropped. No code goes
    with it as long as all that it owns can be reached without it. -/
structure HandsOver (p : Program) (ret : NativeType) (place : Nat) (specs : List ArgSpec)
    (behavior : Behavior) (result : Except CallError Callable) (s' : Machine) : Prop where
  made : ∀ c, result = .ok c → p.perform (.unifyTaken ret place specs) =
    .ok (p.after (.value (.unified c) :: p.handles.eraseIdx place) s')
  dropped : ∀ e, result = .error e →
    p.perform (.unifyTaken ret place specs) = { p with machine := s' }.perform (.drop place)
  gone : ∀ e, result = .error e → p.issued.length < 2 ^ 60 →
    ∀ p', p.perform (.unifyTaken ret place specs) = .ok p' →
      p.GaveUp place p' ∧ p'.machine.requests = s'.requests
  kept : ∀ e, result = .error e → (∀ a ∈ behavior.owned, (p.without place).ReachesOwner a) →
    p.perform (.unifyTaken ret place specs) = .ok { p.without place with machine := s' }

theorem Sound.gaveUp {machine s' : Machine} {p p' : Program} {place : Nat} {h : Handle}
    (hp : Sound machine p) (hp' : Sound machine { p with machine := s' })
    (hcodes : s'.codes = p.machine.codes) (hnext : s'.nextAddress = p.machine.nextAddress)
    (hplace : p.handles[place]? = some h)
    (hperform : { p with machine := s' }.perform (.drop place) = .ok p') :
    p.GaveUp place p' ∧ p'.machine.requests = s'.requests := by
  obtain ⟨s'', hdrop, hbalanced, hshrinks⟩ | ⟨-, hdrop⟩ := hp'.perform_drop hplace
  · cases hperform.symm.trans hdrop
    obtain ⟨keep, hkeep, rfl⟩ := hshrinks
    refine ⟨?_, rfl⟩
    simp only [hcodes] at hbalanced hkeep ⊢
    exact ⟨rfl, rfl, hnext, List.filter_sublist, hp.mem_filter_iff hbalanced hkeep⟩
  · cases hperform.symm.trans hdrop

/-- Handing over a behavior in memory, at any time. -/
theorem Run.handsOver {ops : List Operation} {p : Program} (hrun : Run (start .inMemory) ops p)
    {ret : NativeType} {place : Nat} {specs : List ArgSpec} {behavior : Behavior}
    {result : Except CallError Callable} {s' : Machine}
    (hunify : (Machine.unify ret behavior specs).run p.machine = .ok (result, s'))
    (hunified : p.machine.UnifiedInMemory ret specs behavior result s')
    (hplace : p.handles[place]? = some behavior.handle) :
    p.HandsOver ret place specs behavior result s' := by
  have hfailed (e : CallError) (herror : result = .error e) :
      p.machine.Grows [] s' := by
    cases hunified with
    | malformed => exact .refl _
    | unknown => exact ⟨rfl, .inl ⟨rfl, rfl⟩, rfl, rfl⟩
    | managed | native => cases herror
  have hdropped (e : CallError) (herror : result = .error e) :
      p.perform (.unifyTaken ret place specs) = { p with machine := s' }.perform (.drop place) :=
    perform_unifyTaken_of_error hplace (herror ▸ hunify) (hfailed e herror).codes
  exact {
    made := fun c hc => perform_unifyTaken_of_ok hplace (hc ▸ hunify)
    dropped := hdropped
    gone := fun e herror hcount p' hperform => by
      obtain ⟨hp, -⟩ := hrun.sound rfl rfl fun _ => hcount
      have hgrows := hfailed e herror
      have hnext : s'.nextAddress = p.machine.nextAddress := by
        obtain ⟨-, hsame⟩ | ⟨code, hnew, -⟩ := hgrows.counter
        · exact hsame
        · cases hnew
      have hp' := hp.extend (hp.fresh_next rfl hcount) (.of_grows hgrows)
      rw [hdropped e herror] at hperform
      exact hp.gaveUp hp' hgrows.codes hnext hplace hperform
    kept := fun e herror hreaches => by
      have hcodes : s'.codes = p.machine.codes := (hfailed e herror).codes
      have hrelease : (Machine.release (heldBy (p.handles.eraseIdx place))
          behavior.handle.owned).run s' = .ok ((), s') := by
        refine Machine.run_releaseUpTo_of_all_kept fun a ha => ?_
        rw [behavior.owned_handle] at ha
        exact hcodes ▸ (hreaches a ha).kept
      rw [hdropped e herror, perform_eq, Operation.act_drop hplace, hrelease]
      exact congrArg Except.ok (after_of_length_le (Nat.le_refl _)) }

/-- A request to unify in memory, at any time and whatever it is given, makes all or nothing. A
    value that stands for no behavior is refused first, and nothing is changed. Then the list of
    specifications decides, and then whether something is at the address. A request that fails
    leaves the registry and the next address as they were, and so the count of requested invokers,
    unless it was the address that was unknown. A request that succeeds either puts the one code
    for the procedure at the next address, or asks for one invoker. The next address was never
    handed out, as long as the addresses do not wrap around.

    This holds while the program keeps a copy of the behavior. One that is handed over itself is
    given up when the request fails, and so may be the last owner of some code. -/
theorem Run.unify_all_or_nothing {ops : List Operation} {p : Program}
    (hrun : Run (start .inMemory) ops p) (ret : NativeType) (specs : List ArgSpec) :
    (∀ value : Value, (∀ behavior, ¬ value.StandsFor behavior) →
      (Machine.unifyValue ret value specs).run p.machine =
        .ok (.error (.invalidBehavior value.describe), p.machine)) ∧
    (∀ (value : Value) behavior, value.StandsFor behavior →
      (Machine.unifyValue ret value specs).run p.machine =
        (Machine.unify ret behavior specs).run p.machine) ∧
    (∀ behavior, ∃ result s', (Machine.unify ret behavior specs).run p.machine = .ok (result, s') ∧
      p.machine.UnifiedInMemory ret specs behavior result s' ∧
      (∀ e, result = .error e → s'.codes = p.machine.codes ∧
        s'.nextAddress = p.machine.nextAddress ∧
        (s'.requests = p.machine.requests ∨ s'.requests = p.machine.requests + 1 ∧
          (∃ required, BareFirst specs required) ∧
          ∃ pointer, behavior = .native pointer ∧ p.machine.code? pointer.address = none)) ∧
      ∀ place, p.handles[place]? = some behavior.handle →
        p.HandsOver ret place specs behavior result s') ∧
    (p.issued.length < 2 ^ 60 - 256 → p.machine.nextAddress ≠ 0 ∧
      p.machine.nextAddress ∉ p.issued.map Prod.fst ∧
      p.machine.code? p.machine.nextAddress = none) := by
  obtain ⟨hmemory, hfree⟩ : p.machine.backend = .inMemory ∧ p.machine.locked = false :=
    hrun.ready.imp_right fun hfree => hfree rfl
  refine ⟨fun value hnone => ?_, fun value behavior hstands => ?_, fun behavior => ?_,
    fun hcount => ?_⟩
  · cases hbehavior : value.behavior? with
    | none =>
      rw [Machine.unifyValue, hbehavior]
      rfl
    | some behavior => exact absurd (Value.behavior?_eq_some_iff.mp hbehavior) (hnone behavior)
  · rw [Machine.unifyValue, Value.behavior?_eq_some_iff.mpr hstands]
  · obtain ⟨result, s', hunify, hunified⟩ :=
      Machine.run_unify_inMemory hmemory hfree ret behavior specs
    refine ⟨result, s', hunify, hunified, fun e herror => ?_, fun place hplace =>
      hrun.handsOver hunify hunified hplace⟩
    cases hunified with
    | malformed => exact ⟨rfl, rfl, .inl rfl⟩
    | unknown hsplit hcode =>
      exact ⟨rfl, rfl, .inr ⟨rfl, ⟨_, bareFirst_of_splitSpecs hsplit⟩, _, rfl, hcode⟩⟩
    | managed | native => cases herror
  · have hwords : p.issued.length < 2 ^ 60 := Nat.lt_of_lt_of_le hcount (Nat.sub_le _ _)
    obtain ⟨hp, -⟩ := hrun.sound rfl rfl fun _ => hwords
    have hfresh := hp.fresh rfl hwords
    refine ⟨fun hzero => ?_, hfresh, ?_⟩
    · have hnonzero := zero_notMem_successive (Nat.succ_le_of_lt hcount)
      rw [Machine.successive_add_one] at hnonzero
      refine hnonzero (List.mem_append_right _ (List.mem_singleton.mpr ?_))
      rw [← hzero, (hp.counted rfl).2]
      rfl
    · cases hcode : p.machine.code? p.machine.nextAddress with
      | none => rfl
      | some code =>
        have hissued := hp.mem_issued (Machine.mem_of_code? hcode)
        exact absurd (List.mem_map_of_mem hissued) hfresh

/-- Behind a registered and a derived procedure, the address that comes next is unknown and one
    invoker is asked for in vain; a list that is malformed is refused before that, and the null
    address even before. Handing over the derived pointer in vain removes its code. -/
theorem Run.unify_all_or_nothing_unknown :
    let f : Procedure := ⟨0, "f", .routine []⟩
    let ops : List Operation := [.routine "f" [] .null, .register f, .derive .i32 f [.i32]]
    let specs : List ArgSpec := [.bare .i32, .paired .u8 (.int 7)]
    let wrong : List ArgSpec := [.paired .u8 (.int 7), .bare .i32]
    ∃ p, Run (start .inMemory) ops p ∧ p.issued.length < 2 ^ 60 - 256 ∧
      p.machine.nextAddress = 0x1020 ∧ p.machine.code? 0x1020 = none ∧
      (∃ e s', (Machine.unifyValue .i32 (.pointer 0x1020) specs).run p.machine =
          .ok (.error e, s') ∧
        s'.codes = p.machine.codes ∧ s'.requests = p.machine.requests + 1) ∧
      (∃ position, FirstMisplaced wrong position ∧
        (Machine.unifyValue .i32 (.pointer 0x1020) wrong).run p.machine =
          .ok (.error (.malformedSpecification position wrong), p.machine)) ∧
      (Machine.unifyValue .i32 (.pointer 0) wrong).run p.machine =
        .ok (.error (.invalidBehavior (Value.pointer 0).describe), p.machine) ∧
      p.machine.codes.length = 2 ∧ ∃ p', p.perform (.unifyTaken .i32 0 wrong) = .ok p' ∧
        p.GaveUp 0 p' ∧ p'.machine.codes = [(0x1000, ⟨f, .void, [], true⟩)] := by
  intro f ops specs wrong
  let handle : Handle := .value (.procedure f)
  let registered : UInt64 × Code := (0x1000, ⟨f, .void, [], true⟩)
  let derived : UInt64 × Code := (0x1010, ⟨f, .i32, [.i32], false⟩)
  let pointer : NativePointer := ⟨0x1010, some (.generated 0x1010)⟩
  let s : Machine :=
    { Machine.inMemory with
      nextIdentity := 1
      routines := fun identity => if identity = 0 then .null else .null }
  let p₁ : Program := ⟨s, [handle], []⟩
  let p₂ : Program := ⟨{ s with codes := [registered], nextAddress := 0x1010 },
    [.pointer ⟨0x1000, none⟩, handle], [registered]⟩
  let p₃ : Program := ⟨{ s with codes := [derived, registered], nextAddress := 0x1020 },
    .pointer pointer :: p₂.handles, [derived, registered]⟩
  have hroutine : (start .inMemory).Step (.routine "f" [] .null) p₁ :=
    .of_perform rfl (fun h hh => nomatch hh) rfl
  have hregister : p₁.Step (.register f) p₂ :=
    .of_perform rfl (fun h hh => .reached (.held hh)) rfl
  have hderive : p₂.Step (.derive .i32 f [.i32]) p₃ :=
    .of_perform rfl (fun h hh => .reached (.held (List.mem_cons_of_mem _ hh))) rfl
  have hrun : Run (start .inMemory) ops p₃ :=
    .cons hroutine (.cons hregister (.cons hderive .refl))
  have hcount : p₃.issued.length < 2 ^ 60 - 256 := by decide
  have hstands : (Value.pointer 0x1020).StandsFor (.native ⟨0x1020, none⟩) := .pointer (by decide)
  have hsplit : splitSpecs specs = .ok ⟨[.i32, .u8], [none, some (.int 7)], ⟨1, 2⟩⟩ := rfl
  have hwrong : splitSpecs wrong = .error (.malformedSpecification 1 wrong) := rfl
  obtain ⟨-, hvalue, hunify, hfresh⟩ := hrun.unify_all_or_nothing .i32 specs
  obtain ⟨hnone, hvalue', hunify', -⟩ := hrun.unify_all_or_nothing .i32 wrong
  have hcode := (hfresh hcount).2.2
  refine ⟨p₃, hrun, hcount, rfl, hcode, ?_, ?_, hnone _ ?_, rfl, _, rfl, ?_, rfl⟩
  · obtain ⟨result, s', hresult, hunified, -⟩ := hunify (.native ⟨0x1020, none⟩)
    cases hunified with
    | malformed hfirst => exact absurd hfirst.1 (not_misplaced_of_splitSpecs hsplit _)
    | unknown => exact ⟨_, _, (hvalue _ _ hstands).trans hresult, rfl, rfl⟩
    | native _ _ _ hknown =>
      rw [hcode] at hknown
      cases hknown
  · obtain ⟨result, s', hresult, hunified, -⟩ := hunify' (.native ⟨0x1020, none⟩)
    cases hunified with
    | malformed hfirst => exact ⟨_, hfirst, (hvalue' _ _ hstands).trans hresult⟩
    | unknown hsplit | native hsplit => cases hwrong.symm.trans hsplit
  · rintro behavior ⟨⟩
    contradiction
  · obtain ⟨result, s', -, hunified, -, hhands⟩ := hunify' (.native pointer)
    cases hunified with
    | malformed => exact ((hhands 0 rfl).gone _ rfl (by decide) _ rfl).1
    | unknown hsplit | native hsplit => cases hwrong.symm.trans hsplit

/-- When the last owner of derived code is handed over under a list that is malformed, the request
    fails and the code is removed. -/
theorem Run.unifyTaken_last_owner :
    let f : Procedure := ⟨0, "f", .routine []⟩
    let pointer : NativePointer := ⟨0x1000, some (.generated 0x1000)⟩
    let ops : List Operation := [.routine "f" [] .null, .derive .i32 f [.i32]]
    let wrong : List ArgSpec := [.paired .i32 (.int 1), .bare .i32]
    ∃ p p', Run (start .inMemory) ops p ∧ p.handles[0]? = some (.pointer pointer) ∧
      (Machine.unifyTaken (heldBy (p.handles.eraseIdx 0)) .i32 (.native pointer) wrong).run
        p.machine = .ok (.error (.malformedSpecification 1 wrong), p'.machine) ∧
      p.Step (.unifyTaken .i32 0 wrong) p' ∧
      p.machine.codes = [(0x1000, ⟨f, .i32, [.i32], false⟩)] ∧ p'.machine.codes = [] := by
  intro f pointer ops wrong
  let handle : Handle := .value (.procedure f)
  let derived : UInt64 × Code := (0x1000, ⟨f, .i32, [.i32], false⟩)
  let s (codes : List (UInt64 × Code)) (next : UInt64) : Machine :=
    { Machine.inMemory with
      codes := codes
      nextAddress := next
      nextIdentity := 1
      routines := fun identity => if identity = 0 then .null else .null }
  let p₁ : Program := ⟨s [] 0x1000, [handle], []⟩
  let p₂ : Program := ⟨s [derived] 0x1010, [.pointer pointer, handle], [derived]⟩
  let p₃ : Program := ⟨s [] 0x1010, [handle], [derived]⟩
  have hroutine : (start .inMemory).Step (.routine "f" [] .null) p₁ :=
    .of_perform rfl (fun h hh => nomatch hh) rfl
  have hderive : p₁.Step (.derive .i32 f [.i32]) p₂ :=
    .of_perform rfl (fun h hh => .reached (.held hh)) rfl
  have hunify : p₂.Step (.unifyTaken .i32 0 wrong) p₃ := by
    refine .of_perform rfl (fun h hh => ?_) rfl
    obtain rfl := List.mem_singleton.mp hh
    exact .data rfl
  exact ⟨p₂, p₃, .cons hroutine (.cons hderive .refl), rfl, rfl, hunify, rfl, rfl⟩

end Program

end DualCall
