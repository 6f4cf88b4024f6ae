import DualCall.Proofs.Ownership.Registry

namespace DualCall

/-- The procedure of a callable calls its pointer behind a check of its arguments. -/
def Callable.CallsPointer (c : Callable) : Prop :=
  ∃ specs, splitSpecs specs = .ok c.split ∧ c.procedure.CallsNative c.ret c.pointer c.split

theorem Callable.Formed.callsPointer {s : Machine} {c : Callable} (hformed : c.Formed s)
    (horigin : c.origin = .native) : c.CallsPointer := by
  simp only [Callable.Formed, horigin] at hformed
  obtain ⟨specs, split, hsplit, hcalls, htypes, harity, hdefaults⟩ := hformed
  obtain rfl : c.split = split := by rw [Callable.split, htypes, harity, hdefaults]
  exact ⟨specs, hsplit, hcalls⟩

namespace Machine

/-- The call of a code's procedure with the values in the words of scalars. The result is left in
    a return slot. -/
def callCode (s : Machine) (depth : Nat) (code : Code) (scalars : List Scalar) : Effect UInt64 := do
  let outcome ← s.call depth code.procedure
    (List.zipWith Value.ofWord code.types (scalars.map Scalar.word))
  return fillSlot code.ret outcome 0

/-- What is entered at an address is a code. In memory an invoker finds its procedure there; on
    native code a jump there calls its procedure. -/
def Enters (s : Machine) (address : UInt64) (code : Code) : Prop :=
  match s.backend with
  | .inMemory => ∀ depth (pointer : NativePointer) types args, pointer.address = address →
      args.length = types.length →
      invokeInMemory s (s.call depth) pointer types args = s.call depth code.procedure args
  | .native => ∀ depth scalars,
      s.enter (depth + 1) address scalars = s.callCode depth code scalars

/-- A call of a callable that was made from a pointer gets to a code, when the number of its
    arguments is accepted: in memory with the completed arguments as they are, on native code if
    they convert. -/
def CallsCode (s : Machine) (c : Callable) (code : Code) : Prop :=
  ∀ args, c.arity.accepts args.length → ∀ depth,
    match s.backend with
    | .inMemory =>
      s.call (depth + 2) c.procedure args = s.call depth code.procedure (c.split.completed args)
    | .native => s.call (depth + 3) c.procedure args =
      invokeNative (fun _ => s.callCode depth code) c.ret c.pointer c.types
        (c.split.completed args)

/-- A call of a callable finds nothing at its address. -/
def CallsNothing (s : Machine) (c : Callable) : Prop :=
  ∀ args, c.arity.accepts args.length → ∀ depth, s.call (depth + 2) c.procedure args =
    pure (.failure (.native "invoke" ("no function at " ++ c.pointer.display)))

variable {s : Machine} {address : UInt64} {code : Code} {c : Callable}

theorem enters_of_code (hfree : s.locked = false) (hcode : s.code? address = some code) :
    s.Enters address code := by
  unfold Enters
  split
  · rintro depth pointer types args rfl hlength
    simp [invokeInMemory, hlength, hfree, hcode]
  · exact fun depth scalars => enter_code hcode depth scalars

theorem call_inMemory (hmemory : s.backend = .inMemory) (hcalls : c.CallsPointer)
    {args : List Value} (haccepts : c.arity.accepts args.length) (depth : Nat) :
    (c.split.completed args).length = c.types.length ∧ s.call (depth + 2) c.procedure args =
      invokeInMemory s (s.call depth) c.pointer c.types (c.split.completed args) := by
  obtain ⟨specs, hsplit, raw, hraw, hbody⟩ := hcalls
  have hrequired := (Arity.accepts_iff.mp haccepts).1
  refine ⟨SplitSpec.length_completed hsplit haccepts, ?_⟩
  rw [call_adapter hbody, if_pos (show c.split.arity.accepts args.length from haccepts),
    SplitSpec.padArguments_eq_completed hsplit hrequired, call, hraw]
  simp only [hmemory]
  rfl

theorem callsCode_of_code (hfree : s.locked = false) (hcalls : c.CallsPointer)
    (hcode : s.code? c.pointer.address = some code) : s.CallsCode c code := by
  intro args haccepts depth
  cases hbackend : s.backend with
  | inMemory =>
    obtain ⟨hlength, hcall⟩ := call_inMemory hbackend hcalls haccepts depth
    simp only [hcall, invokeInMemory, hlength, hfree, hcode]
    simp
  | native =>
    obtain ⟨specs, hsplit, hcalls⟩ := hcalls
    have henters : s.Enters c.pointer.address code := enters_of_code hfree hcode
    simp only [Enters, hbackend] at henters
    dsimp only
    rw [call_of_accepts hbackend hsplit hcalls haccepts (depth + 1)]
    simp only [invokeNative, henters]
    rfl

theorem callsNothing_of_none (hmemory : s.backend = .inMemory) (hfree : s.locked = false)
    (hcalls : c.CallsPointer) (hcode : s.code? c.pointer.address = none) : s.CallsNothing c := by
  intro args haccepts depth
  obtain ⟨hlength, hcall⟩ := call_inMemory hmemory hcalls haccepts depth
  rw [hcall]
  simp [invokeInMemory, hlength, hfree, hcode]

end Machine

namespace Program

variable {start : Machine} {p p' : Program} {address : UInt64}

/-- Programs that follow each other, of which all after the first reach an owner of the code at an
    address. -/
def KeepsOwner (address : UInt64) : Program → Program → Prop :=
  Relation.ReflTransGen fun p p' => (∃ op, p.Step op p') ∧ p'.ReachesOwner address

/-- What an operation leaves at an address whose owner can be reached is what was there. -/
theorem Sound.code?_of_step (hp : Sound start p) (hcount : Countable start p) {op : Operation}
    (hstep : p.Step op p') {code : Code} (hcode : p.machine.code? address = some code)
    (howner : p'.ReachesOwner address) : p'.machine.code? address = some code := by
  obtain ⟨hp', new, ⟨hissued, -, hnew⟩, -⟩ := hp.step hcount hstep
  have hmem := Machine.mem_of_code? hcode
  obtain rfl | ⟨⟨other, code', hplace, rfl⟩, hcodes⟩ := hnew
  · obtain ⟨found, hfound, -⟩ := hp'.reachesOwner_iff.mp howner
    have hsame : p'.issued? address = p.issued? address := by
      rw [issued?, hissued]
      rfl
    cases (hp'.issued _ hfound).symm.trans (hsame.trans (hp.issued _ hmem))
    exact Machine.code?_of_mem hp'.balanced.nodup hfound
  · refine Machine.code?_of_mem hp'.balanced.nodup ?_
    rw [hcodes]
    exact List.mem_cons_of_mem _ hmem

theorem KeepsOwner.issued_suffix (hkeeps : KeepsOwner address p p') : p.issued <:+ p'.issued := by
  induction hkeeps with
  | refl => exact List.suffix_refl _
  | tail _ hstep ih =>
    obtain ⟨⟨op, hstep⟩, -⟩ := hstep
    exact ih.trans hstep.issued_suffix

theorem Countable.of_suffix (hcount : Countable start p') (hsuffix : p.issued <:+ p'.issued) :
    Countable start p :=
  fun hmemory => Nat.lt_of_le_of_lt hsuffix.length_le (hcount hmemory)

theorem KeepsOwner.sound (hp : Sound start p) (hkeeps : KeepsOwner address p p')
    (hcount : Countable start p') {code : Code} (hcode : p.machine.code? address = some code) :
    Sound start p' ∧ p'.machine.code? address = some code := by
  induction hkeeps with
  | refl => exact ⟨hp, hcode⟩
  | tail _ hstep ih =>
    obtain ⟨⟨op, hstep⟩, howner⟩ := hstep
    have hbefore := hcount.of_suffix hstep.issued_suffix
    obtain ⟨hmiddle, hat⟩ := ih hbefore
    exact ⟨(hmiddle.step hbefore hstep).1, hmiddle.code?_of_step hbefore hstep hat howner⟩

/-- In memory an address that was handed out is never handed out again, so an owner that is gone
    does not come back. -/
theorem Sound.gone_of_step (hp : Sound start p) (hmemory : start.backend = .inMemory)
    (hcount : Countable start p) {op : Operation} (hstep : p.Step op p')
    (hissued : address ∈ p.issued.map Prod.fst) (hgone : ¬ p.ReachesOwner address) :
    ¬ p'.ReachesOwner address := by
  obtain ⟨hp', new, ⟨-, hcodes, hnew⟩, -⟩ := hp.step hcount hstep
  rw [hp'.reachesOwner_iff]
  rintro ⟨code, hmem, hgenerated⟩
  obtain hmem | hmem := List.mem_append.mp (hcodes _ hmem)
  · obtain rfl | ⟨⟨other, code', hplace, rfl⟩, -⟩ := hnew
    · cases hmem
    · cases List.mem_singleton.mp hmem
      have hnext : address = p.machine.nextAddress := by
        simpa only [Places, hp.backend.trans hmemory] using hplace
      exact hp.fresh hmemory (hcount hmemory) (hnext ▸ hissued)
  · exact hgone (hp.reachesOwner_iff.mpr ⟨code, hmem, hgenerated⟩)

theorem Run.gone (hp : Sound start p) (hmemory : start.backend = .inMemory)
    {later : List Operation} (hrun : Run p later p') (hcount : Countable start p')
    (hissued : address ∈ p.issued.map Prod.fst) (hgone : ¬ p.ReachesOwner address) :
    Sound start p' ∧ ¬ p'.ReachesOwner address := by
  induction hrun with
  | refl => exact ⟨hp, hgone⟩
  | step hrun hstep ih =>
    have hbefore := hcount.of_suffix hstep.issued_suffix
    obtain ⟨hmiddle, hgone'⟩ := ih hbefore
    have hissued' := (hrun.issued_suffix.map Prod.fst).subset hissued
    exact ⟨(hmiddle.step hbefore hstep).1,
      hmiddle.gone_of_step hmemory hbefore hstep hissued' hgone'⟩

/-- What is entered at a program, through all that it reaches. A routine that does something in the
    course of a call is a part of the program then, so this holds at any entry into code. -/
structure Entries (start : Machine) (p : Program) : Prop where
  /-- What is derived for a procedure is a pointer that owns new code for this procedure. -/
  derived : ∀ address, p.Places address → ∀ ret q types,
    p.machine.backend = .native ∧
      (p.placing address).perform (.derive ret q types) = .ok (p.placing address) ∨
    ∃ s', (p.placing address).perform (.derive ret q types) =
      .ok ⟨s', .pointer ⟨address, some (.generated address)⟩ :: p.handles,
        (address, ⟨q, ret, types, false⟩) :: p.issued⟩
  /-- When a procedure is unified, the callable has the procedure and such a pointer. -/
  unified : ∀ address, p.Places address → ∀ ret q specs,
    (∃ s', (p.placing address).perform (.unify ret (.procedure q) specs) =
      .ok ⟨s', p.handles, p.issued⟩) ∨
    ∃ s' c, (p.placing address).perform (.unify ret (.procedure q) specs) =
      .ok ⟨s', .value (.unified c) :: p.handles,
        (address, ⟨q, c.ret, c.types, false⟩) :: p.issued⟩ ∧
      c.origin = .managed ∧ c.procedure = q ∧
      c.pointer = ⟨address, some (.generated address)⟩
  /-- Code stays the same while an owner of it can be reached, whatever is done. -/
  kept : ∀ address code, p.machine.code? address = some code → ∀ p', KeepsOwner address p p' →
    Countable start p' → p'.machine.code? address = some code
  /-- Through a pointer that owns generated code, this code is entered. It is what was last put at
      its address. -/
  owned : ∀ pointer address, p.Reaches (.pointer pointer) →
    pointer.owner = some (.generated address) → pointer.address = address ∧
      ∃ code, code.registered = false ∧ p.issued? address = some code ∧
        p.machine.code? address = some code ∧ p.machine.Enters address code
  /-- A callable that was made from a procedure has the pointer to the code for this procedure. -/
  managed : ∀ c, p.Reaches (.value (.unified c)) → c.origin = .managed →
    c.pointer.owner = some (.generated c.pointer.address) ∧
      p.machine.code? c.pointer.address = some ⟨c.procedure, c.ret, c.types, false⟩
  /-- A call of a callable that was made from a pointer with an owner gets to the code that this
      pointer owns. -/
  native : ∀ c address code, p.Reaches (.value (.unified c)) → c.origin = .native →
    c.pointer.owner = some (.generated address) → p.machine.code? address = some code →
    p.machine.CallsCode c code
  /-- A callable as a pointer argument, be it passed or a default, is the address of the code that
      its pointer owns. -/
  argument : ∀ c address, p.Reaches (.value (.unified c)) →
    c.pointer.owner = some (.generated address) →
      Scalar.ofValue? .pointer (.unified c) = some (.pointer address)
  /-- In memory a callable that was made from a bare copy of the address of generated code gets to
      this code, as long as an owner of it can be reached. Then it finds nothing there for ever. -/
  bare : p.machine.backend = .inMemory → ∀ c code, p.Reaches (.value (.unified c)) →
    c.origin = .native → (c.pointer.address, code) ∈ p.issued → code.registered = false →
    ∀ later p', Run p later p' → Countable start p' →
      (p'.ReachesOwner c.pointer.address ∧ p'.machine.CallsCode c code ∨
        ¬ p'.ReachesOwner c.pointer.address ∧ p'.machine.CallsNothing c) ∧
      (¬ p.ReachesOwner c.pointer.address → ¬ p'.ReachesOwner c.pointer.address)

/-- No call gets to code that is gone or to other code than that which was generated for what is
    called, in memory as on native code, where the addresses of code that is gone may be used again.
    In memory as many codes have to be made as there are words for their addresses, at most. -/
theorem Run.entries {start : Machine} (hfree : start.locked = false) (hcodes : start.codes = [])
    {ops : List Operation} {p : Program} (hrun : Run (Program.start start) ops p)
    (hcount : Countable start p) : Entries start p := by
  obtain ⟨hp, -⟩ := hrun.sound hfree hcodes hcount
  have howned (pointer : NativePointer) (address : UInt64) (hreach : p.Reaches (.pointer pointer))
      (howner : pointer.owner = some (.generated address)) : pointer.address = address ∧
        ∃ code, code.registered = false ∧ p.issued? address = some code ∧
          p.machine.code? address = some code ∧ p.machine.Enters address code := by
    have husable := hp.usable_of_reaches hreach
    obtain ⟨code, hmem, hgenerated⟩ :=
      husable.generated address (NativePointer.mem_owned.mpr howner)
    have hcode := Machine.code?_of_mem hp.balanced.nodup hmem
    exact ⟨husable.formed _ .refl address howner, code, hgenerated, hp.issued _ hmem, hcode,
      Machine.enters_of_code hp.free hcode⟩
  have haddress (c : Callable) (address : UInt64) (hreach : p.Reaches (.value (.unified c)))
      (howner : c.pointer.owner = some (.generated address)) : c.pointer.address = address :=
    (howned c.pointer address (hreach.part (.pointer c)) howner).1
  have hformed (c : Callable) (hreach : p.Reaches (.value (.unified c))) : c.Formed p.machine :=
    (hp.usable_of_reaches hreach).formed _ .refl
  exact {
    derived := fun address hplace ret q types => (hp.placing hplace).perform_derive ret q types
    unified := fun address hplace ret q specs =>
      (hp.placing hplace).perform_unify_procedure ret q specs
    kept := fun address code hcode p' hkeeps hcount' => (hkeeps.sound hp hcount' hcode).2
    owned := howned
    managed := fun c hreach horigin => by
      have hc := hformed c hreach
      rwa [Callable.Formed, horigin] at hc
    native := fun c address code hreach horigin howner hcode => by
      rw [← haddress c address hreach howner] at hcode
      exact Machine.callsCode_of_code hp.free ((hformed c hreach).callsPointer horigin) hcode
    argument := fun c address hreach howner => by
      rw [← haddress c address hreach howner]
      rfl
    bare := fun hmemory c code hreach horigin hissued hgenerated later p' hlater hcount' => by
      have hmemory' : start.backend = .inMemory := hp.backend.symm.trans hmemory
      have hcalls := (hformed c hreach).callsPointer horigin
      obtain ⟨hp', -⟩ := (hrun.trans hlater).sound hfree hcodes hcount'
      have hissued' := hp'.issued?_of_mem hmemory' (hcount' hmemory')
        (hlater.issued_suffix.subset hissued)
      refine ⟨(hp'.code?_generated hissued' hgenerated).imp ?_ ?_, fun hgone => ?_⟩
      · rintro ⟨howner, hcode⟩
        exact ⟨howner, Machine.callsCode_of_code hp'.free hcalls hcode⟩
      · rintro ⟨howner, hcode⟩
        exact ⟨howner, Machine.callsNothing_of_none (hp'.backend.trans hmemory') hp'.free hcalls
          hcode⟩
      · exact (hlater.gone hp hmemory' hcount' (List.mem_map.mpr ⟨_, hissued, rfl⟩) hgone).2 }

/-- A callable that was made from a bare copy of a derived address calls the procedure, and finds
    nothing when the derived pointer was given up. -/
theorem Run.entries_bare_copy :
    let f : Procedure := ⟨0, "f", .routine []⟩
    let pointer : NativePointer := ⟨0x1000, none⟩
    let raw : Procedure := ⟨1, "native@" ++ pointer.display, .invoker .i32 pointer [.i32]⟩
    let c : Callable := ⟨3, ⟨2, raw.name, .adapter raw ⟨1, 1⟩ []⟩, pointer, [none], .i32, [.i32],
      ⟨1, 1⟩, .native⟩
    let ops : List Operation :=
      [.routine "f" [] .null, .derive .i32 f [.i32], .unify .i32 (.native pointer) [.bare .i32]]
    ∃ p p', Machine.inMemory.locked = false ∧ Machine.inMemory.codes = [] ∧
      Run (Program.start .inMemory) ops p ∧ Countable .inMemory p ∧ Run p [.drop 1] p' ∧
      p.machine.CallsCode c ⟨f, .i32, [.i32], false⟩ ∧ p'.machine.CallsNothing c := by
  intro f pointer raw c ops
  let derived : UInt64 × Code := (0x1000, ⟨f, .i32, [.i32], false⟩)
  let s (codes : List (UInt64 × Code)) (next : UInt64) (identity requests : Nat) : Machine :=
    { Machine.inMemory with
      codes := codes
      nextAddress := next
      nextIdentity := identity
      requests := requests
      routines := fun identity => if identity = 0 then .null else .null }
  let owned : NativePointer := ⟨0x1000, some (.generated 0x1000)⟩
  let p₁ : Program := ⟨s [] 0x1000 1 0, [.value (.procedure f)], []⟩
  let p₂ : Program := ⟨s [derived] 0x1010 1 0, [.pointer owned, .value (.procedure f)], [derived]⟩
  let p₃ : Program := ⟨s [derived] 0x1010 4 1,
    [.value (.unified c), .pointer owned, .value (.procedure f)], [derived]⟩
  let p₄ : Program := ⟨s [] 0x1010 4 1, [.value (.unified c), .value (.procedure f)], [derived]⟩
  have hroutine : (Program.start .inMemory).Step (.routine "f" [] .null) p₁ :=
    .of_perform rfl (fun h hh => nomatch hh) rfl
  have hderive : p₁.Step (.derive .i32 f [.i32]) p₂ :=
    .of_perform rfl (fun h hh => .reached (.held hh)) rfl
  have hunify : p₂.Step (.unify .i32 (.native pointer) [.bare .i32]) p₃ := by
    refine .of_perform rfl (fun h hh => ?_) rfl
    obtain rfl := List.mem_singleton.mp hh
    exact .bare 0x1000
  have hdrop : p₃.Step (.drop 1) p₄ := .of_perform rfl (fun h hh => nomatch hh) rfl
  have hrun : Run (Program.start .inMemory) ops p₃ :=
    .cons hroutine (.cons hderive (.cons hunify .refl))
  have hlater : Run p₃ [.drop 1] p₄ := .cons hdrop .refl
  have hcount : Countable .inMemory p₃ := fun _ => by decide
  have hcount' : Countable .inMemory p₄ := fun _ => by decide
  have hentries : Entries .inMemory p₃ := Run.entries rfl rfl hrun hcount
  have hbare := hentries.bare rfl c derived.2 (.held List.mem_cons_self) rfl List.mem_cons_self rfl
  refine ⟨p₃, p₄, rfl, rfl, hrun, hcount, hlater, ?_, ?_⟩
  · obtain ⟨-, hcalls⟩ | ⟨hgone, -⟩ := (hbare [] p₃ .refl hcount).1
    · exact hcalls
    · exact absurd ⟨owned, .held (List.mem_cons_of_mem _ List.mem_cons_self), rfl⟩ hgone
  · obtain ⟨⟨q, hreach, hq⟩, -⟩ | ⟨-, hnothing⟩ := (hbare _ p₄ hlater hcount').1
    · obtain ⟨-, code, -, -, hcode, -⟩ :=
        (Run.entries rfl rfl (hrun.trans hlater) hcount').owned q 0x1000 hreach hq
      cases hcode
    · exact hnothing

end Program

end DualCall
