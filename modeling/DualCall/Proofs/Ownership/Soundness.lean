import DualCall.Proofs.Ownership.Operations
import Mathlib.Data.List.Perm.Basic

namespace DualCall

namespace Program

/-- What holds of a program at any time. -/
structure Sound (start : Machine) (p : Program) : Prop where
  balanced : Balanced p.machine.codes (heldBy p.handles)
  free : p.machine.locked = false
  backend : p.machine.backend = start.backend
  usable : ∀ h ∈ p.handles, h.Usable p.machine
  procedures : ∀ entry ∈ p.machine.codes,
    Handle.Usable p.machine (.value (.procedure entry.2.procedure))
  issued : ∀ entry ∈ p.machine.codes, p.issued? entry.1 = some entry.2
  registered : ∀ entry ∈ p.issued, entry.2.registered = true → entry ∈ p.machine.codes
  counted : start.backend = .inMemory →
    p.issued.map Prod.fst = (Machine.successive start.nextAddress p.issued.length).reverse ∧
    p.machine.nextAddress =
      start.nextAddress + UInt64.ofNat p.issued.length * Machine.addressStep

/-- An operation has issued codes: at most one, on top of those that are there, or else some of
    these may have gone. -/
structure Issues (p : Program) (new : List (UInt64 × Code)) (p' : Program) : Prop where
  issued : p'.issued = new ++ p.issued
  codes : ∀ entry ∈ p'.machine.codes, entry ∈ new ++ p.machine.codes
  insertion : new = [] ∨ (∃ address code, p.Places address ∧ new = [(address, code)]) ∧
    p'.machine.codes = new ++ p.machine.codes

/-- As long as there are words for addresses in memory. -/
def Countable (start : Machine) (p : Program) : Prop :=
  start.backend = .inMemory → p.issued.length < 2 ^ 60

theorem mem_of_issued? {p : Program} {address : UInt64} {code : Code}
    (hissued : p.issued? address = some code) : (address, code) ∈ p.issued :=
  Machine.mem_of_code? (s := { p.machine with codes := p.issued }) hissued

section

variable {p p' : Program} {h : Handle}

/-- What is reached stays reached while the codes stay and nothing is given up. -/
theorem Reaches.mono (hreach : p.Reaches h)
    (hcodes : p'.machine.codes = p.machine.codes) (hhandles : p.handles ⊆ p'.handles) :
    p'.Reaches h := by
  have hsame (address : UInt64) : p'.machine.code? address = p.machine.code? address := by
    rw [Machine.code?, hcodes, Machine.code?]
  induction hreach with
  | held hheld => exact .held (hhandles hheld)
  | registered hcode hregistered => exact .registered ((hsame _).trans hcode) hregistered
  | part _ hpart ih => exact ih.part hpart
  | generated _ howner hcode ih => exact .generated ih howner ((hsame _).trans hcode)

theorem Available.mono (havailable : p.Available h) (hcodes : p'.machine.codes = p.machine.codes)
    (hhandles : p.handles ⊆ p'.handles) : p'.Available h := by
  cases havailable with
  | reached hreach => exact .reached (hreach.mono hcodes hhandles)
  | data hdata => exact .data hdata
  | bare address => exact .bare address
  | foreign address => exact .foreign address
  | memory start => exact .memory start

theorem keeping_of_none (p : Program) {op : Operation} (htakes : op.place? = none) :
    p.keeping op = p := by
  rw [keeping, htakes]

/-- What is available while an operation is performed is available before. -/
theorem Available.of_keeping {op : Operation} (havailable : (p.keeping op).Available h) :
    p.Available h := by
  unfold keeping at havailable
  split at havailable
  · exact havailable.mono rfl List.eraseIdx_subset
  · exact havailable

end

namespace Sound

variable {start : Machine} {p p' : Program}

theorem usable_of_reaches (hp : Sound start p) {h : Handle} (hreach : p.Reaches h) :
    h.Usable p.machine := by
  induction hreach with
  | held hheld => exact hp.usable _ hheld
  | registered hcode | generated _ _ hcode => exact hp.procedures _ (Machine.mem_of_code? hcode)
  | part _ hpart ih => exact ih.part hpart

theorem usable_of_available (hp : Sound start p) {h : Handle} (havailable : p.Available h) :
    h.Usable p.machine := by
  cases havailable with
  | reached hreach => exact hp.usable_of_reaches hreach
  | data hdata => exact .data hdata
  | bare | foreign => exact .pointer fun a ha => nomatch ha
  | memory start => exact .memory start

theorem mem_issued (hp : Sound start p) {entry : UInt64 × Code} (hentry : entry ∈ p.machine.codes) :
    entry ∈ p.issued :=
  mem_of_issued? (hp.issued entry hentry)

/-- In memory the next address was never handed out, as long as not all words are used up. -/
theorem fresh (hp : Sound start p) (hmemory : start.backend = .inMemory)
    (hcount : p.issued.length < 2 ^ 60) : p.machine.nextAddress ∉ p.issued.map Prod.fst := by
  obtain ⟨haddresses, hnext⟩ := hp.counted hmemory
  have hnodup := Machine.nodup_successive start.nextAddress (Nat.succ_le_of_lt hcount)
  rw [Machine.successive_add_one, ← hnext] at hnodup
  rw [haddresses, List.mem_reverse]
  exact fun hmem => List.disjoint_of_nodup_append hnodup hmem List.mem_cons_self

/-- New code never takes the place of code that is there. -/
theorem fresh_codes (hp : Sound start p) (hcount : Countable start p) {address : UInt64}
    (hplace : p.Places address) : address ∉ p.machine.codes.map Prod.fst := by
  unfold Places at hplace
  cases hbackend : p.machine.backend with
  | native => simpa only [hbackend] using hplace
  | inMemory =>
    have hnext : address = p.machine.nextAddress := by simpa only [hbackend] using hplace
    have hmemory : start.backend = .inMemory := hp.backend.symm.trans hbackend
    rw [hnext]
    intro hmem
    obtain ⟨entry, hentry, heq⟩ := List.mem_map.mp hmem
    exact hp.fresh hmemory (hcount hmemory) (List.mem_map.mpr ⟨entry, hp.mem_issued hentry, heq⟩)

theorem fresh_next (hp : Sound start p) (hmemory : start.backend = .inMemory)
    (hcount : p.issued.length < 2 ^ 60) : p.machine.nextAddress ∉ p.machine.codes.map Prod.fst :=
  hp.fresh_codes (fun _ => hcount) (by simp [Places, hp.backend.trans hmemory])

theorem placing (hp : Sound start p) {address : UInt64} (hplace : p.Places address) :
    Sound start (p.placing address) where
  balanced := hp.balanced
  free := hp.free
  backend := hp.backend
  usable h hh := (hp.usable h hh).of_code_eq fun a ha => ⟨(hp.usable h hh).generated a ha, rfl⟩
  procedures entry hentry :=
    (hp.procedures entry hentry).of_code_eq fun a ha =>
      ⟨(hp.procedures entry hentry).generated a ha, rfl⟩
  issued := hp.issued
  registered := hp.registered
  counted hmemory := by
    have hnext : address = p.machine.nextAddress := by
      simpa only [Places, hp.backend.trans hmemory] using hplace
    rw [hnext]
    exact hp.counted hmemory

end Sound

/-- The program after an operation that left it with a machine and handles. -/
def after (p : Program) (handles : List Handle) (machine : Machine) : Program :=
  ⟨machine, handles, machine.codes.take (machine.codes.length - p.machine.codes.length) ++ p.issued⟩

theorem perform_eq (p : Program) (op : Operation) :
    p.perform op = ((op.act p.handles).run p.machine).map fun result =>
      p.after result.1 result.2 := by
  unfold perform
  cases (op.act p.handles).run p.machine <;> rfl

theorem after_self (p : Program) : p.after p.handles p.machine = p := by
  simp [after]

theorem after_of_append {p : Program} {handles : List Handle} {machine : Machine}
    {new : List (UInt64 × Code)} (hcodes : machine.codes = new ++ p.machine.codes) :
    p.after handles machine = ⟨machine, handles, new ++ p.issued⟩ := by
  simp [after, hcodes]

theorem after_of_length_le {p : Program} {handles : List Handle} {machine : Machine}
    (hlength : machine.codes.length ≤ p.machine.codes.length) :
    p.after handles machine = ⟨machine, handles, p.issued⟩ := by
  simp [after, Nat.sub_eq_zero_of_le hlength]

/-- A call leaves a program as it is. -/
theorem perform_call (p : Program) (depth : Nat) (q : Procedure) (args : List Value)
    (before : Activity) :
    p.perform (.call depth q args before) =
      ((p.machine.call depth q args).run before).map fun _ => p := by
  rw [perform_eq, Operation.act_call]
  cases (p.machine.call depth q args).run before with
  | error cause => rfl
  | ok result => exact congrArg Except.ok p.after_self

theorem perform_drop_of_none {p : Program} {place : Nat} (hplace : p.handles[place]? = none) :
    p.perform (.drop place) = .ok p := by
  rw [perform_eq, Operation.act_drop_of_none hplace]
  exact congrArg Except.ok p.after_self

section

variable {p : Program} {ret : NativeType} {place : Nat} {specs : List ArgSpec} {s' : Machine}

theorem perform_unifyTaken_of_none (hplace : p.handles[place]?.bind Handle.asBehavior? = none) :
    p.perform (.unifyTaken ret place specs) = .ok p := by
  rw [perform_eq, Operation.act_unifyTaken_of_none hplace]
  exact congrArg Except.ok p.after_self

/-- What is handed over is unified, or it is no behavior and the program stays as it is. -/
theorem perform_unifyTaken_cases (hfree : p.machine.locked = false) (ret : NativeType) (place : Nat)
    (specs : List ArgSpec) :
    p.perform (.unifyTaken ret place specs) = .ok p ∨
      ∃ behavior result s', p.handles[place]? = some behavior.handle ∧
        (Machine.unify ret behavior specs).run p.machine = .ok (result, s') ∧
        p.machine.Unified ret specs behavior result s' := by
  cases htaken : p.handles[place]?.bind Handle.asBehavior? with
  | none => exact .inl (perform_unifyTaken_of_none htaken)
  | some behavior =>
    obtain ⟨h, hplace, hbehavior⟩ := Option.bind_eq_some_iff.mp htaken
    obtain rfl := Handle.eq_of_asBehavior? hbehavior
    obtain ⟨result, s', hunify, hunified⟩ := Machine.run_unify hfree ret behavior specs
    exact .inr ⟨behavior, result, s', hplace, hunify, hunified⟩

variable {behavior : Behavior} (hplace : p.handles[place]? = some behavior.handle)
include hplace

theorem perform_unifyTaken_of_ok {c : Callable}
    (hunify : (Machine.unify ret behavior specs).run p.machine = .ok (.ok c, s')) :
    p.perform (.unifyTaken ret place specs) =
      .ok (p.after (.value (.unified c) :: p.handles.eraseIdx place) s') := by
  rw [perform_eq, Operation.act_unifyTaken_of_ok hplace hunify]
  rfl

/-- A behavior that was handed over in vain is dropped. -/
theorem perform_unifyTaken_of_error {e : CallError}
    (hunify : (Machine.unify ret behavior specs).run p.machine = .ok (.error e, s'))
    (hcodes : s'.codes = p.machine.codes) :
    p.perform (.unifyTaken ret place specs) = { p with machine := s' }.perform (.drop place) := by
  rw [perform_eq, perform_eq, Operation.act_unifyTaken_of_error hplace hunify]
  simp only [after, hcodes]

end

theorem mem_iff_of_getElem? {handles : List Handle} {place : Nat} {h : Handle}
    (hplace : handles[place]? = some h) (h' : Handle) :
    h' ∈ handles ↔ h' = h ∨ h' ∈ handles.eraseIdx place := by
  obtain ⟨hlt, rfl⟩ := List.getElem?_eq_some_iff.mp hplace
  have hperm := List.getElem_cons_eraseIdx_perm hlt
  rw [← hperm.mem_iff, List.mem_cons]

namespace Issues

variable {p p' : Program} {new : List (UInt64 × Code)} {handles : List Handle} {s' : Machine}

theorem of_grows (hfresh : p.machine.nextAddress ∉ p.machine.codes.map Prod.fst)
    (hgrows : p.machine.Grows new s') : p.Issues new ⟨s', handles, new ++ p.issued⟩ where
  issued := rfl
  codes entry hentry := hgrows.codes ▸ hentry
  insertion := by
    refine hgrows.counter.imp And.left fun ⟨code, hnew, _⟩ => ⟨⟨_, code, ?_, hnew⟩, hgrows.codes⟩
    unfold Places
    split
    · rfl
    · exact hfresh

theorem of_shrinks (hshrinks : p.machine.Shrinks s') : p.Issues [] ⟨s', handles, p.issued⟩ where
  issued := rfl
  codes entry hentry := by
    obtain ⟨keep, -, rfl⟩ := hshrinks
    exact List.mem_of_mem_filter hentry
  insertion := .inl rfl

theorem of_placing {address : UInt64} (hplace : p.Places address)
    (hissues : (p.placing address).Issues new p') : p.Issues new p' where
  issued := hissues.issued
  codes := hissues.codes
  insertion := by
    refine hissues.insertion.imp_right fun ⟨⟨a, code, ha, hnew⟩, hcodes⟩ =>
      ⟨⟨a, code, ?_, hnew⟩, hcodes⟩
    unfold Places at hplace ha ⊢
    cases hbackend : p.machine.backend with
    | native => simpa only [placing, hbackend] using ha
    | inMemory =>
      simp only [placing, hbackend] at hplace ha ⊢
      exact ha.trans hplace

end Issues

namespace Sound

variable {start : Machine} {p p' : Program}

theorem extend (hp : Sound start p) (hfresh : p.machine.nextAddress ∉ p.machine.codes.map Prod.fst)
    {received : List Handle} {new : List (UInt64 × Code)} {s' : Machine}
    (hextends : p.machine.Extends received new s') :
    Sound start ⟨s', received ++ p.handles, new ++ p.issued⟩ := by
  have hkeep {h : Handle} : h.Usable p.machine → h.Usable s' :=
    hextends.toGrows.usable hp.balanced.nodup hfresh
  have hmem {entry : UInt64 × Code} :
      entry ∈ s'.codes ↔ entry ∈ new ∨ entry ∈ p.machine.codes := by
    rw [hextends.codes, List.mem_append]
  exact {
    balanced := by
      have hreceived (a : UInt64) (ha : a ∈ heldBy received) : Generated s'.codes a := by
        obtain ⟨h, hh, howned⟩ := mem_heldBy.mp ha
        exact (hextends.usable h hh).generated a howned
      have hheld : heldBy (received ++ p.handles) = heldBy received ++ heldBy p.handles :=
        List.flatMap_append
      dsimp only
      rw [hheld]
      rw [hextends.codes] at hreceived ⊢
      obtain ⟨rfl, -⟩ | ⟨code, rfl, -⟩ := hextends.counter
      · exact hp.balanced.extend_held hreceived
      · exact hp.balanced.extend hfresh (hextends.procedures _ List.mem_cons_self).generated
          (hextends.owned _ List.mem_cons_self) hreceived
    free := hextends.locked.trans hp.free
    backend := hextends.backend.trans hp.backend
    usable := fun h hh =>
      (List.mem_append.mp hh).elim (hextends.usable h) fun hh => hkeep (hp.usable h hh)
    procedures := fun entry hentry =>
      hkeep ((hmem.mp hentry).elim (hextends.procedures entry) (hp.procedures entry))
    issued := fun entry hentry => by
      obtain ⟨rfl, -⟩ | ⟨code, rfl, -⟩ := hextends.counter
      · exact hp.issued entry ((hmem.mp hentry).resolve_left List.not_mem_nil)
      · obtain hnew | hold := hmem.mp hentry
        · obtain rfl := List.mem_singleton.mp hnew
          simp [issued?]
        · have hne : p.machine.nextAddress ≠ entry.1 := fun heq =>
            hfresh (heq ▸ List.mem_map_of_mem hold)
          simpa [issued?, hne] using hp.issued entry hold
    registered := fun entry hentry hregistered =>
      hmem.mpr ((List.mem_append.mp hentry).imp_right fun h => hp.registered entry h hregistered)
    counted := fun hmemory => by
      obtain ⟨haddresses, hnext⟩ := hp.counted hmemory
      obtain ⟨rfl, hsame⟩ | ⟨code, rfl, hafter⟩ := hextends.counter
      · exact ⟨haddresses, hsame.trans hnext⟩
      · refine ⟨by simp [Machine.successive_add_one, haddresses, hnext], ?_⟩
        dsimp only
        rw [hafter, hnext]
        simp [UInt64.ofNat_add, UInt64.add_mul, UInt64.add_assoc] }

theorem shrink (hp : Sound start p) {handles : List Handle} {s' : Machine}
    (hhandles : ∀ h ∈ handles, h ∈ p.handles) (hbalanced : Balanced s'.codes (heldBy handles))
    (hshrinks : p.machine.Shrinks s') : Sound start ⟨s', handles, p.issued⟩ := by
  obtain ⟨keep, hkeep, rfl⟩ := hshrinks
  have hsame (a : UInt64) (ha : Generated (p.machine.codes.filter keep) a) :
      { p.machine with codes := p.machine.codes.filter keep }.code? a = p.machine.code? a := by
    obtain ⟨code, hmem, -⟩ := ha
    rw [Machine.code?_of_mem hbalanced.nodup hmem,
      Machine.code?_of_mem hp.balanced.nodup (List.mem_of_mem_filter hmem)]
  exact {
    balanced := hbalanced
    free := hp.free
    backend := hp.backend
    usable := fun h hh => (hp.usable h (hhandles h hh)).of_code_eq fun a ha =>
      have hgenerated := hbalanced.generated a (mem_heldBy.mpr ⟨h, hh, ha⟩)
      ⟨hgenerated, hsame a hgenerated⟩
    procedures := fun entry hentry =>
      (hp.procedures entry (List.mem_of_mem_filter hentry)).of_code_eq fun a ha =>
        have hgenerated := hbalanced.layered.generated ⟨entry, hentry, ha⟩
        ⟨hgenerated, hsame a hgenerated⟩
    issued := fun entry hentry => hp.issued entry (List.mem_of_mem_filter hentry)
    registered := fun entry hentry hregistered =>
      have hmem := hp.registered entry hentry hregistered
      List.mem_filter.mpr ⟨hmem, hkeep entry hmem hregistered⟩
    counted := hp.counted }

/-- What a handle owns, apart from what the others do. -/
theorem balanced_eraseIdx (hp : Sound start p) {place : Nat} {h : Handle}
    (hplace : p.handles[place]? = some h) :
    Balanced p.machine.codes (heldBy (p.handles.eraseIdx place) ++ h.owned) := by
  refine hp.balanced.of_mem_iff fun a => ?_
  simp [mem_heldBy, mem_iff_of_getElem? hplace, or_and_right, exists_or, or_comm]

theorem releases (hp : Sound start p) {place : Nat} {h : Handle}
    (hplace : p.handles[place]? = some h) :
    p.machine.Releases (heldBy (p.handles.eraseIdx place))
      (Machine.release (heldBy (p.handles.eraseIdx place)) h.owned) :=
  Machine.release_releases (hp.balanced_eraseIdx hplace)

/-- Every operation that makes something comes to its end. -/
theorem perform_makes (hp : Sound start p)
    (hfresh : p.machine.nextAddress ∉ p.machine.codes.map Prod.fst) {op : Operation}
    (hmakes : op.makes = true) (hinputs : ∀ h ∈ op.inputs, h.Usable p.machine) :
    ∃ received new s', p.perform op = .ok ⟨s', received ++ p.handles, new ++ p.issued⟩ ∧
      p.machine.Extends received new s' ∧
      new.countP (fun entry => entry.2.registered) = if op.isRegister then 1 else 0 := by
  obtain ⟨received, new, s', hrun, hextends, hnew⟩ :=
    Operation.act_extends hmakes hp.free hp.balanced.nodup hfresh hinputs p.handles
  refine ⟨received, new, s', ?_, hextends, hnew⟩
  rw [perform_eq, hrun]
  exact congrArg Except.ok (after_of_append hextends.codes)

/-- What is registered is handed out as a bare address. -/
theorem perform_register (hp : Sound start p) (q : Procedure) :
    ∃ s', p.perform (.register q) = .ok ⟨s', .pointer ⟨p.machine.nextAddress, none⟩ :: p.handles,
      (p.machine.nextAddress, ⟨q, .void, [], true⟩) :: p.issued⟩ := by
  obtain ⟨s', hrun, hgrows⟩ := Machine.run_register hp.free q
  refine ⟨s', ?_⟩
  rw [perform_eq, Operation.act, run_bind_of_ok hrun]
  exact congrArg Except.ok (after_of_append hgrows.codes)

/-- Code that is derived for a procedure is handed out as a pointer that owns it. -/
theorem perform_derive (hp : Sound start p) (ret : NativeType) (q : Procedure)
    (types : List NativeType) :
    p.machine.backend = .native ∧ p.perform (.derive ret q types) = .ok p ∨
    ∃ s', p.perform (.derive ret q types) = .ok ⟨s',
      .pointer ⟨p.machine.nextAddress, some (.generated p.machine.nextAddress)⟩ :: p.handles,
      (p.machine.nextAddress, ⟨q, ret, types, false⟩) :: p.issued⟩ := by
  obtain ⟨hnative, e, hrun⟩ | ⟨s', hrun, hgrows⟩ := Machine.run_derive hp.free ret q types
  · refine .inl ⟨hnative, ?_⟩
    rw [perform_eq, Operation.act, run_bind_of_ok hrun]
    exact congrArg Except.ok p.after_self
  · refine .inr ⟨s', ?_⟩
    rw [perform_eq, Operation.act, run_bind_of_ok hrun]
    exact congrArg Except.ok (after_of_append hgrows.codes)

/-- When a procedure is unified, new code is derived for it, and the callable has both. -/
theorem perform_unify_procedure (hp : Sound start p) (ret : NativeType) (q : Procedure)
    (specs : List ArgSpec) :
    (∃ s', p.perform (.unify ret (.procedure q) specs) = .ok ⟨s', p.handles, p.issued⟩) ∨
    ∃ s' c, p.perform (.unify ret (.procedure q) specs) =
      .ok ⟨s', .value (.unified c) :: p.handles,
        (p.machine.nextAddress, ⟨q, c.ret, c.types, false⟩) :: p.issued⟩ ∧
      c.origin = .managed ∧ c.procedure = q ∧
      c.pointer = ⟨p.machine.nextAddress, some (.generated p.machine.nextAddress)⟩ := by
  obtain ⟨result, s', hrun, hunified⟩ := Machine.run_unify hp.free ret (.procedure q) specs
  have hperform : p.perform (.unify ret (.procedure q) specs) =
      .ok (p.after (Operation.receive (.value ∘ .unified) p.handles result) s') := by
    rw [perform_eq, Operation.act, run_bind_of_ok hrun]
    rfl
  rw [hperform]
  cases hunified with
  | failed hgrows => exact .inl ⟨s', congrArg Except.ok (after_of_append hgrows.codes)⟩
  | managed _ horigin hpointer _ hgrows =>
    exact .inr ⟨s', _, congrArg Except.ok (after_of_append hgrows.codes), horigin, rfl, hpointer⟩

/-- Giving up a handle leaves the code that is owned then, or waits for the registry that it has
    locked itself. -/
theorem perform_drop (hp : Sound start p) {place : Nat} {h : Handle}
    (hplace : p.handles[place]? = some h) :
    (∃ s', p.perform (.drop place) = .ok ⟨s', p.handles.eraseIdx place, p.issued⟩ ∧
      Balanced s'.codes (heldBy (p.handles.eraseIdx place)) ∧ p.machine.Shrinks s') ∨
    p.machine.backend = .inMemory ∧ p.perform (.drop place) = .error .deadlock := by
  rw [perform_eq, Operation.act_drop hplace]
  refine (hp.releases hplace).imp ?_ ?_
  · rintro ⟨s', hrun, hbalanced, hshrinks⟩
    refine ⟨s', ?_, hbalanced, hshrinks⟩
    rw [hrun]
    exact congrArg Except.ok (after_of_length_le hshrinks.length_le)
  · rintro ⟨hmemory, hrun⟩
    exact ⟨hmemory, by rw [hrun]; rfl⟩

/-- What is left when a handle was given up. -/
theorem of_drop (hp : Sound start p) {place : Nat} (hperform : p.perform (.drop place) = .ok p') :
    Sound start p' ∧ p.Issues [] p' := by
  cases hplace : p.handles[place]? with
  | none =>
    cases hperform.symm.trans (perform_drop_of_none hplace)
    exact ⟨hp, .of_shrinks (.refl _)⟩
  | some h =>
    obtain ⟨s', hrun, hbalanced, hshrinks⟩ | ⟨-, hrun⟩ := hp.perform_drop hplace
    · cases hperform.symm.trans hrun
      have hhandles (h' : Handle) (hh : h' ∈ p.handles.eraseIdx place) : h' ∈ p.handles :=
        List.mem_of_mem_eraseIdx hh
      exact ⟨hp.shrink hhandles hbalanced hshrinks, .of_shrinks hshrinks⟩
    · cases hperform.symm.trans hrun

/-- A handle can be forgotten when another one owns all that it owns. -/
theorem forget (hp : Sound start p) {place : Nat} {h : Handle} (hplace : p.handles[place]? = some h)
    (howned : ∀ a ∈ h.owned, a ∈ heldBy (p.handles.eraseIdx place)) :
    Sound start (p.without place) := by
  refine hp.shrink (fun h' hh => List.mem_of_mem_eraseIdx hh) ?_ (.refl _)
  refine (hp.balanced_eraseIdx hplace).of_mem_iff fun a => ?_
  rw [List.mem_append]
  exact ⟨.inl, fun ha => ha.elim id (howned a)⟩

/-- What is left when a behavior was handed over: the callable has it, or it was given up. -/
theorem of_unifyTaken (hp : Sound start p)
    (hfresh : p.machine.nextAddress ∉ p.machine.codes.map Prod.fst) {ret : NativeType} {place : Nat}
    {specs : List ArgSpec}
    (hspecs : ∀ v ∈ specs.filterMap ArgSpec.default?, Handle.Usable p.machine (.value v))
    (hperform : p.perform (.unifyTaken ret place specs) = .ok p') :
    Sound start p' ∧ ∃ new, p.Issues new p' ∧
      new.countP (fun entry => entry.2.registered) = 0 := by
  obtain hperform' | ⟨behavior, result, s', hplace, hunify, hunified⟩ :=
    perform_unifyTaken_cases hp.free ret place specs
  · cases hperform.symm.trans hperform'
    exact ⟨hp, [], .of_shrinks (.refl _), rfl⟩
  have husable := hp.usable _ (List.mem_of_getElem? hplace)
  obtain ⟨new, hextends, hnone⟩ := hunified.extends hp.balanced.nodup hfresh husable hspecs
  have hcount : new.countP (fun entry => entry.2.registered) = 0 :=
    List.countP_eq_zero.mpr (by simpa using hnone)
  have hsound := hp.extend hfresh hextends
  cases result with
  | ok c =>
    rw [perform_unifyTaken_of_ok hplace hunify, after_of_append hextends.codes] at hperform
    cases hperform
    have hlater : (.value (.unified c) :: p.handles)[place + 1]? = some behavior.handle := hplace
    have hforgotten := hsound.forget hlater fun a ha =>
      mem_heldBy.mpr ⟨_, List.mem_cons_self, hunified.owned ha⟩
    exact ⟨hforgotten, new, .of_grows hfresh hextends.toGrows, hcount⟩
  | error e =>
    obtain ⟨hgrows⟩ := hunified
    rw [perform_unifyTaken_of_error hplace hunify hgrows.codes] at hperform
    obtain ⟨hp', hissues⟩ := (hp.extend hfresh (.of_grows hgrows)).of_drop hperform
    have hcodes := hissues.codes
    rw [hgrows.codes] at hcodes
    exact ⟨hp', [], ⟨hissues.issued, hcodes, .inl rfl⟩, rfl⟩

/-- One operation keeps a program sound and issues at most one code. -/
theorem step (hp : Sound start p) (hcount : Countable start p) {op : Operation}
    (hstep : p.Step op p') :
    Sound start p' ∧ ∃ new, p.Issues new p' ∧
      new.countP (fun entry => entry.2.registered) = if op.isRegister then 1 else 0 := by
  obtain ⟨hinputs, address, hplace, hperform⟩ := hstep
  have hfresh := hp.fresh_codes hcount hplace
  have hq := hp.placing hplace
  have husable (h : Handle) (hh : h ∈ op.inputs) : h.Usable (p.placing address).machine :=
    have husable := hp.usable_of_available (hinputs h hh).of_keeping
    husable.of_code_eq fun a ha => ⟨husable.generated a ha, rfl⟩
  by_cases hmakes : op.makes = true
  · obtain ⟨received, new, s', hrun, hextends, hnew⟩ := hq.perform_makes hfresh hmakes husable
    cases hperform.symm.trans hrun
    have hissues : (p.placing address).Issues new ⟨s', received ++ p.handles, new ++ p.issued⟩ :=
      .of_grows hfresh hextends.toGrows
    exact ⟨hq.extend hfresh hextends, new, hissues.of_placing hplace, hnew⟩
  · cases op with
    | call depth q args before =>
      rw [perform_call] at hperform
      cases hcall : ((p.placing address).machine.call depth q args).run before with
      | error cause =>
        rw [hcall] at hperform
        cases hperform
      | ok result =>
        rw [hcall] at hperform
        cases hperform
        exact ⟨hq, [], ⟨rfl, fun _ hentry => hentry, .inl rfl⟩, rfl⟩
    | unifyTaken ret place specs =>
      obtain ⟨hp', new, hissues, hnew⟩ := hq.of_unifyTaken hfresh
        (fun v hv => husable _ (List.mem_map_of_mem hv)) hperform
      exact ⟨hp', new, hissues.of_placing hplace, hnew⟩
    | drop place =>
      obtain ⟨hp', hissues⟩ := hq.of_drop hperform
      exact ⟨hp', [], hissues.of_placing hplace, rfl⟩
    | _ => exact absurd rfl hmakes

theorem ofStart {start : Machine} (hfree : start.locked = false) (hcodes : start.codes = []) :
    Sound start (Program.start start) where
  balanced := by
    have hempty : Balanced [] [] := ⟨List.nodup_nil, trivial, (fun _ ha => nomatch ha),
      fun _ ⟨_, hmem, _⟩ => nomatch hmem⟩
    simpa [Program.start, hcodes, heldBy] using hempty
  free := hfree
  backend := rfl
  usable _ hh := nomatch hh
  procedures entry hentry := by simp [Program.start, hcodes] at hentry
  issued entry hentry := by simp [Program.start, hcodes] at hentry
  registered _ hentry := nomatch hentry
  counted _ := ⟨rfl, by simp [Program.start]⟩

end Sound

theorem Step.issued_suffix {p p' : Program} {op : Operation} (hstep : p.Step op p') :
    p.issued <:+ p'.issued := by
  obtain ⟨-, address, -, hperform⟩ := hstep
  rw [perform_eq] at hperform
  cases hact : (op.act (p.placing address).handles).run (p.placing address).machine with
  | error cause =>
    rw [hact] at hperform
    cases hperform
  | ok result =>
    rw [hact] at hperform
    cases hperform
    exact List.suffix_append _ _

theorem Run.issued_suffix {p p' : Program} {ops : List Operation} (hrun : Run p ops p') :
    p.issued <:+ p'.issued := by
  induction hrun with
  | refl => exact List.suffix_refl _
  | step _ hstep ih => exact ih.trans hstep.issued_suffix

theorem Run.trans {start p p' : Program} {ops later : List Operation} (hrun : Run start ops p)
    (hlater : Run p later p') : Run start (ops ++ later) p' := by
  induction hlater with
  | refl => simpa using hrun
  | step _ hstep ih => simpa using ih.step hstep

/-- A program stays sound as long as there are words for addresses, and the codes that stay for ever
    are as many as were registered. -/
theorem Run.sound {start : Machine} (hfree : start.locked = false) (hcodes : start.codes = [])
    {ops : List Operation} {p : Program} (hrun : Run (Program.start start) ops p)
    (hcount : Countable start p) :
    Sound start p ∧
      p.issued.countP (fun entry => entry.2.registered) = ops.countP Operation.isRegister := by
  induction hrun with
  | refl => exact ⟨.ofStart hfree hcodes, rfl⟩
  | step hrun hstep ih =>
    have hbefore : Countable start _ := fun hmemory =>
      Nat.lt_of_le_of_lt hstep.issued_suffix.length_le (hcount hmemory)
    obtain ⟨hp, hregistered⟩ := ih hbefore
    obtain ⟨hp', new, hissues, hnew⟩ := hp.step hbefore hstep
    refine ⟨hp', ?_⟩
    rw [hissues.issued, List.countP_append, hnew, hregistered, List.countP_append,
      List.countP_singleton, Nat.add_comm]

/-- In memory the address of new code is determined. -/
theorem Step.of_perform {p p' : Program} (hmemory : p.machine.backend = .inMemory) {op : Operation}
    (hinputs : ∀ h ∈ op.inputs, (p.keeping op).Available h) (hperform : p.perform op = .ok p') :
    p.Step op p' :=
  ⟨hinputs, p.machine.nextAddress, by simp [Places, hmemory], hperform⟩

theorem Run.cons {p p₁ p₂ : Program} {op : Operation} {ops : List Operation} (hstep : p.Step op p₁)
    (hrun : Run p₁ ops p₂) : Run p (op :: ops) p₂ :=
  (Run.step .refl hstep).trans hrun

end Program

end DualCall
