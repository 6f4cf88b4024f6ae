import DualCall.Proofs.Ownership.Blocking

namespace DualCall

namespace Program

variable {p p' : Program}

/-- Some operations lead from a program to another one. -/
def Leads (p p' : Program) : Prop :=
  ∃ ops, Run p ops p'

namespace Leads

theorem refl (p : Program) : p.Leads p := ⟨[], .refl⟩

theorem trans {p₁ p₂ p₃ : Program} (h : p₁.Leads p₂) (h' : p₂.Leads p₃) : p₁.Leads p₃ := by
  obtain ⟨ops, hrun⟩ := h
  obtain ⟨later, hlater⟩ := h'
  exact ⟨ops ++ later, hrun.trans hlater⟩

theorem of_step {op : Operation} (hstep : p.Step op p') : p.Leads p' :=
  ⟨[op], .cons hstep .refl⟩

theorem sound {start : Machine} (h : p.Leads p') (hp : Sound start p)
    (hcount : Countable start p') : Sound start p' := by
  obtain ⟨ops, hrun⟩ := h
  induction hrun with
  | refl => exact hp
  | step hrun hstep ih =>
    have hbefore : Countable start _ := fun hmemory =>
      Nat.lt_of_le_of_lt hstep.issued_suffix.length_le (hcount hmemory)
    exact ((ih hbefore).step hbefore hstep).1

end Leads

theorem Issues.length_le {new : List (UInt64 × Code)} (hissues : p.Issues new p') :
    p'.issued.length ≤ p.issued.length + 1 := by
  rw [hissues.issued, List.length_append, Nat.add_comm]
  obtain rfl | ⟨⟨address, code, -, rfl⟩, -⟩ := hissues.insertion
  · exact Nat.le_succ _
  · exact Nat.le_refl _

namespace Available

variable {h h' : Handle}

theorem of_owner_none {q : NativePointer} (hnone : q.owner = none) : p.Available (.pointer q) := by
  obtain ⟨address, owner⟩ := q
  obtain rfl : owner = none := hnone
  exact .bare address

/-- The parts of what is available are. -/
theorem part (havailable : p.Available h) (hpart : h.Part h') : p.Available h' := by
  cases havailable with
  | reached hreach => exact .reached (hreach.part hpart)
  | data hdata => cases hpart <;> cases hdata
  | bare | foreign | memory => cases hpart

theorem procedure {q : Procedure} (havailable : p.Available h) (hq : h.procedure? = some q) :
    p.Available (.value (.procedure q)) := by
  cases h with
  | pointer | memory => cases hq
  | value v =>
    cases v with
    | procedure =>
      cases hq
      exact havailable
    | unified c =>
      cases hq
      exact havailable.part (.procedure c)
    | null | bool | int | float | pointer => cases hq

theorem pointer {q : NativePointer} (havailable : p.Available h) (hq : h.pointer? = some q) :
    p.Available (.pointer q) := by
  cases h with
  | memory => cases hq
  | pointer =>
    cases hq
    exact havailable
  | value v =>
    cases v with
    | unified c =>
      cases hq
      exact havailable.part (.pointer c)
    | null | bool | int | float | pointer | procedure => cases hq

theorem behavior {behavior : Behavior} (havailable : p.Available h)
    (hbehavior : h.behavior? = some behavior) : p.Available behavior.handle := by
  cases h with
  | memory => cases hbehavior
  | pointer =>
    cases hbehavior
    exact havailable
  | value v =>
    obtain ⟨q, hq, rfl⟩ := Option.map_eq_some_iff.mp hbehavior
    exact havailable.procedure hq

end Available

/-- A new routine is held by the program, and nothing else happens. -/
theorem perform_routine (p : Program) (name : String) (captured : List Value) (body : Routine) :
    p.perform (.routine name captured body) = .ok
      { p with
        machine := { p.machine with
          nextIdentity := p.machine.nextIdentity + 1
          routines := fun identity =>
            if identity = p.machine.nextIdentity then body else p.machine.routines identity }
        handles :=
          .value (.procedure ⟨p.machine.nextIdentity, name, .routine captured⟩) :: p.handles } := by
  rw [perform_eq]
  exact congrArg Except.ok (after_of_length_le (Nat.le_refl _))

theorem perform_copy (p : Program) (handle : Handle) :
    p.perform (.copy handle) = .ok { p with handles := handle :: p.handles } := by
  rw [perform_eq]
  exact congrArg Except.ok (after_of_length_le (Nat.le_refl _))

/-- A handle is dropped that is not the last one to own any code. -/
theorem leads_drop_of_kept (hmemory : p.machine.backend = .inMemory) {place : Nat} {h : Handle}
    (hplace : p.handles[place]? = some h) (hkept : ∀ a ∈ h.owned,
      a ∈ heldBy (p.handles.eraseIdx place) ∨ HeldByCode p.machine.codes a) :
    p.Leads { p with handles := p.handles.eraseIdx place } := by
  have hrun : (Machine.release (heldBy (p.handles.eraseIdx place)) h.owned).run p.machine =
      .ok ((), p.machine) := Machine.run_releaseUpTo_of_all_kept hkept
  have hperform : p.perform (.drop place) =
      .ok { p with handles := p.handles.eraseIdx place } := by
    rw [perform_eq, Operation.act_drop hplace, hrun]
    exact congrArg Except.ok (after_of_length_le (Nat.le_refl _))
  have hstep : p.Step (.drop place) { p with handles := p.handles.eraseIdx place } :=
    .of_perform hmemory (fun h hh => nomatch hh) hperform
  exact .of_step hstep

/-- Handles that own nothing can be dropped without anything else happening. -/
theorem leads_drop_free {machine : Machine} (hmemory : machine.backend = .inMemory)
    (front made rest : List Handle) (issued : List (UInt64 × Code))
    (hfree : ∀ h ∈ made, h.owned = []) :
    Leads ⟨machine, front ++ (made ++ rest), issued⟩ ⟨machine, front ++ rest, issued⟩ := by
  induction made with
  | nil => exact .refl _
  | cons h made ih =>
    obtain ⟨hnone, hmade⟩ := List.forall_mem_cons.mp hfree
    refine .trans ?_ (ih hmade)
    have hplace : (front ++ (h :: made ++ rest))[front.length]? = some h := by simp
    have hdrop := leads_drop_of_kept (p := ⟨machine, front ++ (h :: made ++ rest), issued⟩) hmemory
      hplace (by simp [hnone])
    simpa [List.eraseIdx_append_of_length_le] using hdrop

/-- A procedure is registered, and the handle to the procedure itself is dropped: its code holds
    what it owns. -/
theorem Sound.leads_register (hp : Sound .inMemory p) {q : Procedure} {rest : List Handle}
    (hhandles : p.handles = .value (.procedure q) :: rest) {pointer : NativePointer}
    {machine : Machine} (hrun : (Machine.register q).run p.machine = .ok (pointer, machine)) :
    ∃ entry, p.Leads ⟨machine, .pointer pointer :: rest, entry :: p.issued⟩ := by
  obtain ⟨machine', hregister, hgrows⟩ := Machine.run_register hp.free q
  cases hregister.symm.trans hrun
  let entry : UInt64 × Code := (p.machine.nextAddress, ⟨q, .void, [], true⟩)
  let p₁ : Program := ⟨machine, .pointer ⟨p.machine.nextAddress, none⟩ :: p.handles,
    entry :: p.issued⟩
  have hstep : p.Step (.register q) p₁ := by
    refine .of_perform hp.backend (fun h hh => .reached (.held ?_)) ?_
    · obtain rfl := List.mem_singleton.mp hh
      exact hhandles ▸ List.mem_cons_self
    · rw [perform_eq, Operation.act, run_bind_of_ok hrun]
      exact congrArg Except.ok (after_of_append hgrows.codes)
  have hplace : p₁.handles[1]? = some (.value (.procedure q)) := by simp [p₁, hhandles]
  have hkept (a : UInt64) (ha : a ∈ q.owned) : HeldByCode machine.codes a :=
    ⟨entry, hgrows.codes ▸ List.mem_cons_self, ha⟩
  have hdrop : p₁.Leads { p₁ with handles := p₁.handles.eraseIdx 1 } :=
    leads_drop_of_kept (hgrows.backend.trans hp.backend) hplace fun a ha => .inr (hkept a ha)
  have herase : p₁.handles.eraseIdx 1 = .pointer ⟨p.machine.nextAddress, none⟩ :: rest := by
    simp [p₁, hhandles]
  rw [herase] at hdrop
  exact ⟨entry, (Leads.of_step hstep).trans hdrop⟩

end Program

end DualCall
