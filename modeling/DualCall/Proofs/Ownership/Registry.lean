import DualCall.Proofs.Ownership.Live
import DualCall.Proofs.Ownership.Soundness

namespace DualCall

namespace Program

variable {start : Machine} {p p' : Program} {address : UInt64}

theorem Reaches.within {h h' : Handle} (hreach : p.Reaches h) (hwithin : h.Within h') :
    p.Reaches h' := by
  induction hwithin with
  | refl => exact hreach
  | tail _ hpart ih => exact ih.part hpart

theorem Reaches.owner {h : Handle} (hreach : p.Reaches h) (howned : address ∈ h.owned) :
    p.ReachesOwner address := by
  obtain ⟨q, hwithin, hq⟩ := Handle.hasOwner_iff.mpr howned
  exact ⟨q, hreach.within hwithin, hq⟩

/-- What can be reached owns nothing that is owned neither by a handle nor by the procedure of a
    code. -/
theorem Reaches.kept {h : Handle} (hreach : p.Reaches h) (howned : address ∈ h.owned) :
    address ∈ heldBy p.handles ∨ HeldByCode p.machine.codes address := by
  induction hreach with
  | held hheld => exact .inl (mem_heldBy.mpr ⟨_, hheld, howned⟩)
  | registered hcode | generated _ _ hcode =>
    exact .inr ⟨_, Machine.mem_of_code? hcode, howned⟩
  | part _ hpart ih => exact ih (hpart.mem_owned howned)

theorem ReachesOwner.kept (howner : p.ReachesOwner address) :
    address ∈ heldBy p.handles ∨ HeldByCode p.machine.codes address := by
  obtain ⟨q, hreach, hq⟩ := howner
  exact hreach.kept (NativePointer.mem_owned.mpr hq)

theorem Available.kept {h : Handle} (havailable : p.Available h) (howned : address ∈ h.owned) :
    address ∈ heldBy p.handles ∨ HeldByCode p.machine.codes address := by
  cases havailable with
  | reached hreach => exact hreach.kept howned
  | @data v hdata =>
    cases v with
    | procedure | unified => cases hdata
    | null | bool | int | float | pointer => cases howned
  | bare | foreign | memory => cases howned

/-- An owner that can be reached is alive: what is followed from handle to handle is followed from
    code to code. -/
theorem reachesOwner_iff_live (hnodup : (p.machine.codes.map Prod.fst).Nodup) :
    p.ReachesOwner address ↔ Live p.machine.codes (heldBy p.handles) address := by
  constructor
  · rintro ⟨q, hreach, hq⟩
    suffices hall : ∀ h, p.Reaches h → ∀ a ∈ h.owned, Live p.machine.codes (heldBy p.handles) a from
      hall _ hreach _ (NativePointer.mem_owned.mpr hq)
    intro h hreach
    induction hreach with
    | held hheld => exact fun a ha => .held (mem_heldBy.mpr ⟨_, hheld, ha⟩)
    | registered hcode hregistered =>
      exact fun a ha => .registered (Machine.mem_of_code? hcode) hregistered ha
    | part _ hpart ih => exact fun a ha => ih a (hpart.mem_owned ha)
    | generated _ howner hcode ih =>
      have hlive := ih _ (NativePointer.mem_owned.mpr howner)
      exact fun a ha => .code (Machine.mem_of_code? hcode) hlive ha
  · intro hlive
    induction hlive with
    | held hheld =>
      obtain ⟨h, hh, howned⟩ := mem_heldBy.mp hheld
      exact (Reaches.held hh).owner howned
    | registered hentry hregistered howned =>
      exact (Reaches.registered (Machine.code?_of_mem hnodup hentry) hregistered).owner howned
    | code hentry _ howned ih =>
      obtain ⟨q, hreach, hq⟩ := ih
      exact (Reaches.generated hreach hq (Machine.code?_of_mem hnodup hentry)).owner howned

namespace Sound

/-- Generated code is there exactly as long as a copy of its owner can be reached. -/
theorem reachesOwner_iff (hp : Sound start p) :
    p.ReachesOwner address ↔ Generated p.machine.codes address :=
  (reachesOwner_iff_live hp.balanced.nodup).trans hp.balanced.live_iff

/-- At an address is what was last put there, or nothing. -/
theorem code?_issued (hp : Sound start p) {code : Code} (hissued : p.issued? address = some code) :
    p.machine.code? address = some code ∨ p.machine.code? address = none := by
  cases hcode : p.machine.code? address with
  | none => exact .inr rfl
  | some found =>
    cases (hp.issued _ (Machine.mem_of_code? hcode)).symm.trans hissued
    exact .inl rfl

/-- Generated code stays where it was put as long as a copy of its owner can be reached, and then
    nothing is there until something new is put there. -/
theorem code?_generated (hp : Sound start p) {code : Code} (hissued : p.issued? address = some code)
    (hgenerated : code.registered = false) :
    p.ReachesOwner address ∧ p.machine.code? address = some code ∨
    ¬ p.ReachesOwner address ∧ p.machine.code? address = none := by
  rw [hp.reachesOwner_iff]
  obtain hcode | hcode := hp.code?_issued hissued
  · exact .inl ⟨⟨code, Machine.mem_of_code? hcode, hgenerated⟩, hcode⟩
  · refine .inr ⟨fun ⟨other, hmem, _⟩ => ?_, hcode⟩
    rw [Machine.code?_of_mem hp.balanced.nodup hmem] at hcode
    cases hcode

/-- A code goes with a handle unless it is registered or an owner of it can be reached without the
    handle. -/
theorem mem_filter_iff (hp : Sound start p) {place : Nat} {keep : UInt64 × Code → Bool}
    (hbalanced : Balanced (p.machine.codes.filter keep) (heldBy (p.without place).handles))
    (hkeep : ∀ entry ∈ p.machine.codes, entry.2.registered = true → keep entry = true)
    (entry : UInt64 × Code) : entry ∈ p.machine.codes.filter keep ↔ entry ∈ p.machine.codes ∧
      (entry.2.registered = true ∨ (p.without place).ReachesOwner entry.1) := by
  have hnodup := hp.balanced.nodup
  have hreaches : (p.without place).ReachesOwner entry.1 ↔
      Generated (p.machine.codes.filter keep) entry.1 :=
    (reachesOwner_iff_live (p := p.without place) hnodup).trans
      (hbalanced.generated_filter_iff hnodup hkeep).symm
  rw [hreaches]
  constructor
  · intro hmem
    refine ⟨List.mem_of_mem_filter hmem, ?_⟩
    cases hregistered : entry.2.registered with
    | true => exact .inl rfl
    | false => exact .inr ⟨entry.2, hmem, hregistered⟩
  · rintro ⟨hentry, hregistered | ⟨code, hmem, -⟩⟩
    · exact List.mem_filter.mpr ⟨hentry, hkeep entry hentry hregistered⟩
    · exact List.inj_on_of_nodup_map hnodup (List.mem_of_mem_filter hmem) hentry rfl ▸ hmem

section

variable (hp : Sound start p) (hmemory : start.backend = .inMemory)
  (hcount : p.issued.length < 2 ^ 60)
include hp hmemory hcount

theorem nodup_issued : (p.issued.map Prod.fst).Nodup := by
  rw [(hp.counted hmemory).1, List.nodup_reverse]
  exact Machine.nodup_successive _ (Nat.le_of_lt hcount)

theorem issued?_of_mem {code : Code} (hissued : (address, code) ∈ p.issued) :
    p.issued? address = some code :=
  Machine.code?_of_mem (s := { p.machine with codes := p.issued })
    (hp.nodup_issued hmemory hcount) hissued

/-- Registered code is counted by the codes issued so far, for it never goes. -/
theorem countP_registered : p.machine.codes.countP (fun entry => entry.2.registered) =
    p.issued.countP fun entry => entry.2.registered := by
  have hperm : (p.machine.codes.filter fun entry => entry.2.registered).Perm
      (p.issued.filter fun entry => entry.2.registered) := by
    refine (List.perm_ext_iff_of_nodup ?_ ?_).mpr fun entry => ?_
    · exact hp.balanced.nodup.of_map.filter _
    · exact (hp.nodup_issued hmemory hcount).of_map.filter _
    · simp only [List.mem_filter]
      exact ⟨fun h => ⟨hp.mem_issued h.1, h.2⟩, fun h => ⟨hp.registered entry h.1 h.2, h.2⟩⟩
  simpa only [List.countP_eq_length_filter] using hperm.length_eq

end

end Sound

end Program

/-- The addresses of the generated code on a machine. -/
def Machine.generated (s : Machine) : List UInt64 :=
  (s.codes.filter fun entry => !entry.2.registered).map Prod.fst

theorem Machine.mem_generated {s : Machine} {address : UInt64} :
    address ∈ s.generated ↔ Generated s.codes address := by
  simp [generated, Generated, and_comm]

theorem Machine.length_codes (s : Machine) : s.codes.length =
    s.codes.countP (fun entry => entry.2.registered) + s.generated.length := by
  rw [generated, List.length_map, ← List.countP_eq_length_filter]
  simpa using List.length_eq_countP_add_countP (fun entry => entry.2.registered) (l := s.codes)

namespace Program

/-- What holds of the registry in memory after operations, at a program that they lead to. -/
structure Registry (ops : List Operation) (p : Program) : Prop where
  /-- No address was handed out twice, and none is zero. -/
  addresses : (p.issued.map Prod.fst).Nodup ∧ 0 ∉ p.issued.map Prod.fst
  /-- What makes something always completes. -/
  completes : ∀ op : Operation, op.makes = true → (∀ h ∈ op.inputs, p.Available h) →
    ∃ p', p.Step op p'
  /-- What is registered or derived is put at an address, which is handed out; only a derived one is
      owned. -/
  handed : ∀ (q : Procedure) (ret : NativeType) (types : List NativeType),
    (∃ s' address, p.perform (.register q) = .ok ⟨s', .pointer ⟨address, none⟩ :: p.handles,
      (address, ⟨q, .void, [], true⟩) :: p.issued⟩) ∧
    ∃ s' address, p.perform (.derive ret q types) = .ok ⟨s',
      .pointer ⟨address, some (.generated address)⟩ :: p.handles,
      (address, ⟨q, ret, types, false⟩) :: p.issued⟩
  /-- An operation puts at most one code into the registry, at an address that was never handed
      out, and then everything that was there stays. -/
  insertion : ∀ op p', p.Step op p' → p'.issued = p.issued ∨
    ∃ address code, p'.issued = (address, code) :: p.issued ∧ address ≠ 0 ∧
      address ∉ p.issued.map Prod.fst ∧ p'.machine.codes = (address, code) :: p.machine.codes
  /-- Registered code is there, now and after all that follows. -/
  registered : ∀ address code, (address, code) ∈ p.issued → code.registered = true →
    ∀ later p', Run p later p' → p'.issued.length < 2 ^ 60 - 256 →
      p'.machine.code? address = some code
  /-- Generated code is there as long as a copy of its owner can be reached. -/
  generated : ∀ address code, (address, code) ∈ p.issued → code.registered = false →
    p.ReachesOwner address ∧ p.machine.code? address = some code ∨
    ¬ p.ReachesOwner address ∧ p.machine.code? address = none
  /-- Nothing is there that was not put there, and so the size of the registry is known. -/
  size : (∀ address code, p.machine.code? address = some code → (address, code) ∈ p.issued) ∧
    ∃ reached : List UInt64, reached.Nodup ∧
      (∀ address, address ∈ reached ↔ p.ReachesOwner address) ∧
      p.machine.codes.length = ops.countP Operation.isRegister + reached.length
  /-- When neither the program nor a registered procedure holds an owner any more, registered code
      is all that is left. -/
  dropped : heldBy p.handles = [] → (∀ address code, p.machine.code? address = some code →
      code.registered = true → code.procedure.owned = []) →
    p.machine.codes.length = ops.countP Operation.isRegister

theorem zero_notMem_successive {count : Nat} (hcount : count ≤ 2 ^ 60 - 256) :
    0 ∉ Machine.successive 0x1000 count := by
  intro hmem
  obtain ⟨i, hi, heq⟩ := List.mem_map.mp hmem
  rw [List.mem_range] at hi
  have hoffset := congrArg UInt64.toNat heq
  simp only [Machine.addressStep, UInt64.toNat_add, UInt64.toNat_mul, UInt64.toNat_ofNat',
    UInt64.reduceToNat] at hoffset
  omega

/-- The registry in memory after any operations, as long as the addresses do not wrap around. An
    operation that does not come to an end leads to no program. -/
theorem Run.registry {ops : List Operation} {p : Program}
    (hrun : Run (start .inMemory) ops p) (hcount : p.issued.length < 2 ^ 60 - 256) :
    Registry ops p := by
  have hwords : p.issued.length < 2 ^ 60 := Nat.lt_of_lt_of_le hcount (Nat.sub_le _ _)
  obtain ⟨hp, hregistered⟩ := hrun.sound rfl rfl fun _ => hwords
  have hmemory : p.machine.backend = .inMemory := hp.backend
  have hfresh := hp.fresh rfl hwords
  have hlength : p.machine.codes.length =
      ops.countP Operation.isRegister + p.machine.generated.length := by
    rw [Machine.length_codes, hp.countP_registered rfl hwords, hregistered]
  have hmem (address : UInt64) : address ∈ p.machine.generated ↔ p.ReachesOwner address :=
    Machine.mem_generated.trans hp.reachesOwner_iff.symm
  exact {
    addresses := by
      refine ⟨hp.nodup_issued rfl hwords, ?_⟩
      rw [(hp.counted rfl).1, List.mem_reverse]
      exact zero_notMem_successive (Nat.le_of_lt hcount)
    completes := fun op hmakes hinputs => by
      obtain ⟨received, new, s', hperform, -⟩ :=
        hp.perform_makes (hp.fresh_next rfl hwords) hmakes
          fun h hh => hp.usable_of_available (hinputs h hh)
      refine ⟨_, .of_perform hmemory ?_ hperform⟩
      rwa [keeping_of_none p (Operation.place?_of_makes hmakes)]
    handed := fun q ret types => by
      obtain ⟨s', hregister⟩ := hp.perform_register q
      obtain ⟨hnative, -⟩ | ⟨s'', hderive⟩ := hp.perform_derive ret q types
      · cases hmemory.symm.trans hnative
      · exact ⟨⟨s', _, hregister⟩, s'', _, hderive⟩
    insertion := fun op p' hstep => by
      have hnonzero := zero_notMem_successive (Nat.succ_le_of_lt hcount)
      rw [Machine.successive_add_one] at hnonzero
      obtain ⟨-, new, ⟨hissued, -, hnew⟩, -⟩ := hp.step (fun _ => hwords) hstep
      obtain rfl | ⟨⟨address, code, hplace, rfl⟩, hcodes⟩ := hnew
      · exact .inl hissued
      · have hnext : address = p.machine.nextAddress := by simpa only [Places, hmemory] using hplace
        refine .inr ⟨address, code, hissued, fun hzero => hnonzero ?_, hnext ▸ hfresh, hcodes⟩
        rw [← hzero, hnext, (hp.counted rfl).2]
        simp [Machine.inMemory]
    registered := fun address code hissued hregistered later p' hlater hcount' => by
      obtain ⟨hp', -⟩ := (hrun.trans hlater).sound rfl rfl fun _ =>
        Nat.lt_of_lt_of_le hcount' (Nat.sub_le _ _)
      exact Machine.code?_of_mem hp'.balanced.nodup
        (hp'.registered _ (hlater.issued_suffix.subset hissued) hregistered)
    generated := fun address code hissued =>
      hp.code?_generated (hp.issued?_of_mem rfl hwords hissued)
    size := by
      refine ⟨fun address code hcode => hp.mem_issued (Machine.mem_of_code? hcode),
        p.machine.generated, ?_, hmem, hlength⟩
      exact hp.balanced.nodup.sublist (List.filter_sublist.map _)
    dropped := fun hhandles hprocedures => by
      have hnone : p.machine.generated = [] := List.eq_nil_iff_forall_not_mem.mpr fun a ha => by
        have hlive := hp.balanced.live_iff.mpr (Machine.mem_generated.mp ha)
        obtain ⟨b, hb⟩ | ⟨entry, hentry, hregistered, howns⟩ := hlive.exists_root
        · rw [hhandles] at hb
          cases hb
        · exact howns (hprocedures _ _ (Machine.code?_of_mem hp.balanced.nodup hentry) hregistered)
      rw [hlength, hnone, List.length_nil, Nat.add_zero] }

/-- A procedure is registered and derived, and both pointers are given up. The registered one was
    bare, and its code stays alone. -/
theorem Run.registry_registered_and_derived :
    let f : Procedure := ⟨0, "f", .routine []⟩
    let ops : List Operation :=
      [.routine "f" [] .null, .register f, .derive .i32 f [.i32], .drop 0, .drop 0]
    ∃ p, Run (start .inMemory) ops p ∧ p.issued.length < 2 ^ 60 - 256 ∧
      p.issued.map Prod.fst = [0x1010, 0x1000] ∧ p.machine.codes.length = 1 ∧
      ¬ p.ReachesOwner 0x1010 := by
  intro f ops
  let handle : Handle := .value (.procedure f)
  let registered : UInt64 × Code := (0x1000, ⟨f, .void, [], true⟩)
  let derived : UInt64 × Code := (0x1010, ⟨f, .i32, [.i32], false⟩)
  let s (codes : List (UInt64 × Code)) (next : UInt64) : Machine :=
    { Machine.inMemory with
      codes := codes
      nextAddress := next
      nextIdentity := 1
      routines := fun identity => if identity = 0 then .null else .null }
  let p₁ : Program := ⟨s [] 0x1000, [handle], []⟩
  let p₂ : Program := ⟨s [registered] 0x1010, [.pointer ⟨0x1000, none⟩, handle], [registered]⟩
  let p₃ : Program := ⟨s [derived, registered] 0x1020,
    .pointer ⟨0x1010, some (.generated 0x1010)⟩ :: p₂.handles, [derived, registered]⟩
  let p₄ : Program := ⟨s [registered] 0x1020, p₂.handles, p₃.issued⟩
  let p₅ : Program := ⟨s [registered] 0x1020, [handle], p₃.issued⟩
  have hroutine : (start .inMemory).Step (.routine "f" [] .null) p₁ :=
    .of_perform rfl (fun h hh => nomatch hh) rfl
  have hregister : p₁.Step (.register f) p₂ :=
    .of_perform rfl (fun h hh => .reached (.held hh)) rfl
  have hderive : p₂.Step (.derive .i32 f [.i32]) p₃ :=
    .of_perform rfl (fun h hh => .reached (.held (List.mem_cons_of_mem _ hh))) rfl
  have hdrop : p₃.Step (.drop 0) p₄ := .of_perform rfl (fun h hh => nomatch hh) rfl
  have hdrop' : p₄.Step (.drop 0) p₅ := .of_perform rfl (fun h hh => nomatch hh) rfl
  have hrun : Run (start .inMemory) ops p₅ :=
    .cons hroutine (.cons hregister (.cons hderive (.cons hdrop (.cons hdrop' .refl))))
  have hregistry := hrun.registry (by decide)
  refine ⟨p₅, hrun, by decide, rfl, hregistry.dropped rfl fun address code hcode _ => ?_, ?_⟩
  · have hmem : (address, code) ∈ [registered] := Machine.mem_of_code? hcode
    obtain ⟨-, rfl⟩ := Prod.mk.inj (List.mem_singleton.mp hmem)
    rfl
  · obtain ⟨-, hcode⟩ | ⟨hgone, -⟩ := hregistry.generated 0x1010 _ List.mem_cons_self rfl
    · cases hcode
    · exact hgone

end Program

end DualCall
