import DualCall.Call.Ownership
import DualCall.Proofs.Call.Machine

namespace DualCall

/-- Code at an address that goes with the last copy of its owner. -/
def Generated (codes : List (UInt64 × Code)) (address : UInt64) : Prop :=
  ∃ code, (address, code) ∈ codes ∧ code.registered = false

/-- The procedure of some code holds an owner of the code at an address. -/
def HeldByCode (codes : List (UInt64 × Code)) (address : UInt64) : Prop :=
  ∃ entry ∈ codes, address ∈ entry.2.procedure.owned

/-- Every code holds owners of codes behind it only, which are older. -/
def Layered : List (UInt64 × Code) → Prop
  | [] => True
  | entry :: older => (∀ address ∈ entry.2.procedure.owned, Generated older address) ∧ Layered older

/-- The codes are in balance with the owners that are held outside of them: what is owned is there,
    and what was generated is owned. -/
structure Balanced (codes : List (UInt64 × Code)) (held : List UInt64) : Prop where
  nodup : (codes.map Prod.fst).Nodup
  layered : Layered codes
  generated : ∀ address ∈ held, Generated codes address
  owned : ∀ address, Generated codes address → address ∈ held ∨ HeldByCode codes address

/-- The codes without the one at an address. -/
def removeCode (codes : List (UInt64 × Code)) (address : UInt64) : List (UInt64 × Code) :=
  codes.filter fun entry => entry.1 != address

theorem mem_removeCode {codes : List (UInt64 × Code)} {address : UInt64}
    {entry : UInt64 × Code} :
    entry ∈ removeCode codes address ↔ entry ∈ codes ∧ entry.1 ≠ address := by
  simp [removeCode]

theorem Generated.of_mem_removeCode {codes : List (UInt64 × Code)} {address a : UInt64}
    (ha : Generated codes a) (hne : a ≠ address) : Generated (removeCode codes address) a := by
  obtain ⟨code, hmem, hgenerated⟩ := ha
  exact ⟨code, mem_removeCode.mpr ⟨hmem, hne⟩, hgenerated⟩

theorem Layered.generated {codes : List (UInt64 × Code)} (hlayered : Layered codes)
    {address : UInt64} (hheld : HeldByCode codes address) : Generated codes address := by
  induction codes with
  | nil =>
    obtain ⟨entry, hmem, -⟩ := hheld
    cases hmem
  | cons newest older ih =>
    obtain ⟨hnewest, holder⟩ := hlayered
    have hbehind : Generated older address := by
      obtain ⟨entry, hmem, howned⟩ := hheld
      cases hmem with
      | head => exact hnewest address howned
      | tail _ hmem => exact ih holder ⟨entry, hmem, howned⟩
    obtain ⟨code, hmem, hgenerated⟩ := hbehind
    exact ⟨code, List.mem_cons_of_mem _ hmem, hgenerated⟩

theorem Layered.removeCode {codes : List (UInt64 × Code)} (hlayered : Layered codes)
    {address : UInt64} (hheld : ¬ HeldByCode codes address) :
    Layered (removeCode codes address) := by
  induction codes with
  | nil => trivial
  | cons newest older ih =>
    obtain ⟨hnewest, holder⟩ := hlayered
    have hrest := ih holder fun ⟨entry, hmem, howned⟩ =>
      hheld ⟨entry, List.mem_cons_of_mem _ hmem, howned⟩
    unfold DualCall.removeCode at hrest ⊢
    rw [List.filter_cons]
    split
    · refine ⟨fun a ha => (hnewest a ha).of_mem_removeCode fun heq => ?_, hrest⟩
      exact hheld ⟨newest, List.mem_cons_self, heq ▸ ha⟩
    · exact hrest

namespace Balanced

variable {codes : List (UInt64 × Code)} {held : List UInt64}

/-- Only which owners are held counts, not how often or in which order. -/
theorem of_mem_iff (h : Balanced codes held) {held' : List UInt64}
    (hmem : ∀ a, a ∈ held' ↔ a ∈ held) : Balanced codes held' where
  nodup := h.nodup
  layered := h.layered
  generated a ha := h.generated a ((hmem a).mp ha)
  owned a ha := (h.owned a ha).imp_left (hmem a).mpr

/-- An owner that is not the last one of its code can go. -/
theorem of_kept {address : UInt64} (h : Balanced codes (address :: held))
    (hkept : address ∈ held ∨ HeldByCode codes address) : Balanced codes held where
  nodup := h.nodup
  layered := h.layered
  generated a ha := h.generated a (List.mem_cons_of_mem _ ha)
  owned a ha := by
    obtain hmem | hheld := h.owned a ha
    · cases hmem with
      | head => exact hkept
      | tail _ hmem => exact .inl hmem
    · exact .inr hheld

/-- When the last owner of a code goes, the code goes with it, and the owners that its procedure
    held are left over. -/
theorem of_last {address : UInt64} (h : Balanced codes (address :: held)) {code : Code}
    (hcode : (address, code) ∈ codes) (hheld : address ∉ held)
    (hcodes : ¬ HeldByCode codes address) :
    Balanced (removeCode codes address) (held ++ code.procedure.owned) where
  nodup := h.nodup.sublist (List.filter_sublist.map _)
  layered := h.layered.removeCode hcodes
  generated a ha := by
    obtain ha | ha := List.mem_append.mp ha
    · have hgenerated := h.generated a (List.mem_cons_of_mem _ ha)
      exact hgenerated.of_mem_removeCode fun heq => hheld (heq ▸ ha)
    · have hbycode : HeldByCode codes a := ⟨_, hcode, ha⟩
      exact (h.layered.generated hbycode).of_mem_removeCode fun heq => hcodes (heq ▸ hbycode)
  owned a ha := by
    obtain ⟨code', hmem, hgenerated⟩ := ha
    obtain ⟨hmem, hne⟩ := mem_removeCode.mp hmem
    obtain hmem | ⟨entry, hentry, howned⟩ := h.owned a ⟨code', hmem, hgenerated⟩
    · exact .inl (List.mem_append_left _ ((List.mem_cons.mp hmem).resolve_left hne))
    · by_cases hsame : entry.1 = address
      · -- Addresses are different, so the holder is the code that went.
        have heq : entry = (address, code) :=
          List.inj_on_of_nodup_map h.nodup hentry hcode hsame
        exact .inl (List.mem_append_right _ (by rwa [heq] at howned))
      · exact .inr ⟨entry, mem_removeCode.mpr ⟨hentry, hsame⟩, howned⟩

/-- New code whose procedure owns older code, and which is owned itself if it was generated. -/
theorem extend {codes : List (UInt64 × Code)} {held received : List UInt64}
    (h : Balanced codes held) {address : UInt64} {code : Code}
    (hfresh : address ∉ codes.map Prod.fst)
    (hprocedure : ∀ a ∈ code.procedure.owned, Generated codes a)
    (hcode : code.registered = false → address ∈ received)
    (hreceived : ∀ a ∈ received, Generated ((address, code) :: codes) a) :
    Balanced ((address, code) :: codes) (received ++ held) where
  nodup := List.nodup_cons.mpr ⟨hfresh, h.nodup⟩
  layered := ⟨hprocedure, h.layered⟩
  generated a ha := by
    obtain ha | ha := List.mem_append.mp ha
    · exact hreceived a ha
    · obtain ⟨code', hmem, hgenerated⟩ := h.generated a ha
      exact ⟨code', List.mem_cons_of_mem _ hmem, hgenerated⟩
  owned a ha := by
    obtain ⟨code', hmem, hgenerated⟩ := ha
    cases hmem with
    | head => exact .inl (List.mem_append_left _ (hcode hgenerated))
    | tail _ hmem =>
      obtain hheld | ⟨entry, hentry, howned⟩ := h.owned a ⟨code', hmem, hgenerated⟩
      · exact .inl (List.mem_append_right _ hheld)
      · exact .inr ⟨entry, List.mem_cons_of_mem _ hentry, howned⟩

/-- More owners of code that is there may be held. -/
theorem extend_held {codes : List (UInt64 × Code)} {held received : List UInt64}
    (h : Balanced codes held) (hreceived : ∀ a ∈ received, Generated codes a) :
    Balanced codes (received ++ held) where
  nodup := h.nodup
  layered := h.layered
  generated a ha := (List.mem_append.mp ha).elim (hreceived a) (h.generated a)
  owned a ha := (h.owned a ha).imp_left (List.mem_append_right _)

end Balanced

namespace Machine

variable {s : Machine}

theorem mem_of_code? {address : UInt64} {code : Code} (hcode : s.code? address = some code) :
    (address, code) ∈ s.codes := by
  obtain ⟨⟨key, found⟩, hfind, rfl⟩ := Option.map_eq_some_iff.mp hcode
  obtain rfl : key = address := by simpa using List.find?_some hfind
  exact List.mem_of_find?_eq_some hfind

theorem code?_of_mem (hnodup : (s.codes.map Prod.fst).Nodup) {address : UInt64} {code : Code}
    (hmem : (address, code) ∈ s.codes) : s.code? address = some code := by
  cases hcode : s.code? address with
  | none =>
    have hnone := List.find?_eq_none.mp (Option.map_eq_none_iff.mp hcode) _ hmem
    simp at hnone
  | some found =>
    have heq := List.inj_on_of_nodup_map hnodup (mem_of_code? hcode) hmem rfl
    cases heq
    rfl

theorem holds_iff {address : UInt64} : s.holds address = true ↔ HeldByCode s.codes address := by
  simp [holds, HeldByCode]

/-- A machine from which code that was generated has been taken away. -/
def Shrinks (s s' : Machine) : Prop :=
  ∃ keep : UInt64 × Code → Bool,
    (∀ entry ∈ s.codes, entry.2.registered = true → keep entry = true) ∧
      s' = { s with codes := s.codes.filter keep }

theorem Shrinks.refl (s : Machine) : s.Shrinks s :=
  ⟨fun _ => true, fun _ _ _ => rfl, by rw [List.filter_true]⟩

theorem Shrinks.trans {s₁ s₂ s₃ : Machine} (h : s₁.Shrinks s₂) (h' : s₂.Shrinks s₃) :
    s₁.Shrinks s₃ := by
  obtain ⟨keep, hkeep, rfl⟩ := h
  obtain ⟨keep', hkeep', rfl⟩ := h'
  refine ⟨fun entry => keep' entry && keep entry, fun entry hmem hregistered => ?_, ?_⟩
  · have hfirst := hkeep entry hmem hregistered
    have hsecond := hkeep' entry (List.mem_filter.mpr ⟨hmem, hfirst⟩) hregistered
    simp [hfirst, hsecond]
  · rw [List.filter_filter]

theorem Shrinks.length_le {s' : Machine} (h : s.Shrinks s') : s'.codes.length ≤ s.codes.length := by
  obtain ⟨keep, -, rfl⟩ := h
  exact List.length_filter_le keep s.codes

section

variable {nested : List UInt64 → List UInt64 → Act Unit} {outside rest : List UInt64}
  {address : UInt64}

theorem run_remove (s : Machine) (address : UInt64) :
    (remove address).run s = .ok ((), { s with codes := removeCode s.codes address }) := rfl

theorem run_releaseEach_of_kept
    (hkept : address ∈ outside ∨ address ∈ rest ∨ HeldByCode s.codes address) :
    (releaseEach nested outside (address :: rest)).run s =
      (releaseEach nested outside rest).run s := by
  rw [← holds_iff] at hkept
  rw [releaseEach]
  obtain h | h | h := hkept <;> simp [h]

theorem run_releaseEach_of_last {code : Code} (hcode : s.code? address = some code)
    (houtside : address ∉ outside) (hrest : address ∉ rest)
    (hcodes : ¬ HeldByCode s.codes address) :
    (releaseEach nested outside (address :: rest)).run s = (do
      guarded do
        remove address
        nested (outside ++ rest) code.procedure.owned
      releaseEach nested outside rest : Act Unit).run s := by
  rw [← holds_iff, Bool.not_eq_true] at hcodes
  rw [releaseEach]
  simp [houtside, hrest, hcodes, hcode]

end

/-- How giving up owners ends: all of them are given up and the rest is in balance, or the registry
    is wanted while it is locked. -/
def Releases (s : Machine) (outside : List UInt64) (release : Act Unit) : Prop :=
  (∃ s', release.run s = .ok ((), s') ∧ Balanced s'.codes outside ∧ s.Shrinks s') ∨
  s.backend = .inMemory ∧ release.run s = .error .deadlock

theorem Releases.guarded {outside : List UInt64} {release : Act Unit}
    (h : ∀ locked, { s with locked := locked }.Releases outside release) :
    s.Releases outside (guarded release) := by
  obtain ⟨-, hrun⟩ | ⟨hmemory, -, hrun⟩ | ⟨hmemory, hfree, hrun⟩ := run_guarded_cases release s
  · obtain ⟨s', hok, hbalanced, hshrinks⟩ | ⟨hmemory, herror⟩ := h s.locked
    · exact .inl ⟨s', hrun.trans hok, hbalanced, hshrinks⟩
    · exact .inr ⟨hmemory, hrun.trans herror⟩
  · exact .inr ⟨hmemory, hrun⟩
  · obtain ⟨s', hok, hbalanced, keep, hkeep, rfl⟩ | ⟨-, herror⟩ := h true
    · refine .inl ⟨{ s with codes := s.codes.filter keep }, ?_, hbalanced, keep, hkeep, rfl⟩
      rw [hrun, hok]
      simp [Except.map, hfree]
    · exact .inr ⟨hmemory, by rw [hrun, herror]; rfl⟩

theorem Releases.bind {outside outside' : List UInt64} {first second : Act Unit}
    (hfirst : s.Releases outside first)
    (hsecond : ∀ s', Balanced s'.codes outside → s.Shrinks s' → s'.Releases outside' second) :
    s.Releases outside' (do first; second) := by
  obtain ⟨s₁, hok, hbalanced, hshrinks⟩ | ⟨hmemory, herror⟩ := hfirst
  · obtain ⟨s₂, hok₂, hbalanced₂, hshrinks₂⟩ | ⟨hmemory, herror⟩ := hsecond s₁ hbalanced hshrinks
    · refine .inl ⟨s₂, ?_, hbalanced₂, hshrinks.trans hshrinks₂⟩
      rw [StateT.run_bind, hok]
      exact hok₂
    · refine .inr ⟨?_, ?_⟩
      · obtain ⟨keep, -, rfl⟩ := hshrinks
        exact hmemory
      · rw [StateT.run_bind, hok]
        exact herror
  · refine .inr ⟨hmemory, ?_⟩
    rw [StateT.run_bind, herror]
    rfl

/-- Removing the code of a last owner, and giving up what its procedure held. -/
theorem releases_last {outside : List UInt64} {address : UInt64} {code : Code} {next : Act Unit}
    (hbalanced : Balanced s.codes (address :: outside)) (hmem : (address, code) ∈ s.codes)
    (hgenerated : code.registered = false)
    (hnext : { s with codes := removeCode s.codes address }.Releases outside next) :
    s.Releases outside (do remove address; next) := by
  have hrun : (do remove address; next : Act Unit).run s =
      next.run { s with codes := removeCode s.codes address } := by
    rw [StateT.run_bind, run_remove]
    rfl
  have hremove : s.Shrinks { s with codes := removeCode s.codes address } := by
    refine ⟨fun entry => entry.1 != address, fun entry hentry hregistered => ?_, rfl⟩
    refine bne_iff_ne.mpr fun hsame => ?_
    have heq := List.inj_on_of_nodup_map hbalanced.nodup hentry hmem hsame
    rw [heq, hgenerated] at hregistered
    cases hregistered
  unfold Releases
  rw [hrun]
  refine hnext.imp_left fun ⟨s', hok, hafter, hshrinks⟩ => ?_
  exact ⟨s', hok, hafter, hremove.trans hshrinks⟩

theorem releaseEach_releases {nested : List UInt64 → List UInt64 → Act Unit} {depth : Nat}
    (hnested : ∀ (s : Machine) (outside owners : List UInt64), s.codes.length ≤ depth →
      Balanced s.codes (outside ++ owners) → s.Releases outside (nested outside owners))
    (outside owners : List UInt64) (s : Machine) (hdepth : s.codes.length ≤ depth + 1)
    (hbalanced : Balanced s.codes (outside ++ owners)) :
    s.Releases outside (releaseEach nested outside owners) := by
  induction owners generalizing s with
  | nil => exact .inl ⟨s, rfl, by simpa using hbalanced, .refl s⟩
  | cons address rest ih =>
    have hfirst : Balanced s.codes (address :: (outside ++ rest)) :=
      hbalanced.of_mem_iff fun a => by simp [or_left_comm]
    by_cases hkept : address ∈ outside ∨ address ∈ rest ∨ HeldByCode s.codes address
    · rw [Releases, run_releaseEach_of_kept hkept]
      exact ih s hdepth (hfirst.of_kept (by simpa [or_assoc] using hkept))
    · obtain ⟨houtside, hrest, hcodes⟩ : address ∉ outside ∧ address ∉ rest ∧
          ¬ HeldByCode s.codes address := by simpa [not_or] using hkept
      obtain ⟨code, hmem, hgenerated⟩ := hfirst.generated address List.mem_cons_self
      have hremoved := hfirst.of_last hmem (by simp [houtside, hrest]) hcodes
      have hfewer : (removeCode s.codes address).length < s.codes.length :=
        List.length_filter_lt_length_iff_exists.mpr ⟨_, hmem, by simp⟩
      rw [Releases, run_releaseEach_of_last (code?_of_mem hfirst.nodup hmem) houtside hrest hcodes]
      have hgone : s.Releases (outside ++ rest) (Machine.guarded do
          remove address
          nested (outside ++ rest) code.procedure.owned) :=
        .guarded fun locked => releases_last hfirst hmem hgenerated
          (hnested _ _ _ (by dsimp only; omega) hremoved)
      exact hgone.bind fun s' hbalanced' hshrinks =>
        ih s' (Nat.le_trans hshrinks.length_le hdepth) hbalanced'

theorem releaseUpTo_releases (depth : Nat) (s : Machine) (outside owners : List UInt64)
    (hdepth : s.codes.length ≤ depth) (hbalanced : Balanced s.codes (outside ++ owners)) :
    s.Releases outside (releaseUpTo depth outside owners) := by
  induction depth generalizing s outside owners with
  | zero =>
    -- Without codes nothing is owned, so there is nothing to give up.
    have hcodes : s.codes = [] := List.eq_nil_of_length_eq_zero (Nat.le_zero.mp hdepth)
    have howners : owners = [] := List.eq_nil_iff_forall_not_mem.mpr fun a ha => by
      obtain ⟨code, hmem, -⟩ := hbalanced.generated a (List.mem_append_right _ ha)
      rw [hcodes] at hmem
      cases hmem
    subst howners
    exact .inl ⟨s, rfl, by simpa using hbalanced, .refl s⟩
  | succ depth ih => exact releaseEach_releases ih outside owners s hdepth hbalanced

/-- Giving up owners leaves exactly the code that is still owned, unless it comes to wait for the
    registry that it has locked itself. -/
theorem release_releases {s : Machine} {outside owners : List UInt64}
    (hbalanced : Balanced s.codes (outside ++ owners)) :
    s.Releases outside (release outside owners) :=
  releaseUpTo_releases s.codes.length s outside owners (Nat.le_refl _) hbalanced

end Machine

end DualCall
