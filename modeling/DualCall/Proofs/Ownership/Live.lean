import DualCall.Proofs.Ownership.Balance

namespace DualCall

/-- What is owned from outside, directly or through the procedures of code. -/
inductive Live (codes : List (UInt64 × Code)) (held : List UInt64) : UInt64 → Prop where
  | held {address : UInt64} (hheld : address ∈ held) : Live codes held address
  | registered {entry : UInt64 × Code} {address : UInt64} (hentry : entry ∈ codes)
    (hregistered : entry.2.registered = true) (howned : address ∈ entry.2.procedure.owned) :
    Live codes held address
  | code {entry : UInt64 × Code} {address : UInt64} (hentry : entry ∈ codes)
    (hlive : Live codes held entry.1) (howned : address ∈ entry.2.procedure.owned) :
    Live codes held address

/-- Generated code that is not owned from outside. -/
def Dead (codes : List (UInt64 × Code)) (held : List UInt64) (address : UInt64) : Prop :=
  Generated codes address ∧ ¬ Live codes held address

variable {codes : List (UInt64 × Code)} {held outside owners : List UInt64} {address a b : UInt64}

/-- What is alive goes back to an owner outside or in a registered procedure. -/
theorem Live.exists_root (hlive : Live codes held address) :
    (∃ a, a ∈ held) ∨
      ∃ entry ∈ codes, entry.2.registered = true ∧ entry.2.procedure.owned ≠ [] := by
  induction hlive with
  | held hheld => exact .inl ⟨_, hheld⟩
  | registered hentry hregistered howned =>
    exact .inr ⟨_, hentry, hregistered, List.ne_nil_of_mem howned⟩
  | code _ _ _ ih => exact ih

theorem Live.mono {codes' : List (UInt64 × Code)} (hlive : Live codes held address)
    (hcodes : codes ⊆ codes') : Live codes' held address := by
  induction hlive with
  | held hheld => exact .held hheld
  | registered hentry hregistered howned => exact .registered (hcodes hentry) hregistered howned
  | code hentry _ howned ih => exact .code (hcodes hentry) ih howned

theorem Layered.of_append {newer older : List (UInt64 × Code)} (h : Layered (newer ++ older)) :
    Layered older := by
  induction newer with
  | nil => exact h
  | cons entry newer ih => exact ih h.2

namespace Balanced

/-- From the newest code to the oldest: code is owned from outside, or by the procedure of newer
    code. -/
theorem live_of_mem (h : Balanced codes held) {entry : UInt64 × Code} (hentry : entry ∈ codes) :
    entry.2.registered = true ∨ Live codes held entry.1 := by
  suffices hall : ∀ newer older, codes = newer ++ older →
      (∀ entry ∈ newer, entry.2.registered = true ∨ Live codes held entry.1) →
      ∀ entry ∈ older, entry.2.registered = true ∨ Live codes held entry.1 from
    hall [] _ rfl (fun _ hentry => nomatch hentry) entry hentry
  intro newer older
  induction older generalizing newer with
  | nil => exact fun _ _ _ hentry => nomatch hentry
  | cons first rest ih =>
    intro hsplit hnewer
    have hmem : first ∈ codes := hsplit ▸ List.mem_append_right _ List.mem_cons_self
    have hfirst : first.2.registered = true ∨ Live codes held first.1 := by
      by_cases hregistered : first.2.registered = true
      · exact .inl hregistered
      · refine .inr ?_
        obtain hheld | ⟨holder, hholder, howned⟩ :=
          h.owned first.1 ⟨first.2, hmem, Bool.eq_false_iff.mpr hregistered⟩
        · exact .held hheld
        · obtain hnew | hnew := List.mem_append.mp (hsplit ▸ hholder)
          · obtain hregistered | hlive := hnewer holder hnew
            · exact .registered hholder hregistered howned
            · exact .code hholder hlive howned
          · -- A holder from here on would need this code behind it, at an address that is taken.
            exfalso
            have hlayered := h.layered
            have hnodup := h.nodup
            rw [hsplit] at hlayered hnodup
            obtain ⟨howns, hrest⟩ := hlayered.of_append
            obtain ⟨code, hbehind, -⟩ : Generated rest first.1 := by
              cases hnew with
              | head => exact howns _ howned
              | tail _ hnew => exact hrest.generated ⟨holder, hnew, howned⟩
            rw [List.map_append, List.map_cons] at hnodup
            exact (List.nodup_cons.mp hnodup.of_append_right).1
              (List.mem_map.mpr ⟨_, hbehind, rfl⟩)
    intro entry hentry
    cases hentry with
    | head => exact hfirst
    | tail _ hentry =>
      refine ih (newer ++ [first]) (by simp [hsplit]) (fun entry hentry => ?_) entry hentry
      obtain hentry | hentry := List.mem_append.mp hentry
      · exact hnewer entry hentry
      · obtain rfl := List.mem_singleton.mp hentry
        exact hfirst

/-- In balance what is alive is what was generated. -/
theorem live_iff (h : Balanced codes held) : Live codes held address ↔ Generated codes address := by
  constructor
  · intro hlive
    cases hlive with
    | held hheld => exact h.generated _ hheld
    | registered hentry _ howned | code hentry _ howned =>
      exact h.layered.generated ⟨_, hentry, howned⟩
  · rintro ⟨code, hmem, hgenerated⟩
    obtain hregistered | hlive := h.live_of_mem hmem
    · cases hgenerated.symm.trans hregistered
    · exact hlive

/-- When codes went and the rest is in balance, the rest is what was alive. -/
theorem generated_filter_iff {keep : UInt64 × Code → Bool} (hnodup : (codes.map Prod.fst).Nodup)
    (h : Balanced (codes.filter keep) held)
    (hkeep : ∀ entry ∈ codes, entry.2.registered = true → keep entry = true) :
    Generated (codes.filter keep) address ↔ Live codes held address := by
  constructor
  · exact fun hgenerated => (h.live_iff.mpr hgenerated).mono (List.filter_subset_self _)
  · intro hlive
    induction hlive with
    | held hheld => exact h.generated _ hheld
    | registered hentry hregistered howned =>
      exact h.layered.generated
        ⟨_, List.mem_filter.mpr ⟨hentry, hkeep _ hentry hregistered⟩, howned⟩
    | @code entry _ hentry _ howned ih =>
      obtain ⟨code, hmem, -⟩ := ih
      have hsame := List.inj_on_of_nodup_map hnodup (List.mem_of_mem_filter hmem) hentry rfl
      exact h.layered.generated ⟨entry, hsame ▸ hmem, howned⟩

/-- The codes stay in balance without owners that are not the last ones of their codes. -/
theorem of_all_kept {owners : List UInt64} (h : Balanced codes (held ++ owners))
    (hkept : ∀ a ∈ owners, a ∈ held ∨ HeldByCode codes a) : Balanced codes held where
  nodup := h.nodup
  layered := h.layered
  generated a ha := h.generated a (List.mem_append_left _ ha)
  owned a ha := (h.owned a ha).elim
    (fun hmem => (List.mem_append.mp hmem).elim .inl (hkept a)) .inr

end Balanced

/-- One address comes after the last occurrence of another one. -/
def After (owners : List UInt64) (a b : UInt64) : Prop :=
  ∃ earlier later, owners = earlier ++ a :: later ∧ a ∉ later ∧ b ∈ later

theorem After.cons (h : After owners a b) (first : UInt64) : After (first :: owners) a b := by
  obtain ⟨earlier, later, rfl, hlast, hb⟩ := h
  exact ⟨first :: earlier, later, rfl, hlast, hb⟩

theorem After.of_cons {first : UInt64} (h : After (first :: owners) a b)
    (hfirst : a = first → a ∈ owners) : After owners a b := by
  obtain ⟨earlier, later, hsplit, hlast, hb⟩ := h
  cases earlier with
  | nil =>
    obtain ⟨rfl, rfl⟩ := List.cons.inj hsplit
    exact absurd (hfirst rfl) hlast
  | cons _ earlier => exact ⟨earlier, later, (List.cons.inj hsplit).2, hlast, hb⟩

theorem After.mem_tail {first : UInt64} (h : After (first :: owners) a b) : b ∈ owners := by
  obtain ⟨earlier, later, hsplit, -, hb⟩ := h
  cases earlier with
  | nil => exact (List.cons.inj hsplit).2 ▸ hb
  | cons _ earlier =>
    rw [(List.cons.inj hsplit).2]
    exact List.mem_append_right _ (List.mem_cons_of_mem _ hb)

/-- Owners are given up in order: every code that dies loses one of them, and only after all the
    codes that died with an owner of it are gone. -/
def InOrder (codes : List (UInt64 × Code)) (outside owners : List UInt64) : Prop :=
  ∀ b, Dead codes outside b → b ∈ owners ∧
    ∀ a code, (a, code) ∈ codes → Dead codes outside a → b ∈ code.procedure.owned →
      After owners a b

/-- The owner of a dying code is held by dying codes only. -/
theorem Dead.of_held {entry : UInt64 × Code} (hb : Dead codes outside b) (hentry : entry ∈ codes)
    (howned : b ∈ entry.2.procedure.owned) : Dead codes outside entry.1 := by
  have hregistered : entry.2.registered = false := Bool.eq_false_iff.mpr fun hregistered =>
    hb.2 (.registered hentry hregistered howned)
  exact ⟨⟨entry.2, hentry, hregistered⟩, fun hlive => hb.2 (.code hentry hlive howned)⟩

/-- An owner that is not the last one of its code makes no difference. -/
theorem inOrder_cons_of_kept {rest : List UInt64}
    (hkept : a ∈ outside ∨ a ∈ rest ∨ HeldByCode codes a) :
    InOrder codes outside (a :: rest) ↔ InOrder codes outside rest := by
  constructor
  · intro horder
    have hbehind (ha : Dead codes outside a) : a ∈ rest := by
      obtain hheld | hmem | ⟨entry, hentry, howned⟩ := hkept
      · exact absurd (.held hheld) ha.2
      · exact hmem
      · exact ((horder a ha).2 _ _ hentry (ha.of_held hentry howned) howned).mem_tail
    refine fun b hb => ⟨?_, fun c code hcode hc howned => ?_⟩
    · obtain rfl | hmem := List.mem_cons.mp (horder b hb).1
      · exact hbehind hb
      · exact hmem
    · exact ((horder b hb).2 c code hcode hc howned).of_cons fun heq => heq ▸ hbehind (heq ▸ hc)
  · intro horder b hb
    obtain ⟨hmem, hafter⟩ := horder b hb
    exact ⟨List.mem_cons_of_mem _ hmem, fun c code hcode hc howned =>
      (hafter c code hcode hc howned).cons a⟩

section

variable {code : Code} {rest : List UInt64} (hnodup : (codes.map Prod.fst).Nodup)
  (hcode : (a, code) ∈ codes) (hgenerated : code.registered = false) (houtside : a ∉ outside)
  (hheld : ¬ HeldByCode codes a)
include houtside hheld

theorem not_live_of_last : ¬ Live codes outside a := by
  intro hlive
  cases hlive with
  | held hmem => exact houtside hmem
  | registered hentry _ howned | code hentry _ howned => exact hheld ⟨_, hentry, howned⟩

include hnodup hcode hgenerated

/-- What is alive stays so without a code that is not. -/
theorem live_removeCode_iff : Live (removeCode codes a) outside b ↔ Live codes outside b := by
  have hdead := not_live_of_last houtside hheld
  constructor
  · intro hlive
    induction hlive with
    | held hmem => exact .held hmem
    | registered hentry hregistered howned =>
      exact .registered (mem_removeCode.mp hentry).1 hregistered howned
    | code hentry _ howned ih => exact .code (mem_removeCode.mp hentry).1 ih howned
  · intro hlive
    induction hlive with
    | held hmem => exact .held hmem
    | @registered entry _ hentry hregistered howned =>
      refine .registered (mem_removeCode.mpr ⟨hentry, fun hsame => ?_⟩) hregistered howned
      have heq := List.inj_on_of_nodup_map hnodup hentry hcode hsame
      rw [heq] at hregistered
      cases hgenerated.symm.trans hregistered
    | @code entry _ hentry hlive howned ih =>
      exact .code (mem_removeCode.mpr ⟨hentry, fun hsame => hdead (hsame ▸ hlive)⟩) ih howned

theorem dead_removeCode_iff :
    Dead (removeCode codes a) outside b ↔ Dead codes outside b ∧ b ≠ a := by
  unfold Dead
  rw [live_removeCode_iff hnodup hcode hgenerated houtside hheld]
  constructor
  · rintro ⟨⟨code', hmem, hgenerated'⟩, hlive⟩
    obtain ⟨hmem, hne⟩ := mem_removeCode.mp hmem
    exact ⟨⟨⟨code', hmem, hgenerated'⟩, hlive⟩, hne⟩
  · rintro ⟨⟨hb, hlive⟩, hne⟩
    exact ⟨hb.of_mem_removeCode hne, hlive⟩

/-- The code that goes with its last owner can be left out. -/
theorem inOrder_cons_of_last (hrest : a ∉ rest) :
    InOrder codes outside (a :: rest) ↔ InOrder (removeCode codes a) outside rest := by
  have hdead {b : UInt64} : Dead (removeCode codes a) outside b ↔ Dead codes outside b ∧ b ≠ a :=
    dead_removeCode_iff hnodup hcode hgenerated houtside hheld
  constructor
  · intro horder b hb
    obtain ⟨hb, hne⟩ := hdead.mp hb
    obtain ⟨hmem, hafter⟩ := horder b hb
    refine ⟨(List.mem_cons.mp hmem).resolve_left hne, fun c code' hmem' hc howned => ?_⟩
    obtain ⟨hc, hcne⟩ := hdead.mp hc
    exact (hafter c code' (mem_removeCode.mp hmem').1 hc howned).of_cons fun heq => absurd heq hcne
  · intro horder b hb
    by_cases hba : b = a
    · subst hba
      exact ⟨List.mem_cons_self, fun c code' hmem' _ howned => absurd ⟨_, hmem', howned⟩ hheld⟩
    · obtain ⟨hmem, hafter⟩ := horder b (hdead.mpr ⟨hb, hba⟩)
      refine ⟨List.mem_cons_of_mem _ hmem, fun c code' hmem' hc howned => ?_⟩
      by_cases hca : c = a
      · subst hca
        exact ⟨[], rest, rfl, hrest, hmem⟩
      · exact (hafter c code' (mem_removeCode.mpr ⟨hmem', hca⟩) (hdead.mpr ⟨hc, hca⟩)
          howned).cons a

/-- In order, the procedure of a code that goes holds no last owner. -/
theorem InOrder.kept (horder : InOrder codes outside (a :: rest)) (hlayered : Layered codes)
    (howned : b ∈ code.procedure.owned) :
    b ∈ outside ++ rest ∨ HeldByCode (removeCode codes a) b := by
  have hdead := not_live_of_last houtside hheld
  by_cases hlive : Live codes outside b
  · cases hlive with
    | held hmem => exact .inl (List.mem_append_left _ hmem)
    | @registered entry _ hentry hregistered howned' =>
      refine .inr ⟨entry, mem_removeCode.mpr ⟨hentry, fun hsame => ?_⟩, howned'⟩
      have heq := List.inj_on_of_nodup_map hnodup hentry hcode hsame
      rw [heq] at hregistered
      cases hgenerated.symm.trans hregistered
    | @code entry _ hentry hlive howned' =>
      exact .inr ⟨entry, mem_removeCode.mpr ⟨hentry, fun hsame => hdead (hsame ▸ hlive)⟩, howned'⟩
  · have hb : Dead codes outside b := ⟨hlayered.generated ⟨_, hcode, howned⟩, hlive⟩
    have hafter := (horder b hb).2 a code hcode (hb.of_held hcode howned) howned
    exact .inl (List.mem_append_right _ hafter.mem_tail)

end

end DualCall
