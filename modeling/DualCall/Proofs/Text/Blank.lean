import DualCall.Proofs.Text.Numeral
import DualCall.Text.Blank

namespace DualCall.Text

/-- A text without the blanks at the ends of another one: it neither begins nor ends with a blank,
    and only blanks are missing. -/
structure Trimmed (cs trimmed : List Char) : Prop where
  blanks : ∃ front back, (∀ c ∈ front, isBlank c) ∧ (∀ c ∈ back, isBlank c) ∧
    cs = front ++ trimmed ++ back
  head : ∀ c ∈ trimmed.head?, isBlank c = false
  last : ∀ c ∈ trimmed.getLast?, isBlank c = false

theorem trimmed_trim (cs : List Char) : Trimmed cs (trim cs) := by
  obtain ⟨hcs, hfront, hhead⟩ := span_eq isBlank cs
  obtain ⟨hrest, hback, hlast⟩ := span_eq isBlank (cs.dropWhile isBlank).reverse
  generalize (cs.dropWhile isBlank).reverse.takeWhile isBlank = back at hrest hback
  have htrim : cs.dropWhile isBlank = trim cs ++ back.reverse := by
    rw [trim, trimEnd, trimStart, ← List.reverse_append, hrest, List.reverse_reverse]
  refine ⟨⟨cs.takeWhile isBlank, back.reverse, hfront, ?_, ?_⟩, fun c hc => hhead c ?_,
    fun c hc => hlast c ?_⟩
  · exact fun c hc => hback c (List.mem_reverse.mp hc)
  · rw [List.append_assoc, ← htrim, hcs]
  · rw [htrim, List.head?_append, hc]
    rfl
  · rwa [trim, trimEnd, trimStart, List.getLast?_reverse] at hc

/-- There is only one text without the blanks at the ends of another one. -/
theorem Trimmed.trim_eq {cs trimmed : List Char} (htrimmed : Trimmed cs trimmed) :
    trim cs = trimmed := by
  obtain ⟨⟨front, back, hfront, hback, rfl⟩, hhead, hlast⟩ := htrimmed
  have hback' : ∀ c ∈ back.reverse, isBlank c := by simpa using hback
  by_cases hempty : trimmed = []
  · subst hempty
    have hall : ∀ c ∈ front ++ back, isBlank c := by simpa [or_imp, forall_and] using ⟨hfront, hback⟩
    rw [List.append_nil, trim, trimStart, List.dropWhile_eq_nil_iff.mpr hall]
    rfl
  · have hstart : ∀ c ∈ (trimmed ++ back).head?, isBlank c = false := by
      obtain ⟨c, rest, rfl⟩ := List.exists_cons_of_ne_nil hempty
      exact hhead
    have hend : ∀ c ∈ trimmed.reverse.head?, isBlank c = false := by rwa [List.head?_reverse]
    rw [List.append_assoc, trim, trimStart, (span_append hfront hstart).2, trimEnd,
      List.reverse_append, (span_append hback' hend).2, List.reverse_reverse]

/-- Only blanks at the ends of a text are taken away. -/
theorem trim_of_ends {cs : List Char} (hhead : ∀ c ∈ cs.head?, isBlank c = false)
    (hlast : ∀ c ∈ cs.getLast?, isBlank c = false) : trim cs = cs := by
  have hkeep {ds : List Char} (hds : ∀ c ∈ ds.head?, isBlank c = false) :
      ds.dropWhile isBlank = ds := by
    cases ds with
    | nil => rfl
    | cons d ds => simp [hds d rfl]
  rw [trim, trimStart, hkeep hhead, trimEnd, hkeep, List.reverse_reverse]
  rwa [List.head?_reverse]

theorem trim_of_forall {cs : List Char} (hcs : ∀ c ∈ cs, isBlank c = false) : trim cs = cs :=
  trim_of_ends (fun c hc => hcs c (List.mem_of_mem_head? hc))
    fun c hc => hcs c (List.mem_of_mem_getLast? hc)

theorem isBlank_of_ascii {c : Char} (hlow : 0x20 < c.toNat) (hhigh : c.toNat < 0x7f) :
    isBlank c = false := by
  simp [isBlank, blankRanges]
  omega

theorem isBlank_of_digitValue? {base : Nat} {c : Char} (hc : (digitValue? base c).isSome) :
    isBlank c = false := by
  have hle (a b : Char) : a ≤ b ↔ a.toNat ≤ b.toNat := UInt32.le_iff_toNat_le
  have hrange : ('0' ≤ c ∧ c ≤ '9') ∨ ('a' ≤ c ∧ c ≤ 'z') ∨ ('A' ≤ c ∧ c ≤ 'Z') := by
    apply Decidable.byContradiction
    intro hnone
    simp only [not_or] at hnone
    simp [digitValue?, hnone] at hc
  have hbounds : '0'.toNat = 48 ∧ '9'.toNat = 57 ∧ 'a'.toNat = 97 ∧ 'z'.toNat = 122 ∧
      'A'.toNat = 65 ∧ 'Z'.toNat = 90 := by decide
  simp only [hle] at hrange
  exact isBlank_of_ascii (by omega) (by omega)

end DualCall.Text
