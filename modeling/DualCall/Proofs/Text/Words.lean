import DualCall.Proofs.Text.Blank

namespace DualCall.Text

/-- The words of a text: runs of characters that are no blanks, with blanks between neighbours and
    perhaps at the ends of the text. -/
inductive HasWords : List Char → List (List Char) → Prop
  | none {gap : List Char} (hgap : ∀ c ∈ gap, isBlank c) : HasWords gap []
  | cons {gap word rest : List Char} {ws : List (List Char)} (hgap : ∀ c ∈ gap, isBlank c)
      (hne : word ≠ []) (hword : ∀ c ∈ word, isBlank c = false)
      (hend : ∀ c ∈ rest.head?, isBlank c) (hrest : HasWords rest ws) :
      HasWords (gap ++ word ++ rest) (word :: ws)

theorem words_of_blanks {gap : List Char} (hgap : ∀ c ∈ gap, isBlank c) : words gap = [] := by
  have hdrop : gap.dropWhile isBlank = [] := List.dropWhile_eq_nil_iff.mpr hgap
  rw [words]
  split
  · rfl
  · next heq =>
    rw [hdrop] at heq
    cases heq

/-- The first word ends where a blank follows, or with the text. -/
theorem words_append {gap word rest : List Char} (hgap : ∀ c ∈ gap, isBlank c) (hne : word ≠ [])
    (hword : ∀ c ∈ word, isBlank c = false) (hend : ∀ c ∈ rest.head?, isBlank c) :
    words (gap ++ word ++ rest) = word :: words rest := by
  obtain ⟨c, tail, rfl⟩ := List.exists_cons_of_ne_nil hne
  obtain ⟨hc, htail⟩ := List.forall_mem_cons.mp hword
  have hstart := (span_append hgap (forall_mem_head?_cons hc (tail ++ rest))).2
  obtain ⟨htake, hdrop⟩ : (tail ++ rest).takeWhile (!isBlank ·) = tail ∧
      (tail ++ rest).dropWhile (!isBlank ·) = rest :=
    span_append (by simpa using htail) (by simpa using hend)
  rw [List.append_assoc, List.cons_append, words]
  split
  · next heq =>
    rw [hstart] at heq
    cases heq
  · next first others heq =>
    rw [hstart] at heq
    cases heq
    simp only [htake, hdrop]

/-- A text without blanks is one word. -/
theorem words_of_forall {cs : List Char} (hne : cs ≠ []) (hcs : ∀ c ∈ cs, isBlank c = false) :
    words cs = [cs] := by
  have hnil : words [] = [] := words_of_blanks (by simp)
  have hwords : words ([] ++ cs ++ []) = cs :: words [] :=
    words_append (by simp) hne hcs (by simp)
  rwa [List.nil_append, List.append_nil, hnil] at hwords

theorem hasWords_words (cs : List Char) : HasWords cs (words cs) := by
  induction cs using words.induct with
  | case1 cs hstart =>
    rw [words_of_blanks (List.dropWhile_eq_nil_iff.mp hstart)]
    exact .none (List.dropWhile_eq_nil_iff.mp hstart)
  | case2 cs c rest hstart _ ih =>
    obtain ⟨hcs, hgap, hhead⟩ := span_eq isBlank cs
    obtain ⟨hrest, hword, hend⟩ := span_eq (!isBlank ·) rest
    rw [hstart] at hcs hhead
    have hfirst : ∀ d ∈ c :: rest.takeWhile (!isBlank ·), isBlank d = false :=
      List.forall_mem_cons.mpr ⟨hhead c rfl, by simpa using hword⟩
    have hnext : ∀ d ∈ (rest.dropWhile (!isBlank ·)).head?, isBlank d := by simpa using hend
    have hsplit : cs = cs.takeWhile isBlank ++ (c :: rest.takeWhile (!isBlank ·)) ++
        rest.dropWhile (!isBlank ·) := by
      rw [List.append_assoc, List.cons_append, hrest, hcs]
    have hwords := HasWords.cons hgap (List.cons_ne_nil _ _) hfirst hnext ih
    rw [← words_append hgap (List.cons_ne_nil _ _) hfirst hnext] at hwords
    rwa [← hsplit] at hwords

theorem hasWords_iff {cs : List Char} {ws : List (List Char)} : HasWords cs ws ↔ words cs = ws := by
  constructor
  · intro hwords
    induction hwords with
    | none hgap => exact words_of_blanks hgap
    | cons hgap hne hword hend _ ih => rw [words_append hgap hne hword hend, ih]
  · rintro rfl
    exact hasWords_words cs

/-- A character that is no blank stands in one of the words. -/
theorem HasWords.mem_iff {cs : List Char} {ws : List (List Char)} (hwords : HasWords cs ws)
    {c : Char} (hc : isBlank c = false) : c ∈ cs ↔ ∃ word ∈ ws, c ∈ word := by
  have hgap {gap : List Char} (hgap : ∀ d ∈ gap, isBlank d) : c ∉ gap := by
    intro hmem
    rw [hgap c hmem] at hc
    cases hc
  induction hwords with
  | none hblank => simp [hgap hblank]
  | cons hblank _ _ _ _ ih => simp [hgap hblank, ih]

/-- Two texts with the same words, whatever blanks stand around them. -/
def SameWords (cs ds : List Char) : Prop := ∃ ws, HasWords cs ws ∧ HasWords ds ws

theorem SameWords.symm {cs ds : List Char} (hsame : SameWords cs ds) : SameWords ds cs :=
  hsame.imp fun _ => And.symm

theorem SameWords.mem_iff {cs ds : List Char} (hsame : SameWords cs ds) {c : Char}
    (hc : isBlank c = false) : c ∈ cs ↔ c ∈ ds := by
  obtain ⟨ws, hcs, hds⟩ := hsame
  rw [hcs.mem_iff hc, hds.mem_iff hc]

end DualCall.Text
