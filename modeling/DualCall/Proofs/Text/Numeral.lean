import DualCall.Text.Numeral
import Mathlib.Data.List.Induction
import Mathlib.Data.List.TakeWhile

namespace DualCall.Text

-- Powers are those of the core library, whatever other instances are in scope.
attribute [local instance (2000)] instPowNat

/-- A run of characters of a kind ends where a character of another kind follows. -/
theorem span_append {kind : Char → Bool} {run rest : List Char} (hrun : ∀ c ∈ run, kind c)
    (hrest : ∀ c ∈ rest.head?, kind c = false) :
    (run ++ rest).takeWhile kind = run ∧ (run ++ rest).dropWhile kind = rest := by
  rw [List.takeWhile_append_of_pos hrun, List.dropWhile_append_of_pos hrun]
  cases rest with
  | nil => simp
  | cons c rest =>
    have hc : kind c = false := hrest c rfl
    simp [hc]

/-- What is left of a text behind its run of a kind begins with another kind. -/
theorem span_eq (kind : Char → Bool) (cs : List Char) :
    cs.takeWhile kind ++ cs.dropWhile kind = cs ∧ (∀ c ∈ cs.takeWhile kind, kind c) ∧
      ∀ c ∈ (cs.dropWhile kind).head?, kind c = false := by
  refine ⟨List.takeWhile_append_dropWhile, fun _ => List.mem_takeWhile_imp, fun c hc => ?_⟩
  have hhead := List.head?_dropWhile_not kind cs
  rw [hc] at hhead
  simpa using hhead

theorem exists_span (kind : Char → Bool) (cs : List Char) : ∃ run rest, cs = run ++ rest ∧
    (∀ c ∈ run, kind c) ∧ ∀ c ∈ rest.head?, kind c = false :=
  ⟨_, _, (span_eq kind cs).1.symm, (span_eq kind cs).2⟩

theorem forall_mem_head?_cons {kind : Char → Bool} {c : Char} (hc : kind c = false)
    (cs : List Char) : ∀ d ∈ (c :: cs).head?, kind d = false := by
  rintro d hd
  cases hd
  exact hc

theorem digitValue?_digitChar {base value : Nat} (hvalue : value < base) (hbase : base ≤ 16) :
    digitValue? base (digitChar value) = some value := by
  have hall : ∀ b < 17, ∀ v < b, digitValue? b (digitChar v) = some v := by decide +kernel
  exact hall base (by omega) value hvalue

theorem isDigit_iff {c : Char} : isDigit c ↔ '0' ≤ c ∧ c ≤ '9' := by
  have hle (a b : Char) : a ≤ b ↔ a.toNat ≤ b.toNat := UInt32.le_iff_toNat_le
  have hletter : ¬ (if 'a' ≤ c ∧ c ≤ 'z' then c.toNat - 87
      else if 'A' ≤ c ∧ c ≤ 'Z' then c.toNat - 55 else 10) < 10 := by
    have ha : 'a'.toNat = 97 := rfl
    have hA : 'A'.toNat = 65 := rfl
    simp only [hle]
    split
    · omega
    · split <;> omega
  by_cases hc : '0' ≤ c ∧ c ≤ '9'
  · have hvalue : c.toNat - 48 < 10 := by
      have hnine : '9'.toNat = 57 := rfl
      have hhigh := (hle _ _).mp hc.2
      omega
    simp [isDigit, digitValue?, hc, hvalue]
  · simp only [isDigit, digitValue?, hc, if_false, hletter, Option.isSome_none, Bool.false_eq_true]

theorem natOfDigitsFrom_append (base seed : Nat) (cs ds : List Char) :
    natOfDigitsFrom base seed (cs ++ ds) =
      natOfDigitsFrom base (natOfDigitsFrom base seed cs) ds :=
  List.foldl_append

theorem natOfDigitsFrom_zeros (base seed count : Nat) (hbase : 0 < base) :
    natOfDigitsFrom base seed (List.replicate count '0') = seed * base ^ count := by
  have hzero : digitValue? base '0' = some 0 := by simp [digitValue?, hbase]
  induction count generalizing seed with
  | zero => simp [natOfDigitsFrom]
  | succ count ih =>
    rw [List.replicate_succ, natOfDigitsFrom, List.foldl_cons, ← natOfDigitsFrom, ih, hzero,
      Option.getD_some, Nat.add_zero, Nat.mul_assoc, Nat.pow_succ, Nat.mul_comm base]

/-- Digits in front of others count a power of the base. -/
theorem natOfDigits_append (base : Nat) (cs ds : List Char) :
    natOfDigits base (cs ++ ds) = natOfDigits base cs * base ^ ds.length + natOfDigits base ds := by
  have hfrom (seed : Nat) :
      natOfDigitsFrom base seed ds = seed * base ^ ds.length + natOfDigits base ds := by
    rw [natOfDigits]
    induction ds using List.reverseRecOn with
    | nil => simp [natOfDigitsFrom]
    | append_singleton ds d ih =>
      rw [natOfDigitsFrom_append, natOfDigitsFrom_append, ih, List.length_append,
        List.length_singleton, Nat.pow_succ, ← Nat.mul_assoc]
      simp only [natOfDigitsFrom, List.foldl_cons, List.foldl_nil, Nat.add_mul, Nat.add_assoc]
  rw [natOfDigits, natOfDigitsFrom_append, hfrom]
  rfl

/-- Zeros in front of digits do not count. -/
theorem natOfDigits_zeros_append (base count : Nat) (hbase : 0 < base) (ds : List Char) :
    natOfDigits base (List.replicate count '0' ++ ds) = natOfDigits base ds := by
  rw [natOfDigits, natOfDigitsFrom_append, natOfDigitsFrom_zeros _ _ _ hbase, Nat.zero_mul,
    natOfDigits]

theorem natOfDigits_append_zeros (base count : Nat) (hbase : 0 < base) (ds : List Char) :
    natOfDigits base (ds ++ List.replicate count '0') = natOfDigits base ds * base ^ count := by
  rw [natOfDigits, natOfDigitsFrom_append, natOfDigitsFrom_zeros _ _ _ hbase, natOfDigits]

theorem digits_of_lt {base n : Nat} (hn : n < base) : digits base n = [digitChar n] := by
  rw [digits, dif_pos (.inl hn)]

section

variable {base : Nat} (hlow : 2 ≤ base) (hhigh : base ≤ 16)
include hlow

theorem digits_of_le {n : Nat} (hn : base ≤ n) :
    digits base n = digits base (n / base) ++ [digitChar (n % base)] := by
  rw [digits, dif_neg (by omega)]

theorem digits_ne_nil (n : Nat) : digits base n ≠ [] := by
  by_cases hn : n < base
  · simp [digits_of_lt hn]
  · simp [digits_of_le hlow (Nat.le_of_not_lt hn)]

include hhigh

/-- Only digits are written. -/
theorem isSome_digitValue?_of_mem_digits {n : Nat} {c : Char} (hc : c ∈ digits base n) :
    (digitValue? base c).isSome := by
  induction n using Nat.strongRecOn with
  | ind n ih =>
    by_cases hn : n < base
    · rw [digits_of_lt hn, List.mem_singleton] at hc
      simp [hc, digitValue?_digitChar hn hhigh]
    · have hdiv : n / base < n := Nat.div_lt_self (by omega) (by omega)
      rw [digits_of_le hlow (Nat.le_of_not_lt hn), List.mem_append, List.mem_singleton] at hc
      rcases hc with hc | rfl
      · exact ih _ hdiv hc
      · simp [digitValue?_digitChar (Nat.mod_lt n (by omega)) hhigh]

theorem natOfDigits_digits (n : Nat) : natOfDigits base (digits base n) = n := by
  induction n using Nat.strongRecOn with
  | ind n ih =>
    by_cases hn : n < base
    · simp [digits_of_lt hn, natOfDigits, natOfDigitsFrom, digitValue?_digitChar hn hhigh]
    · have hdiv : n / base < n := Nat.div_lt_self (by omega) (by omega)
      have hlast := digitValue?_digitChar (Nat.mod_lt n (by omega : 0 < base)) hhigh
      rw [digits_of_le hlow (Nat.le_of_not_lt hn), natOfDigits, natOfDigitsFrom_append,
        ← natOfDigits, ih _ hdiv]
      simpa [natOfDigitsFrom, hlast] using Nat.div_add_mod' n base

theorem readNat?_digits (n : Nat) : readNat? base (digits base n) = some n := by
  have hdigits : (digits base n).all (fun c => (digitValue? base c).isSome) :=
    List.all_eq_true.mpr fun c hc => isSome_digitValue?_of_mem_digits hlow hhigh hc
  rw [readNat?, if_pos ⟨digits_ne_nil hlow n, hdigits⟩, natOfDigits_digits hlow hhigh]

omit hhigh in
/-- A number below a power of the base has at most as many digits as the exponent says. -/
theorem length_digits_le {n count : Nat} (hcount : 0 < count) (hn : n < base ^ count) :
    (digits base n).length ≤ count := by
  induction count generalizing n with
  | zero => omega
  | succ count ih =>
    by_cases hsmall : n < base
    · rw [digits_of_lt hsmall]
      exact Nat.succ_le_succ (Nat.zero_le count)
    · have hdiv : n / base < base ^ count :=
        Nat.div_lt_of_lt_mul (by rwa [Nat.pow_succ, Nat.mul_comm] at hn)
      have hpos : 0 < count := by
        apply Nat.pos_of_ne_zero
        rintro rfl
        rw [Nat.zero_add, Nat.pow_one] at hn
        omega
      rw [digits_of_le hlow (Nat.le_of_not_lt hsmall), List.length_append, List.length_singleton]
      exact Nat.succ_le_succ (ih hpos hdiv)

end

theorem decimal_ne_nil (n : Nat) : decimal n ≠ [] := digits_ne_nil (by decide) n

theorem isDigit_of_mem_decimal {n : Nat} {c : Char} (hc : c ∈ decimal n) : isDigit c :=
  isSome_digitValue?_of_mem_digits (by decide) (by decide) hc

/-- A decimal numeral begins with a digit. -/
theorem exists_decimal_eq_cons (n : Nat) : ∃ c cs, decimal n = c :: cs ∧ isDigit c := by
  obtain ⟨c, cs, hdecimal⟩ := List.exists_cons_of_ne_nil (decimal_ne_nil n)
  exact ⟨c, cs, hdecimal, isDigit_of_mem_decimal (hdecimal ▸ List.mem_cons_self)⟩

theorem natOfDigits_decimal (n : Nat) : natOfDigits 10 (decimal n) = n :=
  natOfDigits_digits (by decide) (by decide) n

theorem readNat?_decimal (n : Nat) : readNat? 10 (decimal n) = some n :=
  readNat?_digits (by decide) (by decide) n

/-- Ten times a number has one more digit, a zero. -/
theorem decimal_mul_ten {n : Nat} (hn : n ≠ 0) : decimal (n * 10) = decimal n ++ ['0'] := by
  have hdiv : n * 10 / 10 = n := Nat.mul_div_cancel n (by decide)
  have hmod : n * 10 % 10 = 0 := Nat.mul_mod_left n 10
  rw [decimal, digits_of_le (by decide) (by omega), hdiv, hmod]
  rfl

theorem lt_ten_pow_length_decimal (n : Nat) : n < 10 ^ (decimal n).length := by
  induction n using Nat.strongRecOn with
  | ind n ih =>
    by_cases hn : n < 10
    · simpa [decimal, digits_of_lt hn] using hn
    · have hdiv : n / 10 < 10 ^ (decimal (n / 10)).length := ih _ (by omega)
      rw [decimal, digits_of_le (by decide) (Nat.le_of_not_lt hn), ← decimal, List.length_append,
        List.length_singleton, Nat.pow_succ]
      omega

theorem ten_pow_length_decimal_le {n : Nat} (hn : n ≠ 0) :
    10 ^ ((decimal n).length - 1) ≤ n := by
  induction n using Nat.strongRecOn with
  | ind n ih =>
    by_cases hsmall : n < 10
    · have hpos : 1 ≤ n := Nat.pos_of_ne_zero hn
      simpa [decimal, digits_of_lt hsmall] using hpos
    · have hdiv : 10 ^ ((decimal (n / 10)).length - 1) ≤ n / 10 := ih _ (by omega) (by omega)
      have hlength : 0 < (decimal (n / 10)).length := List.length_pos_iff.mpr (decimal_ne_nil _)
      obtain ⟨count, hcount⟩ := Nat.exists_eq_add_of_lt hlength
      rw [decimal, digits_of_le (by decide) (Nat.le_of_not_lt hsmall), ← decimal,
        List.length_append, List.length_singleton, Nat.add_sub_cancel, hcount]
      rw [hcount] at hdiv
      simp only [Nat.zero_add, Nat.add_sub_cancel] at hdiv ⊢
      rw [Nat.pow_succ]
      omega

/-- A text that begins with a digit has no sign. -/
theorem takeSign_of_isDigit {c : Char} (hc : isDigit c) (cs : List Char) :
    takeSign (c :: cs) = (false, c :: cs) := by
  unfold takeSign
  split
  · next rest heq =>
    cases heq
    exact absurd hc (by decide)
  · next rest heq =>
    cases heq
    exact absurd hc (by decide)
  · rfl

theorem takeSign_decimal (n : Nat) (cs : List Char) :
    takeSign (decimal n ++ cs) = (false, decimal n ++ cs) := by
  obtain ⟨c, tail, hdecimal, hc⟩ := exists_decimal_eq_cons n
  rw [hdecimal, List.cons_append, takeSign_of_isDigit hc]

/-- The sign of an integer and its digits, whatever follows them. -/
theorem takeSign_signedDecimal (n : Int) (cs : List Char) :
    takeSign (signedDecimal n ++ cs) = (decide (n < 0), decimal n.natAbs ++ cs) := by
  unfold signedDecimal
  by_cases hn : n < 0
  · rw [if_pos hn, decide_eq_true hn]
    rfl
  · rw [if_neg hn, decide_eq_false hn, takeSign_decimal]

theorem readInt?_signedDecimal (n : Int) : readInt? (signedDecimal n) = some n := by
  have hsign := takeSign_signedDecimal n []
  rw [List.append_nil, List.append_nil] at hsign
  have hvalue : (if n < 0 then -(n.natAbs : Int) else (n.natAbs : Int)) = n := by omega
  simpa [readInt?, hsign, readNat?_decimal] using hvalue

/-- A text with a character that is no digit is no integer. -/
theorem readInt?_eq_none {cs : List Char} {c : Char} (hc : c ∈ (takeSign cs).2)
    (hdigit : isDigit c = false) : readInt? cs = none := by
  have hall : ¬ (takeSign cs).2.all (fun c => (digitValue? 10 c).isSome) := by
    rw [List.all_eq_true]
    intro hall
    have hsome : isDigit c := hall c hc
    rw [hdigit] at hsome
    cases hsome
  have hnone : readNat? 10 (takeSign cs).2 = none := if_neg fun h => hall h.2
  simp [readInt?, hnone]

end DualCall.Text
