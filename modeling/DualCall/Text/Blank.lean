namespace DualCall.Text

/-- The ranges of code points that have the Unicode property White_Space. -/
def blankRanges : List (Nat × Nat) :=
  [(0x09, 0x0d), (0x20, 0x20), (0x85, 0x85), (0xa0, 0xa0), (0x1680, 0x1680), (0x2000, 0x200a),
    (0x2028, 0x2029), (0x202f, 0x202f), (0x205f, 0x205f), (0x3000, 0x3000)]

/-- A character of one of the blank ranges. -/
def isBlank (c : Char) : Bool :=
  blankRanges.any fun range => range.1 ≤ c.toNat && c.toNat ≤ range.2

/-- The text without the blanks at its start. -/
def trimStart (cs : List Char) : List Char :=
  cs.dropWhile isBlank

/-- The text without the blanks at its end. -/
def trimEnd (cs : List Char) : List Char :=
  (cs.reverse.dropWhile isBlank).reverse

/-- The text without the blanks at either end. -/
def trim (cs : List Char) : List Char :=
  trimEnd (trimStart cs)

/-- The maximal runs of characters that are not blank, in order. -/
def words (cs : List Char) : List (List Char) :=
  match h : cs.dropWhile isBlank with
  | [] => []
  | c :: rest =>
    have : (rest.dropWhile (!isBlank ·)).length < cs.length := by
      have hstart := (List.dropWhile_suffix (l := cs) isBlank).length_le
      have hword := (List.dropWhile_suffix (l := rest) (!isBlank ·)).length_le
      rw [h, List.length_cons] at hstart
      omega
    (c :: rest.takeWhile (!isBlank ·)) :: words (rest.dropWhile (!isBlank ·))
termination_by cs.length

/-- The words of a text with exactly one space between neighbours. -/
def unwords (ws : List (List Char)) : List Char :=
  [' '].intercalate ws

end DualCall.Text
