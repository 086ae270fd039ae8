/-!
# Blank characters

The characters with the Unicode property White_Space and those of them in ASCII text, and the
removal of either class at the two ends of a string.
-/

namespace PrefStore

/-- The White_Space property. -/
def isBlank (c : Char) : Bool :=
  let n := c.toNat
  (0x09 ≤ n && n ≤ 0x0D) || n = 0x20 || n = 0x85 || n = 0xA0 || n = 0x1680 ||
    (0x2000 ≤ n && n ≤ 0x200A) || n = 0x2028 || n = 0x2029 || n = 0x202F || n = 0x205F ||
    n = 0x3000

/-- The blanks of ASCII text are among them. -/
theorem isBlank_of_isWhitespace {c : Char} (h : c.isWhitespace = true) : isBlank c = true := by
  simp only [Char.isWhitespace, Bool.or_eq_true, decide_eq_true_eq] at h
  rcases h with ((rfl | rfl) | rfl) | rfl <;> decide

/-- The blanks of ASCII text. -/
def isSpace (c : Char) : Bool := c = ' ' || (0x09 ≤ c.toNat && c.toNat ≤ 0x0D)

/-- The blanks of ASCII text are blanks. -/
theorem isBlank_of_isSpace {c : Char} (h : isSpace c = true) : isBlank c = true := by
  simp only [isSpace, Bool.or_eq_true, decide_eq_true_eq, Bool.and_eq_true] at h
  rcases h with rfl | h
  · decide
  · simp [isBlank, h]

/-- Drops the characters of a class at both ends. -/
def trimWhere (drops : Char → Bool) (s : String) : String :=
  String.ofList (((s.toList.dropWhile drops).reverse.dropWhile drops).reverse)

/-- Drops the blanks at both ends. -/
def trimBlank (s : String) : String := trimWhere isBlank s

/-- Drops the blanks of ASCII text at both ends. -/
def trimSpace (s : String) : String := trimWhere isSpace s

end PrefStore
