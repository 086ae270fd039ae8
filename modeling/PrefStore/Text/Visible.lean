import PrefStore.Text.Invisible

/-!
# Strings in reports

A report shows a string in quotes with every character visible: a quote and a backslash are
escaped, the usual controls have short escapes, and any other character that leaves no mark of
its own is given by its code point.
-/

namespace PrefStore

/-- A number in lower-case hexadecimal without leading zeros. -/
def hexText (n : Nat) : String := String.ofList (Nat.toDigits 16 n)

/-- A character as a report shows it. -/
def visibleChar (c : Char) : String :=
  if c = '"' then "\\\""
  else if c = '\\' then "\\\\"
  else if c = '\t' then "\\t"
  else if c = '\n' then "\\n"
  else if c = '\r' then "\\r"
  else if c = '\x00' then "\\0"
  else if isVisible c then String.singleton c
  else "\\u\x7b" ++ hexText c.toNat ++ "\x7d"

/-- A string as a report shows it. -/
def visible (s : String) : String :=
  "\"" ++ String.join (s.toList.map visibleChar) ++ "\""

end PrefStore
