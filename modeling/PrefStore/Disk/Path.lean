/-!
# Paths and places

A path is text: names with slashes between them, counted from the root. A place is what a path
may lead to, given by the names down to it. An idle name, empty or a single dot, leads nowhere
else; two dots lead to the place above. The names of files and the length of a path are bounded.
-/

namespace PrefStore

/-- A place on a disk: the names down to it from the root, the innermost first. -/
abbrev Place := List String

/-- An idle name stays where it is. -/
def isIdle (name : String) : Bool := name = "" || name = "."

namespace Place

/-- The text by which a disk knows a place. -/
def text (place : Place) : String := String.join (place.reverse.map ("/" ++ ·))

/-- The place that a name leads to. -/
def step (place : Place) (name : String) : Place :=
  if isIdle name then place else if name = ".." then place.tail else name :: place

/-- The place of the same name with something appended. -/
def beside (ending : String) : Place → Place
  | [] => []
  | name :: above => (name ++ ending) :: above

/-- The journal that lies beside a database while it is changed in place. -/
def journal (place : Place) : Place := place.beside "-journal"

/-- The log that lies beside a database while changes are collected in it. -/
def log (place : Place) : Place := place.beside "-wal"

/-- The index of the log. -/
def logIndex (place : Place) : Place := place.beside "-shm"

end Place

/-- The most bytes of a name. -/
def nameLimit : Nat := 255

/-- The most bytes of a path. -/
def pathLimit : Nat := 4095

/-- Splits a text at its slashes. -/
def splitSlashes : List Char → List (List Char)
  | [] => [[]]
  | c :: cs =>
    match splitSlashes cs with
    | [] => []
    | part :: parts => if c = '/' then [] :: part :: parts else (c :: part) :: parts

/-- A text has at least one part. -/
theorem splitSlashes_ne_nil (cs : List Char) : splitSlashes cs ≠ [] := by
  induction cs with
  | nil => simp [splitSlashes]
  | cons c cs ih =>
    obtain ⟨part, parts, h⟩ := List.exists_cons_of_ne_nil ih
    simp only [splitSlashes, h]
    split <;> simp

/-- The names of a path, idle ones included. -/
def pathNames (path : String) : List String := (splitSlashes path.toList).map String.ofList

/-- Whether a path can be followed at all. -/
def isUsablePath (path : String) : Bool :=
  path.toList.all (· ≠ '\x00') && path.utf8ByteSize ≤ pathLimit

/-- Drops the idle names at the end. -/
def trimNames (names : List String) : List String := (names.reverse.dropWhile isIdle).reverse

/-- A path without the idle names at its two ends. -/
def trimPath (path : String) : String :=
  "/".intercalate (trimNames ((pathNames path).dropWhile isIdle))

/-- The path of the directory that a path names something in. -/
def parentPath (path : String) : String :=
  "/".intercalate (trimNames (trimNames (pathNames path)).dropLast)

/-- Whether the last name of a path, slashes at its end aside, is a single dot. -/
def endsIdly (path : String) : Bool :=
  ((pathNames path).filter (· ≠ "")).getLast? = some "."

end PrefStore
