/-!
# Sorted dictionaries

Entries are kept in strictly ascending key order, keys being compared by their code points.
`Assoc` works on plain lists of pairs; `Dict` carries the order, so two dictionaries with the
same entries are equal.
-/

namespace PrefStore

namespace Assoc

variable {α : Type}

/-- The keys of a list of pairs strictly ascend. -/
def Ascending (entries : List (String × α)) : Prop :=
  entries.Pairwise fun a b => a.1 < b.1

instance (entries : List (String × α)) : Decidable (Ascending entries) :=
  inferInstanceAs (Decidable (List.Pairwise _ _))

/-- The value at a key. -/
def get? (key : String) : List (String × α) → Option α
  | [] => none
  | (k, v) :: rest => if k = key then some v else get? key rest

/-- Puts a value at a key, in place of an earlier one. -/
def insert (key : String) (value : α) : List (String × α) → List (String × α)
  | [] => [(key, value)]
  | (k, v) :: rest =>
    if k = key then (key, value) :: rest
    else if key < k then (key, value) :: (k, v) :: rest
    else (k, v) :: insert key value rest

/-- Drops a key. -/
def erase (key : String) (entries : List (String × α)) : List (String × α) :=
  entries.filter fun entry => entry.1 ≠ key

/-- The dictionary of a list in any order, a later pair replacing an earlier one. -/
def ofList (entries : List (String × α)) : List (String × α) :=
  entries.foldl (fun sorted entry => insert entry.1 entry.2 sorted) []

/-- A key of the list after an insertion is the new key or was there before. -/
theorem mem_insert {key : String} {value : α} {entries : List (String × α)}
    {entry : String × α} (h : entry ∈ insert key value entries) :
    entry = (key, value) ∨ entry ∈ entries := by
  induction entries with
  | nil => simpa [insert] using h
  | cons head rest ih =>
    obtain ⟨k, v⟩ := head
    unfold insert at h
    split at h
    · rcases List.mem_cons.1 h with h | h
      · exact .inl h
      · exact .inr (List.mem_cons_of_mem _ h)
    · split at h
      · exact List.mem_cons.1 h
      · rcases List.mem_cons.1 h with h | h
        · exact .inr (h ▸ List.mem_cons_self)
        · exact (ih h).imp_right (List.mem_cons_of_mem _)

/-- Insertion keeps the order. -/
theorem Ascending.insert {entries : List (String × α)} (h : Ascending entries)
    (key : String) (value : α) : Ascending (Assoc.insert key value entries) := by
  induction entries with
  | nil => exact List.pairwise_singleton _ _
  | cons head rest ih =>
    obtain ⟨k, v⟩ := head
    obtain ⟨below, sorted⟩ := List.pairwise_cons.1 h
    unfold Assoc.insert
    split
    · next same =>
      subst same
      exact List.pairwise_cons.2 ⟨below, sorted⟩
    · next differ =>
      split
      · next less =>
        refine List.pairwise_cons.2 ⟨fun entry mem => ?_, h⟩
        rcases List.mem_cons.1 mem with rfl | mem
        · exact less
        · exact String.lt_trans less (below entry mem)
      · next notLess =>
        refine List.pairwise_cons.2 ⟨fun entry mem => ?_, ih sorted⟩
        rcases mem_insert mem with rfl | mem
        · exact Std.lt_of_le_of_ne (String.not_lt.1 notLess) differ
        · exact below entry mem

/-- Erasure keeps the order. -/
theorem Ascending.erase {entries : List (String × α)} (h : Ascending entries)
    (key : String) : Ascending (Assoc.erase key entries) :=
  h.filter _

end Assoc

/-- A dictionary from strings, with its entries in ascending key order. -/
structure Dict (α : Type) where
  entries : List (String × α)
  ascending : Assoc.Ascending entries

namespace Dict

variable {α β : Type}

/-- The dictionary with no entry. -/
def empty : Dict α := ⟨[], List.Pairwise.nil⟩

instance : Inhabited (Dict α) := ⟨empty⟩

instance [DecidableEq α] : DecidableEq (Dict α) := fun a b =>
  decidable_of_iff (a.entries = b.entries)
    ⟨fun h => by cases a; cases b; simpa using h, fun h => by rw [h]⟩

/-- Dictionaries with the same entries are equal. -/
theorem ext_entries {a b : Dict α} (h : a.entries = b.entries) : a = b := by
  cases a; cases b; simpa using h

/-- The value at a key. -/
def get? (d : Dict α) (key : String) : Option α := Assoc.get? key d.entries

/-- Whether a key has a value. -/
def contains (d : Dict α) (key : String) : Bool := (d.get? key).isSome

/-- The keys, ascending. -/
def keys (d : Dict α) : List String := d.entries.map Prod.fst

/-- Puts a value at a key, in place of an earlier one. -/
def insert (d : Dict α) (key : String) (value : α) : Dict α :=
  ⟨Assoc.insert key value d.entries, d.ascending.insert key value⟩

/-- Drops a key. -/
def erase (d : Dict α) (key : String) : Dict α :=
  ⟨Assoc.erase key d.entries, d.ascending.erase key⟩

/-- Keeps the entries whose key passes a test. -/
def filterKeys (d : Dict α) (keep : String → Bool) : Dict α :=
  ⟨d.entries.filter fun entry => keep entry.1, d.ascending.filter _⟩

/-- Changes every value and no key. -/
def mapValues (d : Dict α) (change : α → β) : Dict β :=
  ⟨d.entries.map fun entry => (entry.1, change entry.2), by
    simpa [Assoc.Ascending, List.pairwise_map] using d.ascending⟩

/-- The dictionary of a list in any order, a later pair replacing an earlier one. -/
def ofList (entries : List (String × α)) : Dict α :=
  entries.foldl (fun d entry => d.insert entry.1 entry.2) empty

end Dict

/-- A set of strings is a dictionary without values. -/
abbrev StringSet := Dict Unit

namespace StringSet

/-- The members, ascending. -/
def items (s : StringSet) : List String := s.keys

/-- Adds a member. -/
def add (s : StringSet) (item : String) : StringSet := s.insert item ()

/-- The set of the strings of a list. -/
def ofList (items : List String) : StringSet := items.foldl add Dict.empty

/-- The keys of a dictionary. -/
def ofKeys {α : Type} (d : Dict α) : StringSet := d.mapValues fun _ => ()

end StringSet

end PrefStore
