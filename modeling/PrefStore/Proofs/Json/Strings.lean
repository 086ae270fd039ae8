import PrefStore.Json.Read
import PrefStore.Json.Text

/-!
# Strings in JSON text

The text of an array of strings reads back as that array, whatever the strings hold. A control
character without an escape of its own comes back as a code unit, every other character as
itself; the reader is allowed more steps than the text has items.
-/

namespace PrefStore.Json

private theorem hexValue?_hexDigit : ∀ n < 16, hexValue? (hexDigit n) = some n := by
  decide

/-- The characters with an escape of their own. -/
def shortEscapes : List Char := ['"', '\\', '\n', '\r', '\t', '\x08', '\x0c']

/-- The piece that is read for a character of a quoted string. -/
def pieceOf (c : Char) : Piece :=
  if c.toNat < 0x20 ∧ c ∉ shortEscapes then .unit c.toNat else .char c

private theorem readPieces_escape {rest rest' : List Char} {pieces : List Piece}
    (h : readPieces rest = some (pieces, rest')) (c : Char) :
    readPieces (escape c ++ rest) = some (pieceOf c :: pieces, rest') := by
  by_cases hshort : c ∈ shortEscapes
  · simp only [shortEscapes, List.mem_cons, List.not_mem_nil, or_false] at hshort
    rcases hshort with rfl | rfl | rfl | rfl | rfl | rfl | rfl <;>
      simp [escape, readPieces, h, pieceOf, shortEscapes]
  · have hother := hshort
    simp only [shortEscapes, List.mem_cons, List.not_mem_nil, or_false, not_or] at hother
    obtain ⟨hquote, hslash, hn, hr, ht, hb, hf⟩ := hother
    by_cases hcontrol : c.toNat < 0x20
    · have hhigh := hexValue?_hexDigit (c.toNat / 16) (by omega)
      have hlow := hexValue?_hexDigit (c.toNat % 16) (by omega)
      have hunit : unit? '0' '0' (hexDigit (c.toNat / 16)) (hexDigit (c.toNat % 16)) =
          some c.toNat := by
        simp only [unit?, hhigh, hlow, show hexValue? '0' = some 0 from by decide]
        simp
        omega
      simp [escape, hquote, hslash, hn, hr, ht, hb, hf, hcontrol, readPieces, h, hunit, pieceOf,
        hshort]
    · have hself : escape c = [c] := by
        simp [escape, hquote, hslash, hn, hr, ht, hb, hf, hcontrol]
      have hpiece : pieceOf c = .char c := by simp [pieceOf, hcontrol]
      rw [hself, hpiece, List.singleton_append, readPieces.eq_def]
      split
      · next heq => cases heq
      · next heq => exact absurd (List.cons.inj heq).1 hquote
      · next heq => exact absurd (List.cons.inj heq).1 hslash
      · next heq => exact absurd (List.cons.inj heq).1 hslash
      · next heq =>
        obtain ⟨rfl, rfl⟩ := List.cons.inj heq
        rw [if_neg hcontrol, h]
        rfl

private theorem readPieces_escapes (cs rest : List Char) :
    readPieces (cs.flatMap escape ++ '"' :: rest) = some (cs.map pieceOf, rest) := by
  induction cs with
  | nil => rfl
  | cons c cs ih =>
    rw [List.flatMap_cons, List.append_assoc, List.map_cons]
    exact readPieces_escape ih c

private theorem joinPieces_map_pieceOf (cs : List Char) :
    joinPieces (cs.map pieceOf) = some cs := by
  induction cs with
  | nil => rfl
  | cons c cs ih =>
    rw [List.map_cons]
    by_cases hc : c.toNat < 0x20 ∧ c ∉ shortEscapes
    · have hpiece : pieceOf c = .unit c.toNat := by simp [pieceOf, hc]
      have hlow : ¬(0xD800 ≤ c.toNat ∧ c.toNat < 0xDC00) := by omega
      have hhigh : ¬(0xDC00 ≤ c.toNat ∧ c.toNat < 0xE000) := by omega
      have hpair : ¬(0xD800 ≤ c.toNat ∧ c.toNat < 0xE000) := by omega
      rw [hpiece]
      cases hrest : cs.map pieceOf with
      | nil =>
        rw [hrest] at ih
        simp_all [joinPieces]
      | cons piece pieces =>
        rw [hrest] at ih
        cases piece with
        | char =>
          rw [joinPieces, if_neg hpair, ih, Option.map_some, Char.ofNat_toNat]
          simp
        | unit =>
          rw [joinPieces, if_neg hlow, if_neg hhigh, ih, Option.map_some, Char.ofNat_toNat]
    · have hpiece : pieceOf c = .char c := by simp [pieceOf, hc]
      simp [hpiece, joinPieces, ih]

/-- A quoted string reads back. -/
theorem readString_quoted (s : String) (rest : List Char) :
    readString (s.toList.flatMap escape ++ '"' :: rest) = some (s, rest) := by
  simp [readString, readPieces_escapes, joinPieces_map_pieceOf]

private theorem toList_quote (s : String) :
    (quote s).toList = '"' :: (s.toList.flatMap escape ++ ['"']) := by
  simp [quote]

/-- Reading a quoted string takes one step. -/
theorem readValue_quote (s : String) (steps : Nat) (rest : List Char) :
    readValue (steps + 1) ((quote s).toList ++ rest) = some (.str s, rest) := by
  have hread := readString_quoted s rest
  simp only [toList_quote, List.cons_append, List.append_assoc]
  simp [readValue, skipBlank, hread]

private theorem readItems_strings (s : String) (items : List String) (steps : Nat)
    (hsteps : items.length < steps) (rest : List Char) :
    readItems (steps + 1) ((itemsText ((s :: items).map .str)).toList ++ ']' :: rest) =
      some ((s :: items).map .str, rest) := by
  induction items generalizing s steps with
  | nil =>
    obtain ⟨steps, rfl⟩ := Nat.exists_eq_succ_of_ne_zero (Nat.ne_of_gt hsteps)
    simp [itemsText, text, readItems, readValue_quote, skipBlank]
  | cons next items ih =>
    obtain ⟨steps, rfl⟩ := Nat.exists_eq_succ_of_ne_zero (Nat.ne_of_gt (Nat.zero_lt_of_lt hsteps))
    have hrest := ih next steps (by simp at hsteps; omega)
    have htext : (itemsText ((s :: next :: items).map .str)).toList =
        (quote s).toList ++ ',' :: (itemsText ((next :: items).map .str)).toList := by
      simp [itemsText, text]
    rw [htext, List.append_assoc, readItems, readValue_quote]
    simp only [List.map_cons] at hrest
    simp [skipBlank, hrest]

private theorem itemsText_strings (s : String) (items : List String) :
    ∃ rest, (itemsText ((s :: items).map .str)).toList = '"' :: rest ∧
      items.length < rest.length := by
  induction items generalizing s with
  | nil => exact ⟨_, by simp [itemsText, text, toList_quote]; rfl, by simp⟩
  | cons next items ih =>
    obtain ⟨rest, hrest, hlength⟩ := ih next
    refine ⟨s.toList.flatMap escape ++ '"' :: ',' :: '"' :: rest, ?_, by simp; omega⟩
    simp only [List.map_cons] at hrest
    simp [itemsText, text, toList_quote, hrest]

/-- Reading an array of strings takes two steps more than it has items. -/
theorem readValue_ofStrings (items : List String) (steps : Nat) (hsteps : items.length ≤ steps)
    (rest : List Char) :
    readValue (steps + 2) ('[' :: ((itemsText (items.map .str)).toList ++ ']' :: rest)) =
      some (ofStrings items, rest) := by
  cases items with
  | nil => simp [readValue, skipBlank, itemsText, ofStrings]
  | cons s items =>
    obtain ⟨front, hfront, -⟩ := itemsText_strings s items
    have hitems := readItems_strings s items steps hsteps rest
    rw [hfront] at hitems ⊢
    simp only [List.cons_append] at hitems ⊢
    simp [readValue, skipBlank, hitems, ofStrings]

/-- An array of strings reads back from its text. -/
theorem read?_ofStrings (items : List String) :
    read? (ofStrings items).text = some (ofStrings items) := by
  have htext : (ofStrings items).text.toList =
      '[' :: ((itemsText (items.map .str)).toList ++ [']']) := by
    simp [ofStrings, text]
  have hlength : items.length ≤ 2 * (ofStrings items).text.toList.length := by
    rw [htext]
    cases items with
    | nil => simp
    | cons s items =>
      obtain ⟨front, hfront, hlt⟩ := itemsText_strings s items
      rw [hfront]
      simp
      omega
  have hread := readValue_ofStrings items _ hlength []
  rw [← htext] at hread
  dsimp only [read?]
  rw [hread]
  rfl

/-- The strings of an array of strings. -/
theorem strings?_ofStrings (items : List String) : (ofStrings items).strings? = some items := by
  induction items with
  | nil => rfl
  | cons s items ih =>
    simp only [ofStrings, strings?, List.map_cons, List.mapM_cons] at ih ⊢
    simp [ih]

/-- The strings of a tree are those that it is the array of. -/
theorem strings?_eq_some_iff {json : Json} {strings : List String} :
    json.strings? = some strings ↔ json = ofStrings strings := by
  constructor
  · intro h
    cases json with
    | arr items =>
      suffices hitems : items = strings.map .str by rw [hitems, ofStrings]
      dsimp only [strings?] at h
      induction items generalizing strings with
      | nil =>
        cases h
        rfl
      | cons item rest ih =>
        rw [List.mapM_cons] at h
        obtain ⟨s, hitem, h⟩ := Option.bind_eq_some_iff.1 h
        obtain ⟨others, hrest, h⟩ := Option.bind_eq_some_iff.1 h
        cases h
        cases item with
        | str =>
          cases hitem
          rw [ih hrest, List.map_cons]
        | null | bool | num | arr | obj => cases hitem
    | null | bool | num | str | obj => cases h
  · rintro rfl
    exact strings?_ofStrings strings

end PrefStore.Json
