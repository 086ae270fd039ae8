import PrefStore.Proofs.Merge.Renaming

/-!
# What the spelling of a name decides

Of the overrides for a name only the plain one and the one in front of a list are sensitive to
their order, and they are so whenever both take effect: items that are added first are lost.
Their order hangs on the first character of the name, which stands before the plus sign or after
it. So layering commutes with a renaming exactly if no name with both overrides is moved across
the plus sign, at any depth.
-/

namespace PrefStore

namespace Merge

open Json

/-! ## The order of two overrides -/

section Order

variable (merge : Fields → Fields → Fields)

private theorem length_asList_act_set (held : Option Json) {value : Json} (hnull : value ≠ .null) :
    (asList (Role.set.act merge held (some value))).length = (asList (some value)).length := by
  rcases Role.act_set_cases merge (some value) with
    ⟨hnone, -⟩ | ⟨inner, hinner, hact⟩ | ⟨leaf, hleaf, -, -, hact⟩
  · simp [hnull] at hnone
  · rw [hact, hinner]
    rfl
  · rw [hact, hleaf]

/-- How many items are left of a plain override and one edit: those in front are lost unless the
plain override comes first. -/
private theorem length_asList_settle (first : Bool) (front behind : List Json) (held : Option Json)
    {value : Json} (hnull : value ≠ .null) :
    (asList (settle merge first front behind (some value) held)).length =
      (if first then front.length else 0) + (asList (some value)).length + behind.length := by
  cases first with
  | true =>
    simp only [settle, if_true, asList_edit, List.length_append]
    rw [length_asList_act_set merge held hnull]
  | false =>
    simp only [settle, Bool.false_eq_true, if_false, asList_edit, List.length_append,
      List.length_nil]
    rw [length_asList_act_set merge _ hnull]

/-- It makes a difference whether the plain override comes first exactly if it takes effect and
there are items in front. -/
theorem settle_eq_settle_iff (first other : Bool) (front behind : List Json)
    (plain held : Option Json) :
    settle merge first front behind plain held = settle merge other front behind plain held ↔
      first = other ∨ (plain = none ∨ plain = some .null) ∨ front = [] := by
  constructor
  · intro h
    by_cases hplain : plain = none ∨ plain = some .null
    · exact .inr (.inl hplain)
    · obtain ⟨value, rfl⟩ := Option.ne_none_iff_exists'.1 fun hnone => hplain (.inl hnone)
      have hnull : value ≠ .null := fun hnull => hplain (.inr (congrArg some hnull))
      have hlength := congrArg (fun left => (asList left).length) h
      simp only [length_asList_settle merge _ _ _ _ hnull] at hlength
      by_cases hfront : front = []
      · exact .inr (.inr hfront)
      · have hpos := List.length_pos_iff.2 hfront
        left
        cases first <;> cases other <;>
          simp only [if_true, if_false, Bool.false_eq_true, reduceCtorEq] at hlength ⊢ <;> omega
  · rintro (rfl | hplain | rfl)
    · rfl
    · rw [settle_of_null merge first front behind hplain,
        settle_of_null merge other front behind hplain]
    · rw [settle_of_nil, settle_of_nil]

end Order

/-! ## Renaming what overrides leave -/

section Rename

variable (rename : String → String)

/-- The list of something renamed is the renamed list. -/
theorem asList_map (held : Option Json) :
    asList (held.map (renameTree rename)) = (asList held).map (renameTree rename) := by
  cases held with
  | none => rfl
  | some value =>
    cases value with
    | arr items => exact renameItems_eq rename items
    | null | bool | num | str | obj => rfl

/-- An edit by renamed items leaves what the edit leaves, renamed. -/
theorem edit_map (front behind : List Json) (held : Option Json) :
    edit (front.map (renameTree rename)) (behind.map (renameTree rename))
      (held.map (renameTree rename)) = (edit front behind held).map (renameTree rename) := by
  by_cases h : front = [] ∧ behind = []
  · obtain ⟨rfl, rfl⟩ := h
    rw [List.map_nil, edit_nil, edit_nil]
  · have hmap : ¬(front.map (renameTree rename) = [] ∧ behind.map (renameTree rename) = []) := by
      simpa using h
    rw [edit_of_ne h, edit_of_ne hmap, asList_map, Option.map_some, renameTree, renameItems_eq,
      List.map_append, List.map_append]

/-- An object is merged into the object that is held, or into the empty one. -/
theorem act_set_obj_eq (merge : Fields → Fields → Fields) (held : Option Json) (inner : Fields) :
    Role.set.act merge held (some (.obj inner)) = some (.obj (merge inner (baseOf held))) := by
  cases held with
  | none => rfl
  | some value => cases value <;> rfl

private theorem baseOf_map (held : Option Json) :
    baseOf (held.map (renameTree rename)) = renameFields rename (baseOf held) := by
  cases held with
  | none => rfl
  | some value => cases value <;> rfl

private theorem baseOf_edit (front behind : List Json) (held : Option Json) :
    baseOf (edit front behind held) = baseOf held ∨ baseOf (edit front behind held) = [] := by
  by_cases h : front = [] ∧ behind = []
  · obtain ⟨rfl, rfl⟩ := h
    exact .inl (congrArg baseOf (edit_nil held))
  · rw [edit_of_ne h]
    exact .inr rfl

private theorem edit_obj_injective {front behind : List Json} {inner other : Fields}
    (h : edit front behind (some (.obj inner)) = edit front behind (some (.obj other))) :
    inner = other := by
  by_cases hitems : front = [] ∧ behind = []
  · obtain ⟨rfl, rfl⟩ := hitems
    simpa using h
  · rw [edit_of_ne hitems, edit_of_ne hitems] at h
    simpa [asList] using h

/-- Whether layering an object on a base commutes with the renaming. -/
def Commutes (inner base : Fields) : Prop :=
  layer (renameFields rename inner) (renameFields rename base) =
    renameFields rename (layer inner base)

private theorem act_set_map {plain held : Option Json}
    (h : ∀ inner, plain = some (.obj inner) → Commutes rename inner (baseOf held)) :
    Role.set.act layer (held.map (renameTree rename)) (plain.map (renameTree rename)) =
      (Role.set.act layer held plain).map (renameTree rename) := by
  cases plain with
  | none => rfl
  | some value =>
    cases value with
    | obj inner =>
      rw [Option.map_some, renameTree, act_set_obj_eq, act_set_obj_eq, baseOf_map,
        Option.map_some, renameTree, h inner rfl]
    | null | bool | num | str | arr => rfl

private theorem settle_map_of_order {first other : Bool} {front behind : List Json}
    {plain held : Option Json}
    (h : first = other ∨ (plain = none ∨ plain = some .null) ∨ front = []) :
    settle layer first (front.map (renameTree rename)) (behind.map (renameTree rename))
        (plain.map (renameTree rename)) (held.map (renameTree rename)) =
      settle layer other (front.map (renameTree rename)) (behind.map (renameTree rename))
        (plain.map (renameTree rename)) (held.map (renameTree rename)) := by
  refine (settle_eq_settle_iff layer _ _ _ _ _ _).2 (h.imp_right ?_)
  rintro ((rfl | rfl) | rfl)
  · exact .inl (.inl rfl)
  · exact .inl (.inr rfl)
  · exact .inr rfl

private theorem settle_map (first : Bool) (front behind : List Json) {plain held : Option Json}
    (h : ∀ inner base, plain = some (.obj inner) → base = baseOf held ∨ base = [] →
      Commutes rename inner base) :
    settle layer first (front.map (renameTree rename)) (behind.map (renameTree rename))
      (plain.map (renameTree rename)) (held.map (renameTree rename)) =
        (settle layer first front behind plain held).map (renameTree rename) := by
  cases first with
  | true =>
    have hset := act_set_map rename fun inner hinner => h inner _ hinner (.inl rfl)
    simp only [settle, if_true]
    rw [hset, edit_map]
  | false =>
    have hset := act_set_map rename fun inner hinner => h inner _ hinner
      (baseOf_edit front [] held)
    have hfront := edit_map rename front [] held
    have hbehind := edit_map rename [] behind
    simp only [List.map_nil] at hfront hbehind
    simp only [settle, Bool.false_eq_true, if_false]
    rw [hfront, hset, hbehind]

private theorem commutes_of_settle_map {first : Bool} {front behind : List Json} {inner : Fields}
    {held : Option Json}
    (h : settle layer first (front.map (renameTree rename)) (behind.map (renameTree rename))
      (some (.obj (renameFields rename inner))) (held.map (renameTree rename)) =
        (settle layer first front behind (some (.obj inner)) held).map (renameTree rename)) :
    ∃ base, (base = baseOf held ∨ base = []) ∧ Commutes rename inner base := by
  cases first with
  | true =>
    simp only [settle, if_true] at h
    rw [← edit_map, act_set_obj_eq, act_set_obj_eq, baseOf_map] at h
    exact ⟨baseOf held, .inl rfl, edit_obj_injective h⟩
  | false =>
    have hfront := edit_map rename front [] held
    have hbehind := edit_map rename [] behind
    simp only [List.map_nil] at hfront hbehind
    simp only [settle, Bool.false_eq_true, if_false] at h
    rw [← hbehind, hfront, act_set_obj_eq, act_set_obj_eq, baseOf_map] at h
    exact ⟨_, baseOf_edit front [] held, edit_obj_injective h⟩

end Rename

/-! ## Renaming layers -/

/-- A tree as it is read: fields in order and keys spelled over names. -/
structure Named (fields : Fields) : Prop where
  tidy : (obj fields).Tidy
  spelled : SpelledFields fields

/-- The empty object has no key to name. -/
theorem Named.nil : Named [] := ⟨⟨List.Pairwise.nil, trivial⟩, trivial⟩

/-- The keys of a named object are spelled over names. -/
theorem Named.isSpelled {fields : Fields} (h : Named fields) :
    ∀ field ∈ fields, IsSpelled field.1 :=
  fun field hmem => (spelledFields_iff.1 h.spelled field hmem).1

/-- An object that is a value of a named one is named. -/
theorem Named.value {fields inner : Fields} (h : Named fields) {key : String}
    (hinner : Assoc.get? key fields = some (.obj inner)) : Named inner :=
  ⟨tidyAt_get? h.tidy.2 key _ hinner,
    (spelledFields_iff.1 h.spelled _ (Assoc.mem_of_get? hinner)).2⟩

/-- The object held at a key of a named one is named. -/
theorem Named.baseOf {fields : Fields} (h : Named fields) (key : String) :
    Named (baseOf (Assoc.get? key fields)) := by
  unfold Merge.baseOf
  split
  · next inner hinner => exact h.value hinner
  · exact .nil

/-- At a key for which no override is meant layering changes nothing. -/
theorem get?_layer_of_found_eq_none {top : Fields} (h : Assoc.Ascending top) (base : Fields)
    {key : String} (hfound : ∀ role, found key top role = none) :
    Assoc.get? key (layer top base) = Assoc.get? key base := by
  rw [get?_layer_eq h, hfound, hfound, hfound]
  exact settle_of_null layer _ [] [] (.inl rfl) _ |>.trans (edit_nil _)

/-- Layering adds no key that is not spelled over a name. -/
theorem isSpelled_of_mem_layer {top base : Fields} (htop : Named top) (hbase : Named base) :
    ∀ field ∈ layer top base, IsSpelled field.1 := by
  rintro ⟨key, value⟩ hmem
  by_contra hspelled
  have hname : ¬IsName key := fun hname => hspelled hname.isSpelled
  have hheld := Assoc.get?_of_mem (tidy_layer top htop.tidy.2 hbase.tidy).1 hmem
  rw [get?_layer_of_found_eq_none htop.tidy.1 base
    (found_eq_none_of_not_isName htop.isSpelled hname)] at hheld
  exact hspelled (hbase.isSpelled _ (Assoc.mem_of_get? hheld))

/-- Whether the overrides that are found for a name commute with the renaming. -/
def CommutesAt (rename : String → String) (top base : Fields) (name : String) : Prop :=
  settle layer (plainFirst (rename name))
      ((asList (found name top .prepend)).map (renameTree rename))
      ((asList (found name top .append)).map (renameTree rename))
      ((found name top .set).map (renameTree rename))
      ((Assoc.get? name base).map (renameTree rename)) =
    (settle layer (plainFirst name) (asList (found name top .prepend))
      (asList (found name top .append)) (found name top .set) (Assoc.get? name base)).map
        (renameTree rename)

variable {rename : String → String} (hr : Renaming rename) {top base : Fields}
  (htop : Named top) (hbase : Named base)

include hr htop hbase

private theorem get?_layer_renameFields_of_ne {key : String}
    (h : ∀ name, IsName name → rename name ≠ key) :
    Assoc.get? key (layer (renameFields rename top) (renameFields rename base)) =
      Assoc.get? key (renameFields rename (layer top base)) := by
  have hnew := (tidy_renameFields rename top).1
  rw [get?_layer_of_found_eq_none hnew _ (found_renameFields_eq_none htop.isSpelled hr h)]
  by_cases himage : ∃ other, IsSpelled other ∧ renameKey rename other = key
  · obtain ⟨other, hother, rfl⟩ := himage
    have hname : ¬IsName other := fun hname =>
      h other hname (renameKey_spelling rename hname .set).symm
    rw [hr.get?_renameFields hbase.isSpelled hother,
      hr.get?_renameFields (isSpelled_of_mem_layer htop hbase) hother,
      get?_layer_of_found_eq_none htop.tidy.1 base
        (found_eq_none_of_not_isName htop.isSpelled hname)]
  · have hother (other : String) (hspelled : IsSpelled other) : renameKey rename other ≠ key :=
      fun heq => himage ⟨other, hspelled, heq⟩
    rw [get?_renameFields_eq_none hbase.isSpelled hother,
      get?_renameFields_eq_none (isSpelled_of_mem_layer htop hbase) hother]

/-- What renamed overrides leave at a renamed name. -/
theorem get?_layer_renameFields {name : String} (hname : IsName name) :
    Assoc.get? (rename name) (layer (renameFields rename top) (renameFields rename base)) =
      settle layer (plainFirst (rename name))
        ((asList (found name top .prepend)).map (renameTree rename))
        ((asList (found name top .append)).map (renameTree rename))
        ((found name top .set).map (renameTree rename))
        ((Assoc.get? name base).map (renameTree rename)) := by
  have hfound := hr.found_renameFields htop.isSpelled hname
  rw [get?_layer_eq (tidy_renameFields rename top).1, hfound, hfound, hfound, asList_map,
    asList_map, hr.get?_renameFields_name hbase.isSpelled hname]

/-- What overrides leave at a name, renamed. -/
theorem get?_renameFields_layer {name : String} (hname : IsName name) :
    Assoc.get? (rename name) (renameFields rename (layer top base)) =
      (settle layer (plainFirst name) (asList (found name top .prepend))
        (asList (found name top .append)) (found name top .set) (Assoc.get? name base)).map
          (renameTree rename) := by
  rw [hr.get?_renameFields_name (isSpelled_of_mem_layer htop hbase) hname,
    get?_layer_eq htop.tidy.1]

/-- Layering commutes with a renaming if it does so at every name. -/
theorem commutes_iff_at_names :
    Commutes rename top base ↔ ∀ name, IsName name → CommutesAt rename top base name := by
  constructor
  · intro h name hname
    rw [CommutesAt, ← get?_layer_renameFields hr htop hbase hname,
      ← get?_renameFields_layer hr htop hbase hname, h]
  · intro h
    have hlayer := tidy_layer _ (tidy_renameFields rename top).2 (tidy_renameFields rename base)
    refine Assoc.ext_get? hlayer.1 (tidy_renameFields rename _).1 fun key => ?_
    by_cases himage : ∃ name, IsName name ∧ rename name = key
    · obtain ⟨name, hname, rfl⟩ := himage
      rw [get?_layer_renameFields hr htop hbase hname, get?_renameFields_layer hr htop hbase hname,
        h name hname]
    · exact get?_layer_renameFields_of_ne hr htop hbase fun name hname heq =>
        himage ⟨name, hname, heq⟩

omit htop hbase

/-! ## Clashes -/

/-- A name that is moved across the plus sign has both a plain override and one in front of a
list that take effect, in the tree or in an object that is a value of it. -/
inductive Clash (rename : String → String) : Fields → Prop where
  | moved {name : String} {value : Json} {top : Fields} (hname : IsName name)
      (hmoved : plainFirst (rename name) ≠ plainFirst name)
      (hplain : Assoc.get? name top = some value) (hnull : value ≠ .null)
      (hitems : asList (Assoc.get? ("+" ++ name) top) ≠ []) : Clash rename top
  | value {name : String} {inner top : Fields} (hname : IsName name)
      (hinner : Assoc.get? name top = some (.obj inner)) (h : Clash rename inner) :
      Clash rename top

/-- Where layering commutes with a renaming, a name with both overrides is not moved: the items in
front would be lost on one side only. -/
theorem Commutes.plainFirst_eq (htop : Named top) (hbase : Named base)
    (h : Commutes rename top base) {name : String} (hname : IsName name) {value : Json}
    (hplain : Assoc.get? name top = some value) (hnull : value ≠ .null)
    (hitems : asList (Assoc.get? ("+" ++ name) top) ≠ []) :
    plainFirst (rename name) = plainFirst name := by
  have hfront : found name top .prepend = Assoc.get? ("+" ++ name) top := hname.found top .prepend
  have hset : found name top .set = some value := (hname.found top .set).trans hplain
  have hnull' : renameTree rename value ≠ .null := by
    cases value with
    | null => exact absurd rfl hnull
    | bool | num | str | arr | obj => simp [renameTree]
  have hvalue : (asList (some (renameTree rename value))).length =
      (asList (some value)).length := by
    rw [← Option.map_some, asList_map, List.length_map]
  have hat := congrArg (fun left => (asList left).length)
    ((commutes_iff_at_names hr htop hbase).1 h name hname)
  rw [← hfront] at hitems
  have hpos := List.length_pos_iff.2 hitems
  simp only [hset, Option.map_some, asList_map, List.length_map,
    length_asList_settle layer _ _ _ _ hnull, length_asList_settle layer _ _ _ _ hnull',
    hvalue] at hat
  by_contra hmoved
  -- The order that puts the plain override first keeps the items in front, the other loses them.
  cases hfirst : plainFirst name <;> cases hfirst' : plainFirst (rename name) <;>
    simp only [hfirst, hfirst', not_true_eq_false, if_true, if_false, Bool.false_eq_true]
      at hat hmoved <;>
    omega

/-- Overrides that clash do not commute with the renaming, whatever they are laid on. -/
theorem Clash.not_commutes (h : Clash rename top) (htop : Named top) (hbase : Named base) :
    ¬Commutes rename top base := by
  induction h generalizing base with
  | moved hname hmoved hplain hnull hitems =>
    exact fun hcommutes =>
      hmoved (hcommutes.plainFirst_eq hr htop hbase hname hplain hnull hitems)
  | @value name inner top hname hinner _ ih =>
    intro hcommutes
    have hset : found name top .set = some (.obj inner) := (hname.found top .set).trans hinner
    have hat := (commutes_iff_at_names hr htop hbase).1 hcommutes name hname
    -- Either the two orders are the same one, or nothing depends on them.
    have horder : plainFirst (rename name) = plainFirst name ∨
        (found name top .set = none ∨ found name top .set = some .null) ∨
          asList (found name top .prepend) = [] := by
      by_cases hitems : asList (found name top .prepend) = []
      · exact .inr (.inr hitems)
      · rw [hname.found] at hitems
        exact .inl (hcommutes.plainFirst_eq hr htop hbase hname hinner (by simp) hitems)
    rw [CommutesAt, settle_map_of_order rename horder, hset] at hat
    obtain ⟨base', hbase', hinner'⟩ := commutes_of_settle_map rename hat
    refine ih (htop.value hinner) ?_ hinner'
    rcases hbase' with rfl | rfl
    · exact hbase.baseOf name
    · exact .nil

omit hr

/-- Overrides that do not clash commute with the renaming, whatever they are laid on. -/
theorem commutes_of_not_clash (hr : Renaming rename) {top base : Fields} (htop : Named top)
    (hbase : Named base) (h : ¬Clash rename top) : Commutes rename top base := by
  refine (commutes_iff_at_names hr htop hbase).2 fun name hname => ?_
  have horder : plainFirst (rename name) = plainFirst name ∨
      (found name top .set = none ∨ found name top .set = some .null) ∨
        asList (found name top .prepend) = [] := by
    by_contra hmatters
    simp only [not_or] at hmatters
    obtain ⟨hmoved, ⟨hnone, hnull⟩, hitems⟩ := hmatters
    obtain ⟨value, hset⟩ := Option.ne_none_iff_exists'.1 hnone
    rw [hset, Option.some.injEq] at hnull
    rw [hname.found] at hset hitems
    exact h (.moved hname hmoved hset hnull hitems)
  rw [CommutesAt, settle_map_of_order rename horder]
  refine settle_map rename _ _ _ fun inner base' hset hbase' => ?_
  rw [hname.found] at hset
  have hsmaller := sizeOf_lt_of_get? hset
  refine commutes_of_not_clash hr (htop.value hset) ?_ fun hclash => h (.value hname hset hclash)
  rcases hbase' with rfl | rfl
  · exact hbase.baseOf name
  · exact .nil
termination_by sizeOf top

/-- Layering commutes with a renaming exactly if no name with both a plain override and items in
front is moved across the plus sign. The same three overrides have the same effect under two
names exactly if the names stand on one side of the plus sign, or the plain override is absent or
null, or there are no items in front. -/
theorem spelling_matters_only_across_plus :
    (∀ rename : String → String, Renaming rename → ∀ top base : Fields, Named top → Named base →
      (layer (renameFields rename top) (renameFields rename base) =
          renameFields rename (layer top base) ↔ ¬Clash rename top)) ∧
    ∀ name other : String, IsName name → IsName other → ∀ top top' base base' : Fields,
      Assoc.Ascending top → Assoc.Ascending top' →
      (∀ role : Role, Assoc.get? (role.spelling name) top =
        Assoc.get? (role.spelling other) top') →
      Assoc.get? name base = Assoc.get? other base' →
      (Assoc.get? name (layer top base) = Assoc.get? other (layer top' base') ↔
        plainFirst name = plainFirst other ∨
          (Assoc.get? name top = none ∨ Assoc.get? name top = some .null) ∨
          asList (Assoc.get? ("+" ++ name) top) = []) := by
  constructor
  · intro rename hr top base htop hbase
    exact ⟨fun hcommutes hclash => hclash.not_commutes hr htop hbase hcommutes,
      commutes_of_not_clash hr htop hbase⟩
  · intro name other hname hother top top' base base' htop htop' hroles hheld
    rw [get?_layer_eq htop, get?_layer_eq htop']
    simp only [hname.found, hother.found, ← hroles, ← hheld]
    exact settle_eq_settle_iff layer _ _ _ _ _ _

/-- Two names on different sides of the plus sign, each in place of the other. -/
def exchange (name : String) : String :=
  if name = "a" then "!" else if name = "!" then "a" else name

/-- An exchange of two names is a renaming. -/
theorem renaming_exchange : Renaming exchange where
  isName {name} h := by
    unfold exchange
    split
    · decide
    · split
      · decide
      · exact h
  injective {name other} _ _ heq := by
    unfold exchange at heq
    grind

/-- Overrides for the exchanged names without a clash: one name has items on both sides and no
plain override, the other one a plain override and items behind, and the name inside stays. -/
def orderly : Fields :=
  [("!+", .str "last"), ("+!", .str "first"),
    ("a", .obj [("+x", .arr [.obj [("+!", .null)]]), ("+y+", .null), ("x", .bool true)]),
    ("a+", .str "behind")]

/-- The three overrides for a name, in the order in which they stand for each of the two. -/
def threeForMark : Fields := [("!", .str "set"), ("!+", .str "last"), ("+!", .str "first")]

/-- The three overrides for the other name. -/
def threeForLetter : Fields := [("+a", .str "first"), ("a", .str "set"), ("a+", .str "last")]

/-- Overrides that have the same effect after an exchange of two names, and three that have not. -/
theorem exchange_of_orderly :
    Renaming exchange ∧ Named orderly ∧ Named [("!", .bool true), ("+b", .null)] ∧
    ¬Clash exchange orderly ∧
    Assoc.get? "!" (layer threeForMark []) ≠ Assoc.get? "a" (layer threeForLetter []) := by
  obtain ⟨hrename, hthree⟩ := spelling_matters_only_across_plus
  have htop : Named orderly := by
    constructor
    · exact ⟨by decide, trivial, trivial,
        ⟨by decide, ⟨⟨by decide, trivial, trivial⟩, trivial⟩, trivial, trivial, trivial⟩,
        trivial, trivial⟩
    · exact ⟨by decide, trivial, by decide, trivial,
        by decide, ⟨by decide, ⟨⟨by decide, trivial, trivial⟩, trivial⟩, by decide, trivial,
          by decide, trivial, trivial⟩,
        by decide, trivial, trivial⟩
  have hbase : Named [("!", .bool true), ("+b", .null)] :=
    ⟨⟨by decide, trivial, trivial, trivial⟩, ⟨by decide, trivial, by decide, trivial, trivial⟩⟩
  refine ⟨renaming_exchange, htop, hbase, ?_, ?_⟩
  · exact (hrename exchange renaming_exchange _ _ htop hbase).1 rfl
  · have heffect := hthree "!" "a" (by decide) (by decide) threeForMark threeForLetter [] []
      (by decide) (by decide) (fun role => by cases role <;> rfl) rfl
    rw [ne_eq, heffect]
    rintro (hside | (hnone | hnull) | hitems)
    · exact absurd hside (by decide)
    · simp [threeForMark, Assoc.get?] at hnone
    · simp [threeForMark, Assoc.get?] at hnull
    · simp [threeForMark, Assoc.get?, asList] at hitems

/-- A name that is moved across the plus sign keeps an item there that it lost before. -/
theorem exchange_changes_effect :
    Renaming exchange ∧ Named [("+a", .str "first"), ("a", .str "set")] ∧ Named [] ∧
    renameFields exchange [("+a", .str "first"), ("a", .str "set")] =
      [("!", .str "set"), ("+!", .str "first")] ∧
    layer [("!", .str "set"), ("+!", .str "first")] [] =
      [("!", .arr [.str "first", .str "set"])] ∧
    renameFields exchange (layer [("+a", .str "first"), ("a", .str "set")] []) =
      [("!", .str "set")] ∧
    layer (renameFields exchange [("+a", .str "first"), ("a", .str "set")])
        (renameFields exchange []) ≠
      renameFields exchange (layer [("+a", .str "first"), ("a", .str "set")] []) := by
  have hrenamed : renameFields exchange [("+a", .str "first"), ("a", .str "set")] =
      [("!", .str "set"), ("+!", .str "first")] := rfl
  have hkept : layer [("!", .str "set"), ("+!", .str "first")] [] =
      [("!", .arr [.str "first", .str "set"])] := rfl
  have hlost : renameFields exchange (layer [("+a", .str "first"), ("a", .str "set")] []) =
      [("!", .str "set")] := rfl
  have hnamed : Named [("+a", .str "first"), ("a", .str "set")] :=
    ⟨⟨by decide, trivial, trivial, trivial⟩, ⟨by decide, trivial, by decide, trivial, trivial⟩⟩
  refine ⟨renaming_exchange, hnamed, .nil, hrenamed, hkept, hlost, ?_⟩
  rw [hrenamed, hlost, renameFields, hkept]
  simp

end Merge

end PrefStore
