import PrefStore.Proofs.Merge.Edits
import PrefStore.Proofs.Merge.KeyByKey

/-!
# Layers laid twice, and layers laid on nothing

Overrides without list edits have the same effect twice as once. Laid on nothing, overrides are
used up, but for the edits of a list whose key has itself a plus sign at an end: of a doubled
sign one is read and the other one stays. The trees that stay as they are when laid on nothing
are those without nulls and without any plus sign at an end of a key, and laying on nothing
gives such a tree exactly if no doubled sign takes effect.
-/

namespace PrefStore

namespace Merge

open Json

/-- A key without a plus sign at its ends. -/
def isPlain (key : String) : Bool := !startsPlus key && !endsPlus key

/-- The objects of a tree: itself and those that stand in it as values of objects. Items of
lists are not reached. -/
inductive Reached : Fields → Fields → Prop where
  | self (top : Fields) : Reached top top
  | value {key : String} {top inner fields : Fields} (hmem : (key, .obj inner) ∈ top)
      (h : Reached inner fields) : Reached top fields

/-- Every field of every object of a tree has a property. -/
def Throughout (p : String × Json → Prop) (top : Fields) : Prop :=
  ∀ fields, Reached top fields → ∀ field ∈ fields, p field

/-- A property holds throughout a tree if it holds of the fields of the tree and throughout each
object among the values. -/
theorem throughout_iff {p : String × Json → Prop} {top : Fields} :
    Throughout p top ↔ (∀ field ∈ top, p field) ∧
      ∀ key inner, (key, .obj inner) ∈ top → Throughout p inner := by
  constructor
  · intro h
    exact ⟨h top (.self top), fun key inner hmem fields hreached =>
      h fields (.value hmem hreached)⟩
  · rintro ⟨hfields, hvalues⟩ fields hreached
    cases hreached with
    | self => exact hfields
    | value hmem hreached => exact hvalues _ _ hmem fields hreached

/-! ## Keys and their plus signs -/

/-- A plain key is read as itself. -/
theorem target?_of_isPlain {key : String} (h : isPlain key = true) :
    target? key = some (key, .set) :=
  target?_eq_some_iff.2 ⟨h, rfl⟩

private theorem target?_of_isInert {key : String} (h : isInert key = true) :
    target? key = none := by
  simp only [isInert, Bool.and_eq_true] at h
  simp [target?_eq, h]

/-! ## Overrides without list edits -/

/-- No override in an object of the tree edits a list: each key has no plus sign at its ends, or
one at both. -/
def Editless : Fields → Prop :=
  Throughout fun field => isPlain field.1 = true ∨ isInert field.1 = true

/-- Overrides without list edits find nothing in a list role. -/
theorem Editless.found_eq_none {top : Fields} (h : Editless top) (key : String) {role : Role}
    (hrole : role ≠ .set) : found key top role = none := by
  refine Option.eq_none_iff_forall_ne_some.2 fun value hfound => ?_
  obtain ⟨hadmits, hvalue⟩ := found_eq_some_iff.1 hfound
  have htarget := target?_eq_some_iff.2 ⟨hadmits, rfl⟩
  rcases (throughout_iff.1 h).1 _ (Assoc.mem_of_get? hvalue) with hplain | hinert
  · rw [target?_of_isPlain hplain] at htarget
    exact hrole (congrArg Prod.snd (Option.some.inj htarget)).symm
  · rw [target?_of_isInert hinert] at htarget
    cases htarget

/-- Overrides without list edits leave at a key what their plain override leaves. -/
theorem Editless.get?_layer {top : Fields} (h : Editless top) (htop : Assoc.Ascending top)
    (base : Fields) (key : String) : Assoc.get? key (layer top base) =
      Role.set.act layer (Assoc.get? key base) (found key top .set) := by
  have hfront : found key top .prepend = none := h.found_eq_none key (by decide)
  have hbehind : found key top .append = none := h.found_eq_none key (by decide)
  rw [get?_layer_eq htop, hfront, hbehind]
  exact (settle_of_nil layer _ _ _ _).trans (edit_nil _)

private theorem tidy_baseOf {held : Option Json} (h : TidyAt held) : (obj (baseOf held)).Tidy := by
  unfold baseOf
  split
  · exact h _ rfl
  · exact ⟨List.Pairwise.nil, trivial⟩

private theorem act_set_act_set {held value : Option Json} (hheld : TidyAt held)
    (hmerge : ∀ fields, value = some (.obj fields) → ∀ base, (obj base).Tidy →
      layer fields (layer fields base) = layer fields base) :
    Role.set.act layer (Role.set.act layer held value) value = Role.set.act layer held value := by
  rcases Role.act_set_cases layer value with
    ⟨-, hact⟩ | ⟨inner, hinner, hact⟩ | ⟨leaf, -, -, -, hact⟩
  · rw [hact, hact]
  · rw [hact, hact, baseOf, hmerge inner hinner _ (tidy_baseOf hheld)]
  · rw [hact, hact]

/-- Overrides without list edits leave the same when they are laid twice, whatever they meet. -/
theorem layer_twice_is_layer_once {top base : Fields} (htop : (obj top).Tidy)
    (hbase : (obj base).Tidy) (h : Editless top) :
    layer top (layer top base) = layer top base := by
  have honce := tidy_layer top htop.2 hbase
  refine Assoc.ext_get? (tidy_layer top htop.2 honce).1 honce.1 fun key => ?_
  rw [h.get?_layer htop.1, h.get?_layer htop.1]
  refine act_set_act_set (tidyAt_get? hbase.2 key) fun fields hfields base hbase => ?_
  obtain ⟨-, hvalue⟩ := found_eq_some_iff.1 hfields
  have hsmaller := sizeOf_lt_of_get? hvalue
  exact layer_twice_is_layer_once (tidyAt_get? htop.2 _ _ hvalue) hbase
    ((throughout_iff.1 h).2 _ _ (Assoc.mem_of_get? hvalue))
termination_by sizeOf top

/-- Overrides with a null, with both signs around a key and with objects in objects. The plus
sign inside the list is no operator. -/
def editless : Fields :=
  [("+off+", .obj [("off", .null)]), ("a", .null),
    ("b", .obj [("++", .str "off"), ("c", .obj [("d", .arr [.obj [("+e", .null)]])])])]

/-- Two layers of the same overrides, over an object that has a text where they have an object. -/
theorem editless_twice : (obj editless).Tidy ∧ (obj [("b", .obj [("c", .str "text")])]).Tidy ∧
    Editless editless ∧
    layer editless (layer editless [("b", .obj [("c", .str "text")])]) =
      [("b", .obj [("c", .obj [("d", .arr [.obj [("+e", .null)]])])])] := by
  have htop : (obj editless).Tidy :=
    ⟨by decide, ⟨by decide, trivial, trivial⟩, trivial,
      ⟨by decide, trivial, ⟨by decide, ⟨⟨by decide, trivial, trivial⟩, trivial⟩, trivial⟩, trivial⟩,
      trivial⟩
  have hbase : (obj [("b", .obj [("c", .str "text")])]).Tidy :=
    ⟨by decide, ⟨by decide, trivial, trivial⟩, trivial⟩
  have heditless : Editless editless := by
    refine throughout_iff.2 ⟨by decide, fun key inner hmem => ?_⟩
    simp only [editless, List.mem_cons, Prod.mk.injEq, reduceCtorEq, and_false, obj.injEq,
      List.not_mem_nil, or_false, false_or] at hmem
    rcases hmem with ⟨-, rfl⟩ | ⟨-, rfl⟩
    · exact throughout_iff.2 ⟨by decide, by simp⟩
    · refine throughout_iff.2 ⟨by decide, fun key inner hmem => ?_⟩
      simp only [List.mem_cons, Prod.mk.injEq, reduceCtorEq, and_false, obj.injEq,
        List.not_mem_nil, or_false, false_or] at hmem
      obtain ⟨-, rfl⟩ := hmem
      exact throughout_iff.2 ⟨by decide, by simp⟩
  refine ⟨htop, hbase, heditless, ?_⟩
  rw [layer_twice_is_layer_once htop hbase heditless]
  rfl

/-! ## Trees laid on nothing -/

/-- Laid on nothing, a tidy tree is tidy. -/
theorem tidy_layer_nil {top : Fields} (h : (obj top).Tidy) : (obj (layer top [])).Tidy :=
  tidy_layer top h.2 ⟨List.Pairwise.nil, trivial⟩

/-- No list edit of a key takes effect after its plain override. -/
def Kept (key : String) (top : Fields) : Prop :=
  ∀ role : Role, role.admits key = true → key < role.spelling key →
    asList (Assoc.get? (role.spelling key) top) = []

private theorem kept_iff {key : String} {top : Fields} :
    Kept key top ↔ asList (found key top .append) = [] ∧
      (plainFirst key = true → asList (found key top .prepend) = []) := by
  constructor
  · intro h
    have hitems (role : Role) (hlt : key < role.spelling key) :
        asList (found key top role) = [] := by
      by_cases hadmits : role.admits key = true
      · rw [found_of_admits hadmits]
        exact h role hadmits hlt
      · rw [found, meant, if_neg hadmits]
        rfl
    exact ⟨hitems .append (lt_plus key), fun hfirst =>
      hitems .prepend (plainFirst_iff.1 hfirst)⟩
  · rintro ⟨hbehind, hfront⟩ role hadmits hlt
    rw [← found_of_admits hadmits]
    cases role with
    | prepend => exact hfront (plainFirst_iff.2 hlt)
    | set => exact absurd hlt (String.lt_irrefl key)
    | append => exact hbehind

private theorem act_set_eq_some_obj_iff {held value : Option Json} {fields : Fields}
    (hheld : ∀ base, held ≠ some (.obj base)) :
    Role.set.act layer held value = some (.obj fields) ↔
      ∃ inner, value = some (.obj inner) ∧ layer inner [] = fields := by
  have hbase : baseOf held = [] := by
    unfold baseOf
    split
    · exact absurd rfl (hheld _)
    · rfl
  rcases Role.act_set_cases layer value with
    ⟨hnull, hact⟩ | ⟨inner, rfl, hact⟩ | ⟨leaf, rfl, -, hleaf, hact⟩
  · rw [hact]
    rcases hnull with rfl | rfl <;> simp [hheld]
  · rw [hact, hbase]
    simp
  · rw [hact]
    simp [hleaf]

/-- The objects in a tree laid on nothing are those in the tree, laid on nothing, where no list
edit follows. -/
theorem get?_layer_nil_eq_some_obj_iff {top : Fields} (h : Assoc.Ascending top) {key : String}
    {fields : Fields} : Assoc.get? key (layer top []) = some (.obj fields) ↔
      isPlain key = true ∧ Kept key top ∧
        ∃ inner, Assoc.get? key top = some (.obj inner) ∧ layer inner [] = fields := by
  have hset (inner : Fields) : found key top .set = some (.obj inner) ↔
      isPlain key = true ∧ Assoc.get? key top = some (.obj inner) := found_eq_some_iff
  have hedit (front behind : List Json) (base : Fields) :
      edit front behind none ≠ some (.obj base) := by
    simp [edit_eq_some_obj_iff]
  have hnone (base : Fields) : (none : Option Json) ≠ some (.obj base) := by simp
  rw [get?_layer_eq h, kept_iff, Assoc.get?_nil, settle]
  by_cases hfirst : plainFirst key = true
  · rw [if_pos hfirst, edit_eq_some_obj_iff, act_set_eq_some_obj_iff hnone]
    simp only [hset, hfirst, true_imp_iff]
    constructor
    · rintro ⟨hfront, hbehind, inner, ⟨hplain, hinner⟩, heq⟩
      exact ⟨hplain, ⟨hbehind, hfront⟩, inner, hinner, heq⟩
    · rintro ⟨hplain, ⟨hbehind, hfront⟩, inner, hinner, heq⟩
      exact ⟨hfront, hbehind, inner, ⟨hplain, hinner⟩, heq⟩
  · rw [if_neg hfirst, edit_eq_some_obj_iff, act_set_eq_some_obj_iff (hedit _ _)]
    simp only [hset, hfirst, Bool.false_eq_true, false_imp_iff, true_and, and_true]
    constructor
    · rintro ⟨hbehind, inner, ⟨hplain, hinner⟩, heq⟩
      exact ⟨hplain, hbehind, inner, hinner, heq⟩
    · rintro ⟨hplain, hbehind, inner, hinner, heq⟩
      exact ⟨hbehind, inner, ⟨hplain, hinner⟩, heq⟩

private theorem edit_ne_null {held : Option Json} (h : held ≠ some .null)
    (front behind : List Json) : edit front behind held ≠ some .null := by
  by_cases hitems : front = [] ∧ behind = []
  · obtain ⟨rfl, rfl⟩ := hitems
    rwa [edit_nil]
  · rw [edit_of_ne hitems]
    simp

private theorem act_set_ne_null {held : Option Json} (h : held ≠ some .null) (value : Option Json) :
    Role.set.act layer held value ≠ some .null := by
  rcases Role.act_set_cases layer value with
    ⟨-, hact⟩ | ⟨inner, -, hact⟩ | ⟨leaf, -, hnull, -, hact⟩
  · rwa [hact]
  · rw [hact]
    simp
  · rw [hact]
    exact fun heq => hnull (Option.some.inj heq)

private theorem get?_layer_nil_ne_null {top : Fields} (h : Assoc.Ascending top) (key : String) :
    Assoc.get? key (layer top []) ≠ some .null := by
  rw [get?_layer_eq h, Assoc.get?_nil, settle]
  have hnone : (none : Option Json) ≠ some .null := by simp
  split
  · exact edit_ne_null (act_set_ne_null hnone _) _ _
  · exact edit_ne_null (act_set_ne_null (edit_ne_null hnone _ _) _) _ _

private theorem get?_layer_of_not_plain {top : Fields} (h : Assoc.Ascending top) (base : Fields)
    {key : String} (hplain : isPlain key = false) :
    Assoc.get? key (layer top base) = edit (asList (found key top .prepend))
      (asList (found key top .append)) (Assoc.get? key base) := by
  have hadmits : ¬Role.set.admits key = true := Bool.eq_false_iff.1 hplain
  have hset : found key top .set = none := if_neg hadmits
  rw [get?_layer_eq h, hset]
  exact settle_of_null layer _ _ _ (.inl rfl) _

/-- Laid on nothing, a tree has something at a key with a plus sign at an end exactly if an
override that is meant for the key has items. -/
theorem get?_layer_nil_ne_none_iff {top : Fields} (h : Assoc.Ascending top) {key : String}
    (hplain : isPlain key = false) :
    Assoc.get? key (layer top []) ≠ none ↔ ∃ role : Role,
      role.admits key = true ∧ asList (Assoc.get? (role.spelling key) top) ≠ [] := by
  have hitems (role : Role) : asList (found key top role) ≠ [] ↔
      role.admits key = true ∧ asList (Assoc.get? (role.spelling key) top) ≠ [] := by
    by_cases hadmits : role.admits key = true
    · simp [found_of_admits hadmits, hadmits]
    · simp [found, meant, hadmits, asList]
  rw [get?_layer_of_not_plain h [] hplain, Assoc.get?_nil]
  constructor
  · intro hne
    by_cases hfront : asList (found key top .prepend) = []
    · have hbehind : asList (found key top .append) ≠ [] := fun hbehind =>
        hne (by rw [hfront, hbehind, edit_nil])
      exact ⟨.append, (hitems .append).1 hbehind⟩
    · exact ⟨.prepend, (hitems .prepend).1 hfront⟩
  · rintro ⟨role, hrole⟩
    have hne : ¬(asList (found key top .prepend) = [] ∧ asList (found key top .append) = []) := by
      rintro ⟨hfront, hbehind⟩
      have hfound := (hitems role).2 hrole
      cases role with
      | prepend => exact hfound hfront
      | set => exact Bool.eq_false_iff.1 hplain hrole.1
      | append => exact hfound hbehind
    rw [edit_of_ne hne]
    exact Option.some_ne_none _

/-! ### What is left of doubled signs -/

/-- Laid on nothing, a tree leaves a plus sign at an end of a key: an override that is meant for
a key with such a sign has items to add to it, in the tree or in an object that is kept. -/
inductive Leftover : Fields → Prop where
  | edit {key aim : String} {role : Role} {value : Json} {top : Fields}
      (hmem : (key, value) ∈ top) (htarget : target? key = some (aim, role))
      (hplain : isPlain aim = false) (hitems : asList (some value) ≠ []) : Leftover top
  | value {key : String} {inner top : Fields} (hmem : (key, .obj inner) ∈ top)
      (hplain : isPlain key = true) (hkept : Kept key top) (h : Leftover inner) : Leftover top

/-- No object of a tree has a key with a plus sign at an end. -/
def Resolved : Fields → Prop := Throughout fun field => isPlain field.1 = true

/-- What holds of the fields of every tree laid on nothing holds throughout it, also under a
condition that the kept objects inherit. -/
theorem throughout_layer_nil {p : String × Json → Prop} (condition : Fields → Prop)
    (hfields : ∀ top : Fields, (obj top).Tidy → condition top → ∀ field ∈ layer top [], p field)
    (hvalue : ∀ (top : Fields) (key : String) (inner : Fields), condition top →
      (key, .obj inner) ∈ top → isPlain key = true → Kept key top → condition inner)
    {top : Fields} (htop : (obj top).Tidy) (h : condition top) : Throughout p (layer top []) := by
  refine throughout_iff.2 ⟨hfields top htop h, fun key fields hmem => ?_⟩
  have htidy := tidy_layer_nil htop
  have hheld := Assoc.get?_of_mem htidy.1 hmem
  obtain ⟨hplain, hkept, inner, hinner, rfl⟩ := (get?_layer_nil_eq_some_obj_iff htop.1).1 hheld
  have hsmaller := sizeOf_lt_of_get? hinner
  exact throughout_layer_nil condition hfields hvalue (tidyAt_get? htop.2 _ _ hinner)
    (hvalue top key inner h (Assoc.mem_of_get? hinner) hplain hkept)
termination_by sizeOf top

/-- What is left over stays in the tree. -/
theorem Leftover.not_resolved {top : Fields} (h : Leftover top) (htop : (obj top).Tidy) :
    ¬Resolved (layer top []) := by
  induction h with
  | @edit key aim role value top hmem htarget hplain hitems =>
    obtain ⟨hadmits, rfl⟩ := target?_eq_some_iff.1 htarget
    have hvalue := Assoc.get?_of_mem htop.1 hmem
    have hne := (get?_layer_nil_ne_none_iff htop.1 hplain).2
      ⟨role, hadmits, by rwa [hvalue]⟩
    obtain ⟨left, hleft⟩ := Option.ne_none_iff_exists'.1 hne
    intro hresolved
    have hplain' := (throughout_iff.1 hresolved).1 _ (Assoc.mem_of_get? hleft)
    exact Bool.eq_false_iff.1 hplain hplain'
  | @value key inner top hmem hplain hkept _ ih =>
    have hinner := Assoc.get?_of_mem htop.1 hmem
    have hheld := (get?_layer_nil_eq_some_obj_iff htop.1).2 ⟨hplain, hkept, inner, hinner, rfl⟩
    intro hresolved
    exact ih (tidyAt_get? htop.2 _ _ hinner)
      ((throughout_iff.1 hresolved).2 _ _ (Assoc.mem_of_get? hheld))

/-- If nothing is left over, then no plus sign stays at an end of a key. -/
theorem resolved_of_not_leftover {top : Fields} (htop : (obj top).Tidy) (h : ¬Leftover top) :
    Resolved (layer top []) := by
  refine throughout_layer_nil (fun top => ¬Leftover top) ?_ ?_ htop h
  · rintro top htop h ⟨key, value⟩ hmem
    have htidy := tidy_layer_nil htop
    have hheld := Assoc.get?_of_mem htidy.1 hmem
    by_contra hplain
    have hplain' : isPlain key = false := Bool.eq_false_iff.2 hplain
    have hne : Assoc.get? key (layer top []) ≠ none := by
      rw [hheld]
      exact Option.some_ne_none value
    obtain ⟨role, hadmits, hitems⟩ := (get?_layer_nil_ne_none_iff htop.1 hplain').1 hne
    cases hfound : Assoc.get? (role.spelling key) top with
    | none => exact hitems (by rw [hfound]; rfl)
    | some value =>
      rw [hfound] at hitems
      have htarget := target?_eq_some_iff.2 ⟨hadmits, rfl⟩
      exact h (.edit (Assoc.mem_of_get? hfound) htarget hplain' hitems)
  · exact fun top key inner h hmem hplain hkept hinner => h (.value hmem hplain hkept hinner)

/-! ### Trees that stay as they are -/

/-- A tree without nulls and without plus signs at the ends of keys. -/
def Settled : Fields → Prop :=
  Throughout fun field => isPlain field.1 = true ∧ field.2 ≠ .null

/-- Laid on nothing, a tree is settled as soon as it has no plus signs at the ends of keys. -/
theorem settled_layer_nil_iff {top : Fields} (htop : (obj top).Tidy) :
    Settled (layer top []) ↔ Resolved (layer top []) := by
  have hnull : Throughout (fun field => field.2 ≠ .null) (layer top []) := by
    refine throughout_layer_nil (fun _ => True) ?_ (fun _ _ _ _ _ _ _ => trivial)
      htop trivial
    rintro top htop - ⟨key, value⟩ hmem rfl
    have htidy := tidy_layer_nil htop
    exact get?_layer_nil_ne_null htop.1 key (Assoc.get?_of_mem htidy.1 hmem)
  exact ⟨fun h fields hreached field hmem => (h fields hreached field hmem).1,
    fun h fields hreached field hmem =>
      ⟨h fields hreached field hmem, hnull fields hreached field hmem⟩⟩

private theorem spelling_longer {role : Role} (h : role ≠ .set) (key : String) :
    isPlain (role.spelling key) = false ∧ (role.spelling key).length = key.length + 1 := by
  have hone : "+".length = 1 := rfl
  cases role with
  | set => exact absurd rfl h
  | prepend =>
    have hstarts : startsPlus ("+" ++ key) = true := startsPlus_iff.2 ⟨key, rfl⟩
    simp [isPlain, Role.spelling, hstarts, hone, Nat.add_comm]
  | append =>
    have hends : endsPlus (key ++ "+") = true := endsPlus_iff.2 ⟨key, rfl⟩
    simp [isPlain, Role.spelling, hends, hone]

/-- A tree that stays as it is has no key with a plus sign at an end: such a key would be left of
a longer one, and that of a longer one still. -/
private theorem isPlain_of_layer_nil_eq {tree : Fields} (htree : Assoc.Ascending tree)
    (h : layer tree [] = tree) : ∀ field ∈ tree, isPlain field.1 = true := by
  have hbound (key : String) (value : Json) (hvalue : Assoc.get? key tree = some value) :
      key.length ≤ (tree.map (·.1.length)).max?.getD 0 :=
    List.le_max?_getD_of_mem (List.mem_map.2 ⟨_, Assoc.mem_of_get? hvalue, rfl⟩)
  have habsent (n : Nat) (key : String)
      (hlength : (tree.map (·.1.length)).max?.getD 0 < key.length + n)
      (hplain : isPlain key = false) : Assoc.get? key tree = none := by
    induction n generalizing key with
    | zero =>
      refine Option.eq_none_iff_forall_ne_some.2 fun value hvalue => ?_
      have := hbound key value hvalue
      omega
    | succ n ih =>
      by_contra hne
      rw [← h] at hne
      obtain ⟨role, hadmits, hitems⟩ := (get?_layer_nil_ne_none_iff htree hplain).1 hne
      have hrole : role ≠ .set := by
        rintro rfl
        exact Bool.eq_false_iff.1 hplain hadmits
      obtain ⟨hlonger, hlength'⟩ := spelling_longer hrole key
      exact hitems (by rw [ih _ (by omega) hlonger]; rfl)
  rintro ⟨key, value⟩ hmem
  by_contra hplain
  have hheld := Assoc.get?_of_mem htree hmem
  rw [habsent ((tree.map (·.1.length)).max?.getD 0 + 1) key (by omega)
    (Bool.eq_false_iff.2 hplain)] at hheld
  cases hheld

/-- A tree that stays as it is when laid on nothing is settled. -/
theorem settled_of_layer_nil_eq {tree : Fields} (htree : (obj tree).Tidy)
    (h : layer tree [] = tree) : Settled tree := by
  refine throughout_iff.2 ⟨?_, fun key inner hmem => ?_⟩
  · rintro ⟨key, value⟩ hmem
    have hheld := Assoc.get?_of_mem htree.1 hmem
    refine ⟨isPlain_of_layer_nil_eq htree.1 h _ hmem, ?_⟩
    rintro rfl
    rw [← h] at hheld
    exact get?_layer_nil_ne_null htree.1 key hheld
  · have hheld := Assoc.get?_of_mem htree.1 hmem
    have hheld' := hheld
    rw [← h] at hheld'
    obtain ⟨-, -, inner', hinner', hlayer⟩ := (get?_layer_nil_eq_some_obj_iff htree.1).1 hheld'
    rw [hheld] at hinner'
    cases hinner'
    have hsmaller := sizeOf_lt_of_get? hheld
    exact settled_of_layer_nil_eq (tidyAt_get? htree.2 _ _ hheld) hlayer
termination_by sizeOf tree

/-- A settled tree stays as it is when laid on nothing. -/
theorem layer_nil_of_settled {tree : Fields} (htree : (obj tree).Tidy) (h : Settled tree) :
    layer tree [] = tree := by
  have htidy := tidy_layer_nil htree
  have heditless : Editless tree := fun fields hreached field hmem =>
    .inl (h fields hreached field hmem).1
  refine Assoc.ext_get? htidy.1 htree.1 fun key => ?_
  rw [heditless.get?_layer htree.1, Assoc.get?_nil]
  cases hheld : Assoc.get? key tree with
  | none =>
    have hfound : found key tree .set = none := by
      refine Option.eq_none_iff_forall_ne_some.2 fun value hfound => ?_
      cases hheld.symm.trans (found_eq_some_iff.1 hfound).2
    rw [hfound, Role.act_none]
  | some value =>
    obtain ⟨hplain, hnull⟩ := (throughout_iff.1 h).1 _ (Assoc.mem_of_get? hheld)
    have hfound : found key tree .set = some value := found_eq_some_iff.2 ⟨hplain, hheld⟩
    rw [hfound]
    rcases Role.act_set_cases layer (some value) with
      ⟨hnone, -⟩ | ⟨inner, hinner, hact⟩ | ⟨leaf, hleaf, -, -, hact⟩
    · simp [hnull] at hnone
    · cases hinner
      have hsmaller := sizeOf_lt_of_get? hheld
      have hsame := layer_nil_of_settled (tidyAt_get? htree.2 _ _ hheld)
        ((throughout_iff.1 h).2 _ _ (Assoc.mem_of_get? hheld))
      exact (hact none).trans (congrArg (fun fields => some (obj fields)) hsame)
    · rw [hact, hleaf]
termination_by sizeOf tree

/-- Laid on nothing, a tree has no plus sign at an end of a key exactly if no doubled sign leaves
one, and it stays as it is from then on exactly if it has none. -/
theorem layer_on_nothing_resolves_iff {top : Fields} (htop : (obj top).Tidy) :
    (Resolved (layer top []) ↔ ¬Leftover top) ∧
      (layer (layer top []) [] = layer top [] ↔ Resolved (layer top [])) := by
  have htidy := tidy_layer_nil htop
  refine ⟨⟨fun h hleft => hleft.not_resolved htop h, resolved_of_not_leftover htop⟩, ?_⟩
  rw [← settled_layer_nil_iff htop]
  exact ⟨settled_of_layer_nil_eq htidy, layer_nil_of_settled htidy⟩

/-- Doubled signs that leave nothing: one without items, and one in an object that goes into a
list. -/
def doubled : Fields :=
  [("a", .obj [("++b", .arr []), ("+b", .str "b"), ("c", .null)]),
    ("d", .obj [("++e", .str "e")]), ("d+", .str "last")]

/-- A tree with doubled signs that leaves none. -/
theorem doubled_resolves : (obj doubled).Tidy ∧
    layer doubled [] = [("a", .obj [("b", .arr [.str "b"])]),
      ("d", .arr [.obj [("+e", .arr [.str "e"])], .str "last"])] ∧
    layer (layer doubled []) [] = layer doubled [] ∧
    Resolved (layer doubled []) ∧ ¬Leftover doubled := by
  have htidy : (obj doubled).Tidy :=
    ⟨by decide, ⟨by decide, trivial, trivial, trivial, trivial⟩, ⟨by decide, trivial, trivial⟩,
      trivial, trivial⟩
  obtain ⟨hleft, hagain⟩ := layer_on_nothing_resolves_iff htidy
  have hsame : layer (layer doubled []) [] = layer doubled [] := rfl
  exact ⟨htidy, rfl, hsame, hagain.1 hsame, hleft.1 (hagain.1 hsame)⟩

/-- A doubled sign leaves one, which is read the next time. -/
theorem doubled_sign_leaves_one : (obj [("++list", .str "item")]).Tidy ∧
    ¬Resolved (layer [("++list", .str "item")] []) ∧
    layer (layer [("++list", .str "item")] []) [] ≠ layer [("++list", .str "item")] [] := by
  have hlayer : layer [("++list", .str "item")] [] = [("+list", .arr [.str "item"])] := rfl
  have hagain : layer [("+list", .arr [.str "item"])] [] = [("list", .arr [.str "item"])] := rfl
  refine ⟨⟨by decide, trivial, trivial⟩, fun h => ?_, ?_⟩
  · rw [hlayer] at h
    have hplain : isPlain "+list" = true := (throughout_iff.1 h).1 _ List.mem_cons_self
    exact absurd hplain (by decide)
  · rw [hlayer, hagain]
    simp

end Merge

end PrefStore
