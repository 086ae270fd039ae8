import PrefStore.Proofs.Merge.Lookup

/-!
# Layering, in terms of list edits

An override in front of a key and one behind it add up to one edit of a list, and edits add up
over layers. So what layering leaves at a key is said without the fold over its roles: a plain
override and one edit, where only the items in front may come before the plain override or after
it, as the spellings of the key are ordered.
-/

namespace PrefStore

namespace Merge

/-! ## Edits of a list -/

/-- Puts items in front of a list and behind it, unless there are none; nothing else makes a
list of what is held. -/
def edit (front behind : List Json) (held : Option Json) : Option Json :=
  if front = [] ∧ behind = [] then held else some (.arr (front ++ asList held ++ behind))

@[simp] theorem edit_nil (held : Option Json) : edit [] [] held = held := by simp [edit]

/-- An edit with an item leaves a list. -/
theorem edit_of_ne {front behind : List Json} (h : ¬(front = [] ∧ behind = []))
    (held : Option Json) :
    edit front behind held = some (.arr (front ++ asList held ++ behind)) :=
  if_neg h

@[simp] theorem asList_edit (front behind : List Json) (held : Option Json) :
    asList (edit front behind held) = front ++ asList held ++ behind := by
  by_cases h : front = [] ∧ behind = []
  · obtain ⟨rfl, rfl⟩ := h
    simp
  · rw [edit_of_ne h]
    rfl

/-- Two edits are one: the later items lie further out. -/
theorem edit_edit (front front' behind behind' : List Json) (held : Option Json) :
    edit front' behind' (edit front behind held) =
      edit (front' ++ front) (behind ++ behind') held := by
  by_cases h : front' = [] ∧ behind' = []
  · obtain ⟨rfl, rfl⟩ := h
    simp
  · have hboth : ¬(front' ++ front = [] ∧ behind ++ behind' = []) := by
      rw [List.append_eq_nil_iff, List.append_eq_nil_iff]
      rintro ⟨⟨hfront, -⟩, -, hbehind⟩
      exact h ⟨hfront, hbehind⟩
    rw [edit_of_ne h, edit_of_ne hboth, asList_edit]
    simp

/-- An object is what an edit leaves only if the object was there and nothing is added. -/
theorem edit_eq_some_obj_iff {front behind : List Json} {held : Option Json} {fields : Fields} :
    edit front behind held = some (.obj fields) ↔
      front = [] ∧ behind = [] ∧ held = some (.obj fields) := by
  by_cases h : front = [] ∧ behind = []
  · obtain ⟨rfl, rfl⟩ := h
    simp
  · rw [edit_of_ne h]
    simp only [Option.some.injEq, reduceCtorEq, false_iff]
    rintro ⟨hfront, hbehind, -⟩
    exact h ⟨hfront, hbehind⟩

/-! ## Roles as edits -/

/-- The object that an object is merged into: the one that is held, or the empty one. -/
def baseOf : Option Json → Fields
  | some (.obj fields) => fields
  | _ => []

namespace Role

variable (merge : Fields → Fields → Fields) (held : Option Json)

@[simp] theorem act_none (role : Role) : role.act merge held none = held := rfl

/-- Nothing and null override nothing. -/
theorem act_of_null (role : Role) {value : Option Json}
    (h : value = none ∨ value = some .null) : role.act merge held value = held := by
  rcases h with rfl | rfl <;> rfl

/-- A plain override is nothing or null and changes nothing, or it is an object and is merged
into the object that is held, or it replaces what is held. -/
theorem act_set_cases (value : Option Json) :
    ((value = none ∨ value = some .null) ∧ ∀ held, set.act merge held value = held) ∨
    (∃ inner, value = some (.obj inner) ∧
      ∀ held, set.act merge held value = some (.obj (merge inner (baseOf held)))) ∨
    ∃ leaf, value = some leaf ∧ leaf ≠ .null ∧ (∀ fields, leaf ≠ .obj fields) ∧
      ∀ held, set.act merge held value = some leaf := by
  obtain _ | value := value
  · exact .inl ⟨.inl rfl, fun _ => rfl⟩
  by_cases hnull : value = .null
  · subst hnull
    exact .inl ⟨.inr rfl, fun _ => rfl⟩
  by_cases hobj : ∃ inner, value = .obj inner
  · obtain ⟨inner, rfl⟩ := hobj
    refine .inr (.inl ⟨inner, rfl, fun held => ?_⟩)
    cases held with
    | none => rfl
    | some held => cases held <;> rfl
  · have hleaf : ∀ fields, value ≠ .obj fields := fun fields heq => hobj ⟨fields, heq⟩
    exact .inr (.inr ⟨value, rfl, hnull, hleaf, fun held => act_set hnull hleaf⟩)

/-- The items of an override are those that it would hold as a base. -/
theorem operand_eq {value : Json} (h : value ≠ .null) : operand value = asList (some value) := by
  cases value with
  | null => exact absurd rfl h
  | bool | num | str | arr | obj => rfl

/-- An override in front is an edit. -/
theorem act_prepend_eq_edit (value : Option Json) :
    prepend.act merge held value = edit (asList value) [] held := by
  obtain _ | value := value
  · exact (edit_nil held).symm
  by_cases hnull : value = .null
  · subst hnull
    exact (edit_nil held).symm
  rw [act_prepend hnull, operand_eq hnull]
  by_cases hitems : asList (some value) = []
  · rw [if_pos hitems, hitems, edit_nil]
  · rw [if_neg hitems, edit_of_ne (fun h => hitems h.1), List.append_nil]

/-- An override behind is an edit. -/
theorem act_append_eq_edit (value : Option Json) :
    append.act merge held value = edit [] (asList value) held := by
  obtain _ | value := value
  · exact (edit_nil held).symm
  by_cases hnull : value = .null
  · subst hnull
    exact (edit_nil held).symm
  rw [act_append hnull, operand_eq hnull]
  by_cases hitems : asList (some value) = []
  · rw [if_pos hitems, hitems, edit_nil]
  · rw [if_neg hitems, edit_of_ne (fun h => hitems h.2), List.nil_append]

end Role

/-! ## The order of the roles -/

/-- Whether the plain spelling of a key comes before the one with a plus sign in front. -/
def plainFirst (key : String) : Bool := key < "+" ++ key

/-- The order of the two spellings, as a proposition. -/
theorem plainFirst_iff {key : String} : plainFirst key = true ↔ key < "+" ++ key :=
  decide_eq_true_iff

/-- A key comes before its spelling with a plus sign behind. -/
theorem lt_plus (key : String) : key < key ++ "+" := by
  have hnil : ([] : List Char) < ['+'] := by decide
  have hlonger : key.toList ++ [] < key.toList ++ ['+'] := List.append_left_lt hnil
  rw [String.lt_iff, String.toList_append]
  simpa using hlonger

private theorem plus_lt_plus {key : String} (hne : key ≠ "") (hstarts : startsPlus key = false)
    (h : key < "+" ++ key) : key ++ "+" < "+" ++ key := by
  rw [String.lt_iff, String.toList_append] at h ⊢
  simp only [startsPlus, decide_eq_false_iff_not] at hstarts
  cases hkey : key.toList with
  | nil => exact absurd (by simpa using hkey) hne
  | cons c cs =>
    rw [hkey] at h hstarts
    have hc : c ≠ '+' := fun heq => hstarts (congrArg some heq)
    have hlt : c < '+' := by
      rcases List.cons_lt_cons_iff.1 h with hlt | ⟨heq, -⟩
      · exact hlt
      · exact absurd heq hc
    rw [String.toList_append, hkey]
    exact List.cons_lt_cons_iff.2 (.inl hlt)

/-- The three roles in the order of the spellings of a key. -/
def order (key : String) : List Role :=
  if plainFirst key then [.set, .append, .prepend] else [.prepend, .set, .append]

private theorem order_ascending (key : String) :
    ((order key).filter (·.admits key)).Pairwise fun r s => r.spelling key < s.spelling key := by
  rw [List.pairwise_filter, order]
  have hbehind := lt_plus key
  split
  · next hfirst =>
    have hfront : key < "+" ++ key := plainFirst_iff.1 hfirst
    simp only [List.pairwise_cons, List.mem_cons, List.not_mem_nil, or_false, forall_eq_or_imp,
      forall_eq, Role.spelling, List.Pairwise.nil, and_true, IsEmpty.forall_iff, implies_true]
    refine ⟨⟨fun _ _ => hbehind, fun _ _ => hfront⟩, fun happend _ => ?_⟩
    simp only [Role.admits, Bool.and_eq_true, decide_eq_true_eq, Bool.not_eq_true'] at happend
    exact plus_lt_plus happend.1 happend.2 hfront
  · next hfirst =>
    have hle : "+" ++ key ≤ key := String.not_lt.1 fun hlt => hfirst (plainFirst_iff.2 hlt)
    simp only [List.pairwise_cons, List.mem_cons, List.not_mem_nil, or_false, forall_eq_or_imp,
      forall_eq, Role.spelling, List.Pairwise.nil, and_true, IsEmpty.forall_iff, implies_true]
    refine ⟨⟨fun _ hset => ?_, fun _ _ => Std.lt_of_le_of_lt hle hbehind⟩, fun _ _ => hbehind⟩
    refine Std.lt_of_le_of_ne hle fun heq => ?_
    have hstarts : startsPlus key = true := startsPlus_iff.2 ⟨key, heq.symm⟩
    simp [Role.admits, hstarts] at hset

private theorem roles_eq (key : String) : roles key = (order key).filter (·.admits key) := by
  refine List.Perm.eq_of_pairwise ?_ (roles_ascending key) (order_ascending key) ?_
  · intro r s _ _ hrs hsr
    exact absurd (String.lt_trans hrs hsr) (String.lt_irrefl _)
  · have hperm : [Role.prepend, .set, .append].Perm (order key) := by
      unfold order
      split <;> decide
    exact (List.mergeSort_perm _ _).trans (hperm.filter _)

/-! ## The value at a key -/

/-- What a plain override and one edit leave of what is held. The items in front are added before
the plain override, which may then replace them, unless the plain override comes first. -/
def settle (merge : Fields → Fields → Fields) (first : Bool) (front behind : List Json)
    (plain held : Option Json) : Option Json :=
  if first then edit front behind (Role.set.act merge held plain)
  else edit [] behind (Role.set.act merge (edit front [] held) plain)

/-- The override in a role for a key, if the key admits the role. -/
def meant (key : String) (top : Role → Option Json) (role : Role) : Option Json :=
  if role.admits key then top role else none

/-- The value at a key after the overrides that are meant for it, as a plain override and one
edit. -/
theorem valueAt_eq (merge : Fields → Fields → Fields) (key : String) (held : Option Json)
    (top : Role → Option Json) :
    valueAt merge key held top = settle merge (plainFirst key)
      (asList (meant key top .prepend)) (asList (meant key top .append))
      (meant key top .set) held := by
  have hact (held : Option Json) (role : Role) :
      (if role.admits key then role.act merge held (top role) else held) =
        role.act merge held (meant key top role) := by
    unfold meant
    split <;> rfl
  rw [valueAt, roles_eq, List.foldl_filter]
  simp only [hact]
  unfold order settle
  split
  · simp only [List.foldl_cons, List.foldl_nil, Role.act_prepend_eq_edit,
      Role.act_append_eq_edit, edit_edit, List.append_nil]
  · simp only [List.foldl_cons, List.foldl_nil, Role.act_prepend_eq_edit,
      Role.act_append_eq_edit]

/-- Without a plain override there is one edit. -/
theorem settle_of_null (merge : Fields → Fields → Fields) (first : Bool)
    (front behind : List Json) {plain : Option Json} (h : plain = none ∨ plain = some .null)
    (held : Option Json) : settle merge first front behind plain held = edit front behind held := by
  cases first with
  | true => exact congrArg (edit front behind) (Role.act_of_null merge held .set h)
  | false =>
    have hheld := Role.act_of_null merge (edit front [] held) .set h
    rw [settle, if_neg Bool.false_ne_true, hheld, edit_edit, List.nil_append, List.nil_append]

/-- Without items in front it is of no account what comes first. -/
theorem settle_of_nil (merge : Fields → Fields → Fields) (first : Bool) (behind : List Json)
    (plain held : Option Json) :
    settle merge first [] behind plain held = edit [] behind (Role.set.act merge held plain) := by
  cases first with
  | true => rfl
  | false => rw [settle, if_neg Bool.false_ne_true, edit_nil]

/-- The override in a role for a key among some overrides. -/
def found (key : String) (top : Fields) : Role → Option Json :=
  meant key fun role => Assoc.get? (role.spelling key) top

/-- An override is found if its key admits the role. -/
theorem found_of_admits {key : String} {role : Role} (h : role.admits key = true)
    (top : Fields) : found key top role = Assoc.get? (role.spelling key) top :=
  if_pos h

/-- An override is found under its spelling, in a role that the key admits. -/
theorem found_eq_some_iff {key : String} {top : Fields} {role : Role} {value : Json} :
    found key top role = some value ↔
      role.admits key = true ∧ Assoc.get? (role.spelling key) top = some value := by
  simp only [found, meant, Option.ite_none_right_eq_some]

/-- The value that layering leaves at a key, as a plain override and one edit. -/
theorem get?_layer_eq {top : Fields} (h : Assoc.Ascending top) (base : Fields) (key : String) :
    Assoc.get? key (layer top base) = settle layer (plainFirst key)
      (asList (found key top .prepend)) (asList (found key top .append))
      (found key top .set) (Assoc.get? key base) :=
  (get?_layer h base key).trans (valueAt_eq layer key _ _)

/-! ## Chains of layers -/

/-- A key that is not empty and has no plus sign at its ends, so that signs can be put there. -/
def IsName (key : String) : Prop :=
  key ≠ "" ∧ startsPlus key = false ∧ endsPlus key = false

instance (key : String) : Decidable (IsName key) := inferInstanceAs (Decidable (_ ∧ _ ∧ _))

/-- A name admits every role. -/
theorem IsName.admits {key : String} (h : IsName key) (role : Role) : role.admits key = true := by
  obtain ⟨hne, hstarts, hends⟩ := h
  cases role <;> simp [Role.admits, hne, hstarts, hends]

/-- Every override for a name is found. -/
theorem IsName.found {key : String} (h : IsName key) (top : Fields) (role : Role) :
    found key top role = Assoc.get? (role.spelling key) top :=
  found_of_admits (h.admits role) top

private theorem get?_layer_of_edits {key : String} (hname : IsName key) {top : Fields}
    (hascending : Assoc.Ascending top)
    (hplain : Assoc.get? key top = none ∨ Assoc.get? key top = some .null) (base : Fields) :
    Assoc.get? key (layer top base) = edit (asList (Assoc.get? ("+" ++ key) top))
      (asList (Assoc.get? (key ++ "+") top)) (Assoc.get? key base) := by
  rw [get?_layer_eq hascending, hname.found, hname.found, hname.found]
  exact settle_of_null layer _ _ _ hplain _

/-- Several layers without a plain override edit what is held at a name: the items of later
layers lie further out, and each layer adds its own once. -/
theorem get?_layers_of_edits {key : String} (hname : IsName key) {overlays : List Fields}
    (hascending : ∀ top ∈ overlays, Assoc.Ascending top)
    (hplain : ∀ top ∈ overlays, Assoc.get? key top = none ∨ Assoc.get? key top = some .null)
    (base : Fields) :
    Assoc.get? key ((layers base overlays).getLastD base) =
      edit (overlays.reverse.flatMap fun top => asList (Assoc.get? ("+" ++ key) top))
        (overlays.flatMap fun top => asList (Assoc.get? (key ++ "+") top))
        (Assoc.get? key base) := by
  induction overlays generalizing base with
  | nil => exact (edit_nil _).symm
  | cons top rest ih =>
    have hfirst := get?_layer_of_edits hname (hascending top List.mem_cons_self)
      (hplain top List.mem_cons_self) base
    have hrest := ih (fun other h => hascending other (List.mem_cons_of_mem _ h))
      (fun other h => hplain other (List.mem_cons_of_mem _ h)) (layer top base)
    rw [layers, List.getLastD_cons, hrest, hfirst, edit_edit, List.reverse_cons,
      List.flatMap_append, List.flatMap_cons, List.flatMap_cons, List.flatMap_nil, List.append_nil]

/-- A chain of layers without a plain override for a name leaves there what the base holds, if
no layer has items to add; otherwise a list of all items: those in front of later layers first,
then what the base holds, made a list once, then those behind, of earlier layers first. -/
theorem layers_edit_one_list {key : String} (hname : IsName key) {overlays : List Fields}
    (hascending : ∀ top ∈ overlays, Assoc.Ascending top)
    (hplain : ∀ top ∈ overlays, Assoc.get? key top = none ∨ Assoc.get? key top = some .null)
    (base : Fields) :
    Assoc.get? key ((layers base overlays).getLastD base) =
      if (∀ top ∈ overlays, asList (Assoc.get? ("+" ++ key) top) = []) ∧
          ∀ top ∈ overlays, asList (Assoc.get? (key ++ "+") top) = [] then
        Assoc.get? key base
      else
        some (.arr ((overlays.reverse.flatMap fun top => asList (Assoc.get? ("+" ++ key) top)) ++
          asList (Assoc.get? key base) ++
          overlays.flatMap fun top => asList (Assoc.get? (key ++ "+") top))) := by
  rw [get?_layers_of_edits hname hascending hplain, edit]
  simp only [List.flatMap_eq_nil_iff, List.mem_reverse]

/-- Layers that meet one list from both sides: with a null in the plain place, without items,
with a list as an item, and with overrides for other keys. -/
def aroundOneList : List Fields :=
  [[("!list", .null), ("!list+", .arr []), ("+!list+", .bool true)],
    [("!list+", .arr [.arr [], .null]), ("+!list", .obj [("!list", .bool true)]),
      ("+other", .str "other")],
    [("!list+", .str "last"), ("+!list", .arr [.str "first", .str "second"])]]

/-- Three layers around a text that is made a list by the second. -/
theorem layers_around_one_list :
    IsName "!list" ∧ (∀ top ∈ aroundOneList, Assoc.Ascending top) ∧
    (∀ top ∈ aroundOneList, Assoc.get? "!list" top = none ∨
      Assoc.get? "!list" top = some .null) ∧
    Assoc.get? "!list" ((layers [("!list", .str "base")] aroundOneList).getLastD
        [("!list", .str "base")]) =
      some (.arr [.str "first", .str "second", .obj [("!list", .bool true)], .str "base",
        .arr [], .null, .str "last"]) := by
  have hname : IsName "!list" := by decide
  have hascending : ∀ top ∈ aroundOneList, Assoc.Ascending top := by decide
  have hplain : ∀ top ∈ aroundOneList, Assoc.get? "!list" top = none ∨
      Assoc.get? "!list" top = some .null := by
    simp [aroundOneList, Assoc.get?]
  refine ⟨hname, hascending, hplain, ?_⟩
  rw [layers_edit_one_list hname hascending hplain]
  rfl

end Merge

end PrefStore
