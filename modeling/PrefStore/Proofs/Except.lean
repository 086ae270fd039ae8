/-!
# Chains of steps that may fail

What succeeds as a whole succeeded in every step, a list is read back if its items are, and a map
that gives every entry a new value keeps the keys.
-/

namespace PrefStore

variable {α β ε ε' : Type}

/-- A chain succeeds where both of its parts do. -/
theorem bind_eq_ok_iff {x : Except ε α} {f : α → Except ε β} {b : β} :
    (x >>= f) = .ok b ↔ ∃ a, x = .ok a ∧ f a = .ok b := by
  cases x <;> simp [bind, Except.bind]

/-- A chain fails where its first part does, or its second part after the first. -/
theorem bind_eq_error_iff {x : Except ε α} {f : α → Except ε β} {e : ε} :
    (x >>= f) = .error e ↔ x = .error e ∨ ∃ a, x = .ok a ∧ f a = .error e := by
  cases x <;> simp [bind, Except.bind]

/-- A failure in other words is a failure still. -/
theorem mapError_eq_ok_iff {x : Except ε α} {f : ε → ε'} {a : α} :
    x.mapError f = .ok a ↔ x = .ok a := by
  cases x with
  | error cause => exact ⟨nofun, nofun⟩
  | ok value =>
    constructor
    · intro h
      cases h
      rfl
    · intro h
      cases h
      rfl

/-- The failure in other words comes from the failure. -/
theorem mapError_eq_error_iff {x : Except ε α} {f : ε → ε'} {cause : ε'} :
    x.mapError f = .error cause ↔ ∃ e, x = .error e ∧ cause = f e := by
  cases x with
  | error e =>
    constructor
    · intro h
      cases h
      exact ⟨e, rfl, rfl⟩
    · rintro ⟨_, h, rfl⟩
      cases h
      rfl
  | ok value =>
    constructor
    · intro h
      cases h
    · rintro ⟨_, h, -⟩
      cases h

/-- A check of every item succeeds where it does so on each of them. -/
theorem forM_eq_ok_iff {check : α → Except ε Unit} {items : List α} :
    items.forM check = .ok () ↔ ∀ item ∈ items, check item = .ok () := by
  induction items with
  | nil => simp [pure, Except.pure]
  | cons item rest ih =>
    have hcons : (item :: rest).forM check = (check item >>= fun _ => rest.forM check) := rfl
    rw [hcons, bind_eq_ok_iff, List.forall_mem_cons, ← ih]
    exact ⟨fun ⟨_, hitem, hrest⟩ => ⟨hitem, hrest⟩, fun ⟨hitem, hrest⟩ => ⟨(), hitem, hrest⟩⟩

/-- A check of every item fails with the first of them on which it does. -/
theorem forM_eq_error_iff {check : α → Except ε Unit} {items : List α} {e : ε} :
    items.forM check = .error e ↔ ∃ before item after, items = before ++ item :: after ∧
      (∀ other ∈ before, check other = .ok ()) ∧ check item = .error e := by
  induction items with
  | nil => simp [pure, Except.pure]
  | cons head rest ih =>
    have hcons : (head :: rest).forM check = (check head >>= fun _ => rest.forM check) := rfl
    rw [hcons, bind_eq_error_iff]
    constructor
    · rintro (hhead | ⟨_, hhead, hrest⟩)
      · exact ⟨[], head, rest, rfl, by simp, hhead⟩
      · obtain ⟨before, item, after, rfl, hbefore, hitem⟩ := ih.1 hrest
        exact ⟨head :: before, item, after, rfl, List.forall_mem_cons.2 ⟨hhead, hbefore⟩, hitem⟩
    · rintro ⟨before, item, after, hitems, hbefore, hitem⟩
      cases before with
      | nil =>
        obtain ⟨rfl, -⟩ := List.cons.inj hitems
        exact .inl hitem
      | cons other before =>
        obtain ⟨rfl, rfl⟩ := List.cons.inj hitems
        obtain ⟨hhead, hbefore⟩ := List.forall_mem_cons.1 hbefore
        exact .inr ⟨(), hhead, ih.2 ⟨before, item, after, rfl, hbefore, hitem⟩⟩

/-- What reads back every item of a list from its written form reads back the list. -/
theorem mapM_map_eq_ok {write : α → β} {read : β → Except ε α} {items : List α}
    (h : ∀ item ∈ items, read (write item) = .ok item) :
    (items.map write).mapM read = .ok items := by
  induction items with
  | nil => rfl
  | cons item rest ih =>
    have hfirst := h item List.mem_cons_self
    have hrest := ih fun other hother => h other (List.mem_cons_of_mem _ hother)
    rw [List.map_cons, List.mapM_cons, hfirst, hrest]
    rfl

/-- A loop succeeds where each of its steps does. -/
theorem exists_mapM_eq_ok_iff {f : α → Except ε β} {items : List α} :
    (∃ results, items.mapM f = .ok results) ↔ ∀ item ∈ items, ∃ result, f item = .ok result := by
  induction items with
  | nil => exact ⟨fun _ item hitem => (List.not_mem_nil hitem).elim, fun _ => ⟨[], rfl⟩⟩
  | cons item rest ih =>
    rw [List.forall_mem_cons, ← ih, List.mapM_cons]
    constructor
    · rintro ⟨results, h⟩
      obtain ⟨result, hitem, h⟩ := bind_eq_ok_iff.1 h
      obtain ⟨others, hrest, -⟩ := bind_eq_ok_iff.1 h
      exact ⟨⟨result, hitem⟩, others, hrest⟩
    · rintro ⟨⟨result, hitem⟩, others, hrest⟩
      exact ⟨result :: others, bind_eq_ok_iff.2 ⟨result, hitem, bind_eq_ok_iff.2 ⟨_, hrest, rfl⟩⟩⟩

/-- The results of a loop are those of its steps. -/
theorem mem_iff_of_mapM {f : α → Except ε β} {items : List α} {results : List β}
    (h : items.mapM f = .ok results) {result : β} :
    result ∈ results ↔ ∃ item ∈ items, f item = .ok result := by
  induction items generalizing results with
  | nil =>
    cases h
    simp
  | cons item rest ih =>
    rw [List.mapM_cons] at h
    obtain ⟨first, hitem, h⟩ := bind_eq_ok_iff.1 h
    obtain ⟨others, hrest, h⟩ := bind_eq_ok_iff.1 h
    cases h
    rw [List.mem_cons, ih hrest]
    simp [hitem, eq_comm]

/-- A loop fails with the first of its steps that does. -/
theorem mapM_eq_error_iff {f : α → Except ε β} {items : List α} {e : ε} :
    items.mapM f = .error e ↔ ∃ before item after, items = before ++ item :: after ∧
      (∀ other ∈ before, ∃ result, f other = .ok result) ∧ f item = .error e := by
  induction items with
  | nil => simp [pure, Except.pure]
  | cons head rest ih =>
    rw [List.mapM_cons, bind_eq_error_iff]
    constructor
    · rintro (hhead | ⟨result, hhead, h⟩)
      · exact ⟨[], head, rest, rfl, by simp, hhead⟩
      · rcases bind_eq_error_iff.1 h with hrest | ⟨results, -, hpure⟩
        · obtain ⟨before, item, after, rfl, hbefore, hitem⟩ := ih.1 hrest
          refine ⟨head :: before, item, after, rfl, ?_, hitem⟩
          exact List.forall_mem_cons.2 ⟨⟨result, hhead⟩, hbefore⟩
        · cases hpure
    · rintro ⟨before, item, after, hitems, hbefore, hitem⟩
      cases before with
      | nil =>
        obtain ⟨rfl, -⟩ := List.cons.inj hitems
        exact .inl hitem
      | cons other before =>
        obtain ⟨rfl, rfl⟩ := List.cons.inj hitems
        obtain ⟨⟨result, hhead⟩, hbefore⟩ := List.forall_mem_cons.1 hbefore
        have hrest := ih.2 ⟨before, item, after, rfl, hbefore, hitem⟩
        exact .inr ⟨result, hhead, bind_eq_error_iff.2 (.inl hrest)⟩

/-- New values under the old keys leave the keys of a list. -/
theorem keys_of_mapM {f : String × α → Except ε (String × β)}
    (hf : ∀ {entry value}, f entry = .ok value → value.1 = entry.1)
    {entries : List (String × α)} {values : List (String × β)}
    (h : entries.mapM f = .ok values) : values.map Prod.fst = entries.map Prod.fst := by
  induction entries generalizing values with
  | nil =>
    cases h
    rfl
  | cons entry rest ih =>
    rw [List.mapM_cons] at h
    obtain ⟨value, hvalue, h⟩ := bind_eq_ok_iff.1 h
    obtain ⟨others, hrest, h⟩ := bind_eq_ok_iff.1 h
    cases h
    rw [List.map_cons, List.map_cons, hf hvalue, ih hrest]

end PrefStore
