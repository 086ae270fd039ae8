import PrefStore.Dict.Lemmas
import PrefStore.Proofs.Except

/-!
# Loops over ascending entries

A loop that gives each entry a new value, in key order, and may fail. It succeeds where every
step does, keeps the keys and their order, and fails with the step of the least key that fails.
-/

namespace PrefStore.Assoc

variable {α β ε : Type}

/-- Gives one entry a new value. -/
def step (f : String → α → Except ε β) : String × α → Except ε (String × β) :=
  fun (key, v) => do return (key, ← f key v)

/-- Gives every entry a new value, the first failure being that of the whole. -/
def traverse (f : String → α → Except ε β) (entries : List (String × α)) :
    Except ε (List (String × β)) :=
  entries.mapM (step f)

/-- A step keeps its key. -/
theorem step_eq_ok_iff {f : String → α → Except ε β} {entry : String × α} {result : String × β} :
    step f entry = .ok result ↔ result.1 = entry.1 ∧ f entry.1 entry.2 = .ok result.2 := by
  obtain ⟨key, w⟩ := result
  constructor
  · intro h
    obtain ⟨_, hvalue, hpair⟩ := bind_eq_ok_iff.1 h
    cases hpair
    exact ⟨rfl, hvalue⟩
  · rintro ⟨hkey, hvalue⟩
    obtain rfl : key = entry.1 := hkey
    exact bind_eq_ok_iff.2 ⟨w, hvalue, rfl⟩

/-- A step fails where there is no new value. -/
theorem step_eq_error_iff {f : String → α → Except ε β} {entry : String × α} {e : ε} :
    step f entry = .error e ↔ f entry.1 entry.2 = .error e := by
  constructor
  · intro h
    rcases bind_eq_error_iff.1 h with hvalue | ⟨_, -, hpair⟩
    · exact hvalue
    · cases hpair
  · intro h
    exact bind_eq_error_iff.2 (.inl h)

variable {f : String → α → Except ε β} {entries : List (String × α)}

/-- The results ascend as the entries do. -/
theorem Ascending.traverse {results : List (String × β)} (h : Ascending entries)
    (hresults : traverse f entries = .ok results) : Ascending results := by
  have hkeys : results.map Prod.fst = entries.map Prod.fst :=
    keys_of_mapM (fun hstep => (step_eq_ok_iff.1 hstep).1) hresults
  rw [Ascending, ← List.pairwise_map] at h ⊢
  rw [hkeys]
  exact h

/-- A result is that of the step of its key. -/
theorem get?_traverse {results : List (String × β)} (h : Ascending entries)
    (hresults : traverse f entries = .ok results) {key : String} {w : β} :
    get? key results = some w ↔ ∃ v, get? key entries = some v ∧ f key v = .ok w := by
  rw [get?_eq_some_iff (h.traverse hresults), mem_iff_of_mapM hresults]
  constructor
  · rintro ⟨⟨k, v⟩, hentry, hstep⟩
    obtain ⟨hkey, hvalue⟩ := step_eq_ok_iff.1 hstep
    obtain rfl : key = k := hkey
    exact ⟨v, get?_of_mem h hentry, hvalue⟩
  · rintro ⟨v, hentry, hvalue⟩
    exact ⟨(key, v), mem_of_get? hentry, step_eq_ok_iff.2 ⟨rfl, hvalue⟩⟩

/-- The loop succeeds where every step does. -/
theorem exists_traverse_iff (h : Ascending entries) :
    (∃ results, traverse f entries = .ok results) ↔
      ∀ key v, get? key entries = some v → ∃ w, f key v = .ok w := by
  unfold traverse
  rw [exists_mapM_eq_ok_iff]
  constructor
  · intro hsteps key v hentry
    obtain ⟨result, hstep⟩ := hsteps (key, v) (mem_of_get? hentry)
    exact ⟨result.2, (step_eq_ok_iff.1 hstep).2⟩
  · rintro hsteps ⟨key, v⟩ hentry
    obtain ⟨w, hvalue⟩ := hsteps key v (get?_of_mem h hentry)
    exact ⟨(key, w), step_eq_ok_iff.2 ⟨rfl, hvalue⟩⟩

/-- The loop fails with the step of the least key that fails. -/
theorem traverse_eq_error_iff (h : Ascending entries) {e : ε} :
    traverse f entries = .error e ↔
      ∃ key v, get? key entries = some v ∧ f key v = .error e ∧
        ∀ other u, other < key → get? other entries = some u → ∃ w, f other u = .ok w := by
  rw [traverse, mapM_eq_error_iff]
  constructor
  · rintro ⟨before, ⟨key, v⟩, after, rfl, hbefore, hstep⟩
    obtain ⟨-, hafter, -⟩ := List.pairwise_append.1 h
    have hentry := get?_of_mem h (List.mem_append_right before List.mem_cons_self)
    refine ⟨key, v, hentry, step_eq_error_iff.1 hstep, ?_⟩
    intro other u hless hother
    rcases List.mem_append.1 (mem_of_get? hother) with hmem | hmem
    · obtain ⟨result, hresult⟩ := hbefore _ hmem
      exact ⟨result.2, (step_eq_ok_iff.1 hresult).2⟩
    · -- From the failing entry on no key is less than its own.
      rcases List.mem_cons.1 hmem with heq | hmem
      · cases heq
        exact absurd hless (String.lt_irrefl _)
      · exact absurd (String.lt_trans hless (List.rel_of_pairwise_cons hafter hmem))
          (String.lt_irrefl _)
  · rintro ⟨key, v, hentry, hstep, hleast⟩
    obtain ⟨before, after, rfl⟩ := List.append_of_mem (mem_of_get? hentry)
    obtain ⟨-, -, hless⟩ := List.pairwise_append.1 h
    refine ⟨before, (key, v), after, rfl, ?_, step_eq_error_iff.2 hstep⟩
    rintro ⟨other, u⟩ hother
    have hget := get?_of_mem h (List.mem_append_left _ hother)
    obtain ⟨w, hw⟩ := hleast other u (hless _ hother _ List.mem_cons_self) hget
    exact ⟨(other, w), step_eq_ok_iff.2 ⟨rfl, hw⟩⟩

end PrefStore.Assoc
