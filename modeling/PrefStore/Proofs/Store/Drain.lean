import PrefStore.Proofs.Number.Exact
import PrefStore.Proofs.Store.Following

/-!
# Subscriptions that outlive their store

Once the last handle of a store is gone nothing is published any more, and every poll looks at the
last publication again. It ends where it finds the value that was yielded last. A value agrees with
itself unless it is NaN: so a subscription yields one more value at most and then ends, but it
yields NaN for ever if that is what it reads.
-/

namespace PrefStore

namespace Value

private theorem readAs_eq_float_iff {kind : Kind} {v : Value} {x : Single} :
    v.readAs kind = some (.float x) ↔ kind = .float ∧ v = .float x := by
  constructor
  · intro h
    obtain rfl : Kind.float = kind := kind_of_readAs h
    cases v <;> simp_all [readAs, Value.kind]
  · rintro ⟨rfl, rfl⟩
    rfl

end Value

private theorem Snapshot.nan_of_readOr {s : Snapshot} {key : String} {default : Value}
    (h : s.readOr key default = .float .nan) : default = .float .nan ∨
      default.kind = .float ∧ s.visibleAt key = some (.float .nan) := by
  rw [readOr, readAs] at h
  cases hvisible : s.visibleAt key with
  | none =>
    rw [hvisible] at h
    exact .inl h
  | some v =>
    rw [hvisible, Option.bind_some] at h
    cases hread : v.readAs default.kind with
    | none =>
      rw [hread] at h
      exact .inl h
    | some w =>
      rw [hread, Option.getD_some] at h
      obtain ⟨hkind, hv⟩ := Value.readAs_eq_float_iff.1 (h ▸ hread)
      exact .inr ⟨hkind, congrArg some hv⟩

namespace Following

variable {β : Type} {f : Following β} {values : List Value}

/-- What polls give one after another once the last handle is gone. -/
def drain : Nat → Following β → List Poll
  | 0, _ => []
  | n + 1, f => (f.poll false).1 :: drain n (f.poll false).2

namespace Sound

/-- A subscription that would repeat its last value ends, and ends again whenever it is polled. -/
theorem drain_of_repeats (h : f.Sound values)
    (hrepeats : f.subscription.repeats f.current = true) (n : Nat) :
    drain n f = List.replicate n .ended := by
  induction n generalizing f values with
  | zero => rfl
  | succ n ih =>
    have hnext := h.poll false
    rw [drain, List.replicate_succ]
    rw [h.poll_of_repeats false hrepeats] at hnext ⊢
    exact congrArg (Poll.ended :: ·) (ih hnext hrepeats)

/-- A subscription that would yield a value which agrees with itself yields it and then ends. -/
theorem drain_of_new (h : f.Sound values) (hnew : f.subscription.repeats f.current = false)
    (hself : f.current.same f.current = true) (n : Nat) :
    drain (n + 1) f = .yielded f.current :: List.replicate n .ended := by
  have hnext := h.poll false
  rw [drain]
  rw [h.poll_of_not_repeats false hnew] at hnext ⊢
  exact congrArg (Poll.yielded f.current :: ·) (hnext.drain_of_repeats hself n)

private theorem not_repeats_of_nan (h : f.Sound values) (hnan : f.current = .float .nan) :
    f.subscription.repeats f.current = false := by
  rw [h.not_repeats_iff]
  intro last _
  by_contra hsame
  rw [Bool.not_eq_false, Value.same_comm] at hsame
  exact Value.same_self_iff.1 (Value.same_self_of_same hsame) hnan

/-- A subscription that reads NaN yields it for ever. -/
theorem drain_of_nan (h : f.Sound values) (hnan : f.current = .float .nan) (n : Nat) :
    drain n f = List.replicate n (.yielded (.float .nan)) := by
  induction n generalizing f values with
  | zero => rfl
  | succ n ih =>
    have hnext := h.poll false
    rw [drain, List.replicate_succ]
    rw [h.poll_of_not_repeats false (h.not_repeats_of_nan hnan)] at hnext ⊢
    rw [← hnan]
    exact congrArg (Poll.yielded f.current :: ·) ((ih hnext hnan).trans (by rw [hnan]))

/-- A subscription that does not read NaN yields one value at most, the one that it reads, and then
ends for good. -/
theorem drain_of_ne_nan (h : f.Sound values) (hnumber : f.current ≠ .float .nan) :
    ∃ rest : List Poll, (rest = [] ∨ rest = [.yielded f.current]) ∧
      ∀ n, drain (rest.length + n) f = rest ++ List.replicate n .ended := by
  cases hrepeats : f.subscription.repeats f.current with
  | true =>
    refine ⟨[], .inl rfl, fun n => ?_⟩
    rw [List.length_nil, Nat.zero_add]
    exact h.drain_of_repeats hrepeats n
  | false =>
    refine ⟨[.yielded f.current], .inr rfl, fun n => ?_⟩
    rw [List.length_singleton, Nat.add_comm]
    exact h.drain_of_new hrepeats (Value.same_self_iff.2 hnumber) n

end Sound

/-- Subscriptions end with their store unless they read NaN. Whatever happened while a subscription
followed its store: after the last handle is gone it yields one more value at most, what the store
reads at the key with the default, and ends at every later poll, provided that this value is not
NaN. If it is NaN, every poll yields it and none ends. That takes a default that is NaN, or NaN at
the key in the last publication and a float for the default. -/
theorem ends_with_store_unless_nan [Backend β] {store : Store β} {key : String} {default : Value}
    {polls : List Poll} (hrun : (start store key default).Run polls f) :
    (f.store.getOr key default ≠ .float .nan → ∃ rest : List Poll,
      (rest = [] ∨ rest = [.yielded (f.store.getOr key default)]) ∧
        ∀ n, drain (rest.length + n) f = rest ++ List.replicate n .ended) ∧
    (f.store.getOr key default = .float .nan →
      ∀ n, drain n f = List.replicate n (.yielded (.float .nan))) ∧
    ((∃ n, .ended ∈ drain n f) ↔ f.store.getOr key default ≠ .float .nan) ∧
    (f.store.getOr key default = .float .nan → default = .float .nan ∨
      default.kind = .float ∧ f.store.getValue? key = some (.float .nan)) := by
  have hstart : (start store key default).Sound [] := ⟨rfl, .nil, nofun, nofun⟩
  have hsound := hrun.sound hstart
  have hnow : f.current = f.store.getOr key default := current_eq_getOr hrun.target
  rw [← hnow]
  refine ⟨hsound.drain_of_ne_nan, hsound.drain_of_nan, ⟨?_, ?_⟩, ?_⟩
  · rintro ⟨n, hended⟩ hnan
    rw [hsound.drain_of_nan hnan, List.mem_replicate] at hended
    cases hended.2
  · intro hnumber
    obtain ⟨rest, -, hdrain⟩ := hsound.drain_of_ne_nan hnumber
    refine ⟨rest.length + 1, ?_⟩
    rw [hdrain 1]
    simp
  · intro hnan
    rw [hnow] at hnan
    exact Snapshot.nan_of_readOr hnan

/-- A subscription whose default is NaN yields the value at the key and then ends with its store;
one that has yielded that value already ends at once. -/
theorem nan_default_ends_at_a_value :
    let zero : Value := .float (.zero false)
    let store : Store Memory := ⟨⟨Dict.ofList [("k", zero)]⟩, Dict.ofList [("k", zero)], .empty⟩
    let f := start store "k" (.float .nan)
    let g : Following Memory := { f with subscription := ⟨"k", .float .nan, some zero⟩ }
    f.Run [] f ∧ (∃ n, .ended ∈ drain n f) ∧
      f.Run [.yielded zero] g ∧ ∃ n, .ended ∈ drain n g := by
  intro zero store f g
  have hf : f.Run [] f := .nil
  have hg : f.Run [.yielded zero] g := hf.snoc (.polled true)
  have hread : store.getOr "k" (.float .nan) ≠ .float .nan := by decide
  exact ⟨hf, (ends_with_store_unless_nan hf).2.2.1.2 hread, hg,
    (ends_with_store_unless_nan hg).2.2.1.2 hread⟩

/-- A subscription whose default is NaN, on an empty store in memory, yields NaN at every poll after
the store is gone. It never ends. -/
theorem nan_default_never_ends :
    let f : Following Memory :=
      start ⟨⟨Dict.empty⟩, Dict.empty, .empty⟩ "k" (.float .nan)
    (∀ n, drain n f = List.replicate n (.yielded (.float .nan))) ∧ ¬∃ n, .ended ∈ drain n f := by
  intro f
  have hstart : f.Sound [] := ⟨rfl, .nil, nofun, nofun⟩
  have hdrain := hstart.drain_of_nan rfl
  refine ⟨hdrain, ?_⟩
  rintro ⟨n, hended⟩
  rw [hdrain, List.mem_replicate] at hended
  cases hended.2

end Following

end PrefStore
