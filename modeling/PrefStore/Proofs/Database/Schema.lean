import Mathlib.Data.Int.Order.Basic
import PrefStore.Database.Basic

/-!
# Versions of a schema

The latest version is the greatest of those that are recorded, or zero. A migration applies the
versions after it one after another and records each: as there is one version so far, it makes the
table of preferences where no version is recorded, and otherwise changes nothing. The version after
the latest is counted in 32 bits without sign, so the last of these numbers is followed by zero.
-/

namespace PrefStore

namespace Database

/-- The greatest of the recorded versions, or zero if none is recorded. -/
inductive Latest (d : Database) : ℤ → Prop where
  | none (h : d.versions.getD [] = []) : Latest d 0
  | recorded {v : Int64} (h : v ∈ d.versions.getD [])
      (hmost : ∀ w ∈ d.versions.getD [], w.toInt ≤ v.toInt) : Latest d v.toInt

/-- There is one latest version. -/
theorem Latest.unique {d : Database} {m n : ℤ} (hm : d.Latest m) (hn : d.Latest n) : m = n := by
  cases hm with
  | none hnone =>
    cases hn with
    | none => rfl
    | recorded hmem =>
      rw [hnone] at hmem
      cases hmem
  | recorded hmem hmost =>
    cases hn with
    | none hnone =>
      rw [hnone] at hmem
      cases hmem
    | recorded hmem' hmost' => exact le_antisymm (hmost' _ hmem) (hmost _ hmem')

/-- What the search for the latest version finds among recorded versions. -/
private theorem latest_of_cons {d : Database} {v : ℤ} {rest : List ℤ}
    (h : (d.versions.getD []).map Int64.toInt = v :: rest) : d.Latest (rest.foldl max v) := by
  have hmax : (v :: rest).max? = some (rest.foldl max v) := List.max?_cons'
  rw [← h, List.max?_eq_some_iff] at hmax
  obtain ⟨hmem, hmost⟩ := hmax
  obtain ⟨w, hw, heq⟩ := List.mem_map.1 hmem
  rw [← heq] at hmost ⊢
  exact .recorded hw fun other hother => hmost _ (List.mem_map_of_mem hother)

/-- The latest version is read off the recorded versions alone. -/
theorem latestVersion?_congr {d d' : Database} (h : d.versions = d'.versions) :
    d.latestVersion? = d'.latestVersion? := by
  rw [latestVersion?, latestVersion?, h]

/-- The latest version is found if it is a number of 32 bits without sign. -/
theorem latestVersion?_eq_some_iff {d : Database} {latest : UInt32} :
    d.latestVersion? = some latest ↔ d.Latest latest.toNat := by
  have hlatest := latest.toNat_lt
  unfold latestVersion?
  split
  · next hnone =>
    have hnone : d.Latest 0 := .none (List.map_eq_nil_iff.1 hnone)
    rw [Option.some.injEq]
    constructor
    · rintro rfl
      exact hnone
    · intro h
      have hzero := hnone.unique h
      rw [← UInt32.toNat_inj]
      simp only [UInt32.toNat_ofNat, Nat.zero_mod]
      omega
  · next v rest hcons =>
    have hfound := latest_of_cons hcons
    generalize rest.foldl max v = m at hfound ⊢
    have hmost : uint32Most = 4294967295 := rfl
    dsimp only
    constructor
    · intro h
      split at h
      · obtain rfl := Option.some.inj h
        rw [UInt32.toNat_ofNat_of_lt' (by simp only [UInt32.size]; omega)]
        rwa [Int.toNat_of_nonneg (by omega)]
      · cases h
    · intro h
      obtain rfl := hfound.unique h
      rw [if_pos (by omega), Int.toNat_natCast, UInt32.ofNat_toNat]

/-- The versions that come next: the only one there is after none, and otherwise none, but after the
last number that there is both numbers up to the current one. -/
private theorem pendingVersions_cases (latest : UInt32) :
    latest = 0 ∧ pendingVersions latest = [1] ∨
      latest = 4294967295 ∧ pendingVersions latest = [0, 1] ∨
      1 ≤ latest ∧ pendingVersions latest = [] := by
  have hpending : pendingVersions latest = [0, 1].filter (latest + 1 ≤ ·) := rfl
  by_cases hzero : latest = 0
  · subst hzero
    exact .inl ⟨rfl, by decide⟩
  · by_cases hlast : latest = 4294967295
    · subst hlast
      exact .inr (.inl ⟨rfl, by decide⟩)
    · have hlt := latest.toNat_lt
      simp only [← UInt32.toNat_inj, UInt32.toNat_ofNat] at hzero hlast
      have hnext : (latest + 1).toNat = latest.toNat + 1 := by
        rw [UInt32.toNat_add, UInt32.toNat_one, Nat.mod_eq_of_lt (by omega)]
      refine .inr (.inr ⟨?_, ?_⟩)
      · rw [UInt32.le_iff_toNat_le, UInt32.toNat_one]
        omega
      · rw [hpending, List.filter_eq_nil_iff]
        intro version hversion
        have hboth : version = 0 ∨ version = 1 := by simpa using hversion
        have hsmall : version.toNat ≤ 1 := by rcases hboth with rfl | rfl <;> decide
        rw [decide_eq_true_eq, UInt32.le_iff_toNat_le, hnext]
        omega

/-- The versions after a latest one that is not the last number there is, in order. -/
theorem pendingVersions_of_ne {latest : UInt32} (h : latest ≠ 4294967295) :
    (pendingVersions latest).map UInt32.toNat =
      List.range' (latest.toNat + 1) (currentVersion.toNat - latest.toNat) := by
  rcases pendingVersions_cases latest with ⟨rfl, hpending⟩ | ⟨hlast, -⟩ | ⟨hlatest, hpending⟩
  · rw [hpending]
    rfl
  · exact absurd hlast h
  · have hcurrent : currentVersion.toNat ≤ latest.toNat := UInt32.le_iff_toNat_le.1 hlatest
    rw [hpending, Nat.sub_eq_zero_of_le hcurrent]
    rfl

/-! ## Migrations -/

/-- A database whose schema is at its current version. -/
def Current (d : Database) : Prop :=
  ∃ latest, d.latestVersion? = some latest ∧ pendingVersions latest = []

/-- A current database needs no migration. -/
theorem Current.migrate {d : Database} (h : d.Current) : d.migrate = .ok d := by
  obtain ⟨latest, hlatest, hpending⟩ := h
  simp only [Database.migrate, hlatest, hpending]

/-- A database whose latest version is at least the current one is current, unless the version is
the last number there is. -/
theorem current_of_latest {d : Database} {latest : UInt32} (h : d.Latest latest.toNat)
    (hne : latest ≠ 4294967295) (hcurrent : currentVersion ≤ latest) : d.Current := by
  refine ⟨latest, latestVersion?_eq_some_iff.2 h, ?_⟩
  rcases pendingVersions_cases latest with ⟨rfl, -⟩ | ⟨hlast, -⟩ | ⟨-, hpending⟩
  · exact absurd hcurrent (by decide)
  · exact absurd hlast hne
  · exact hpending

/-- A database whose latest version is no number of 32 bits without sign is refused. -/
theorem migrate_of_not_latest {d : Database} (h : ∀ latest : UInt32, ¬d.Latest latest.toNat) :
    d.migrate = .error .database := by
  have hnone : d.latestVersion? = none := Option.eq_none_iff_forall_ne_some.2 fun latest hlatest =>
    h latest (latestVersion?_eq_some_iff.1 hlatest)
  simp only [migrate, hnone]

/-- Where no version is recorded the migration makes the table of preferences, unless there is one,
and records the version. -/
theorem migrate_of_zero {d : Database} (h : d.Latest 0) :
    d.migrate = match d.preferences with
      | some _ => .error .database
      | none => .ok { d with
          versions := some (d.versions.getD [] ++ [1])
          preferences := some []
          commits := d.commits + 1 } := by
  have hlatest : d.latestVersion? = some 0 := latestVersion?_eq_some_iff.2 h
  have hpending : pendingVersions 0 = [1] := by decide
  cases htable : d.preferences with
  | some rows =>
    simp [migrate, hlatest, hpending, applyVersion, htable, bind, Except.bind]
  | none =>
    simp [migrate, hlatest, hpending, applyVersion, htable, bind, Except.bind, pure, Except.pure]

/-- After the last number that there is comes zero, which is no version: the database is refused. -/
theorem migrate_of_last {d : Database} (h : d.Latest 4294967295) :
    d.migrate = .error (.corrupt "unknown schema version: 0") := by
  have hlatest : d.latestVersion? = some 4294967295 := latestVersion?_eq_some_iff.2 h
  have hpending : pendingVersions 4294967295 = [0, 1] := by decide
  simp only [migrate, hlatest, hpending]
  rfl

/-- A migration leaves a current database as it is, or makes the table where no version is
recorded. -/
theorem of_migrate_eq_ok {d d' : Database} (h : d.migrate = .ok d') :
    d.Current ∧ d' = d ∨
      d.Latest 0 ∧ d.preferences = none ∧
        d' = { d with
          versions := some (d.versions.getD [] ++ [1])
          preferences := some []
          commits := d.commits + 1 } := by
  cases hlatest : d.latestVersion? with
  | none =>
    rw [migrate, hlatest] at h
    cases h
  | some latest =>
    have hfound := latestVersion?_eq_some_iff.1 hlatest
    rcases pendingVersions_cases latest with ⟨rfl, -⟩ | ⟨rfl, -⟩ | ⟨-, hpending⟩
    · rw [migrate_of_zero hfound] at h
      cases htable : d.preferences with
      | some rows =>
        rw [htable] at h
        cases h
      | none =>
        rw [htable] at h
        cases h
        exact .inr ⟨hfound, rfl, rfl⟩
    · rw [migrate_of_last hfound] at h
      cases h
    · have hcurrent : d.Current := ⟨latest, hlatest, hpending⟩
      rw [hcurrent.migrate] at h
      cases h
      exact .inl ⟨hcurrent, rfl⟩

/-- A migration leaves a database as it is, or makes an empty table where there was none. -/
theorem migrate_cases {d d' : Database} (h : d.migrate = .ok d') :
    d' = d ∨ d.preferences = none ∧ d'.preferences = some [] ∧ d'.commits = d.commits + 1 := by
  rcases of_migrate_eq_ok h with ⟨-, hsame⟩ | ⟨-, hnone, rfl⟩
  · exact .inl hsame
  · exact .inr ⟨hnone, rfl, rfl⟩

/-- Where the first version is recorded after none it is the latest. -/
theorem Latest.record {d d' : Database} (h : d.Latest 0)
    (hversions : d'.versions = some (d.versions.getD [] ++ [1])) : d'.Latest 1 := by
  have hone : (1 : Int64) ∈ d'.versions.getD [] := by simp [hversions]
  refine .recorded hone fun w hw => ?_
  rw [hversions, Option.getD_some, List.mem_append, List.mem_singleton] at hw
  rcases hw with hold | rfl
  · have hmost : w.toInt ≤ 0 := by
      generalize hzero : (0 : ℤ) = m at h
      cases h with
      | none hnone => simp [hnone] at hold
      | recorded hmem hmost => exact hmost w hold
    exact Int.le_trans hmost (by decide)
  · exact le_rfl

/-- A migrated database is current. -/
theorem Current.of_migrate {d d' : Database} (h : d.migrate = .ok d') : d'.Current := by
  rcases of_migrate_eq_ok h with ⟨hcurrent, rfl⟩ | ⟨hzero, -, hmade⟩
  · exact hcurrent
  · have hlatest : d'.Latest (1 : UInt32).toNat := hzero.record (by rw [hmade])
    exact current_of_latest hlatest (by decide) (by decide)

/-- A database that was migrated needs no migration any more as long as its versions stay. -/
theorem migrate_again {d d' d'' : Database} (h : d.migrate = .ok d')
    (hversions : d''.versions = d'.versions) : d''.migrate = .ok d'' := by
  obtain ⟨latest, hlatest, hpending⟩ := Current.of_migrate h
  have hcurrent : d''.Current := ⟨latest, (latestVersion?_congr hversions).trans hlatest, hpending⟩
  exact hcurrent.migrate

end Database

end PrefStore
