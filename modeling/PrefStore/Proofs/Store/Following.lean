import Mathlib.Data.List.Chain
import PrefStore.Proofs.Store.Acts
import PrefStore.Proofs.Store.Commit
import PrefStore.Store.Subscription

/-!
# Following a store

A subscription is polled while its store goes on: edits are committed or fail, commits of others
are picked up or not. A poll that is left pending has looked at one publication and is resumed when
there is another; it may also be abandoned, and the next poll then looks again. Here a store counts
its publications, so that a pending poll can tell whether there was one. It yields no value twice
in a row, and it waits only if there is nothing new to yield, so that the last value is never
missed whatever was skipped on the way.
-/

namespace PrefStore

/-- The value that a poll yields. -/
def Poll.value? : Poll → Option Value
  | yielded value => some value
  | pending | ended => none

/-- The values that polls yield, the oldest first. -/
def yields (polls : List Poll) : List Value := polls.filterMap Poll.value?

/-- Polls yield what the first of them yield and then what the others do. -/
theorem yields_append (polls polls' : List Poll) :
    yields (polls ++ polls') = yields polls ++ yields polls' :=
  List.filterMap_append

@[simp] theorem append_yields_nil (values : List Value) : values ++ yields [] = values :=
  List.append_nil values

@[simp] theorem append_yields_waiting (values : List Value) (alive : Bool) :
    values ++ yields [if alive then .pending else .ended] = values := by
  cases alive <;> exact List.append_nil values

namespace Subscription

/-- A value is a repetition if it agrees with the last one that was yielded. -/
theorem repeats_iff {s : Subscription} {value : Value} :
    s.repeats value = true ↔ ∃ last, s.last = some last ∧ last.same value = true := by
  unfold repeats
  cases s.last <;> simp

/-- A poll that finds a repetition waits, or ends if the store is gone. -/
theorem poll_of_repeats {s : Subscription} {published : Snapshot} (alive : Bool)
    (h : s.repeats (s.current published) = true) :
    s.poll published alive = (if alive then .pending else .ended, s) := by
  simp only [poll, h, if_true]

/-- Any other poll yields what it finds. -/
theorem poll_of_not_repeats {s : Subscription} {published : Snapshot} (alive : Bool)
    (h : s.repeats (s.current published) = false) :
    s.poll published alive =
      (.yielded (s.current published), { s with last := some (s.current published) }) := by
  simp only [poll, h, Bool.false_eq_true, if_false]

/-- A poll follows the same key with the same default. -/
theorem poll_target (s : Subscription) (published : Snapshot) (alive : Bool) :
    (s.poll published alive).2.key = s.key ∧ (s.poll published alive).2.default = s.default := by
  unfold poll
  dsimp only
  split <;> exact ⟨rfl, rfl⟩

end Subscription

/-- A store that counts its publications, a subscription on it, and the publication that a pending
poll has looked at. -/
structure Following (β : Type) where
  store : Store β
  version : Nat
  subscription : Subscription
  waiting : Option Nat

namespace Following

variable {β : Type}

/-- A subscription begins. -/
def start (store : Store β) (key : String) (default : Value) : Following β :=
  ⟨store, 0, .start key default, none⟩

/-- Polls, or resumes the poll that is pending: that one looks again only if something was published
since it did. -/
def poll (f : Following β) (alive : Bool) : Poll × Following β :=
  let (answer, subscription) :=
    if f.waiting = some f.version then (if alive then Poll.pending else .ended, f.subscription)
    else f.subscription.poll f.store.published alive
  (answer, { f with subscription, waiting := if answer = .pending then some f.version else none })

/-- What can happen while a subscription follows a store, and what a poll gives if it is one. -/
inductive Step [Backend β] (f : Following β) : Option Poll → Following β → Prop where
  | committed {ν ε : Type} [IncludesStore ε] {body : EditBody ν ε} {notes notes' : ν}
      {touched : StringSet} {s : Store β}
      (h : f.store.commit body notes = (.ok touched, notes', s)) :
      Step f none { f with store := s, version := f.version + 1 }
  | failed {ν ε : Type} [IncludesStore ε] {body : EditBody ν ε} {notes notes' : ν}
      {cause : Halt ε} {s : Store β} (h : f.store.commit body notes = (.error cause, notes', s)) :
      Step f none { f with store := s }
  | renewed {s : Store β} (h : f.store.refresh = (.ok true, s)) :
      Step f none { f with store := s, version := f.version + 1 }
  | unchanged {answer : Except StoreError Bool} {s : Store β} (hanswer : answer ≠ .ok true)
      (h : f.store.refresh = (answer, s)) : Step f none { f with store := s }
  /-- Others commit, or listeners come and go. -/
  | elsewhere {s : Store β} (hpublished : s.published = f.store.published) :
      Step f none { f with store := s }
  /-- The pending poll is given up. -/
  | abandoned : Step f none { f with waiting := none }
  | polled (alive : Bool) : Step f (some (f.poll alive).1) (f.poll alive).2

/-- What happens one after another, with what the polls give. -/
inductive Run [Backend β] (f : Following β) : List Poll → Following β → Prop where
  | nil : Run f [] f
  | snoc {polls : List Poll} {g g' : Following β} {answer : Option Poll} (h : Run f polls g)
      (hstep : g.Step answer g') : Run f (polls ++ answer.toList) g'

/-- A subscription that has yielded certain values one after another is sound. It knows the last of
them, no two in a row agree, and a poll that waits for the next publication has found the last of
them in what is published. -/
structure Sound (f : Following β) (values : List Value) : Prop where
  last : f.subscription.last = values.getLast?
  distinct : values.IsChain fun v w => v.same w = false
  seen : ∀ v, f.waiting = some v → v ≤ f.version
  waits : f.waiting = some f.version →
    f.subscription.repeats (f.subscription.current f.store.published) = true

variable {f g : Following β}

/-- The value that the subscription would yield. -/
def current (f : Following β) : Value := f.subscription.current f.store.published

/-- It is what the store reads at the key with the default. -/
theorem current_eq_getOr {key : String} {default : Value}
    (htarget : f.subscription.key = key ∧ f.subscription.default = default) :
    f.current = f.store.getOr key default := by
  obtain ⟨rfl, rfl⟩ := htarget
  exact f.subscription.current_eq_readOr f.store.published

/-- A poll, resumed or not, follows the same key with the same default. -/
theorem poll_target (f : Following β) (alive : Bool) :
    (f.poll alive).2.subscription.key = f.subscription.key ∧
      (f.poll alive).2.subscription.default = f.subscription.default := by
  unfold poll
  by_cases hwaiting : f.waiting = some f.version
  · rw [if_pos hwaiting]
    exact ⟨rfl, rfl⟩
  · rw [if_neg hwaiting]
    exact f.subscription.poll_target f.store.published alive

namespace Sound

variable {values : List Value}

private theorem poll_eq (h : f.Sound values) (alive : Bool) :
    f.poll alive =
      let (answer, subscription) := f.subscription.poll f.store.published alive
      (answer, { f with
        subscription, waiting := if answer = .pending then some f.version else none }) := by
  unfold poll
  by_cases hwaiting : f.waiting = some f.version
  · rw [if_pos hwaiting, Subscription.poll_of_repeats alive (h.waits hwaiting)]
  · rw [if_neg hwaiting]

/-- A poll that finds the last value again waits, or ends if the store is gone. -/
theorem poll_of_repeats (h : f.Sound values) (alive : Bool)
    (hrepeats : f.subscription.repeats f.current = true) :
    f.poll alive = (if alive then .pending else .ended,
      { f with waiting := if alive then some f.version else none }) := by
  rw [h.poll_eq, Subscription.poll_of_repeats alive hrepeats]
  cases alive <;> rfl

/-- A poll that finds another value yields it. -/
theorem poll_of_not_repeats (h : f.Sound values) (alive : Bool)
    (hrepeats : f.subscription.repeats f.current = false) :
    f.poll alive = (.yielded f.current, { f with
      subscription := { f.subscription with last := some f.current }, waiting := none }) := by
  rw [h.poll_eq, Subscription.poll_of_not_repeats alive hrepeats]
  rfl

/-- A value repeats the last of the yielded ones if it agrees with that. -/
theorem repeats_iff (h : f.Sound values) {value : Value} :
    f.subscription.repeats value = true ↔
      ∃ last, values.getLast? = some last ∧ last.same value = true := by
  rw [Subscription.repeats_iff, h.last]

/-- A value is new if it agrees with no last value. -/
theorem not_repeats_iff (h : f.Sound values) {value : Value} :
    f.subscription.repeats value = false ↔
      ∀ last, values.getLast? = some last → last.same value = false := by
  rw [Bool.eq_false_iff, ne_eq, h.repeats_iff]
  simp

/-- A poll yields what is published now if that is new, and otherwise waits or ends. -/
theorem poll_cases (h : f.Sound values) (alive : Bool) :
    ((f.poll alive).1 = .yielded f.current ∧
      ∀ last, values.getLast? = some last → last.same f.current = false) ∨
    ((f.poll alive).1 = (if alive then .pending else .ended) ∧
      ∃ last, values.getLast? = some last ∧ last.same f.current = true) := by
  cases hrepeats : f.subscription.repeats f.current with
  | true =>
    rw [h.poll_of_repeats alive hrepeats]
    exact .inr ⟨rfl, h.repeats_iff.1 hrepeats⟩
  | false =>
    rw [h.poll_of_not_repeats alive hrepeats]
    exact .inl ⟨rfl, h.not_repeats_iff.1 hrepeats⟩

private theorem of_store (h : f.Sound values) {store : Store β} {version : Nat}
    (hle : f.version ≤ version)
    (hkept : version = f.version → store.published = f.store.published) :
    Sound { f with store, version } values where
  last := h.last
  distinct := h.distinct
  seen v hv := (h.seen v hv).trans hle
  waits hwaiting := by
    have hversion : version = f.version := Nat.le_antisymm (h.seen version hwaiting) hle
    have hrepeats := h.waits (hversion ▸ hwaiting)
    rw [← hkept hversion] at hrepeats
    exact hrepeats

/-- A poll leaves the subscription sound with the value that it yields. -/
theorem poll (h : f.Sound values) (alive : Bool) :
    (f.poll alive).2.Sound (values ++ yields [(f.poll alive).1]) := by
  cases hrepeats : f.subscription.repeats f.current with
  | true =>
    rw [h.poll_of_repeats alive hrepeats, append_yields_waiting]
    refine ⟨h.last, h.distinct, fun v hv => ?_, fun _ => hrepeats⟩
    cases alive with
    | true => exact (Option.some.inj hv).ge
    | false => cases hv
  | false =>
    rw [h.poll_of_not_repeats alive hrepeats]
    refine ⟨List.getLast?_concat.symm, ?_, nofun, nofun⟩
    refine List.isChain_append.2 ⟨h.distinct, List.isChain_singleton _, ?_⟩
    intro last hlast next hnext
    obtain rfl : f.current = next := Option.some.inj hnext
    exact h.not_repeats_iff.1 hrepeats last hlast

end Sound

section Step

variable [Backend β]

/-- No step goes back behind a publication, and one that publishes nothing keeps what was
published. -/
theorem Step.published {answer : Option Poll} (h : f.Step answer g) :
    f.version ≤ g.version ∧
      (g.version = f.version → g.store.published = f.store.published) := by
  cases h with
  | committed | renewed => exact ⟨Nat.le_succ _, fun h => absurd h (Nat.succ_ne_self _)⟩
  | failed h => exact ⟨Nat.le_refl _, fun _ => Store.published_of_commit_error h⟩
  | unchanged hanswer h => exact ⟨Nat.le_refl _, fun _ => Store.published_of_refresh h hanswer⟩
  | elsewhere hpublished => exact ⟨Nat.le_refl _, fun _ => hpublished⟩
  | abandoned | polled => exact ⟨Nat.le_refl _, fun _ => rfl⟩

/-- A step keeps a subscription sound. -/
theorem Step.sound {answer : Option Poll} (h : f.Step answer g) {values : List Value}
    (hsound : f.Sound values) : g.Sound (values ++ yields answer.toList) := by
  have hpublished := h.published
  cases h with
  | polled alive => exact hsound.poll alive
  | abandoned =>
    rw [Option.toList_none, append_yields_nil]
    exact ⟨hsound.last, hsound.distinct, nofun, nofun⟩
  | committed | failed | renewed | unchanged | elsewhere =>
    rw [Option.toList_none, append_yields_nil]
    exact hsound.of_store hpublished.1 hpublished.2

/-- A step follows the same key with the same default. -/
theorem Step.target {answer : Option Poll} (h : f.Step answer g) :
    g.subscription.key = f.subscription.key ∧
      g.subscription.default = f.subscription.default := by
  cases h with
  | polled alive => exact f.poll_target alive
  | _ => exact ⟨rfl, rfl⟩

/-- The value that would be yielded stays while nothing is published. -/
theorem Step.current {answer : Option Poll} (h : f.Step answer g)
    (hversion : g.version = f.version) : g.current = f.current := by
  obtain ⟨hkey, hdefault⟩ := h.target
  unfold Following.current Subscription.current
  rw [hkey, hdefault, h.published.2 hversion]

end Step

/-- A subscription has caught up if the last value that it yielded is the one that it would yield
now, or agrees with it. -/
def CaughtUp (f : Following β) (values : List Value) : Prop :=
  ∃ last, values.getLast? = some last ∧ (last = f.current ∨ last.same f.current = true)

/-- One poll makes a sound subscription catch up. -/
theorem Sound.caughtUp {values : List Value} (h : f.Sound values) (alive : Bool) :
    (f.poll alive).2.CaughtUp (values ++ yields [(f.poll alive).1]) := by
  cases hrepeats : f.subscription.repeats f.current with
  | true =>
    rw [h.poll_of_repeats alive hrepeats, append_yields_waiting]
    obtain ⟨last, hlast, hsame⟩ := h.repeats_iff.1 hrepeats
    exact ⟨last, hlast, .inr hsame⟩
  | false =>
    rw [h.poll_of_not_repeats alive hrepeats]
    exact ⟨f.current, List.getLast?_concat, .inl rfl⟩

section Run

variable [Backend β] {polls : List Poll} {values : List Value}

/-- A subscription stays sound. -/
theorem Run.sound (h : f.Run polls g) (hsound : f.Sound values) :
    g.Sound (values ++ yields polls) := by
  induction h with
  | nil =>
    rw [append_yields_nil]
    exact hsound
  | snoc _ hstep ih =>
    rw [yields_append, ← List.append_assoc]
    exact hstep.sound ih

/-- The same key is followed with the same default all the time. -/
theorem Run.target (h : f.Run polls g) :
    g.subscription.key = f.subscription.key ∧
      g.subscription.default = f.subscription.default := by
  induction h with
  | nil => exact ⟨rfl, rfl⟩
  | snoc _ hstep ih => exact ⟨hstep.target.1.trans ih.1, hstep.target.2.trans ih.2⟩

/-- Publications are counted upwards. -/
theorem Run.version_le (h : f.Run polls g) : f.version ≤ g.version := by
  induction h with
  | nil => exact Nat.le_refl _
  | snoc _ hstep ih => exact ih.trans hstep.published.1

/-- While nothing is published, a subscription that has caught up stays so. -/
theorem Run.caughtUp (h : f.Run polls g) (hsound : f.Sound values) (hcaught : f.CaughtUp values)
    (hversion : g.version = f.version) : g.CaughtUp (values ++ yields polls) := by
  induction h with
  | nil =>
    rw [append_yields_nil]
    exact hcaught
  | @snoc polls mid g answer hrun hstep ih =>
    have hmid : mid.version = f.version := by
      have hbefore := hrun.version_le
      have hafter := hstep.published.1
      omega
    have hcaught := ih hmid
    have hcurrent := hstep.current (hversion.trans hmid.symm)
    rw [yields_append, ← List.append_assoc]
    cases hstep with
    | polled alive => exact (hrun.sound hsound).caughtUp alive
    | _ =>
      rw [Option.toList_none, append_yields_nil]
      unfold CaughtUp at hcaught ⊢
      rw [hcurrent]
      exact hcaught

/-- What is done to a store by acts happens to it while a subscription follows. -/
theorem Run.of_acts {ρ : Type} {start : Following β} (h : start.Run polls f) {o o' : Observed β ρ}
    (hstore : o.store = f.store) (hacts : o.Acts o') :
    ∃ version, start.Run polls { f with store := o'.store, version } := by
  induction hacts with
  | refl =>
    refine ⟨f.version, ?_⟩
    rw [hstore]
    exact h
  | @tail mid o'' _ hact ih =>
    obtain ⟨version, hrun⟩ := ih
    have hsnoc {g : Following β} (hstep : Step { f with store := mid.store, version } none g) :
        start.Run polls g := by
      have hrun' := hrun.snoc hstep
      rw [Option.toList_none, List.append_nil] at hrun'
      exact hrun'
    cases hact with
    | commit edit notes =>
      cases hcommit : mid.store.commit edit.body notes with
      | mk outcome rest =>
        cases outcome with
        | ok touched => exact ⟨version + 1, hsnoc (.committed hcommit)⟩
        | error cause => exact ⟨version, hsnoc (.failed hcommit)⟩
    | refresh =>
      cases hrefresh : mid.store.refresh with
      | mk answer s =>
        have hrefreshed : mid.refresh.2.store = s := congrArg Prod.snd hrefresh
        rw [hrefreshed]
        by_cases hanswer : answer = .ok true
        · subst hanswer
          exact ⟨version + 1, hsnoc (.renewed hrefresh)⟩
        · exact ⟨version, hsnoc (.unchanged hanswer hrefresh)⟩
    | listen _ hpublished => exact ⟨version, hsnoc (.elsewhere hpublished)⟩

end Run

/-- Subscriptions repeat nothing and miss nothing. While a subscription follows a store, whatever is
committed, fails, is picked up, polled or abandoned: what it would yield is what the store reads at
the key with the default, at a reserved key the default; no two values in a row agree; a poll
yields what the store reads now, and is pending, or ends with the store, only if that agrees with
the last value, so the first poll yields; it does not matter whether a pending poll is resumed or
another begins; and after a poll the last value stays what the store reads, or agrees with it,
until something is published. Whatever clients do with a store can happen to it meanwhile. -/
theorem run_repeats_and_misses_nothing [Backend β] {store : Store β} {key : String}
    {default : Value} {polls : List Poll} (hrun : (start store key default).Run polls f) :
    f.subscription.current f.store.published = f.store.getOr key default ∧
    (isReserved key = true → f.store.getOr key default = default) ∧
    (yields polls).IsChain (fun v w => v.same w = false) ∧
    (∀ alive,
      ((f.poll alive).1 = .yielded (f.store.getOr key default) ∧
        ∀ last, (yields polls).getLast? = some last →
          last.same (f.store.getOr key default) = false) ∨
      ((f.poll alive).1 = (if alive then .pending else .ended) ∧
        ∃ last, (yields polls).getLast? = some last ∧
          last.same (f.store.getOr key default) = true)) ∧
    (∀ alive, yields polls = [] → (f.poll alive).1 = .yielded (f.store.getOr key default)) ∧
    (∀ alive, ((f.poll alive).1, (f.poll alive).2.subscription) =
      f.subscription.poll f.store.published alive) ∧
    (∀ alive polls' g, (f.poll alive).2.Run polls' g → g.version = f.version →
      ∃ last, (yields (polls ++ (f.poll alive).1 :: polls')).getLast? = some last ∧
        (last = g.store.getOr key default ∨ last.same (g.store.getOr key default) = true)) ∧
    ∀ {ρ : Type} [Conduct ρ] (o o' : Observed β ρ), o.store = f.store → o.Operation o' →
      ∃ version, (start store key default).Run polls { f with store := o'.store, version } := by
  have hstart : (start store key default).Sound [] := ⟨rfl, .nil, nofun, nofun⟩
  have hsound := hrun.sound hstart
  have hnow : f.current = f.store.getOr key default := current_eq_getOr hrun.target
  have hpolls (alive : Bool) := hsound.poll_cases alive
  rw [List.nil_append] at hsound hpolls
  rw [hnow] at hpolls
  refine ⟨hnow, ?_, hsound.distinct, hpolls, ?_, ?_, ?_, ?_⟩
  · intro hkey
    rw [← hnow, current, Subscription.current, hrun.target.1, hrun.target.2]
    exact if_pos hkey
  · intro alive hnone
    rcases hpolls alive with ⟨hyielded, -⟩ | ⟨-, last, hlast, -⟩
    · exact hyielded
    · rw [hnone] at hlast
      cases hlast
  · intro alive
    rw [hsound.poll_eq alive]
  · intro alive polls' g hrun' hversion
    have hcaught := hrun'.caughtUp (hsound.poll alive) (hsound.caughtUp alive) hversion
    have htarget := (hrun.snoc (.polled alive)).target
    have hnow' : g.current = g.store.getOr key default :=
      current_eq_getOr ⟨hrun'.target.1.trans htarget.1, hrun'.target.2.trans htarget.2⟩
    rw [CaughtUp, hnow', ← yields_append, ← yields_append, List.append_assoc] at hcaught
    exact hcaught
  · intro ρ _ o o' hstore hoperation
    exact hrun.of_acts hstore hoperation.acts

/-- A subscription to an int on a store in memory. The default is yielded, then a value; a string in
its place and a long of the same number follow before the pending poll is resumed, which finds
nothing new. A failed edit changes nothing. Then a string stays, and the default is yielded. -/
theorem run_over_a_detour :
    let polls : List Poll := [.yielded (.int 0), .yielded (.int 1), .pending, .pending,
      .yielded (.int 0)]
    ∃ f : Following Memory,
      (start ⟨⟨Dict.empty⟩, Dict.empty, .empty⟩ "k" (.int 0)).Run polls f ∧
        f.store.getValue? "k" = some (.string "text") ∧ f.store.getOr "k" (.int 0) = .int 0 ∧
        f.subscription.current f.store.published = .int 0 ∧
        (yields polls).IsChain (fun v w => v.same w = false) ∧ (f.poll true).1 = .pending := by
  intro polls
  let set (value : Value) : EditBody Unit StoreError := .ofStep (·.put "k" value)
  let text : Value := .string "text"
  let holding (entries : List (String × Value)) : Store Memory :=
    ⟨⟨.ofList entries⟩, .ofList entries, .empty⟩
  let state (entries : List (String × Value)) (version : Nat) (last : Option Value)
      (waiting : Option Nat) : Following Memory :=
    ⟨holding entries, version, ⟨"k", .int 0, last⟩, waiting⟩
  have hset {entries : List (String × Value)} {version : Nat} {last : Option Value}
      {waiting : Option Nat} (value : Value) {touched : StringSet}
      (h : (holding entries).commit (set value) () = (.ok touched, (), holding [("k", value)])) :
      (state entries version last waiting).Step none
        (state [("k", value)] (version + 1) last waiting) := .committed h
  have hrun : (state [] 0 none none).Run polls (state [("k", text)] 4 (some (.int 0)) none) := by
    have h : (state [] 0 none none).Run [.yielded (.int 0)] (state [] 0 (some (.int 0)) none) :=
      .snoc .nil (.polled true)
    have h := h.snoc (hset (.int 1) rfl)
    have hpolled : (state [("k", .int 1)] 1 (some (.int 0)) none).Step (some (.yielded (.int 1)))
        (state [("k", .int 1)] 1 (some (.int 1)) none) := .polled true
    have hpending : (state [("k", .int 1)] 1 (some (.int 1)) none).Step (some .pending)
        (state [("k", .int 1)] 1 (some (.int 1)) (some 1)) := .polled true
    have h := ((h.snoc hpolled).snoc hpending).snoc (hset text rfl)
    have h := h.snoc (hset (.long 1) rfl)
    have hresumed : (state [("k", .long 1)] 3 (some (.int 1)) (some 1)).Step (some .pending)
        (state [("k", .long 1)] 3 (some (.int 1)) (some 3)) := .polled true
    have hfailed : (state [("k", .long 1)] 3 (some (.int 1)) none).Step none
        (state [("k", .long 1)] 3 (some (.int 1)) none) :=
      .failed (.refl ((holding [("k", .long 1)]).commit (set (.float .nan)) ()))
    have h := (((h.snoc hresumed).snoc .abandoned).snoc hfailed).snoc (hset text rfl)
    have hlast : (state [("k", text)] 4 (some (.int 1)) none).Step (some (.yielded (.int 0)))
        (state [("k", text)] 4 (some (.int 0)) none) := .polled true
    exact h.snoc hlast
  obtain ⟨hcurrent, -, hdistinct, -⟩ := run_repeats_and_misses_nothing hrun
  exact ⟨_, hrun, rfl, rfl, hcurrent, hdistinct, rfl⟩

end Following

end PrefStore
