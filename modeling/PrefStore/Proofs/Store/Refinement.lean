import Mathlib.Data.List.Forall2
import PrefStore.Proofs.Edit.Agreement
import PrefStore.Proofs.Fleet.Isolation
import PrefStore.Proofs.Store.Dispatch

/-!
# A store over a database refines one in memory

The same requests are made of a store over a connection and of a store in memory: scripts to
run as edits, loads, refreshes, closing and opening again, registrations and drops. The rows of
the database hold a snapshot that agrees with the one in memory, and this is kept by every
request; so whatever the requests, their answers agree, the same calls are made, and what is
loaded and published agrees all along.
-/

namespace PrefStore

variable {β : Type}

/-- A backend that can be closed and opened again. -/
class Reopens (β : Type) where
  reopen? : β → Except StoreError β

/-- A snapshot in memory stays what it is. -/
instance : Reopens Memory := ⟨.ok⟩

/-- A database is opened by a new connection. -/
instance : Reopens Connection := ⟨fun c => Connection.open? c.database⟩

/-- What a client asks of a store. -/
inductive Request where
  | edit (script : Script)
  | load
  | refresh
  | reopen
  | register
  | unregister (listener : Nat)
  deriving DecidableEq

/-- What a store answers. -/
inductive Answer where
  | edited (outcome : Except (Halt StoreError) Unit) (results : List StepResult)
  | loaded (contents : Except StoreError Snapshot)
  | refreshed (changed : Except StoreError Bool)
  | reopened (outcome : Except StoreError Unit)
  | registered (listener : Nat)
  | unregistered (found : Bool)

/-- The answer to a request, and what can be seen of the store afterwards: what a load gives,
what is published, and the calls that were made so far. -/
structure Response where
  answer : Answer
  loaded : Except StoreError Snapshot
  published : Snapshot
  calls : List Call

namespace Observed

variable [Backend β] [Reopens β]

/-- A new store over a backend, with listeners that never act. -/
def start? (b : β) : Except StoreError (Observed β Unit) :=
  (Store.ofBackend? b).map fun store => ⟨store, (), []⟩

/-- Answers a request. -/
def serve (o : Observed β Unit) : Request → Answer × Observed β Unit
  | .edit script =>
    let (outcome, results, o) := o.runScript script
    (.edited outcome results, o)
  | .load =>
    let (answer, backend) := Backend.load o.store.backend
    (.loaded answer, { o with store := { o.store with backend } })
  | .refresh =>
    let (answer, o) := o.refresh
    (.refreshed answer, o)
  | .reopen =>
    match (Reopens.reopen? o.store.backend).bind Store.ofBackend? with
    | .ok store => (.reopened (.ok ()), { o with store })
    | .error cause => (.reopened (.error cause), o)
  | .register =>
    (.registered o.store.listeners.next,
      { o with store := { o.store with listeners := o.store.listeners.register } })
  | .unregister listener =>
    (.unregistered (o.store.listeners.contains listener),
      { o with store := { o.store with listeners := o.store.listeners.unregister listener } })

/-- The responses to requests, one after another. -/
def transcript : List Request → Observed β Unit → List Response
  | [], _ => []
  | request :: rest, o =>
    let (answer, o) := o.serve request
    ⟨answer, (Backend.load o.store.backend).1, o.store.published, o.calls⟩ :: transcript rest o

end Observed

/-! ## Agreement -/

/-- Answers agree if they are equal, values being compared by agreement. -/
def Answer.Agrees : Answer → Answer → Prop
  | edited outcome results, edited outcome' results' =>
    outcome = outcome' ∧ List.Forall₂ StepResult.Agrees results results'
  | loaded (.ok s), loaded (.ok s') => s.same s' = true
  | a, b => a = b

/-- Calls agree if they are equal, published values being compared by agreement. -/
structure Call.Agrees (call call' : Call) : Prop where
  depth : call.depth = call'.depth
  listener : call.listener = call'.listener
  key : call.key = call'.key
  published : call.published.same call'.published = true

/-- Responses agree if their answers and calls do, if both loads succeed, and if what is loaded
and what is published is all one. -/
structure Response.Agrees (r r' : Response) : Prop where
  answer : r.answer.Agrees r'.answer
  loaded : ∃ s s', r.loaded = .ok s ∧ r'.loaded = .ok s' ∧ s.same s' = true ∧
    r.published.same s = true ∧ r'.published.same s' = true
  published : r.published.same r'.published = true
  calls : List.Forall₂ Call.Agrees r.calls r'.calls

/-! ## Edits -/

namespace Observed

/-- Listeners that never act are notified by the calls that are due and nothing else. -/
theorem notify_idle [Backend β] (keys : StringSet) (o : Observed β Unit) :
    notify (respond 0 0) keys o = { o with
      calls := o.calls ++ (due keys o.store.listeners.active).map fun call =>
        ⟨0, call.2, call.1, o.store.published⟩ } := by
  rw [notify_eq_foldl]
  generalize due keys o.store.listeners.active = calls
  induction calls generalizing o with
  | nil => simp
  | cons call rest ih =>
    rw [List.foldl_cons, ih]
    simp [respond, record]

/-- A script is run in one commit, which is followed by the calls that are due. -/
theorem runScript_idle [Backend β] (o : Observed β Unit) (script : Script) :
    o.runScript script = match o.store.commit script.body [] with
      | (.ok touched, results, s) => (.ok (), results, { o with
          store := s
          calls := o.calls ++ (due touched s.listeners.active).map fun call =>
            ⟨0, call.2, call.1, s.published⟩ })
      | (.error cause, results, s) => (.error cause, results, { o with store := s }) := by
  rw [runScript, edit, editBy]
  generalize o.store.commit script.body [] = result
  obtain ⟨outcome, results, s⟩ := result
  cases outcome with
  | error cause => rfl
  | ok touched => exact congrArg _ (congrArg _ (notify_idle touched { o with store := s }))

/-! ## The simulation -/

/-- A store over a connection is simulated by one in memory: the connection has seen every commit,
and each of the stores publishes its contents, which agree with the other's. -/
structure Simulates (o : Observed Connection Unit) (p : Observed Memory Unit) : Prop where
  counts : o.store.backend.Counts
  current : o.store.backend.database.Current
  seen : o.store.backend.foreign = o.store.backend.seen
  contents : o.store.contents.same p.store.contents = true
  published : o.store.published.same o.store.contents = true
  publishes : p.store.published = p.store.contents
  listeners : o.store.listeners = p.store.listeners
  calls : List.Forall₂ Call.Agrees o.calls p.calls

namespace Simulates

variable {o : Observed Connection Unit} {p : Observed Memory Unit}

private theorem published_same (h : Simulates o p) :
    o.store.published.same p.store.published = true := by
  rw [h.publishes]
  exact Snapshot.same_trans h.published h.contents

/-- Edits of both stores begin with drafts that agree. -/
theorem draft (h : Simulates o p) : o.store.draft.Same p.store.draft := ⟨h.contents, rfl⟩

private theorem due_agrees (calls : List (String × Nat)) {s s' : Snapshot} (h : s.same s' = true) :
    List.Forall₂ Call.Agrees (calls.map fun call => ⟨0, call.2, call.1, s⟩)
      (calls.map fun call => ⟨0, call.2, call.1, s'⟩) := by
  rw [List.forall₂_map_left_iff, List.forall₂_map_right_iff, List.forall₂_same]
  exact fun call _ => ⟨rfl, rfl, rfl, h⟩

/-- A store in memory simulates one over a connection that was just opened or loaded from. -/
theorem of_opened {c : Connection} (hcounts : c.Counts) (hcurrent : c.database.Current)
    {m : Memory} (hcontents : c.table.same m.contents = true) (listeners : Registry)
    {calls calls' : List Call} (hcalls : List.Forall₂ Call.Agrees calls calls') :
    Simulates ⟨⟨{ c with seen := c.foreign }, c.table, listeners⟩, (), calls⟩
      ⟨⟨m, m.contents, listeners⟩, (), calls'⟩ where
  counts := ⟨hcounts.table, hcounts.own_le, le_rfl⟩
  current := hcurrent
  seen := rfl
  contents := hcontents
  published := (Connection.contents_regular _).same_self
  publishes := rfl
  listeners := rfl
  calls := hcalls

/-- An edit that is committed leaves a connection that has seen every commit. -/
theorem seen_of_commit (h : Simulates o p) {script : Script} {touched : StringSet}
    {results : List StepResult} {s : Store Connection}
    (hcommit : o.store.commit script.body [] = (.ok touched, results, s)) :
    s.backend.foreign = s.backend.seen ∧ s.backend.database.Current := by
  obtain ⟨rows, hrows⟩ := Connection.transact_ok (Store.commit_eq_ok_iff.1 hcommit).1
  rw [hrows]
  exact ⟨(Connection.seen_commitRows _ _).symm, h.current.commitRows _⟩

/-- Scripts that are run on both stores end alike with agreeing results and agreeing calls. -/
theorem edit (h : Simulates o p) (script : Script) :
    (o.serve (.edit script)).1.Agrees (p.serve (.edit script)).1 ∧
      Simulates (o.serve (.edit script)).2 (p.serve (.edit script)).2 := by
  have hmemory := p.store.commit_memory script.body []
  have hsame := script.run_same h.draft
  have hrun : script.edit.body o.store.draft [] = script.run o.store.draft := rfl
  have hrun' : script.body p.store.draft [] = script.run p.store.draft := rfl
  rw [hrun'] at hmemory
  generalize script.run o.store.draft = ended at hrun hsame
  generalize script.run p.store.draft = ended' at hmemory hsame
  obtain ⟨outcome, results⟩ := ended
  obtain ⟨outcome', results'⟩ := ended'
  obtain ⟨hends, hresults⟩ := hsame
  cases hends with
  | stopped cause =>
    have hcommit : o.store.commit script.body [] = (.error cause, results, o.store) :=
      Store.commit_stop h.counts hrun
    simp only [serve, runScript_idle, hcommit, hmemory]
    exact ⟨⟨rfl, hresults⟩, h⟩
  | @completed d e hdrafts =>
    obtain ⟨s, hedit, hpublished, hcontents, hcounts, -⟩ := Store.commit_ok h.counts hrun
    have hcommit : o.store.commit script.body [] = (.ok d.touched, results, s) := hedit
    obtain ⟨hseen, hcurrent⟩ := h.seen_of_commit hcommit
    have hlisteners : s.listeners = p.store.listeners :=
      (Store.commit_eq_ok_iff.1 hcommit).2.trans h.listeners
    have hpublishes : s.published.same e.entries = true := hpublished ▸ hdrafts.entries
    simp only [serve, runScript_idle, hcommit, hmemory, hdrafts.touched, hlisteners]
    refine ⟨⟨rfl, hresults⟩, ?_⟩
    exact {
      counts := hcounts
      current := hcurrent
      seen := hseen
      contents := Snapshot.same_trans hcontents hdrafts.entries
      published := Store.synced_of_same hpublished hcontents
      publishes := rfl
      listeners := hlisteners
      calls := List.rel_append h.calls (due_agrees _ hpublishes) }

/-- Every request is answered alike, and the stores simulate each other afterwards. -/
theorem serve (h : Simulates o p) (request : Request) :
    (o.serve request).1.Agrees (p.serve request).1 ∧
      Simulates (o.serve request).2 (p.serve request).2 := by
  cases request with
  | edit script => exact h.edit script
  | load =>
    refine ⟨h.contents, ?_⟩
    exact { h with counts := ⟨h.counts.table, h.counts.own_le, le_rfl⟩, seen := rfl }
  | refresh =>
    have hasked : Backend.changed o.store.backend = (.ok false, o.store.backend) := by
      show (Except.ok (decide (o.store.backend.foreign ≠ o.store.backend.seen)), _) = _
      simp [h.seen]
    have hrefresh : o.serve .refresh = (.refreshed (.ok false), o) := by
      simp only [Observed.serve, Observed.refresh, Store.refresh, hasked]
    rw [hrefresh]
    exact ⟨rfl, h⟩
  | reopen =>
    obtain ⟨c, hopen⟩ := Connection.open?_of_current h.current h.counts.table
    have hreopen : Reopens.reopen? o.store.backend = .ok c := hopen
    have hserve : o.serve .reopen = (.reopened (.ok ()),
        { o with store := ⟨{ c with seen := c.foreign }, c.table, .empty⟩ }) := by
      rw [Observed.serve, hreopen]
      rfl
    have hcontents : c.table.same p.store.backend.contents = true := by
      rw [Connection.table, Connection.contents_open? hopen]
      exact h.contents
    rw [hserve]
    exact ⟨rfl, of_opened (Connection.counts_open? hopen).1 (Connection.current_open? hopen)
      hcontents .empty h.calls⟩
  | register =>
    have hnumber : Answer.registered o.store.listeners.next =
        .registered p.store.listeners.next := by rw [h.listeners]
    refine ⟨hnumber, ?_⟩
    exact { h with listeners := congrArg Registry.register h.listeners }
  | unregister listener =>
    have hfound : Answer.unregistered (o.store.listeners.contains listener) =
        .unregistered (p.store.listeners.contains listener) := by rw [h.listeners]
    refine ⟨hfound, ?_⟩
    exact { h with listeners := congrArg (·.unregister listener) h.listeners }

/-- What can be seen of both stores agrees. -/
theorem response (h : Simulates o p) {answer answer' : Answer} (hanswer : answer.Agrees answer') :
    Response.Agrees ⟨answer, (Backend.load o.store.backend).1, o.store.published, o.calls⟩
      ⟨answer', (Backend.load p.store.backend).1, p.store.published, p.calls⟩ where
  answer := hanswer
  loaded := by
    refine ⟨o.store.contents, p.store.contents, rfl, rfl, h.contents, h.published, ?_⟩
    rw [h.publishes]
    exact Snapshot.same_trans ((Snapshot.same_comm _ _).trans h.contents) h.contents
  published := h.published_same
  calls := h.calls

/-- All requests are responded to alike. -/
theorem transcript (h : Simulates o p) (requests : List Request) :
    List.Forall₂ Response.Agrees (o.transcript requests) (p.transcript requests) := by
  induction requests generalizing o p with
  | nil => exact .nil
  | cons request rest ih =>
    obtain ⟨hanswer, hnext⟩ := h.serve request
    exact .cons (hnext.response hanswer) (ih hnext)

end Simulates

/-! ## The refinement -/

/-- A store over a database whose table is empty when it is opened responds to all requests as a
new store in memory does: with agreeing answers, with agreeing results of every operation of a
script, and with calls for the same keys, while what is loaded and published agrees after each of
them. The rows behind it are written by differences, and a transaction that writes a difference over
rows that hold the first snapshot does not fail and leaves rows that hold one which agrees with the
second, if the values of the second can be stored. -/
theorem database_refines_memory :
    (∀ {d : Database} {c : Connection}, Connection.open? d = .ok c → d.contents = Dict.empty →
      ∃ o p, start? c = .ok o ∧ start? (⟨Dict.empty⟩ : Memory) = .ok p ∧
        ∀ requests, List.Forall₂ Response.Agrees (o.transcript requests) (p.transcript requests)) ∧
    ∀ {tx : Transaction} {rows : List PreferenceRow} {before after : Snapshot},
      tx.rows = some rows → Rows.Hold rows before →
      (∀ key v, after.get? key = some v → v.validate = .ok ()) →
        ∃ rows' s, tx.writeDiff before after = (.ok (), { tx with rows := some rows' }) ∧
          Rows.Hold rows' s ∧ s.same after = true := by
  constructor
  · intro d c hopen hempty
    have hcontents : c.table.same Dict.empty = true := by
      rw [Connection.table, Connection.contents_open? hopen, hempty]
      rfl
    have hstart := Simulates.of_opened (Connection.counts_open? hopen).1
      (Connection.current_open? hopen) (m := ⟨Dict.empty⟩) hcontents .empty .nil
    exact ⟨_, _, rfl, rfl, hstart.transcript⟩
  · intro tx rows before after hrows hhold hafter
    have hregular : after.Regular := fun key v hv =>
      Value.same_self_of_storable (Value.validate_eq_ok_iff.1 (hafter key v hv))
    obtain ⟨rows', s, hrun, hhold', hsettles⟩ := hhold.difference_settles hregular
    exact ⟨rows', s, tx.executeAll_of_run? hrows hrun, hhold',
      Rows.same_of_settles hregular hsettles⟩

/-- Requests that write one zero over the other, which a database does not store anew, try to
write a NaN, open the store again, and end with an edit that is given up. -/
def signedZeros : List Request :=
  [.register, .edit [⟨.put "a" (.float (.zero false)), false⟩],
    .edit [⟨.put "a" (.float (.zero true)), false⟩, ⟨.put "b" (.float .nan), true⟩,
      ⟨.get "a", false⟩],
    .reopen, .load, .edit [⟨.clear, false⟩, ⟨.abort, false⟩]]

/-- A new database and a snapshot in memory respond alike to `signedZeros`, and the difference of
the two zeros, with another key added, is written. -/
theorem database_refines_memory_on_zeros :
    let opened : Connection :=
      ⟨{ versions := some [1], preferences := some [], commits := 1 }, 0, 1⟩
    let rows := [PreferenceRow.ofEntry "a" (.float (.zero false))]
    let before : Snapshot := ⟨[("a", .float (.zero false))], by decide⟩
    let after : Snapshot := ⟨[("a", .float (.zero true)), ("b", .int 7)], by decide⟩
    Connection.open? {} = .ok opened ∧
      (∃ o p, start? opened = .ok o ∧ start? (⟨Dict.empty⟩ : Memory) = .ok p ∧
        List.Forall₂ Response.Agrees (o.transcript signedZeros) (p.transcript signedZeros)) ∧
      Rows.Hold rows before ∧ (∀ key v, after.get? key = some v → v.validate = .ok ()) ∧
      ∃ rows' s, Transaction.writeDiff ⟨opened, some rows⟩ before after =
          (.ok (), ⟨opened, some rows'⟩) ∧
        Rows.Hold rows' s ∧ s.same after = true := by
  intro opened rows before after
  have hopen : Connection.open? {} = .ok opened := rfl
  obtain ⟨o, p, ho, hp, hresponses⟩ := database_refines_memory.1 hopen rfl
  have hhold : Rows.Hold rows before := rfl
  have hvalid : ∀ key v, after.get? key = some v → v.validate = .ok () := by
    intro key v hv
    rcases List.mem_cons.1 (Dict.mem_entries_iff.2 hv) with h | h
    · cases h
      rfl
    · cases List.mem_singleton.1 h
      rfl
  let tx : Transaction := ⟨opened, some rows⟩
  have hrows : tx.rows = some rows := rfl
  exact ⟨hopen, ⟨o, p, ho, hp, hresponses signedZeros⟩, hhold, hvalid,
    database_refines_memory.2 hrows hhold hvalid⟩

end Observed

end PrefStore
