import PrefStore.Proofs.Store.Commit
import PrefStore.Proofs.Store.Notify
import PrefStore.Proofs.Store.Registry

/-!
# Dispatch

A commit calls the listeners, and a listener that is called may commit again, which calls
listeners inside that call. The log of a dispatch is what happened in it, commits and calls and
what listeners saw, one after another. Two things are shown of every log: it is what the store
went through, one event at a time, and it is ordered, that is, the calls that are due are made
in turn, and what else happens lies inside one of them, with the dispatches of nested commits
ordered in the same way.
-/

namespace PrefStore

namespace Observed

variable {β ρ ν ε : Type}

/-- What happens in a dispatch. -/
inductive Event where
  /-- An edit that wrote certain keys was committed, and published a snapshot, while certain
  listeners were registered. -/
  | committed (touched : StringSet) (listeners : List Nat) (published : Snapshot)
  | called (call : Call)
  /-- A listener looked at the published snapshot. -/
  | looked (published : Snapshot)

/-- What happened in a dispatch, the oldest first. -/
abbrev Log := List Event

namespace Log

/-- The calls in a log. -/
def calls (log : Log) : List Call :=
  log.filterMap fun
    | .called call => some call
    | _ => none

/-- The calls in a log that a dispatch of some depth made itself, as key and listener. -/
def ownCalls (depth : Nat) (log : Log) : List (String × Nat) :=
  (log.calls.filter (·.depth = depth)).map fun call => (call.key, call.listener)

/-- The snapshot that the last commit published, if there was one after the given snapshot. -/
def latest : Snapshot → Log → Snapshot
  | published, [] => published
  | _, .committed _ _ published :: rest => latest published rest
  | published, _ :: rest => latest published rest

/-- Whatever listeners see is what the last commit before published. -/
def SeesLatest : Snapshot → Log → Prop
  | _, [] => True
  | _, .committed _ _ published :: rest => SeesLatest published rest
  | published, .called call :: rest => call.published = published ∧ SeesLatest published rest
  | published, .looked seen :: rest => seen = published ∧ SeesLatest published rest

@[simp] theorem calls_append (log log' : Log) : Log.calls (log ++ log') = log.calls ++ log'.calls :=
  List.filterMap_append

private theorem latest_append (published : Snapshot) (log log' : Log) :
    Log.latest published (log ++ log') = log'.latest (log.latest published) := by
  induction log generalizing published with
  | nil => rfl
  | cons event rest ih => cases event <;> exact ih _

private theorem seesLatest_append {published : Snapshot} {log log' : Log} :
    Log.SeesLatest published (log ++ log') ↔
      log.SeesLatest published ∧ log'.SeesLatest (log.latest published) := by
  induction log generalizing published with
  | nil => simp [SeesLatest, latest]
  | cons event rest ih =>
    cases event with
    | committed touched listeners committed => exact ih
    | called call => simp only [List.cons_append, SeesLatest, latest, ih, and_assoc]
    | looked seen => simp only [List.cons_append, SeesLatest, latest, ih, and_assoc]

end Log

/-! ## What a store goes through -/

/-- One thing happens to a store, which is logged unless nobody can see it. -/
inductive Happens [Backend β] (o : Observed β ρ) : Log → Observed β ρ → Prop where
  | committed {ν ε : Type} [IncludesStore ε] {edit : Edit ν ε} {notes notes' : ν}
      {touched : StringSet} {s : Store β}
      (h : o.store.commit edit.body notes = (.ok touched, notes', s)) :
      Happens o [.committed touched s.listeners.active s.published] { o with store := s }
  | failed {ν ε : Type} [IncludesStore ε] {edit : Edit ν ε} {notes notes' : ν}
      {cause : Halt ε} {s : Store β}
      (h : o.store.commit edit.body notes = (.error cause, notes', s)) :
      Happens o [] { o with store := s }
  | called (depth listener : Nat) (key : String) :
      Happens o [.called ⟨depth, listener, key, o.store.published⟩] (o.record depth listener key)
  | looked (conduct : ρ) : Happens o [.looked o.store.published] { o with conduct }
  | registered :
      Happens o [] { o with store := { o.store with listeners := o.store.listeners.register } }
  | unregistered (listener : Nat) :
      Happens o [] { o with
        store := { o.store with listeners := o.store.listeners.unregister listener } }

/-- A store goes through what a log says, and nothing else. -/
inductive Undergoes [Backend β] (o : Observed β ρ) : Log → Observed β ρ → Prop where
  | nil : Undergoes o [] o
  | snoc {log events : Log} {o' o'' : Observed β ρ} :
      Undergoes o log o' → Happens o' events o'' → Undergoes o (log ++ events) o''

section Undergoes

variable [Backend β] {o o' o'' : Observed β ρ} {log log' : Log}

/-- A store goes through a single thing that happens. -/
theorem Happens.undergoes (h : Happens o log o') : Undergoes o log o' := Undergoes.nil.snoc h

theorem Undergoes.trans (h : Undergoes o log o') (h' : Undergoes o' log' o'') :
    Undergoes o (log ++ log') o'' := by
  induction h' with
  | nil => simpa using h
  | snoc _ hstep ih =>
    rw [← List.append_assoc]
    exact ih.snoc hstep

private theorem Undergoes.calls_eq (h : Undergoes o log o') : o'.calls = o.calls ++ log.calls := by
  induction h with
  | nil => exact (List.append_nil _).symm
  | snoc _ hstep ih =>
    rw [Log.calls_append, ← List.append_assoc, ← ih]
    cases hstep with
    | called depth listener key => rfl
    | _ => exact (List.append_nil _).symm

private theorem Undergoes.published_eq (h : Undergoes o log o') :
    o'.store.published = log.latest o.store.published := by
  induction h with
  | nil => rfl
  | @snoc _ _ o' _ _ hstep ih =>
    rw [Log.latest_append, ← ih]
    cases hstep with
    | failed h =>
      obtain ⟨-, -, -, hkept⟩ := Store.commit_error h
      rw [hkept]
      rfl
    | _ => rfl

/-- Listeners see the latest at any time. -/
theorem Undergoes.seesLatest (h : Undergoes o log o') : log.SeesLatest o.store.published := by
  induction h with
  | nil => trivial
  | snoc h hstep ih =>
    rw [Log.seesLatest_append, ← h.published_eq]
    refine ⟨ih, ?_⟩
    cases hstep with
    | called depth listener key => exact ⟨rfl, trivial⟩
    | looked conduct => exact ⟨rfl, trivial⟩
    | _ => trivial

private theorem Happens.length_le (h : Happens o log o') : log.length ≤ 1 := by
  cases h <;> simp

/-- A log can be stopped anywhere. -/
theorem Undergoes.split (h : Undergoes o log o') {before later : Log}
    (hlog : log = before ++ later) :
    ∃ mid, Undergoes o before mid ∧ Undergoes mid later o' := by
  induction h generalizing later with
  | nil =>
    obtain ⟨rfl, rfl⟩ := List.append_eq_nil_iff.1 hlog.symm
    exact ⟨o, .nil, .nil⟩
  | @snoc log events o' o'' h hstep ih =>
    rcases List.append_eq_append_iff.1 hlog with ⟨rest, rfl, rfl⟩ | ⟨rest, hbefore, rfl⟩
    · -- The stop lies before the last event or behind it.
      have hlength := hstep.length_le
      cases rest with
      | nil => exact ⟨o', by simpa using h, hstep.undergoes⟩
      | cons event rest =>
        obtain rfl : later = [] := by
          rw [List.length_append, List.length_cons] at hlength
          exact List.eq_nil_of_length_eq_zero (by omega)
        exact ⟨o'', h.snoc (by simpa using hstep), .nil⟩
    · obtain ⟨mid, hfirst, hrest⟩ := ih hbefore
      exact ⟨mid, hfirst, hrest.trans hstep.undergoes⟩

/-- What is published agrees with the contents at any time, if it does in the beginning. -/
theorem Undergoes.agrees [Transactional β] (h : Undergoes o log o')
    (hagrees : o.store.contents.Agrees o.store.published) :
    o'.store.contents.Agrees o'.store.published := by
  induction h with
  | nil => exact hagrees
  | snoc _ hstep ih =>
    cases hstep with
    | committed h => exact Store.agrees_of_commit_ok h
    | failed h =>
      have hcontents := Store.contents_of_commit_error h
      obtain ⟨-, -, -, hkept⟩ := Store.commit_error h
      have hpublished := congrArg Store.published hkept
      dsimp only at hpublished ⊢
      rw [hcontents, hpublished]
      exact ih
    | called | looked | registered | unregistered => exact ih

end Undergoes

/-! ## Order -/

/-- The calls that are due after a commit: key by key, and for each key listener by listener. -/
def due (touched : StringSet) (listeners : List Nat) : List (String × Nat) :=
  touched.items.flatMap fun key => listeners.map fun listener => (key, listener)

/-- Listeners are notified by the calls that are due. -/
theorem notify_eq_foldl (respond : Nat → String → Observed β ρ → Observed β ρ) (keys : StringSet)
    (o : Observed β ρ) : notify respond keys o =
      (due keys o.store.listeners.active).foldl (fun o call => respond call.2 call.1 o) o := by
  simp only [notify, due, List.foldl_flatMap, List.foldl_map]

/-- What a listener does inside a call: it looks, or it commits an edit, which is followed by
the dispatch that belongs to it. -/
inductive Deed where
  | look (published : Snapshot)
  | commit (touched : StringSet) (listeners : List Nat) (published : Snapshot) (dispatch : Log)

/-- What is logged of a deed. -/
def Deed.log : Deed → Log
  | look published => [.looked published]
  | commit touched listeners published dispatch =>
    .committed touched listeners published :: dispatch

/-- The log of a dispatch is ordered if it has the calls that are due, in turn, and after each of
them the deeds of the listener, and if the dispatches of nested commits are ordered, one call
deeper, by what those commits wrote and by the listeners that were registered then. -/
inductive Ordered : (depth : Nat) → List (String × Nat) → Log → Prop where
  | done {depth : Nat} : Ordered depth [] []
  | call {depth listener : Nat} {key : String} {published : Snapshot}
      {calls : List (String × Nat)} {rest : Log} (deeds : List Deed)
      (hdeeds : ∀ touched listeners published dispatch,
        .commit touched listeners published dispatch ∈ deeds →
          Ordered (depth + 1) (due touched listeners) dispatch)
      (hrest : Ordered depth calls rest) :
      Ordered depth ((key, listener) :: calls)
        (.called ⟨depth, listener, key, published⟩ :: (deeds.flatMap Deed.log ++ rest))

/-- The dispatches that deeds cause are ordered. -/
def OrderedDeeds (depth : Nat) (deeds : List Deed) : Prop :=
  ∀ touched listeners published dispatch,
    .commit touched listeners published dispatch ∈ deeds →
      Ordered depth (due touched listeners) dispatch

private theorem mem_calls_deeds {deeds : List Deed} {call : Call}
    (h : call ∈ Log.calls (deeds.flatMap Deed.log)) :
    ∃ touched listeners published dispatch,
      .commit touched listeners published dispatch ∈ deeds ∧ call ∈ Log.calls dispatch := by
  rw [Log.calls, List.mem_filterMap] at h
  obtain ⟨event, hevent, hcall⟩ := h
  obtain ⟨deed, hdeed, hevent⟩ := List.mem_flatMap.1 hevent
  cases deed with
  | look published =>
    obtain rfl := List.mem_singleton.1 hevent
    cases hcall
  | commit touched listeners published dispatch =>
    refine ⟨touched, listeners, published, dispatch, hdeed, List.mem_filterMap.2 ⟨event, ?_, hcall⟩⟩
    rcases List.mem_cons.1 hevent with rfl | hevent
    · cases hcall
    · exact hevent

private theorem Ordered.le_depth {depth : Nat} {calls : List (String × Nat)} {log : Log}
    (h : Ordered depth calls log) : ∀ call ∈ log.calls, depth ≤ call.depth := by
  induction h with
  | done => simp [Log.calls]
  | @call depth listener key published calls rest deeds _ _ ih ihrest =>
    intro call hcall
    have hcalls : call = ⟨depth, listener, key, published⟩ ∨
        call ∈ Log.calls (deeds.flatMap Deed.log) ∨ call ∈ rest.calls := by
      simpa [Log.calls] using hcall
    rcases hcalls with rfl | hcall | hcall
    · exact le_rfl
    · obtain ⟨touched, listeners, published, dispatch, hdeed, hcall⟩ := mem_calls_deeds hcall
      exact (Nat.le_succ depth).trans (ih touched listeners published dispatch hdeed call hcall)
    · exact ihrest call hcall

/-- An ordered dispatch itself makes exactly the calls that are due. -/
theorem Ordered.ownCalls_eq {depth : Nat} {calls : List (String × Nat)} {log : Log}
    (h : Ordered depth calls log) : log.ownCalls depth = calls := by
  induction h with
  | done => rfl
  | @call depth listener key published calls rest deeds hdeeds _ _ ihrest =>
    have hdeeper : (Log.calls (deeds.flatMap Deed.log)).filter (·.depth = depth) = [] := by
      refine List.filter_eq_nil_iff.2 fun call hcall => ?_
      obtain ⟨touched, listeners, published, dispatch, hdeed, hcall⟩ := mem_calls_deeds hcall
      have hdepth := (hdeeds touched listeners published dispatch hdeed).le_depth call hcall
      simp only [decide_eq_true_eq]
      omega
    have hcalls : Log.calls (.called ⟨depth, listener, key, published⟩ ::
        (deeds.flatMap Deed.log ++ rest)) =
          ⟨depth, listener, key, published⟩ ::
            (Log.calls (deeds.flatMap Deed.log) ++ rest.calls) := by
      rw [← Log.calls_append]
      rfl
    rw [Log.ownCalls, hcalls, List.filter_cons_of_pos (by simp), List.filter_append, hdeeper,
      List.nil_append, List.map_cons]
    exact congrArg _ ihrest

/-! ## Listeners that act -/

section Acting

variable [Backend β]

/-- One store comes from another by what a listener does inside a call. -/
def Does (depth : Nat) (o o' : Observed β ρ) : Prop :=
  ∃ deeds : List Deed, OrderedDeeds depth deeds ∧ Undergoes o (deeds.flatMap Deed.log) o'

/-- A way to respond to a call keeps the order if it records the call and then does what a
listener may do inside it. -/
def Responds (depth : Nat) (respond : Nat → String → Observed β ρ → Observed β ρ) : Prop :=
  ∀ listener key o, Does (depth + 1) (o.record depth listener key) (respond listener key o)

theorem Does.refl (depth : Nat) (o : Observed β ρ) : Does depth o o :=
  ⟨[], by simp [OrderedDeeds], .nil⟩

theorem Does.trans {depth : Nat} {o o' o'' : Observed β ρ} (h : Does depth o o')
    (h' : Does depth o' o'') : Does depth o o'' := by
  obtain ⟨deeds, hdeeds, hlog⟩ := h
  obtain ⟨deeds', hdeeds', hlog'⟩ := h'
  refine ⟨deeds ++ deeds', ?_, by rw [List.flatMap_append]; exact hlog.trans hlog'⟩
  intro touched listeners published dispatch hmem
  rcases List.mem_append.1 hmem with hmem | hmem
  · exact hdeeds _ _ _ _ hmem
  · exact hdeeds' _ _ _ _ hmem

/-- A listener may do what nobody sees. -/
theorem Happens.does {depth : Nat} {o o' : Observed β ρ} (h : Happens o [] o') :
    Does depth o o' :=
  ⟨[], by simp [OrderedDeeds], h.undergoes⟩

private theorem does_foldl {α : Type} {depth : Nat} {step : Observed β ρ → α → Observed β ρ}
    (hstep : ∀ o a, Does depth o (step o a)) (items : List α) (o : Observed β ρ) :
    Does depth o (items.foldl step o) := by
  induction items generalizing o with
  | nil => exact .refl depth o
  | cons a rest ih => exact (hstep o a).trans (ih (step o a))

variable {depth : Nat} {respond : Nat → String → Observed β ρ → Observed β ρ}

/-- A notification is an ordered dispatch, if its responses keep the order. -/
theorem notify_undergoes (hrespond : Responds depth respond) (keys : StringSet)
    (o : Observed β ρ) :
    ∃ log, Undergoes o log (notify respond keys o) ∧
      Ordered depth (due keys o.store.listeners.active) log := by
  rw [notify_eq_foldl]
  generalize due keys o.store.listeners.active = calls
  induction calls generalizing o with
  | nil => exact ⟨[], .nil, .done⟩
  | cons call calls ih =>
    obtain ⟨key, listener⟩ := call
    obtain ⟨deeds, hdeeds, hlog⟩ := hrespond listener key o
    obtain ⟨rest, hrest, hordered⟩ := ih (respond listener key o)
    have hcall := (Happens.called (o := o) depth listener key).undergoes
    exact ⟨_, hcall.trans (hlog.trans hrest), .call deeds hdeeds hordered⟩

/-- What a listener does with the store it may do, if the responses to its commits keep the
order one call deeper. -/
theorem perform_does (hrespond : Responds depth respond) (o : Observed β ρ) (action : Action) :
    Does depth o (perform respond o action) := by
  cases action with
  | register => exact (Happens.registered (o := o)).does
  | unregister listener => exact (Happens.unregistered (o := o) listener).does
  | edit script =>
    cases hcommit : o.store.commit script.edit.body [] with
    | mk outcome rest =>
      obtain ⟨notes, s⟩ := rest
      cases outcome with
      | error cause =>
        have hperform : perform respond o (.edit script) = { o with store := s } := by
          rw [perform, editBy, show script.body = script.edit.body from rfl, hcommit]
        rw [hperform]
        exact (Happens.failed hcommit).does
      | ok touched =>
        have hperform : perform respond o (.edit script) =
            notify respond touched { o with store := s } := by
          rw [perform, editBy, show script.body = script.edit.body from rfl, hcommit]
        obtain ⟨log, hlog, hordered⟩ := notify_undergoes hrespond touched { o with store := s }
        rw [hperform]
        refine ⟨[.commit touched s.listeners.active s.published log], ?_, ?_⟩
        · intro touched' listeners published dispatch hmem
          cases List.mem_singleton.1 hmem
          exact hordered
        · rw [List.flatMap_singleton]
          exact (Happens.committed hcommit).undergoes.trans hlog

variable [Conduct ρ]

/-- A turn is a look and what the listener does then. -/
theorem takeTurn_does (hrespond : Responds depth respond) (listener : Nat) (key : String)
    (o : Observed β ρ) (turn : Nat) : Does depth o (takeTurn respond listener key o turn) := by
  have hlook (conduct : ρ) : Does depth o { o with conduct } := by
    refine ⟨[.look o.store.published], by simp [OrderedDeeds], ?_⟩
    rw [List.flatMap_singleton]
    exact (Happens.looked conduct).undergoes
  unfold takeTurn
  split
  · next conduct _ => exact hlook conduct
  · next action conduct _ => exact (hlook conduct).trans (perform_does hrespond _ action)

/-- Listeners keep the order, however deep their calls nest. -/
theorem responds (levels depth : Nat) :
    Responds depth (Observed.respond levels depth : Nat → String → Observed β ρ → _) := by
  induction levels generalizing depth with
  | zero => exact fun listener key o => .refl _ _
  | succ levels ih =>
    intro listener key o
    exact does_foldl (takeTurn_does (ih (depth + 1)) listener key) _ _

end Acting

/-! ## Exactness -/

private theorem Ordered.published_head {depth : Nat} {calls : List (String × Nat)} {log : Log}
    (h : Ordered depth calls log) {published : Snapshot} (hsees : log.SeesLatest published) :
    ∀ call, log.calls.head? = some call → call.published = published := by
  intro call hcall
  cases h with
  | done => cases hcall
  | call deeds hdeeds hrest =>
    cases hcall
    exact hsees.1

/-- Every edit that is committed calls the listeners exactly as they are due: its own calls are
one for each key that was written, ascending, and for each listener that was registered when the
dispatch began, in the order of registration. What listeners do when they are called is nested
inside that call, with dispatches of its own that are ordered in the same way. The first call
sees what was committed, each one sees the latest commit, and at any moment the published
snapshot agrees with the committed contents. Numbers of listeners are never given out twice, and
a listener is registered exactly if it was registered once and has not been dropped since. -/
theorem dispatch_is_exact [Backend β] [Conduct ρ] [IncludesStore ε] {o : Observed β ρ}
    {edit : Edit ν ε} {notes notes' : ν} {touched : StringSet} {s : Store β}
    (hcommit : o.store.commit edit.body notes = (.ok touched, notes', s)) :
    (∃ log o', o.edit edit.body notes = (.ok (), notes', o') ∧
      Undergoes { o with store := s } log o' ∧
      Ordered 0 (due touched o.store.listeners.active) log ∧
      o'.calls = o.calls ++ log.calls ∧
      log.ownCalls 0 = due touched o.store.listeners.active ∧
      log.SeesLatest s.published ∧
      (∀ call, log.calls.head? = some call → call.published = s.published) ∧
      ∀ [Transactional β], ∀ before later, log = before ++ later →
        ∃ mid, Undergoes { o with store := s } before mid ∧ Undergoes mid later o' ∧
          mid.store.contents.Agrees mid.store.published) ∧
    touched.items.Pairwise (· < ·) ∧
    Backend.transact o.store.backend (Store.transform edit.body) (notes, Dict.empty) =
      (.ok s.published, (notes', touched), s.backend) ∧
    ∀ changes : List Registration,
      (Registry.after changes).active.Pairwise (· < ·) ∧
      (∀ listener, (Registry.after changes).contains listener = true ↔
        Registry.Remains changes listener) ∧
      ∀ before later, changes = before ++ .register :: later →
        (Registry.after before).next < (Registry.after changes).next := by
  obtain ⟨htransact, hlisteners⟩ := Store.commit_eq_ok_iff.1 hcommit
  have hedit := edit_eq_ok_iff.2 ⟨touched, s, hcommit, rfl⟩
  obtain ⟨log, hlog, hordered⟩ := notify_undergoes
    (responds (Conduct.depth o.conduct) 0) touched { o with store := s }
  dsimp only at hordered
  rw [hlisteners] at hordered
  refine ⟨⟨log, _, hedit, hlog, hordered, hlog.calls_eq, hordered.ownCalls_eq, hlog.seesLatest,
    hordered.published_head hlog.seesLatest, ?_⟩, ?_, htransact, ?_⟩
  · intro _ before later hsplit
    obtain ⟨mid, hbefore, hlater⟩ := hlog.split hsplit
    exact ⟨mid, hbefore, hlater, hbefore.agrees (Store.agrees_of_commit_ok hcommit)⟩
  · exact List.pairwise_map.2 touched.ascending
  · intro changes
    refine ⟨Registry.active_after_ascending changes, fun listener => ?_, ?_⟩
    · rw [Registry.contains, List.contains_iff_mem, Registry.mem_active_after]
    · rintro before later rfl
      exact Registry.next_lt_next_after before later

/-- A store in memory with two listeners. When the first one is called for the key `a` it drops
the second one, and when it is called for `b` it sets another key; the second one registers a
third listener when it is called for `a`. -/
def twoListeners : Observed Memory Rulebook where
  store := ⟨⟨Dict.empty⟩, Dict.empty, ⟨2, [0, 1]⟩⟩
  conduct := {
    names := .ofList [("first", 0), ("second", 1)]
    labels := [(0, "first"), (1, "second")]
    rules := [⟨0, "a", .unregister "second", false⟩, ⟨1, "a", .register "third", false⟩,
      ⟨0, "b", .set "c" (.boolean true), false⟩] }
  calls := []

/-- A script that writes two keys, the second one first. -/
def twoKeys : Script := [⟨.put "b" (.boolean true), false⟩, ⟨.remove "a", false⟩]

/-- The listener that is dropped during the dispatch is still called for both keys, the one that
is registered during it is called by the nested commit only. -/
theorem dispatch_to_two_listeners :
    ∃ touched notes' s, twoListeners.store.commit twoKeys.edit.body [] =
        (.ok touched, notes', s) ∧
      ∃ log o', twoListeners.edit twoKeys.edit.body [] = (.ok (), notes', o') ∧
        Ordered 0 [("a", 0), ("a", 1), ("b", 0), ("b", 1)] log ∧
        log.ownCalls 0 = [("a", 0), ("a", 1), ("b", 0), ("b", 1)] ∧
        log.SeesLatest s.published ∧
        (log.calls.map fun call => (call.depth, call.key, call.listener)) =
          [(0, "a", 0), (0, "a", 1), (0, "b", 0), (1, "c", 0), (1, "c", 2), (0, "b", 1)] ∧
        Registry.Remains [.register, .register, .unregister 0] 1 := by
  have hcommit : twoListeners.store.commit twoKeys.edit.body [] =
      (.ok ⟨[("a", ()), ("b", ())], by decide⟩, [.done, .done],
        ⟨⟨⟨[("b", .boolean true)], by decide⟩⟩, ⟨[("b", .boolean true)], by decide⟩,
          ⟨2, [0, 1]⟩⟩) := by
    rfl
  refine ⟨_, _, _, hcommit, ?_⟩
  obtain ⟨⟨log, o', hedit, -, hordered, hcalls, hown, hsees, -⟩, -, -, hregistry⟩ :=
    dispatch_is_exact hcommit
  refine ⟨log, o', hedit, hordered, hown, hsees, ?_, ?_⟩
  · have hlog : o'.calls = log.calls := hcalls
    rw [← hlog, show o' = (twoListeners.edit twoKeys.edit.body []).2.2 from
      congrArg (fun result => result.2.2) hedit.symm]
    rfl
  · exact ((hregistry _).2.1 1).1 rfl

end Observed

end PrefStore
