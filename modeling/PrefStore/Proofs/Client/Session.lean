import PrefStore.Proofs.Client.Blind
import PrefStore.Store.Subscription

/-!
# Reserved keys do not interfere with clients

A session is a store in memory with its listeners and subscriptions, of which clients ask one
thing after another. What they are told, and which calls their listeners see, does not depend on
what the store holds under reserved keys; and what it holds there they never change.
-/

namespace PrefStore

variable {ρ α : Type}

/-- What clients ask of a store. -/
inductive Command where
  | get (kind : Kind) (key : String)
  | getOr (key : String) (default : Value)
  | getValue (key : String)
  | contains (key : String)
  | entries
  | size
  | put (key : String) (value : Option Value)
  | set (key : String) (value : Value)
  | remove (key : String)
  | reset
  | edit (script : Script) (client : script.isClient = true)
  | exportDocument
  | exportDisplay
  | importJson (json : Json)
  | importDocument (document : Document)
  | importPairs (pairs : List LegacyRecord)
  | subscribe (key : String) (default : Value)
  /-- Polls a subscription, by its number in the order of subscribing. -/
  | next (subscription : Nat)
  | register
  | unregister (listener : Nat)

/-- What clients are told. -/
inductive Reply where
  | value (v : Option Value)
  | flag (b : Bool)
  | entries (entries : List (String × Value))
  | number (n : Nat)
  | edited (outcome : Except (Halt StoreError) Unit)
  | ran (ended : Except (Halt StoreError) Unit × List StepResult)
  | document (document : Document)
  | text (text : String)
  | imported (outcome : Except (Halt ImportError) Unit)
  | polled (poll : Option Poll)

/-- A call as a listener sees it, with the entries that clients see at that moment. -/
def Call.seen (call : Call) : Nat × Nat × String × List (String × Value) :=
  (call.depth, call.listener, call.key, call.published.visible)

@[simp] theorem Call.seen_withReserved (call : Call) (r : Snapshot) :
    (call.withReserved r).seen = call.seen := by
  simp [seen, withReserved]

/-- A store in memory, its listeners and subscriptions. -/
structure Session (ρ : Type) where
  observed : Observed Memory ρ
  subscriptions : List Subscription

namespace Session

/-- A session with a new store that is built from a snapshot. -/
def start? (contents : Snapshot) (conduct : ρ) : Except StoreError (Session ρ) :=
  (Store.ofBackend? (⟨contents⟩ : Memory)).map fun store => ⟨⟨store, conduct, []⟩, []⟩

/-- Replies by what an operation on the store answers. -/
def operate (s : Session ρ) (f : Observed Memory ρ → α × Observed Memory ρ) (reply : α → Reply) :
    Reply × Session ρ :=
  (reply (f s.observed).1, ⟨(f s.observed).2, s.subscriptions⟩)

/-- Polls a subscription of a store that still has a handle. -/
def poll (s : Session ρ) (subscription : Nat) : Reply × Session ρ :=
  match s.subscriptions[subscription]? with
  | none => (.polled none, s)
  | some found =>
    let (poll, next) := found.poll s.observed.store.published true
    (.polled (some poll), { s with subscriptions := s.subscriptions.set subscription next })

/-- Changes the listeners. -/
def changeListeners (s : Session ρ) (change : Registry → Registry) : Session ρ :=
  let store := { s.observed.store with listeners := change s.observed.store.listeners }
  { s with observed := { s.observed with store } }

variable [Conduct ρ]

/-- Does what a client asks for. -/
def perform (s : Session ρ) : Command → Reply × Session ρ
  | .get kind key => (.value (s.observed.store.get? kind key), s)
  | .getOr key default => (.value (some (s.observed.store.getOr key default)), s)
  | .getValue key => (.value (s.observed.store.getValue? key), s)
  | .contains key => (.flag (s.observed.store.contains key), s)
  | .entries => (.entries s.observed.store.entries, s)
  | .size => (.number s.observed.store.size, s)
  | .put key value => s.operate (·.put key value) .edited
  | .set key value => s.operate (·.set key value) .edited
  | .remove key => s.operate (·.remove key) .edited
  | .reset => s.operate (·.reset) .edited
  | .edit script _ => s.operate
      (fun o => (((o.runScript script).1, (o.runScript script).2.1), (o.runScript script).2.2)) .ran
  | .exportDocument => (.document s.observed.store.exportDocument, s)
  | .exportDisplay => (.text s.observed.store.exportDisplay, s)
  | .importJson json => s.operate (·.importJson json) .imported
  | .importDocument document => s.operate (·.importDocument document) .imported
  | .importPairs pairs => s.operate (·.importPairs pairs) .imported
  | .subscribe key default => (.number s.subscriptions.length,
      { s with subscriptions := s.subscriptions ++ [.start key default] })
  | .next subscription => s.poll subscription
  | .register => (.number s.observed.store.listeners.next, s.changeListeners (·.register))
  | .unregister listener => (.flag (s.observed.store.listeners.contains listener),
      s.changeListeners (·.unregister listener))

/-- Does what clients ask for, one after another. -/
def run : List Command → Session ρ → List Reply × Session ρ
  | [], s => ([], s)
  | command :: rest, s =>
    let (reply, s) := s.perform command
    let (replies, s) := run rest s
    (reply :: replies, s)

/-! ## With other reserved entries -/

/-- A session with other reserved entries. -/
def withReserved (s : Session ρ) (r : Snapshot) : Session ρ :=
  ⟨s.observed.withReserved r, s.subscriptions⟩

/-- An operation that comes to the same is replied to in the same way. -/
theorem operate_withReserved {f : Observed Memory ρ → α × Observed Memory ρ}
    (hf : Observed.Oblivious f) (reply : α → Reply) (s : Session ρ)
    (hblind : Conduct.Blind s.observed.conduct) :
    (∀ r, (s.withReserved r).operate f reply =
      ((s.operate f reply).1, (s.operate f reply).2.withReserved r)) ∧
    Conduct.Blind (s.operate f reply).2.observed.conduct := by
  refine ⟨fun r => ?_, hf.blind s.observed hblind⟩
  rw [operate, show (s.withReserved r).observed = s.observed.withReserved r from rfl,
    hf.same s.observed r hblind]
  rfl

omit [Conduct ρ] in
private theorem poll_withReserved (s : Session ρ) (r : Snapshot) (subscription : Nat) :
    (s.withReserved r).poll subscription =
      ((s.poll subscription).1, (s.poll subscription).2.withReserved r) := by
  have hpoll (found : Subscription) : found.poll (s.withReserved r).observed.store.published true =
      found.poll s.observed.store.published true := by
    have hcurrent := s.observed.store.published.readOr_withReserved r found.key found.default
    simp only [Subscription.poll, Subscription.current_eq_readOr]
    rw [show (s.withReserved r).observed.store.published =
      s.observed.store.published.withReserved r from rfl, hcurrent]
  unfold poll
  rw [show (s.withReserved r).subscriptions = s.subscriptions from rfl]
  cases s.subscriptions[subscription]? with
  | none => rfl
  | some found =>
    dsimp only
    rw [hpoll found]
    rfl

private theorem perform_withReserved (s : Session ρ) (hblind : Conduct.Blind s.observed.conduct)
    (command : Command) :
    (∀ r, (s.withReserved r).perform command =
      ((s.perform command).1, (s.perform command).2.withReserved r)) ∧
    Conduct.Blind (s.perform command).2.observed.conduct := by
  have hentries (r : Snapshot) :
      (s.withReserved r).observed.store.entries = s.observed.store.entries :=
    s.observed.store.published.visible_withReserved r
  have hvalue (r : Snapshot) (key : String) :
      (s.withReserved r).observed.store.getValue? key = s.observed.store.getValue? key :=
    s.observed.store.published.visibleAt_withReserved r key
  cases command with
  | get kind key =>
    have hget (r : Snapshot) : (s.withReserved r).observed.store.get? kind key =
        s.observed.store.get? kind key := s.observed.store.published.readAs_withReserved r kind key
    exact ⟨fun r => by rw [perform, hget r, perform], hblind⟩
  | getOr key default =>
    have hget (r : Snapshot) : (s.withReserved r).observed.store.getOr key default =
        s.observed.store.getOr key default :=
      s.observed.store.published.readOr_withReserved r key default
    exact ⟨fun r => by rw [perform, hget r, perform], hblind⟩
  | getValue key => exact ⟨fun r => by rw [perform, hvalue r key, perform], hblind⟩
  | contains key =>
    exact ⟨fun r => by rw [perform, Store.contains, hvalue r key, perform, Store.contains],
      hblind⟩
  | entries => exact ⟨fun r => by rw [perform, hentries r, perform], hblind⟩
  | size => exact ⟨fun r => by rw [perform, Store.size, hentries r, perform, Store.size], hblind⟩
  | put key value => exact s.operate_withReserved (Observed.oblivious_put key value) _ hblind
  | set key value => exact s.operate_withReserved (Observed.oblivious_set key value) _ hblind
  | remove key => exact s.operate_withReserved (Observed.oblivious_remove key) _ hblind
  | reset => exact s.operate_withReserved Observed.oblivious_reset _ hblind
  | edit script client =>
    exact s.operate_withReserved (Observed.oblivious_runScript client) _ hblind
  | exportDocument =>
    refine ⟨fun r => ?_, hblind⟩
    rw [perform, Store.exportDocument, hentries r, perform, Store.exportDocument]
  | exportDisplay =>
    refine ⟨fun r => ?_, hblind⟩
    rw [perform, Store.exportDisplay, hentries r, perform, Store.exportDisplay]
  | importJson json => exact s.operate_withReserved (Observed.oblivious_importJson json) _ hblind
  | importDocument document =>
    exact s.operate_withReserved (Observed.oblivious_importDocument document) _ hblind
  | importPairs pairs =>
    exact s.operate_withReserved (Observed.oblivious_importPairs pairs) _ hblind
  | subscribe key default => exact ⟨fun _ => rfl, hblind⟩
  | next subscription =>
    refine ⟨fun r => s.poll_withReserved r subscription, ?_⟩
    rw [perform, poll]
    split <;> exact hblind
  | register => exact ⟨fun _ => rfl, hblind⟩
  | unregister listener => exact ⟨fun _ => rfl, hblind⟩

/-- Whatever clients ask for, one after another, comes to the same with other reserved entries. -/
theorem run_withReserved (commands : List Command) (s : Session ρ)
    (hblind : Conduct.Blind s.observed.conduct) (r : Snapshot) :
    run commands (s.withReserved r) = ((run commands s).1, (run commands s).2.withReserved r) := by
  induction commands generalizing s with
  | nil => rfl
  | cons command rest ih =>
    obtain ⟨hsame, hnext⟩ := s.perform_withReserved hblind command
    rw [run, run, hsame r]
    dsimp only
    rw [ih _ hnext]

/-- Two stores that show clients the same, each with the reserved entries of a snapshot. -/
structure Twins (s t : Snapshot) (a b : Store Memory) : Prop where
  contents : ∀ key, isReserved key = false → a.contents.get? key = b.contents.get? key
  published : ∀ key, isReserved key = false → a.published.get? key = b.published.get? key
  reserved : ∀ key, isReserved key = true →
    a.contents.get? key = s.get? key ∧ a.published.get? key = s.get? key
  reserved' : ∀ key, isReserved key = true →
    b.contents.get? key = t.get? key ∧ b.published.get? key = t.get? key

omit [Conduct ρ] in
/-- A store with the reserved entries of one snapshot and with those of another. -/
theorem twins_withReserved (store : Store Memory) (s t : Snapshot) :
    Twins s t (store.withReserved s) (store.withReserved t) := by
  have hget (u r : Snapshot) (key : String) := u.get?_withReserved r key
  constructor
  case contents =>
    intro key hkey
    show (store.contents.withReserved s).get? key = (store.contents.withReserved t).get? key
    rw [hget, hget, if_neg (by simp [hkey]), if_neg (by simp [hkey])]
  case published =>
    intro key hkey
    show (store.published.withReserved s).get? key = (store.published.withReserved t).get? key
    rw [hget, hget, if_neg (by simp [hkey]), if_neg (by simp [hkey])]
  case reserved =>
    intro key hkey
    exact ⟨(hget _ _ _).trans (if_pos hkey), (hget _ _ _).trans (if_pos hkey)⟩
  case reserved' =>
    intro key hkey
    exact ⟨(hget _ _ _).trans (if_pos hkey), (hget _ _ _).trans (if_pos hkey)⟩

/-- Reserved keys do not interfere with clients. Of two stores in memory that are built from
snapshots which agree at all other keys, clients are told the same whatever they ask for, whether
it succeeds or fails, and blind listeners see the same calls. The stores then still agree at all
other keys, and each holds exactly its own reserved entries. -/
theorem reserved_keys_do_not_interfere {s t : Snapshot}
    (hagree : ∀ key, isReserved key = false → s.get? key = t.get? key) {conduct : ρ}
    (hblind : Conduct.Blind conduct) :
    ∃ a b, start? s conduct = .ok a ∧ start? t conduct = .ok b ∧ ∀ commands,
      (run commands a).1 = (run commands b).1 ∧
      (run commands a).2.observed.calls.map Call.seen =
        (run commands b).2.observed.calls.map Call.seen ∧
      Twins s t (run commands a).2.observed.store (run commands b).2.observed.store := by
  -- Each session is one and the same with the reserved entries of its snapshot, and stays so.
  let a : Session ρ := ⟨⟨⟨⟨s⟩, s, .empty⟩, conduct, []⟩, []⟩
  have hstart {r : Snapshot} (hr : ∀ key, isReserved key = false → s.get? key = r.get? key) :
      start? r conduct = .ok (a.withReserved r) := by
    have hstore : a.observed.store.withReserved r =
        ⟨⟨s.withReserved r⟩, s.withReserved r, .empty⟩ := rfl
    rw [Snapshot.withReserved_eq_of_agree hr] at hstore
    simp only [withReserved, Observed.withReserved, hstore]
    rfl
  have hcalls (r : Snapshot) (o : Observed Memory ρ) :
      (o.withReserved r).calls.map Call.seen = o.calls.map Call.seen := by
    simp [Observed.withReserved, Function.comp_def]
  refine ⟨a.withReserved s, a.withReserved t, hstart fun _ _ => rfl, hstart hagree,
    fun commands => ?_⟩
  rw [run_withReserved commands a hblind s, run_withReserved commands a hblind t]
  exact ⟨rfl, (hcalls s _).trans (hcalls t _).symm, twins_withReserved _ s t⟩

/-- Clients that register a listener which writes back, set the key that it waits for, fail to
write a reserved key and ask for everything are told the same by two stores of which one holds
an odd flag and the other a version that is no number. -/
theorem odd_reserved_entries_do_not_interfere :
    let s : Snapshot := ⟨[(migrationKey, .string "odd"), ("a", .int 1)], by decide⟩
    let t : Snapshot := ⟨[(versionKey, .float .nan), ("a", .int 1)], by decide⟩
    let book : Rulebook := ⟨Dict.empty, [], [⟨0, "a", .set "b" (.int 2), false⟩]⟩
    let commands : List Command :=
      [.register, .set "a" (.int 3), .remove versionKey, .subscribe migrationKey (.long 4),
        .next 0, .exportDocument]
    (∀ key, isReserved key = false → s.get? key = t.get? key) ∧ Conduct.Blind book ∧
      ∃ a b, start? s book = .ok a ∧ start? t book = .ok b ∧
        (run commands a).1 = (run commands b).1 ∧
        Twins s t (run commands a).2.observed.store (run commands b).2.observed.store := by
  intro s t book commands
  have hagree : ∀ key, isReserved key = false → s.get? key = t.get? key := by
    intro key hkey
    have hover : s.withReserved t = t := by decide
    rw [← hover, Snapshot.get?_withReserved, if_neg (by simp [hkey])]
  have hblind : Conduct.Blind book := book.blind
  obtain ⟨a, b, ha, hb, hruns⟩ := reserved_keys_do_not_interfere hagree hblind
  obtain ⟨hreplies, -, htwins⟩ := hruns commands
  exact ⟨hagree, hblind, a, b, ha, hb, hreplies, htwins⟩

end Session

end PrefStore
