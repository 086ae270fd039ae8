import PrefStore.Proofs.Database.Connection

/-!
# Transactions on a connection

Statements change the working copy of a transaction and never its connection. So a rollback gives
back the connection on which the transaction began, wherever among its statements it stopped, and
only a commit makes durable what the statements left. A transaction commits a result that holds no
NaN, and is rolled back otherwise.
-/

namespace PrefStore

namespace Transaction

variable {rows rows' : List PreferenceRow}

/-! ## What is committed stays as it is -/

/-- A statement leaves the connection as it is, also if it fails. -/
theorem connection_execute (tx : Transaction) (statement : Statement) :
    (tx.execute statement).2.connection = tx.connection := by
  unfold execute
  split <;> rfl

/-- Statements leave the connection as it is, wherever they stop. -/
theorem connection_executeAll (tx : Transaction) (statements : List Statement) :
    (tx.executeAll statements).2.connection = tx.connection := by
  induction statements generalizing tx with
  | nil => rfl
  | cons statement rest ih =>
    have hstep := tx.connection_execute statement
    unfold executeAll
    split
    · next hexecute =>
      rw [hexecute] at hstep
      exact hstep
    · next next hexecute =>
      rw [hexecute] at hstep
      exact (ih next).trans hstep

/-- To read the rows, or to delete them, leaves the connection as it is. -/
theorem connection_readOrClear (tx : Transaction) :
    tx.readOrClear.2.connection = tx.connection := by
  have hclear := tx.connection_execute .clear
  unfold readOrClear
  split
  · rfl
  · split
    · rfl
    · split
      · next hexecute =>
        rw [hexecute] at hclear
        exact hclear
      · next hexecute =>
        rw [hexecute] at hclear
        exact hclear

/-! ## What the statements leave -/

/-- Statements that the table takes leave the rows that they come to. -/
theorem executeAll_of_run? (tx : Transaction) {statements : List Statement}
    (hrows : tx.rows = some rows) (hrun : Rows.run? statements rows = some rows') :
    tx.executeAll statements = (.ok (), { tx with rows := some rows' }) := by
  induction statements generalizing tx rows with
  | nil =>
    cases hrun
    rw [executeAll, ← hrows]
  | cons statement rest ih =>
    rw [Rows.run?_cons, Option.bind_eq_some_iff] at hrun
    obtain ⟨mid, hstatement, hrest⟩ := hrun
    have hexecute : tx.execute statement = (.ok (), { tx with rows := some mid }) := by
      rw [execute, hrows, Option.bind_some, hstatement]
    rw [executeAll, hexecute]
    exact ih { tx with rows := some mid } rfl hrest

private theorem executeAll_of_refused (tx : Transaction) {statements : List Statement}
    (hrows : tx.rows = some rows) (hrun : Rows.run? statements rows = none) :
    (tx.executeAll statements).1 = .error .database := by
  induction statements generalizing tx rows with
  | nil => cases hrun
  | cons statement rest ih =>
    cases hstatement : statement.run? rows with
    | none => rw [executeAll, execute, hrows, Option.bind_some, hstatement]
    | some mid =>
      rw [Rows.run?_cons, hstatement, Option.bind_some] at hrun
      rw [executeAll, execute, hrows, Option.bind_some, hstatement]
      exact ih { tx with rows := some mid } rfl hrun

/-- Rows are read as what they hold, and those that stay are left. -/
theorem readOrClear_of_rows (tx : Transaction) (hrows : tx.rows = some rows) :
    tx.readOrClear =
      (.ok (Connection.contents rows), { tx with rows := some (Connection.salvage rows) }) := by
  cases hread : Rows.snapshot? rows with
  | none => simp [readOrClear, execute, Statement.run?, Connection.contents, Connection.salvage,
      hrows, hread]
  | some s =>
    simp only [readOrClear, Connection.contents, Connection.salvage, hrows, hread,
      Option.getD_some, Option.isSome_some, if_true]
    rw [← hrows]

end Transaction

namespace Connection

variable {ν ε : Type} {c c' : Connection} {rows rows' : List PreferenceRow} {t : Transform ν ε}
  {notes notes' : ν} {after : Snapshot}

/-- Wherever a transaction stops, be it to read the rows or among statements, a rollback gives back
the connection on which it began. -/
theorem rollback_transaction (c : Connection) (statements : List Statement) :
    c.transaction.readOrClear.2.rollback = c ∧
      (c.transaction.readOrClear.2.executeAll statements).2.rollback = c := by
  have hread : c.transaction.readOrClear.2.connection = c :=
    c.transaction.connection_readOrClear
  exact ⟨hread, (Transaction.connection_executeAll _ _).trans hread⟩

/-- A failed transaction leaves a connection as it was. -/
theorem transact_error {stop : Stop ε} (h : c.transact t notes = (.error stop, notes', c')) :
    c' = c := by
  obtain ⟨hread, -⟩ := c.rollback_transaction []
  have hwrite (after before : Snapshot) :=
    (c.rollback_transaction (Rows.difference before after)).2
  unfold transact at h
  split at h
  · next hstopped =>
    rw [hstopped] at hread
    cases h
    exact hread
  · next before tx hbegun =>
    rw [hbegun] at hread hwrite
    split at h
    · cases h
      exact hread
    · next after found _ =>
      split at h
      · next hrefused =>
        have hback := hwrite after before
        rw [← Transaction.writeDiff, hrefused] at hback
        cases h
        exact hback
      · cases h

/-- Without its table a connection refuses a transaction. -/
theorem transact_of_no_table (hrows : c.database.preferences = none) :
    c.transact t notes = (.error (.failed .database), notes, c) := by
  simp only [transact, Transaction.readOrClear, transaction, hrows, Transaction.rollback]

/-- A transform that stops stops the transaction. -/
theorem transact_of_halt (hrows : c.database.preferences = some rows) {cause : Halt ε}
    (hrun : t (contents rows) notes = (.error cause, notes')) :
    c.transact t notes = (.error (.halted cause), notes', c) := by
  have hread := c.transaction.readOrClear_of_rows hrows
  simp only [transact, hread, hrun]
  rfl

/-- A result whose difference the table takes is committed. -/
theorem transact_of_run? (hrows : c.database.preferences = some rows)
    (hrun : t (contents rows) notes = (.ok after, notes'))
    (hwrite : Rows.run? (Rows.difference (contents rows) after) (salvage rows) = some rows') :
    c.transact t notes = (.ok after, notes', c.commitRows rows') := by
  have hread := c.transaction.readOrClear_of_rows hrows
  simp only [transact, hread, hrun, Transaction.writeDiff,
    Transaction.executeAll_of_run? { c.transaction with rows := some (salvage rows) } rfl hwrite]
  rfl

/-- A result that holds a NaN is refused by the table, and the transaction is rolled back. -/
theorem transact_of_nan (hrows : c.database.preferences = some rows)
    (hrun : t (contents rows) notes = (.ok after, notes')) (hnan : ¬ after.Regular) :
    c.transact t notes = (.error (.failed .database), notes', c) := by
  have hread := c.transaction.readOrClear_of_rows hrows
  have hrefused : Rows.run? (Rows.difference (contents rows) after) (salvage rows) = none := by
    rw [← Option.not_isSome_iff_eq_none, Rows.run?_difference_isSome_iff (hold_salvage rows)]
    exact hnan
  have hfails :=
    Transaction.executeAll_of_refused { c.transaction with rows := some (salvage rows) } rfl
      hrefused
  have hend : c.transact t notes =
      (.error (.failed .database), notes', (c.transact t notes).2.2) := by
    simp only [transact, hread, hrun, Transaction.writeDiff]
    generalize Transaction.executeAll _ _ = executed at hfails ⊢
    obtain ⟨answer, tx⟩ := executed
    cases hfails
    rfl
  rw [hend, transact_error hend]

/-- A result that holds no NaN is committed as rows that hold what is left of it and of what was
there before. -/
theorem transact_of_regular (hrows : c.database.preferences = some rows)
    (hrun : t (contents rows) notes = (.ok after, notes')) (hafter : after.Regular) :
    ∃ rows' s, c.transact t notes = (.ok after, notes', c.commitRows rows') ∧
      Rows.Hold rows' s ∧
      (∀ key, s.get? key = Value.settle ((contents rows).get? key) (after.get? key)) ∧
      s.same after = true := by
  obtain ⟨rows', s, hwrite, hhold, hsettles⟩ := (hold_salvage rows).difference_settles hafter
  exact ⟨rows', s, transact_of_run? hrows hrun hwrite, hhold, hsettles,
    Rows.same_of_settles hafter hsettles⟩

/-- A result that is what was there before is committed as the rows that stay. -/
theorem transact_of_same (hrows : c.database.preferences = some rows)
    (hrun : t (contents rows) notes = (.ok (contents rows), notes')) :
    c.transact t notes = (.ok (contents rows), notes', c.commitRows (salvage rows)) :=
  transact_of_run? hrows hrun (by rw [Rows.difference_self (contents_regular rows), Rows.run?_nil])

/-- A transaction commits only what its transform completed with, and only if that holds no NaN. -/
theorem of_transact_ok (hrows : c.database.preferences = some rows)
    (h : c.transact t notes = (.ok after, notes', c')) :
    t (contents rows) notes = (.ok after, notes') ∧ after.Regular := by
  cases hrun : t (contents rows) notes with
  | mk outcome found =>
    cases outcome with
    | error cause =>
      rw [transact_of_halt hrows hrun] at h
      cases h
    | ok next =>
      by_cases hnext : next.Regular
      · obtain ⟨rows', _, htransact, -⟩ := transact_of_regular hrows hrun hnext
        rw [htransact] at h
        cases h
        exact ⟨rfl, hnext⟩
      · rw [transact_of_nan hrows hrun hnext] at h
        cases h

/-- A committed transaction has committed some rows through its connection. -/
theorem transact_ok (h : c.transact t notes = (.ok after, notes', c')) :
    ∃ rows, c' = c.commitRows rows := by
  cases hrows : c.database.preferences with
  | none =>
    rw [transact_of_no_table hrows] at h
    cases h
  | some rows =>
    obtain ⟨hrun, hafter⟩ := of_transact_ok hrows h
    obtain ⟨rows', _, htransact, -⟩ := transact_of_regular hrows hrun hafter
    rw [htransact] at h
    cases h
    exact ⟨rows', rfl⟩

end Connection

end PrefStore
