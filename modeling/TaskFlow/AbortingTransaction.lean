import Mathlib.Data.List.Basic

/-! # A transaction that a failed statement aborts

After a statement that fails, the database refuses every other statement of the transaction until
it is rolled back.  A program that catches the failure goes on with a transaction that is lost
(`Tx.recover`): what it has read before stays in its hands, and nothing of what it writes is kept.
-/

/-- The database as the transaction has it, and whether a statement has failed. -/
structure Transaction (D : Type) where
  database : D
  aborted : Bool

/-- A program that runs statements in a transaction, and returns or throws. -/
structure Tx (D α : Type) where
  run : Transaction D → Option α × Transaction D

namespace Tx
variable {D α β : Type} {tx tx' : Transaction D}

instance : Monad (Tx D) where
  pure a := ⟨fun tx => (some a, tx)⟩
  bind body next := ⟨fun tx =>
    match body.run tx with
    | (some a, tx) => (next a).run tx
    | (none, tx) => (none, tx)⟩

/-- `try` and `catch`, which answers `a`. -/
def recover (body : Tx D α) (a : α) : Tx D α :=
  ⟨fun tx => (some ((body.run tx).1.getD a), (body.run tx).2)⟩

def statement (fails : Bool) (answer : D → α × D) : Tx D α := ⟨fun tx =>
  if tx.aborted || fails then (none, { tx with aborted := true })
  else (some (answer tx.database).1, { tx with database := (answer tx.database).2 })⟩

def select (fails : Bool) (read : D → α) : Tx D α := statement fails fun db => (read db, db)

/-- What is written is kept if the program returns and no statement has failed. -/
def transact (body : Tx D α) (database : D) : Option α × D :=
  let (answer, tx) := body.run ⟨database, false⟩
  (answer, if answer.isSome ∧ tx.aborted = false then tx.database else database)

theorem run_pure (a : α) : (pure a : Tx D α).run tx = (some a, tx) := rfl

theorem run_bind_of_some {body : Tx D α} {next : α → Tx D β} {a : α}
    (h : body.run tx = (some a, tx')) : (body >>= next).run tx = (next a).run tx' := by
  change (match body.run tx with
    | (some a, tx) => (next a).run tx
    | (none, tx) => (none, tx)) = _
  rw [h]

theorem run_bind_of_none {body : Tx D α} {next : α → Tx D β}
    (h : body.run tx = (none, tx')) : (body >>= next).run tx = (none, tx') := by
  change (match body.run tx with
    | (some a, tx) => (next a).run tx
    | (none, tx) => (none, tx)) = _
  rw [h]

theorem run_statement_of_aborted (fails : Bool) (answer : D → α × D) (db : D) :
    (statement fails answer).run ⟨db, true⟩ = (none, ⟨db, true⟩) := rfl

theorem run_statement (answer : D → α × D) (db : D) :
    (statement false answer).run ⟨db, false⟩ =
      (some (answer db).1, ⟨(answer db).2, false⟩) := rfl

/-- What throws is rolled back. -/
theorem transact_of_none {body : Tx D α} {db : D} (h : body.run ⟨db, false⟩ = (none, tx')) :
    transact body db = (none, db) := by
  simp [transact, h]

theorem transact_of_some {body : Tx D α} {db db' : D} {a : α}
    (h : body.run ⟨db, false⟩ = (some a, ⟨db', false⟩)) : transact body db = (some a, db') := by
  simp [transact, h]

end Tx
