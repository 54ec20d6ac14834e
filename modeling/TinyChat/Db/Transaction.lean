import Mathlib.Data.List.TakeWhile
import TinyChat.Db.SqlConnPool

/-! A transaction over one `SqlConnRAII` whose connection may be lost before every
step. `execute_update` replaces a lost connection by one in autocommit mode and goes
on, so the writes before and after the loss fare differently. -/
namespace TinyChat.Db

variable {Statement : Type}

/-- The server's side of a connection. A lost connection has no writes to commit and
one in autocommit mode has committed them all; every call on a lost one throws. -/
inductive Session (Statement : Type) where
  | lost
  | autoCommit
  | inTransaction (pending : List Statement)

/-- The connection of a live `SqlConnRAII` and all writes committed since it was
constructed. -/
structure Transaction (Statement : Type) where
  sql : Session Statement
  committed : List Statement

/-- How the server answers a statement. -/
inductive Answer where
  | executed
  | rejected
  /-- The connection is lost after `isValid()` and before the write. -/
  | lost
  deriving DecidableEq

/-- One `execute_update` and what happens around it. -/
structure Update (Statement : Type) where
  statement : Statement
  /-- The connection is lost before the call. -/
  lost : Bool
  /-- `getConn` returns, if the call needs a new connection. -/
  connects : Bool
  answer : Answer

inductive Finish where
  | commit
  | rollback
  deriving DecidableEq

/-- A use of one `SqlConnRAII` with everything its environment does: connections are lost and
statements rejected, but COMMIT and ROLLBACK on a connection that is not lost succeed. -/
structure Script (Statement : Type) where
  beginLost : Bool
  updates : List (Update Statement)
  finish : Finish
  finishLost : Bool
  /-- The caller catches an exception and calls `rollback()`. -/
  catches : Bool
  rollbackLost : Bool
  destroyLost : Bool

namespace Transaction

/-- `getConn` hands out connections in autocommit mode. -/
def start : Transaction Statement := { sql := .autoCommit, committed := [] }

def lose (lost : Bool) (transaction : Transaction Statement) : Transaction Statement :=
  if lost then { transaction with sql := .lost } else transaction

/-- Switching autocommit on commits an open transaction. -/
def setAutoCommit (on : Bool) : Transaction Statement →
    Except (Transaction Statement) (Transaction Statement)
  | ⟨.lost, committed⟩ => .error ⟨.lost, committed⟩
  | ⟨.autoCommit, committed⟩ => .ok ⟨if on then .autoCommit else .inTransaction [], committed⟩
  | ⟨.inTransaction pending, committed⟩ =>
    .ok (if on then ⟨.autoCommit, committed ++ pending⟩ else ⟨.inTransaction pending, committed⟩)

def beginTransaction (transaction : Transaction Statement) :
    Except (Transaction Statement) (Transaction Statement) :=
  transaction.setAutoCommit false

/-- On a live connection it is taken to succeed, as is `rollback`. -/
def commit : Transaction Statement → Except (Transaction Statement) (Transaction Statement)
  | ⟨.lost, committed⟩ => .error ⟨.lost, committed⟩
  | ⟨.autoCommit, committed⟩ => .ok ⟨.autoCommit, committed⟩
  | ⟨.inTransaction pending, committed⟩ => .ok ⟨.inTransaction [], committed ++ pending⟩

def rollback : Transaction Statement → Except (Transaction Statement) (Transaction Statement)
  | ⟨.lost, committed⟩ => .error ⟨.lost, committed⟩
  | ⟨.autoCommit, committed⟩ => .ok ⟨.autoCommit, committed⟩
  | ⟨.inTransaction _, committed⟩ => .ok ⟨.inTransaction [], committed⟩

/-- `SqlConnRAII::getSql`. -/
def getSql (connects : Bool) : Transaction Statement →
    Except (Transaction Statement) (Transaction Statement)
  | ⟨.lost, committed⟩ =>
    if connects then .ok ⟨.autoCommit, committed⟩ else .error ⟨.lost, committed⟩
  | transaction => .ok transaction

/-- `prepareStatement` and `executeUpdate` on the connection `getSql` returned. -/
def execute (statement : Statement) : Answer → Transaction Statement →
    Except (Transaction Statement) (Transaction Statement)
  | .rejected, transaction => .error transaction
  | .lost, transaction => .error (transaction.lose true)
  | .executed, ⟨.lost, committed⟩ => .error ⟨.lost, committed⟩
  | .executed, ⟨.autoCommit, committed⟩ => .ok ⟨.autoCommit, committed ++ [statement]⟩
  | .executed, ⟨.inTransaction pending, committed⟩ =>
    .ok ⟨.inTransaction (pending ++ [statement]), committed⟩

def executeUpdate (update : Update Statement) (transaction : Transaction Statement) :
    Except (Transaction Statement) (Transaction Statement) :=
  ((transaction.lose update.lost).getSql update.connects).bind
    fun transaction => transaction.execute update.statement update.answer

def executeUpdates : List (Update Statement) → Transaction Statement →
    Except (Transaction Statement) (Transaction Statement)
  | [], transaction => .ok transaction
  | update :: rest, transaction =>
    (transaction.executeUpdate update).bind fun transaction => executeUpdates rest transaction

def finish (how : Finish) (transaction : Transaction Statement) :
    Except (Transaction Statement) (Transaction Statement) :=
  match how with
  | .commit => transaction.commit
  | .rollback => transaction.rollback

/-- What the caller does with an exception before it leaves the scope of the object. -/
def handle (script : Script Statement) (transaction : Transaction Statement) :
    Transaction Statement :=
  if script.catches then
    match (transaction.lose script.rollbackLost).rollback with
    | .ok rolledBack => rolledBack
    | .error unchanged => unchanged
  else transaction

/-- The writes committed once `~SqlConnRAII` is done; an exception out of
`setAutoCommit` would end the program. -/
def destroy (transaction : Transaction Statement) : List Statement :=
  match transaction.sql with
  | .inTransaction _ =>
    match transaction.setAutoCommit true with
    | .ok restored => restored.committed
    | .error unchanged => unchanged.committed
  | _ => transaction.committed

end Transaction

namespace Script

open Transaction

/-- The calls of the script up to the first that throws. -/
def body (script : Script Statement) :
    Except (Transaction Statement) (Transaction Statement) :=
  (beginTransaction (start.lose script.beginLost)).bind fun begun =>
    (begun.executeUpdates script.updates).bind fun updated =>
      (updated.lose script.finishLost).finish script.finish

/-- `commit()` is called and returns normally. -/
def commitReturned (script : Script Statement) : Bool :=
  script.body.isOk && script.finish == .commit

/-- The writes committed when the object is destroyed. -/
def committed (script : Script Statement) : List Statement :=
  match script.body with
  | .ok done => (done.lose script.destroyLost).destroy
  | .error thrown => ((thrown.handle script).lose script.destroyLost).destroy

def statements (script : Script Statement) : List Statement :=
  script.updates.map Update.statement

/-- All of the writes if the commit returned, else none of them. -/
def AllOrNothing (script : Script Statement) : Prop :=
  script.committed = if script.commitReturned then script.statements else []

end Script

/-- The call gets a connection and its statement is executed. -/
def Update.succeeds (update : Update Statement) : Bool :=
  (!update.lost || update.connects) && update.answer == .executed

namespace Script

/-- The updates before the first that throws. -/
def returned (script : Script Statement) : List (Update Statement) :=
  script.updates.takeWhile Update.succeeds

/-- The update that throws. -/
def thrower (script : Script Statement) : Option (Update Statement) :=
  script.updates.find? fun update => !update.succeeds

/-- An update is rejected on the connection that has earlier writes pending, nobody
rolls back, and the destructor finds the connection valid. -/
structure Leaks (script : Script Statement) : Prop where
  pending : script.returned ≠ []
  rejected : ∃ update, script.thrower = some update ∧ update.lost = false ∧
    update.answer = .rejected
  uncaught : script.catches = false
  alive : script.destroyLost = false

/-- All writes go to a replacement, return, and are then committed. -/
structure Replaced (script : Script Statement) : Prop where
  first : ∃ update, script.updates.head? = some update ∧ update.lost = true
  returns : script.thrower = none
  commits : script.finish = .commit ∧ script.finishLost = false

/-- When the transaction is all or nothing. -/
inductive Intact (script : Script Statement) : Prop where
  | notBegun (lost : script.beginLost = true)
  | kept (original : ∀ update ∈ script.returned, update.lost = false) (noLeak : ¬ script.Leaks)
  | replaced (whole : script.Replaced)

end Script

namespace Transaction

variable {transaction : Transaction Statement} {update : Update Statement}
variable {updates : List (Update Statement)} {earlier committed : List Statement}

/-- The writes that a commit would commit. -/
def pending (transaction : Transaction Statement) : List Statement :=
  match transaction.sql with
  | .inTransaction pending => pending
  | _ => []

@[simp] theorem lose_committed (lost : Bool) (transaction : Transaction Statement) :
    (transaction.lose lost).committed = transaction.committed := by
  cases lost <;> rfl

@[simp] theorem lose_pending (lost : Bool) (transaction : Transaction Statement) :
    (transaction.lose lost).pending = if lost then [] else transaction.pending := by
  cases lost <;> rfl

/-- The destructor commits what is pending on a valid connection. -/
@[simp] theorem destroy_eq (transaction : Transaction Statement) :
    transaction.destroy = transaction.committed ++ transaction.pending := by
  obtain ⟨sql, committed⟩ := transaction
  cases sql <;> simp [destroy, setAutoCommit, pending]

@[simp] theorem handle_committed (script : Script Statement)
    (transaction : Transaction Statement) :
    (transaction.handle script).committed = transaction.committed := by
  obtain ⟨sql, committed⟩ := transaction
  unfold handle
  cases script.catches <;> cases script.rollbackLost <;> cases sql <;> rfl

@[simp] theorem handle_pending (script : Script Statement) (transaction : Transaction Statement) :
    (transaction.handle script).pending = if script.catches then [] else transaction.pending := by
  obtain ⟨sql, committed⟩ := transaction
  unfold handle
  cases script.catches <;> cases script.rollbackLost <;> cases sql <;> rfl

theorem executeUpdate_autoCommit (succeeds : update.succeeds = true) :
    executeUpdate update ⟨.autoCommit, committed⟩ =
      .ok ⟨.autoCommit, committed ++ [update.statement]⟩ := by
  obtain ⟨statement, lost, connects, answer⟩ := update
  cases lost <;> cases connects <;> cases answer <;> first | rfl | cases succeeds

/-- A lost connection is replaced by one in autocommit mode, whatever it was. -/
theorem executeUpdate_lost (lost : update.lost = true) (succeeds : update.succeeds = true) :
    executeUpdate update transaction =
      .ok ⟨.autoCommit, transaction.committed ++ [update.statement]⟩ := by
  rw [← executeUpdate_autoCommit succeeds]
  simp [executeUpdate, lose, lost, getSql]

theorem executeUpdate_inTransaction (valid : update.lost = false)
    (succeeds : update.succeeds = true) :
    executeUpdate update ⟨.inTransaction earlier, committed⟩ =
      .ok ⟨.inTransaction (earlier ++ [update.statement]), committed⟩ := by
  obtain ⟨statement, lost, connects, answer⟩ := update
  cases valid
  cases answer <;> first | rfl | cases succeeds

/-- What is left after an update that throws: only a rejected statement leaves the
earlier writes pending. -/
theorem executeUpdate_throws (throws : update.succeeds = false) :
    ∃ thrown, transaction.executeUpdate update = .error thrown ∧
      thrown.committed = transaction.committed ∧
      thrown.pending =
        if update.lost = false ∧ update.answer = .rejected then transaction.pending else [] := by
  obtain ⟨statement, lost, connects, answer⟩ := update
  obtain ⟨sql, committed⟩ := transaction
  cases lost <;> cases connects <;> cases answer <;> cases sql <;>
    first | exact ⟨_, rfl, rfl, rfl⟩ | cases throws

theorem executeUpdates_of_returned {rest : List (Update Statement)} {next : Transaction Statement}
    (called : transaction.executeUpdate update = .ok next) :
    transaction.executeUpdates (update :: rest) = next.executeUpdates rest := by
  rw [executeUpdates, called]
  rfl

theorem executeUpdates_of_thrown {rest : List (Update Statement)} {thrown : Transaction Statement}
    (called : transaction.executeUpdate update = .error thrown) :
    transaction.executeUpdates (update :: rest) = .error thrown := by
  rw [executeUpdates, called]
  rfl

theorem executeUpdates_autoCommit_returned
    (returns : ∀ update ∈ updates, update.succeeds = true) :
    executeUpdates updates ⟨.autoCommit, committed⟩ =
      .ok ⟨.autoCommit, committed ++ updates.map Update.statement⟩ := by
  induction updates generalizing committed with
  | nil => simp [executeUpdates]
  | cons update rest ih =>
    obtain ⟨succeeds, later⟩ := List.forall_mem_cons.mp returns
    rw [executeUpdates_of_returned (executeUpdate_autoCommit succeeds), ih later]
    simp

theorem executeUpdates_autoCommit_thrown {thrower : Update Statement}
    (throws : updates.find? (fun update => !update.succeeds) = some thrower) :
    ∃ thrown, executeUpdates updates ⟨.autoCommit, committed⟩ = .error thrown ∧
      thrown.committed = committed ++ (updates.takeWhile Update.succeeds).map Update.statement ∧
      thrown.pending = [] := by
  induction updates generalizing committed with
  | nil => cases throws
  | cons update rest ih =>
    cases succeeds : update.succeeds with
    | false =>
      obtain ⟨thrown, called, same, left⟩ :=
        @executeUpdate_throws _ ⟨.autoCommit, committed⟩ _ succeeds
      exact ⟨thrown, executeUpdates_of_thrown called, by simp [same, succeeds],
        by simpa [pending] using left⟩
    | true =>
      rw [executeUpdates_of_returned (executeUpdate_autoCommit succeeds)]
      simpa [succeeds] using
        @ih (committed ++ [update.statement]) (by simpa [List.find?_cons, succeeds] using throws)

/-- The updates from the first replacement on. -/
def late (updates : List (Update Statement)) : List (Update Statement) :=
  updates.dropWhile fun update => !update.lost

/-- The updates of a transaction that all return: without a replacement they are all
pending, else those from the replacement on are committed and the others gone. -/
theorem executeUpdates_returned (returns : ∀ update ∈ updates, update.succeeds = true) :
    executeUpdates updates ⟨.inTransaction earlier, committed⟩ =
      .ok (if late updates = [] then
          ⟨.inTransaction (earlier ++ updates.map Update.statement), committed⟩
        else ⟨.autoCommit, committed ++ (late updates).map Update.statement⟩) := by
  induction updates generalizing earlier with
  | nil => simp [executeUpdates, late]
  | cons update rest ih =>
    obtain ⟨succeeds, later⟩ := List.forall_mem_cons.mp returns
    cases lost : update.lost with
    | false =>
      rw [executeUpdates_of_returned (executeUpdate_inTransaction lost succeeds), ih later]
      simp [late, lost]
    | true =>
      -- What was pending is gone, and the rest commits statement by statement.
      rw [executeUpdates_of_returned (executeUpdate_lost lost succeeds),
        executeUpdates_autoCommit_returned later]
      simp [late, lost]

theorem executeUpdates_thrown {thrower : Update Statement}
    (throws : updates.find? (fun update => !update.succeeds) = some thrower) :
    ∃ thrown, executeUpdates updates ⟨.inTransaction earlier, committed⟩ = .error thrown ∧
      thrown.committed = committed ++
        (late (updates.takeWhile Update.succeeds)).map Update.statement ∧
      thrown.pending = if late (updates.takeWhile Update.succeeds) = [] ∧
          thrower.lost = false ∧ thrower.answer = .rejected then
        earlier ++ (updates.takeWhile Update.succeeds).map Update.statement else [] := by
  induction updates generalizing earlier with
  | nil => cases throws
  | cons update rest ih =>
    cases succeeds : update.succeeds with
    | false =>
      have same : update = thrower := by simpa [List.find?_cons, succeeds] using throws
      subst same
      obtain ⟨thrown, called, kept, left⟩ :=
        @executeUpdate_throws _ ⟨.inTransaction earlier, committed⟩ _ succeeds
      exact ⟨thrown, executeUpdates_of_thrown called, by simp [kept, succeeds, late],
        by simpa [succeeds, late, pending] using left⟩
    | true =>
      have later : rest.find? (fun update => !update.succeeds) = some thrower := by
        simpa [List.find?_cons, succeeds] using throws
      cases lost : update.lost with
      | false =>
        rw [executeUpdates_of_returned (executeUpdate_inTransaction lost succeeds)]
        simpa [late, lost, succeeds] using @ih (earlier ++ [update.statement]) later
      | true =>
        rw [executeUpdates_of_returned (executeUpdate_lost lost succeeds)]
        obtain ⟨thrown, same, kept, left⟩ :=
          @executeUpdates_autoCommit_thrown _ _ (committed ++ [update.statement]) _ later
        exact ⟨thrown, same, by simp [kept, late, lost, succeeds], by simp [left, late, lost, succeeds]⟩

end Transaction

/-- What the pool sees of a session: its modes, and whether anything is pending. -/
def Session.connection (options : ConnectOptions) : Session Statement → Option Connection
  | .lost => none
  | .autoCommit => some { options }
  | .inTransaction pending =>
    some { options, autoCommit := false, inTransaction := !pending.isEmpty, settled := nofun }

/-- The call of a `SqlConnRAII` that the pool knows as the operation. -/
def ConnOp.call (op : ConnOp) (statement : Statement) (transaction : Transaction Statement) :
    Except (Transaction Statement) (Transaction Statement) :=
  match op with
  | .beginTransaction => transaction.beginTransaction
  | .statement => transaction.execute statement .executed
  | .commit => transaction.commit
  | .rollback => transaction.rollback

/-- A call that returns does to the connection what the pool says it does. -/
theorem ConnOp.call_connection {op : ConnOp} {statement : Statement}
    {transaction next : Transaction Statement} (options : ConnectOptions)
    (called : op.call statement transaction = .ok next) :
    next.sql.connection options = (transaction.sql.connection options).map op.apply := by
  obtain ⟨sql, committed⟩ := transaction
  cases sql with
  | lost => cases op <;> cases called
  | autoCommit => cases op <;> cases called <;> rfl
  | inTransaction pending =>
    cases op <;> cases called <;>
      simp [Session.connection, ConnOp.apply, Connection.setAutoCommit, Connection.execute,
        Connection.endTransaction]

/-- The destructor hands the pool the connection that the pool says it gets back. -/
theorem Transaction.restored_connection {transaction next : Transaction Statement}
    (options : ConnectOptions) (restored : transaction.setAutoCommit true = .ok next) :
    next.sql.connection options =
      (transaction.sql.connection options).map Connection.restoreAutoCommit := by
  obtain ⟨sql, committed⟩ := transaction
  cases sql <;> cases restored <;> rfl

namespace Script

open Transaction

variable {script : Script Statement}

theorem late_eq_nil_iff {updates : List (Update Statement)} :
    late updates = [] ↔ ∀ update ∈ updates, update.lost = false := by
  simp [late, List.dropWhile_eq_nil_iff]

/-- The updates from the first replacement on are all of them exactly if the first
update already needs a replacement. -/
theorem late_eq_self_iff {updates : List (Update Statement)} (nonempty : late updates ≠ []) :
    late updates = updates ↔ ∃ update, updates.head? = some update ∧ update.lost = true := by
  cases updates with
  | nil => exact absurd rfl nonempty
  | cons update rest => simp [late, List.dropWhile_eq_self_iff]

theorem body_notBegun (lost : script.beginLost = true) : script.body = .error ⟨.lost, []⟩ := by
  simp [body, lost, lose, beginTransaction, setAutoCommit, Except.bind, start]

theorem body_begun (begun : script.beginLost = false) :
    script.body = (executeUpdates script.updates ⟨.inTransaction [], []⟩).bind fun updated =>
      (updated.lose script.finishLost).finish script.finish := by
  unfold body
  rw [begun]
  rfl

/-- When a call throws, only what is left behind counts. -/
theorem allOrNothing_error_iff {thrown : Transaction Statement} (threw : script.body = .error thrown) :
    script.AllOrNothing ↔ thrown.committed = [] ∧
      (script.catches = false → script.destroyLost = false → thrown.pending = []) := by
  cases caught : script.catches <;> cases lost : script.destroyLost <;>
    simp [AllOrNothing, committed, commitReturned, threw, Except.isOk, Except.toBool, caught, lost]

theorem allOrNothing_notBegun (lost : script.beginLost = true) : script.AllOrNothing :=
  (allOrNothing_error_iff (body_notBegun lost)).mpr ⟨rfl, fun _ _ => rfl⟩

theorem allOrNothing_thrown_iff {thrower : Update Statement} (begun : script.beginLost = false)
    (throws : script.thrower = some thrower) :
    script.AllOrNothing ↔ late script.returned = [] ∧ ¬ script.Leaks := by
  obtain ⟨thrown, called, kept, left⟩ :
      ∃ thrown, executeUpdates script.updates ⟨.inTransaction [], []⟩ = .error thrown ∧
        thrown.committed = (late script.returned).map Update.statement ∧
        thrown.pending = if late script.returned = [] ∧ thrower.lost = false ∧
          thrower.answer = .rejected then script.returned.map Update.statement else [] :=
    executeUpdates_thrown throws
  have threw : script.body = .error thrown := by rw [body_begun begun, called]; rfl
  have leaks : script.Leaks ↔ script.catches = false ∧ script.destroyLost = false ∧
      (thrower.lost = false ∧ thrower.answer = .rejected) ∧ script.returned ≠ [] := by
    constructor
    · rintro ⟨nonempty, ⟨update, found, rejected⟩, uncaught, alive⟩
      cases throws.symm.trans found
      exact ⟨uncaught, alive, rejected, nonempty⟩
    · rintro ⟨uncaught, alive, rejected, nonempty⟩
      exact ⟨nonempty, ⟨thrower, throws, rejected⟩, uncaught, alive⟩
  rw [allOrNothing_error_iff threw, kept, left, leaks]
  by_cases none : late script.returned = []
  · simp only [none, List.map_nil, true_and, not_and]
    refine imp_congr_right fun uncaught => imp_congr_right fun alive => ?_
    split
    · rename_i rejected
      simp [rejected]
    · rename_i notRejected
      exact iff_of_true rfl fun rejected => absurd rejected notRejected
  · simp [none]

/-- When no call throws, everything committed counts. -/
theorem allOrNothing_ok_iff {done : Transaction Statement} (ended : script.body = .ok done) :
    script.AllOrNothing ↔
      done.committed ++ (if script.destroyLost then [] else done.pending) =
        if script.finish = .commit then script.statements else [] := by
  simp [AllOrNothing, committed, commitReturned, ended, Except.isOk, Except.toBool]

theorem body_returned {updated : Transaction Statement} (begun : script.beginLost = false)
    (called : executeUpdates script.updates ⟨.inTransaction [], []⟩ = .ok updated) :
    script.body = (updated.lose script.finishLost).finish script.finish := by
  rw [body_begun begun, called]
  rfl

/-- Without a replacement the finish decides over all writes at once. -/
theorem allOrNothing_original (begun : script.beginLost = false)
    (called : executeUpdates script.updates ⟨.inTransaction [], []⟩ =
      .ok ⟨.inTransaction script.statements, []⟩) : script.AllOrNothing := by
  have ended := body_returned begun called
  cases lost : script.finishLost with
  | true =>
    have threw : script.body = .error ⟨.lost, []⟩ := by
      rw [ended, lost]
      cases script.finish <;> rfl
    exact (allOrNothing_error_iff threw).mpr ⟨rfl, fun _ _ => rfl⟩
  | false =>
    rw [lost] at ended
    cases how : script.finish with
    | commit =>
      rw [how] at ended
      exact (allOrNothing_ok_iff ended).mpr (by simp [how, pending])
    | rollback =>
      rw [how] at ended
      exact (allOrNothing_ok_iff ended).mpr (by simp [how, pending])

/-- After a replacement the writes are committed whatever the finish does. -/
theorem allOrNothing_replacement_iff {writes : List Statement} (nonempty : writes ≠ [])
    (begun : script.beginLost = false)
    (called : executeUpdates script.updates ⟨.inTransaction [], []⟩ = .ok ⟨.autoCommit, writes⟩) :
    script.AllOrNothing ↔
      writes = script.statements ∧ script.finish = .commit ∧ script.finishLost = false := by
  have ended := body_returned begun called
  cases lost : script.finishLost with
  | true =>
    have threw : script.body = .error ⟨.lost, writes⟩ := by
      rw [ended, lost]
      cases script.finish <;> rfl
    simp [allOrNothing_error_iff threw, nonempty]
  | false =>
    rw [lost] at ended
    cases how : script.finish with
    | commit =>
      rw [how] at ended
      have done : script.body = .ok ⟨.autoCommit, writes⟩ := ended
      simp [allOrNothing_ok_iff done, how, pending]
    | rollback =>
      rw [how] at ended
      have done : script.body = .ok ⟨.autoCommit, writes⟩ := ended
      simp [allOrNothing_ok_iff done, how, pending, nonempty]

theorem late_statements_iff {updates : List (Update Statement)} :
    (late updates).map Update.statement = updates.map Update.statement ↔ late updates = updates := by
  refine ⟨fun same => ?_, congrArg _⟩
  have lengths := congrArg List.length same
  simp only [List.length_map] at lengths
  exact (List.dropWhile_suffix _).eq_of_length lengths

/-- When all updates return, they must all be on one connection. -/
theorem allOrNothing_returned_iff (begun : script.beginLost = false)
    (returns : script.thrower = none) :
    script.AllOrNothing ↔ late script.updates = [] ∨ script.Replaced := by
  have called := @executeUpdates_returned _ _ [] [] (by simpa [thrower] using returns)
  by_cases original : late script.updates = []
  · rw [if_pos original] at called
    exact iff_of_true (allOrNothing_original begun called) (.inl original)
  · rw [if_neg original] at called
    have writes : (late script.updates).map Update.statement ≠ [] := by simpa using original
    rw [or_iff_right original, allOrNothing_replacement_iff writes begun called, statements,
      late_statements_iff, late_eq_self_iff original]
    exact ⟨fun ⟨first, commits⟩ => ⟨first, returns, commits⟩,
      fun whole => ⟨whole.first, whole.commits⟩⟩

/-- The committed writes are all or none, as the outcome of the transaction tells,
exactly in these cases: the connection is lost before `begin_transaction`; or no
update succeeds after a replacement and no rejection leaves pending writes to the
destructor; or the very first update gets the replacement, all updates return, and
so does the commit. -/
theorem allOrNothing_iff_intact (script : Script Statement) :
    script.AllOrNothing ↔ script.Intact := by
  cases begun : script.beginLost with
  | true => exact iff_of_true (allOrNothing_notBegun begun) (.notBegun begun)
  | false =>
    cases throws : script.thrower with
    | some thrower =>
      rw [allOrNothing_thrown_iff begun throws, late_eq_nil_iff]
      constructor
      · exact fun ⟨original, noLeak⟩ => .kept original noLeak
      · rintro (lost | ⟨original, noLeak⟩ | whole)
        · cases begun.symm.trans lost
        · exact ⟨original, noLeak⟩
        · cases throws.symm.trans whole.returns
    | none =>
      have all : script.returned = script.updates :=
        List.takeWhile_eq_self_iff.mpr (by simpa [thrower] using throws)
      rw [allOrNothing_returned_iff begun throws, late_eq_nil_iff, ← all]
      constructor
      · rintro (original | whole)
        · refine .kept original fun leaks => ?_
          obtain ⟨update, found, _⟩ := leaks.rejected
          cases throws.symm.trans found
        · exact .replaced whole
      · rintro (lost | ⟨original, noLeak⟩ | whole)
        · cases begun.symm.trans lost
        · exact .inl original
        · exact .inr whole

/-- The connection is lost between the two writes of a transaction that is then
rolled back: the second write stays. -/
theorem rollback_keeps_late_write :
    ¬ ∀ script : Script String, script.AllOrNothing := by
  intro claimed
  have kept := claimed
    { beginLost := false
      updates := [⟨"INSERT INTO rooms", false, true, .executed⟩,
        ⟨"INSERT INTO room_members", true, true, .executed⟩]
      finish := .rollback
      finishLost := false
      catches := true
      rollbackLost := false
      destroyLost := false }
  exact absurd kept (by unfold AllOrNothing; decide)

end Script

end TinyChat.Db
