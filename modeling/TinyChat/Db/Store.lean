import TinyChat.Db.Tables
import TinyChat.Db.Transaction

/-! The database behind the pool: the committed rows as a log of commits, and one
transaction a thread, whose changes nobody else sees. A `SELECT` may be answered from
an older commit; `UPDATE` and `DELETE` find the latest rows and lock them. -/
namespace TinyChat.Db

structure Tables where
  rooms : List RoomRow := []
  members : List MemberRow := []
  messages : List MessageRow := []
  deriving DecidableEq

/-- A row as its lock names it. -/
inductive Key where
  | room (id : UInt64)
  | member (roomId userId : UInt64)
  deriving DecidableEq

def MemberRow.key (row : MemberRow) : Key := .member row.roomId row.userId

/-- What a statement has done to the rows it found. -/
inductive Change where
  | addRoom (row : RoomRow)
  | addMembers (rows : List MemberRow)
  | addMessage (row : MessageRow)
  | dropMembers (rows : List MemberRow)
  | dropRoom (id : UInt64)
  | setLast (msgId id : UInt64)
  deriving DecidableEq

/-- The rows that stay locked until the transaction ends. -/
def Change.keys : Change → List Key
  | addRoom row => [.room row.id]
  | addMembers rows => rows.map MemberRow.key
  | addMessage _ => []
  | dropMembers rows => rows.map MemberRow.key
  | dropRoom id => [.room id]
  | setLast _ id => [.room id]

namespace Tables

def apply (tables : Tables) : Change → Tables
  | .addRoom row => { tables with rooms := tables.rooms ++ [row] }
  | .addMembers rows => { tables with members := tables.members ++ rows }
  | .addMessage row => { tables with messages := tables.messages ++ [row] }
  | .dropMembers rows => { tables with members := tables.members.filter (· ∉ rows) }
  | .dropRoom id => { tables with rooms := tables.rooms.filter (·.id ≠ id) }
  | .setLast msgId id =>
    { tables with rooms := tables.rooms.map fun room =>
        if room.id = id then { room with lastMessageId := some msgId } else room }

def applyAll (tables : Tables) (changes : List Change) : Tables := changes.foldl apply tables

def membersOf (tables : Tables) (roomId : UInt64) : List MemberRow :=
  tables.members.filter (·.roomId = roomId)

/-- The rows of a query; `users` is not among these tables. -/
def answer (tables : Tables) : (query : Query) → List query.Row
  | .userNamed _ => []
  | .role roomId userId =>
    (tables.members.filter fun row => row.roomId = roomId ∧ row.userId = userId).map MemberRow.role
  | .membership roomId userId =>
    (tables.members.filter fun row => row.roomId = roomId ∧ row.userId = userId).map fun _ => ()
  | .roomType id => (tables.rooms.filter (·.id = id)).map RoomRow.type
  | .roomMembers roomId => (tables.membersOf roomId).map MemberRow.userId
  | .roomsOf userId => (tables.members.filter (·.userId = userId)).map MemberRow.roomId

end Tables

/-- The change a statement makes in the tables it finds, if it finds rows, and their
number; a pair of room and user may be listed only once. -/
def Write.change (tables : Tables) : Write → Except String (Option Change × Nat)
  | .insertUser _ _ _ _ _ => .ok (none, 1)
  | .insertRoom row => .ok (some (.addRoom row), 1)
  | .insertMembers rows =>
    if ((tables.members ++ rows).map MemberRow.key).Nodup then
      .ok (some (.addMembers rows), rows.length)
    else .error "Duplicate entry"
  | .deleteMembers roomId =>
    match tables.membersOf roomId with
    | [] => .ok (none, 0)
    | rows => .ok (some (.dropMembers rows), rows.length)
  | .deleteRoom id =>
    match tables.rooms.countP (·.id = id) with
    | 0 => .ok (none, 0)
    | count => .ok (some (.dropRoom id), count)
  | .insertMessage row => .ok (some (.addMessage row), 1)
  | .setLastMessage msgId id =>
    match tables.rooms.countP (·.id = id) with
    | 0 => .ok (none, 0)
    | count => .ok (some (.setLast msgId id), count)

section Changes

variable {tables : Tables} {change : Option Change} {total : Nat} {id roomId msgId : UInt64}

theorem Write.change_insertMembers {rows : List MemberRow}
    (changed : (Write.insertMembers rows).change tables = .ok (change, total)) :
    change = some (.addMembers rows) ∧ total = rows.length ∧
      ((tables.members ++ rows).map MemberRow.key).Nodup := by
  simp only [Write.change] at changed
  split at changed
  · rename_i unique
    cases changed
    exact ⟨rfl, rfl, unique⟩
  · cases changed

theorem Write.change_deleteMembers (some : total ≠ 0)
    (changed : (Write.deleteMembers roomId).change tables = .ok (change, total)) :
    ∃ rows, change = .some (.dropMembers rows) ∧ rows ≠ [] ∧ ∀ row ∈ rows, row.roomId = roomId := by
  simp only [Write.change] at changed
  split at changed
  · cases changed
    exact absurd rfl some
  · rename_i nonempty
    cases changed
    exact ⟨_, rfl, nonempty, fun row member => of_decide_eq_true (List.mem_filter.mp member).2⟩

theorem Write.change_deleteRoom (some : total ≠ 0)
    (changed : (Write.deleteRoom id).change tables = .ok (change, total)) :
    change = .some (.dropRoom id) := by
  simp only [Write.change] at changed
  split at changed <;> cases changed
  · exact absurd rfl some
  · rfl

theorem Write.made_deleteMembers {made : Change}
    (changed : (Write.deleteMembers roomId).change tables = .ok (some made, total)) :
    ∃ rows, made = .dropMembers rows ∧ ∀ row ∈ rows, row.roomId = roomId := by
  simp only [Write.change] at changed
  split at changed <;> cases changed
  exact ⟨_, rfl, fun row member => of_decide_eq_true (List.mem_filter.mp member).2⟩

theorem Write.made_deleteRoom {made : Change}
    (changed : (Write.deleteRoom id).change tables = .ok (some made, total)) :
    made = .dropRoom id := by
  simp only [Write.change] at changed
  split at changed <;> cases changed
  rfl

theorem Write.made_setLastMessage {made : Change}
    (changed : (Write.setLastMessage msgId id).change tables = .ok (some made, total)) :
    made = .setLast msgId id := by
  simp only [Write.change] at changed
  split at changed <;> cases changed
  rfl

theorem Write.change_setLastMessage (some : total ≠ 0)
    (changed : (Write.setLastMessage msgId id).change tables = .ok (change, total)) :
    change = .some (.setLast msgId id) := by
  simp only [Write.change] at changed
  split at changed <;> cases changed
  · exact absurd rfl some
  · rfl

end Changes

/-- A commit and the committed tables after it. -/
structure Commit where
  thread : Nat
  changes : List Change
  after : Tables
  deriving DecidableEq

structure Store where
  initial : Tables
  /-- The latest commit first. -/
  log : List Commit := []
  /-- The connection of each thread; a thread without one has `lost`. -/
  sessions : List (Session Change) := []

namespace Store

def tables (store : Store) : Tables :=
  match store.log with
  | [] => store.initial
  | commit :: _ => commit.after

/-- Everything a `SELECT` may be answered from, the latest first. -/
def snapshots (store : Store) : List Tables := store.log.map Commit.after ++ [store.initial]

def session (store : Store) (thread : Nat) : Session Change := store.sessions.getD thread .lost

def pending (store : Store) (thread : Nat) : List Change :=
  Transaction.pending ⟨store.session thread, []⟩

def locks (store : Store) (thread : Nat) : List Key := (store.pending thread).flatMap Change.keys

/-- No other thread has locked one of the rows. -/
def Free (store : Store) (thread : Nat) (keys : List Key) : Prop :=
  ∀ other < store.sessions.length, other ≠ thread → ∀ key ∈ store.locks other, key ∉ keys

instance (store : Store) (thread : Nat) (keys : List Key) : Decidable (store.Free thread keys) := by
  unfold Free
  infer_instance

/-- The tables as the statements of a transaction find them. -/
def view (store : Store) (thread : Nat) : Tables := store.tables.applyAll (store.pending thread)

def setSession (store : Store) (thread : Nat) (session : Session Change) : Store :=
  { store with
    sessions := (store.sessions.rightpad (thread + 1) .lost).set thread session }

/-- The connection after a call, and the commit if it has made one. -/
def install (store : Store) (thread : Nat) (transaction : Transaction Change) : Store :=
  let next := store.setSession thread transaction.sql
  match transaction.committed with
  | [] => next
  | changes =>
    { next with log := { thread, changes, after := store.tables.applyAll changes } :: store.log }

/-- A call on the connection of a thread; none if it has no connection. -/
def transact (store : Store) (thread : Nat)
    (effect : Transaction Change → Except (Transaction Change) (Transaction Change)) :
    Option Store :=
  match effect ⟨store.session thread, []⟩ with
  | .ok transaction => some (store.install thread transaction)
  | .error _ => none

/-- `execute_update`, which waits as long as other threads lock the rows. -/
def executeUpdate (store : Store) (thread : Nat) (write : Write) :
    Option (Except String Nat × Store) :=
  match write.change (store.view thread) with
  | .error what => some (.error what, store)
  | .ok (none, count) => some (.ok count, store)
  | .ok (some change, count) =>
    if store.Free thread change.keys then
      (store.transact thread (Transaction.execute change .executed)).map (.ok count, ·)
    else none

variable {store next : Store} {thread other : Nat}

theorem session_setSession {session : Session Change} :
    (store.setSession thread session).session other =
      if other = thread then session else store.session other := by
  simp only [Store.session, setSession, List.getD_eq_getElem?_getD, List.getElem?_set,
    List.rightpad, List.length_append, List.length_replicate]
  by_cases same : other = thread
  · subst same
    rw [if_pos rfl, if_pos (by omega), if_pos rfl]
    rfl
  · simp only [if_neg same, if_neg (Ne.symm same)]
    by_cases within : other < store.sessions.length
    · rw [List.getElem?_append_left within]
    · rw [List.getElem?_append_right (by omega), List.getElem?_eq_none (by omega : _ ≤ other),
        List.getElem?_replicate]
      split <;> rfl

theorem session_install {transaction : Transaction Change} :
    (store.install thread transaction).session other =
      if other = thread then transaction.sql else store.session other := by
  unfold install
  split <;> exact session_setSession

theorem install_initial {transaction : Transaction Change} :
    (store.install thread transaction).initial = store.initial := by
  unfold install
  split <;> rfl

theorem locks_of_length_le (beyond : store.sessions.length ≤ thread) : store.locks thread = [] := by
  have lost : store.session thread = .lost := by
    simp [Store.session, List.getD_eq_getElem?_getD, List.getElem?_eq_none beyond]
  simp [locks, pending, lost, Transaction.pending]

theorem free_iff {keys : List Key} :
    store.Free thread keys ↔ ∀ other, other ≠ thread → ∀ key ∈ store.locks other, key ∉ keys := by
  constructor
  · intro free other different key locked
    by_cases within : other < store.sessions.length
    · exact free other within different key locked
    · rw [locks_of_length_le (Nat.not_lt.mp within)] at locked
      cases locked
  · exact fun free other _ different => free other different

/-- What a call of a thread leaves: the other connections as they were, and the changes
it has committed, if there are any, as one more commit. -/
structure Moves (store next : Store) (thread : Nat) (changes : List Change) : Prop where
  initial : next.initial = store.initial
  others : ∀ other, other ≠ thread → next.session other = store.session other
  log : next.log =
    match changes with
    | [] => store.log
    | changes => { thread, changes, after := store.tables.applyAll changes } :: store.log

variable {changes : List Change}

theorem Moves.refl : Moves store store thread [] := ⟨rfl, fun _ _ => rfl, rfl⟩

theorem moves_setSession {session : Session Change} :
    Moves store (store.setSession thread session) thread [] :=
  ⟨rfl, fun _ different => by rw [session_setSession, if_neg different], rfl⟩

theorem moves_install {transaction : Transaction Change} :
    Moves store (store.install thread transaction) thread transaction.committed := by
  refine ⟨install_initial, fun _ different => by rw [session_install, if_neg different], ?_⟩
  unfold install
  split <;> rfl

section Moving

variable (moves : Moves store next thread changes)

include moves

theorem Moves.tables : next.tables = store.tables.applyAll changes := by
  unfold Store.tables
  rw [moves.log]
  cases changes with
  | nil => rw [moves.initial]; rfl
  | cons change rest => rfl

theorem Moves.snapshots : next.snapshots = match changes with
    | [] => store.snapshots
    | _ => next.tables :: store.snapshots := by
  unfold Store.snapshots
  rw [moves.tables, moves.log, moves.initial]
  cases changes <;> rfl

theorem Moves.snapshots_subset {tables : Tables} (member : tables ∈ store.snapshots) :
    tables ∈ next.snapshots := by
  rw [moves.snapshots]
  split
  · exact member
  · exact List.mem_cons_of_mem _ member

/-- A snapshot is an older one, or the tables after the commit. -/
theorem Moves.mem_snapshots {tables : Tables} (member : tables ∈ next.snapshots) :
    tables ∈ store.snapshots ∨ tables = next.tables := by
  rw [moves.snapshots] at member
  split at member
  · exact .inl member
  · exact (List.mem_cons.mp member).symm

theorem Moves.pending (different : other ≠ thread) : next.pending other = store.pending other := by
  rw [Store.pending, Store.pending, moves.others other different]

theorem Moves.locks (different : other ≠ thread) : next.locks other = store.locks other := by
  rw [Store.locks, Store.locks, moves.pending different]

end Moving

theorem tables_mem_snapshots : store.tables ∈ store.snapshots := by
  unfold Store.tables snapshots
  cases store.log <;> simp

end Store

end TinyChat.Db
