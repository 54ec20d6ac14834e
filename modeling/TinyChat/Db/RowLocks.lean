import TinyChat.Db.Store

/-! What one call of a thread can do to the database, and what the row locks are for:
a room that an open transaction has found stays in the committed tables until the
transaction ends. -/
namespace TinyChat.Db

namespace Tables

def HasRoom (tables : Tables) (id : UInt64) : Prop := ∃ room ∈ tables.rooms, room.id = id

def HasMember (tables : Tables) (roomId userId : UInt64) : Prop :=
  ∃ row ∈ tables.members, row.roomId = roomId ∧ row.userId = userId

variable {tables : Tables} {changes : List Change} {change : Change} {id : UInt64}

@[simp] theorem applyAll_nil : tables.applyAll [] = tables := rfl

@[simp] theorem applyAll_cons :
    tables.applyAll (change :: changes) = (tables.apply change).applyAll changes := rfl

theorem hasRoom_apply (found : tables.HasRoom id) (kept : change ≠ .dropRoom id) :
    (tables.apply change).HasRoom id := by
  obtain ⟨room, member, rfl⟩ := found
  cases change with
  | addRoom row => exact ⟨room, List.mem_append_left _ member, rfl⟩
  | dropRoom other =>
    refine ⟨room, List.mem_filter.mpr ⟨member, decide_eq_true fun same => ?_⟩, rfl⟩
    exact kept (by rw [same])
  | setLast msgId other =>
    refine ⟨_, List.mem_map.mpr ⟨room, member, rfl⟩, ?_⟩
    split <;> rfl
  | _ => exact ⟨room, member, rfl⟩

theorem hasRoom_applyAll (found : tables.HasRoom id) (kept : .dropRoom id ∉ changes) :
    (tables.applyAll changes).HasRoom id := by
  induction changes generalizing tables with
  | nil => exact found
  | cons change rest ih =>
    have first : change ≠ .dropRoom id := fun same => kept (same ▸ List.mem_cons_self ..)
    exact ih (hasRoom_apply found first) fun later => kept (List.mem_cons_of_mem _ later)

/-- A room that is there has been there or has been added; only its last message changes. -/
theorem origin_of_applyAll {room : RoomRow} (found : room ∈ (tables.applyAll changes).rooms) :
    ∃ origin, (origin ∈ tables.rooms ∨ .addRoom origin ∈ changes) ∧ origin.id = room.id ∧
      origin.type = room.type ∧ origin.ownerId = room.ownerId := by
  induction changes generalizing tables with
  | nil => exact ⟨room, .inl found, rfl, rfl, rfl⟩
  | cons change rest ih =>
    obtain ⟨origin, before | added, same⟩ := ih found
    swap
    · exact ⟨origin, .inr (List.mem_cons_of_mem _ added), same⟩
    cases change with
    | addRoom row =>
      rcases List.mem_append.mp before with there | new
      · exact ⟨origin, .inl there, same⟩
      · obtain rfl := List.mem_singleton.mp new
        exact ⟨origin, .inr (List.mem_cons_self ..), same⟩
    | dropRoom id => exact ⟨origin, .inl (List.mem_filter.mp before).1, same⟩
    | setLast msgId id =>
      obtain ⟨old, there, updated⟩ := List.mem_map.mp before
      refine ⟨old, .inl there, ?_⟩
      split at updated <;> subst updated <;> exact same
    | _ => exact ⟨origin, .inl before, same⟩

theorem hasRoom_of_applyAll (found : (tables.applyAll changes).HasRoom id) :
    tables.HasRoom id ∨ ∃ row, .addRoom row ∈ changes ∧ row.id = id := by
  obtain ⟨room, there, rfl⟩ := found
  obtain ⟨origin, before | added, same, _⟩ := origin_of_applyAll there
  · exact .inl ⟨origin, before, same⟩
  · exact .inr ⟨origin, added, same⟩

end Tables

/-- The room that an `UPDATE` or a `DELETE` of `rooms` has found. -/
def Change.finds : Change → Option UInt64
  | .dropRoom id => some id
  | .setLast _ id => some id
  | _ => none

theorem Change.finds_mem_keys {change : Change} {id : UInt64} (finds : change.finds = some id) :
    .room id ∈ change.keys := by
  cases change <;> simp_all [Change.finds, Change.keys]

theorem Write.change_finds {tables : Tables} {write : Write} {change : Change} {total : Nat}
    {id : UInt64} (changed : write.change tables = .ok (some change, total))
    (finds : change.finds = some id) : tables.HasRoom id := by
  have counted {id : UInt64} (positive : tables.rooms.countP (·.id = id) ≠ 0) : tables.HasRoom id := by
    obtain ⟨room, member, same⟩ := List.countP_pos_iff.mp (Nat.pos_of_ne_zero positive)
    exact ⟨room, member, by simpa using same⟩
  cases write <;> simp only [Write.change] at changed
  case insertMembers rows =>
    split at changed <;> cases changed
    cases finds
  case deleteMembers roomId =>
    split at changed <;> cases changed
    cases finds
  case deleteRoom other =>
    split at changed <;> cases changed
    rename_i some
    cases finds
    exact counted some
  case setLastMessage msgId other =>
    split at changed <;> cases changed
    rename_i some
    cases finds
    exact counted some
  all_goals cases changed
  all_goals cases finds

namespace Store

/-- Everything a call of a thread can do to the database. -/
inductive Steps (store : Store) (thread : Nat) (next : Store) : Prop where
  | quiet (moves : Moves store next thread [])
      (pending : next.pending thread = store.pending thread ∨ next.pending thread = [])
  | grown (write : Write) (change : Change) (total : Nat) (moves : Moves store next thread [])
      (changed : write.change (store.view thread) = .ok (some change, total))
      (free : store.Free thread change.keys)
      (pending : next.pending thread = store.pending thread ++ [change])
  | committed (moves : Moves store next thread (store.pending thread))
      (pending : next.pending thread = [])
  /-- A statement in autocommit mode. -/
  | executed (write : Write) (change : Change) (total : Nat)
      (moves : Moves store next thread [change]) (before : store.pending thread = [])
      (changed : write.change store.tables = .ok (some change, total))
      (free : store.Free thread change.keys) (pending : next.pending thread = [])

/-- No row is locked twice, and a room that a transaction has found is committed or its
own. -/
structure Locked (store : Store) : Prop where
  exclusive : ∀ first second, first ≠ second → ∀ key ∈ store.locks first, key ∉ store.locks second
  found : ∀ thread, ∀ change ∈ store.pending thread, ∀ id, change.finds = some id →
    store.tables.HasRoom id ∨ ∃ row, .addRoom row ∈ store.pending thread ∧ row.id = id

variable {store next : Store} {thread : Nat} {changes : List Change}

/-- The locks survive a commit of rows that nobody else has locked. -/
theorem Locked.moves (locked : store.Locked) (moves : Moves store next thread changes)
    (free : store.Free thread (changes.flatMap Change.keys))
    (exclusive : store.Free thread (next.locks thread))
    (found : ∀ change ∈ next.pending thread, ∀ id, change.finds = some id →
      next.tables.HasRoom id ∨ ∃ row, .addRoom row ∈ next.pending thread ∧ row.id = id) :
    next.Locked := by
  rw [free_iff] at free exclusive
  constructor
  · intro first second different key firstLocks secondLocks
    by_cases own : first = thread
    · subst own
      rw [moves.locks (Ne.symm different)] at secondLocks
      exact exclusive second (Ne.symm different) key secondLocks firstLocks
    · rw [moves.locks own] at firstLocks
      by_cases other : second = thread
      · subst other
        exact exclusive first own key firstLocks secondLocks
      · rw [moves.locks other] at secondLocks
        exact locked.exclusive first second different key firstLocks secondLocks
  · intro other change pending id finds
    by_cases own : other = thread
    · exact own ▸ found change (own ▸ pending) id finds
    · rw [moves.pending own] at pending ⊢
      rcases locked.found other change pending id finds with there | added
      · refine .inl (moves.tables ▸ Tables.hasRoom_applyAll there fun dropped => ?_)
        have held : .room id ∈ store.locks other :=
          List.mem_flatMap.mpr ⟨change, pending, Change.finds_mem_keys finds⟩
        exact free other own _ held (List.mem_flatMap.mpr ⟨_, dropped, by simp [Change.keys]⟩)
      · exact .inr added

theorem Locked.free (locked : store.Locked) (thread : Nat) : store.Free thread (store.locks thread) :=
  free_iff.mpr fun other different key there => locked.exclusive other thread different key there

theorem free_nil : store.Free thread [] := fun _ _ _ _ _ => List.not_mem_nil

theorem Locked.steps (locked : store.Locked) (steps : Steps store thread next) : next.Locked := by
  cases steps with
  | quiet moves pending =>
    refine locked.moves moves free_nil ?_ ?_
    · rcases pending with same | none
      · simpa only [locks, same] using locked.free thread
      · simpa only [locks, none, List.flatMap_nil] using free_nil
    · rcases pending with same | none
      · rw [same, moves.tables]
        exact locked.found thread
      · simp [none]
  | grown write change total moves changed free pending =>
    have others := locked.free thread
    rw [free_iff] at free others
    refine locked.moves moves free_nil (free_iff.mpr fun other different key there mine => ?_) ?_
    · rw [locks, pending, List.flatMap_append, List.mem_append] at mine
      rcases mine with earlier | last
      · exact others other different key there earlier
      · exact free other different key there (by simpa using last)
    · intro other member id finds
      rw [pending] at member ⊢
      rw [moves.tables]
      rcases List.mem_append.mp member with earlier | last
      · rcases locked.found thread other earlier id finds with there | ⟨row, added, same⟩
        · exact .inl there
        · exact .inr ⟨row, List.mem_append_left _ added, same⟩
      · obtain rfl : other = change := List.mem_singleton.mp last
        rcases Tables.hasRoom_of_applyAll (Write.change_finds changed finds) with
          there | ⟨row, added, same⟩
        · exact .inl there
        · exact .inr ⟨row, List.mem_append_left _ added, same⟩
  | committed moves pending =>
    refine locked.moves moves (locked.free thread) ?_ (by simp [pending])
    simpa only [locks, pending, List.flatMap_nil] using free_nil
  | executed write change total moves before changed free pending =>
    refine locked.moves moves (by simpa using free) ?_ (by simp [pending])
    simpa only [locks, pending, List.flatMap_nil] using free_nil

/-- The changes of a commit are told by the log. -/
theorem Moves.unique {others : List Change} (moves : Moves store next thread changes)
    (again : Moves store next thread others) : changes = others := by
  have same := moves.log.symm.trans again.log
  cases changes <;> cases others
  · rfl
  · exact absurd (congrArg List.length same) (by simp)
  · exact absurd (congrArg List.length same) (by simp)
  · exact congrArg Commit.changes (List.cons.inj same).1

/-- A room that a committed change has found was there, or came with the same commit. -/
theorem Locked.committed_found (locked : store.Locked) (steps : Steps store thread next)
    (moves : Moves store next thread changes) {change : Change} {id : UInt64}
    (member : change ∈ changes) (finds : change.finds = some id) :
    store.tables.HasRoom id ∨ ∃ row, .addRoom row ∈ changes ∧ row.id = id := by
  cases steps with
  | quiet again _ => exact absurd (moves.unique again ▸ member) List.not_mem_nil
  | grown _ _ _ again _ _ _ => exact absurd (moves.unique again ▸ member) List.not_mem_nil
  | committed again _ =>
    obtain rfl := moves.unique again
    exact locked.found thread change member id finds
  | executed write made total again before changed _ _ =>
    obtain rfl := moves.unique again
    obtain rfl := List.mem_singleton.mp member
    exact .inl (Write.change_finds changed finds)

theorem Moves.log_subset (moves : Moves store next thread changes) : store.log ⊆ next.log := by
  rw [moves.log]
  split
  · exact List.Subset.refl _
  · exact List.subset_cons_self _ _

theorem Moves.logged (moves : Moves store next thread changes) {change : Change}
    (member : change ∈ changes) : ∃ commit ∈ next.log, change ∈ commit.changes := by
  rw [moves.log]
  split
  · cases member
  · exact ⟨_, List.mem_cons_self .., member⟩

theorem Moves.mem_log {commit : Commit} (moves : Moves store next thread changes)
    (member : commit ∈ next.log) : commit ∈ store.log ∨
      commit = { thread, changes, after := next.tables } := by
  rw [moves.tables]
  rw [moves.log] at member
  split at member
  · exact .inl member
  · exact (List.mem_cons.mp member).symm

section Calls

variable {effect : Transaction Change → Except (Transaction Change) (Transaction Change)}

theorem transact_moves (done : store.transact thread effect = some next) :
    ∃ transaction, effect ⟨store.session thread, []⟩ = .ok transaction ∧
      Moves store next thread transaction.committed ∧ next.session thread = transaction.sql := by
  unfold transact at done
  split at done
  · rename_i transaction called
    cases done
    exact ⟨transaction, called, moves_install, by rw [session_install, if_pos rfl]⟩
  · cases done

theorem beginTransaction_moves
    (done : store.transact thread Transaction.beginTransaction = some next) :
    Moves store next thread [] ∧
      (next.pending thread = store.pending thread ∨ next.pending thread = []) := by
  obtain ⟨transaction, called, moves, session⟩ := transact_moves done
  cases before : store.session thread <;> rw [before] at called <;> cases called
  · exact ⟨moves, .inr (by rw [pending, session]; rfl)⟩
  · exact ⟨moves, .inl (by rw [pending, pending, session, before]; rfl)⟩

theorem rollback_moves (done : store.transact thread Transaction.rollback = some next) :
    Moves store next thread [] ∧ next.pending thread = [] := by
  obtain ⟨transaction, called, moves, session⟩ := transact_moves done
  cases before : store.session thread <;> rw [before] at called <;> cases called
  · exact ⟨moves, by rw [pending, session]; rfl⟩
  · exact ⟨moves, by rw [pending, session]; rfl⟩

theorem commit_moves (done : store.transact thread Transaction.commit = some next) :
    Moves store next thread (store.pending thread) ∧ next.pending thread = [] := by
  obtain ⟨transaction, called, moves, session⟩ := transact_moves done
  cases before : store.session thread <;> rw [before] at called <;> cases called
  · exact ⟨by simpa [pending, before, Transaction.pending] using moves,
      by rw [pending, session]; rfl⟩
  · exact ⟨by simpa [pending, before, Transaction.pending] using moves,
      by rw [pending, session]; rfl⟩

theorem pending_setSession {session : Session Change} :
    (store.setSession thread session).pending thread = Transaction.pending ⟨session, []⟩ := by
  rw [pending, session_setSession, if_pos rfl]

theorem Moves.setSession {session : Session Change} (moves : Moves store next thread changes) :
    Moves store (next.setSession thread session) thread changes :=
  ⟨moves.initial, fun other different => by
    rw [session_setSession, if_neg different, moves.others other different], moves.log⟩

theorem release_moves {middle : Store}
    (done : store.transact thread (Transaction.setAutoCommit true) = some middle) :
    Moves store (middle.setSession thread .lost) thread (store.pending thread) := by
  obtain ⟨transaction, called, moves, session⟩ := transact_moves done
  apply Moves.setSession
  cases before : store.session thread <;> rw [before] at called <;> cases called <;>
    simpa [pending, before, Transaction.pending] using moves

/-- What an executed statement leaves of the connection, and commits in autocommit mode. -/
inductive Executes (store : Store) (thread : Nat) (next : Store) : Option Change → List Change → Prop where
  | noRows (same : next = store) : Executes store thread next none []
  | autoCommit {change : Change} (before : store.session thread = .autoCommit)
      (after : next.session thread = .autoCommit) : Executes store thread next (some change) [change]
  | inTransaction {change : Change} {pending : List Change}
      (before : store.session thread = .inTransaction pending)
      (after : next.session thread = .inTransaction (pending ++ [change])) :
      Executes store thread next (some change) []

/-- The statement is executed, or refused for a duplicate. -/
theorem executeUpdate_steps {write : Write} {answer : Except String Nat}
    (done : store.executeUpdate thread write = some (answer, next)) :
    (∃ what, answer = .error what ∧ next = store) ∨
      ∃ change total changes, answer = .ok total ∧
        write.change (store.view thread) = .ok (change, total) ∧
        Moves store next thread changes ∧ Steps store thread next ∧
        Executes store thread next change changes := by
  unfold executeUpdate at done
  split at done
  · cases done
    exact .inl ⟨_, rfl, rfl⟩
  · rename_i changed
    cases done
    exact .inr ⟨none, _, [], rfl, changed, .refl, .quiet .refl (.inl rfl), .noRows rfl⟩
  · rename_i change total changed
    split at done
    swap
    · cases done
    rename_i free
    obtain ⟨after, executed, same⟩ := Option.map_eq_some_iff.mp done
    cases same
    obtain ⟨transaction, called, moves, session⟩ := transact_moves executed
    cases before : store.session thread <;> rw [before] at called <;> cases called
    · have nothing : store.pending thread = [] := by rw [pending, before]; rfl
      refine .inr ⟨some change, total, [change], rfl, changed, moves, ?_, .autoCommit before session⟩
      refine .executed write change total moves nothing ?_ free (by rw [pending, session]; rfl)
      simpa [view, nothing] using changed
    · refine .inr ⟨some change, total, [], rfl, changed, moves, ?_, .inTransaction before session⟩
      exact .grown write change total moves changed free
        (by rw [pending, pending, session, before]; rfl)

/-- What a statement commits by itself when it is executed. -/
def autoCommitted (store : Store) (thread : Nat) (write : Write) : List Change :=
  match store.session thread, write.change (store.view thread) with
  | .autoCommit, .ok (some change, _) => [change]
  | _, _ => []

theorem executeUpdate_moves {write : Write} {answer : Except String Nat}
    (done : store.executeUpdate thread write = some (answer, next)) :
    Moves store next thread (store.autoCommitted thread write) := by
  unfold executeUpdate at done
  unfold autoCommitted
  split at done
  · rename_i refused
    cases done
    rw [refused]
    cases store.session thread <;> exact .refl
  · rename_i changed
    cases done
    rw [changed]
    cases store.session thread <;> exact .refl
  · rename_i change total changed
    split at done
    swap
    · cases done
    obtain ⟨after, executed, same⟩ := Option.map_eq_some_iff.mp done
    cases same
    obtain ⟨transaction, called, moves, _⟩ := transact_moves executed
    rw [changed]
    cases before : store.session thread <;> rw [before] at called <;> cases called <;> exact moves

end Calls

end Store

end TinyChat.Db
