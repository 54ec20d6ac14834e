import TinyChat.Db.SqlConnPool

/-! Who holds which connection. The semaphore and the queue change in separate
steps, so the count of the queue also counts the threads between the acquire and
the pop and between the push and the release. -/
namespace TinyChat.Db

open TinyChat.Transition TinyChat.Utils

/-- With a permit whose connection is still in the queue. -/
def GetConn.waiting : GetConn → Nat
  | .getSql => 1
  | _ => 0

def Progress.waiting : Progress → Nat
  | .at place => place.waiting
  | _ => 0

/-- With a connection in the queue and no permit for it in the semaphore. -/
def SqlConnRAII.waiting : SqlConnRAII → Nat
  | .constructing place => place.waiting
  | .replacing _ place => place.waiting
  | .releasing => 1
  | _ => 0

/-- The connection popped inside `getConn`. -/
def GetConn.sqls : GetConn → List Nat
  | .popped sql => [sql]
  | _ => []

def Progress.sqls : Progress → List Nat
  | .at place => place.sqls
  | .returned sql => [sql]
  | .threw => []

/-- The connections an object and its thread hold a pointer to and still use. -/
def SqlConnRAII.holds : SqlConnRAII → List Nat
  | .constructing place => place.sqls
  | .live sql => [sql]
  | .replacing sql place => sql :: place.sqls
  | .closing sql => [sql]
  | .returning sql => [sql]
  | .releasing => []
  | .ended => []

@[simp] theorem constructed_waiting (progress : Progress) :
    (SqlConnPool.constructed progress).waiting = progress.waiting := by
  cases progress <;> rfl

@[simp] theorem replaced_waiting (old : Nat) (progress : Progress) :
    (SqlConnPool.replaced old progress).waiting = progress.waiting := by
  cases progress <;> rfl

@[simp] theorem constructed_holds (progress : Progress) :
    (SqlConnPool.constructed progress).holds = progress.sqls := by
  cases progress <;> rfl

theorem replaced_holds_count_le (old sql : Nat) (progress : Progress) :
    (SqlConnPool.replaced old progress).holds.count sql ≤
      [old].count sql + progress.sqls.count sql := by
  cases progress <;>
    simp [SqlConnPool.replaced, SqlConnRAII.holds, Progress.sqls, List.count_cons, Nat.add_comm]

namespace SqlConnPool

/-- The connections held by all objects. -/
def held (pool : SqlConnPool) : List Nat := pool.owners.flatMap SqlConnRAII.holds

/-- How often a connection is held or queued. -/
def uses (pool : SqlConnPool) (sql : Nat) : Nat :=
  weigh (fun owner => owner.holds.count sql) pool.owners + pool.connQueue.count sql

/-- One for a connection that has been opened, else zero. -/
def allocated (pool : SqlConnPool) (sql : Nat) : Nat :=
  if sql < pool.connections.length then 1 else 0

/-- The connection exists and is clean. -/
def CleanAt (pool : SqlConnPool) (sql : Nat) : Prop :=
  ∃ connection, pool.connections[sql]? = some connection ∧ connection.Clean

/-- What every step of the pool keeps. -/
structure Owned (pool : SqlConnPool) : Prop where
  counted : pool.connQueue.length = pool.smph + weigh SqlConnRAII.waiting pool.owners
  exclusive : ∀ sql, pool.uses sql ≤ pool.allocated sql
  queueClean : ∀ sql ∈ pool.connQueue, pool.CleanAt sql
  returningClean : ∀ sql, .returning sql ∈ pool.owners → pool.CleanAt sql

variable {pool next : SqlConnPool} {place : GetConn} {event : Event} {progress : Progress}

theorem GetConnSteps.connections (moved : GetConnSteps pool place event next progress) :
    pool.connections <+: next.connections := by
  cases moved with
  | opened => exact List.prefix_append ..
  | _ => exact List.prefix_refl _

/-- A thread with a permit finds a connection, so its permit is not lost. -/
theorem GetConnSteps.counted (moved : GetConnSteps pool place event next progress)
    (enough : place.waiting ≤ pool.connQueue.length) :
    next.connQueue.length + pool.smph + place.waiting =
      pool.connQueue.length + next.smph + progress.waiting := by
  cases moved with
  | tried free | acquired free =>
    simp only [GetConn.waiting, Progress.waiting]
    omega
  | empty nothing => simp [nothing, GetConn.waiting] at enough
  | pop front =>
    simp only [front, List.length_cons, GetConn.waiting, Progress.waiting]
    omega
  | _ => simp [GetConn.waiting, Progress.waiting]

/-- A popped connection moves from the queue to its thread; an opened one is new. -/
theorem GetConnSteps.uses (moved : GetConnSteps pool place event next progress) (sql : Nat) :
    progress.sqls.count sql + next.connQueue.count sql + pool.allocated sql ≤
      place.sqls.count sql + pool.connQueue.count sql + next.allocated sql := by
  cases moved with
  | tried free | acquired free => simp [Progress.sqls, GetConn.sqls, allocated]
  | pop front =>
    simp only [Progress.sqls, GetConn.sqls, front, List.count_cons, List.count_nil, allocated]
    omega
  | opened =>
    simp only [Progress.sqls, GetConn.sqls, List.count_cons, List.count_nil, allocated,
      List.length_append, List.length_singleton, beq_iff_eq]
    split_ifs <;> omega
  | _ => simp [Progress.sqls, GetConn.sqls]

theorem GetConnSteps.queue (moved : GetConnSteps pool place event next progress) :
    next.connQueue <:+ pool.connQueue := by
  cases moved with
  | pop front => exact front ▸ List.suffix_cons ..
  | _ => exact List.suffix_refl _

theorem CleanAt.grow {sql : Nat} (clean : pool.CleanAt sql)
    (kept : pool.connections <+: next.connections) : next.CleanAt sql := by
  obtain ⟨connection, found, holds⟩ := clean
  obtain ⟨rest, same⟩ := kept
  have bound := (List.getElem?_eq_some_iff.mp found).1
  exact ⟨connection, by rw [← same, List.getElem?_append_left bound, found], holds⟩

theorem CleanAt.modify {sql changed : Nat} (clean : pool.CleanAt sql) (other : sql ≠ changed)
    (change : Connection → Connection) : (pool.modifyConnection changed change).CleanAt sql := by
  obtain ⟨connection, found, holds⟩ := clean
  exact ⟨connection, by simp [modifyConnection, Ne.symm other, found], holds⟩

variable {index : Nat} {old new owner : SqlConnRAII}

/-- A connection that one object holds is not queued and about to be returned by
no other. -/
theorem Owned.alone (valid : Owned pool) {sql : Nat} (member : owner ∈ pool.owners)
    (holder : owner.holds = [sql]) : sql ∉ pool.connQueue ∧
      (owner ≠ .returning sql → .returning sql ∉ pool.owners) := by
  have bound := valid.exclusive sql
  have most : pool.allocated sql ≤ 1 := by unfold allocated; split <;> omega
  have own : owner.holds.count sql = 1 := by simp [holder]
  unfold uses at bound
  constructor
  · intro queued
    have first := @weight_le_weigh _ (fun owner => owner.holds.count sql) _ _ member
    have second := List.count_pos_iff.mpr queued
    simp only [own] at first
    omega
  · intro different returning
    have both := @weight_add_le_weigh _ (fun owner => owner.holds.count sql) _ _ _ different
      member returning
    have other : (SqlConnRAII.returning sql).holds.count sql = 1 := by simp [SqlConnRAII.holds]
    simp only [own, other] at both
    omega

/-- What an object does to the connection that it alone holds keeps the clean ones clean. -/
theorem Owned.clean_modify (valid : Owned pool) {sql : Nat} (member : owner ∈ pool.owners)
    (holder : owner.holds = [sql]) (different : owner ≠ .returning sql)
    (change : Connection → Connection) :
    (∀ other ∈ pool.connQueue, (pool.modifyConnection sql change).CleanAt other) ∧
      ∀ other, .returning other ∈ pool.owners → (pool.modifyConnection sql change).CleanAt other := by
  obtain ⟨notQueued, notReturning⟩ := valid.alone member holder
  constructor
  · intro other queued
    exact (valid.queueClean other queued).modify (fun same => notQueued (by rwa [same] at queued)) _
  · intro other returning
    exact (valid.returningClean other returning).modify
      (fun same => notReturning different (by rwa [same] at returning)) _

theorem Owned.opened (valid : Owned pool) {sql : Nat} (member : owner ∈ pool.owners)
    (holder : sql ∈ owner.holds) : sql < pool.connections.length := by
  have bound := valid.exclusive sql
  have first := @weight_le_weigh _ (fun owner => owner.holds.count sql) _ _ member
  have second := List.count_pos_iff.mpr holder
  unfold uses allocated at bound
  split at bound
  · assumption
  · omega

/-- The invariant over a step that replaces one object, from what the step does
to the counts. -/
theorem Owned.move (valid : Owned pool) (found : pool.owners[index]? = some old)
    (owners : next.owners = pool.owners.set index new)
    (counted : next.connQueue.length + pool.smph + old.waiting =
      pool.connQueue.length + next.smph + new.waiting)
    (exclusive : ∀ sql, new.holds.count sql + next.connQueue.count sql + pool.allocated sql ≤
      old.holds.count sql + pool.connQueue.count sql + next.allocated sql)
    (queueClean : ∀ sql ∈ next.connQueue, next.CleanAt sql)
    (othersClean : ∀ sql, .returning sql ∈ pool.owners → next.CleanAt sql)
    (newClean : ∀ sql, new = .returning sql → next.CleanAt sql) : Owned next := by
  constructor
  · have before := valid.counted
    have moved := @weigh_set _ SqlConnRAII.waiting _ _ _ new found
    rw [owners]
    omega
  · intro sql
    have before := valid.exclusive sql
    have moved := @weigh_set _ (fun owner => owner.holds.count sql) _ _ _ new found
    have step := exclusive sql
    unfold uses at before ⊢
    rw [owners]
    omega
  · exact queueClean
  · intro sql member
    rw [owners] at member
    rcases List.mem_or_eq_of_mem_set member with earlier | same
    · exact othersClean sql earlier
    · exact newClean sql same.symm

theorem Owned.getConn (valid : Owned pool) (found : pool.owners[index]? = some old)
    (moved : GetConnSteps pool place event next progress) (oldWaits : old.waiting = place.waiting)
    (newWaits : new.waiting = progress.waiting)
    (holds : ∀ sql, new.holds.count sql + place.sqls.count sql ≤
      old.holds.count sql + progress.sqls.count sql)
    (notReturning : ∀ sql, new ≠ .returning sql) : Owned (next.setOwner index new) := by
  have queued : place.waiting ≤ pool.connQueue.length := by
    have some := @weight_le_weigh _ SqlConnRAII.waiting _ _ (List.mem_of_getElem? found)
    have total := valid.counted
    omega
  have kept := moved.connections
  refine valid.move found (moved.setOwner_owners _ _) ?_ ?_ ?_ ?_ ?_
  · rw [oldWaits, newWaits]
    exact moved.counted queued
  · intro sql
    have first := moved.uses sql
    have second := holds sql
    have queue : (next.setOwner index new).connQueue = next.connQueue := rfl
    have same : (next.setOwner index new).allocated sql = next.allocated sql := rfl
    rw [queue, same]
    omega
  · exact fun sql member => (valid.queueClean sql (moved.queue.subset member)).grow kept
  · exact fun sql member => (valid.returningClean sql member).grow kept
  · exact fun sql same => absurd same (notReturning sql)

theorem Owned.step (valid : Owned pool) {action : Action}
    (taken : machine.step pool action = some next) : Owned next := by
  obtain ⟨index, event⟩ := action
  rcases step_cases taken with ⟨_, same⟩ | ⟨owner, found, moved⟩
  · subst same
    refine ⟨?_, ?_, valid.queueClean, ?_⟩
    · simpa [SqlConnRAII.waiting, GetConn.waiting] using valid.counted
    · simpa [uses, allocated, SqlConnRAII.holds, GetConn.sqls] using valid.exclusive
    · exact fun sql member => valid.returningClean sql (by simpa using member)
  · have member : owner ∈ pool.owners := List.mem_of_getElem? found
    cases moved with
    | @constructing place _ next progress inside =>
      refine valid.getConn found inside rfl (constructed_waiting _) ?_ ?_
      · intro sql
        rw [constructed_holds]
        exact Nat.le_of_eq (Nat.add_comm _ _)
      · intro sql
        cases progress <;> simp [constructed]
    | @replacing place _ next progress old inside =>
      refine valid.getConn found inside rfl (replaced_waiting _ _) ?_ ?_
      · intro sql
        have bound := replaced_holds_count_le old sql progress
        simp only [SqlConnRAII.holds, List.count_cons, List.count_nil] at bound ⊢
        omega
      · intro sql
        cases progress <;> simp [replaced]
    | kept sql => exact valid
    | swapped sql =>
      refine valid.move found rfl rfl ?_ valid.queueClean valid.returningClean (by simp)
      exact fun sql => Nat.le_refl _
    | used sql op =>
      -- The changed connection is this object's alone, so no queued one changes.
      obtain ⟨queueClean, returningClean⟩ := valid.clean_modify member rfl (by simp) op.apply
      refine ⟨valid.counted, ?_, queueClean, returningClean⟩
      simpa [uses, allocated, modifyConnection] using valid.exclusive
    | closed sql =>
      refine valid.move found rfl rfl ?_ valid.queueClean valid.returningClean (by simp)
      exact fun sql => Nat.le_refl _
    | dropped sql =>
      refine valid.move found rfl rfl ?_ valid.queueClean valid.returningClean (by simp)
      exact fun other => Nat.add_le_add_right (Nat.add_le_add_right (Nat.zero_le _) _) _
    | restored sql =>
      obtain ⟨queueClean, returningClean⟩ :=
        valid.clean_modify member rfl (by simp) Connection.restoreAutoCommit
      refine valid.move found rfl rfl ?_ queueClean returningClean ?_
      · intro other
        simp [setOwner, modifyConnection, allocated, SqlConnRAII.holds]
      · intro other same
        cases same
        have opened : sql < pool.connections.length := valid.opened member (by simp [SqlConnRAII.holds])
        exact ⟨pool.connections[sql].restoreAutoCommit,
          by simp [setOwner, modifyConnection, opened], Connection.restoreAutoCommit_clean _⟩
    | pushed sql =>
      have clean := valid.returningClean sql member
      refine valid.move found rfl ?_ ?_ ?_ valid.returningClean (by simp)
      · simp only [List.length_append, List.length_singleton, SqlConnRAII.waiting]
        omega
      · intro other
        simp only [SqlConnRAII.holds, List.count_append, List.count_nil, allocated]
        omega
      · intro other queued
        rcases List.mem_append.mp queued with earlier | last
        · exact valid.queueClean other earlier
        · exact List.mem_singleton.mp last ▸ clean
    | released =>
      refine valid.move found rfl ?_ (fun sql => Nat.le_refl _) valid.queueClean
        valid.returningClean (by simp)
      simp only [SqlConnRAII.waiting]
      omega

theorem owned_init (config : Database) : Owned (init config) := by
  rw [init_eq]
  refine ⟨by simp, ?_, ?_, by simp⟩
  · intro sql
    simp only [uses, allocated, weigh_nil, List.length_replicate, Nat.zero_add]
    split
    · exact List.nodup_iff_count_le_one.mp List.nodup_range sql
    · rename_i unopened
      simpa [List.count_eq_zero] using unopened
  · intro sql queued
    exact ⟨{ options := connectionProperties config },
      by simpa [List.getElem?_replicate] using queued, rfl, rfl⟩

theorem owned_of_run {config : Database} {actions : List Action}
    (ran : machine.run (init config) actions = some pool) : Owned pool :=
  machine.invariant (motive := Owned) ran (owned_init config) fun _ _ _ valid taken =>
    valid.step taken

/-- A thread before the locked block of `getSql` never finds the queue empty. -/
theorem Owned.queue_nonempty (valid : Owned pool) (member : owner ∈ pool.owners)
    (waits : 0 < owner.waiting) : pool.connQueue ≠ [] := by
  have bound := @weight_le_weigh _ SqlConnRAII.waiting _ _ member
  have counted := valid.counted
  exact List.length_pos_iff.mp (by omega)

theorem Owned.nodup (valid : Owned pool) : (pool.held ++ pool.connQueue).Nodup := by
  refine nodup_held_append_iff.mpr fun sql => ?_
  have bound := valid.exclusive sql
  unfold uses allocated at bound
  split at bound <;> omega

/-- In every state that any interleaving of any number of threads reaches, with any
connections lost and any `connect` failing: a thread that has taken a permit finds
a connection in the queue, no connection is held twice, queued twice or held while
queued, and every queued connection is in autocommit mode with no transaction. -/
theorem connections_exclusive_and_clean {config : Database} {actions : List Action}
    (ran : machine.run (init config) actions = some pool) :
    (.constructing .getSql ∈ pool.owners ∨ (∃ sql, .replacing sql .getSql ∈ pool.owners) →
      pool.connQueue ≠ []) ∧
    (pool.held ++ pool.connQueue).Nodup ∧
    ∀ sql ∈ pool.connQueue, ∃ connection, pool.connections[sql]? = some connection ∧
      connection.autoCommit = true ∧ connection.inTransaction = false := by
  have valid := owned_of_run ran
  refine ⟨?_, valid.nodup, valid.queueClean⟩
  rintro (member | ⟨sql, member⟩)
  · exact valid.queue_nonempty member Nat.zero_lt_one
  · exact valid.queue_nonempty member Nat.zero_lt_one

/-- One object is destroyed in the middle of a transaction; another one is
constructed meanwhile. -/
theorem connections_exclusive_after_transaction :
    let actions : List Action :=
      [⟨0, .construct⟩, ⟨0, .tryAcquire true⟩, ⟨0, .popFront⟩, ⟨1, .construct⟩,
        ⟨0, .isValid true⟩, ⟨0, .use .beginTransaction⟩, ⟨1, .tryAcquire true⟩,
        ⟨0, .use .statement⟩, ⟨0, .destroy true⟩, ⟨1, .popFront⟩, ⟨1, .isValid false⟩,
        ⟨0, .restoreAutoCommit⟩, ⟨0, .push⟩]
    let pool := (machine.run (init .documented) actions).get (by decide)
    (pool.held ++ pool.connQueue).Nodup :=
  (connections_exclusive_and_clean (Option.some_get _).symm).2.1

end SqlConnPool

end TinyChat.Db
