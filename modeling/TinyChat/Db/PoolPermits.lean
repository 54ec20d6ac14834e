import TinyChat.Db.PoolOwnership

/-! The permits of `smph_`. Three steps take a permit that is never released: the
replacement in `SqlConnRAII::getSql`, the destructor over an invalid connection,
and a `driver->connect` that throws out of a constructor. -/
namespace TinyChat.Db

open TinyChat.Transition TinyChat.Utils

/-- The permit a thread has taken inside `getConn`. -/
def GetConn.permits : GetConn → Nat
  | .tryAcquire => 0
  | .acquire => 0
  | _ => 1

/-- A thread that leaves `getConn`, also by an exception, has taken a permit. -/
def Progress.permits : Progress → Nat
  | .at place => place.permits
  | _ => 1

/-- The permit that an object and its thread can still bring back. -/
def SqlConnRAII.permits : SqlConnRAII → Nat
  | .constructing place => place.permits
  | .replacing _ place => place.permits
  | .ended => 0
  | _ => 1

/-- One for a live object. -/
def SqlConnRAII.lives : SqlConnRAII → Nat
  | .live _ => 1
  | _ => 0

/-- What the environment does to lose a permit: a connection is invalid when its
object uses or destroys it, or the server refuses the connection a constructor
needs. -/
inductive Fault : SqlConnRAII → Event → Prop where
  | usedInvalid (sql : Nat) : Fault (.live sql) (.getSql false)
  | destroyedInvalid (sql : Nat) : Fault (.live sql) (.destroy false)
  | connectFailed : Fault (.constructing .connect) (.connect false)

/-- One for a fault, else zero. -/
def SqlConnRAII.loses : SqlConnRAII → Event → Nat
  | .live _, .getSql false => 1
  | .live _, .destroy false => 1
  | .constructing .connect, .connect false => 1
  | _, _ => 0

theorem loses_eq_zero_iff (owner : SqlConnRAII) (event : Event) :
    owner.loses event = 0 ↔ ¬ Fault owner event := by
  unfold SqlConnRAII.loses
  split
  · simp [Fault.usedInvalid]
  · simp [Fault.destroyedInvalid]
  · simp [Fault.connectFailed]
  · rename_i first second third
    refine iff_of_true rfl fun fault => ?_
    cases fault with
    | usedInvalid sql => exact first sql rfl rfl
    | destroyedInvalid sql => exact second sql rfl rfl
    | connectFailed => exact third rfl rfl

@[simp] theorem replaced_permits (old : Nat) (progress : Progress) :
    (SqlConnPool.replaced old progress).permits = progress.permits := by
  cases progress <;> rfl

namespace SqlConnPool

variable {pool next : SqlConnPool} {place : GetConn} {event : Event} {progress : Progress}
variable {config : Database} {actions : List Action}

/-- The permits that are free or can still be brought back. -/
def permits (pool : SqlConnPool) : Nat := pool.smph + weigh SqlConnRAII.permits pool.owners

/-- What a step loses. -/
def lost (pool : SqlConnPool) (action : Action) : Nat :=
  pool.owners[action.owner]?.elim 0 fun owner => owner.loses action.event

/-- The step is no fault. -/
def Faultless (pool : SqlConnPool) (action : Action) : Prop :=
  ∀ owner, pool.owners[action.owner]? = some owner → ¬ Fault owner action.event

theorem lost_eq_zero_iff (pool : SqlConnPool) (action : Action) :
    pool.lost action = 0 ↔ pool.Faultless action := by
  unfold lost Faultless
  cases pool.owners[action.owner]? with
  | none => simp
  | some owner => simp [loses_eq_zero_iff]

/-- No thread is inside a constructor, `getSql` or a destructor. -/
def Quiescent (pool : SqlConnPool) : Prop :=
  ∀ owner ∈ pool.owners, (∃ sql, owner = .live sql) ∨ owner = .ended

/-- The number of live objects. -/
def alive (pool : SqlConnPool) : Nat := weigh SqlConnRAII.lives pool.owners

theorem Quiescent.permits (quiet : pool.Quiescent) : pool.permits = pool.smph + pool.alive := by
  refine congrArg (pool.smph + ·) (weigh_congr fun owner member => ?_)
  rcases quiet owner member with ⟨sql, same⟩ | same <;> subst same <;> rfl

theorem GetConnSteps.permits (moved : GetConnSteps pool place event next progress) :
    next.smph + progress.permits = pool.smph + place.permits := by
  cases moved with
  | tried free | acquired free =>
    simp only [GetConn.permits, Progress.permits]
    omega
  | _ => rfl

/-- An exception out of a constructor leaves no object to bring the permit back;
with a connection in the queue only `driver->connect` throws. -/
theorem GetConnSteps.constructed_permits (moved : GetConnSteps pool place event next progress)
    (nonempty : place = .getSql → pool.connQueue ≠ []) :
    (constructed progress).permits + (SqlConnRAII.constructing place).loses event =
      progress.permits := by
  cases moved with
  | empty nothing => exact absurd nothing (nonempty rfl)
  | _ => rfl

private theorem permits_move {index : Nat} {old new : SqlConnRAII} {loss : Nat}
    (found : pool.owners[index]? = some old) (owners : next.owners = pool.owners.set index new)
    (counted : next.smph + new.permits + loss = pool.smph + old.permits) :
    next.permits + loss = pool.permits := by
  have moved := @weigh_set _ SqlConnRAII.permits _ _ _ new found
  unfold permits
  rw [owners]
  omega

/-- Every step spends exactly the permit it loses. -/
theorem Owned.permits_step (valid : Owned pool) {action : Action}
    (taken : machine.step pool action = some next) :
    next.permits + pool.lost action = pool.permits := by
  obtain ⟨index, event⟩ := action
  rcases step_cases taken with ⟨constructs, same⟩ | ⟨owner, found, moved⟩
  · cases constructs
    subst same
    have nothing : pool.lost ⟨index, .construct⟩ = 0 := by
      refine (lost_eq_zero_iff _ _).mpr fun owner _ fault => ?_
      cases fault
    simp [permits, nothing, SqlConnRAII.permits, GetConn.permits]
  · have loss : pool.lost ⟨index, event⟩ = owner.loses event := by simp [lost, found]
    rw [loss]
    cases moved with
    | @constructing place _ next progress inside =>
      have nonempty : place = .getSql → pool.connQueue ≠ [] := fun same =>
        valid.queue_nonempty (List.mem_of_getElem? found) (by subst same; exact Nat.zero_lt_one)
      have counted := inside.permits
      have kept := inside.constructed_permits nonempty
      refine permits_move found (inside.setOwner_owners _ _) ?_
      simp only [setOwner, SqlConnRAII.permits] at counted kept ⊢
      omega
    | @replacing place _ next progress old inside =>
      -- The old connection was charged when it was found invalid, so an exception is free.
      have counted := inside.permits
      refine permits_move found (inside.setOwner_owners _ _) ?_
      rw [replaced_permits]
      exact counted
    | kept sql => rfl
    | used sql op => rfl
    | released => exact permits_move found rfl (by simp only [SqlConnRAII.permits, SqlConnRAII.loses])
    | _ => exact permits_move found rfl rfl

theorem permits_init (config : Database) :
    (init config).permits = config.sqlconnpoolMaxSize := by
  simp [init_eq, permits]

/-- What is missing from the permits is exactly what the faults of the run took. -/
theorem permits_add_spent (ran : machine.run (init config) actions = some pool) :
    pool.permits + machine.spent lost (init config) actions = config.sqlconnpoolMaxSize :=
  (Machine.spent_balance (fun _ _ _ _ reached taken => (owned_of_run reached).permits_step taken)
    ran).trans (permits_init config)

private theorem kept_iff_faultless (ran : machine.run (init config) actions = some pool)
    (quiet : pool.Quiescent) :
    pool.smph + pool.alive = config.sqlconnpoolMaxSize ↔
      machine.Allowed (fun _ pool action => pool.Faultless action) (init config) actions := by
  have balance := permits_add_spent ran
  have free := @Machine.spent_eq_zero_iff _ _ _ lost _ _ _ ran
  simp only [lost_eq_zero_iff] at free
  rw [← free, ← quiet.permits]
  omega

/-- Whenever no thread is inside an operation of the pool, the free permits and the
live objects add up to the size of the pool exactly if no fault has happened: no
connection was found invalid by the use or the destruction of its object, and no
`driver->connect` failed for a constructor. So when every object is destroyed, all
permits and connections are back exactly if no fault has happened. -/
theorem permits_kept_iff_faultless (ran : machine.run (init config) actions = some pool)
    (quiet : pool.Quiescent) :
    (pool.smph + pool.alive = config.sqlconnpoolMaxSize ↔
      machine.Allowed (fun _ pool action => pool.Faultless action) (init config) actions) ∧
    ((∀ owner ∈ pool.owners, owner = .ended) →
      (pool.smph = config.sqlconnpoolMaxSize ∧
          pool.connQueue.length = config.sqlconnpoolMaxSize ↔
        machine.Allowed (fun _ pool action => pool.Faultless action) (init config) actions)) := by
  refine ⟨kept_iff_faultless ran quiet, fun ended => ?_⟩
  have queued := (owned_of_run ran).counted
  have idle : weigh SqlConnRAII.waiting pool.owners = 0 :=
    weigh_eq_zero fun owner member => by rw [ended owner member]; rfl
  have gone : pool.alive = 0 :=
    weigh_eq_zero fun owner member => by rw [ended owner member]; rfl
  rw [← kept_iff_faultless ran quiet, queued, idle, gone]
  omega

/-- Two objects borrow and return, one of them after waiting. -/
theorem permits_kept_by_two :
    let actions : List Action :=
      [⟨0, .construct⟩, ⟨0, .tryAcquire true⟩, ⟨1, .construct⟩, ⟨1, .tryAcquire false⟩,
        ⟨0, .popFront⟩, ⟨0, .isValid true⟩, ⟨0, .destroy true⟩, ⟨0, .restoreAutoCommit⟩,
        ⟨0, .push⟩, ⟨0, .release⟩, ⟨1, .acquire⟩, ⟨1, .popFront⟩, ⟨1, .isValid true⟩]
    let pool := (machine.run (init .documented) actions).get (by decide)
    pool.smph + pool.alive = 20 ↔
      machine.Allowed (fun _ pool action => pool.Faultless action) (init .documented) actions :=
  (permits_kept_iff_faultless (Option.some_get _).symm fun owner member => by
    have owners : owner ∈ [.ended, SqlConnRAII.live 1] := member
    simp only [List.mem_cons, List.not_mem_nil, or_false] at owners
    rcases owners with same | same
    · exact .inr same
    · exact .inl ⟨1, same⟩).1

/-- An object borrows a connection and finds it invalid in its destructor. -/
theorem permits_lost_by_destructor :
    ¬ ∀ (config : Database) (actions : List Action) (pool : SqlConnPool),
      machine.run (init config) actions = some pool → pool.Quiescent →
      pool.smph + pool.alive = config.sqlconnpoolMaxSize := by
  intro claimed
  let actions : List Action :=
    [⟨0, .construct⟩, ⟨0, .tryAcquire true⟩, ⟨0, .popFront⟩, ⟨0, .isValid true⟩,
      ⟨0, .destroy false⟩]
  have kept := claimed .documented actions _ (@Option.some_get _ (machine.run _ actions) rfl).symm
    fun owner member => by
      have owners : owner ∈ [SqlConnRAII.ended] := member
      exact .inr (List.mem_singleton.mp owners)
  exact absurd kept (by decide)

end SqlConnPool

end TinyChat.Db
