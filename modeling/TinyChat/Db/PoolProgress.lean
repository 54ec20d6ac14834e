import TinyChat.Db.SqlConnPool

namespace TinyChat.Db

open TinyChat.Transition TinyChat.Utils

namespace SqlConnPool

variable {pool next : SqlConnPool} {place : GetConn} {event : Event} {progress : Progress}
variable {index : Nat} {owner new : SqlConnRAII}

/-- Whoever has locked `mtx_` is between the push and the release. -/
def Locked (pool : SqlConnPool) : Prop :=
  ∀ index, pool.mtx = some index → pool.owners[index]? = some .releasing

theorem Locked.move (locked : Locked pool) (found : pool.owners[index]? = some owner)
    (other : owner ≠ .releasing) (mtx : next.mtx = pool.mtx)
    (owners : next.owners = pool.owners.set index new) : Locked next := by
  intro holder taken
  have held := locked holder (mtx.symm.trans taken)
  have different : index ≠ holder := fun same => by
    subst same
    exact other (Option.some.inj (found.symm.trans held))
  rw [owners, List.getElem?_set_ne different]
  exact held

theorem Locked.step (locked : Locked pool) {action : Action}
    (taken : machine.step pool action = some next) : Locked next := by
  obtain ⟨index, event⟩ := action
  rcases step_cases taken with ⟨_, same⟩ | ⟨owner, found, moved⟩
  · subst same
    intro holder mtx
    have held := locked holder mtx
    exact (List.getElem?_append_left (List.getElem?_eq_some_iff.mp held).1).trans held
  · have bound := (List.getElem?_eq_some_iff.mp found).1
    cases moved with
    | constructing inside | replacing old inside =>
      exact locked.move found (by simp) inside.mtx (inside.setOwner_owners _ _)
    | kept sql => exact locked
    | used sql op => exact locked
    | swapped sql | closed sql | dropped sql | restored sql =>
      exact locked.move found (by simp) rfl rfl
    | pushed sql =>
      intro holder mtx
      cases mtx
      exact List.getElem?_set_self bound
    | released => exact fun holder mtx => nomatch mtx

theorem locked_init (config : Database) : Locked (init config) := by
  rw [init_eq]
  exact fun holder mtx => nomatch mtx

theorem locked_of_run {config : Database} {actions : List Action}
    (ran : machine.run (init config) actions = some pool) : Locked pool :=
  machine.invariant (motive := Locked) ran (locked_init config) fun _ _ _ locked taken =>
    locked.step taken

/-- A thread inside `getConn` can move, or waits for a permit or for the mutex. -/
theorem getConn_moves (pool : SqlConnPool) (place : GetConn) :
    (∃ event moved, pool.getConnStep place event = some moved) ∨
      place = .acquire ∧ pool.smph = 0 ∨ ∃ holder, pool.mtx = some holder := by
  cases place with
  | tryAcquire => exact .inl ⟨.tryAcquire false, _, rfl⟩
  | acquire =>
    by_cases free : 0 < pool.smph
    · exact .inl ⟨.acquire, _, if_pos free⟩
    · exact .inr (.inl ⟨rfl, by omega⟩)
  | getSql =>
    cases mtx : pool.mtx with
    | some holder => exact .inr (.inr ⟨holder, rfl⟩)
    | none =>
      refine .inl ⟨.popFront, ?_⟩
      cases queue : pool.connQueue <;> simp [getConnStep, mtx, queue]
  | popped sql => exact .inl ⟨.isValid true, _, rfl⟩
  | connect => exact .inl ⟨.connect true, _, rfl⟩

/-- The thread of an object is done, can move, or waits; it waits for a permit inside
`smph_->acquire()`, or for the mutex, whose holder can release it. -/
theorem waits_only_for_permits {config : Database} {actions : List Action}
    (ran : machine.run (init config) actions = some pool)
    (found : pool.owners[index]? = some owner) :
    owner = .ended ∨ (∃ event next, machine.step pool ⟨index, event⟩ = some next) ∨
      pool.smph = 0 ∧ (owner = .constructing .acquire ∨ ∃ sql, owner = .replacing sql .acquire) ∨
      ∃ holder next, pool.mtx = some holder ∧ machine.step pool ⟨holder, .release⟩ = some next := by
  have moves {event : Event} {next : SqlConnPool} (own : event ≠ .construct)
      (moved : pool.ownerStep index owner event = some next) :
      ∃ event next, machine.step pool ⟨index, event⟩ = some next := by
    refine ⟨event, next, ?_⟩
    cases event with
    | construct => exact absurd rfl own
    | _ => simp only [machine, step, found, Option.bind_some, moved]
  have released {holder : Nat} (mtx : pool.mtx = some holder) :
      ∃ holder next, pool.mtx = some holder ∧ machine.step pool ⟨holder, .release⟩ = some next := by
    refine ⟨holder, { pool with
      mtx := none
      smph := pool.smph + 1
      owners := pool.owners.set holder .ended }, mtx, ?_⟩
    simp only [machine, step, locked_of_run ran holder mtx, Option.bind_some]
    rfl
  -- Inside `getConn` it does not matter what the connection is for.
  have inside {place : GetConn} {lift : SqlConnPool × Progress → SqlConnPool}
      (same : ∀ event, pool.ownerStep index owner event = (pool.getConnStep place event).map lift)
      (waits : place = .acquire →
        owner = .constructing .acquire ∨ ∃ sql, owner = .replacing sql .acquire) :
      owner = .ended ∨ (∃ event next, machine.step pool ⟨index, event⟩ = some next) ∨
        pool.smph = 0 ∧ (owner = .constructing .acquire ∨ ∃ sql, owner = .replacing sql .acquire) ∨
        ∃ holder next, pool.mtx = some holder ∧
          machine.step pool ⟨holder, .release⟩ = some next := by
    rcases getConn_moves pool place with ⟨event, moved, taken⟩ | ⟨here, none⟩ | ⟨holder, mtx⟩
    · refine .inr (.inl (@moves event (lift moved) ?_ (by rw [same, taken]; rfl)))
      intro construct
      subst construct
      cases place <;> cases taken
    · exact .inr (.inr (.inl ⟨none, waits here⟩))
    · exact .inr (.inr (.inr (released mtx)))
  cases owner with
  | constructing place =>
    exact @inside place _ (fun _ => rfl) fun here => .inl (congrArg _ here)
  | replacing sql place =>
    exact @inside place _ (fun _ => rfl) fun here => .inr ⟨sql, congrArg _ here⟩
  | live sql => exact .inr (.inl (@moves (.getSql true) _ (by simp) rfl))
  | closing sql => exact .inr (.inl (@moves .restoreAutoCommit _ (by simp) rfl))
  | returning sql =>
    cases mtx : pool.mtx with
    | none =>
      refine .inr (.inl (@moves .push _ (by simp) (if_neg ?_)))
      simp [mtx]
    | some holder => exact .inr (.inr (.inr (mtx ▸ released mtx)))
  | releasing => exact .inr (.inl (@moves .release _ (by simp) rfl))
  | ended => exact .inl rfl

end SqlConnPool

end TinyChat.Db
