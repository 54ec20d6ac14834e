import TinyChat.Transition.Machine
import TinyChat.Transition.Processes
import TinyChat.Utils.AppConfig

/-! `db/sql_conn_pool.cpp` and `db/sql_conn_RAII.cpp` with every thread between any
two of its steps: the semaphore, the queue under its mutex, and the `SqlConnRAII`
objects. The answers of `isValid()` and the outcome of `driver->connect` are chosen
by the action. -/
namespace TinyChat.Db

open TinyChat.Transition TinyChat.Utils

/-- What a connection is opened with. -/
structure ConnectOptions where
  hostName : String
  userName : String
  password : String
  schema : Option String
  optReconnect : Bool
  deriving DecidableEq

/-- The `connection_properties` of `SqlConnPool::init`. -/
def connectionProperties (config : Database) : ConnectOptions :=
  { hostName := config.server, userName := config.user, password := config.passwd,
    schema := some config.db, optReconnect := true }

/-- What `driver->connect(server, user, passwd)` opens a connection with. -/
def connectArguments (config : Database) : ConnectOptions :=
  { hostName := config.server, userName := config.user, password := config.passwd,
    schema := none, optReconnect := false }

/-- A `sql::Connection` object; a fresh one is in autocommit mode. -/
structure Connection where
  options : ConnectOptions
  autoCommit : Bool := true
  inTransaction : Bool := false
  /-- A statement commits at once in autocommit mode. -/
  settled : autoCommit = true → inTransaction = false := by intro _; rfl
  deriving DecidableEq

namespace Connection

/-- Switching autocommit on commits and so ends an open transaction. -/
def setAutoCommit (on : Bool) (connection : Connection) : Connection :=
  { options := connection.options
    autoCommit := on
    inTransaction := !on && connection.inTransaction
    settled := by simp +contextual }

/-- A statement opens a transaction unless it commits at once. -/
def execute (connection : Connection) : Connection :=
  { options := connection.options
    autoCommit := connection.autoCommit
    inTransaction := connection.inTransaction || !connection.autoCommit
    settled := fun on => by simp [on, connection.settled on] }

/-- `commit()` and `rollback()`. -/
def endTransaction (connection : Connection) : Connection :=
  { options := connection.options
    autoCommit := connection.autoCommit
    inTransaction := false
    settled := fun _ => rfl }

/-- What the destructor of `SqlConnRAII` does before it returns the connection. -/
def restoreAutoCommit (connection : Connection) : Connection :=
  if !connection.autoCommit then connection.setAutoCommit true else connection

/-- In autocommit mode with no open transaction. -/
def Clean (connection : Connection) : Prop :=
  connection.autoCommit = true ∧ connection.inTransaction = false

theorem restoreAutoCommit_clean (connection : Connection) : connection.restoreAutoCommit.Clean := by
  unfold restoreAutoCommit
  split
  · exact ⟨rfl, rfl⟩
  · rename_i off
    have on : connection.autoCommit = true := by simpa using off
    exact ⟨on, connection.settled on⟩

end Connection

/-- What a live `SqlConnRAII` lets its owner do to the connection. -/
inductive ConnOp where
  | beginTransaction
  | statement
  | commit
  | rollback

def ConnOp.apply : ConnOp → Connection → Connection
  | .beginTransaction => .setAutoCommit false
  | .statement => .execute
  | .commit => .endTransaction
  | .rollback => .endTransaction

/-- Where a thread is inside `SqlConnPool::getConn`. -/
inductive GetConn where
  | tryAcquire
  | acquire
  /-- With a permit, before the locked block of `getSql`. -/
  | getSql
  /-- With the connection it popped, before `sql->isValid()`. -/
  | popped (sql : Nat)
  /-- The popped connection was invalid; before `driver->connect`. -/
  | connect
  deriving DecidableEq

/-- How a step inside `getConn` ends. -/
inductive Progress where
  | at (place : GetConn)
  | returned (sql : Nat)
  | threw

/-- A `SqlConnRAII` object and how far its thread is in its current operation. A
connection is named by its place among all connections ever opened. -/
inductive SqlConnRAII where
  | constructing (place : GetConn)
  | live (sql : Nat)
  /-- In `SqlConnRAII::getSql`, which found `sql` invalid. -/
  | replacing (sql : Nat) (place : GetConn)
  /-- In the destructor, which found `sql` valid. -/
  | closing (sql : Nat)
  /-- Before `freeConn`. -/
  | returning (sql : Nat)
  /-- In `freeConn` between the push and the release, with `mtx_` locked. -/
  | releasing
  /-- Destroyed, or never constructed because the constructor threw. -/
  | ended
  deriving DecidableEq

structure SqlConnPool where
  config : Database
  /-- The permits of `smph_`. -/
  smph : Nat
  /-- The object whose thread is inside `freeConn` with `mtx_` locked. -/
  mtx : Option Nat
  connQueue : List Nat
  connections : List Connection
  owners : List SqlConnRAII

inductive Event where
  | construct
  | tryAcquire (acquired : Bool)
  | acquire
  | popFront
  | isValid (answer : Bool)
  | connect (succeeds : Bool)
  | getSql (valid : Bool)
  | use (op : ConnOp)
  | destroy (valid : Bool)
  | restoreAutoCommit
  | push
  | release

structure Action where
  owner : Nat
  event : Event

namespace SqlConnPool

/-- The loop of `init` for the given number of rounds. -/
def fill : Nat → SqlConnPool → SqlConnPool
  | 0, pool => pool
  | rounds + 1, pool =>
    fill rounds { pool with
      connections := pool.connections ++ [{ options := connectionProperties pool.config }]
      connQueue := pool.connQueue ++ [pool.connections.length] }

def init (config : Database) : SqlConnPool :=
  fill config.sqlconnpoolMaxSize
    { config, smph := config.sqlconnpoolMaxSize, mtx := none, connQueue := [],
      connections := [], owners := [] }

private theorem fill_eq (rounds : Nat) (pool : SqlConnPool) : fill rounds pool =
    { pool with
      connections := pool.connections ++
        List.replicate rounds { options := connectionProperties pool.config }
      connQueue := pool.connQueue ++ List.range' pool.connections.length rounds } := by
  induction rounds generalizing pool with
  | zero => simp [fill]
  | succ rounds ih => simp [fill, ih, List.range'_succ, List.replicate_succ]

/-- Every connection that `init` opens is in the queue, with a permit for it. -/
theorem init_eq (config : Database) : init config =
    { config
      smph := config.sqlconnpoolMaxSize
      mtx := none
      connQueue := List.range config.sqlconnpoolMaxSize
      connections :=
        List.replicate config.sqlconnpoolMaxSize { options := connectionProperties config }
      owners := [] } := by
  simp [init, fill_eq, List.range_eq_range']

def setOwner (pool : SqlConnPool) (index : Nat) (owner : SqlConnRAII) : SqlConnPool :=
  { pool with owners := pool.owners.set index owner }

def modifyConnection (pool : SqlConnPool) (sql : Nat) (change : Connection → Connection) :
    SqlConnPool :=
  { pool with connections := pool.connections.modify sql change }

/-- One step inside `getConn`; `try_acquire` may also fail while permits are free. -/
def getConnStep (pool : SqlConnPool) : GetConn → Event → Option (SqlConnPool × Progress)
  | .tryAcquire, .tryAcquire true =>
    if 0 < pool.smph then some ({ pool with smph := pool.smph - 1 }, .at .getSql) else none
  | .tryAcquire, .tryAcquire false => some (pool, .at .acquire)
  | .acquire, .acquire =>
    if 0 < pool.smph then some ({ pool with smph := pool.smph - 1 }, .at .getSql) else none
  | .getSql, .popFront =>
    if pool.mtx.isSome then none
    else
      match pool.connQueue with
      | [] => some (pool, .threw)
      | sql :: rest => some ({ pool with connQueue := rest }, .at (.popped sql))
  | .popped sql, .isValid true => some (pool, .returned sql)
  | .popped _, .isValid false => some (pool, .at .connect)
  | .connect, .connect true =>
    some ({ pool with connections := pool.connections ++
      [{ options := connectArguments pool.config }] }, .returned pool.connections.length)
  | .connect, .connect false => some (pool, .threw)
  | _, _ => none

/-- The constructor assigns `sql_` only when `getConn` returns. -/
def constructed : Progress → SqlConnRAII
  | .at place => .constructing place
  | .returned sql => .live sql
  | .threw => .ended

/-- `SqlConnRAII::getSql` keeps the old `sql_` when `getConn` throws. -/
def replaced (old : Nat) : Progress → SqlConnRAII
  | .at place => .replacing old place
  | .returned sql => .live sql
  | .threw => .live old

/-- One step of the thread that works on the object at the index. -/
def ownerStep (pool : SqlConnPool) (index : Nat) : SqlConnRAII → Event → Option SqlConnPool
  | .constructing place, event => (pool.getConnStep place event).map fun (next, progress) =>
      next.setOwner index (constructed progress)
  | .replacing sql place, event => (pool.getConnStep place event).map fun (next, progress) =>
      next.setOwner index (replaced sql progress)
  | .live _, .getSql true => some pool
  | .live sql, .getSql false => some (pool.setOwner index (.replacing sql .tryAcquire))
  | .live sql, .use op => some (pool.modifyConnection sql op.apply)
  | .live sql, .destroy true => some (pool.setOwner index (.closing sql))
  | .live _, .destroy false => some (pool.setOwner index .ended)
  | .closing sql, .restoreAutoCommit =>
    some ((pool.modifyConnection sql .restoreAutoCommit).setOwner index (.returning sql))
  | .returning sql, .push =>
    if pool.mtx.isSome then none
    else some { pool with
      mtx := some index
      connQueue := pool.connQueue ++ [sql]
      owners := pool.owners.set index .releasing }
  | .releasing, .release =>
    some { pool with
      mtx := none
      smph := pool.smph + 1
      owners := pool.owners.set index .ended }
  | _, _ => none

def step (pool : SqlConnPool) (action : Action) : Option SqlConnPool :=
  match action.event with
  | .construct =>
    if action.owner = pool.owners.length then
      some { pool with owners := pool.owners ++ [.constructing .tryAcquire] }
    else none
  | event => pool.owners[action.owner]?.bind fun owner => pool.ownerStep action.owner owner event

/-- All interleavings of all threads. -/
def machine : Machine SqlConnPool Action := ⟨step⟩

/-- Everything a step inside `getConn` can do. -/
inductive GetConnSteps (pool : SqlConnPool) : GetConn → Event → SqlConnPool → Progress → Prop where
  | tried (free : 0 < pool.smph) : GetConnSteps pool .tryAcquire (.tryAcquire true)
      { pool with smph := pool.smph - 1 } (.at .getSql)
  | acquired (free : 0 < pool.smph) : GetConnSteps pool .acquire .acquire
      { pool with smph := pool.smph - 1 } (.at .getSql)
  | busy : GetConnSteps pool .tryAcquire (.tryAcquire false) pool (.at .acquire)
  | empty (nothing : pool.connQueue = []) : GetConnSteps pool .getSql .popFront pool .threw
  | pop (front : pool.connQueue = sql :: rest) :
      GetConnSteps pool .getSql .popFront { pool with connQueue := rest } (.at (.popped sql))
  | valid (sql : Nat) : GetConnSteps pool (.popped sql) (.isValid true) pool (.returned sql)
  | invalid (sql : Nat) : GetConnSteps pool (.popped sql) (.isValid false) pool (.at .connect)
  | opened : GetConnSteps pool .connect (.connect true)
      { pool with connections := pool.connections ++
        [{ options := connectArguments pool.config }] } (.returned pool.connections.length)
  | failed : GetConnSteps pool .connect (.connect false) pool .threw

theorem getConnSteps_of_step {pool next : SqlConnPool} {place : GetConn} {event : Event}
    {progress : Progress} (taken : pool.getConnStep place event = some (next, progress)) :
    GetConnSteps pool place event next progress := by
  unfold getConnStep at taken
  split at taken
  · split at taken
    · rename_i free
      cases taken
      exact .tried free
    · cases taken
  · cases taken
    exact .busy
  · split at taken
    · rename_i free
      cases taken
      exact .acquired free
    · cases taken
  · split at taken
    · cases taken
    · split at taken
      · rename_i nothing
        cases taken
        exact .empty nothing
      · rename_i front
        cases taken
        exact .pop front
  · cases taken
    exact .valid _
  · cases taken
    exact .invalid _
  · cases taken
    exact .opened
  · cases taken
    exact .failed
  · cases taken

theorem GetConnSteps.owners {pool next : SqlConnPool} {place : GetConn} {event : Event}
    {progress : Progress} (moved : GetConnSteps pool place event next progress) :
    next.owners = pool.owners := by
  cases moved <;> rfl

theorem GetConnSteps.setOwner_owners {pool next : SqlConnPool} {place : GetConn} {event : Event}
    {progress : Progress} (moved : GetConnSteps pool place event next progress) (index : Nat)
    (owner : SqlConnRAII) :
    (next.setOwner index owner).owners = pool.owners.set index owner :=
  congrArg (·.set index owner) moved.owners

theorem GetConnSteps.mtx {pool next : SqlConnPool} {place : GetConn} {event : Event}
    {progress : Progress} (moved : GetConnSteps pool place event next progress) :
    next.mtx = pool.mtx := by
  cases moved <;> rfl

/-- Everything a step of the pool can do, by the object it is about. -/
inductive Steps (pool : SqlConnPool) (index : Nat) : SqlConnRAII → Event → SqlConnPool → Prop where
  | constructing (moved : GetConnSteps pool place event next progress) :
      Steps pool index (.constructing place) event (next.setOwner index (constructed progress))
  | replacing (sql : Nat) (moved : GetConnSteps pool place event next progress) :
      Steps pool index (.replacing sql place) event (next.setOwner index (replaced sql progress))
  | kept (sql : Nat) : Steps pool index (.live sql) (.getSql true) pool
  | swapped (sql : Nat) : Steps pool index (.live sql) (.getSql false)
      (pool.setOwner index (.replacing sql .tryAcquire))
  | used (sql : Nat) (op : ConnOp) : Steps pool index (.live sql) (.use op)
      (pool.modifyConnection sql op.apply)
  | closed (sql : Nat) : Steps pool index (.live sql) (.destroy true)
      (pool.setOwner index (.closing sql))
  | dropped (sql : Nat) : Steps pool index (.live sql) (.destroy false)
      (pool.setOwner index .ended)
  | restored (sql : Nat) : Steps pool index (.closing sql) .restoreAutoCommit
      ((pool.modifyConnection sql .restoreAutoCommit).setOwner index (.returning sql))
  | pushed (sql : Nat) : Steps pool index (.returning sql) .push
      { pool with
        mtx := some index
        connQueue := pool.connQueue ++ [sql]
        owners := pool.owners.set index .releasing }
  | released : Steps pool index .releasing .release
      { pool with
        mtx := none
        smph := pool.smph + 1
        owners := pool.owners.set index .ended }

private theorem steps_of_ownerStep {pool next : SqlConnPool} {index : Nat} {owner : SqlConnRAII}
    {event : Event} (taken : pool.ownerStep index owner event = some next) :
    Steps pool index owner event next := by
  unfold ownerStep at taken
  split at taken
  · obtain ⟨⟨moved, progress⟩, inside, same⟩ := Option.map_eq_some_iff.mp taken
    subst same
    exact .constructing (getConnSteps_of_step inside)
  · obtain ⟨⟨moved, progress⟩, inside, same⟩ := Option.map_eq_some_iff.mp taken
    subst same
    exact .replacing _ (getConnSteps_of_step inside)
  · cases taken
    exact .kept _
  · cases taken
    exact .swapped _
  · cases taken
    exact .used _ _
  · cases taken
    exact .closed _
  · cases taken
    exact .dropped _
  · cases taken
    exact .restored _
  · split at taken
    · cases taken
    · cases taken
      exact .pushed _
  · cases taken
    exact .released
  · cases taken

theorem step_cases {pool next : SqlConnPool} {action : Action}
    (taken : machine.step pool action = some next) :
    (action.event = .construct ∧
      next = { pool with owners := pool.owners ++ [.constructing .tryAcquire] }) ∨
    ∃ owner, pool.owners[action.owner]? = some owner ∧
      Steps pool action.owner owner action.event next := by
  simp only [machine, step] at taken
  split at taken
  · rename_i constructing
    split at taken
    · cases taken
      exact .inl ⟨constructing, rfl⟩
    · cases taken
  · obtain ⟨owner, found, moved⟩ := Option.bind_eq_some_iff.mp taken
    exact .inr ⟨owner, found, steps_of_ownerStep moved⟩

end SqlConnPool

end TinyChat.Db
