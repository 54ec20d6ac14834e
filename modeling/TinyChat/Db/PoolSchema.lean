import TinyChat.Db.SqlConnPool

/-! What the connections are opened with. `init` selects the configured schema and
`SqlConnPool::getSql` does not, so a replaced connection keeps circulating without
a schema. -/
namespace TinyChat.Db

open TinyChat.Transition TinyChat.Utils

/-- Opened as `init` opens its connections, with the configured schema selected. -/
structure ConnectOptions.Configured (config : Database) (options : ConnectOptions) : Prop where
  hostName : options.hostName = config.server
  userName : options.userName = config.user
  password : options.password = config.passwd
  schema : options.schema = some config.db

theorem connectionProperties_configured (config : Database) :
    (connectionProperties config).Configured config := ⟨rfl, rfl, rfl, rfl⟩

theorem connectArguments_not_configured (config : Database) :
    ¬ (connectArguments config).Configured config := fun configured => by
  cases configured.schema

theorem ConnOp.apply_options (op : ConnOp) (connection : Connection) :
    (op.apply connection).options = connection.options := by
  cases op <;> rfl

theorem Connection.restoreAutoCommit_options (connection : Connection) :
    connection.restoreAutoCommit.options = connection.options := by
  unfold restoreAutoCommit
  split <;> rfl

/-- The place inside `getConn` of the thread that works on an object. -/
def SqlConnRAII.place : SqlConnRAII → Option GetConn
  | .constructing place => some place
  | .replacing _ place => some place
  | _ => none

namespace SqlConnPool

variable {pool next : SqlConnPool} {place : GetConn} {event : Event} {progress : Progress}
variable {config : Database} {actions : List Action}

/-- The connection that `getConn` returns in this step. -/
def handsOut (pool : SqlConnPool) (action : Action) : Option Connection :=
  match (pool.owners[action.owner]?.bind SqlConnRAII.place).bind
      fun place => pool.getConnStep place action.event with
  | some (next, .returned sql) => next.connections[sql]?
  | _ => none

/-- What the connections opened so far were opened with. -/
def opened (pool : SqlConnPool) : List ConnectOptions := pool.connections.map Connection.options

/-- The step opens a connection in `SqlConnPool::getSql` in place of an invalid one. -/
def replaces (action : Action) : Bool :=
  match action.event with
  | .connect true => true
  | _ => false

theorem modifyConnection_opened (pool : SqlConnPool) (sql : Nat) {change : Connection → Connection}
    (same : ∀ connection, (change connection).options = connection.options) :
    (pool.modifyConnection sql change).opened = pool.opened := by
  refine List.ext_getElem? fun index => ?_
  simp only [opened, modifyConnection, List.getElem?_map, List.getElem?_modify]
  cases pool.connections[index]? with
  | none => rfl
  | some connection =>
    simp only [Option.map_some]
    split <;> simp [same]

theorem GetConnSteps.opened_eq (moved : GetConnSteps pool place event next progress) (index : Nat) :
    next.config = pool.config ∧
      next.opened = if replaces ⟨index, event⟩ then pool.opened ++ [connectArguments pool.config]
        else pool.opened := by
  cases moved with
  | opened => simp [SqlConnPool.opened, replaces]
  | _ => exact ⟨rfl, rfl⟩

/-- A step opens a connection only to replace an invalid one. -/
theorem step_opened {action : Action} (taken : machine.step pool action = some next) :
    next.config = pool.config ∧
      next.opened = if replaces action then pool.opened ++ [connectArguments pool.config]
        else pool.opened := by
  obtain ⟨index, event⟩ := action
  rcases step_cases taken with ⟨constructs, same⟩ | ⟨owner, found, moved⟩
  · cases constructs
    subst same
    exact ⟨rfl, rfl⟩
  · cases moved with
    | constructing moved => exact moved.opened_eq index
    | replacing old moved => exact moved.opened_eq index
    | used sql op => exact ⟨rfl, modifyConnection_opened pool sql op.apply_options⟩
    | restored sql =>
      exact ⟨rfl, modifyConnection_opened pool sql Connection.restoreAutoCommit_options⟩
    | _ => exact ⟨rfl, rfl⟩

/-- `getConn` returns a connection opened before, unless it has just replaced one. -/
theorem handsOut_options {action : Action} {connection : Connection}
    (handed : pool.handsOut action = some connection) (keeps : replaces action = false) :
    connection.options ∈ pool.opened := by
  obtain ⟨index, event⟩ := action
  unfold handsOut at handed
  split at handed
  · rename_i next sql returned
    obtain ⟨place, found, moved⟩ := Option.bind_eq_some_iff.mp returned
    cases getConnSteps_of_step moved with
    | valid => exact List.mem_map_of_mem (List.mem_of_getElem? handed)
    | opened => cases keeps
  · cases handed

theorem handsOut_of_replaces {action : Action} (taken : machine.step pool action = some next)
    (replacing : replaces action = true) :
    ∃ connection, pool.handsOut action = some connection ∧
      connection.options = connectArguments pool.config := by
  obtain ⟨index, event⟩ := action
  have inside {owner : SqlConnRAII} (found : pool.owners[index]? = some owner)
      (here : owner.place = some .connect) (same : event = .connect true) :
      pool.handsOut ⟨index, event⟩ = some { options := connectArguments pool.config } := by
    simp [handsOut, found, here, same, getConnStep]
  rcases step_cases taken with ⟨constructs, _⟩ | ⟨owner, found, moved⟩
  · cases constructs
    cases replacing
  · cases moved with
    | constructing moved =>
      cases moved with
      | opened => exact ⟨_, inside found rfl rfl, rfl⟩
      | _ => cases replacing
    | replacing old moved =>
      cases moved with
      | opened => exact ⟨_, inside found rfl rfl, rfl⟩
      | _ => cases replacing
    | _ => cases replacing

/-- The connection handed out in this step, if any, is configured. -/
def HandsOutConfigured (config : Database) (pool : SqlConnPool) (action : Action) : Prop :=
  ∀ connection, pool.handsOut action = some connection → connection.options.Configured config

/-- Everything opened so far is configured. -/
def OpenedConfigured (config : Database) (pool : SqlConnPool) : Prop :=
  pool.config = config ∧ ∀ options ∈ pool.opened, options.Configured config

theorem openedConfigured_init (config : Database) : OpenedConfigured config (init config) := by
  rw [init_eq]
  refine ⟨rfl, fun options member => ?_⟩
  rw [opened, List.map_replicate] at member
  rw [List.eq_of_mem_replicate member]
  exact connectionProperties_configured config

/-- While everything is configured, the next connection handed out is, unless it
has just replaced an invalid one. -/
theorem handsOutConfigured_iff {action : Action} (valid : OpenedConfigured config pool)
    (taken : machine.step pool action = some next) :
    HandsOutConfigured config pool action ↔ replaces action = false := by
  constructor
  · intro configured
    by_contra replacing
    obtain ⟨connection, handed, same⟩ := handsOut_of_replaces taken (by simpa using replacing)
    have wanted := configured connection handed
    rw [same, valid.1] at wanted
    exact connectArguments_not_configured config wanted
  · exact fun keeps connection handed => valid.2 _ (handsOut_options handed keeps)

/-- In every run, every connection that `getConn` hands out is opened with the
configured host, login and schema exactly if `SqlConnPool::getSql` never opens a
connection in place of an invalid one. -/
theorem handedOut_configured_iff_never_replaced
    (ran : machine.run (init config) actions = some pool) :
    machine.Allowed (fun _ pool action => HandsOutConfigured config pool action)
        (init config) actions ↔
      machine.Allowed (fun _ _ action => replaces action = false) (init config) actions := by
  refine Machine.allowed_congr (motive := fun _ pool => OpenedConfigured config pool) ran
    (openedConfigured_init config) ?_ ?_
  · exact fun _ pool action next valid taken => handsOutConfigured_iff valid taken
  · intro _ pool action next ⟨same, configured⟩ keeps taken
    obtain ⟨sameConfig, opened⟩ := step_opened taken
    rw [keeps] at opened
    exact ⟨sameConfig.trans same, fun options member => configured options (by rwa [opened] at member)⟩

/-- The first connection is lost before it is borrowed; its replacement has no schema. -/
theorem handedOut_without_schema :
    ¬ ∀ (config : Database) (actions : List Action) (pool : SqlConnPool),
      machine.run (init config) actions = some pool →
      machine.Allowed (fun _ pool action => HandsOutConfigured config pool action)
        (init config) actions := by
  intro claimed
  let past : List Action :=
    [⟨0, .construct⟩, ⟨0, .tryAcquire true⟩, ⟨0, .popFront⟩, ⟨0, .isValid false⟩]
  have configured := claimed .documented (past ++ [⟨0, .connect true⟩]) _
    (@Option.some_get _ (machine.run _ _) rfl).symm past ⟨0, .connect true⟩ [] _ rfl
    (@Option.some_get _ (machine.run _ past) rfl).symm
  have schema := (configured { options := connectArguments .documented } rfl).schema
  cases schema

/-- A valid connection is borrowed. -/
theorem handedOut_configured_first :
    let actions : List Action :=
      [⟨0, .construct⟩, ⟨0, .tryAcquire true⟩, ⟨0, .popFront⟩, ⟨0, .isValid true⟩]
    machine.Allowed (fun _ pool action => HandsOutConfigured .documented pool action)
        (init .documented) actions ↔
      machine.Allowed (fun _ _ action => replaces action = false) (init .documented) actions :=
  handedOut_configured_iff_never_replaced (@Option.some_get _ (machine.run _ _) rfl).symm

end SqlConnPool

end TinyChat.Db
