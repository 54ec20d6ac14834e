import TinyChat.Core.RoomProtocol

/-! What the facts of a thread say of the database, and that it stays true whatever the
other threads do: the protocol holds in every interleaving of the tasks. -/
namespace TinyChat.Core

open TinyChat.Db TinyChat.Effect TinyChat.Text TinyChat.Transition TinyChat.Utils

namespace Backend

/-- `next_id` gives every id once, and never that of a room that was there before. -/
structure Fresh (backend : Backend) : Prop where
  once : backend.generator.ids.Nodup
  unused : ∀ id ∈ backend.generator.ids, ¬ backend.store.initial.HasRoom id

/-- The locks are in order, and a room that was not there before has a drawn id. -/
structure Valid (backend : Backend) : Prop where
  locked : backend.store.Locked
  rooms : ∀ tables ∈ backend.store.snapshots, ∀ id, tables.HasRoom id →
    backend.store.initial.HasRoom id ∨ id ∈ backend.generator.ids

/-- What a call of a thread does, with the changes it commits. -/
structure Advances (backend next : Backend) (thread : Nat) (changes : List Change) : Prop where
  moves : Store.Moves backend.store next.store thread changes
  steps : Store.Steps backend.store thread next.store
  draws : next.generator = backend.generator ∨
    ∃ result, next.generator.log = backend.generator.log ++ [(thread, result)]

end Backend

/-- The fact is true of the database; a drawn id is that of no room if ids are fresh. -/
def Fact.Holds (backend : Backend) (thread : Nat) : Fact → Prop
  | wasMember roomId userId => ∃ tables ∈ backend.store.snapshots, tables.HasMember roomId userId
  | wasGroup roomId => ∃ tables ∈ backend.store.snapshots, ∃ room ∈ tables.rooms,
      room.id = roomId ∧ room.type = RoomType.group.code
  | wasOwner roomId userId => ∃ tables ∈ backend.store.snapshots, ∃ row ∈ tables.members,
      row.roomId = roomId ∧ row.userId = userId ∧ row.role = GroupRole.owner.code
  | drew id => (thread, .ok id) ∈ backend.generator.log ∧
      (backend.Fresh → ∀ tables ∈ backend.store.snapshots, ¬ tables.HasRoom id)

/-- The phase describes the connection of the thread, and its facts hold. -/
structure Phase.Knows (thread : Nat) (phase : Phase) (backend : Backend) : Prop where
  session : backend.store.session thread = phase.session
  facts : ∀ fact ∈ phase.facts, fact.Holds backend thread

section Advancing

variable {creates torn : Prop} {backend next : Backend} {thread other : Nat} {phase : Phase}
variable {changes : List Change} {fact : Fact} {id : UInt64} {facts : List Fact}

theorem Committable.added {row : RoomRow} (committable : Committable creates facts changes)
    (adds : .addRoom row ∈ changes) : creates ∧ .drew row.id ∈ facts := by
  cases committable with
  | groupRoom may drew =>
    obtain rfl : row = _ := by simpa using adds
    exact ⟨may, drew⟩
  | privateRoom may drew different =>
    obtain rfl : row = _ := by simpa using adds
    exact ⟨may, drew⟩
  | _ => simp at adds

theorem Released.added {row : RoomRow} (released : Released creates torn facts changes)
    (adds : .addRoom row ∈ changes) : creates ∧ .drew row.id ∈ facts := by
  rcases released with committable | ⟨_, half⟩
  · exact committable.added adds
  · cases half with
    | room may drew =>
      obtain rfl : row = _ := by simpa using adds
      exact ⟨may, drew⟩
    | _ => simp at adds

theorem Released.committable (released : Released creates False facts changes) :
    Committable creates facts changes := released.resolve_right fun torn => torn.1

/-- A message is committed under the id that was drawn for it, with its room updated. -/
theorem Committable.sent {row : MessageRow} (committable : Committable creates facts changes)
    (adds : .addMessage row ∈ changes) :
    changes = [.addMessage row, .setLast row.id row.roomId] ∧ .drew row.id ∈ facts := by
  cases committable with
  | message member drew =>
    obtain rfl : row = _ := by simpa using adds
    exact ⟨rfl, drew⟩
  | _ => simp at adds

/-- A message is committed under an id that was drawn for it, also by half. -/
theorem Released.drew {row : MessageRow} (released : Released creates torn facts changes)
    (adds : .addMessage row ∈ changes) : .drew row.id ∈ facts := by
  rcases released with committable | ⟨_, half⟩
  · exact (committable.sent adds).2
  · cases half with
    | message drew =>
      obtain rfl : row = _ := by simpa using adds
      exact drew
    | _ => simp at adds

theorem drawn_once {log : List (Nat × Except String UInt64)} {first second : Nat}
    (once : (log.filterMap fun entry => entry.2.toOption).Nodup)
    (drewFirst : (first, .ok id) ∈ log) (drewSecond : (second, .ok id) ∈ log) : first = second := by
  induction log with
  | nil => cases drewFirst
  | cons entry rest ih =>
    have drawn {thread : Nat} (there : (thread, .ok id) ∈ rest) :
        id ∈ rest.filterMap fun entry => entry.2.toOption :=
      List.mem_filterMap.mpr ⟨_, there, rfl⟩
    rcases List.mem_cons.mp drewFirst with rfl | laterFirst <;>
      rcases List.mem_cons.mp drewSecond with same | laterSecond
    · exact (congrArg Prod.fst same).symm
    · exact absurd (drawn laterSecond) (List.nodup_cons.mp once).1
    · subst same
      exact absurd (drawn laterFirst) (List.nodup_cons.mp once).1
    · refine ih (once.sublist ?_) laterFirst laterSecond
      exact (List.sublist_cons_self _ _).filterMap _

section Facts

variable (advances : backend.Advances next thread changes)

include advances

theorem Backend.Advances.log_subset {entry : Nat × Except String UInt64}
    (member : entry ∈ backend.generator.log) : entry ∈ next.generator.log := by
  rcases advances.draws with same | ⟨result, appended⟩
  · exact same ▸ member
  · exact appended ▸ List.mem_append_left _ member

theorem Backend.Advances.ids_prefix : backend.generator.ids <+: next.generator.ids := by
  unfold Generator.ids
  rcases advances.draws with same | ⟨result, appended⟩
  · rw [same]
  · rw [appended, List.filterMap_append]
    exact List.prefix_append _ _

/-- Ids that are not fresh never become so again. -/
theorem Backend.Advances.fresh (fresh : next.Fresh) : backend.Fresh where
  once := fresh.once.sublist advances.ids_prefix.sublist
  unused id drawn := advances.moves.initial ▸ fresh.unused id (advances.ids_prefix.subset drawn)

/-- A fact is only lost when a room with the drawn id is committed. -/
theorem Fact.Holds.advance (holds : fact.Holds backend other)
    (spared : backend.Fresh → ∀ row, fact = .drew row.id → .addRoom row ∉ changes) :
    fact.Holds next other := by
  cases fact with
  | wasMember roomId userId =>
    obtain ⟨tables, member, found⟩ := holds
    exact ⟨tables, advances.moves.snapshots_subset member, found⟩
  | wasGroup roomId =>
    obtain ⟨tables, member, found⟩ := holds
    exact ⟨tables, advances.moves.snapshots_subset member, found⟩
  | wasOwner roomId userId =>
    obtain ⟨tables, member, found⟩ := holds
    exact ⟨tables, advances.moves.snapshots_subset member, found⟩
  | drew id =>
    obtain ⟨drawn, unused⟩ := holds
    refine ⟨advances.log_subset drawn, fun fresh tables member found => ?_⟩
    have before := advances.fresh fresh
    rcases advances.moves.mem_snapshots member with older | rfl
    · exact unused before tables older found
    · rw [advances.moves.tables] at found
      rcases Tables.hasRoom_of_applyAll found with there | ⟨row, adds, rfl⟩
      · exact unused before _ Store.tables_mem_snapshots there
      · exact spared before row rfl adds

theorem Phase.Knows.others (knows : phase.Knows other backend) (different : other ≠ thread)
    (holds : ∀ fact ∈ facts, fact.Holds backend thread)
    (released : Released creates torn facts changes) : phase.Knows other next := by
  refine ⟨(advances.moves.others other different).trans knows.session, fun fact member => ?_⟩
  refine (knows.facts fact member).advance advances fun fresh row same adds => different ?_
  subst same
  obtain ⟨_, drew⟩ := released.added adds
  exact drawn_once fresh.once (knows.facts _ member).1 (holds _ drew).1

theorem Backend.Valid.advance (valid : backend.Valid)
    (holds : ∀ fact ∈ facts, fact.Holds backend thread)
    (released : Released creates torn facts changes) : next.Valid := by
  refine ⟨valid.locked.steps advances.steps, fun tables member id found => ?_⟩
  rw [advances.moves.initial]
  have older (tables : Tables) (member : tables ∈ backend.store.snapshots)
      (found : tables.HasRoom id) : backend.store.initial.HasRoom id ∨ id ∈ next.generator.ids :=
    (valid.rooms tables member id found).imp_right fun drawn => advances.ids_prefix.subset drawn
  rcases advances.moves.mem_snapshots member with there | rfl
  · exact older tables there found
  · rw [advances.moves.tables] at found
    rcases Tables.hasRoom_of_applyAll found with there | ⟨row, adds, rfl⟩
    · exact older _ Store.tables_mem_snapshots there
    · obtain ⟨_, drew⟩ := released.added adds
      exact .inr (advances.ids_prefix.subset
        (List.mem_filterMap.mpr ⟨_, (holds _ drew).1, rfl⟩))

end Facts

end Advancing

/-- The call commits what may be committed, perhaps nothing, and leaves the thread in an
expected phase. -/
def Answered (creates torn : Prop) (expected : Phase → Prop) (backend : Backend) (thread : Nat)
    (phase : Phase) (next : Backend) : Prop :=
  ∃ changes later, Released creates torn phase.facts changes ∧ backend.Advances next thread changes ∧
    expected later ∧ later.Knows thread next

section Calls

variable {creates torn : Prop} {backend next : Backend} {thread : Nat} {phase : Phase}
variable {effect : Transaction Change → Except (Transaction Change) (Transaction Change)}

/-- A call that commits nothing and leaves the connection as the later phase has it. -/
theorem answered_quiet {op : Op} {answer : Except String op.Result} {later : Phase}
    (knows : phase.Knows thread backend) (advances : backend.Advances next thread [])
    (expected : calmExpected phase op answer later)
    (session : next.store.session thread = later.session)
    (facts : ∀ fact ∈ later.facts, fact ∈ phase.facts ∨ fact.Holds next thread) :
    Answered creates torn (calmExpected phase op answer) backend thread phase next := by
  refine ⟨[], later, .inl .nothing, advances, expected, session, fun fact member => ?_⟩
  rcases facts fact member with known | holds
  · exact (knows.facts fact known).advance advances fun _ _ _ => List.not_mem_nil
  · exact holds

theorem advances_refl : backend.Advances backend thread [] :=
  ⟨.refl, .quiet .refl (.inl rfl), .inl rfl⟩

theorem answered_unchanged {op : Op} {answer : Except String op.Result}
    (knows : phase.Knows thread backend) (store : next.store = backend.store)
    (generator : next.generator = backend.generator)
    (expected : calmExpected phase op answer phase) :
    Answered creates torn (calmExpected phase op answer) backend thread phase next := by
  have advances : backend.Advances next thread [] :=
    ⟨store ▸ .refl, store ▸ .quiet .refl (.inl rfl), .inl generator⟩
  exact answered_quiet knows advances expected (store ▸ knows.session) fun _ member => .inl member

theorem onConnection_eq_some {answer : Except String PUnit}
    (served : backend.onConnection thread effect = some (answer, next)) :
    answer = .ok ⟨⟩ ∧ next.generator = backend.generator ∧
      backend.store.transact thread effect = some next.store := by
  obtain ⟨store, done, same⟩ := Option.map_eq_some_iff.mp served
  cases same
  exact ⟨rfl, rfl, done⟩

theorem transact_after {store : Store} (knows : phase.Knows thread backend)
    (done : backend.store.transact thread effect = some store) (facts : List Fact) :
    phase.After effect ⟨store.session thread, facts⟩ := by
  obtain ⟨transaction, called, _, session⟩ := Store.transact_moves done
  exact ⟨transaction, knows.session ▸ called, session⟩

theorem pending_eq (knows : phase.Knows thread backend) :
    backend.store.pending thread = phase.pending := by
  rw [Store.pending, Phase.pending, knows.session]

theorem beginTransaction_answered {answer : Except String PUnit} (knows : phase.Knows thread backend)
    (served : backend.onConnection thread Transaction.beginTransaction = some (answer, next)) :
    Answered creates torn (calmExpected phase .beginTransaction answer) backend thread phase next := by
  obtain ⟨rfl, generator, done⟩ := onConnection_eq_some served
  obtain ⟨moves, pending⟩ := Store.beginTransaction_moves done
  exact answered_quiet knows ⟨moves, .quiet moves pending, .inl generator⟩
    ⟨transact_after knows done phase.facts, rfl⟩ rfl fun _ member => .inl member

theorem rollback_answered {answer : Except String PUnit} (knows : phase.Knows thread backend)
    (served : backend.onConnection thread Transaction.rollback = some (answer, next)) :
    Answered creates torn (calmExpected phase .rollback answer) backend thread phase next := by
  obtain ⟨rfl, generator, done⟩ := onConnection_eq_some served
  obtain ⟨moves, nothing⟩ := Store.rollback_moves done
  exact answered_quiet knows ⟨moves, .quiet moves (.inr nothing), .inl generator⟩
    ⟨transact_after knows done phase.facts, rfl⟩ rfl fun _ member => .inl member

theorem commit_answered {answer : Except String PUnit} (knows : phase.Knows thread backend)
    (committable : Committable creates phase.facts phase.pending)
    (served : backend.onConnection thread Transaction.commit = some (answer, next)) :
    Answered creates torn (calmExpected phase .commit answer) backend thread phase next := by
  obtain ⟨rfl, generator, done⟩ := onConnection_eq_some served
  obtain ⟨moves, nothing⟩ := Store.commit_moves done
  exact ⟨_, ⟨next.store.session thread, []⟩, .inl (pending_eq knows ▸ committable),
    ⟨moves, .committed moves nothing, .inl generator⟩, ⟨transact_after knows done [], rfl⟩, rfl, nofun⟩

theorem release_answered {answer : Except String PUnit} (knows : phase.Knows thread backend)
    (released : Released creates torn phase.facts phase.pending)
    (served : backend.release thread = some (answer, next)) :
    Answered creates torn (calmExpected phase .release answer) backend thread phase next := by
  obtain ⟨middle, done, same⟩ := Option.map_eq_some_iff.mp served
  cases same
  have moves := Store.release_moves done
  refine ⟨_, ⟨.lost, []⟩, pending_eq knows ▸ released,
    ⟨moves, .committed moves Store.pending_setSession, .inl rfl⟩, ⟨rfl, rfl⟩, ?_, nofun⟩
  rw [Store.session_setSession, if_pos rfl]

theorem abandon_answered {answer : Except String PUnit} (knows : phase.Knows thread backend)
    (served : backend.abandon thread = some (answer, next)) :
    Answered creates torn (calmExpected phase .release answer) backend thread phase next := by
  cases served
  refine answered_quiet knows
    ⟨Store.moves_setSession, .quiet Store.moves_setSession (.inr Store.pending_setSession), .inl rfl⟩
    (show calmExpected phase .release _ ⟨.lost, []⟩ from ⟨rfl, rfl⟩) ?_ nofun
  rw [Store.session_setSession, if_pos rfl]

theorem connect_answered {answer : Except String PUnit} (knows : phase.Knows thread backend)
    (served : backend.connect thread = some (answer, next)) :
    Answered creates torn (calmExpected phase .connect answer) backend thread phase next := by
  unfold Backend.connect at served
  split at served
  swap
  · cases served
  cases served
  refine answered_quiet knows
    ⟨Store.moves_setSession, .quiet Store.moves_setSession (.inr Store.pending_setSession), .inl rfl⟩
    rfl ?_ fun _ member => .inl member
  rw [Store.session_setSession, if_pos rfl]

private theorem mem_if_iff {condition : Prop} [Decidable condition] {fact other : Fact} :
    fact ∈ (if condition then [other] else []) ↔ condition ∧ fact = other := by
  split <;> simp_all

theorem learnt_membership {roomId userId : UInt64} {rows : List Unit} {fact : Fact}
    (told : fact ∈ learnt (.membership roomId userId) rows) :
    () ∈ rows ∧ fact = .wasMember roomId userId := by
  cases rows with
  | nil => cases told
  | cons row more => exact ⟨List.mem_cons_self .., List.mem_singleton.mp told⟩

theorem learnt_role {roomId userId : UInt64} {rows : List Int} {fact : Fact}
    (told : fact ∈ learnt (.role roomId userId) rows) :
    GroupRole.owner.code ∈ rows ∧ fact = .wasOwner roomId userId := by
  cases rows with
  | nil => cases told
  | cons role more =>
    obtain ⟨owns, same⟩ := mem_if_iff.mp told
    exact ⟨owns ▸ List.mem_cons_self .., same⟩

theorem learnt_roomType {id : UInt64} {rows : List Int} {fact : Fact}
    (told : fact ∈ learnt (.roomType id) rows) :
    RoomType.group.code ∈ rows ∧ fact = .wasGroup id := by
  cases rows with
  | nil => cases told
  | cons type more =>
    obtain ⟨group, same⟩ := mem_if_iff.mp told
    exact ⟨group ▸ List.mem_cons_self .., same⟩

/-- What the rows of an answer say is true of the snapshot they come from. -/
theorem learnt_holds {tables : Tables} (member : tables ∈ backend.store.snapshots) {query : Query}
    {fact : Fact} (told : fact ∈ learnt query (tables.answer query)) : fact.Holds backend thread := by
  cases query with
  | membership roomId userId =>
    obtain ⟨found, rfl⟩ := learnt_membership told
    obtain ⟨row, there, _⟩ := List.mem_map.mp found
    obtain ⟨there, fits⟩ := List.mem_filter.mp there
    exact ⟨tables, member, row, there, of_decide_eq_true fits⟩
  | role roomId userId =>
    obtain ⟨found, rfl⟩ := learnt_role told
    obtain ⟨row, there, owns⟩ := List.mem_map.mp found
    obtain ⟨there, fits⟩ := List.mem_filter.mp there
    obtain ⟨sameRoom, sameUser⟩ := of_decide_eq_true fits
    exact ⟨tables, member, row, there, sameRoom, sameUser, owns⟩
  | roomType id =>
    obtain ⟨found, rfl⟩ := learnt_roomType told
    obtain ⟨room, there, group⟩ := List.mem_map.mp found
    obtain ⟨there, fits⟩ := List.mem_filter.mp there
    exact ⟨tables, member, room, there, of_decide_eq_true fits, group⟩
  | userNamed username => cases told
  | roomMembers roomId => simp [learnt] at told
  | roomsOf userId => simp [learnt] at told

theorem executeQuery_answered {query : Query} {snapshot : Nat}
    {answer : Except String (List query.Row)} (knows : phase.Knows thread backend)
    (nothing : phase.pending = [])
    (served : backend.executeQuery thread query snapshot = some (answer, next)) :
    Answered creates torn (calmExpected phase (.query query) answer) backend thread phase next := by
  obtain ⟨tables, found, same⟩ := Option.map_eq_some_iff.mp served
  cases same
  have read : tables.applyAll (backend.store.pending thread) = tables := by
    rw [pending_eq knows, nothing, Tables.applyAll_nil]
  rw [read]
  refine answered_quiet knows advances_refl rfl knows.session fun fact member => ?_
  rcases List.mem_append.mp member with told | known
  · exact .inr (learnt_holds (List.mem_of_getElem? found) told)
  · exact .inl known

theorem nextId_answered {answer : Except String UInt64} (knows : phase.Knows thread backend)
    (valid : backend.Valid) (served : backend.nextId thread = some (answer, next)) :
    Answered creates torn (calmExpected phase .nextId answer) backend thread phase next := by
  obtain ⟨generator, _, appended, rfl⟩ := Backend.nextId_eq_some served
  have advances : backend.Advances { backend with generator } thread [] :=
    ⟨.refl, .quiet .refl (.inl rfl), .inr ⟨answer, appended⟩⟩
  cases answer with
  | error what =>
    exact answered_quiet knows advances rfl knows.session fun _ member => .inl member
  | ok id =>
    refine answered_quiet knows advances rfl knows.session fun fact member => ?_
    rcases List.mem_cons.mp member with rfl | known
    swap
    · exact .inl known
    refine .inr ⟨by rw [appended]; simp, fun fresh tables member found => ?_⟩
    have ids : generator.ids = backend.generator.ids ++ [id] := by
      simp [Generator.ids, appended, Except.toOption]
    rcases valid.rooms tables member id found with initial | drawn
    · exact fresh.unused id (by simp [ids]) initial
    · have once := fresh.once
      rw [ids, List.nodup_append] at once
      exact once.2.2 id drawn id (List.mem_singleton.mpr rfl) rfl

/-- A statement is executed in the transaction, or by itself where that is permitted. -/
theorem executed_advances {write : Write} {store : Store} {result : Except String Nat}
    (knows : phase.Knows thread backend)
    (permitted : protocolPermitted creates torn phase (.update write))
    (done : backend.store.executeUpdate thread write = some (result, store)) :
    ∃ changes later, Committable creates phase.facts changes ∧
      backend.Advances { backend with store } thread changes ∧
      later.Knows thread { backend with store } ∧
      ((∃ what, result = .error what ∧ later = phase) ∨ ∃ tables change total, result = .ok total ∧
        write.change tables = .ok (change, total) ∧ later = phase.execute change) := by
  rcases Store.executeUpdate_steps done with ⟨what, rfl, rfl⟩ |
    ⟨change, total, changes, rfl, changed, moves, steps, executes⟩
  · exact ⟨[], phase, .nothing, advances_refl, knows, .inl ⟨what, rfl, rfl⟩⟩
  have advances : backend.Advances { backend with store } thread changes := ⟨moves, steps, .inl rfl⟩
  have committable : Committable creates phase.facts changes := by
    cases executes with
    | autoCommit before _ => exact permitted (knows.session.symm.trans before) _ _ _ changed
    | _ => exact .nothing
  refine ⟨changes, phase.execute change, committable, advances, ⟨?_, fun fact member => ?_⟩,
    .inr ⟨_, change, total, rfl, changed, rfl⟩⟩
  · cases executes with
    | noRows same =>
      subst same
      exact knows.session
    | autoCommit before after =>
      obtain ⟨session, facts⟩ := phase
      obtain rfl : session = _ := knows.session.symm.trans before
      exact after
    | inTransaction before after =>
      obtain ⟨session, facts⟩ := phase
      obtain rfl : session = _ := knows.session.symm.trans before
      exact after
  · have known : fact ∈ phase.facts := by
      obtain ⟨session, facts⟩ := phase
      cases change <;> cases session <;> exact member
    apply (knows.facts fact known).advance advances
    intro _ row _ adds
    cases executes with
    | autoCommit _ _ =>
      obtain rfl := List.mem_singleton.mp adds
      cases committable
    | noRows _ => cases adds
    | inTransaction _ _ => cases adds

theorem executeUpdate_answered {write : Write} {answer : Except String Nat}
    (knows : phase.Knows thread backend) (permitted : protocolPermitted creates torn phase (.update write))
    (served : backend.executeUpdate thread write = some (answer, next)) :
    Answered creates torn (calmExpected phase (.update write) answer) backend thread phase next := by
  obtain ⟨⟨result, store⟩, done, same⟩ := Option.map_eq_some_iff.mp served
  cases same
  obtain ⟨changes, later, committable, advances, knows, how⟩ := executed_advances knows permitted done
  refine ⟨changes, later, .inl committable, advances, ?_, knows⟩
  rcases how with ⟨what, rfl, same⟩ | ⟨tables, change, total, rfl, changed, same⟩
  · exact same
  · exact ⟨tables, change, total, .inl ⟨changed, same⟩, .inl ⟨changed, same⟩⟩

theorem misreport_answered {write : Write} {executed : Bool} {count : Nat}
    {answer : Except String Nat} (knows : phase.Knows thread backend)
    (permitted : protocolPermitted creates torn phase (.update write))
    (served : backend.misreport thread write executed count = some (answer, next)) :
    Answered creates torn (calmExpected phase (.update write) answer) backend thread phase next := by
  unfold Backend.misreport at served
  split at served
  swap
  · cases served
  rename_i wrong
  split at served
  swap
  · cases served
    exact ⟨[], phase, .inl .nothing, advances_refl, ⟨{}, none, 0, .inr rfl, .inr wrong⟩, knows⟩
  obtain ⟨⟨result, store⟩, done, same⟩ := Option.map_eq_some_iff.mp served
  cases same
  obtain ⟨changes, later, committable, advances, knows, how⟩ := executed_advances knows permitted done
  refine ⟨changes, later, .inl committable, advances, ?_, knows⟩
  rcases how with ⟨what, rfl, same⟩ | ⟨tables, change, total, rfl, changed, same⟩
  · exact ⟨{}, none, 0, .inr same, .inr wrong⟩
  · exact ⟨tables, change, total, .inl ⟨changed, same⟩, .inr wrong⟩

/-- Every permitted call is answered as the protocol expects in the ordinary course. -/
theorem call_answered {op : Op} {choice : Choice} {answer : Except String op.Result}
    (valid : backend.Valid) (knows : phase.Knows thread backend)
    (permitted : protocolPermitted creates torn phase op)
    (called : backend.call thread op choice = some (answer, next)) :
    Answered creates torn (calmExpected phase op answer) backend thread phase next := by
  cases Backend.calls_of_call called with
  | connect done => exact connect_answered knows done
  | beginTransaction done => exact beginTransaction_answered knows done
  | commit done => exact commit_answered knows permitted done
  | rollback done => exact rollback_answered knows done
  | release done => exact release_answered knows permitted done
  | abandon done => exact abandon_answered knows done
  | query done => exact executeQuery_answered knows permitted done
  | update done => exact executeUpdate_answered knows permitted done
  | misreport done => exact misreport_answered knows permitted done
  | lookup done => cases done; exact answered_unchanged knows rfl rfl rfl
  | nextId done => exact nextId_answered knows valid done
  | writeTo done => cases done; exact answered_unchanged knows rfl rfl rfl
  | writeToAll done => cases done; exact answered_unchanged knows rfl rfl rfl
  | throws may =>
    apply answered_unchanged knows rfl rfl
    cases op <;> first | rfl | exact absurd may id

/-- Whatever fails, a permitted call is answered as the protocol expects, if no `ROLLBACK`
throws over a half. -/
theorem attempt_answered {op : Op} {choice : Choice} {answer : Except String op.Result}
    (valid : backend.Valid) (knows : phase.Knows thread backend)
    (permitted : protocolPermitted creates torn phase op)
    (undoes : torn ∨ backend.undoesHalves thread op choice = true)
    (served : backend.attempt thread op choice = some (answer, next)) :
    Answered creates torn (protocolExpected torn phase op answer) backend thread phase next := by
  cases Backend.attempts_of_attempt served with
  | called done =>
    obtain ⟨changes, later, released, advances, expected, kept⟩ :=
      call_answered valid knows permitted done
    exact ⟨changes, later, released, advances, expected_of_calm expected, kept⟩
  | rollbackThrows =>
    refine ⟨[], phase, .inl .nothing, advances_refl, .inl ⟨rfl, fun half => ?_⟩, knows⟩
    rcases undoes with torn | whole
    · exact torn
    · simp [Backend.undoesHalves, pending_eq knows, half] at whole
  | unanswered effect done =>
    obtain ⟨changes, later, released, advances, expected, kept⟩ :=
      call_answered valid knows permitted done
    exact ⟨changes, later, released, advances, expected_unanswered effect expected, kept⟩

end Calls

section Commits

variable {backend next : Backend} {thread : Nat} {op : Op} {choice : Choice}
variable {answer : Except String op.Result} {changes : List Change}

/-- The changes that a call commits when it is made. -/
def Backend.committing (backend : Backend) (thread : Nat) : Op → Choice → List Change
  | .commit, .returns => backend.store.pending thread
  | .release, .returns => backend.store.pending thread
  | .update write, .returns => backend.store.autoCommitted thread write
  | .update write, .misreports true _ => backend.store.autoCommitted thread write
  | .commit, .unanswered => backend.store.pending thread
  | .release, .unanswered => backend.store.pending thread
  | .update write, .unanswered => backend.store.autoCommitted thread write
  | _, _ => []

theorem committing_moves (served : backend.call thread op choice = some (answer, next)) :
    Store.Moves backend.store next.store thread (backend.committing thread op choice) := by
  have executed {write : Write} {store : Store} {result : Except String Nat}
      (done : backend.store.executeUpdate thread write = some (result, store)) :
      Store.Moves backend.store store thread (backend.store.autoCommitted thread write) :=
    Store.executeUpdate_moves done
  cases Backend.calls_of_call served with
  | connect done =>
    unfold Backend.connect at done
    split at done <;> cases done
    exact Store.moves_setSession
  | beginTransaction done => exact (Store.beginTransaction_moves (onConnection_eq_some done).2.2).1
  | commit done => exact (Store.commit_moves (onConnection_eq_some done).2.2).1
  | rollback done => exact (Store.rollback_moves (onConnection_eq_some done).2.2).1
  | release done =>
    obtain ⟨_, released, same⟩ := Option.map_eq_some_iff.mp done
    cases same
    exact Store.release_moves released
  | abandon done => cases done; exact Store.moves_setSession
  | query done =>
    obtain ⟨_, _, same⟩ := Option.map_eq_some_iff.mp done
    cases same
    exact .refl
  | update done =>
    obtain ⟨⟨result, store⟩, changed, same⟩ := Option.map_eq_some_iff.mp done
    cases same
    exact executed changed
  | @misreport _ reported _ _ _ done =>
    unfold Backend.misreport at done
    split at done
    swap
    · cases done
    cases reported with
    | false => cases done; exact .refl
    | true =>
      obtain ⟨⟨result, store⟩, changed, same⟩ := Option.map_eq_some_iff.mp done
      cases same
      exact executed changed
  | nextId done =>
    obtain ⟨_, _, _, rfl⟩ := Backend.nextId_eq_some done
    exact .refl
  | lookup done => cases done; exact .refl
  | writeTo done => cases done; exact .refl
  | writeToAll done => cases done; exact .refl
  | @throws op may => cases op <;> exact .refl

/-- A call that throws after it has taken effect commits what it would have committed. -/
theorem attempt_moves (served : backend.attempt thread op choice = some (answer, next)) :
    Store.Moves backend.store next.store thread (backend.committing thread op choice) := by
  cases Backend.attempts_of_attempt served with
  | called done => exact committing_moves done
  | rollbackThrows => exact .refl
  | @unanswered op _ _ effect done =>
    have moves := committing_moves done
    cases op <;> exact moves

/-- The log tells which changes a call has committed. -/
theorem committing_eq (served : backend.call thread op choice = some (answer, next))
    (advances : backend.Advances next thread changes) :
    changes = backend.committing thread op choice :=
  advances.moves.unique (committing_moves served)

/-- The call commits what is pending. -/
def Commits (op : Op) (choice : Choice) : Prop :=
  choice = .returns ∧ (op = .commit ∨ op = .release)

theorem commits_pending (commits : Commits op choice)
    (served : backend.call thread op choice = some (answer, next))
    (advances : backend.Advances next thread changes) : changes = backend.store.pending thread := by
  obtain ⟨rfl, rfl | rfl⟩ := commits
  · exact committing_eq served advances
  · exact committing_eq served advances

theorem length_le_one (other : ¬ Commits op choice)
    (served : backend.call thread op choice = some (answer, next))
    (advances : backend.Advances next thread changes) : changes.length ≤ 1 := by
  have alone {write : Write} : (backend.store.autoCommitted thread write).length ≤ 1 := by
    unfold Store.autoCommitted
    split
    · exact Nat.le_refl _
    · exact Nat.zero_le _
  rw [committing_eq served advances]
  unfold Backend.committing
  split
  · exact absurd ⟨rfl, .inl rfl⟩ other
  · exact absurd ⟨rfl, .inr rfl⟩ other
  · exact alone
  · exact alone
  · cases served
  · cases served
  · cases served
  · exact Nat.zero_le _

/-- The room of a message is locked from its update to the commit. -/
theorem committed_room (valid : backend.Valid) (advances : backend.Advances next thread changes)
    {row : MessageRow} (same : changes = [.addMessage row, .setLast row.id row.roomId]) :
    backend.store.tables.HasRoom row.roomId := by
  have found : .setLast row.id row.roomId ∈ changes := by simp [same]
  rcases valid.locked.committed_found advances.steps advances.moves found rfl with
    there | ⟨other, adds, _⟩
  · exact there
  · simp [same] at adds

end Commits

theorem calls_keep {creates : Prop} :
    Keeps (calm creates) (fun thread phase backend => phase.Knows thread backend)
      Backend.Valid Backend.call where
  own valid knows permitted called := by
    obtain ⟨_, later, _, _, expected, kept⟩ := call_answered valid knows permitted called
    exact ⟨later, expected, kept⟩
  others valid knows permitted called different known := by
    obtain ⟨_, _, released, advances, _⟩ := call_answered valid knows permitted called
    exact known.others advances different knows.facts released
  valid valid knows permitted called := by
    obtain ⟨_, _, released, advances, _⟩ := call_answered valid knows permitted called
    exact valid.advance advances knows.facts released

/-- The calls are attempted on connections that last, and only where `torn` says so does a
`ROLLBACK` throw over a half. -/
def Orderly (torn : Prop) (serve : Serve Op Op.Result Backend Choice) : Prop :=
  ∀ {backend thread op choice answer next}, serve backend thread op choice = some (answer, next) →
    backend.attempt thread op choice = some (answer, next) ∧
      (torn ∨ backend.undoesHalves thread op choice = true)

theorem orderly_attempt : Orderly True Backend.attempt := fun served => ⟨served, .inl trivial⟩

/-- The calls of runs in which no half of an operation is left to the destructor. -/
abbrev Backend.wholly : Serve Op Op.Result Backend Choice :=
  guarded (fun backend thread op choice => backend.undoesHalves thread op choice = true)
    Backend.attempt

/-- At this step no `ROLLBACK` throws while half of an operation is pending. -/
abbrev UndoesHalves {α β : Type} (threads : Threads Op Op.Result Backend β) (move : Move α Choice) :
    Prop :=
  Permits (fun backend thread op choice => backend.undoesHalves thread op choice = true) threads move

theorem orderly_wholly : Orderly False Backend.wholly := fun served =>
  let ⟨whole, attempted⟩ := guarded_eq_some_iff.mp served
  ⟨attempted, .inr whole⟩

theorem backend_keeps {creates torn : Prop} {serve : Serve Op Op.Result Backend Choice}
    (orderly : Orderly torn serve) :
    Keeps (protocol creates torn) (fun thread phase backend => phase.Knows thread backend)
      Backend.Valid serve where
  own valid knows permitted served := by
    obtain ⟨attempted, undoes⟩ := orderly served
    obtain ⟨_, later, _, _, expected, kept⟩ := attempt_answered valid knows permitted undoes attempted
    exact ⟨later, expected, kept⟩
  others valid knows permitted served different known := by
    obtain ⟨attempted, undoes⟩ := orderly served
    obtain ⟨_, _, released, advances, _⟩ := attempt_answered valid knows permitted undoes attempted
    exact known.others advances different knows.facts released
  valid valid knows permitted served := by
    obtain ⟨attempted, undoes⟩ := orderly served
    obtain ⟨_, _, released, advances, _⟩ := attempt_answered valid knows permitted undoes attempted
    exact valid.advance advances knows.facts released

def roomProgram (service : Service) (allowed : Task → Prop) (task : { task : Task // allowed task }) :
    WorkerTask (Option Response) := task.1.program service

/-- Any number of the allowed tasks in any interleaving, with their calls so served. -/
def roomMachine (serve : Serve Op Op.Result Backend Choice) (service : Service)
    (allowed : Task → Prop) :
    Machine (Threads Op Op.Result Backend (Option Response))
      (Move { task : Task // allowed task } Choice) :=
  interleaving serve (roomProgram service allowed)

/-- Before the first task, with these rows committed. -/
def Backend.start (initial : Tables) (generator : Generator) :
    Threads Op Op.Result Backend (Option Response) :=
  { shared := { store := { initial }, generator }, programs := [] }

section Runs

variable {service : Service} {allowed : Task → Prop} {creates torn : Prop} {initial : Tables}
variable {generator : Generator} {final : Threads Op Op.Result Backend (Option Response)}
variable {moves : List (Move { task : Task // allowed task } Choice)}
variable {serve : Serve Op Op.Result Backend Choice}

theorem start_valid : (Backend.start initial generator).shared.Valid where
  locked := ⟨fun first second _ key there => by simp [Backend.start, Store.locks, Store.pending,
    Store.session, Transaction.pending] at there, fun thread change there => by
      simp [Backend.start, Store.pending, Store.session, Transaction.pending] at there⟩
  rooms tables member id found := by
    obtain rfl := List.mem_singleton.mp member
    exact .inl found

theorem roomProgram_follows (may : ∀ task, allowed task → task.Creates → creates)
    (task : { task : Task // allowed task }) :
    (roomProgram service allowed task).Meets (protocol creates torn) (fun _ _ => True) {} :=
  task_follows (may task.1 task.2)

/-- In every state of a run in the ordinary course, every thread is in a phase of the protocol. -/
theorem room_covered (may : ∀ task, allowed task → task.Creates → creates)
    (ran : (roomMachine Backend.call service allowed).run (Backend.start initial generator) moves =
      some final) :
    Covered (calm creates) (fun thread phase backend => phase.Knows thread backend)
      Backend.Valid {} (fun _ _ => True) final :=
  Covered.run calls_keep (fun task => meets_calm (roomProgram_follows may task)) ran
    (covered_initial start_valid fun _ => ⟨rfl, nofun⟩)

/-- What holds at first and after every commit of the protocol holds in every state. -/
theorem room_invariant {motive : Backend → Prop} (orderly : Orderly torn serve)
    (may : ∀ task, allowed task → task.Creates → creates)
    (ran : (roomMachine serve service allowed).run (Backend.start initial generator) moves = some final)
    (starts : motive (Backend.start initial generator).shared)
    (kept : ∀ {backend next thread changes} {phase : Phase}, backend.Valid → motive backend →
      phase.Knows thread backend → Released creates torn phase.facts changes →
      backend.Advances next thread changes → motive next) : motive final.shared := by
  have keeps : Keeps (protocol creates torn) (fun thread phase backend => phase.Knows thread backend)
      (fun backend => backend.Valid ∧ motive backend) serve := by
    refine (backend_keeps orderly).and fun valid holds knows permitted served => ?_
    obtain ⟨attempted, undoes⟩ := orderly served
    obtain ⟨changes, _, released, advances, _⟩ := attempt_answered valid knows permitted undoes attempted
    exact kept valid holds knows released advances
  exact (Covered.run keeps (roomProgram_follows may) ran
    (covered_initial ⟨start_valid, starts⟩ fun _ => ⟨rfl, nofun⟩)).valid.2

end Runs

end TinyChat.Core
