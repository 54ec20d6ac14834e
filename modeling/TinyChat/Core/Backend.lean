import TinyChat.Core.RequestHandler
import TinyChat.Core.WSHandler
import TinyChat.Db.RowLocks
import TinyChat.Effect.Interleaving
import TinyChat.Utils.SnowFlake

/-! The tasks about rooms and messages as threads over one database, one id generator and
one registry of WebSocket sessions, with their calls in the ordinary course (`call`), over a
connection that lasts (`attempt`), and over one that may be lost (`serve`). -/
namespace TinyChat.Core

open TinyChat.Db TinyChat.Effect TinyChat.Text TinyChat.Transition TinyChat.Utils

/-- A message given to the session of a user. -/
structure Delivery where
  thread : Nat
  user : UInt64
  msg : Json
  /-- The committed tables when the recipients were determined. -/
  according : Tables

structure Backend where
  store : Store
  generator : Generator
  /-- The latest `lookup` of each thread and the tables that answered it, latest first. -/
  lookups : List (Nat × Tables) := []
  /-- In the order of the calls of `send`. -/
  sent : List Delivery := []

/-- All that the environment decides at a call. -/
inductive Choice where
  /-- The call does what it is for. -/
  | returns
  /-- A `SELECT` is answered from this snapshot. -/
  | reads (snapshot : Nat)
  /-- A statement reports a number of rows that its caller does not expect. -/
  | misreports (executed : Bool) (count : Nat)
  /-- These users have a live session in the registry. -/
  | online (users : List UInt64)
  | throws
  /-- The call is carried out and throws all the same. -/
  | unanswered
  /-- The call ends as the choice says, and then its connection is lost. -/
  | losing (choice : Choice)
  deriving DecidableEq

/-- The calls by which users are told something, and the query before them. -/
def Op.Tells : Op → Prop
  | .lookup _ => True
  | .writeTo _ _ => True
  | .writeToAll _ _ => True
  | _ => False

/-- The calls on the connection that may take effect although they throw. -/
def Op.takesEffect : Op → Bool
  | .beginTransaction | .update _ | .commit | .rollback | .release => true
  | _ => false

/-- The calls after which there still is a connection to lose. -/
def Op.onConnection : Op → Bool
  | .connect | .beginTransaction | .query _ | .update _ | .commit | .rollback => true
  | _ => false

theorem takesEffect_of_tells {op : Op} (tells : op.Tells) : op.takesEffect = false := by
  cases op <;> first | rfl | exact absurd tells id

/-- The changes are half of an operation: a room without its members, members without their
room, or a message without the update of its room. -/
def halfDone : List Change → Bool
  | [.addRoom _] | [.dropMembers _] | [.addMessage _] => true
  | _ => false

/-- The count that makes the caller of the statement throw or refuse. -/
def unexpected (count : Nat) : Write → Bool
  | .insertMembers rows => count ≠ rows.length
  | .deleteMembers _ => count = 0
  | .deleteRoom _ => count = 0
  | _ => count ≠ 1

namespace Backend

/-- A call on the connection of the thread that returns nothing. -/
def onConnection (backend : Backend) (thread : Nat)
    (effect : Transaction Change → Except (Transaction Change) (Transaction Change)) :
    Option (Except String PUnit × Backend) :=
  (backend.store.transact thread effect).map fun store => (.ok ⟨⟩, { backend with store })

/-- A thread has at most one connection of its own. -/
def connect (backend : Backend) (thread : Nat) : Option (Except String PUnit × Backend) :=
  match backend.store.session thread with
  | .lost => some (.ok ⟨⟩, { backend with store := backend.store.setSession thread .autoCommit })
  | _ => none

/-- `setAutoCommit(true)`, and the connection goes back to the pool. -/
def release (backend : Backend) (thread : Nat) : Option (Except String PUnit × Backend) :=
  (backend.store.transact thread (Transaction.setAutoCommit true)).map fun store =>
    (.ok ⟨⟩, { backend with store := store.setSession thread .lost })

/-- An exception out of the destructor ends the process, and the server rolls back. -/
def abandon (backend : Backend) (thread : Nat) : Option (Except String PUnit × Backend) :=
  some (.error "sql::SQLException",
    { backend with store := backend.store.setSession thread .lost })

/-- A query of a transaction sees the changes of its own. -/
def executeQuery (backend : Backend) (thread : Nat) (query : Query) (snapshot : Nat) :
    Option (Except String (List query.Row) × Backend) :=
  backend.store.snapshots[snapshot]?.map fun tables =>
    (.ok ((tables.applyAll (backend.store.pending thread)).answer query), backend)

def executeUpdate (backend : Backend) (thread : Nat) (write : Write) :
    Option (Except String Nat × Backend) :=
  (backend.store.executeUpdate thread write).map fun (answer, store) =>
    (answer, { backend with store })

/-- The statement may have been executed all the same. -/
def misreport (backend : Backend) (thread : Nat) (write : Write) (executed : Bool) (count : Nat) :
    Option (Except String Nat × Backend) :=
  if unexpected count write then
    if executed then
      (backend.store.executeUpdate thread write).map fun (_, store) =>
        (.ok count, { backend with store })
    else some (.ok count, backend)
  else none

/-- A query in autocommit mode on a connection of its own. -/
def lookup (backend : Backend) (thread : Nat) (query : Query) :
    Option (Except String (List query.Row) × Backend) :=
  some (.ok (backend.store.tables.answer query),
    { backend with lookups := (thread, backend.store.tables) :: backend.lookups })

/-- `next_id`; there is no answer while the call waits for the clock. -/
def nextId (backend : Backend) (thread : Nat) : Option (Except String UInt64 × Backend) :=
  match backend.generator.flake.nextId backend.generator.clock with
  | .returned id _ _ => (backend.generator.call thread).map (.ok id, { backend with generator := · })
  | .threw what _ _ =>
    (backend.generator.call thread).map (.error what, { backend with generator := · })
  | .waiting _ => none

def deliver (backend : Backend) (thread : Nat) (users : List UInt64) (msg : Json)
    (according : Tables) : Option (Except String PUnit × Backend) :=
  some (.ok ⟨⟩, { backend with
    sent := backend.sent ++ users.map fun user => { thread, user, msg, according } })

/-- The tables that answered the latest `lookup` of the thread. -/
def lookedUp (backend : Backend) (thread : Nat) : Tables :=
  (backend.lookups.lookup thread).getD backend.store.tables

/-- A call in the ordinary course: one that throws has done nothing, `ROLLBACK` succeeds, and
the connection lasts. What other tasks than these call is left out. -/
def call (backend : Backend) (thread : Nat) :
    (op : Op) → Choice → Option (Except String op.Result × Backend)
  | .connect, .returns => backend.connect thread
  | .beginTransaction, .returns => backend.onConnection thread Transaction.beginTransaction
  | .commit, .returns => backend.onConnection thread Transaction.commit
  | .rollback, .returns => backend.onConnection thread Transaction.rollback
  | .release, .returns => backend.release thread
  | .release, .throws => backend.abandon thread
  | .query query, .reads snapshot => backend.executeQuery thread query snapshot
  | .update write, .returns => backend.executeUpdate thread write
  | .update write, .misreports executed count => backend.misreport thread write executed count
  | .lookup query, .returns => backend.lookup thread query
  | .nextId, .returns => backend.nextId thread
  | .writeTo user msg, .online users =>
    backend.deliver thread ([user].filter (· ∈ users)) msg backend.store.tables
  | .writeToAll users msg, .online there =>
    backend.deliver thread (users.filter (· ∈ there)) msg (backend.lookedUp thread)
  | .connect, .throws | .beginTransaction, .throws | .commit, .throws | .query _, .throws
  | .update _, .throws | .lookup _, .throws | .writeTo _ _, .throws | .writeToAll _ _, .throws =>
    some (.error "std::exception", backend)
  | _, _ => none

/-- `COMMIT` or another statement takes effect, but its caller gets an exception. -/
def unanswered (backend : Backend) (thread : Nat) (op : Op) :
    Option (Except String op.Result × Backend) :=
  if op.takesEffect then
    (backend.call thread op .returns).map fun (_, next) => (.error "sql::SQLException", next)
  else none

/-- A call on a connection that lasts; any statement may fail, `ROLLBACK` too. -/
def attempt (backend : Backend) (thread : Nat) :
    (op : Op) → Choice → Option (Except String op.Result × Backend)
  | .rollback, .throws => some (.error "sql::SQLException", backend)
  | op, .unanswered => backend.unanswered thread op
  | op, choice => backend.call thread op choice

/-- `execute_query` and `execute_update` take a new connection for a lost one. -/
def getSql (backend : Backend) (thread : Nat) : Op → Backend
  | .query _ | .update _ =>
    match backend.store.session thread with
    | .lost => { backend with store := backend.store.setSession thread .autoCommit }
    | _ => backend
  | _ => backend

/-- The calls of the threads with all that may go wrong. A connection is lost right after a
call on it: until the next one nobody but the holders of other locks can tell. -/
def serve (backend : Backend) (thread : Nat) :
    (op : Op) → Choice → Option (Except String op.Result × Backend)
  | op, .losing choice =>
    if op.onConnection then
      ((backend.getSql thread op).attempt thread op choice).map fun (answer, next) =>
        (answer, { next with store := next.store.setSession thread .lost })
    else none
  | .release, .returns =>
    match backend.store.session thread with
    | .lost => some (.ok ⟨⟩, backend)
    | _ => backend.attempt thread .release .returns
  | op, choice => (backend.getSql thread op).attempt thread op choice

/-- No `ROLLBACK` throws while half of an operation is pending, which the destructor would
then commit. -/
def undoesHalves (backend : Backend) (thread : Nat) : Op → Choice → Bool
  | .rollback, .throws => !halfDone (backend.store.pending thread)
  | _, _ => true

/-- The calls that may throw with nothing done. -/
def MayFail : Op → Prop
  | .connect => True
  | .beginTransaction => True
  | .commit => True
  | .query _ => True
  | .update _ => True
  | .lookup _ => True
  | .writeTo _ _ => True
  | .writeToAll _ _ => True
  | _ => False

/-- All the ways in which a call is answered in the ordinary course. -/
inductive Calls (backend : Backend) (thread : Nat) :
    (op : Op) → Choice → Except String op.Result → Backend → Prop where
  | connect {answer : Except String PUnit} {next : Backend}
      (done : backend.connect thread = some (answer, next)) :
      Calls backend thread .connect .returns answer next
  | beginTransaction {answer : Except String PUnit} {next : Backend}
      (done : backend.onConnection thread Transaction.beginTransaction = some (answer, next)) :
      Calls backend thread .beginTransaction .returns answer next
  | commit {answer : Except String PUnit} {next : Backend}
      (done : backend.onConnection thread Transaction.commit = some (answer, next)) :
      Calls backend thread .commit .returns answer next
  | rollback {answer : Except String PUnit} {next : Backend}
      (done : backend.onConnection thread Transaction.rollback = some (answer, next)) :
      Calls backend thread .rollback .returns answer next
  | release {answer : Except String PUnit} {next : Backend}
      (done : backend.release thread = some (answer, next)) :
      Calls backend thread .release .returns answer next
  | abandon {answer : Except String PUnit} {next : Backend}
      (done : backend.abandon thread = some (answer, next)) :
      Calls backend thread .release .throws answer next
  | query {query : Query} {snapshot : Nat} {answer : Except String (List query.Row)}
      {next : Backend} (done : backend.executeQuery thread query snapshot = some (answer, next)) :
      Calls backend thread (.query query) (.reads snapshot) answer next
  | update {write : Write} {answer : Except String Nat} {next : Backend}
      (done : backend.executeUpdate thread write = some (answer, next)) :
      Calls backend thread (.update write) .returns answer next
  | misreport {write : Write} {executed : Bool} {count : Nat} {answer : Except String Nat}
      {next : Backend} (done : backend.misreport thread write executed count = some (answer, next)) :
      Calls backend thread (.update write) (.misreports executed count) answer next
  | lookup {query : Query} {answer : Except String (List query.Row)} {next : Backend}
      (done : backend.lookup thread query = some (answer, next)) :
      Calls backend thread (.lookup query) .returns answer next
  | nextId {answer : Except String UInt64} {next : Backend}
      (done : backend.nextId thread = some (answer, next)) :
      Calls backend thread .nextId .returns answer next
  | writeTo {user : UInt64} {users : List UInt64} {msg : Json} {answer : Except String PUnit}
      {next : Backend}
      (done : backend.deliver thread ([user].filter (· ∈ users)) msg backend.store.tables =
        some (answer, next)) :
      Calls backend thread (.writeTo user msg) (.online users) answer next
  | writeToAll {users there : List UInt64} {msg : Json} {answer : Except String PUnit}
      {next : Backend}
      (done : backend.deliver thread (users.filter (· ∈ there)) msg (backend.lookedUp thread) =
        some (answer, next)) :
      Calls backend thread (.writeToAll users msg) (.online there) answer next
  | throws {op : Op} (may : MayFail op) :
      Calls backend thread op .throws (.error "std::exception") backend

theorem calls_of_call {backend next : Backend} {thread : Nat} {op : Op} {choice : Choice}
    {answer : Except String op.Result}
    (served : backend.call thread op choice = some (answer, next)) :
    Calls backend thread op choice answer next := by
  have fails (may : MayFail op) (same : some (.error "std::exception", backend) = some (answer, next)) :
      Calls backend thread op .throws answer next := by
    cases same
    exact .throws may
  cases op with
  | connect =>
    cases choice with
    | returns => exact .connect served
    | throws => exact fails trivial served
    | _ => cases served
  | beginTransaction =>
    cases choice with
    | returns => exact .beginTransaction served
    | throws => exact fails trivial served
    | _ => cases served
  | commit =>
    cases choice with
    | returns => exact .commit served
    | throws => exact fails trivial served
    | _ => cases served
  | rollback =>
    cases choice with
    | returns => exact .rollback served
    | _ => cases served
  | release =>
    cases choice with
    | returns => exact .release served
    | throws => exact .abandon served
    | _ => cases served
  | query query =>
    cases choice with
    | reads snapshot => exact .query served
    | throws => exact fails trivial served
    | _ => cases served
  | update write =>
    cases choice with
    | returns => exact .update served
    | misreports executed count => exact .misreport served
    | throws => exact fails trivial served
    | _ => cases served
  | lookup query =>
    cases choice with
    | returns => exact .lookup served
    | throws => exact fails trivial served
    | _ => cases served
  | nextId =>
    cases choice with
    | returns => exact .nextId served
    | _ => cases served
  | writeTo user msg =>
    cases choice with
    | online users => exact .writeTo served
    | throws => exact fails trivial served
    | _ => cases served
  | writeToAll users msg =>
    cases choice with
    | online there => exact .writeToAll served
    | throws => exact fails trivial served
    | _ => cases served
  | hashPassword plainPassword => cases choice <;> cases served
  | verifyPassword plainPassword storedHash => cases choice <;> cases served
  | now => cases choice <;> cases served
  | openFile path => cases choice <;> cases served

section Frames

variable {backend next : Backend} {thread : Nat} {op : Op} {choice : Choice}
variable {answer : Except String op.Result}

theorem nextId_eq_some {result : Except String UInt64}
    (served : backend.nextId thread = some (result, next)) :
    ∃ generator, backend.generator.call thread = some generator ∧
      generator.log = backend.generator.log ++ [(thread, result)] ∧
      next = { backend with generator } := by
  unfold nextId at served
  split at served
  case h_3 => cases served
  all_goals
    rename_i called
    obtain ⟨generator, drawn, same⟩ := Option.map_eq_some_iff.mp served
    cases same
    refine ⟨generator, drawn, ?_, rfl⟩
    unfold Generator.call at drawn
    split at drawn
    · cases drawn
    · rw [called] at drawn
      cases drawn
      rfl

/-- The other calls only change the database. -/
theorem call_frame (silent : ¬ op.Tells) (other : op ≠ .nextId)
    (served : backend.call thread op choice = some (answer, next)) :
    next = { backend with store := next.store } := by
  cases calls_of_call served with
  | connect done =>
    unfold connect at done
    split at done <;> cases done
    rfl
  | beginTransaction done | commit done | rollback done | release done | query done | update done =>
    obtain ⟨_, _, same⟩ := Option.map_eq_some_iff.mp done
    cases same
    rfl
  | abandon done => cases done; rfl
  | misreport done =>
    unfold misreport at done
    split at done
    · split at done
      · obtain ⟨_, _, same⟩ := Option.map_eq_some_iff.mp done
        cases same
        rfl
      · cases done
        rfl
    · cases done
  | nextId done => exact absurd rfl other
  | lookup done => exact absurd trivial silent
  | writeTo done => exact absurd trivial silent
  | writeToAll done => exact absurd trivial silent
  | throws may => rfl

/-- The ways in which a call is answered while its connection lasts. -/
inductive Attempts (backend : Backend) (thread : Nat) :
    (op : Op) → Choice → Except String op.Result → Backend → Prop where
  | called {op : Op} {choice : Choice} {answer : Except String op.Result} {next : Backend}
      (done : backend.call thread op choice = some (answer, next)) :
      Attempts backend thread op choice answer next
  | rollbackThrows : Attempts backend thread .rollback .throws (.error "sql::SQLException") backend
  | unanswered {op : Op} {answer : Except String op.Result} {next : Backend}
      (effect : op.takesEffect = true) (done : backend.call thread op .returns = some (answer, next)) :
      Attempts backend thread op .unanswered (.error "sql::SQLException") next

theorem attempts_of_attempt (served : backend.attempt thread op choice = some (answer, next)) :
    Attempts backend thread op choice answer next := by
  unfold attempt at served
  split at served
  · cases served
    exact .rollbackThrows
  · unfold Backend.unanswered at served
    split at served
    · rename_i effect
      obtain ⟨⟨result, after⟩, done, same⟩ := Option.map_eq_some_iff.mp served
      cases same
      exact .unanswered effect done
    · cases served
  · exact .called served

/-- Only calls on the connection are affected by faults of the connection. -/
theorem attempt_eq_call (unaffected : op.takesEffect = false) :
    backend.attempt thread op choice = backend.call thread op choice := by
  unfold attempt
  split
  · cases unaffected
  · rw [Backend.unanswered, unaffected]
    cases op <;> rfl
  · rfl

theorem attempt_frame (silent : ¬ op.Tells) (other : op ≠ .nextId)
    (served : backend.attempt thread op choice = some (answer, next)) :
    next = { backend with store := next.store } := by
  cases attempts_of_attempt served with
  | called done => exact call_frame silent other done
  | rollbackThrows => rfl
  | unanswered effect done => exact call_frame silent other done

theorem serve_eq_call (unaffected : op.takesEffect = false) (apart : op.onConnection = false) :
    backend.serve thread op choice = backend.call thread op choice := by
  have same : backend.getSql thread op = backend := by
    cases op <;> first | rfl | cases apart
  unfold serve
  split
  · rw [apart]
    cases op <;> rfl
  · cases unaffected
  · rw [same, attempt_eq_call unaffected]

theorem getSql_frame : backend.getSql thread op =
    { backend with store := (backend.getSql thread op).store } := by
  unfold getSql
  split
  · split <;> rfl
  · split <;> rfl
  · rfl

theorem serve_frame (silent : ¬ op.Tells) (other : op ≠ .nextId)
    (served : backend.serve thread op choice = some (answer, next)) :
    next = { backend with store := next.store } := by
  unfold serve at served
  split at served
  · split at served
    · obtain ⟨⟨result, after⟩, done, same⟩ := Option.map_eq_some_iff.mp served
      cases same
      rw [attempt_frame silent other done, getSql_frame]
    · cases served
  · split at served
    · cases served
      rfl
    · exact attempt_frame silent other served
  · rw [attempt_frame silent other served, getSql_frame]

end Frames

end Backend

/-- A task of the thread pool that has to do with rooms and their messages. -/
inductive Task where
  | createGRoom (req : Request)
  | createPRoom (req : Request)
  | inviteMember (req : Request) (roomId : UInt64)
  | deleteRoom (req : Request) (roomId : UInt64)
  | handleMessage (msg : String) (userClaims : UserClaims)

/-- The handler of a task and its reply; a message has none. -/
def Task.program (service : Service) : Task → WorkerTask (Option Response)
  | createGRoom req => some <$> Core.createGRoom service req
  | createPRoom req => some <$> Core.createPRoom service req
  | inviteMember req roomId => some <$> Core.inviteMember service req roomId
  | deleteRoom req roomId => some <$> Core.deleteRoom service req roomId
  | handleMessage msg userClaims => (fun _ => none) <$> Core.handleMessage service msg userClaims

/-- The task may add a room. -/
def Task.Creates : Task → Prop
  | createGRoom _ => True
  | createPRoom _ => True
  | _ => False

/-! The service of the concrete runs: a token is the id of its user, and ids are drawn as
1, 2, 3, all within one millisecond. -/

/-- Bodies and messages, and what `json::parse` makes of them. -/
def sampleBodies : List (String × Json) :=
  let group := Json.object [("type", .string "group_message"),
    ("data", .object [("room_id", .string "1"), ("content", .string "hello")])]
  [("room", .object [("name", .string "room")]),
    ("other 2", .object [("other_id", .string "2")]),
    ("invitee 2", .object [("invitee_id", .string "2")]),
    ("group 1", group), ("group 1 ", group),
    ("private 1 to 9", .object [("type", .string "private_message"),
      ("data", .object [("room_id", .string "1"), ("other_user_id", .string "9"),
        ("content", .string "hello")])])]

def sampleService : Service where
  jwt :=
    { decode := fun token => .ok
        { signingInput := "", signature := "", header := []
          payload := [("username", .string token), ("sub", .string token)] }
      encode := fun _ _ => ""
      hs256 := fun _ _ => "" }
  parse text := ((sampleBodies.lookup text).map Except.ok).getD (.error "syntax error")
  jwtSecret := "secret"
  docRoot := "/srv/www"

def sampleRequest (method : Verb) (target user body : String) : Request :=
  { version := 11, keepAlive := true, method, target, authorization := some user, body }

def sampleGenerator (readings : Nat) : Generator :=
  { flake := { serviceId := 0, lastTimestamp := 1000, customEpoch := 1000 }
    clock := List.replicate readings 1000 }

/-- Room 1 with the users 1 and 2. -/
def sampleRoom : Tables where
  rooms := [{ id := 1, name := some "room", type := RoomType.group.code, ownerId := some 1 }]
  members := [{ roomId := 1, userId := 1, role := GroupRole.owner.code },
    { roomId := 1, userId := 2, role := GroupRole.member.code }]

/-- A message of the user to room 1. -/
def sampleMessage (userClaims : UserClaims) : { task : Task // ¬ task.Creates } :=
  ⟨.handleMessage "group 1" userClaims, id⟩

/-- The moves of a thread, one for each of its next calls. -/
def stepsOf {α : Type} (thread : Nat) (choices : List Choice) : List (Move α Choice) :=
  choices.map (.step thread)

end TinyChat.Core
