import TinyChat.Core.RequestHandler
import TinyChat.Db.Transaction

/-! The transactions of `create_g_room`, `create_p_room` and `delete_room`, each on one
connection: what the reply says against what is committed when the handler is done. -/
namespace TinyChat.Core

open TinyChat.Db TinyChat.Effect TinyChat.Text TinyChat.Utils
open Program

/-- What happens at a call of the database. -/
inductive Fault where
  /-- The call returns; an update reports this many rows. -/
  | rows (count : Nat)
  | throws
  /-- The connection is lost for good before the call. -/
  | lost
  /-- The server executes the call, and the connection is lost before the answer. -/
  | unanswered
  deriving DecidableEq

/-- What happens at each call of one request; none of them is made twice. -/
structure Surroundings where
  connect : Fault
  beginTransaction : Fault
  query : Fault
  /-- At the statement that changes `rooms`. -/
  rooms : Fault
  /-- At the statement that changes `room_members`. -/
  roomMembers : Fault
  /-- At a statement that changes another table. -/
  elsewhere : Fault
  commit : Fault
  rollback : Fault
  release : Fault
  /-- The rows of the queries and what other calls return. -/
  answer : (op : Op) → Except String op.Result

/-- Run a call of the connection, with the number of rows it reports. -/
def Fault.call (fault : Fault)
    (effect : Transaction Write → Except (Transaction Write) (Transaction Write))
    (transaction : Transaction Write) : Except String Nat × Transaction Write :=
  match fault, effect transaction with
  | .rows count, .ok after => (.ok count, after)
  | .rows _, .error after => (.error "sql::SQLException", after)
  | .throws, _ => (.error "sql::SQLException", transaction)
  | .lost, _ => (.error "sql::SQLException", transaction.lose true)
  | .unanswered, .ok after => (.error "sql::SQLException", after.lose true)
  | .unanswered, .error after => (.error "sql::SQLException", after.lose true)

/-- A statement without writes. -/
def executeRead (transaction : Transaction Write) :
    Except (Transaction Write) (Transaction Write) :=
  match transaction.sql with
  | .lost => .error transaction
  | _ => .ok transaction

def replyTo {α : Type} (answer : Except String α) :
    Except String Nat × Transaction Write → Except String α × Transaction Write
  | (.ok _, after) => (answer, after)
  | (.error what, after) => (.error what, after)

namespace Surroundings

def faultAt (env : Surroundings) : Write → Fault
  | .insertRoom _ => env.rooms
  | .deleteRoom _ => env.rooms
  | .setLastMessage _ _ => env.rooms
  | .insertMembers _ => env.roomMembers
  | .deleteMembers _ => env.roomMembers
  | .insertUser _ _ _ _ _ => env.elsewhere
  | .insertMessage _ => env.elsewhere

/-- `SqlConnRAII()`: the connections of the pool are in autocommit mode. -/
def serveConnect (env : Surroundings) (transaction : Transaction Write) :
    Except String PUnit × Transaction Write :=
  match env.connect with
  | .rows _ => (.ok ⟨⟩, { transaction with sql := .autoCommit })
  | _ => (.error "getConn", transaction)

/-- `~SqlConnRAII`: a connection found lost is only dropped. -/
def serveRelease (env : Surroundings) (transaction : Transaction Write) :
    Except String PUnit × Transaction Write :=
  match transaction.sql, env.release with
  | .lost, _ => (.ok ⟨⟩, transaction)
  | _, .lost => (.ok ⟨⟩, transaction.lose true)
  | _, _ => replyTo (.ok ⟨⟩) (env.release.call (Transaction.setAutoCommit true) transaction)

/-- The calls of one `SqlConnRAII`, whose connection is not replaced. -/
def serve (env : Surroundings) (transaction : Transaction Write) :
    (op : Op) → Except String op.Result × Transaction Write
  | .connect => env.serveConnect transaction
  | .beginTransaction =>
    replyTo (.ok ⟨⟩) (env.beginTransaction.call Transaction.beginTransaction transaction)
  | .query query =>
    replyTo (env.answer (.query query)) (env.query.call executeRead transaction)
  | .update write => (env.faultAt write).call (Transaction.execute write .executed) transaction
  | .commit => replyTo (.ok ⟨⟩) (env.commit.call Transaction.commit transaction)
  | .rollback => replyTo (.ok ⟨⟩) (env.rollback.call Transaction.rollback transaction)
  | .release => env.serveRelease transaction
  | op => (env.answer op, transaction)

end Surroundings

/-- The requests that write two tables. -/
inductive RoomRequest where
  | createGRoom
  | createPRoom
  | deleteRoom (roomId : UInt64)

/-- The handler; `delete_room` inside the `try` block of `handle_chat_room`. -/
def RoomRequest.handler (service : Service) (req : Request) : RoomRequest → WorkerTask Response
  | createGRoom => Core.createGRoom service req
  | createPRoom => Core.createPRoom service req
  | deleteRoom roomId =>
    tryCatch (Core.deleteRoom service req roomId) fun _ => pure (badRequest req " Server Error")

/-- A `DELETE` of a room gets to its handler. -/
theorem handleChatRoom_deletes {service : Service} {req : Request} {roomId : UInt64}
    (method : req.method = .delete)
    (numbered : stoullOrThrow (extractTargetParam req.target 2) = .ok roomId)
    (noVerb : extractTargetParam req.target 3 = "") :
    handleChatRoom service req = (RoomRequest.deleteRoom roomId).handler service req := by
  unfold handleChatRoom
  rw [numbered, noVerb, method]
  rfl

/-- The reply says `StatusCode::Success`. -/
def Response.succeeded (response : Response) : Bool :=
  match response.body with
  | .json (.object members) =>
    match members.lookup "code" with
    | some (.integer code) => code = StatusCode.success.code
    | _ => false
  | _ => false

/-- Both writes of the request, and nothing else. -/
def RoomRequest.Both : RoomRequest → List Write → Prop
  | createGRoom, writes => ∃ row rows, writes = [.insertRoom row, .insertMembers rows]
  | createPRoom, writes => ∃ row rows, writes = [.insertRoom row, .insertMembers rows]
  | deleteRoom roomId, writes => writes = [.deleteMembers roomId, .deleteRoom roomId]

/-- If there is a reply, it says what is committed. -/
def ReplyMatches (request : RoomRequest) : Outcome Response × Transaction Write → Prop
  | (.returned response, after) =>
    if response.succeeded then request.Both after.committed else after.committed = []
  | _ => True

theorem error_matches {request : RoomRequest} {response : Response} {last : Transaction Write}
    (fails : response.succeeded = false) (none : last.committed = []) :
    ReplyMatches request (.returned response, last) := by
  simpa [ReplyMatches, fails] using none

theorem success_matches_iff {request : RoomRequest} {response : Response}
    {last : Transaction Write} (succeeded : response.succeeded = true) :
    ReplyMatches request (.returned response, last) ↔ request.Both last.committed := by
  simp [ReplyMatches, succeeded]

section Calls

variable {env : Surroundings} {transaction after : Transaction Write} {fault : Fault}
variable {effect : Transaction Write → Except (Transaction Write) (Transaction Write)}
variable {committed pending : List Write} {what : String}

theorem call_ok_iff {count : Nat} : fault.call effect transaction = (.ok count, after) ↔
    fault = .rows count ∧ effect transaction = .ok after := by
  cases fault <;> cases done : effect transaction <;> simp [Fault.call, done]

theorem replyTo_ok_iff {α : Type} {answer : Except String α} {value : α}
    {called : Except String Nat × Transaction Write} :
    replyTo answer called = (.ok value, after) ↔
      answer = .ok value ∧ ∃ count, called = (.ok count, after) := by
  obtain ⟨result, left⟩ := called
  cases result <;> simp [replyTo, and_comm]

theorem serveConnect_ok {result : PUnit}
    (served : env.serveConnect transaction = (.ok result, after)) :
    (∃ count, env.connect = .rows count) ∧ after = ⟨.autoCommit, transaction.committed⟩ := by
  unfold Surroundings.serveConnect at served
  split at served
  · rename_i count connects
    cases served
    exact ⟨⟨count, connects⟩, rfl⟩
  · cases served

theorem serveConnect_error (served : env.serveConnect transaction = (.error what, after)) :
    (∀ count, env.connect ≠ .rows count) ∧ after = transaction := by
  unfold Surroundings.serveConnect at served
  split at served
  · cases served
  · rename_i refuses
    cases served
    exact ⟨refuses, rfl⟩

/-- The destructor commits what is pending, or finds the connection lost and drops it. -/
theorem serveRelease_ok {result : PUnit}
    (served : env.serveRelease transaction = (.ok result, after)) :
    ((∃ count, env.release = .rows count) ∧
        after.committed = transaction.committed ++ transaction.pending) ∨
      ((env.release = .lost ∨ transaction.pending = []) ∧
        after.committed = transaction.committed) := by
  obtain ⟨sql, committed⟩ := transaction
  unfold Surroundings.serveRelease at served
  cases sql <;> cases gone : env.release <;>
    simp [gone, Fault.call, replyTo, Transaction.setAutoCommit, Transaction.lose] at served <;>
    simp [← served, Transaction.pending]

theorem serveRelease_error (served : env.serveRelease transaction = (.error what, after)) :
    transaction.sql ≠ .lost ∧ env.release ≠ .lost ∧ ∀ count, env.release ≠ .rows count := by
  obtain ⟨sql, committed⟩ := transaction
  unfold Surroundings.serveRelease at served
  cases sql <;> cases gone : env.release <;>
    simp [gone, Fault.call, replyTo, Transaction.setAutoCommit, Transaction.lose] at served ⊢

theorem serve_beginTransaction {answer : Except String PUnit}
    (served : env.serve ⟨.autoCommit, []⟩ .beginTransaction = (answer, after)) :
    match answer with
    | .ok _ => (∃ count, env.beginTransaction = .rows count) ∧ after = ⟨.inTransaction [], []⟩
    | .error _ => (∀ count, env.beginTransaction ≠ .rows count) ∧ after.committed = [] ∧
        after.pending = [] := by
  change replyTo _ (env.beginTransaction.call _ _) = _ at served
  cases fault : env.beginTransaction <;> rw [fault] at served <;> cases served <;>
    simp [Transaction.lose, Transaction.pending]

theorem serve_update {write : Write} {answer : Except String Nat}
    (served : env.serve ⟨.inTransaction pending, []⟩ (.update write) = (answer, after)) :
    match answer with
    | .ok count => env.faultAt write = .rows count ∧ after = ⟨.inTransaction (pending ++ [write]), []⟩
    | .error _ => (∀ count, env.faultAt write ≠ .rows count) ∧ after.committed = [] ∧
        if env.faultAt write = .throws then after.pending = pending else after.pending = [] := by
  change (env.faultAt write).call _ _ = _ at served
  cases fault : env.faultAt write <;> rw [fault] at served <;> cases served <;>
    simp [Transaction.lose, Transaction.pending]

/-- A rollback that throws leaves the writes pending only on a connection that lives. -/
theorem serve_rollback {answer : Except String PUnit}
    (served : env.serve transaction .rollback = (answer, after)) :
    match answer with
    | .ok _ => transaction.sql ≠ .lost ∧ env.rollback ≠ .throws ∧
        after.committed = transaction.committed ∧ after.pending = []
    | .error _ => (transaction.sql = .lost → after.sql = .lost) ∧
        after.committed = transaction.committed ∧
        after.pending = if env.rollback = .throws then transaction.pending else [] := by
  change replyTo _ (env.rollback.call _ _) = _ at served
  obtain ⟨sql, committed⟩ := transaction
  cases sql <;> cases fault : env.rollback <;> rw [fault] at served <;> cases served <;>
    simp [Transaction.lose, Transaction.pending]

theorem serve_commit {answer : Except String PUnit}
    (served : env.serve ⟨.inTransaction pending, []⟩ .commit = (answer, after)) :
    match answer with
    | .ok _ => (∃ count, env.commit = .rows count) ∧ after = ⟨.inTransaction [], pending⟩
    | .error _ => (env.commit = .throws ∧ after = ⟨.inTransaction pending, []⟩) ∨
        (env.commit = .lost ∧ after = ⟨.lost, []⟩) ∨
        (env.commit = .unanswered ∧ after = ⟨.lost, pending⟩) := by
  change replyTo _ (env.commit.call _ _) = _ at served
  cases fault : env.commit <;> rw [fault] at served <;> cases served <;> simp [Transaction.lose]

theorem serve_query_ok {query : Query} {rows : List query.Row}
    (served : env.serve ⟨.inTransaction [], []⟩ (.query query) = (.ok rows, after)) :
    env.answer (.query query) = .ok rows ∧ (∃ count, env.query = .rows count) ∧
      after = ⟨.inTransaction [], []⟩ := by
  obtain ⟨answered, count, called⟩ := replyTo_ok_iff.mp served
  obtain ⟨works, done⟩ := call_ok_iff.mp called
  exact ⟨answered, ⟨count, works⟩, (Except.ok.inj done).symm⟩

theorem serve_query_error {query : Query}
    (served : env.serve ⟨.inTransaction [], []⟩ (.query query) = (.error what, after)) :
    after.committed = [] ∧ after.pending = [] ∧
      ((∃ count, env.query = .rows count) → ∃ what, env.answer (.query query) = .error what) := by
  change replyTo _ (env.query.call _ _) = _ at served
  cases fault : env.query <;> rw [fault] at served <;> cases answered : env.answer (.query query) <;>
    rw [answered] at served <;> cases served <;> simp [Transaction.lose, Transaction.pending]

end Calls

section Scopes

variable {env : Surroundings} {transaction : Transaction Write}
variable {post : Transaction Write → Outcome Response → Prop}

theorem leave_meets {outcome : Outcome Response} (regular : outcome.Within true)
    (commits : ∀ count, env.release = .rows count → ∀ last : Transaction Write,
      last.committed = transaction.committed ++ transaction.pending → post last outcome)
    (keeps : env.release = .lost ∨ transaction.pending = [] → ∀ last : Transaction Write,
      last.committed = transaction.committed → post last outcome)
    (dies : transaction.sql ≠ .lost → env.release ≠ .lost →
      (∀ count, env.release ≠ .rows count) → ∀ last, post last .terminated) :
    (onLeave release outcome : WorkerTask Response).Meets (.ofServe env.serve) post transaction := by
  have left : (release.andThen (onDestroyed outcome) : WorkerTask Response).Meets
      (.ofServe env.serve) post transaction := by
    refine meets_onDestroyed.mpr (meets_perform.mpr ⟨trivial, fun _ last served => ?_, ?_⟩)
    · rcases serveRelease_ok served with ⟨⟨count, works⟩, all⟩ | ⟨gone, same⟩
      · exact commits count works last all
      · exact keeps gone last same
    · intro _ last served
      obtain ⟨alive, kept, works⟩ := serveRelease_error served
      exact dies alive kept works last
  cases outcome with
  | returned response => exact left
  | raised what => exact left
  | terminated => exact absurd regular id
  | undefined => exact absurd regular id

theorem rollbackAndReply_meets {response : Response}
    (returns : transaction.sql ≠ .lost → env.rollback ≠ .throws → ∀ last : Transaction Write,
      last.committed = transaction.committed → post last (.returned response))
    (keeps : (env.rollback = .throws → (∃ count, env.release = .rows count) →
        transaction.pending = []) → ∀ what (last : Transaction Write),
      last.committed = transaction.committed → post last (.raised what))
    (commits : env.rollback = .throws → (∃ count, env.release = .rows count) →
      ∀ what (last : Transaction Write),
        last.committed = transaction.committed ++ transaction.pending → post last (.raised what))
    (dies : transaction.sql ≠ .lost → env.release ≠ .lost →
      (∀ count, env.release ≠ .rows count) → ∀ last, post last .terminated) :
    (rollbackAndReply response).Meets (.ofServe env.serve) (fun after outcome =>
      (onLeave release outcome : WorkerTask Response).Meets (.ofServe env.serve) post after)
      transaction := by
  refine meets_call_then trivial (fun _ after served => ?_) fun what after served => ?_
  · obtain ⟨alive, works, same, nothing⟩ := serve_rollback served
    refine leave_meets trivial (fun _ _ last all => returns alive works last ?_)
      (fun _ last kept => returns alive works last (kept.trans same)) fun _ => dies alive
    simpa [same, nothing] using all
  · obtain ⟨stays, same, pending⟩ := serve_rollback served
    refine leave_meets rfl (fun count works last all => ?_) (fun gone last kept => ?_)
      fun alive => dies fun lost => alive (stays lost)
    · rw [same, pending] at all
      split at all
      · rename_i throws
        exact commits throws ⟨count, works⟩ what last all
      · rename_i other
        exact keeps (fun throws => absurd throws other) what last (by simpa using all)
    · refine keeps (fun throws ⟨count, works⟩ => ?_) what last (kept.trans same)
      rw [if_pos throws] at pending
      rcases gone with lost | nothing
      · cases lost.symm.trans works
      · exact pending.symm.trans nothing

end Scopes

section Requests

variable {service : Service} {req : Request} {env : Surroundings} {roomId : UInt64}

/-- The `try` block of `create_g_room` comes to its end. -/
structure GRoomInserted (service : Service) (req : Request) (env : Surroundings) : Prop where
  decodes : ∃ jv createReq, service.parse req.body = .ok jv ∧ CreateGRoomReq.valueTo jv = .ok createReq
  begins : ∃ count, env.beginTransaction = .rows count
  numbered : ∃ id, env.answer .nextId = .ok id
  authorized : ∃ claims, service.jwt.extractUserClaims req.authorizationField = .ok claims
  room : env.rooms = .rows 1
  member : env.roomMembers = .rows 1

theorem insertRows_then {pending : List Write} {write : Write} {rows : Nat} {what : String}
    {next : PUnit → WorkerTask Response} {post : Transaction Write → Outcome Response → Prop}
    (inserted : env.faultAt write = .rows rows →
      (next ⟨⟩).Meets (.ofServe env.serve) post ⟨.inTransaction (pending ++ [write]), []⟩)
    (fails : env.faultAt write ≠ .rows rows → ∀ what after, after.committed = [] →
      post after (.raised what)) :
    (executeUpdate write >>= fun count => throwIf (count ≠ rows) what >>= next).Meets
      (.ofServe env.serve) post ⟨.inTransaction pending, []⟩ := by
  refine meets_call_then trivial (fun (count : Nat) after served => ?_) fun what after served => ?_
  · obtain ⟨executed, rfl⟩ := serve_update served
    refine meets_throwIf_then (fun same => ?_) fun other => fails (fun there => ?_) _ _ rfl
    · obtain rfl : count = rows := not_not.mp same
      exact inserted executed
    · exact other (Fault.rows.inj (executed.symm.trans there))
  · obtain ⟨refused, clean, _⟩ := serve_update served
    exact fails (refused rows) what after clean

/-- How the `try` block of `create_g_room` leaves the connection. -/
def GRoomEnd (service : Service) (req : Request) (env : Surroundings)
    (after : Transaction Write) : Outcome Response → Prop
  | .returned response => response.succeeded = true ∧ GRoomInserted service req env ∧
      ∃ row rows, after = ⟨.inTransaction [.insertRoom row, .insertMembers rows], []⟩
  | .raised _ => ¬ GRoomInserted service req env ∧ after.committed = []
  | _ => False

theorem insertGRoom_end : (insertGRoom service req).Meets (.ofServe env.serve)
    (GRoomEnd service req env) ⟨.autoCommit, []⟩ := by
  refine meets_ofExcept_then (fun jv parsed => ?_) fun _ parsed => ⟨?_, rfl⟩
  swap
  · rintro ⟨⟨_, _, same, _⟩, _⟩
    cases parsed.symm.trans same
  refine meets_ofExcept_then (fun createReq decoded => ?_) fun _ decoded => ⟨?_, rfl⟩
  swap
  · rintro ⟨⟨_, _, same, other⟩, _⟩
    cases parsed.symm.trans same
    cases decoded.symm.trans other
  refine meets_call_then trivial (fun _ begun served => ?_) fun _ _ served =>
    ⟨fun done => ?_, (serve_beginTransaction served).2.1⟩
  swap
  · obtain ⟨count, begins⟩ := done.begins
    exact (serve_beginTransaction served).1 count begins
  obtain ⟨begins, rfl⟩ := serve_beginTransaction served
  refine meets_call_then trivial (fun (roomId : UInt64) _ served => ?_) fun _ _ served => ?_
  swap
  · obtain ⟨numbered, rfl⟩ := Prod.mk.inj served
    refine ⟨fun done => ?_, rfl⟩
    obtain ⟨id, same⟩ := done.numbered
    cases numbered.symm.trans same
  obtain ⟨numbered, rfl⟩ := Prod.mk.inj served
  refine meets_ofExcept_then (fun claims authorized => ?_) fun _ refused => ⟨?_, rfl⟩
  swap
  · rintro ⟨_, _, _, ⟨_, same⟩, _⟩
    cases refused.symm.trans same
  refine insertRows_then (fun inserted => ?_) fun other _ _ clean =>
    ⟨fun done => other done.room, clean⟩
  refine insertRows_then (fun joined => ?_) fun other _ _ clean =>
    ⟨fun done => other done.member, clean⟩
  exact ⟨rfl, ⟨⟨jv, createReq, parsed, decoded⟩, begins, ⟨roomId, numbered⟩, ⟨claims, authorized⟩,
    inserted, joined⟩, _, _, rfl⟩

/-- The creation succeeds, and its connection is lost before the destructor commits. -/
structure GRoomVanishes (service : Service) (req : Request) (env : Surroundings) : Prop where
  method : req.method = .post
  connects : ∃ count, env.connect = .rows count
  inserted : GRoomInserted service req env
  lost : env.release = .lost

/-- `create_g_room` leaves the commit to the destructor. -/
theorem createGRoom_meets : (createGRoom service req).Meets (.ofServe env.serve)
    (fun last outcome => ReplyMatches .createGRoom (outcome, last) ↔
      ¬ GRoomVanishes service req env) .start := by
  unfold createGRoom
  split
  · rename_i other
    exact iff_of_true rfl fun vanishes => other vanishes.method
  rename_i post
  refine meets_call_then trivial (fun _ _ served => ?_) fun _ _ served => ?_
  swap
  · refine iff_of_true trivial fun vanishes => ?_
    obtain ⟨count, connects⟩ := vanishes.connects
    exact (serveConnect_error served).1 count connects
  obtain ⟨connects, rfl⟩ := serveConnect_ok served
  refine meets_withDestructor.mpr (meets_tryCatch.mpr (insertGRoom_end.mono ?_))
  intro after outcome ended
  cases outcome with
  | returned response =>
    obtain ⟨succeeded, inserted, row, rows, rfl⟩ := ended
    refine leave_meets trivial (fun count works last all => ?_) (fun gone last kept => ?_) ?_
    · exact iff_of_true ((success_matches_iff succeeded).mpr ⟨row, rows, all⟩)
        fun vanishes => nomatch works.symm.trans vanishes.lost
    · have lost : env.release = .lost := by simpa [Transaction.pending] using gone
      refine iff_of_false (fun both => ?_) (not_not_intro ⟨not_not.mp post, connects, inserted, lost⟩)
      obtain ⟨_, _, same⟩ := (success_matches_iff succeeded).mp both
      cases kept.symm.trans same
    · exact fun _ alive _ _ => iff_of_true trivial fun vanishes => alive vanishes.lost
  | raised what =>
    obtain ⟨failed, clean⟩ := ended
    have matching : ¬ GRoomVanishes service req env := fun vanishes => failed vanishes.inserted
    refine rollbackAndReply_meets (fun _ _ last same => iff_of_true (same.trans clean) matching)
      (fun _ _ _ _ => iff_of_true trivial matching) (fun _ _ _ _ _ => iff_of_true trivial matching)
      fun _ _ _ _ => iff_of_true trivial matching
  | terminated => exact absurd ended id
  | undefined => exact absurd ended id

/-- How the `try` block of `create_p_room` leaves the connection. -/
def PRoomEnd (after : Transaction Write) : Outcome Response → Prop
  | .returned response => response.succeeded = true ∧
      ∃ row rows, after = ⟨.inTransaction [], [.insertRoom row, .insertMembers rows]⟩
  | .raised _ => after.committed = [] ∨ after.sql = .lost
  | _ => False

theorem insertPRoom_end : (insertPRoom service req).Meets (.ofServe env.serve) PRoomEnd
    ⟨.autoCommit, []⟩ := by
  refine meets_ofExcept_then (fun jv _ => ?_) fun _ _ => .inl rfl
  refine meets_ofExcept_then (fun createReq _ => ?_) fun _ _ => .inl rfl
  refine meets_call_then trivial (fun _ _ served => ?_) fun _ _ served =>
    .inl (serve_beginTransaction served).2.1
  obtain ⟨_, rfl⟩ := serve_beginTransaction served
  refine meets_call_then trivial (fun (roomId : UInt64) _ served => ?_) fun _ _ served => ?_
  swap
  · obtain ⟨_, rfl⟩ := Prod.mk.inj served
    exact .inl rfl
  obtain ⟨_, rfl⟩ := Prod.mk.inj served
  refine meets_ofExcept_then (fun claims _ => ?_) fun _ _ => .inl rfl
  refine insertRows_then (fun _ => ?_) fun _ _ _ clean => .inl clean
  refine insertRows_then (fun _ => ?_) fun _ _ _ clean => .inl clean
  refine meets_call_then trivial (fun _ _ served => ?_) fun _ _ served => ?_
  · obtain ⟨_, rfl⟩ := serve_commit served
    exact ⟨rfl, _, _, rfl⟩
  · rcases serve_commit served with ⟨_, rfl⟩ | ⟨_, rfl⟩ | ⟨_, rfl⟩
    · exact .inl rfl
    · exact .inl rfl
    · exact .inr rfl

/-- `create_p_room` commits before it builds its reply. -/
theorem createPRoom_meets : (createPRoom service req).Meets (.ofServe env.serve)
    (fun last outcome => ReplyMatches .createPRoom (outcome, last)) .start := by
  unfold createPRoom
  split
  · rfl
  refine meets_call_then trivial (fun _ _ served => ?_) fun _ _ _ => trivial
  obtain ⟨_, rfl⟩ := serveConnect_ok served
  refine meets_withDestructor.mpr (meets_tryCatch.mpr (insertPRoom_end.mono ?_))
  intro after outcome ended
  cases outcome with
  | returned response =>
    obtain ⟨succeeded, row, rows, rfl⟩ := ended
    exact leave_meets trivial
      (fun _ _ _ all => (success_matches_iff succeeded).mpr ⟨row, rows, all⟩)
      (fun _ _ all => (success_matches_iff succeeded).mpr ⟨row, rows, all⟩) fun _ _ _ _ => trivial
  | raised what =>
    exact rollbackAndReply_meets (fun alive _ _ same => same.trans (ended.resolve_right alive))
      (fun _ _ _ _ => trivial) (fun _ _ _ _ _ => trivial) fun _ _ _ _ => trivial
  | terminated => exact absurd ended id
  | undefined => exact absurd ended id

/-- What becomes of the two deletes and the commit after them. -/
inductive DeletionFate where
  | done
  /-- The connection is lost before the commit. -/
  | gone
  /-- An exception with at least one delete still to commit or to roll back. -/
  | halfway
  /-- The commit is executed, but its answer is lost. -/
  | inDoubt
  deriving DecidableEq

def Surroundings.deletion (env : Surroundings) : DeletionFate :=
  match env.roomMembers, env.rooms, env.commit with
  | .rows 0, _, _ => .halfway
  | .rows (_ + 1), .rows 0, _ => .halfway
  | .rows (_ + 1), .throws, _ => .halfway
  | .rows (_ + 1), .rows (_ + 1), .rows _ => .done
  | .rows (_ + 1), .rows (_ + 1), .throws => .halfway
  | .rows (_ + 1), .rows (_ + 1), .unanswered => .inDoubt
  | _, _, _ => .gone

/-- How the deletion leaves the connection. -/
def DeletionEnd (roomId : UInt64) (fate : DeletionFate) (after : Transaction Write)
    (outcome : Outcome Response) : Prop :=
  match fate with
  | .done => ∃ response, outcome = .returned response ∧ response.succeeded = true ∧
      after = ⟨.inTransaction [], [.deleteMembers roomId, .deleteRoom roomId]⟩
  | .gone => ∃ what, outcome = .raised what ∧ after.committed = [] ∧ after.pending = []
  | .halfway => ∃ what, outcome = .raised what ∧ after.committed = [] ∧ after.pending ≠ []
  | .inDoubt => ∃ what, outcome = .raised what ∧
      after = ⟨.lost, [.deleteMembers roomId, .deleteRoom roomId]⟩

theorem deleteRows_end : (deleteRows req roomId).Meets (.ofServe env.serve)
    (DeletionEnd roomId env.deletion) ⟨.inTransaction [], []⟩ := by
  refine meets_call_then trivial (fun (members : Nat) _ served => ?_) fun what after served => ?_
  swap
  · obtain ⟨fails, clean, pending⟩ := serve_update served
    have fate : env.deletion = .gone := by
      unfold Surroundings.deletion
      split <;> first | rfl | exact absurd ‹_› (fails _)
    rw [fate]
    exact ⟨what, rfl, clean, by split at pending <;> exact pending⟩
  obtain ⟨deleted, rfl⟩ := serve_update served
  replace deleted : env.roomMembers = .rows members := deleted
  refine meets_throwIf_then (fun some => ?_) fun none => ?_
  swap
  · have fate : env.deletion = .halfway := by simp [Surroundings.deletion, deleted, none]
    rw [fate]
    exact ⟨_, rfl, rfl, List.cons_ne_nil _ _⟩
  obtain ⟨members, rfl⟩ := Nat.exists_eq_succ_of_ne_zero some
  refine meets_call_then trivial (fun (rooms : Nat) _ served => ?_) fun what after served => ?_
  swap
  · obtain ⟨fails, clean, pending⟩ := serve_update served
    replace fails : ∀ count, env.rooms ≠ .rows count := fails
    split at pending
    · rename_i throws
      replace throws : env.rooms = .throws := throws
      have fate : env.deletion = .halfway := by simp [Surroundings.deletion, deleted, throws]
      rw [fate]
      exact ⟨what, rfl, clean, pending ▸ List.cons_ne_nil _ _⟩
    · rename_i other
      replace other : env.rooms ≠ .throws := other
      have fate : env.deletion = .gone := by
        cases fault : env.rooms <;> simp_all [Surroundings.deletion]
      rw [fate]
      exact ⟨what, rfl, clean, pending⟩
  obtain ⟨removed, rfl⟩ := serve_update served
  replace removed : env.rooms = .rows rooms := removed
  refine meets_throwIf_then (fun one => ?_) fun none => ?_
  swap
  · have fate : env.deletion = .halfway := by simp [Surroundings.deletion, deleted, removed, none]
    rw [fate]
    exact ⟨_, rfl, rfl, List.cons_ne_nil _ _⟩
  obtain ⟨rooms, rfl⟩ := Nat.exists_eq_succ_of_ne_zero one
  refine meets_call_then trivial (fun _ _ served => ?_) fun what _ served => ?_
  · obtain ⟨⟨count, works⟩, rfl⟩ := serve_commit served
    have fate : env.deletion = .done := by simp [Surroundings.deletion, deleted, removed, works]
    rw [fate]
    exact ⟨_, rfl, rfl, rfl⟩
  · rcases serve_commit served with ⟨throws, rfl⟩ | ⟨lost, rfl⟩ | ⟨unanswered, rfl⟩
    · have fate : env.deletion = .halfway := by
        simp [Surroundings.deletion, deleted, removed, throws]
      rw [fate]
      exact ⟨what, rfl, rfl, List.cons_ne_nil _ _⟩
    · have fate : env.deletion = .gone := by simp [Surroundings.deletion, deleted, removed, lost]
      rw [fate]
      exact ⟨what, rfl, rfl, rfl⟩
    · have fate : env.deletion = .inDoubt := by
        simp [Surroundings.deletion, deleted, removed, unanswered]
      rw [fate]
      exact ⟨what, rfl, rfl⟩

/-- The deletion is begun by the owner of the room. -/
structure OwnerDeletes (service : Service) (req : Request) (env : Surroundings) (roomId : UInt64) :
    Prop where
  connects : ∃ count, env.connect = .rows count
  begins : ∃ count, env.beginTransaction = .rows count
  asks : ∃ count, env.query = .rows count
  owner : ∃ claims more, service.jwt.extractUserClaims req.authorizationField = .ok claims ∧
    env.answer (.query (.role roomId claims.id)) = .ok (GroupRole.owner.code :: more)

/-- The `try` block of `delete_room`: without the right to delete nothing is written. -/
def DeleteEnd (service : Service) (req : Request) (env : Surroundings) (roomId : UInt64)
    (after : Transaction Write) (outcome : Outcome Response) : Prop :=
  (OwnerDeletes service req env roomId ∧ DeletionEnd roomId env.deletion after outcome) ∨
    (¬ OwnerDeletes service req env roomId ∧ after.committed = [] ∧ after.pending = [] ∧
      ((∃ what, outcome = .raised what) ∨
        ∃ response, outcome = .returned response ∧ response.succeeded = false))

theorem deleteOwned_end (connects : ∃ count, env.connect = .rows count)
    (begins : ∃ count, env.beginTransaction = .rows count) :
    (deleteOwned service req roomId).Meets (.ofServe env.serve) (DeleteEnd service req env roomId)
      ⟨.inTransaction [], []⟩ := by
  refine meets_ofExcept_then (fun claims authorized => ?_) fun what refused =>
    .inr ⟨fun owner => ?_, rfl, rfl, .inl ⟨what, rfl⟩⟩
  swap
  · obtain ⟨_, _, same, _⟩ := owner.owner
    cases refused.symm.trans same
  refine meets_call_then trivial (fun (roles : List Int) _ served => ?_) fun what _ served => ?_
  swap
  · obtain ⟨clean, nothing, fails⟩ := serve_query_error served
    refine .inr ⟨fun owner => ?_, clean, nothing, .inl ⟨what, rfl⟩⟩
    obtain ⟨_, more, same, answered⟩ := owner.owner
    cases authorized.symm.trans same
    obtain ⟨_, failed⟩ := fails owner.asks
    cases failed.symm.trans answered
  obtain ⟨answered, asks, rfl⟩ := serve_query_ok served
  cases roles with
  | nil =>
    refine .inr ⟨fun owner => ?_, rfl, rfl, .inr ⟨_, rfl, rfl⟩⟩
    obtain ⟨_, more, same, other⟩ := owner.owner
    cases authorized.symm.trans same
    cases answered.symm.trans other
  | cons role more =>
    by_cases owns : role = GroupRole.owner.code
    · subst owns
      have owner : OwnerDeletes service req env roomId :=
        ⟨connects, begins, asks, claims, more, authorized, answered⟩
      dsimp only
      rw [if_neg (not_not_intro rfl)]
      exact deleteRows_end.mono fun _ _ ended => .inl ⟨owner, ended⟩
    · dsimp only
      rw [if_pos owns]
      refine .inr ⟨fun owner => ?_, rfl, rfl, .inr ⟨_, rfl, rfl⟩⟩
      obtain ⟨_, _, same, other⟩ := owner.owner
      cases authorized.symm.trans same
      cases answered.symm.trans other
      exact owns rfl

/-- The reply of the owner's deletion does not tell what is committed: the answer to the
commit is lost, or a rollback throws and the destructor commits what it left. -/
structure DeletionMisreported (service : Service) (req : Request) (env : Surroundings)
    (roomId : UInt64) : Prop where
  owner : OwnerDeletes service req env roomId
  fate : env.deletion = .inDoubt ∨
    env.deletion = .halfway ∧ env.rollback = .throws ∧ ∃ count, env.release = .rows count

/-- What a client of `handle_chat_room` gets for an outcome of `delete_room`. -/
def DeletionReply (service : Service) (req : Request) (env : Surroundings) (roomId : UInt64)
    (last : Transaction Write) (outcome : Outcome Response) : Prop :=
  (onRaise (fun _ => pure (badRequest req " Server Error")) outcome : WorkerTask Response).Meets
    (.ofServe env.serve) (fun final left => ReplyMatches (.deleteRoom roomId) (left, final) ↔
      ¬ DeletionMisreported service req env roomId) last

variable {transaction : Transaction Write}

/-- An exception that leaves nothing to commit or to roll back, in a request that is
reported correctly. -/
theorem raised_reported {what : String} (correct : ¬ DeletionMisreported service req env roomId)
    (clean : transaction.committed = []) (nothing : transaction.pending = []) :
    (onRaise (fun _ => rollbackAndReply (errorResp req .badRequest " Server error"))
      (.raised what) : WorkerTask Response).Meets (.ofServe env.serve) (fun after outcome =>
        (onLeave release outcome : WorkerTask Response).Meets (.ofServe env.serve)
          (DeletionReply service req env roomId) after) transaction :=
  rollbackAndReply_meets (fun _ _ _ same => iff_of_true (same.trans clean) correct)
    (fun _ _ _ same => iff_of_true (same.trans clean) correct)
    (fun _ _ _ _ all => iff_of_true (error_matches rfl (by simpa [clean, nothing] using all)) correct)
    fun _ _ _ _ => iff_of_true trivial correct

theorem deletion_reported (owner : OwnerDeletes service req env roomId) {outcome : Outcome Response}
    (ended : DeletionEnd roomId env.deletion transaction outcome) :
    (onRaise (fun _ => rollbackAndReply (errorResp req .badRequest " Server error"))
      outcome : WorkerTask Response).Meets (.ofServe env.serve) (fun after outcome =>
        (onLeave release outcome : WorkerTask Response).Meets (.ofServe env.serve)
          (DeletionReply service req env roomId) after) transaction := by
  cases fate : env.deletion with
  | done =>
    rw [fate] at ended
    obtain ⟨response, rfl, succeeded, rfl⟩ := ended
    have correct : ¬ DeletionMisreported service req env roomId := by
      rintro ⟨_, doubt | ⟨half, _⟩⟩
      · cases fate.symm.trans doubt
      · cases fate.symm.trans half
    exact leave_meets trivial
      (fun _ _ _ all => iff_of_true ((success_matches_iff succeeded).mpr all) correct)
      (fun _ _ all => iff_of_true ((success_matches_iff succeeded).mpr all) correct)
      fun _ _ _ _ => iff_of_true trivial correct
  | gone =>
    rw [fate] at ended
    obtain ⟨what, rfl, clean, nothing⟩ := ended
    refine raised_reported ?_ clean nothing
    rintro ⟨_, doubt | ⟨half, _⟩⟩
    · cases fate.symm.trans doubt
    · cases fate.symm.trans half
  | halfway =>
    rw [fate] at ended
    obtain ⟨what, rfl, clean, something⟩ := ended
    have misreported : DeletionMisreported service req env roomId ↔
        env.rollback = .throws ∧ ∃ count, env.release = .rows count := by
      refine ⟨?_, fun throws => ⟨owner, .inr ⟨fate, throws⟩⟩⟩
      rintro ⟨_, doubt | ⟨_, throws⟩⟩
      · cases fate.symm.trans doubt
      · exact throws
    refine rollbackAndReply_meets (fun _ works last same => iff_of_true (same.trans clean) ?_)
      (fun spared _ last same => iff_of_true (same.trans clean) ?_)
      (fun throws works _ last all => iff_of_false ?_ ?_)
      fun _ _ works _ => iff_of_true trivial ?_
    · exact fun wrong => works (misreported.mp wrong).1
    · exact fun wrong => something (spared (misreported.mp wrong).1 (misreported.mp wrong).2)
    · intro none
      exact something (by simpa [clean] using all.symm.trans none)
    · exact not_not_intro (misreported.mpr ⟨throws, works⟩)
    · intro wrong
      obtain ⟨count, released⟩ := (misreported.mp wrong).2
      exact works count released
  | inDoubt =>
    rw [fate] at ended
    obtain ⟨what, rfl, rfl⟩ := ended
    have wrong : DeletionMisreported service req env roomId := ⟨owner, .inl fate⟩
    refine rollbackAndReply_meets (fun alive => absurd rfl alive) (fun _ _ last same => ?_)
      (fun _ _ _ last all => ?_) fun alive => absurd rfl alive
    · exact iff_of_false (fun none => nomatch same.symm.trans none) (not_not_intro wrong)
    · exact iff_of_false (fun none => nomatch all.symm.trans none) (not_not_intro wrong)

theorem deleteRoom_meets : ((RoomRequest.deleteRoom roomId).handler service req).Meets
    (.ofServe env.serve) (fun last outcome => ReplyMatches (.deleteRoom roomId) (outcome, last) ↔
      ¬ DeletionMisreported service req env roomId) .start := by
  refine meets_tryCatch.mpr (meets_call_then trivial (fun _ _ served => ?_) fun _ _ served => ?_)
  swap
  · obtain ⟨refuses, rfl⟩ := serveConnect_error served
    refine iff_of_true rfl fun wrong => ?_
    obtain ⟨count, connects⟩ := wrong.owner.connects
    exact refuses count connects
  obtain ⟨connects, rfl⟩ := serveConnect_ok served
  refine meets_withDestructor.mpr (meets_call_then trivial (fun _ _ served => ?_) ?_)
  · obtain ⟨begins, rfl⟩ := serve_beginTransaction served
    refine meets_tryCatch.mpr ((deleteOwned_end connects begins).mono ?_)
    rintro after outcome (⟨owner, ended⟩ | ⟨other, clean, nothing, how⟩)
    · exact deletion_reported owner ended
    · have correct : ¬ DeletionMisreported service req env roomId := fun wrong => other wrong.owner
      rcases how with ⟨what, rfl⟩ | ⟨response, rfl, fails⟩
      · exact raised_reported correct clean nothing
      · refine leave_meets trivial (fun _ _ last all => iff_of_true ?_ correct)
          (fun _ last same => iff_of_true ?_ correct) fun _ _ _ _ => iff_of_true trivial correct
        · exact error_matches fails (by simpa [clean, nothing] using all)
        · exact error_matches fails (same.trans clean)
  · intro what after served
    obtain ⟨fails, clean, nothing⟩ := serve_beginTransaction served
    have correct : ¬ DeletionMisreported service req env roomId := fun wrong => by
      obtain ⟨count, begins⟩ := wrong.owner.begins
      exact fails count begins
    refine leave_meets rfl (fun _ _ last all => iff_of_true ?_ correct)
      (fun _ last same => iff_of_true (same.trans clean) correct)
      fun _ _ _ _ => iff_of_true trivial correct
    exact error_matches rfl (by simpa [clean, nothing] using all)

end Requests

/-- When the reply of a request does not say what is committed. -/
def RoomRequest.Misreported (service : Service) (req : Request) (env : Surroundings) :
    RoomRequest → Prop
  | createGRoom => GRoomVanishes service req env
  | createPRoom => False
  | deleteRoom roomId => DeletionMisreported service req env roomId

/-- Whatever happens to the calls of a request, a success reply means that both writes
are committed and an error reply that neither is, except in these cases: a group room
is created and its connection lost before the destructor commits; the owner's deletion
is committed but not answered; or its rollback throws and the destructor commits. -/
theorem reply_matches_iff (service : Service) (req : Request) (env : Surroundings)
    (request : RoomRequest) :
    ReplyMatches request ((request.handler service req).run env.serve .start) ↔
      ¬ request.Misreported service req env := by
  cases request with
  | createGRoom => exact meets_ofServe_iff.mp createGRoom_meets
  | createPRoom => exact iff_of_true (meets_ofServe_iff.mp createPRoom_meets) not_false
  | deleteRoom roomId => exact meets_ofServe_iff.mp deleteRoom_meets

/-- A room of which the client is told has never been committed: the connection is lost
between the reply and the destructor. -/
theorem created_room_vanishes :
    ¬ ∀ (service : Service) (req : Request) (env : Surroundings) (request : RoomRequest),
      ReplyMatches request ((request.handler service req).run env.serve .start) := by
  intro claimed
  let service : Service :=
    { jwt := { decode := fun _ => .ok
                 { signingInput := "", signature := "", header := []
                   payload := [("username", .string "alice"), ("sub", .string "7")] }
               encode := fun _ _ => ""
               hs256 := fun _ _ => "" }
      parse := fun _ => .ok (.object [("name", .string "room")])
      jwtSecret := "secret"
      docRoot := "/srv/www" }
  let req : Request :=
    { version := 11, keepAlive := true, method := .post, target := "/api/group_room"
      authorization := some "token", body := "\x7b\"name\":\"room\"\x7d" }
  let env : Surroundings :=
    { connect := .rows 0, beginTransaction := .rows 0, query := .rows 0, rooms := .rows 1
      roomMembers := .rows 1, elsewhere := .rows 0, commit := .rows 0, rollback := .rows 0
      release := .lost
      answer := fun op => match op with
        | .nextId => .ok (1 : UInt64)
        | _ => .error "not asked" }
  have inserted : GRoomInserted service req env :=
    { decodes := ⟨_, ⟨"room"⟩, rfl, rfl⟩
      begins := ⟨0, rfl⟩
      numbered := ⟨(1 : UInt64), rfl⟩
      authorized := ⟨⟨7, "alice"⟩, rfl⟩
      room := rfl
      member := rfl }
  have vanishes : GRoomVanishes service req env := ⟨rfl, ⟨0, rfl⟩, inserted, rfl⟩
  have told : ReplyMatches .createGRoom _ ↔ ¬ GRoomVanishes service req env :=
    meets_ofServe_iff.mp createGRoom_meets
  exact told.mp (claimed service req env .createGRoom) vanishes

end TinyChat.Core
