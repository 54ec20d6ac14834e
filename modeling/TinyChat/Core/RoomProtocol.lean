import TinyChat.Core.Backend

/-! What the tasks about rooms and messages may rely on and what they commit: each
commit is one of five transactions, whose conditions the task has read or drawn before.
That holds of each task alone and in every interleaving of all of them. -/
namespace TinyChat.Core

open TinyChat.Db TinyChat.Effect TinyChat.Text TinyChat.Transition TinyChat.Utils
open Program

/-- What a thread has been told since its last commit. -/
inductive Fact where
  /-- A committed state has had this member. -/
  | wasMember (roomId userId : UInt64)
  /-- A committed state has had this group room. -/
  | wasGroup (roomId : UInt64)
  /-- A committed state has had this user as the owner. -/
  | wasOwner (roomId userId : UInt64)
  /-- `next_id` has returned the id to this thread. -/
  | drew (id : UInt64)

/-- The transactions that are committed, by the facts they rest on. -/
inductive Committable (creates : Prop) (facts : List Fact) : List Change → Prop where
  | nothing : Committable creates facts []
  | groupRoom {room owner : UInt64} {name : Option String} (may : creates)
      (drew : .drew room ∈ facts) : Committable creates facts
        [.addRoom { id := room, name, type := RoomType.group.code, ownerId := some owner },
          .addMembers [{ roomId := room, userId := owner, role := GroupRole.owner.code }]]
  | privateRoom {room first second : UInt64} (may : creates) (drew : .drew room ∈ facts)
      (different : first ≠ second) : Committable creates facts
        [.addRoom { id := room, name := none, type := RoomType.privateRoom.code, ownerId := none },
          .addMembers [{ roomId := room, userId := first, role := GroupRole.privateMember.code },
            { roomId := room, userId := second, role := GroupRole.privateMember.code }]]
  | invitation {room user : UInt64} (group : .wasGroup room ∈ facts) : Committable creates facts
        [.addMembers [{ roomId := room, userId := user, role := GroupRole.member.code }]]
  | deletion {room user : UInt64} {rows : List MemberRow} (some : rows ≠ [])
      (all : ∀ row ∈ rows, row.roomId = room) (owner : .wasOwner room user ∈ facts) :
      Committable creates facts [.dropMembers rows, .dropRoom room]
  | message {row : MessageRow} (member : .wasMember row.roomId row.senderId ∈ facts)
      (drew : .drew row.id ∈ facts) : Committable creates facts
        [.addMessage row, .setLast row.id row.roomId]

/-- Half of a transaction. -/
inductive Half (creates : Prop) (facts : List Fact) : List Change → Prop where
  | room {row : RoomRow} (may : creates) (drew : .drew row.id ∈ facts) :
      Half creates facts [.addRoom row]
  | members {room : UInt64} {rows : List MemberRow} (all : ∀ row ∈ rows, row.roomId = room) :
      Half creates facts [.dropMembers rows]
  | message {row : MessageRow} (drew : .drew row.id ∈ facts) : Half creates facts [.addMessage row]

/-- What the destructor may be left to commit, where `torn` says that it may be a half. -/
def Released (creates torn : Prop) (facts : List Fact) (changes : List Change) : Prop :=
  Committable creates facts changes ∨ torn ∧ Half creates facts changes

/-- What a task that fails may have pending. -/
def Recoverable (creates : Prop) (facts : List Fact) (changes : List Change) : Prop :=
  Committable creates facts changes ∨ Half creates facts changes

/-- The connection of a thread and the facts it has. -/
structure Phase where
  session : Session Change := .lost
  facts : List Fact := []

namespace Phase

def pending (phase : Phase) : List Change := Transaction.pending ⟨phase.session, []⟩

def learn (facts : List Fact) (phase : Phase) : Phase := { phase with facts := facts ++ phase.facts }

/-- After a statement that has made the change, if it has made one. -/
def execute (change : Option Change) (phase : Phase) : Phase :=
  match change, phase.session with
  | some change, .inTransaction pending =>
    { phase with session := .inTransaction (pending ++ [change]) }
  | _, _ => phase

end Phase

/-- What the rows of a query say. -/
def learnt : (query : Query) → List query.Row → List Fact
  | .membership roomId userId, _ :: _ => [.wasMember roomId userId]
  | .roomType id, (type : Int) :: _ => if type = RoomType.group.code then [.wasGroup id] else []
  | .role roomId userId, (role : Int) :: _ =>
    if role = GroupRole.owner.code then [.wasOwner roomId userId] else []
  | _, _ => []

/-- A call on the connection, seen from the phase. -/
def Phase.After (phase : Phase)
    (effect : Transaction Change → Except (Transaction Change) (Transaction Change))
    (later : Phase) : Prop :=
  ∃ transaction, effect ⟨phase.session, []⟩ = .ok transaction ∧ later.session = transaction.sql

/-- A count that the caller of a statement takes is that of its execution; with any other count
it may have been executed too. -/
def Phase.Counted (phase : Phase) (write : Write) (count : Nat) (later : Phase) : Prop :=
  ∃ tables change total,
    (write.change tables = .ok (change, total) ∧ later = phase.execute change ∨ later = phase) ∧
      (write.change tables = .ok (change, count) ∧ later = phase.execute change ∨
        unexpected count write = true)

/-- How a call is answered and in which phase it leaves the thread. One that throws may have
taken effect, and a `ROLLBACK` that throws leaves what is pending; `torn` says that this may be
a half. -/
def protocolExpected (torn : Prop) (phase : Phase) :
    (op : Op) → Except String op.Result → Phase → Prop
  | .connect, .ok _, later => later = { phase with session := .autoCommit }
  | .beginTransaction, .ok _, later =>
    phase.After Transaction.beginTransaction later ∧ later.facts = phase.facts
  | .beginTransaction, .error _, later =>
    later = phase ∨ phase.After Transaction.beginTransaction later ∧ later.facts = phase.facts
  | .query query, .ok rows, later => later = phase.learn (learnt query rows)
  | .update write, .ok count, later => phase.Counted write count later
  | .update write, .error _, later => later = phase ∨ ∃ tables change total,
      write.change tables = .ok (change, total) ∧ later = phase.execute change
  | .commit, .ok _, later => phase.After Transaction.commit later ∧ later.facts = []
  | .commit, .error _, later =>
    later = phase ∨ phase.After Transaction.commit later ∧ later.facts = []
  | .rollback, .ok _, later => phase.After Transaction.rollback later ∧ later.facts = phase.facts
  | .rollback, .error _, later => later = phase ∧ (halfDone phase.pending = true → torn) ∨
      phase.After Transaction.rollback later ∧ later.facts = phase.facts
  | .release, _, later => later.session = .lost ∧ later.facts = []
  | .nextId, .ok id, later => later = phase.learn [.drew (id : UInt64)]
  | _, _, later => later = phase

/-- In the ordinary course a call that throws has done nothing, and `ROLLBACK` does not. -/
def calmExpected (phase : Phase) : (op : Op) → Except String op.Result → Phase → Prop
  | .release, answer, later => protocolExpected False phase .release answer later
  | .rollback, .error _, _ => False
  | _, .error _, later => later = phase
  | op, .ok result, later => protocolExpected False phase op (.ok result) later

/-- What is pending is only committed as one of the transactions, or as a half of one where
that is taken for granted, and in autocommit mode a statement has to be one of its own.
Queries come before the changes. -/
def protocolPermitted (creates torn : Prop) (phase : Phase) : Op → Prop
  | .query _ => phase.pending = []
  | .commit => Committable creates phase.facts phase.pending
  | .release => Released creates torn phase.facts phase.pending
  | .update write => phase.session = .autoCommit → ∀ tables change total,
      write.change tables = .ok (some change, total) → Committable creates phase.facts [change]
  | _ => True

def protocol (creates torn : Prop) : Contract Op Op.Result Phase where
  permitted := protocolPermitted creates torn
  expected := protocolExpected torn

/-- The protocol in the ordinary course. -/
def calm (creates : Prop) : Contract Op Op.Result Phase where
  permitted := protocolPermitted creates False
  expected := calmExpected

/-- The task keeps to the protocol, however it ends. -/
def Follows (creates torn : Prop) {α : Type} (task : WorkerTask α) (phase : Phase) : Prop :=
  task.Meets (protocol creates torn) (fun _ _ => True) phase

section Tasks

variable {creates torn : Prop} {α β : Type} {phase later : Phase} {facts : List Fact}
variable {pending changes : List Change} {outcome : Outcome α} {what : String}

theorem Half.halfDone (half : Half creates facts changes) : Core.halfDone changes = true := by
  cases half <;> rfl

/-- A task that has returned from its `try` block may commit what is pending, and one that
has thrown may roll it back. -/
structure Settled (creates : Prop) (phase : Phase) (outcome : Outcome α) : Prop where
  returned : ∀ value, outcome = .returned value → Committable creates phase.facts phase.pending
  raised : ∀ what, outcome = .raised what → Recoverable creates phase.facts phase.pending

theorem after_begin (begun : (Phase.mk .autoCommit facts).After Transaction.beginTransaction later)
    (same : later.facts = facts) : later = ⟨.inTransaction [], facts⟩ := by
  obtain ⟨session, known⟩ := later
  obtain ⟨transaction, done, rfl⟩ := begun
  cases done
  cases same
  rfl

theorem pending_after_rollback (done : phase.After Transaction.rollback later) : later.pending = [] := by
  obtain ⟨session, known⟩ := phase
  obtain ⟨transaction, done, same⟩ := done
  cases session <;> cases done <;> rw [Phase.pending, same] <;> rfl

theorem pending_after_commit (done : phase.After Transaction.commit later) : later.pending = [] := by
  obtain ⟨session, known⟩ := phase
  obtain ⟨transaction, done, same⟩ := done
  cases session <;> cases done <;> rw [Phase.pending, same] <;> rfl

theorem settled_nothing (nothing : phase.pending = []) : Settled creates phase outcome :=
  ⟨fun _ _ => nothing ▸ .nothing, fun _ _ => .inl (nothing ▸ .nothing)⟩

theorem settled_raised (recoverable : Recoverable creates phase.facts phase.pending) :
    Settled creates phase (.raised what : Outcome α) := ⟨nofun, fun _ _ => recoverable⟩

theorem settled_committable (ready : Committable creates phase.facts phase.pending) :
    Settled creates phase outcome := ⟨fun _ _ => ready, fun _ _ => .inl ready⟩

/-- Nothing is pending after a `begin_transaction` that throws, whether it took effect. -/
theorem begin_failed (expected : (protocol creates torn).expected ⟨.autoCommit, facts⟩
    .beginTransaction (.error what) later) : later.pending = [] := by
  rcases expected with rfl | ⟨begun, same⟩
  · rfl
  · rw [after_begin begun same]
    rfl

/-- After a `COMMIT` that throws either nothing is pending or all that was. -/
theorem commit_failed (ready : Committable creates phase.facts phase.pending)
    (expected : (protocol creates torn).expected phase .commit (.error what) later) :
    Recoverable creates later.facts later.pending := by
  rcases expected with rfl | ⟨done, _⟩
  · exact .inl ready
  · exact .inl (pending_after_commit done ▸ .nothing)

theorem leave_follows (ready : Released creates torn phase.facts phase.pending) :
    Follows creates torn (onLeave release outcome : WorkerTask α) phase := by
  have left : Follows creates torn (release.andThen (onDestroyed outcome) : WorkerTask α) phase :=
    meets_onDestroyed.mpr (meets_perform.mpr ⟨ready, fun _ _ _ => trivial, fun _ _ _ => trivial⟩)
  cases outcome with
  | returned value => exact left
  | raised what => exact left
  | terminated => trivial
  | undefined => trivial

theorem leave_nothing (nothing : phase.pending = []) :
    Follows creates torn (onLeave release outcome : WorkerTask α) phase :=
  leave_follows (.inl (nothing ▸ .nothing))

theorem transaction_follows {body : WorkerTask α} {handler : WorkerTask α}
    (handles : ∀ phase, Recoverable creates phase.facts phase.pending →
      handler.Meets (protocol creates torn)
        (fun after _ => Released creates torn after.facts after.pending) phase)
    (settles : body.Meets (protocol creates torn) (Settled creates) phase) :
    (tryCatch body fun _ => handler).Meets (protocol creates torn) (fun after outcome =>
      Follows creates torn (onLeave release outcome : WorkerTask α) after) phase := by
  refine meets_tryCatch.mpr (settles.mono fun after outcome settled => ?_)
  cases outcome with
  | returned value => exact leave_follows (.inl (settled.returned value rfl))
  | raised what => exact (handles after (settled.raised what rfl)).mono fun _ _ => leave_follows
  | terminated => trivial
  | undefined => trivial

/-- Only a `ROLLBACK` that throws leaves anything to the destructor. -/
theorem rollback_releases (recoverable : Recoverable creates phase.facts phase.pending) :
    rollback.Meets (protocol creates torn)
      (fun after _ => Released creates torn after.facts after.pending) phase := by
  have undone {later : Phase} (done : phase.After Transaction.rollback later) :
      Released creates torn later.facts later.pending :=
    .inl (pending_after_rollback done ▸ .nothing)
  refine meets_perform.mpr ⟨trivial, fun _ _ expected => undone expected.1, fun _ later expected => ?_⟩
  rcases expected with ⟨rfl, half⟩ | ⟨done, _⟩
  · exact recoverable.imp_right fun left => ⟨half left.halfDone, left⟩
  · exact undone done

theorem rollbackAndReply_releases {response : Response}
    (recoverable : Recoverable creates phase.facts phase.pending) :
    (rollbackAndReply response).Meets (protocol creates torn)
      (fun after _ => Released creates torn after.facts after.pending) phase := by
  refine meets_bind.mpr ((rollback_releases recoverable).mono fun after outcome released => ?_)
  cases outcome <;> exact released

theorem withConn_follows {body : WorkerTask α}
    (follows : body.Meets (protocol creates torn) (fun after outcome =>
      Follows creates torn (onLeave release outcome : WorkerTask α) after) ⟨.autoCommit, facts⟩) :
    Follows creates torn (withConn body) ⟨.lost, facts⟩ :=
  meets_call_then trivial (fun _ _ connected => connected ▸ meets_withDestructor.mpr follows)
    fun _ _ _ => trivial

/-- A number of rows that the caller takes is that of the executed statement. -/
theorem executed_of_accepted {write : Write} {count : Nat}
    (counted : phase.Counted write count later)
    (accepted : unexpected count write = false) : ∃ tables change,
      write.change tables = .ok (change, count) ∧ later = phase.execute change := by
  obtain ⟨tables, change, _, _, how⟩ := counted
  rcases how with executed | wrong
  · exact ⟨tables, change, executed⟩
  · exact Bool.noConfusion (wrong.symm.trans accepted)

/-- Whatever a statement of a transaction reports, it has been executed or it has not. -/
theorem executed_or_not {write : Write} {answer : Except String Nat}
    (expected : (protocol creates torn).expected phase (.update write) answer later) :
    later = phase ∨ ∃ tables change total,
      write.change tables = .ok (change, total) ∧ later = phase.execute change := by
  cases answer with
  | error what => exact expected
  | ok count =>
    obtain ⟨tables, change, total, executed | same, _⟩ := expected
    · exact .inr ⟨tables, change, total, executed⟩
    · exact .inl same

theorem update_follows {write : Write} {post : Phase → Outcome β → Prop} {refused : Nat → Prop}
    [DecidablePred refused] {next : PUnit → WorkerTask β}
    (checks : ∀ count, ¬ refused count → unexpected count write = false)
    (before : Recoverable creates facts pending)
    (pieces : ∀ tables made total, write.change tables = .ok (some made, total) →
      Recoverable creates facts (pending ++ [made]))
    (fails : ∀ later what, Recoverable creates later.facts later.pending → post later (.raised what))
    (passes : ∀ tables change count, write.change tables = .ok (change, count) → ¬ refused count →
      (next ⟨⟩).Meets (protocol creates torn) post
        (Phase.execute change ⟨.inTransaction pending, facts⟩)) :
    (executeUpdate write >>= fun count => throwIf (refused count) what >>= next).Meets
      (protocol creates torn) post ⟨.inTransaction pending, facts⟩ := by
  have recoverable {answer : Except String Nat} {later : Phase}
      (expected : (protocol creates torn).expected ⟨.inTransaction pending, facts⟩ (.update write)
        answer later) : Recoverable creates later.facts later.pending := by
    rcases executed_or_not expected with rfl | ⟨tables, change, total, changed, rfl⟩
    · exact before
    · cases change with
      | none => exact before
      | some made => exact pieces tables made total changed
  refine meets_call_then nofun (fun (count : Nat) later expected => ?_) fun what later expected => ?_
  · refine meets_throwIf_then (fun takes => ?_) fun _ => fails later _ (recoverable expected)
    obtain ⟨tables, change, changed, rfl⟩ := executed_of_accepted expected (checks count takes)
    exact passes tables change count changed takes
  · exact fails later what (recoverable expected)

theorem execute_autoCommit {change : Option Change} :
    Phase.execute change ⟨.autoCommit, facts⟩ = ⟨.autoCommit, facts⟩ := by
  cases change <;> rfl

theorem update_autoCommit {write : Write} {answer : Except String Nat}
    (expected : (protocol creates torn).expected ⟨.autoCommit, facts⟩ (.update write) answer later) :
    later = ⟨.autoCommit, facts⟩ := by
  rcases executed_or_not expected with same | ⟨_, change, _, _, same⟩
  · exact same
  · exact same.trans execute_autoCommit

/-- Nothing is pending when a task has returned. -/
structure Emptied (creates : Prop) (phase : Phase) (outcome : Outcome α) : Prop where
  returned : ∀ value, outcome = .returned value → phase.pending = []
  raised : ∀ what, outcome = .raised what → Recoverable creates phase.facts phase.pending

theorem emptied_nothing (nothing : phase.pending = []) : Emptied creates phase outcome :=
  ⟨fun _ _ => nothing, fun _ _ => .inl (nothing ▸ .nothing)⟩

theorem emptied_raised (recoverable : Recoverable creates phase.facts phase.pending) :
    Emptied creates phase (.raised what : Outcome α) := ⟨nofun, fun _ _ => recoverable⟩

variable {service : Service} {req : Request} {roomId : UInt64}

theorem insertGRoom_follows (may : creates) : (insertGRoom service req).Meets (protocol creates torn)
    (Settled creates) ⟨.autoCommit, facts⟩ := by
  refine meets_ofExcept_then (fun jv _ => ?_) fun _ _ => settled_nothing rfl
  refine meets_ofExcept_then (fun createReq _ => ?_) fun _ _ => settled_nothing rfl
  refine meets_call_then trivial (fun _ later begun => ?_) fun _ _ failed =>
    settled_nothing (begin_failed failed)
  obtain rfl := after_begin begun.1 begun.2
  refine meets_call_then trivial (fun room _ drawn => ?_) fun _ _ same => same ▸ settled_nothing rfl
  subst drawn
  refine meets_ofExcept_then (fun claims _ => ?_) fun _ _ => settled_nothing rfl
  refine update_follows (fun count fine => by simpa [unexpected] using fine) (.inl .nothing)
    (fun _ _ _ changed => ?_) (fun _ _ => settled_raised) fun _ change count changed _ => ?_
  · cases changed
    exact .inr (.room may (List.mem_cons_self ..))
  cases changed
  refine update_follows (fun count fine => by simpa [unexpected] using fine)
    (.inr (.room may (List.mem_cons_self ..))) (fun _ _ _ changed => ?_) (fun _ _ => settled_raised)
    fun _ change count changed _ => ?_
  · cases (Write.change_insertMembers changed).1
    exact .inl (.groupRoom may (List.mem_cons_self ..))
  obtain ⟨rfl, _, _⟩ := Write.change_insertMembers changed
  exact settled_committable (.groupRoom may (List.mem_cons_self ..))

theorem createGRoom_follows (may : creates) :
    Follows creates torn (createGRoom service req) {} := by
  unfold createGRoom
  split
  · trivial
  · exact withConn_follows (transaction_follows (fun _ => rollbackAndReply_releases)
      (insertGRoom_follows may))

theorem insertPRoom_follows (may : creates) : (insertPRoom service req).Meets (protocol creates torn)
    (Settled creates) ⟨.autoCommit, facts⟩ := by
  refine meets_ofExcept_then (fun jv _ => ?_) fun _ _ => settled_nothing rfl
  refine meets_ofExcept_then (fun createReq _ => ?_) fun _ _ => settled_nothing rfl
  refine meets_call_then trivial (fun _ later begun => ?_) fun _ _ failed =>
    settled_nothing (begin_failed failed)
  obtain rfl := after_begin begun.1 begun.2
  refine meets_call_then trivial (fun (room : UInt64) _ drawn => ?_) fun _ _ same =>
    same ▸ settled_nothing rfl
  subst drawn
  refine meets_ofExcept_then (fun claims _ => ?_) fun _ _ => settled_nothing rfl
  -- The two rows are only accepted as rows of two users.
  have different {tables : Tables} {change : Option Change} {count : Nat}
      (changed : (Write.insertMembers
        [{ roomId := room, userId := claims.id, role := GroupRole.privateMember.code },
          { roomId := room, userId := createReq.otherId, role := GroupRole.privateMember.code }]).change
            tables = .ok (change, count)) : claims.id ≠ createReq.otherId := by
    have unique := (Write.change_insertMembers changed).2.2
    rw [List.map_append, List.nodup_append] at unique
    simpa [MemberRow.key] using unique.2.1
  refine update_follows (fun count fine => by simpa [unexpected] using fine) (.inl .nothing)
    (fun _ _ _ changed => ?_) (fun _ _ => settled_raised) fun _ change count changed _ => ?_
  · cases changed
    exact .inr (.room may (List.mem_cons_self ..))
  cases changed
  refine update_follows (fun count fine => by simpa [unexpected] using fine)
    (.inr (.room may (List.mem_cons_self ..))) (fun _ _ _ changed => ?_) (fun _ _ => settled_raised)
    fun _ change count changed _ => ?_
  · cases (Write.change_insertMembers changed).1
    exact .inl (.privateRoom may (List.mem_cons_self ..) (different changed))
  obtain ⟨rfl, _, _⟩ := Write.change_insertMembers changed
  have ready := @Committable.privateRoom creates (.drew room :: facts) room claims.id
    createReq.otherId may (List.mem_cons_self ..) (different changed)
  exact meets_call_then ready (fun _ later done => settled_nothing (pending_after_commit done.1))
    fun _ _ failed => settled_raised (commit_failed ready failed)

theorem createPRoom_follows (may : creates) :
    Follows creates torn (createPRoom service req) {} := by
  unfold createPRoom
  split
  · trivial
  · exact withConn_follows (transaction_follows (fun _ => rollbackAndReply_releases)
      (insertPRoom_follows may))

theorem deleteRows_follows {user : UInt64} (owner : .wasOwner roomId user ∈ facts) :
    (deleteRows req roomId).Meets (protocol creates torn) (Settled creates)
      ⟨.inTransaction [], facts⟩ := by
  refine update_follows (fun count fine => by simpa [unexpected] using fine) (.inl .nothing)
    (fun _ _ _ changed => ?_) (fun _ _ => settled_raised) fun _ change count changed some => ?_
  · obtain ⟨rows, rfl, all⟩ := Write.made_deleteMembers changed
    exact .inr (.members all)
  obtain ⟨rows, rfl, nonempty, all⟩ := Write.change_deleteMembers some changed
  have ready := @Committable.deletion creates facts roomId user rows nonempty all owner
  refine update_follows (fun count fine => by simpa [unexpected] using fine) (.inr (.members all))
    (fun _ _ _ changed => ?_) (fun _ _ => settled_raised) fun _ change count changed some => ?_
  · obtain rfl := Write.made_deleteRoom changed
    exact .inl ready
  obtain rfl := Write.change_deleteRoom some changed
  exact meets_call_then ready (fun _ later done => settled_nothing (pending_after_commit done.1))
    fun _ _ failed => settled_raised (commit_failed ready failed)

theorem deleteRoom_follows : Follows creates torn (deleteRoom service req roomId) {} := by
  refine withConn_follows (meets_call_then trivial (fun _ later begun => ?_) fun _ _ failed =>
    leave_nothing (begin_failed failed))
  obtain rfl := after_begin begun.1 begun.2
  apply transaction_follows (fun _ => rollbackAndReply_releases)
  refine meets_ofExcept_then (fun claims _ => ?_) fun _ _ => settled_nothing rfl
  refine meets_call_then rfl (fun (roles : List Int) _ asked => ?_) fun _ _ same =>
    same ▸ settled_nothing rfl
  cases roles with
  | nil => exact asked ▸ settled_nothing rfl
  | cons role more =>
    by_cases owns : role = GroupRole.owner.code
    · subst asked
      subst owns
      dsimp only
      rw [if_neg (not_not_intro rfl)]
      exact deleteRows_follows (List.mem_cons_self ..)
    · dsimp only
      rw [if_pos owns]
      exact asked ▸ settled_nothing rfl

theorem inviteMember_follows : Follows creates torn (inviteMember service req roomId) {} := by
  unfold inviteMember
  split
  · trivial
  refine meets_ofExcept_then (fun jv _ => ?_) fun _ _ => trivial
  refine meets_ofExcept_then (fun invtReq _ => ?_) fun _ _ => trivial
  refine withConn_follows (meets_ofExcept_then (fun claims _ => ?_) fun _ _ => leave_nothing rfl)
  refine meets_call_then rfl (fun (types : List Int) _ asked => ?_) fun _ _ same =>
    same ▸ leave_nothing rfl
  cases types with
  | nil => exact asked ▸ leave_nothing rfl
  | cons type more =>
    by_cases isGroup : type = RoomType.group.code
    · subst asked
      subst isGroup
      dsimp only
      rw [if_neg (not_not_intro rfl)]
      refine meets_call_then (fun _ tables change total changed => ?_)
        (fun (count : Nat) later expected => ?_) fun _ _ failed => update_autoCommit failed ▸ leave_nothing rfl
      · cases (Write.change_insertMembers changed).1
        exact .invitation (List.mem_cons_self ..)
      · obtain rfl := update_autoCommit expected
        dsimp only
        split <;> exact leave_nothing rfl
    · dsimp only
      rw [if_pos isGroup]
      exact asked ▸ leave_nothing rfl

theorem storeMessage_follows {content insertFailed updateFailed : String} {userClaims : UserClaims} :
    (storeMessage roomId content userClaims insertFailed updateFailed).Meets (protocol creates torn)
      (Emptied creates) ⟨.inTransaction [], facts⟩ := by
  refine meets_call_then rfl (fun (members : List Unit) _ asked => ?_) fun _ _ same =>
    same ▸ emptied_nothing rfl
  cases members with
  | nil =>
    subst asked
    exact meets_call_then trivial (fun _ _ same => same ▸ emptied_nothing rfl) fun _ _ same =>
      same ▸ emptied_nothing rfl
  | cons member more =>
    subst asked
    refine meets_call_then trivial (fun (msgId : UInt64) _ drawn => ?_) fun _ _ same =>
      same ▸ emptied_nothing rfl
    subst drawn
    refine update_follows (fun count fine => by simpa [unexpected] using fine) (.inl .nothing)
      (fun _ _ _ changed => ?_) (fun _ _ => emptied_raised) fun _ change count changed _ => ?_
    · cases changed
      exact .inr (.message (List.mem_cons_self ..))
    cases changed
    have ready := @Committable.message creates (.drew msgId :: [.wasMember roomId userClaims.id] ++ facts)
      { id := msgId, roomId, senderId := userClaims.id, content } (by simp) (by simp)
    refine update_follows (fun count fine => by simpa [unexpected] using fine)
      (.inr (.message (List.mem_cons_self ..))) (fun _ _ _ changed => ?_) (fun _ _ => emptied_raised)
      fun _ change count changed one => ?_
    · obtain rfl := Write.made_setLastMessage changed
      exact .inl ready
    obtain rfl := Write.change_setLastMessage (by simp_all) changed
    exact meets_call_then ready (fun _ later done => emptied_nothing (pending_after_commit done.1))
      fun _ _ failed => emptied_raised (commit_failed ready failed)

/-- What is done with a stored message only tells users of it. -/
theorem stored_follows {content insertFailed updateFailed : String} {userClaims : UserClaims}
    {next : Bool → WorkerTask PUnit}
    (tells : ∀ stored phase, phase.pending = [] →
      (next stored).Meets (protocol creates torn) (Settled creates) phase) :
    (storeMessage roomId content userClaims insertFailed updateFailed >>= next).Meets
      (protocol creates torn) (Settled creates) ⟨.inTransaction [], facts⟩ := by
  refine meets_bind.mpr (storeMessage_follows.mono fun after outcome emptied => ?_)
  cases outcome with
  | returned stored => exact tells stored after (emptied.returned stored rfl)
  | raised what => exact settled_raised (emptied.raised what rfl)
  | terminated => exact ⟨nofun, nofun⟩
  | undefined => exact ⟨nofun, nofun⟩

theorem privateMessage_follows {data : Json} {userClaims : UserClaims} :
    (privateMessage data userClaims).Meets (protocol creates torn) (Settled creates)
      ⟨.inTransaction [], facts⟩ := by
  refine meets_ofExcept_then (fun privateMsg _ => ?_) fun _ _ => settled_nothing rfl
  apply stored_follows
  intro stored phase nothing
  split
  · refine meets_call_then trivial (fun _ _ same => ?_) fun _ _ same => same ▸ settled_nothing nothing
    subst same
    exact meets_perform.mpr ⟨trivial, fun _ _ same => same ▸ settled_nothing nothing,
      fun _ _ same => same ▸ settled_nothing nothing⟩
  · exact settled_nothing nothing

theorem groupMessage_follows {data : Json} {userClaims : UserClaims} :
    (groupMessage data userClaims).Meets (protocol creates torn) (Settled creates)
      ⟨.inTransaction [], facts⟩ := by
  refine meets_ofExcept_then (fun groupMsg _ => ?_) fun _ _ => settled_nothing rfl
  apply stored_follows
  intro stored phase nothing
  split
  · refine meets_call_then trivial (fun _ _ same => ?_) fun _ _ same => same ▸ settled_nothing nothing
    subst same
    exact meets_perform.mpr ⟨trivial, fun _ _ same => same ▸ settled_nothing nothing,
      fun _ _ same => same ▸ settled_nothing nothing⟩
  · exact settled_nothing nothing

theorem handleMessage_follows {msg : String} {userClaims : UserClaims} :
    Follows creates torn (handleMessage service msg userClaims) {} := by
  refine withConn_follows (meets_call_then trivial (fun _ later begun => ?_) fun _ _ failed =>
    leave_nothing (begin_failed failed))
  obtain rfl := after_begin begun.1 begun.2
  apply transaction_follows (fun _ => rollback_releases)
  refine meets_ofExcept_then (fun jv _ => ?_) fun _ _ => settled_nothing rfl
  refine meets_ofExcept_then (fun typed _ => ?_) fun _ _ => settled_nothing rfl
  obtain ⟨obj, type⟩ := typed
  dsimp only
  split
  · exact meets_ofExcept_then (fun data _ => privateMessage_follows) fun _ _ => settled_nothing rfl
  · split
    · exact meets_ofExcept_then (fun data _ => groupMessage_follows) fun _ _ => settled_nothing rfl
    · exact settled_nothing rfl

theorem map_follows {task : WorkerTask α} {value : α → β} (follows : Follows creates torn task phase) :
    Follows creates torn (value <$> task) phase := by
  refine meets_map.mpr (follows.mono fun after outcome _ => ?_)
  cases outcome <;> trivial

theorem task_follows {task : Task} (may : task.Creates → creates) :
    Follows creates torn (task.program service) {} := by
  cases task with
  | createGRoom req => exact map_follows (createGRoom_follows (may trivial))
  | createPRoom req => exact map_follows (createPRoom_follows (may trivial))
  | inviteMember req roomId => exact map_follows inviteMember_follows
  | deleteRoom req roomId => exact map_follows deleteRoom_follows
  | handleMessage msg userClaims => exact map_follows handleMessage_follows

/-- The ordinary course is one of those that the protocol expects. -/
theorem expected_of_calm {op : Op} {answer : Except String op.Result}
    (expected : calmExpected phase op answer later) : protocolExpected torn phase op answer later := by
  cases op with
  | release => exact expected
  | rollback =>
    cases answer with
    | error what => exact absurd expected id
    | ok result => exact expected
  | beginTransaction | commit | update _ =>
    cases answer with
    | error what => exact .inl expected
    | ok result => exact expected
  | _ => cases answer <;> exact expected

theorem meets_calm {task : WorkerTask α} {post : Phase → Outcome α → Prop}
    (meets : task.Meets (protocol creates False) post phase) : task.Meets (calm creates) post phase :=
  meets.relax (fun _ _ permitted => permitted) fun _ _ _ _ => expected_of_calm

/-- A call that takes effect and throws all the same leaves what it would have left. -/
theorem expected_unanswered {op : Op} {answer : Except String op.Result}
    (effect : op.takesEffect = true) (expected : calmExpected phase op answer later) :
    protocolExpected torn phase op (.error what) later := by
  cases op with
  | release => exact expected
  | rollback =>
    cases answer with
    | error _ => exact absurd expected id
    | ok _ => exact .inr expected
  | beginTransaction | commit =>
    cases answer with
    | error _ => exact .inl expected
    | ok _ => exact .inr expected
  | update write =>
    cases answer with
    | error _ => exact .inl expected
    | ok count =>
      obtain ⟨tables, change, total, executed | same, _⟩ := expected
      · exact .inr ⟨tables, change, total, executed⟩
      · exact .inl same
  | _ => cases effect

end Tasks

end TinyChat.Core
