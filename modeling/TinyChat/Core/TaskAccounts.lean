import TinyChat.Core.ChatService
import TinyChat.Core.Recipients
import TinyChat.Core.RoomTransactions
import TinyChat.Effect.Attribution

namespace TinyChat.Core

open TinyChat.Db TinyChat.Effect TinyChat.Text TinyChat.Transition TinyChat.Utils
open Program

/-- The operations on rooms; a message is its id and its content. -/
abbrev RoomOperation : Type := Operation UInt64 String UInt64 (UInt64 × String)

abbrev RoomPosting : Type := Posting UInt64 UInt64 (UInt64 × String)

def Posting.row (posting : RoomPosting) : MessageRow :=
  { id := posting.message.1, roomId := posting.room, senderId := posting.author
    content := posting.message.2 }

/-- What a transaction writes to carry an operation out, and what it has read or drawn for
that. -/
inductive Performs (facts : List Fact) : RoomOperation → List Change → Prop where
  | openGroup {room owner : UInt64} {name : String} (drew : .drew room ∈ facts) :
      Performs facts (.openGroup room name owner)
        [.addRoom { id := room, name := some name, type := RoomType.group.code, ownerId := some owner },
          .addMembers [{ roomId := room, userId := owner, role := GroupRole.owner.code }]]
  | openPair {room first second : UInt64} (drew : .drew room ∈ facts) (different : first ≠ second) :
      Performs facts (.openPair room first second)
        [.addRoom { id := room, name := none, type := RoomType.privateRoom.code, ownerId := none },
          .addMembers [{ roomId := room, userId := first, role := GroupRole.privateMember.code },
            { roomId := room, userId := second, role := GroupRole.privateMember.code }]]
  | invite {room newcomer : UInt64} (group : .wasGroup room ∈ facts) :
      Performs facts (.invite room newcomer)
        [.addMembers [{ roomId := room, userId := newcomer, role := GroupRole.member.code }]]
  | close {room owner : UInt64} {rows : List MemberRow} (some : rows ≠ [])
      (all : ∀ row ∈ rows, row.roomId = room) (owns : .wasOwner room owner ∈ facts) :
      Performs facts (.close room owner) [.dropMembers rows, .dropRoom room]
  | post {posting : RoomPosting} (member : .wasMember posting.room posting.author ∈ facts)
      (drew : .drew posting.message.1 ∈ facts) : Performs facts (.post posting)
        [.addMessage posting.row, .setLast posting.message.1 posting.room]

/-- The operations that a task may be there for; ids that are drawn may be any. -/
inductive Task.Asks (service : Service) : Task → RoomOperation → Prop where
  | createGRoom {req : Request} {jv : Json} {createReq : CreateGRoomReq} {claims : UserClaims}
      {room : UInt64} (parsed : service.parse req.body = .ok jv)
      (decoded : CreateGRoomReq.valueTo jv = .ok createReq)
      (claimed : service.jwt.extractUserClaims req.authorizationField = .ok claims) :
      Asks service (.createGRoom req) (.openGroup room createReq.name claims.id)
  | createPRoom {req : Request} {jv : Json} {createReq : CreatePRoomReq} {claims : UserClaims}
      {room : UInt64} (parsed : service.parse req.body = .ok jv)
      (decoded : CreatePRoomReq.valueTo jv = .ok createReq)
      (claimed : service.jwt.extractUserClaims req.authorizationField = .ok claims) :
      Asks service (.createPRoom req) (.openPair room claims.id createReq.otherId)
  | inviteMember {req : Request} {roomId : UInt64} {jv : Json} {invtReq : GRoomInvtReq}
      (parsed : service.parse req.body = .ok jv) (decoded : GRoomInvtReq.valueTo jv = .ok invtReq) :
      Asks service (.inviteMember req roomId) (.invite roomId invtReq.inviteeId)
  | deleteRoom {req : Request} {roomId : UInt64} {claims : UserClaims}
      (claimed : service.jwt.extractUserClaims req.authorizationField = .ok claims) :
      Asks service (.deleteRoom req roomId) (.close roomId claims.id)
  | privateMessage {msg : String} {userClaims : UserClaims} {jv data : Json}
      {obj : List (String × Json)} {privateMsg : ClientPrivateMsg} {id : UInt64}
      (parsed : service.parse msg = .ok jv) (typed : messageType jv = .ok (obj, "private_message"))
      (has : Json.member "data" obj = .ok data)
      (decoded : ClientPrivateMsg.valueTo data = .ok privateMsg) :
      Asks service (.handleMessage msg userClaims)
        (.post ⟨privateMsg.roomId, userClaims.id, (id, privateMsg.content)⟩)
  | groupMessage {msg : String} {userClaims : UserClaims} {jv data : Json}
      {obj : List (String × Json)} {groupMsg : ClientGroupMsg} {id : UInt64}
      (parsed : service.parse msg = .ok jv) (typed : messageType jv = .ok (obj, "group_message"))
      (has : Json.member "data" obj = .ok data) (decoded : ClientGroupMsg.valueTo data = .ok groupMsg) :
      Asks service (.handleMessage msg userClaims)
        (.post ⟨groupMsg.roomId, userClaims.id, (id, groupMsg.content)⟩)

/-- How far a task has come with its operation. -/
inductive Done where
  | nothing
  /-- A statement has reported a number of rows that says nothing about what it has done. -/
  | unsure
  | committed (changes : List Change)

def Done.commit (done : Done) : List Change → Done
  | [] => done
  | changes => .committed changes

structure Account where
  done : Done := .nothing
  /-- The messages that users were told. -/
  told : List Json := []
  heard : Heard := none

def doneAfter (phase : Phase) (done : Done) : (op : Op) → Except String op.Result → Done
  | .commit, .ok _ => done.commit phase.pending
  | .release, .ok _ => done.commit phase.pending
  | .update write, .ok (count : Nat) =>
    match phase.session, write with
    | .autoCommit, .insertMembers rows =>
      if count = rows.length then .committed [.addMembers rows] else .unsure
    | .autoCommit, _ => .unsure
    | _, _ => done
  | _, _ => done

def toldAfter (told : List Json) : Op → List Json
  | .writeTo _ msg => told ++ [msg]
  | .writeToAll _ msg => told ++ [msg]
  | _ => told

def accountAfter (phase : Phase) (op : Op) (answer : Except String op.Result) (account : Account) :
    Account :=
  { done := doneAfter phase account.done op answer
    told := toldAfter account.told op
    heard := heardAfter account.heard op answer }

/-- What users are told, when it is true. -/
inductive Announces (service : Service) (task : Task) (account : Account) : Op → Prop where
  | permissionDenied {text : String} {claims : UserClaims} (same : task = .handleMessage text claims)
      (nothing : account.done = .nothing) :
      Announces service task account (.writeTo claims.id (serverRespMsg .permissionDenied .null))
  | privateMsg {user : UInt64} {posting : RoomPosting} {facts : List Fact} {changes : List Change}
      (asks : task.Asks service (.post posting)) (performs : Performs facts (.post posting) changes)
      (done : account.done = .committed changes) : Announces service task account
        (.writeTo user (privateMsgToSend posting.room posting.message.2))
  | msgSentInfo {posting : RoomPosting} {facts : List Fact} {changes : List Change}
      (asks : task.Asks service (.post posting)) (performs : Performs facts (.post posting) changes)
      (done : account.done = .committed changes) : Announces service task account
        (.writeTo posting.author (serverRespMsg .msgSentInfo .null))
  | groupMsg {users : List UInt64} {posting : RoomPosting} {facts : List Fact}
      {changes : List Change} (asks : task.Asks service (.post posting))
      (performs : Performs facts (.post posting) changes) (done : account.done = .committed changes)
      (heard : account.heard = some (posting.room, users)) : Announces service task account
        (.writeToAll users (groupMsgToSend posting.room posting.author posting.message.2))

/-- Only an operation that the task is there for may be committed, and only once, before
anybody is told anything. -/
def MayCommit (service : Service) (task : Task) (known : Phase × Account) : Prop :=
  known.1.pending = [] ∨ known.2.done = .nothing ∧ known.2.told = [] ∧ 2 ≤ known.1.pending.length ∧
    ∃ operation, task.Asks service operation ∧ Performs known.1.facts operation known.1.pending

/-- The calls by which a task does what it is there for, and tells nothing else. -/
def Accountable (service : Service) (task : Task) (known : Phase × Account) : Op → Prop
  | .commit => MayCommit service task known
  | .release => MayCommit service task known
  | .update write => known.1.session = .autoCommit → known.2.done = .nothing ∧ known.2.told = [] ∧
      ∃ room newcomer, task.Asks service (.invite room newcomer) ∧ .wasGroup room ∈ known.1.facts ∧
        write = .insertMembers [{ roomId := room, userId := newcomer, role := GroupRole.member.code }]
  | .writeTo user msg => msg ∉ known.2.told ∧ Announces service task known.2 (.writeTo user msg)
  | .writeToAll users msg =>
    msg ∉ known.2.told ∧ Announces service task known.2 (.writeToAll users msg)
  | _ => True

/-- What the reply to an operation that has been carried out contains. -/
def operationData : RoomOperation → Json
  | .openGroup room _ _ => .object [("room_id", .string (toDecimal room))]
  | .openPair room _ _ => .object [("room_id", .string (toDecimal room))]
  | _ => .null

/-- A reply that says `Success` follows the commit of the operation. Any other reply follows
none, unless it is to an invitation that has failed for the number of rows it reported. -/
def Reports (service : Service) (task : Task) (account : Account) (response : Response) : Prop :=
  (response.succeeded = true → ∃ operation facts changes message, task.Asks service operation ∧
    Performs facts operation changes ∧ account.done = .committed changes ∧
    response.body = .json (apiResponse .success message (operationData operation))) ∧
  (response.succeeded = false → account.done = .nothing ∨ ∃ req roomId,
    task = .inviteMember req roomId ∧ response = badRequest req " Invite failed")

theorem Performs.committable {facts : List Fact} {operation : RoomOperation} {changes : List Change}
    (performs : Performs facts operation changes) : Committable True facts changes := by
  cases performs with
  | openGroup drew => exact .groupRoom trivial drew
  | openPair drew different => exact .privateRoom trivial drew different
  | invite group => exact .invitation group
  | close some all owns => exact .deletion some all owns
  | @post posting member drew =>
    exact (.message member drew : Committable True facts [.addMessage posting.row,
      .setLast posting.row.id posting.row.roomId])

abbrev Known : Type := Phase × Account

/-- The protocol with an account of what has been done, in the ordinary course. -/
def accounting : Contract Op Op.Result Known := (calm True).recording accountAfter

/-- The protocol for a task that is held to account. -/
def requested (service : Service) (task : Task) : Contract Op Op.Result Known :=
  accounting.narrow (Accountable service task)

/-- The account alone. -/
abbrev accountable (service : Service) (task : Task) : Contract Op Op.Result Known :=
  accounting.unguarded.narrow (Accountable service task)

section Tasks

variable {service : Service} {task : Task} {known : Known} {account : Account} {α : Type}
variable {good : Account → α → Prop} {facts : List Fact} {pending : List Change}
variable {req : Request} {roomId : UInt64} {response : Response}

/-- The account is good once the task has returned. -/
def Gives (good : Account → α → Prop) (known : Known) (outcome : Outcome α) : Prop :=
  ∀ value, outcome = .returned value → good known.2 value

/-- The account after the connection is given back. -/
def settled (known : Known) : Account :=
  { known.2 with done := known.2.done.commit known.1.pending }

theorem gives_raised {what : String} : Gives good known (.raised what) := nofun

theorem leave_accounted {outcome : Outcome α} (may : MayCommit service task known)
    (gives : ∀ value, outcome = .returned value → good (settled known) value) :
    (onLeave release outcome : WorkerTask α).Meets (accountable service task) (Gives good) known := by
  have left : (release.andThen (onDestroyed outcome) : WorkerTask α).Meets
      (accountable service task) (Gives good) known := by
    refine meets_onDestroyed.mpr (meets_perform.mpr ⟨⟨trivial, may⟩, fun _ later released => ?_,
      fun _ _ _ => nofun⟩)
    obtain ⟨phase, after⟩ := later
    obtain ⟨_, rfl⟩ := released
    exact gives
  cases outcome with
  | returned value => exact left
  | raised what => exact left
  | terminated => exact nofun
  | undefined => exact nofun

/-- How the scope of a connection goes on from a `try` block. -/
abbrev Leaves (service : Service) (task : Task) (good : Account → α → Prop) (known : Known)
    (outcome : Outcome α) : Prop :=
  (onLeave release outcome : WorkerTask α).Meets (accountable service task) (Gives good) known

theorem withConn_accounted {body : WorkerTask α}
    (meets : body.Meets (accountable service task) (Leaves service task good)
      (⟨.autoCommit, []⟩, {})) :
    (withConn body).Meets (accountable service task) (Gives good) ({}, {}) := by
  refine meets_call_then ⟨trivial, trivial⟩ (fun _ later connected => ?_) fun _ _ _ => gives_raised
  obtain ⟨phase, after⟩ := later
  obtain ⟨same, rfl⟩ := connected
  obtain rfl : phase = ⟨.autoCommit, []⟩ := same
  exact meets_withDestructor.mpr meets

theorem begin_accounted {next : PUnit → WorkerTask α} {post : Known → Outcome α → Prop}
    (begun : (next ⟨⟩).Meets (accountable service task) post (⟨.inTransaction [], facts⟩, account))
    (throws : ∀ what, post (⟨.autoCommit, facts⟩, account) (.raised what)) :
    (beginTransaction >>= next).Meets (accountable service task) post
      (⟨.autoCommit, facts⟩, account) := by
  refine meets_call_then ⟨trivial, trivial⟩ (fun _ later expected => ?_) fun what later expected => ?_
  · obtain ⟨phase, after⟩ := later
    obtain ⟨⟨called, same⟩, rfl⟩ := expected
    obtain rfl := after_begin called same
    exact begun
  · obtain ⟨phase, after⟩ := later
    obtain ⟨same, rfl⟩ := expected
    obtain rfl : phase = _ := same
    exact throws what

theorem rollback_accounted :
    rollback.Meets (accountable service task) (fun after _ => after.1.pending = [] ∧
      after.2 = known.2) known := by
  refine meets_perform.mpr ⟨⟨trivial, trivial⟩, fun _ later expected => ?_, fun _ later expected => ?_⟩
  · exact ⟨pending_after_rollback expected.1.1, expected.2⟩
  · exact absurd expected.1 id

theorem settled_of_empty (nothing : known.1.pending = []) : settled known = known.2 := by
  rw [settled, nothing]
  rfl

theorem rollbackAndReply_accounted {good : Account → Response → Prop} (replies : good known.2 response) :
    (rollbackAndReply response).Meets (accountable service task) (Leaves service task good) known := by
  refine meets_bind.mpr (rollback_accounted.mono fun after outcome undone => ?_)
  obtain ⟨nothing, same⟩ := undone
  have leaves (outcome : Outcome Response) (own : ∀ value, outcome = .returned value → value = response) :
      Leaves service task good after outcome := by
    refine leave_accounted (.inl nothing) fun value returned => ?_
    rw [settled_of_empty nothing, same, own value returned]
    exact replies
  cases outcome with
  | returned => exact leaves _ fun value returned => (Outcome.returned.inj returned).symm
  | raised what => exact leaves _ nofun
  | terminated => exact nofun
  | undefined => exact nofun

/-- What a `try` block whose exceptions lead to a rollback and a reply has to leave. -/
def Settles (service : Service) (task : Task) (known : Known) (outcome : Outcome Response) : Prop :=
  (∀ response, outcome = .returned response →
    MayCommit service task known ∧ Reports service task (settled known) response) ∧
  ∀ what, outcome = .raised what → known.2.done = .nothing

theorem settles_raised {what : String} (nothing : known.2.done = .nothing) :
    Settles service task known (.raised what) := ⟨nofun, fun _ _ => nothing⟩

theorem reports_refusal (failed : response.succeeded = false) (nothing : account.done = .nothing) :
    Reports service task account response :=
  ⟨fun said => absurd (said.symm.trans failed) nofun, fun _ => .inl nothing⟩

theorem settles_refusal (failed : response.succeeded = false) (empty : known.1.pending = [])
    (nothing : known.2.done = .nothing) : Settles service task known (.returned response) := by
  refine ⟨fun _ same => ?_, nofun⟩
  cases same
  exact ⟨.inl empty, settled_of_empty empty ▸ reports_refusal failed nothing⟩

theorem errorResp_failed {code : StatusCode} {msg : String} (failure : code ≠ .success) :
    (errorResp req code msg).succeeded = false := by
  cases code <;> first | rfl | exact absurd rfl failure

theorem tryCatch_accounted {body : WorkerTask Response}
    (failed : response.succeeded = false)
    (settles : body.Meets (accountable service task) (Settles service task) known) :
    (tryCatch body fun _ => rollbackAndReply response).Meets (accountable service task)
      (Leaves service task (Reports service task)) known := by
  refine meets_tryCatch.mpr (settles.mono fun after outcome settles => ?_)
  cases outcome with
  | returned value =>
    refine leave_accounted (settles.1 value rfl).1 fun _ same => ?_
    cases same
    exact (settles.1 value rfl).2
  | raised what =>
    exact rollbackAndReply_accounted (reports_refusal failed (settles.2 what rfl))
  | terminated => exact nofun
  | undefined => exact nofun

theorem update_accounted {write : Write} {post : Known → Outcome α → Prop} {refused : Nat → Prop}
    [DecidablePred refused] {what : String} {next : PUnit → WorkerTask α}
    (checks : ∀ count, ¬ refused count → unexpected count write = false)
    (fails : ∀ phase what, post (phase, account) (.raised what))
    (passes : ∀ tables change count, write.change tables = .ok (change, count) → ¬ refused count →
      (next ⟨⟩).Meets (accountable service task) post
        (Phase.execute change ⟨.inTransaction pending, facts⟩, account)) :
    (executeUpdate write >>= fun count => throwIf (refused count) what >>= next).Meets
      (accountable service task) post (⟨.inTransaction pending, facts⟩, account) := by
  refine meets_call_then ⟨trivial, nofun⟩ (fun (count : Nat) later expected => ?_)
    fun _ later expected => ?_
  · obtain ⟨phase, after⟩ := later
    obtain ⟨expected, same⟩ := expected
    obtain rfl : after = account := same
    refine meets_throwIf_then (fun takes => ?_) fun _ => fails phase what
    obtain ⟨tables, change, changed, rfl⟩ := executed_of_accepted expected (checks count takes)
    exact passes tables change count changed takes
  · obtain ⟨phase, after⟩ := later
    obtain ⟨_, same⟩ := expected
    obtain rfl : after = account := same
    exact fails phase _

/-- A transaction that performs what the task asks for may be committed. -/
theorem mayCommit {operation : RoomOperation} (nothing : known.2.done = .nothing)
    (untold : known.2.told = []) (two : 2 ≤ known.1.pending.length) (asks : task.Asks service operation)
    (performs : Performs known.1.facts operation known.1.pending) : MayCommit service task known :=
  .inr ⟨nothing, untold, two, operation, asks, performs⟩

theorem reports_success {operation : RoomOperation} {changes : List Change} {message : String}
    {status : Nat} (asks : task.Asks service operation) (performs : Performs facts operation changes)
    (done : account.done = .committed changes) : Reports service task account
      (createJsonResponse status req (apiResponse .success message (operationData operation))) :=
  ⟨fun _ => ⟨operation, facts, changes, message, asks, performs, done, rfl⟩, nofun⟩

theorem nextId_accounted {next : UInt64 → WorkerTask Response}
    (draws : ∀ room, (next room).Meets (accountable service task) (Settles service task)
      (⟨.inTransaction pending, .drew room :: facts⟩, account)) (nothing : account.done = .nothing) :
    (nextId >>= next).Meets (accountable service task) (Settles service task)
      (⟨.inTransaction pending, facts⟩, account) := by
  refine meets_call_then ⟨trivial, trivial⟩ (fun (room : UInt64) later drawn => ?_) fun _ later failed => ?_
  · obtain ⟨phase, after⟩ := later
    obtain ⟨drawn, rfl⟩ := drawn
    obtain rfl : phase = _ := drawn
    exact draws room
  · exact settles_raised ((congrArg Account.done failed.2).trans nothing)

theorem insertGRoom_accounted : (insertGRoom service req).Meets
    (accountable service (.createGRoom req)) (Settles service (.createGRoom req))
    (⟨.autoCommit, facts⟩, {}) := by
  refine meets_ofExcept_then (fun jv parsed => ?_) fun _ _ => settles_raised rfl
  refine meets_ofExcept_then (fun createReq decoded => ?_) fun _ _ => settles_raised rfl
  refine begin_accounted ?_ fun _ => settles_raised rfl
  refine nextId_accounted (fun room => ?_) rfl
  refine meets_ofExcept_then (fun claims claimed => ?_) fun _ _ => settles_raised rfl
  refine update_accounted (fun count fine => by simpa [unexpected] using fine)
    (fun _ _ => settles_raised rfl) fun _ change count changed _ => ?_
  cases changed
  refine update_accounted (fun count fine => by simpa [unexpected] using fine)
    (fun _ _ => settles_raised rfl) fun _ change count changed _ => ?_
  obtain ⟨rfl, _, _⟩ := Write.change_insertMembers changed
  refine ⟨fun _ same => ?_, fun _ same => by cases same⟩
  cases same
  have asks : (Task.createGRoom req).Asks service (.openGroup room createReq.name claims.id) :=
    .createGRoom parsed decoded claimed
  have performs := @Performs.openGroup (.drew room :: facts) room claims.id createReq.name
    (List.mem_cons_self ..)
  exact ⟨mayCommit rfl rfl (Nat.le_refl _) asks performs, reports_success asks performs rfl⟩

theorem createGRoom_accounted : (createGRoom service req).Meets
    (accountable service (.createGRoom req)) (Gives (Reports service (.createGRoom req))) ({}, {}) := by
  unfold createGRoom
  split
  · intro _ same
    cases same
    exact reports_refusal rfl rfl
  · exact withConn_accounted (tryCatch_accounted rfl insertGRoom_accounted)

/-- What has been committed by hand is not committed again. -/
theorem commit_accounted {operation : RoomOperation} {message : String} {status : Nat}
    (nothing : known.2.done = .nothing) (untold : known.2.told = [])
    (two : 2 ≤ known.1.pending.length) (asks : task.Asks service operation) (performs : Performs known.1.facts operation known.1.pending) :
    (commit >>= fun _ => pure (createJsonResponse status req
      (apiResponse .success message (operationData operation)))).Meets (accountable service task)
      (Settles service task) known := by
  refine meets_call_then ⟨trivial, mayCommit nothing untold two asks performs⟩ (fun _ later done => ?_)
    fun _ later failed => ?_
  · have empty := pending_after_commit done.1.1
    refine ⟨fun _ same => ?_, fun _ same => by cases same⟩
    cases same
    refine ⟨.inl empty, settled_of_empty empty ▸ reports_success asks performs ?_⟩
    rw [done.2]
    change known.2.done.commit known.1.pending = _
    cases pending : known.1.pending with
    | nil => simp [pending] at two
    | cons change rest => rfl
  · exact settles_raised ((congrArg Account.done failed.2).trans nothing)

theorem insertPRoom_accounted : (insertPRoom service req).Meets
    (accountable service (.createPRoom req)) (Settles service (.createPRoom req))
    (⟨.autoCommit, facts⟩, {}) := by
  refine meets_ofExcept_then (fun jv parsed => ?_) fun _ _ => settles_raised rfl
  refine meets_ofExcept_then (fun createReq decoded => ?_) fun _ _ => settles_raised rfl
  refine begin_accounted ?_ fun _ => settles_raised rfl
  refine nextId_accounted (fun room => ?_) rfl
  refine meets_ofExcept_then (fun claims claimed => ?_) fun _ _ => settles_raised rfl
  refine update_accounted (fun count fine => by simpa [unexpected] using fine)
    (fun _ _ => settles_raised rfl) fun _ change count changed _ => ?_
  cases changed
  refine update_accounted (fun count fine => by simpa [unexpected] using fine)
    (fun _ _ => settles_raised rfl) fun _ change count changed _ => ?_
  obtain ⟨rfl, _, unique⟩ := Write.change_insertMembers changed
  have different : claims.id ≠ createReq.otherId := by
    rw [List.map_append, List.nodup_append] at unique
    simpa [MemberRow.key] using unique.2.1
  have asks : (Task.createPRoom req).Asks service (.openPair room claims.id createReq.otherId) :=
    .createPRoom parsed decoded claimed
  exact commit_accounted rfl rfl (Nat.le_refl _) asks (.openPair (List.mem_cons_self ..) different)

theorem createPRoom_accounted : (createPRoom service req).Meets
    (accountable service (.createPRoom req)) (Gives (Reports service (.createPRoom req))) ({}, {}) := by
  unfold createPRoom
  split
  · intro _ same
    cases same
    exact reports_refusal rfl rfl
  · exact withConn_accounted (tryCatch_accounted rfl insertPRoom_accounted)

theorem query_accounted {query : Query} {next : List query.Row → WorkerTask α}
    {post : Known → Outcome α → Prop}
    (answered : ∀ rows, (next rows).Meets (accountable service task) post
      (known.1.learn (learnt query rows), known.2))
    (throws : ∀ what, post known (.raised what)) :
    (executeQuery query >>= next).Meets (accountable service task) post known := by
  refine meets_call_then ⟨trivial, trivial⟩ (fun (rows : List query.Row) later asked => ?_)
    fun what later failed => ?_
  · obtain ⟨phase, after⟩ := later
    obtain ⟨asked, same⟩ := asked
    obtain rfl : phase = _ := asked
    obtain rfl : after = known.2 := same
    exact answered rows
  · obtain ⟨phase, after⟩ := later
    obtain ⟨same, unchanged⟩ := failed
    obtain rfl : phase = known.1 := same
    obtain rfl : after = known.2 := unchanged
    exact throws what

theorem deleteRows_accounted {claims : UserClaims}
    (claimed : service.jwt.extractUserClaims req.authorizationField = .ok claims)
    (owns : .wasOwner roomId claims.id ∈ facts) :
    (deleteRows req roomId).Meets (accountable service (.deleteRoom req roomId))
      (Settles service (.deleteRoom req roomId)) (⟨.inTransaction [], facts⟩, {}) := by
  refine update_accounted (fun count fine => by simpa [unexpected] using fine)
    (fun _ _ => settles_raised rfl) fun _ change count changed some => ?_
  obtain ⟨rows, rfl, nonempty, all⟩ := Write.change_deleteMembers some changed
  refine update_accounted (fun count fine => by simpa [unexpected] using fine)
    (fun _ _ => settles_raised rfl) fun _ change count changed some => ?_
  obtain rfl := Write.change_deleteRoom some changed
  have asks : (Task.deleteRoom req roomId).Asks service (.close roomId claims.id) := .deleteRoom claimed
  exact commit_accounted rfl rfl (Nat.le_refl _) asks (.close nonempty all owns)

theorem deleteRoom_accounted : (deleteRoom service req roomId).Meets
    (accountable service (.deleteRoom req roomId))
    (Gives (Reports service (.deleteRoom req roomId))) ({}, {}) := by
  refine withConn_accounted (begin_accounted ?_ fun what => leave_accounted (.inl rfl) nofun)
  refine tryCatch_accounted (errorResp_failed nofun) ?_
  refine meets_ofExcept_then (fun claims claimed => ?_) fun _ _ => settles_raised rfl
  refine query_accounted (fun (roles : List Int) => ?_) fun _ => settles_raised rfl
  cases roles with
  | nil => exact settles_refusal (errorResp_failed nofun) rfl rfl
  | cons role more =>
    by_cases owns : role = GroupRole.owner.code
    · subst owns
      dsimp only
      rw [if_neg (not_not_intro rfl)]
      exact deleteRows_accounted claimed (List.mem_cons_self ..)
    · dsimp only
      rw [if_pos owns]
      exact settles_refusal (errorResp_failed nofun) rfl rfl

/-- A reply that is not `Success` leaves nothing to commit. -/
theorem refuses_accounted (failed : response.succeeded = false) (empty : known.1.pending = [])
    (nothing : known.2.done = .nothing) :
    Leaves service task (Reports service task) known (.returned response) := by
  refine leave_accounted (.inl empty) fun _ same => ?_
  cases same
  exact settled_of_empty empty ▸ reports_refusal failed nothing

/-- The statement of an invitation, which is committed by itself. -/
theorem insertMember_accounted {invtReq : GRoomInvtReq} {message : String}
    (asks : (Task.inviteMember req roomId).Asks service (.invite roomId invtReq.inviteeId))
    (group : .wasGroup roomId ∈ facts) :
    (executeUpdate (.insertMembers
        [{ roomId, userId := invtReq.inviteeId, role := GroupRole.member.code }]) >>= fun updateRow =>
      if updateRow ≠ 1 then pure (badRequest req " Invite failed")
      else pure (createJsonResponse 200 req (apiResponse .success message .null))).Meets
      (accountable service (.inviteMember req roomId))
      (Leaves service (.inviteMember req roomId) (Reports service (.inviteMember req roomId)))
      (⟨.autoCommit, facts⟩, {}) := by
  refine meets_call_then ⟨trivial, fun _ => ⟨rfl, rfl, roomId, _, asks, group, rfl⟩⟩
    (fun (count : Nat) later expected => ?_) fun _ later failed => ?_
  · obtain ⟨phase, after⟩ := later
    obtain ⟨⟨_, change, _, how, _⟩, same⟩ := expected
    obtain rfl : phase = ⟨.autoCommit, facts⟩ := by
      rcases how with ⟨_, same⟩ | same
      · exact same.trans execute_autoCommit
      · exact same
    obtain rfl : after = _ := same
    by_cases one : count = 1
    · subst one
      rw [if_neg (not_not_intro rfl)]
      refine leave_accounted (.inl rfl) fun _ same => ?_
      cases same
      exact reports_success asks (.invite group) rfl
    · rw [if_pos one]
      refine leave_accounted (.inl rfl) fun _ same => ?_
      cases same
      exact ⟨nofun, fun _ => .inr ⟨req, roomId, rfl, rfl⟩⟩
  · obtain ⟨phase, after⟩ := later
    obtain ⟨same, unchanged⟩ := failed
    obtain rfl : phase = _ := same
    obtain rfl : after = _ := unchanged
    exact leave_accounted (.inl rfl) nofun

theorem inviteMember_accounted : (inviteMember service req roomId).Meets
    (accountable service (.inviteMember req roomId))
    (Gives (Reports service (.inviteMember req roomId))) ({}, {}) := by
  unfold inviteMember
  split
  · intro _ same
    cases same
    exact reports_refusal rfl rfl
  refine meets_ofExcept_then (fun jv parsed => ?_) fun _ _ => gives_raised
  refine meets_ofExcept_then (fun invtReq decoded => ?_) fun _ _ => gives_raised
  refine withConn_accounted (meets_ofExcept_then (fun claims _ => ?_) fun _ _ =>
    leave_accounted (.inl rfl) nofun)
  refine query_accounted (fun (types : List Int) => ?_) fun _ => leave_accounted (.inl rfl) nofun
  cases types with
  | nil => exact refuses_accounted (errorResp_failed nofun) rfl rfl
  | cons type more =>
    by_cases isGroup : type = RoomType.group.code
    · subst isGroup
      dsimp only
      rw [if_neg (not_not_intro rfl)]
      exact insertMember_accounted (.inviteMember parsed decoded) (List.mem_cons_self ..)
    · dsimp only
      rw [if_pos isGroup]
      exact refuses_accounted (errorResp_failed nofun) rfl rfl

section Messages

variable {text content : String} {userClaims : UserClaims}

/-- Nothing is pending when the `try` block of a message is left. -/
def Closed (known : Known) (outcome : Outcome α) : Prop :=
  ∀ value, outcome = .returned value → known.1.pending = []

theorem closed_raised {what : String} : Closed known (.raised what : Outcome α) := by
  intro value same
  cases same

/-- A user is told something that is true and that nobody has been told yet. -/
theorem writeTo_accounted {user : UInt64} {msg : Json} {next : PUnit → WorkerTask α}
    (untold : msg ∉ known.2.told) (announces : Announces service task known.2 (.writeTo user msg))
    (later : (next ⟨⟩).Meets (accountable service task) Closed
      (known.1, { known.2 with told := known.2.told ++ [msg] })) :
    (writeTo user msg >>= next).Meets (accountable service task) Closed known := by
  refine meets_call_then ⟨trivial, untold, announces⟩ (fun _ after told => ?_) fun _ _ _ => closed_raised
  obtain ⟨phase, account⟩ := after
  obtain ⟨same, told⟩ := told
  obtain rfl : phase = known.1 := same
  obtain rfl : account = _ := told
  exact later

/-- A message that has been stored, with what a reply may say of it. -/
def Stored (service : Service) (task : Task) (roomId author : UInt64) (content : String)
    (known : Known) (outcome : Outcome Bool) : Prop :=
  ∀ stored, outcome = .returned stored → known.1.pending = [] ∧ (stored = true →
    known.2.told = [] ∧ ∃ id facts changes, task.Asks service (.post ⟨roomId, author, (id, content)⟩) ∧
      Performs facts (.post ⟨roomId, author, (id, content)⟩) changes ∧
      known.2.done = .committed changes)

theorem stored_raised {author : UInt64} {content what : String} :
    Stored service task roomId author content known (.raised what) := by
  intro stored same
  cases same

theorem storeMessage_accounted {insertFailed updateFailed : String}
    (asks : ∀ id, (Task.handleMessage text userClaims).Asks service
      (.post ⟨roomId, userClaims.id, (id, content)⟩)) :
    (storeMessage roomId content userClaims insertFailed updateFailed).Meets
      (accountable service (.handleMessage text userClaims))
      (Stored service (.handleMessage text userClaims) roomId userClaims.id content)
      (⟨.inTransaction [], facts⟩, {}) := by
  refine query_accounted (fun (members : List Unit) => ?_) fun _ => stored_raised
  cases members with
  | nil =>
    refine meets_call_then ⟨trivial, List.not_mem_nil, .permissionDenied rfl rfl⟩ (fun _ later told => ?_)
      fun _ _ _ => stored_raised
    obtain ⟨phase, account⟩ := later
    obtain rfl : phase = _ := told.1
    intro stored same
    cases same
    exact ⟨rfl, fun said => by cases said⟩
  | cons member more =>
    refine meets_call_then ⟨trivial, trivial⟩ (fun (msgId : UInt64) later drawn => ?_) fun _ _ _ => stored_raised
    obtain ⟨phase, account⟩ := later
    obtain ⟨drawn, rfl⟩ := drawn
    obtain rfl : phase = _ := drawn
    refine update_accounted (fun count fine => by simpa [unexpected] using fine)
      (fun _ _ => stored_raised) fun _ change count changed _ => ?_
    cases changed
    refine update_accounted (fun count fine => by simpa [unexpected] using fine)
      (fun _ _ => stored_raised) fun _ change count changed one => ?_
    obtain rfl := Write.change_setLastMessage (by simp_all) changed
    have performs := @Performs.post (.drew msgId :: [.wasMember roomId userClaims.id] ++ facts)
      ⟨roomId, userClaims.id, (msgId, content)⟩ (by simp) (by simp)
    refine meets_call_then ⟨trivial, mayCommit rfl rfl (Nat.le_refl _) (asks msgId) performs⟩
      (fun _ later done => ?_) fun _ _ _ => stored_raised
    intro stored _
    refine ⟨pending_after_commit done.1.1, fun _ => ?_⟩
    rw [done.2]
    exact ⟨rfl, msgId, _, _, asks msgId, performs, rfl⟩

/-- What follows a message is only done if it is stored. -/
theorem stored_accounted {insertFailed updateFailed : String} {next : Bool → WorkerTask PUnit}
    (asks : ∀ id, (Task.handleMessage text userClaims).Asks service
      (.post ⟨roomId, userClaims.id, (id, content)⟩))
    (tells : ∀ (known : Known) id facts changes, known.1.pending = [] → known.2.told = [] →
      (Task.handleMessage text userClaims).Asks service (.post ⟨roomId, userClaims.id, (id, content)⟩) →
      Performs facts (.post ⟨roomId, userClaims.id, (id, content)⟩) changes →
      known.2.done = .committed changes →
      (next true).Meets (accountable service (.handleMessage text userClaims)) Closed known)
    (silent : next false = pure ⟨⟩) :
    (storeMessage roomId content userClaims insertFailed updateFailed >>= next).Meets
      (accountable service (.handleMessage text userClaims)) Closed (⟨.inTransaction [], facts⟩, {}) := by
  refine meets_bind.mpr ((storeMessage_accounted asks).mono fun after outcome stored => ?_)
  cases outcome with
  | returned value =>
    obtain ⟨empty, stored⟩ := stored value rfl
    cases value with
    | false =>
      change (next false).Meets _ _ _
      rw [silent]
      exact fun _ _ => empty
    | true =>
      obtain ⟨untold, id, facts, changes, asks, performs, done⟩ := stored rfl
      exact tells after id facts changes empty untold asks performs done
  | raised what => exact closed_raised
  | terminated => exact nofun
  | undefined => exact nofun

theorem privateMessage_accounted {jv data : Json} {obj : List (String × Json)}
    (parsed : service.parse text = .ok jv) (typed : messageType jv = .ok (obj, "private_message"))
    (has : Json.member "data" obj = .ok data) : (privateMessage data userClaims).Meets
      (accountable service (.handleMessage text userClaims)) Closed (⟨.inTransaction [], facts⟩, {}) := by
  refine meets_ofExcept_then (fun privateMsg decoded => ?_) fun _ _ => closed_raised
  refine stored_accounted (fun id => .privateMessage parsed typed has decoded)
    (fun known id facts changes empty untold asks performs done => ?_) rfl
  refine writeTo_accounted (by simp [untold]) (.privateMsg asks performs done) ?_
  rw [untold]
  refine meets_perform.mpr ⟨⟨trivial, ?_, .msgSentInfo asks performs done⟩, fun _ after told => ?_,
    fun _ _ _ => closed_raised⟩
  · exact fun again => serverRespMsg_ne (by decide) (List.mem_singleton.mp again)
  · intro _ _
    rw [show after.1 = known.1 from told.1]
    exact empty

theorem groupMessage_accounted {jv data : Json} {obj : List (String × Json)}
    (parsed : service.parse text = .ok jv) (typed : messageType jv = .ok (obj, "group_message"))
    (has : Json.member "data" obj = .ok data) : (groupMessage data userClaims).Meets
      (accountable service (.handleMessage text userClaims)) Closed (⟨.inTransaction [], facts⟩, {}) := by
  refine meets_ofExcept_then (fun groupMsg decoded => ?_) fun _ _ => closed_raised
  refine stored_accounted (fun id => .groupMessage parsed typed has decoded)
    (fun known id facts changes empty untold asks performs done => ?_) rfl
  refine meets_call_then ⟨trivial, trivial⟩ (fun (users : List UInt64) later heard => ?_) fun _ _ _ => closed_raised
  obtain ⟨phase, account⟩ := later
  obtain ⟨same, listed⟩ := heard
  obtain rfl : phase = known.1 := same
  obtain rfl : account = _ := listed
  refine meets_perform.mpr ⟨⟨trivial, ?_, .groupMsg asks performs done rfl⟩, fun _ after told => ?_,
    fun _ _ _ => closed_raised⟩
  · simp [accountAfter, toldAfter, untold]
  · intro _ _
    rw [show after.1 = known.1 from told.1]
    exact empty

theorem handleMessage_accounted : (handleMessage service text userClaims).Meets
    (accountable service (.handleMessage text userClaims)) (Gives fun _ _ => True) ({}, {}) := by
  refine withConn_accounted (begin_accounted ?_ fun what => leave_accounted (.inl rfl) fun _ _ => trivial)
  refine meets_tryCatch.mpr (Meets.mono ?_ fun after outcome (closed : Closed after outcome) => ?_)
  · refine meets_ofExcept_then (fun jv parsed => ?_) fun _ _ => closed_raised
    refine meets_ofExcept_then (fun typed same => ?_) fun _ _ => closed_raised
    obtain ⟨obj, type⟩ := typed
    refine meets_ite (fun kind => ?_) fun _ => meets_ite (fun kind => ?_) fun _ => fun _ _ => rfl
    · subst kind
      exact meets_ofExcept_then (fun data has => privateMessage_accounted parsed same has)
        fun _ _ => closed_raised
    · subst kind
      exact meets_ofExcept_then (fun data has => groupMessage_accounted parsed same has)
        fun _ _ => closed_raised
  · cases outcome with
    | returned value => exact leave_accounted (.inl (closed value rfl)) fun _ _ => trivial
    | raised what =>
      exact rollback_accounted.mono fun _ _ undone => leave_accounted (.inl undone.1) fun _ _ => trivial
    | terminated => exact fun _ same => by cases same
    | undefined => exact fun _ same => by cases same

end Messages

/-- A task that has replied gives a true account in its reply. -/
def Accounts (service : Service) (task : Task) (known : Known) (outcome : Outcome (Option Response)) :
    Prop :=
  ∀ response, outcome = .returned (some response) → Reports service task known.2 response

private theorem map_accounts {program : WorkerTask Response}
    (meets : program.Meets (accountable service task) (Gives (Reports service task)) known) :
    (some <$> program).Meets (accountable service task) (Accounts service task) known := by
  refine meets_map.mpr (meets.mono fun after outcome gives => ?_)
  cases outcome with
  | returned value =>
    intro response same
    cases same
    exact gives value rfl
  | raised what => exact nofun
  | terminated => exact nofun
  | undefined => exact nofun

/-- Every task keeps to the protocol, does only what it is asked for, tells the truth about
it, and says in its reply what it has done. -/
theorem task_accounted : (task.program service).Meets (requested service task)
    (Accounts service task) ({}, {}) := by
  have accounts : (task.program service).Meets (accountable service task)
      (Accounts service task) ({}, {}) := by
    cases task with
    | createGRoom req => exact map_accounts createGRoom_accounted
    | createPRoom req => exact map_accounts createPRoom_accounted
    | inviteMember req roomId => exact map_accounts inviteMember_accounted
    | deleteRoom req roomId => exact map_accounts deleteRoom_accounted
    | handleMessage text userClaims =>
      refine meets_map.mpr (handleMessage_accounted.mono fun after outcome _ => ?_)
      cases outcome <;> exact nofun
  have follows : (task.program service).Meets (calm True) (fun _ _ => True) {} :=
    meets_calm (task_follows fun _ => trivial)
  exact (follows.recording.narrow accounts).mono fun _ _ both => both.2

end Tasks

end TinyChat.Core
