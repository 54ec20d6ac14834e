import TinyChat.Core.RoomKnowledge

/-! To whom the content of a stored message is forwarded. The recipients of a group
message are read from `room_members`; that of a private message is named by the client,
and nothing compares it with the members of the room. -/
namespace TinyChat.Core

open TinyChat.Db TinyChat.Effect TinyChat.Text TinyChat.Transition TinyChat.Utils
open Program

theorem groupMsgToSend_room {roomId other senderId sender : UInt64} {content text : String}
    (same : groupMsgToSend roomId senderId content = groupMsgToSend other sender text) :
    roomId = other := by
  simp only [groupMsgToSend, serverRespMsg, Json.object.injEq, List.cons.injEq, Prod.mk.injEq,
    Json.string.injEq, true_and, and_true] at same
  exact toDecimal_injective same.1

/-- The type of a message tells the kinds apart. -/
theorem serverRespMsg_ne {first second : ServerRespType} {data other : Json}
    (different : first.code ≠ second.code) : serverRespMsg first data ≠ serverRespMsg second other := by
  simp [serverRespMsg, different]

/-- Who is sent the content of a message of a room was a member of it when the recipients
were determined. -/
structure Delivery.Confidential (delivery : Delivery) : Prop where
  privateMsg : ∀ roomId content, delivery.msg = privateMsgToSend roomId content →
    delivery.according.HasMember roomId delivery.user
  groupMsg : ∀ roomId senderId content, delivery.msg = groupMsgToSend roomId senderId content →
    delivery.according.HasMember roomId delivery.user

/-- The latest answer of a thread to the query of `write_to_room`. -/
abbrev Heard : Type := Option (UInt64 × List UInt64)

def heardAfter (heard : Heard) : (op : Op) → Except String op.Result → Heard
  | .lookup (.roomMembers roomId), .ok (users : List UInt64) => some (roomId, users)
  | .lookup _, .ok _ => none
  | _, _ => heard

/-- Group messages only go to the users that the query has listed. -/
def telling : Contract Op Op.Result Heard where
  permitted heard
    | .writeTo _ msg => ∀ roomId senderId content, msg ≠ groupMsgToSend roomId senderId content
    | .writeToAll users msg => ∃ roomId senderId content,
        msg = groupMsgToSend roomId senderId content ∧ heard = some (roomId, users)
    | _ => True
  expected heard op answer later := later = heardAfter heard op answer

section Tasks

variable {service : Service} {req : Request} {roomId : UInt64} {userClaims : UserClaims}

theorem obeys_executeUpdate {write : Write} : (executeUpdate write).Obeys telling :=
  obeys_perform fun _ => trivial

theorem telling_governs : GovernsRooms telling where
  quiet state op quiet := by
    cases op <;> trivial
  registers := fun _ _ _ _ _ _ => trivial

theorem telling_fills : Fills telling roomId where
  room := fun _ _ => obeys_executeUpdate
  members := fun _ _ => obeys_executeUpdate

theorem deleteRoom_obeys : (deleteRoom service req roomId).Obeys telling := by
  apply obeys_withConn (fun _ => trivial) (fun _ => trivial)
  refine obeys_bind (obeys_perform fun _ => trivial) fun _ => ?_
  refine obeys_tryCatch ?_ fun _ => telling_governs.rollbackAndReply
  apply obeys_bind obeys_ofExcept
  intro claims
  apply obeys_bind (obeys_perform fun _ => trivial)
  intro roles
  split
  swap
  · exact obeys_done
  split
  · exact obeys_done
  · exact telling_governs.deleteRows obeys_executeUpdate obeys_executeUpdate

theorem inviteMember_obeys : (inviteMember service req roomId).Obeys telling := by
  unfold inviteMember
  split
  · exact obeys_done
  refine obeys_bind obeys_ofExcept fun jv => obeys_bind obeys_ofExcept fun invtReq => ?_
  apply obeys_withConn (fun _ => trivial) (fun _ => trivial)
  refine obeys_bind obeys_ofExcept fun claims => ?_
  apply obeys_bind (obeys_perform fun _ => trivial)
  intro types
  split
  · exact obeys_done
  split
  · exact obeys_done
  apply obeys_bind obeys_executeUpdate
  intro _
  split <;> exact obeys_done

/-- To tell a user anything but a group message is permitted at any time. -/
theorem writeTo_obeys {user : UInt64} {type : ServerRespType} {data : Json}
    (different : type.code ≠ ServerRespType.gMsgToSend.code) :
    (writeTo user (serverRespMsg type data)).Obeys telling :=
  obeys_perform fun _ _ _ _ => serverRespMsg_ne different

theorem writeToRoom_obeys {senderId : UInt64} {content : String} :
    (writeToRoom roomId (groupMsgToSend roomId senderId content)).Obeys telling := by
  intro heard
  refine meets_call_then trivial (fun (users : List UInt64) later listed => ?_) fun _ _ _ => trivial
  refine meets_perform.mpr ⟨⟨roomId, senderId, content, rfl, listed⟩, ?_, ?_⟩
  · exact fun _ _ _ => trivial
  · exact fun _ _ _ => trivial

theorem storeMessage_obeys {content insertFailed updateFailed : String} :
    (storeMessage roomId content userClaims insertFailed updateFailed).Obeys telling := by
  apply obeys_bind (obeys_perform fun _ => trivial)
  intro members
  split
  · exact obeys_bind (writeTo_obeys (by decide)) fun _ => obeys_done
  apply obeys_bind (obeys_perform fun _ => trivial)
  intro msgId
  refine obeys_bind obeys_executeUpdate fun _ => obeys_bind obeys_throwIf fun _ => ?_
  refine obeys_bind obeys_executeUpdate fun _ => obeys_bind obeys_throwIf fun _ => ?_
  exact obeys_bind (obeys_perform fun _ => trivial) fun _ => obeys_done

theorem handleMessage_obeys {msg : String} : (handleMessage service msg userClaims).Obeys telling := by
  apply obeys_withConn (fun _ => trivial) (fun _ => trivial)
  refine obeys_bind (obeys_perform fun _ => trivial) fun _ => ?_
  refine obeys_tryCatch ?_ fun _ => obeys_perform fun _ => trivial
  refine obeys_bind obeys_ofExcept fun jv => obeys_bind obeys_ofExcept fun typed => ?_
  obtain ⟨obj, type⟩ := typed
  dsimp only
  split
  · refine obeys_bind obeys_ofExcept fun data => obeys_bind obeys_ofExcept fun privateMsg => ?_
    apply obeys_bind storeMessage_obeys
    intro stored
    split
    · exact obeys_bind (writeTo_obeys (by decide)) fun _ => writeTo_obeys (by decide)
    · exact obeys_done
  split
  · refine obeys_bind obeys_ofExcept fun data => obeys_bind obeys_ofExcept fun groupMsg => ?_
    apply obeys_bind storeMessage_obeys
    intro stored
    split
    · exact writeToRoom_obeys
    · exact obeys_done
  · exact obeys_done

theorem task_obeys {task : Task} : (task.program service).Obeys telling := by
  cases task with
  | createGRoom req => exact obeys_map (telling_governs.createGRoom fun _ _ _ _ => telling_fills)
  | createPRoom req => exact obeys_map (telling_governs.createPRoom fun _ _ _ _ => telling_fills)
  | inviteMember req roomId => exact obeys_map inviteMember_obeys
  | deleteRoom req roomId => exact obeys_map deleteRoom_obeys
  | handleMessage msg userClaims => exact obeys_map handleMessage_obeys

end Tasks

/-- What a thread has heard is its latest lookup. -/
def Heard.Holds (thread : Nat) (heard : Heard) (backend : Backend) : Prop :=
  ∀ roomId users, heard = some (roomId, users) → ∃ tables,
    backend.lookups.lookup thread = some tables ∧
      users = (tables.membersOf roomId).map MemberRow.userId

section Calls

variable {backend next : Backend} {thread other : Nat} {op : Op} {choice : Choice}
variable {answer : Except String op.Result} {heard : Heard}

theorem nextId_silent {result : Except String UInt64}
    (drawn : backend.nextId thread = some (result, next)) :
    next.sent = backend.sent ∧ next.lookups = backend.lookups := by
  obtain ⟨_, _, _, rfl⟩ := Backend.nextId_eq_some drawn
  exact ⟨rfl, rfl⟩

/-- Users are told things as in the ordinary course, and by no other call. -/
structure TellsAlike (serve : Serve Op Op.Result Backend Choice) : Prop where
  tells : ∀ {backend thread op choice}, op.Tells →
    serve backend thread op choice = backend.call thread op choice
  silent : ∀ {backend thread op choice answer next}, ¬ op.Tells →
    serve backend thread op choice = some (answer, next) →
    next.sent = backend.sent ∧ next.lookups = backend.lookups

theorem call_tells : TellsAlike Backend.call where
  tells _ := rfl
  silent {backend thread op choice answer next} silent served := by
    by_cases draws : op = .nextId
    · subst draws
      cases Backend.calls_of_call served with
      | nextId done => exact nextId_silent done
      | throws may => exact ⟨rfl, rfl⟩
    · rw [Backend.call_frame silent draws served]
      exact ⟨rfl, rfl⟩

theorem serve_tells : TellsAlike Backend.serve where
  tells {backend thread op choice} tells := by
    apply Backend.serve_eq_call <;> cases op <;> first | rfl | exact absurd tells id
  silent {backend thread op choice answer next} silent served := by
    by_cases draws : op = .nextId
    · subst draws
      rw [Backend.serve_eq_call rfl rfl] at served
      exact call_tells.silent silent served
    · rw [Backend.serve_frame silent draws served]
      exact ⟨rfl, rfl⟩

theorem heardAfter_silent (silent : ¬ op.Tells) : heardAfter heard op answer = heard := by
  cases op <;> first | rfl | exact absurd trivial silent

theorem heardAfter_error {what : String} : heardAfter heard op (.error what) = heard := by
  cases op with
  | lookup query => cases query <;> rfl
  | _ => rfl

theorem Heard.Holds.of_lookups (holds : heard.Holds other backend)
    (same : next.lookups = backend.lookups) : heard.Holds other next := by
  intro roomId users known
  rw [same]
  exact holds roomId users known

theorem lookup_answered {query : Query} {result : Except String (List query.Row)}
    (served : backend.lookup thread query = some (result, next)) :
    (heardAfter heard (.lookup query) result).Holds thread next ∧
      ∀ known : Heard, other ≠ thread → known.Holds other backend → known.Holds other next := by
  cases served
  constructor
  · intro roomId users known
    refine ⟨backend.store.tables, by simp, ?_⟩
    cases query with
    | roomMembers room =>
      cases known
      rfl
    | _ => cases known
  · intro known different holds roomId users same
    obtain ⟨tables, found, listed⟩ := holds roomId users same
    refine ⟨tables, ?_, listed⟩
    rw [List.lookup_cons, beq_false_of_ne different]
    exact found

theorem telling_keeps {serve : Serve Op Op.Result Backend Choice} (alike : TellsAlike serve) :
    Keeps telling (fun thread heard backend => heard.Holds thread backend) (fun _ => True) serve where
  own {backend thread heard op choice answer next} _ holds permitted served := by
    refine ⟨heardAfter heard op answer, rfl, ?_⟩
    by_cases tells : op.Tells
    · rw [alike.tells tells] at served
      cases Backend.calls_of_call served with
      | lookup done => exact (@lookup_answered backend next thread thread heard _ _ done).1
      | writeTo done => cases done; exact holds
      | writeToAll done => cases done; exact holds
      | throws may => exact heardAfter_error ▸ holds
      | _ => exact absurd tells id
    · rw [heardAfter_silent tells]
      exact holds.of_lookups (alike.silent tells served).2
  others {backend thread heard op choice answer next other known} _ _ _ served different holds := by
    by_cases tells : op.Tells
    · rw [alike.tells tells] at served
      cases Backend.calls_of_call served with
      | lookup done => exact (@lookup_answered backend next thread other none _ _ done).2 known different holds
      | writeTo done => cases done; exact holds
      | writeToAll done => cases done; exact holds
      | throws may => exact holds
      | _ => exact absurd tells id
    · exact holds.of_lookups (alike.silent tells served).2
  valid _ _ _ _ := trivial

/-- A call only adds private messages for users who are told them although they are no
members of the room. -/
theorem confidential_serve_iff (sofar : ∀ delivery ∈ backend.sent, delivery.Confidential)
    (holds : heard.Holds thread backend) (permitted : telling.permitted heard op)
    (served : backend.serve thread op choice = some (answer, next)) :
    (∀ delivery ∈ next.sent, delivery.Confidential) ↔
      ∀ user users msg, op = .writeTo user msg → choice = .online users → user ∈ users →
        ∀ roomId content, msg = privateMsgToSend roomId content →
          backend.store.tables.HasMember roomId user := by
  by_cases tells : op.Tells
  swap
  · rw [(serve_tells.silent tells served).1]
    apply iff_of_true sofar
    intro user users msg same
    exact absurd (same ▸ trivial) tells
  rw [serve_tells.tells tells] at served
  cases Backend.calls_of_call served with
  | lookup done => cases done; exact iff_of_true sofar nofun
  | throws may => exact iff_of_true sofar nofun
  | @writeTo user users msg _ _ done =>
    cases done
    constructor
    · intro confidential _ _ _ sameOp sameChoice online roomId content told
      cases sameOp
      cases sameChoice
      have added : (⟨thread, user, msg, backend.store.tables⟩ : Delivery) ∈ backend.sent ++
          ([user].filter (· ∈ users)).map fun user => ⟨thread, user, msg, backend.store.tables⟩ :=
        List.mem_append_right _ (by simp [online])
      exact (confidential _ added).privateMsg roomId content told
    · intro members delivery member
      rcases List.mem_append.mp member with earlier | new
      · exact sofar delivery earlier
      · obtain ⟨recipient, chosen, rfl⟩ := List.mem_map.mp new
        obtain ⟨same, online⟩ := List.mem_filter.mp chosen
        obtain rfl := List.mem_singleton.mp same
        exact ⟨fun roomId content told =>
            members _ users msg rfl rfl (of_decide_eq_true online) roomId content told,
          fun roomId senderId content told => absurd told (permitted roomId senderId content)⟩
  | @writeToAll users there msg _ _ done =>
    cases done
    refine iff_of_true (fun delivery member => ?_) nofun
    obtain ⟨roomId, senderId, content, rfl, known⟩ := permitted
    obtain ⟨tables, found, rfl⟩ := holds roomId users known
    rcases List.mem_append.mp member with earlier | new
    · exact sofar delivery earlier
    obtain ⟨recipient, chosen, rfl⟩ := List.mem_map.mp new
    have read : backend.lookedUp thread = tables := by simp [Backend.lookedUp, found]
    have listed : tables.HasMember roomId recipient := by
      obtain ⟨row, there, same⟩ := List.mem_map.mp (List.mem_filter.mp chosen).1
      obtain ⟨row_mem, room⟩ := List.mem_filter.mp there
      exact ⟨row, row_mem, of_decide_eq_true room, same⟩
    constructor
    · intro room text told
      exact absurd told.symm (serverRespMsg_ne (by decide))
    · intro room sender text told
      rw [← groupMsgToSend_room told, read]
      exact listed
  | _ => exact absurd tells id

end Calls

/-- A private message is only forwarded to a user with a session who is a member of its
room just then. -/
def ForwardsToMember {α : Type} (threads : Threads Op Op.Result Backend (Option Response))
    (move : Move α Choice) : Prop :=
  ∀ thread user users msg next, move = .step thread (.online users) →
    threads.programs[thread]? = some (.call (.writeTo user msg) next) → user ∈ users →
      ∀ roomId content, msg = privateMsgToSend roomId content →
        threads.shared.store.tables.HasMember roomId user

/-- All tasks about rooms and their messages, with all that may go wrong. -/
abbrev anyTask (service : Service) :
    Machine (Threads Op Op.Result Backend (Option Response)) (Move { _task : Task // True } Choice) :=
  roomMachine Backend.serve service fun _ => True

section Runs

variable {service : Service} {initial : Tables} {generator : Generator}
variable {threads after : Threads Op Op.Result Backend (Option Response)}
variable {moves : List (Move { _task : Task // True } Choice)}
variable {move : Move { _task : Task // True } Choice}

theorem telling_covered
    (ran : (anyTask service).run (Backend.start initial generator) moves = some after) :
    Covered telling (fun thread heard backend => heard.Holds thread backend) (fun _ => True) none
      (fun _ _ => True) after :=
  Covered.run (telling_keeps serve_tells) (fun _ => task_obeys none) ran
    (covered_initial trivial fun _ => nofun)

/-- One step keeps the messages confidential if and only if it does not forward one to
a user outside its room. -/
theorem confidential_step_iff
    (covered : Covered telling (fun thread heard backend => heard.Holds thread backend)
      (fun _ => True) none (fun _ _ => True) threads)
    (sofar : ∀ delivery ∈ threads.shared.sent, delivery.Confidential)
    (taken : (anyTask service).step threads move = some after) :
    (∀ delivery ∈ after.shared.sent, delivery.Confidential) ↔ ForwardsToMember threads move := by
  cases move with
  | start task =>
    cases taken
    exact iff_of_true sofar nofun
  | step thread choice =>
    obtain ⟨op, rest, answer, found, served, _⟩ := interleaving_step taken
    obtain ⟨heard, holds, permitted, _⟩ := covered.next_call found
    rw [confidential_serve_iff sofar holds permitted served]
    constructor
    · intro members other user users msg next same calls
      cases same
      cases found.symm.trans calls
      exact members user users msg rfl rfl
    · intro members user users msg sameOp sameChoice
      subst sameOp
      subst sameChoice
      exact members thread user users msg rest rfl found

/-- In every run, whoever is sent the content of a message of a room is a member of it
when the recipients are determined, if and only if no private message is forwarded to a
user who is not. -/
theorem forwarding_confidential_iff
    (ran : (anyTask service).run (Backend.start initial generator) moves = some after) :
    (anyTask service).Throughout
        (fun _ threads => ∀ delivery ∈ threads.shared.sent, delivery.Confidential)
        (Backend.start initial generator) moves ↔
      (anyTask service).Allowed (fun _ => ForwardsToMember) (Backend.start initial generator) moves :=
  Machine.throughout_iff_allowed ran nofun fun _ _ _ _ reached sofar taken =>
    confidential_step_iff (telling_covered reached) sofar taken

/-- User 1 opens a private room with user 2 and writes into it, but to user 9. -/
private def misdirecting : List (Move { _task : Task // True } Choice) :=
  [.start ⟨.createPRoom (sampleRequest .post "/api/private_room" "1" "other 2"), trivial⟩,
    .start ⟨.handleMessage "private 1 to 9" ⟨1, "1"⟩, trivial⟩] ++
  stepsOf 0 (List.replicate 7 .returns) ++
  stepsOf 1 [.returns, .returns, .reads 0, .returns, .returns, .returns, .returns, .online [9]]

theorem forwarding_confidential_iff_misdirecting :
    (anyTask sampleService).Throughout
        (fun _ threads => ∀ delivery ∈ threads.shared.sent, delivery.Confidential)
        (Backend.start {} (sampleGenerator 2)) misdirecting ↔
      (anyTask sampleService).Allowed (fun _ => ForwardsToMember)
        (Backend.start {} (sampleGenerator 2)) misdirecting := by
  have ran : ((anyTask sampleService).run (Backend.start {} (sampleGenerator 2))
    misdirecting).isSome := by decide +kernel
  exact forwarding_confidential_iff (Option.some_get ran).symm

private def misdirected : Tables :=
  { rooms := [{ id := 1, name := none, type := RoomType.privateRoom.code, ownerId := none
                lastMessageId := some 2 }]
    members := [{ roomId := 1, userId := 1, role := GroupRole.privateMember.code },
      { roomId := 1, userId := 2, role := GroupRole.privateMember.code }]
    messages := [{ id := 2, roomId := 1, senderId := 1, content := "hello" }] }

/-- User 9 is sent the content of the message, and the members of its room are the users 1
and 2. -/
theorem private_message_misdirected :
    ∃ final, (anyTask sampleService).run (Backend.start {} (sampleGenerator 2)) misdirecting =
        some final ∧
      final.shared.sent = [⟨1, 9, privateMsgToSend 1 "hello", misdirected⟩] ∧
      ¬ ∀ delivery ∈ final.shared.sent, delivery.Confidential := by
  have ran : ((anyTask sampleService).run (Backend.start {} (sampleGenerator 2)) misdirecting).map
      (fun final => final.shared.sent) =
        some [⟨1, 9, privateMsgToSend 1 "hello", misdirected⟩] := by rfl
  obtain ⟨final, reached, sent⟩ := Option.map_eq_some_iff.mp ran
  refine ⟨final, reached, sent, fun confidential => ?_⟩
  have member := (confidential _ (sent ▸ List.mem_singleton.mpr rfl)).privateMsg 1 "hello" rfl
  simp [Tables.HasMember, misdirected] at member

end Runs

end TinyChat.Core
