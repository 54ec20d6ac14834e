import TinyChat.Core.HandlerPaths
import TinyChat.Core.WSHandler

/-! The ids on their way out of the server and back into it: responses, messages and
tokens carry them as texts, and paths, requests, messages and tokens bring them back. -/
namespace TinyChat.Core

open TinyChat.Effect TinyChat.Text
open Program

section Encoders

structure CreateGRoomResp where
  roomId : UInt64

def CreateGRoomResp.valueFrom (resp : CreateGRoomResp) : Json :=
  .object [("room_id", .string (toDecimal resp.roomId))]

structure CreatePRoomResp where
  roomId : UInt64

def CreatePRoomResp.valueFrom (resp : CreatePRoomResp) : Json :=
  .object [("room_id", .string (toDecimal resp.roomId))]

/-- Where the server writes an id, with what it writes beside it. -/
inductive IdSource where
  | createGRoomResp
  | createPRoomResp
  | privateMsgRoom (content : String)
  | groupMsgRoom (senderId : UInt64) (content : String)
  | groupMsgSender (roomId : UInt64) (content : String)
  | user (username nickname email avatarUrl createdAt : String)
  | tokenSubject (username : String) (time : Int)

/-- The member of an object, as a text. -/
def textOf (key : String) (jv : Json) : Except String String := do
  Json.stringMember key (← jv.asObject)

/-- The member of the `data` of a `ServerRespMsg`, as a text. -/
def textOfData (key : String) (msg : Json) : Except String String := do
  textOf key (← Json.member "data" (← msg.asObject))

/-- The text that is written for the id. -/
def IdSource.emit (id : UInt64) : IdSource → Except String String
  | createGRoomResp => textOf "room_id" (CreateGRoomResp.valueFrom ⟨id⟩)
  | createPRoomResp => textOf "room_id" (CreatePRoomResp.valueFrom ⟨id⟩)
  | privateMsgRoom content => textOfData "private_room_id" (privateMsgToSend id content)
  | groupMsgRoom senderId content => textOfData "room_id" (groupMsgToSend id senderId content)
  | groupMsgSender roomId content => textOfData "sender_id" (groupMsgToSend roomId id content)
  | user username nickname email avatarUrl createdAt =>
    textOf "id" (userJson id username nickname email avatarUrl createdAt)
  | tokenSubject username time =>
    Json.stringMember "sub" ({ username, id, time } : Login).builder.payload

end Encoders

section Replies

variable {service : Service} {req : Request} {data : UInt64 → Json} {drawn : Option UInt64}

/-- A record of the latest id that `next_id` has given. -/
def drawing : Contract Op Op.Result (Option UInt64) where
  permitted _ _ := True
  expected
    | _, .nextId, .ok (id : UInt64), later => later = some id
    | drawn, _, _, later => later = drawn

/-- A reply carries the drawn id. -/
def Carries (data : UInt64 → Json) (drawn : Option UInt64) (outcome : Outcome Response) : Prop :=
  ∀ response, outcome = .returned response → ∃ id message, drawn = some id ∧
    response.body = .json (apiResponse .success message (data id))

theorem carries_raised {what : String} : Carries data drawn (.raised what) := by
  intro response raised
  cases raised

theorem carries_ofExcept {α : Type} {computed : Except String α} {next : α → WorkerTask Response}
    (rest : ∀ value, (next value).Meets drawing (Carries data) drawn) :
    (ofExcept computed >>= next).Meets drawing (Carries data) drawn :=
  meets_ofExcept_then (fun value _ => rest value) fun _ _ => carries_raised

theorem carries_throwIf {condition : Prop} [Decidable condition] {what : String}
    {next : PUnit → WorkerTask Response} (rest : (next ⟨⟩).Meets drawing (Carries data) drawn) :
    (throwIf condition what >>= next).Meets drawing (Carries data) drawn :=
  meets_throwIf_then (fun _ => rest) fun _ => carries_raised

theorem carries_call {op : Op} {next : Op.Result op → WorkerTask Response}
    (keeps : ∀ result later, drawing.expected drawn op (.ok result) later → later = drawn)
    (rest : ∀ result, (next result).Meets drawing (Carries data) drawn) :
    (perform op >>= next).Meets drawing (Carries data) drawn := by
  refine meets_call_then trivial (fun result later expected => ?_) fun _ _ _ => carries_raised
  obtain rfl := keeps result later expected
  exact rest result

theorem carries_nextId {next : UInt64 → WorkerTask Response}
    (rest : ∀ id, (next id).Meets drawing (Carries data) (some id)) :
    (nextId >>= next).Meets drawing (Carries data) drawn := by
  refine meets_call_then trivial (fun (id : UInt64) later expected => ?_) fun _ _ _ => carries_raised
  subst expected
  exact rest id

theorem carries_reply {id : UInt64} {message : String} :
    (pure (createJsonResponse 200 req (apiResponse .success message (data id))) :
      WorkerTask Response).Meets drawing (Carries data) (some id) := by
  intro response replied
  cases replied
  exact ⟨id, message, rfl, rfl⟩

/-- `create_g_room` replies with the id it has drawn. -/
theorem insertGRoom_carries : (insertGRoom service req).Meets drawing
    (Carries fun id => CreateGRoomResp.valueFrom ⟨id⟩) none := by
  refine carries_ofExcept fun jv => ?_
  refine carries_ofExcept fun createReq => ?_
  refine carries_call (fun _ _ same => same) fun _ => ?_
  refine carries_nextId fun room => ?_
  refine carries_ofExcept fun claims => ?_
  refine carries_call (fun _ _ same => same) fun (count : Nat) => carries_throwIf ?_
  refine carries_call (fun _ _ same => same) fun (count : Nat) => carries_throwIf ?_
  exact carries_reply

theorem insertPRoom_carries : (insertPRoom service req).Meets drawing
    (Carries fun id => CreatePRoomResp.valueFrom ⟨id⟩) none := by
  refine carries_ofExcept fun jv => ?_
  refine carries_ofExcept fun createReq => ?_
  refine carries_call (fun _ _ same => same) fun _ => ?_
  refine carries_nextId fun room => ?_
  refine carries_ofExcept fun claims => ?_
  refine carries_call (fun _ _ same => same) fun (count : Nat) => carries_throwIf ?_
  refine carries_call (fun _ _ same => same) fun (count : Nat) => carries_throwIf ?_
  refine carries_call (fun _ _ same => same) fun _ => ?_
  exact carries_reply

end Replies

/-- Every place that takes an id reads the text as the id. -/
structure ReadBack (id : UInt64) (text : String) : Prop where
  room : ∀ req : Request, req.target = "/api/rooms/" ++ text →
    stoullOrThrow (extractTargetParam req.target 2) = .ok id ∧
      (req.method = .delete → ∀ service,
        handleChatRoom service req = (RoomCall.deleteRoom id).task service req)
  roomMember : ∀ req : Request, req.target = "/api/rooms/" ++ text ++ "/member" →
    stoullOrThrow (extractTargetParam req.target 2) = .ok id ∧ ∀ service,
      handleChatRoom service req = (RoomCall.inviteMember id).task service req
  privateMsgRoom : ∀ obj otherUserId content, obj.lookup "room_id" = some (.string text) →
    idMember "other_user_id" obj = .ok otherUserId → Json.stringMember "content" obj = .ok content →
    ClientPrivateMsg.valueTo (.object obj) = .ok { roomId := id, otherUserId, content }
  privateMsgOther : ∀ obj roomId content, obj.lookup "other_user_id" = some (.string text) →
    idMember "room_id" obj = .ok roomId → Json.stringMember "content" obj = .ok content →
    ClientPrivateMsg.valueTo (.object obj) = .ok { roomId, otherUserId := id, content }
  groupMsgRoom : ∀ obj content, obj.lookup "room_id" = some (.string text) →
    Json.stringMember "content" obj = .ok content →
    ClientGroupMsg.valueTo (.object obj) = .ok { roomId := id, content }
  otherId : ∀ obj, obj.lookup "other_id" = some (.string text) →
    CreatePRoomReq.valueTo (.object obj) = .ok { otherId := id }
  inviteeId : ∀ obj, obj.lookup "invitee_id" = some (.string text) →
    GRoomInvtReq.valueTo (.object obj) = .ok { inviteeId := id }
  subject : ∀ (jwt : Jwt) token decoded username, jwt.decode token = .ok decoded →
    decoded.subject = .ok text → decoded.username = .ok username →
    jwt.extractUserClaims token = .ok { id, username }

section Decoders

variable {id : UInt64} {text key : String} {obj : List (String × Json)}

theorem emit_eq (source : IdSource) : source.emit id = .ok (toDecimal id) := by
  cases source <;> rfl

theorem slash_not_mem_toDecimal : '/' ∉ (toDecimal id).toList := by
  intro slash
  rw [toDecimal_toList] at slash
  exact absurd (isDigit_of_mem_toDecimal slash) (by decide)

theorem roomTarget_toDecimal {rest : String} (ends : rest = "" ∨ startsWith "/" rest = true) :
    RoomTarget ("/api/rooms/" ++ toDecimal id ++ rest) (toDecimal id) rest :=
  ⟨rfl, slash_not_mem_toDecimal, ends⟩

theorem idMember_eq_ok_iff : idMember key obj = .ok id ↔
    ∃ text, obj.lookup key = some (.string text) ∧ stoull text = .ok id := by
  cases found : Json.stringMember key obj with
  | error what =>
    have missing (text : String) : obj.lookup key ≠ some (.string text) := fun there => by
      simp [Json.stringMember_eq_ok_iff.mpr there] at found
    simp [idMember, found, missing, bind, Except.bind]
  | ok text =>
    have there := Json.stringMember_eq_ok_iff.mp found
    simp [idMember, found, there, stoullOrThrow_eq_ok_iff, bind, Except.bind]

theorem idMember_toDecimal (there : obj.lookup key = some (.string (toDecimal id))) :
    idMember key obj = .ok id := idMember_eq_ok_iff.mpr ⟨_, there, stoull_toDecimal id⟩

/-- The decimal numeral of an id is read back everywhere, up to the largest id. -/
theorem readBack_toDecimal : ReadBack id (toDecimal id) where
  room req at_ := by
    have target : RoomTarget req.target (toDecimal id) "" := by
      simpa [at_] using @roomTarget_toDecimal id "" (.inl rfl)
    have read : stoull (extractTargetParam req.target 2) = .ok id := by
      rw [target.params.1, stoull_toDecimal]
    refine ⟨stoullOrThrow_eq_ok_iff.mpr read, fun deletes service => ?_⟩
    have called : roomCall req = .deleteRoom id :=
      roomCall_eq_deleteRoom_iff.mpr ⟨deletes, read, target.noVerb_iff.mpr (.inl rfl)⟩
    rw [handleChatRoom_eq, called]
  roomMember req at_ := by
    have target : RoomTarget req.target (toDecimal id) "/member" :=
      at_ ▸ roomTarget_toDecimal (.inr (by decide))
    have read : stoull (extractTargetParam req.target 2) = .ok id := by
      rw [target.params.1, stoull_toDecimal]
    have called : roomCall req = .inviteMember id := roomCall_eq_inviteMember_iff.mpr
      ⟨read, target.memberVerb_iff.mpr ⟨"", rfl, .inl rfl⟩⟩
    refine ⟨stoullOrThrow_eq_ok_iff.mpr read, fun service => ?_⟩
    rw [handleChatRoom_eq, called]
  privateMsgRoom obj otherUserId content there other said := by
    simp [ClientPrivateMsg.valueTo, Json.asObject, idMember_toDecimal there, other, said, bind,
      Except.bind, pure, Except.pure]
  privateMsgOther obj roomId content there room said := by
    simp [ClientPrivateMsg.valueTo, Json.asObject, idMember_toDecimal there, room, said, bind,
      Except.bind, pure, Except.pure]
  groupMsgRoom obj content there said := by
    simp [ClientGroupMsg.valueTo, Json.asObject, idMember_toDecimal there, said, bind, Except.bind,
      pure, Except.pure]
  otherId obj there := by
    simp [CreatePRoomReq.valueTo, Json.asObject, idMember_toDecimal there, bind, Except.bind, pure,
      Except.pure]
  inviteeId obj there := by
    simp [GRoomInvtReq.valueTo, Json.asObject, idMember_toDecimal there, bind, Except.bind, pure,
      Except.pure]
  subject jwt token decoded username parsed subject named :=
    Jwt.extractUserClaims_eq_ok_iff.mpr ⟨decoded, _, parsed, subject, stoull_toDecimal id, named⟩

/-- Whatever text the server writes for an id, and wherever it does, every place that takes
an id reads the text as the same id. -/
theorem identifier_round_trip (id : UInt64) (source : IdSource) :
    ∃ text, source.emit id = .ok text ∧ ReadBack id text :=
  ⟨toDecimal id, emit_eq source, readBack_toDecimal⟩

end Decoders

end TinyChat.Core
