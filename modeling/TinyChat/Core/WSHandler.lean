import TinyChat.Core.Api

/-! `WSHandler::handle_message` of `core/ws_handler.cpp`, the task for one message of a
WebSocket session, with the calls it makes to `WSSessionMgr`. -/
namespace TinyChat.Core

open TinyChat.Db TinyChat.Effect TinyChat.Text TinyChat.Utils
open Program (ofExcept tryCatch)

/-- `value_from` of a `ServerRespMsg`. -/
def serverRespMsg (type : ServerRespType) (data : Json) : Json :=
  .object [("type", .integer type.code), ("data", data)]

def privateMsgToSend (roomId : UInt64) (content : String) : Json :=
  serverRespMsg .pMsgToSend
    (.object [("private_room_id", .string (toDecimal roomId)), ("content", .string content)])

def groupMsgToSend (roomId senderId : UInt64) (content : String) : Json :=
  serverRespMsg .gMsgToSend
    (.object [("room_id", .string (toDecimal roomId)), ("sender_id", .string (toDecimal senderId)),
      ("content", .string content)])

/-- `WSSessionMgr::write_to_room`; its query has a connection of its own. -/
def writeToRoom (roomId : UInt64) (msg : Json) : WorkerTask PUnit := do
  let usersInGroup ← lookup (.roomMembers roomId)
  writeToAll usersInGroup msg

/-- The part that both kinds of message share, from the membership check to the commit;
true if the message is stored. -/
def storeMessage (roomId : UInt64) (content : String) (userClaims : UserClaims)
    (insertFailed updateFailed : String) : WorkerTask Bool := do
  let isMemberInRoom ← executeQuery (.membership roomId userClaims.id)
  if isMemberInRoom.isEmpty then
    writeTo userClaims.id (serverRespMsg .permissionDenied .null)
    return false
  else
    let msgId ← nextId
    let updatedRow1 ← executeUpdate
      (.insertMessage { id := msgId, roomId, senderId := userClaims.id, content })
    throwIf (updatedRow1 ≠ 1) insertFailed
    let updatedRow2 ← executeUpdate (.setLastMessage msgId roomId)
    throwIf (updatedRow2 ≠ 1) updateFailed
    commit
    return true

def privateMessage (data : Json) (userClaims : UserClaims) : WorkerTask PUnit := do
  let privateMsg ← ofExcept (ClientPrivateMsg.valueTo data)
  let stored ← storeMessage privateMsg.roomId privateMsg.content userClaims
    ("Failed to insert private message sent by \"" ++ userClaims.username ++ "\"")
    ("Failed to update last message in private room, sent by \"" ++ userClaims.username ++ "\"")
  if stored then
    writeTo privateMsg.otherUserId (privateMsgToSend privateMsg.roomId privateMsg.content)
    writeTo userClaims.id (serverRespMsg .msgSentInfo .null)
  else return ⟨⟩

def groupMessage (data : Json) (userClaims : UserClaims) : WorkerTask PUnit := do
  let groupMsg ← ofExcept (ClientGroupMsg.valueTo data)
  let stored ← storeMessage groupMsg.roomId groupMsg.content userClaims
    ("Failed to insert group message into group\"" ++ toDecimal groupMsg.roomId ++
      "\", sent by \"" ++ userClaims.username ++ "\"")
    ("Failed to update last message in group room, sent by \"" ++ userClaims.username ++ "\"")
  if stored then
    writeToRoom groupMsg.roomId (groupMsgToSend groupMsg.roomId userClaims.id groupMsg.content)
  else return ⟨⟩

/-- `as_string().c_str()` as a `std::string`: the text up to the first null character. -/
def cString (text : String) : String :=
  String.ofList (text.toList.takeWhile fun char => char.toNat != 0)

/-- The members of a message and its type, as the checks of `handle_message` let them
through. -/
def messageType (jv : Json) : Except String (List (String × Json) × String) :=
  match jv with
  | .object obj =>
    match obj.lookup "type" with
    | some (.string type) => .ok (obj, cString type)
    | _ => .error "Missing or invalid 'type' field in WebSocket message"
  | _ => .error "Invalid JSON format in WebSocket message"

def handleMessage (service : Service) (msg : String) (userClaims : UserClaims) :
    WorkerTask PUnit :=
  withConn do
    beginTransaction
    tryCatch
      (do
        let jv ← ofExcept (service.parse msg)
        let (obj, type) ← ofExcept (messageType jv)
        if type = "private_message" then
          let data ← ofExcept (Json.member "data" obj)
          privateMessage data userClaims
        else if type = "group_message" then
          let data ← ofExcept (Json.member "data" obj)
          groupMessage data userClaims
        else return ⟨⟩)
      fun _ => rollback

end TinyChat.Core
