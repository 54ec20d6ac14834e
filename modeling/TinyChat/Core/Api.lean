import TinyChat.Core.Token
import TinyChat.Db.Tables
import TinyChat.Effect.Program

/-! What the handlers of `core/request_handler.hpp` take, return and call: requests and
responses, the decoders of `model/`, and the effects of a worker task. -/
namespace TinyChat.Core

open TinyChat.Db TinyChat.Effect TinyChat.Text TinyChat.Utils

/-- `http::verb`. -/
inductive Verb where
  | get
  | post
  | delete
  | other (name : String)
  deriving DecidableEq

/-- The parts of an `api_request` that are read. -/
structure Request where
  version : Nat
  keepAlive : Bool
  method : Verb
  target : String
  /-- The Authorization field, if there is one. -/
  authorization : Option String
  body : String

/-- `req[http::field::authorization]`: empty when there is no such field. -/
def Request.authorizationField (req : Request) : String := req.authorization.getD ""

structure ReqContext where
  version : Nat
  keepAlive : Bool
  method : Verb
  target : String
  jvOpt : Option Json
  userClaimsOpt : Option UserClaims

inductive Body where
  /-- `json::serialize` of the value. -/
  | json (value : Json)
  | file (path : String) (size : Nat)

/-- The Server field. -/
inductive Server where
  | boostBeastVersionString
  | tinyChatServer

/-- An `http::message_generator`; the status is the number of `http::status`. -/
structure Response where
  status : Nat
  version : Nat
  keepAlive : Bool
  server : Server
  contentType : String
  body : Body

/-- `ApiResponse<T>` as `value_from` writes it. -/
def apiResponse (code : StatusCode) (message : String) (data : Json) : Json :=
  .object [("code", .integer code.code), ("message", .string message), ("data", data)]

def jsonResponse (status version : Nat) (keepAlive : Bool) (value : Json) : Response :=
  { status, version, keepAlive, server := .boostBeastVersionString
    contentType := "application/json", body := .json value }

/-- `create_json_response` for a request. -/
def createJsonResponse (status : Nat) (req : Request) (value : Json) : Response :=
  jsonResponse status req.version req.keepAlive value

def errorBody (code : StatusCode) (msg : String) : Json :=
  apiResponse code ("Bad Request" ++ msg) .null

def badRequest (req : Request) (msg : String) : Response :=
  jsonResponse 400 req.version req.keepAlive (errorBody .badRequest msg)

/-- `error_resp` for a request; it has no case for `NotFound`. -/
def errorResp (req : Request) (code : StatusCode) (msg : String) : Response :=
  let status := match code with
    | .badRequest => 400
    | .internalServerError => 500
    | .forbidden => 403
    | _ => 500
  jsonResponse status req.version req.keepAlive (errorBody code msg)

/-- `error_resp` for a request context. -/
def ReqContext.errorResp (ctx : ReqContext) (code : StatusCode) (msg : String) : Response :=
  let status := match code with
    | .badRequest => 400
    | .internalServerError => 500
    | .forbidden => 403
    | .notFound => 404
    | _ => 500
  jsonResponse status ctx.version ctx.keepAlive (errorBody code msg)

section Decoders

structure LoginRequest where
  username : String
  password : String

def LoginRequest.valueTo (jv : Json) : Except String LoginRequest := do
  let obj ← jv.asObject
  return { username := ← Json.stringMember "username" obj
           password := ← Json.stringMember "password" obj }

structure RegisterRequest where
  username : String
  password : String
  email : String
  nickname : String

def RegisterRequest.valueTo (jv : Json) : Except String RegisterRequest := do
  let obj ← jv.asObject
  return { username := ← Json.stringMember "username" obj
           password := ← Json.stringMember "password" obj
           email := ← Json.stringMember "email" obj
           nickname := ← Json.stringMember "nickname" obj }

/-- `std::stoull(json::value_to<std::string>(obj.at(key)))`. -/
def idMember (key : String) (obj : List (String × Json)) : Except String UInt64 :=
  Json.stringMember key obj >>= stoullOrThrow

structure CreateGRoomReq where
  name : String

def CreateGRoomReq.valueTo (jv : Json) : Except String CreateGRoomReq := do
  let obj ← jv.asObject
  return { name := ← Json.stringMember "name" obj }

structure CreatePRoomReq where
  otherId : UInt64

def CreatePRoomReq.valueTo (jv : Json) : Except String CreatePRoomReq := do
  let obj ← jv.asObject
  return { otherId := ← idMember "other_id" obj }

structure GRoomInvtReq where
  inviteeId : UInt64

def GRoomInvtReq.valueTo (jv : Json) : Except String GRoomInvtReq := do
  let obj ← jv.asObject
  return { inviteeId := ← idMember "invitee_id" obj }

structure ClientPrivateMsg where
  roomId : UInt64
  otherUserId : UInt64
  content : String

def ClientPrivateMsg.valueTo (jv : Json) : Except String ClientPrivateMsg := do
  let obj ← jv.asObject
  return { roomId := ← idMember "room_id" obj
           otherUserId := ← idMember "other_user_id" obj
           content := ← Json.stringMember "content" obj }

structure ClientGroupMsg where
  roomId : UInt64
  content : String

def ClientGroupMsg.valueTo (jv : Json) : Except String ClientGroupMsg := do
  let obj ← jv.asObject
  return { roomId := ← idMember "room_id" obj
           content := ← Json.stringMember "content" obj }

end Decoders

section Effects

/-- How `http::file_body::value_type::open` ends. -/
inductive OpenResult where
  | opened (size : Nat)
  | noSuchFile
  | failed (message : String)

/-- What a worker task asks of its surroundings. -/
inductive Op where
  /-- `SqlConnRAII conn;`. -/
  | connect
  | beginTransaction
  | query (query : Query)
  | update (write : Write)
  | commit
  | rollback
  /-- `~SqlConnRAII`. -/
  | release
  /-- A query on a `SqlConnRAII` of its own. -/
  | lookup (query : Query)
  | nextId
  | hashPassword (plainPassword : String)
  | verifyPassword (plainPassword storedHash : String)
  /-- `system_clock::now()` in seconds. -/
  | now
  | openFile (path : String)
  /-- `WSSessionMgr::write_to` with the serialized message. -/
  | writeTo (user : UInt64) (msg : Json)
  /-- The part of `write_to_room` that follows its query. -/
  | writeToAll (users : List UInt64) (msg : Json)

def Op.Result : Op → Type
  | query q => List q.Row
  | lookup q => List q.Row
  | update _ => Nat
  | nextId => UInt64
  | hashPassword _ => String
  | verifyPassword _ _ => Bool
  | now => Int
  | openFile _ => OpenResult
  | _ => PUnit

abbrev WorkerTask := Program Op Op.Result

def connect : WorkerTask PUnit := Program.perform Op.connect

def beginTransaction : WorkerTask PUnit := Program.perform Op.beginTransaction

def executeQuery (query : Query) : WorkerTask (List query.Row) := Program.perform (Op.query query)

def executeUpdate (write : Write) : WorkerTask Nat := Program.perform (Op.update write)

def commit : WorkerTask PUnit := Program.perform Op.commit

def rollback : WorkerTask PUnit := Program.perform Op.rollback

def release : WorkerTask PUnit := Program.perform Op.release

def lookup (query : Query) : WorkerTask (List query.Row) := Program.perform (Op.lookup query)

/-- `SnowFlake::next_id`. -/
def nextId : WorkerTask UInt64 := Program.perform Op.nextId

def hashPassword (plainPassword : String) : WorkerTask String :=
  Program.perform (Op.hashPassword plainPassword)

def verifyPassword (plainPassword storedHash : String) : WorkerTask Bool :=
  Program.perform (Op.verifyPassword plainPassword storedHash)

def now : WorkerTask Int := Program.perform Op.now

def openFile (path : String) : WorkerTask OpenResult := Program.perform (Op.openFile path)

def writeTo (user : UInt64) (msg : Json) : WorkerTask PUnit := Program.perform (Op.writeTo user msg)

def writeToAll (users : List UInt64) (msg : Json) : WorkerTask PUnit :=
  Program.perform (Op.writeToAll users msg)

/-- `if (condition) throw std::runtime_error(what);`. -/
def throwIf (condition : Prop) [Decidable condition] (what : String) : WorkerTask PUnit :=
  if condition then Program.raise what else pure ⟨⟩

/-- A scope that begins with `SqlConnRAII conn;`. -/
def withConn {α : Type} (body : WorkerTask α) : WorkerTask α := do
  connect
  Program.withDestructor release body

section Rules

variable {State α : Type} {contract : Contract Op Op.Result State} {body : WorkerTask α}

theorem meets_throwIf_then {condition : Prop} [Decidable condition] {what : String} {state : State}
    {next : PUnit → WorkerTask α} {post : State → Outcome α → Prop}
    (passes : ¬ condition → (next ⟨⟩).Meets contract post state)
    (throws : condition → post state (.raised what)) :
    (throwIf condition what >>= next).Meets contract post state := by
  by_cases holds : condition
  · simpa [throwIf, holds] using throws holds
  · simpa [throwIf, holds] using passes holds

theorem obeys_throwIf {condition : Prop} [Decidable condition] {what : String} :
    (throwIf condition what).Obeys contract := by
  unfold throwIf
  split <;> exact Program.obeys_done

theorem obeys_withConn (connects : ∀ state, contract.permitted state .connect)
    (releases : ∀ state, contract.permitted state .release) (obeys : body.Obeys contract) :
    (withConn body).Obeys contract :=
  Program.obeys_bind (Program.obeys_perform connects) fun _ =>
    Program.obeys_withDestructor (Program.obeys_perform releases) obeys

end Rules

end Effects

/-- What a handler uses besides its request: third-party functions and `AppConfig`. -/
structure Service where
  jwt : Jwt
  /-- `json::parse`. -/
  parse : String → Except String Json
  jwtSecret : String
  docRoot : String

end TinyChat.Core
