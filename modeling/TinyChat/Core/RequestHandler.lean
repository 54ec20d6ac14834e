import TinyChat.Core.Api
import TinyChat.Text.Paths

/-! `RequestHandler` of `core/request_handler.hpp` and `.cpp`: the handlers as tasks of a
worker, with every call that can throw where the source makes it. -/
namespace TinyChat.Core

open TinyChat.Db TinyChat.Effect TinyChat.Text TinyChat.Utils
open Program (ofExcept raise tryCatch undefined)

section Targets

/-- One turn of the loop in `extract_target_param`: where the segment that begins at
the last end starts and ends. -/
def nextSegment (target : List Char) (start : Nat) : Option (Nat × Nat) :=
  if start ≥ target.length then none
  else
    let first := if target[start]? = some '/' then start + 1 else start
    some (first, first + ((target.drop first).takeWhile (· ≠ '/')).length)

/-- The loop of `extract_target_param` with the segments still to skip. -/
def targetParamFrom (target : List Char) (start : Nat) : Nat → List Char
  | 0 =>
    match nextSegment target start with
    | some (first, last) => (target.drop first).take (last - first)
    | none => []
  | skip + 1 =>
    match nextSegment target start with
    | some (_, last) => targetParamFrom target last skip
    | none => []

def extractTargetParam (target : String) (index : Nat) : String :=
  String.ofList (targetParamFrom target.toList 0 index)

/-- `target.starts_with(head)`. -/
def startsWith (head target : String) : Bool := head.toList.isPrefixOf target.toList

end Targets

section Assets

/-- The suffix of a path from its last dot on. -/
def extension (path : List Char) : List Char :=
  match path.reverse.idxOf? '.' with
  | some index => path.drop (path.length - (index + 1))
  | none => []

def mimeTypes : List (String × String) :=
  [(".htm", "text/html"), (".html", "text/html"), (".php", "text/html"), (".css", "text/css"),
    (".txt", "text/plain"), (".js", "application/javascript"), (".json", "application/json"),
    (".xml", "application/xml"), (".swf", "application/x-shockwave-flash"),
    (".flv", "video/x-flv"), (".png", "image/png"), (".jpe", "image/jpeg"),
    (".jpeg", "image/jpeg"), (".jpg", "image/jpeg"), (".gif", "image/gif"),
    (".bmp", "image/bmp"), (".ico", "image/vnd.microsoft.icon"), (".tiff", "image/tiff"),
    (".tif", "image/tiff"), (".svg", "image/svg+xml"), (".svgz", "image/svg+xml")]

def mimeType (path : List Char) : String :=
  (mimeTypes.lookup (String.ofList ((extension path).map Char.toLower))).getD
    "application/octet-stream"

/-- The end of `handle_assets` once `open` has set its error code. -/
def answerAsset (service : Service) (ctx : ReqContext) (assetPath fullPath : List Char) :
    OpenResult → WorkerTask Response
  | .noSuchFile => pure (ctx.errorResp .notFound " Asset not found")
  | .failed message => raise ("Failed to open asset file: " ++ message)
  | .opened size => pure
    { status := 200, version := ctx.version, keepAlive := ctx.keepAlive, server := .tinyChatServer
      contentType := mimeType (service.docRoot.toList ++ assetPath)
      body := .file (String.ofList fullPath) size }

/-- What `handle_assets` does after `remove_prefix`. -/
def serveAsset (service : Service) (ctx : ReqContext) (assetPath : List Char) :
    WorkerTask Response :=
  if assetPath = [] ∨ ['.', '.'] <:+: assetPath then
    pure (ctx.errorResp .badRequest " Invalid asset path")
  else do
    let fullPath := joinPath service.docRoot.toList assetPath
    let opened ← openFile (String.ofList fullPath)
    answerAsset service ctx assetPath fullPath opened

def handleAssets (service : Service) (ctx : ReqContext) : WorkerTask Response :=
  tryCatch
    (if ctx.method ≠ .get then pure (ctx.errorResp .badRequest " Method Not Allowed")
    -- `remove_prefix` must not be asked for more than the view holds.
    else if ctx.target.toList.length < "/assets/".length then undefined
    else serveAsset service ctx (ctx.target.toList.drop "/assets/".length))
    fun _ => pure (ctx.errorResp .internalServerError " Server Error")

end Assets

section Accounts

/-- `value_from` of a `User`. -/
def userJson (id : UInt64) (username nickname email avatarUrl createdAt : String) : Json :=
  .object [("id", .string (toDecimal id)), ("username", .string username),
    ("nickname", .string nickname), ("email", .string email),
    ("avatar_url", .string avatarUrl), ("created_at", .string createdAt)]

/-- `handle_login` with the first row of its query. -/
def loginUser (service : Service) (req : Request) (loginRequest : LoginRequest) (row : UserRow) :
    WorkerTask Response := do
  let verified ← verifyPassword loginRequest.password row.passwordHash
  if !verified then
    return createJsonResponse 401 req (apiResponse .incorrectPwd "Password incorrect" .null)
  else
    let time ← now
    let token := Login.generateLoginToken service.jwt service.jwtSecret
      { username := loginRequest.username, id := row.id, time }
    let user := userJson row.id loginRequest.username row.nickname row.email row.avatarUrl
      row.createdAt
    return createJsonResponse 200 req (apiResponse .success "Login successful"
      (.object [("token", .string token), ("user", user)]))

def handleLogin (service : Service) (req : Request) : WorkerTask Response :=
  if req.method = .post then
    match service.parse req.body with
    | .error _ => pure (badRequest req "Invalid JSON format")
    | .ok parsedJson => do
      let loginRequest ← ofExcept (LoginRequest.valueTo parsedJson)
      withConn do
        let resultSet : List UserRow ← executeQuery (.userNamed loginRequest.username)
        match resultSet with
        | row :: _ => loginUser service req loginRequest row
        | [] =>
          return createJsonResponse 404 req (apiResponse .userNotFound "User not found" .null)
  else pure (badRequest req "Bad Request")

/-- `handle_register` once the body has parsed. -/
def registerUser (req : Request) (registerRequest : RegisterRequest) : WorkerTask Response :=
  withConn do
    let hashedPwd ← hashPassword registerRequest.password
    let id ← nextId
    let updatedRow ← executeUpdate (.insertUser id registerRequest.username hashedPwd
      registerRequest.email registerRequest.nickname)
    if updatedRow = 1 then
      return createJsonResponse 200 req (apiResponse .success "Registration successful" .null)
    else if updatedRow = 0 then
      return createJsonResponse 400 req (apiResponse .regFailed "Register Failed" .null)
    else return badRequest req "Server Error"

def handleRegister (service : Service) (req : Request) : WorkerTask Response :=
  if req.method = .post then
    tryCatch
      (match service.parse req.body with
      | .error _ => pure (badRequest req "Invalid JSON format")
      | .ok jv => do
        let registerRequest ← ofExcept (RegisterRequest.valueTo jv)
        registerUser req registerRequest)
      fun _ => pure (badRequest req "Server Error")
  else pure (badRequest req "")

end Accounts

section Rooms

/-- A `catch` block that rolls back and answers. -/
def rollbackAndReply (response : Response) : WorkerTask Response := do
  rollback
  return response

/-- The `try` block of `create_g_room`. -/
def insertGRoom (service : Service) (req : Request) : WorkerTask Response := do
  let jv ← ofExcept (service.parse req.body)
  let createGRoomReq ← ofExcept (CreateGRoomReq.valueTo jv)
  beginTransaction
  let roomId ← nextId
  let userClaims ← ofExcept (service.jwt.extractUserClaims req.authorizationField)
  let updatedRow1 ← executeUpdate (.insertRoom
    { id := roomId, name := some createGRoomReq.name, type := RoomType.group.code
      ownerId := some userClaims.id })
  throwIf (updatedRow1 ≠ 1) "Failed to create group room"
  let updatedRow2 ← executeUpdate (.insertMembers
    [{ roomId, userId := userClaims.id, role := GroupRole.owner.code }])
  throwIf (updatedRow2 ≠ 1) "Failed to add owner to group room"
  return createJsonResponse 200 req (apiResponse .success
    "Room created success, creator will be the owner."
    (.object [("room_id", .string (toDecimal roomId))]))

def createGRoom (service : Service) (req : Request) : WorkerTask Response :=
  if req.method ≠ .post then pure (badRequest req "")
  else withConn (tryCatch (insertGRoom service req)
    fun _ => rollbackAndReply (badRequest req " Server Error"))

/-- The `try` block of `create_p_room`. -/
def insertPRoom (service : Service) (req : Request) : WorkerTask Response := do
  let jv ← ofExcept (service.parse req.body)
  let createPRoomReq ← ofExcept (CreatePRoomReq.valueTo jv)
  beginTransaction
  let roomId ← nextId
  let userClaims ← ofExcept (service.jwt.extractUserClaims req.authorizationField)
  let updatedRow1 ← executeUpdate (.insertRoom
    { id := roomId, name := none, type := RoomType.privateRoom.code, ownerId := none })
  throwIf (updatedRow1 ≠ 1) "Failed to create group room"
  let updatedRow2 ← executeUpdate (.insertMembers
    [{ roomId, userId := userClaims.id, role := GroupRole.privateMember.code },
      { roomId, userId := createPRoomReq.otherId, role := GroupRole.privateMember.code }])
  throwIf (updatedRow2 ≠ 2) "Failed to add owner to group room"
  commit
  return createJsonResponse 200 req (apiResponse .success "Private room created success."
    (.object [("room_id", .string (toDecimal roomId))]))

def createPRoom (service : Service) (req : Request) : WorkerTask Response :=
  if req.method ≠ .post then pure (badRequest req "")
  else withConn (tryCatch (insertPRoom service req)
    fun _ => rollbackAndReply (badRequest req " Server Error"))

/-- `delete_room` once the caller is known to own the room. -/
def deleteRows (req : Request) (roomId : UInt64) : WorkerTask Response := do
  let deletedMember ← executeUpdate (.deleteMembers roomId)
  throwIf (deletedMember = 0)
    ("There is a room \"" ++ toDecimal roomId ++ "\" which has no member")
  let deletedRoom ← executeUpdate (.deleteRoom roomId)
  throwIf (deletedRoom = 0) "Failed to delete room"
  commit
  return createJsonResponse 200 req (apiResponse .success "Room deleted successfully" .null)

/-- The `try` block of `delete_room`. -/
def deleteOwned (service : Service) (req : Request) (roomId : UInt64) : WorkerTask Response := do
  let userClaims ← ofExcept (service.jwt.extractUserClaims req.authorizationField)
  let roleSet : List Int ← executeQuery (.role roomId userClaims.id)
  match roleSet with
  | role :: _ =>
    if role ≠ GroupRole.owner.code then return errorResp req .forbidden " Permission denied"
    else deleteRows req roomId
  | [] => return errorResp req .badRequest " You are not a member in the group"

def deleteRoom (service : Service) (req : Request) (roomId : UInt64) : WorkerTask Response :=
  withConn do
    beginTransaction
    tryCatch (deleteOwned service req roomId)
      fun _ => rollbackAndReply (errorResp req .badRequest " Server error")

def inviteMember (service : Service) (req : Request) (roomId : UInt64) : WorkerTask Response :=
  if req.method ≠ .post then pure (badRequest req " Method Not Allowed")
  else do
    let jv ← ofExcept (service.parse req.body)
    let invtReq ← ofExcept (GRoomInvtReq.valueTo jv)
    withConn do
      -- The claims are only logged here.
      let _ ← ofExcept (service.jwt.extractUserClaims req.authorizationField)
      let resultSet : List Int ← executeQuery (.roomType roomId)
      match resultSet with
      | [] => return errorResp req .badRequest " Room not found"
      | type :: _ =>
        if type ≠ RoomType.group.code then return errorResp req .badRequest " Illegal request"
        else
          let updateRow ← executeUpdate (.insertMembers
            [{ roomId, userId := invtReq.inviteeId, role := GroupRole.member.code }])
          if updateRow ≠ 1 then return badRequest req " Invite failed"
          else
            return createJsonResponse 200 req (apiResponse .success
              "Invitee successfully added to the group" .null)

def handleChatRoom (service : Service) (req : Request) : WorkerTask Response :=
  tryCatch
    (do
      let roomId ← ofExcept (stoullOrThrow (extractTargetParam req.target 2))
      let roomVerb := extractTargetParam req.target 3
      if roomVerb = "" then
        -- Without a return, control flows off the end of the function.
        if req.method = .delete then deleteRoom service req roomId else undefined
      else if roomVerb = "member" then inviteMember service req roomId
      else return badRequest req " target not found")
    fun _ => pure (badRequest req " Server Error")

def queryRooms (ctx : ReqContext) : WorkerTask Response :=
  tryCatch
    (if ctx.method ≠ .get then pure (ctx.errorResp .badRequest " Method Not Allowed")
    else withConn do
      match ctx.userClaimsOpt with
      | none => undefined
      | some userClaims =>
        let _ ← executeQuery (.roomsOf userClaims.id)
        -- The rooms are not looked up yet: control flows off the end.
        undefined)
    fun _ => pure (ctx.errorResp .internalServerError " Server Error")

end Rooms

/-- The dispatch of `handle_request` on the target. -/
def route (service : Service) (req : Request) (ctx : ReqContext) : WorkerTask Response :=
  if req.target = "/api/login" then handleLogin service req
  else if req.target = "/api/register" then handleRegister service req
  else if req.target = "/api/group_room" then createGRoom service req
  else if req.target = "/api/private_room" then createPRoom service req
  else if startsWith "/api/rooms/" req.target then handleChatRoom service req
  else if req.target = "/users/me/rooms" then queryRooms ctx
  else if startsWith "/assets" req.target then handleAssets service ctx
  else pure (badRequest req " Not Found")

/-- `extract_user_claims` of the Authorization field, if the request has one. -/
def claimsOf (service : Service) (req : Request) : Except String (Option UserClaims) :=
  match req.authorization with
  | none => .ok none
  | some token => (service.jwt.extractUserClaims token).map some

/-- `json::parse` of the body, if it is not empty. -/
def bodyOf (service : Service) (req : Request) : Except String (Option Json) :=
  if req.body = "" then .ok none else (service.parse req.body).map some

def handleRequest (service : Service) (req : Request) : WorkerTask Response := do
  let userClaimsOpt ← ofExcept (claimsOf service req)
  let jvOpt ← ofExcept (bodyOf service req)
  route service req
    { version := req.version, keepAlive := req.keepAlive, method := req.method
      target := req.target, jvOpt, userClaimsOpt }

section Contracts

open Program

variable {State : Type} {contract : Contract Op Op.Result State}

/-- The calls that write no rows and tell no user anything. -/
def Op.Quiet : Op → Prop
  | .update _ | .writeTo _ _ | .writeToAll _ _ => False
  | _ => True

/-- Of all the calls of the HTTP handlers, only writes to the tables of the rooms may be
forbidden. -/
structure GovernsRooms (contract : Contract Op Op.Result State) : Prop where
  quiet : ∀ state op, op.Quiet → contract.permitted state op
  registers : ∀ state id username passwordHash email nickname,
    contract.permitted state (.update (.insertUser id username passwordHash email nickname))

/-- The rows of a new room are permitted. -/
structure Fills (contract : Contract Op Op.Result State) (roomId : UInt64) : Prop where
  room : ∀ row : RoomRow, row.id = roomId → (executeUpdate (.insertRoom row)).Obeys contract
  members : ∀ rows : List MemberRow, (∀ row ∈ rows, row.roomId = roomId) →
    (executeUpdate (.insertMembers rows)).Obeys contract

namespace GovernsRooms

variable {service : Service} {req : Request} {ctx : ReqContext} {roomId : UInt64}

theorem perform {op : Op} (governs : GovernsRooms contract) (quiet : op.Quiet) :
    (Program.perform op : WorkerTask op.Result).Obeys contract :=
  obeys_perform fun state => governs.quiet state op quiet

theorem withConn {body : WorkerTask Response} (governs : GovernsRooms contract)
    (obeys : body.Obeys contract) : (withConn body).Obeys contract :=
  obeys_withConn (fun state => governs.quiet state _ trivial)
    (fun state => governs.quiet state _ trivial) obeys

theorem rollbackAndReply {response : Response} (governs : GovernsRooms contract) :
    (Core.rollbackAndReply response).Obeys contract :=
  obeys_bind (governs.perform trivial) fun _ => obeys_done

theorem createGRoom (governs : GovernsRooms contract)
    (fills : ∀ state (room : UInt64) later,
      contract.expected state .nextId (.ok room) later → Fills contract room) :
    (Core.createGRoom service req).Obeys contract := by
  unfold Core.createGRoom
  split
  · exact obeys_done
  refine governs.withConn (obeys_tryCatch ?_ fun _ => governs.rollbackAndReply)
  refine obeys_bind obeys_ofExcept fun jv => obeys_bind obeys_ofExcept fun createReq => ?_
  refine obeys_bind (governs.perform trivial) fun _ => ?_
  refine obeys_call_then (fun state => governs.quiet state _ trivial)
    fun state (room : UInt64) later drawn => ?_
  have filled := fills state room later drawn
  refine obeys_bind obeys_ofExcept fun claims => ?_
  refine obeys_bind (filled.room _ rfl) fun _ => obeys_bind obeys_throwIf fun _ => ?_
  refine obeys_bind (filled.members _ (by simp)) fun _ => ?_
  exact obeys_bind obeys_throwIf fun _ => obeys_done

theorem createPRoom (governs : GovernsRooms contract)
    (fills : ∀ state (room : UInt64) later,
      contract.expected state .nextId (.ok room) later → Fills contract room) :
    (Core.createPRoom service req).Obeys contract := by
  unfold Core.createPRoom
  split
  · exact obeys_done
  refine governs.withConn (obeys_tryCatch ?_ fun _ => governs.rollbackAndReply)
  refine obeys_bind obeys_ofExcept fun jv => obeys_bind obeys_ofExcept fun createReq => ?_
  refine obeys_bind (governs.perform trivial) fun _ => ?_
  refine obeys_call_then (fun state => governs.quiet state _ trivial)
    fun state (room : UInt64) later drawn => ?_
  have filled := fills state room later drawn
  refine obeys_bind obeys_ofExcept fun claims => ?_
  refine obeys_bind (filled.room _ rfl) fun _ => obeys_bind obeys_throwIf fun _ => ?_
  refine obeys_bind (filled.members _ (by simp)) fun _ => obeys_bind obeys_throwIf fun _ => ?_
  exact obeys_bind (governs.perform trivial) fun _ => obeys_done

theorem deleteRows (governs : GovernsRooms contract)
    (members : (executeUpdate (.deleteMembers roomId)).Obeys contract)
    (room : (executeUpdate (.deleteRoom roomId)).Obeys contract) :
    (Core.deleteRows req roomId).Obeys contract := by
  refine obeys_bind members fun _ => obeys_bind obeys_throwIf fun _ => ?_
  refine obeys_bind room fun _ => obeys_bind obeys_throwIf fun _ => ?_
  exact obeys_bind (governs.perform trivial) fun _ => obeys_done

theorem handleLogin (governs : GovernsRooms contract) :
    (Core.handleLogin service req).Obeys contract := by
  unfold Core.handleLogin
  split
  swap
  · exact obeys_done
  split
  · exact obeys_done
  refine obeys_bind obeys_ofExcept fun loginRequest => governs.withConn ?_
  refine obeys_bind (governs.perform trivial) fun rows => ?_
  split
  swap
  · exact obeys_done
  refine obeys_bind (governs.perform trivial) fun verified => ?_
  split
  · exact obeys_done
  · exact obeys_bind (governs.perform trivial) fun _ => obeys_done

theorem handleRegister (governs : GovernsRooms contract) :
    (Core.handleRegister service req).Obeys contract := by
  unfold Core.handleRegister
  split
  swap
  · exact obeys_done
  refine obeys_tryCatch ?_ fun _ => obeys_done
  split
  · exact obeys_done
  refine obeys_bind obeys_ofExcept fun registerRequest => governs.withConn ?_
  refine obeys_bind (governs.perform trivial) fun hashed => ?_
  refine obeys_bind (governs.perform trivial) fun id => ?_
  refine obeys_bind (obeys_perform fun state => governs.registers state ..) fun count => ?_
  split
  · exact obeys_done
  · split <;> exact obeys_done

theorem queryRooms (governs : GovernsRooms contract) : (Core.queryRooms ctx).Obeys contract := by
  refine obeys_tryCatch ?_ fun _ => obeys_done
  split
  · exact obeys_done
  apply governs.withConn
  split
  · exact obeys_done
  · exact obeys_bind (governs.perform trivial) fun _ => obeys_done

theorem handleAssets (governs : GovernsRooms contract) :
    (Core.handleAssets service ctx).Obeys contract := by
  refine obeys_tryCatch ?_ fun _ => obeys_done
  split
  · exact obeys_done
  split
  · exact obeys_done
  unfold serveAsset
  split
  · exact obeys_done
  refine obeys_bind (governs.perform trivial) fun opened => ?_
  cases opened with
  | opened size => exact obeys_done
  | noSuchFile => exact obeys_done
  | failed message => exact obeys_done

/-- A request obeys if what it does below `/api/rooms/` does. -/
theorem route {state : State} (governs : GovernsRooms contract)
    (fills : ∀ state (room : UInt64) later,
      contract.expected state .nextId (.ok room) later → Fills contract room)
    (below : startsWith "/api/rooms/" req.target = true →
      (handleChatRoom service req).Meets contract (fun _ _ => True) state) :
    (Core.route service req ctx).Meets contract (fun _ _ => True) state := by
  unfold Core.route
  generalize handleChatRoom service req = chat at below ⊢
  refine meets_ite (fun _ => governs.handleLogin _) fun _ => ?_
  refine meets_ite (fun _ => governs.handleRegister _) fun _ => ?_
  refine meets_ite (fun _ => governs.createGRoom fills _) fun _ => ?_
  refine meets_ite (fun _ => governs.createPRoom fills _) fun _ => ?_
  refine meets_ite below fun _ => ?_
  refine meets_ite (fun _ => governs.queryRooms _) fun _ => ?_
  exact meets_ite (fun _ => governs.handleAssets _) fun _ => obeys_done _

end GovernsRooms

end Contracts

end TinyChat.Core
