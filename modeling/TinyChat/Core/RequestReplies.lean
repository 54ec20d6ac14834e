import TinyChat.Core.Backend
import TinyChat.Effect.Paths

/-! What an HTTP request may ask of its surroundings, by its method and target, and the form of
the reply that it gets, on every path through `handle_request`. -/
namespace TinyChat.Core

open TinyChat.Db TinyChat.Effect TinyChat.Text TinyChat.Utils
open Program

def Request.Posts (req : Request) (target : String) : Prop :=
  req.method = .post ∧ req.target = target

/-- What `handle_assets` keeps of the target. -/
def Request.assetPath (req : Request) : List Char := req.target.toList.drop "/assets/".length

/-- The file that `handle_assets` looks for. -/
def Request.assetFile (service : Service) (req : Request) : String :=
  String.ofList (joinPath service.docRoot.toList req.assetPath)

/-- The calls that the method and the target of a request allow. -/
def Request.Permits (service : Service) (req : Request) : Op → Prop
  | .connect | .beginTransaction | .query _ | .commit | .rollback | .release => True
  | .update (.insertUser _ _ _ _ _) | .hashPassword _ => req.Posts "/api/register"
  | .update (.insertRoom row) =>
    row.type = RoomType.group.code ∧ req.Posts "/api/group_room" ∨
      row.type = RoomType.privateRoom.code ∧ req.Posts "/api/private_room"
  | .update (.insertMembers _) =>
    req.Posts "/api/group_room" ∨ req.Posts "/api/private_room" ∨
      req.method = .post ∧ startsWith "/api/rooms/" req.target = true
  | .update (.deleteMembers id) | .update (.deleteRoom id) =>
    req.method = .delete ∧ startsWith "/api/rooms/" req.target = true ∧
      stoullOrThrow (extractTargetParam req.target 2) = .ok id
  | .nextId =>
    req.Posts "/api/register" ∨ req.Posts "/api/group_room" ∨ req.Posts "/api/private_room"
  | .verifyPassword _ _ | .now => req.Posts "/api/login"
  | .openFile path =>
    req.method = .get ∧ startsWith "/assets" req.target = true ∧ path = req.assetFile service
  | .update (.insertMessage _) | .update (.setLastMessage _ _) => False
  | .lookup _ | .writeTo _ _ | .writeToAll _ _ => False

/-- The HTTP status that goes with a code of `ApiResponse`. -/
def httpStatus : StatusCode → Nat
  | .success => 200
  | .badRequest | .regFailed => 400
  | .incorrectPwd => 401
  | .forbidden => 403
  | .notFound | .userNotFound => 404
  | .internalServerError | .loginFailed | .createRoomFailed => 500

/-- A reply repeats version and keep-alive of its request and is an `ApiResponse` with the
status of its code, or the file that the document root and the target of a `GET` name. -/
inductive Response.Formed (service : Service) (req : Request) : Response → Prop where
  | json (code : StatusCode) (message : String) (data : Json) :
      Formed service req (jsonResponse (httpStatus code) req.version req.keepAlive
        (apiResponse code message data))
  | file (size : Nat) (gets : req.method = .get) (asset : startsWith "/assets" req.target = true)
      (named : req.assetPath ≠ []) (plain : ¬ ['.', '.'] <:+: req.assetPath) :
      Formed service req
        { status := 200, version := req.version, keepAlive := req.keepAlive
          server := .tinyChatServer
          contentType := mimeType (service.docRoot.toList ++ req.assetPath)
          body := .file (req.assetFile service) size }

/-- Any answers to the calls that the request allows. -/
def confined (service : Service) (req : Request) : Contract Op Op.Result Unit where
  permitted _ op := req.Permits service op
  expected _ _ _ _ := True

/-- The program makes only calls that the request allows, and its reply is formed. -/
structure Handles (service : Service) (req : Request) (program : WorkerTask Response) : Prop where
  meets : program.Meets (confined service req)
    (fun _ outcome => ∀ response, outcome = .returned response → response.Formed service req) ()

section Rules

variable {α : Type} {service : Service} {req : Request} {body other : WorkerTask Response}
variable {response : Response}

theorem handles_pure (formed : response.Formed service req) : Handles service req (pure response) :=
  ⟨fun _ same => by cases same; exact formed⟩

theorem handles_undefined : Handles service req undefined := ⟨fun _ same => by cases same⟩

theorem handles_ofExcept {computed : Except String α} {next : α → WorkerTask Response}
    (rest : ∀ value, computed = .ok value → Handles service req (next value)) :
    Handles service req (ofExcept computed >>= next) :=
  ⟨meets_ofExcept_then (fun value same => (rest value same).meets) fun _ _ _ same => by cases same⟩

theorem handles_call {op : Op} {next : op.Result → WorkerTask Response} (permits : req.Permits service op)
    (rest : ∀ result, Handles service req (next result)) : Handles service req (perform op >>= next) :=
  ⟨meets_call_then permits (fun result _ _ => (rest result).meets) fun _ _ _ _ same => by cases same⟩

theorem handles_throwIf {condition : Prop} [Decidable condition] {what : String}
    {next : PUnit → WorkerTask Response} (rest : Handles service req (next ⟨⟩)) :
    Handles service req (throwIf condition what >>= next) :=
  ⟨meets_throwIf_then (fun _ => rest.meets) fun _ _ same => by cases same⟩

theorem handles_ite {condition : Prop} [Decidable condition]
    (yes : condition → Handles service req body) (no : ¬ condition → Handles service req other) :
    Handles service req (if condition then body else other) :=
  ⟨meets_ite (fun holds => (yes holds).meets) fun fails => (no fails).meets⟩

theorem handles_tryCatch {handler : String → WorkerTask Response} (first : Handles service req body)
    (caught : ∀ what, Handles service req (handler what)) : Handles service req (tryCatch body handler) := by
  refine ⟨meets_tryCatch.mpr (first.meets.mono fun _ outcome formed => ?_)⟩
  cases outcome with
  | returned response => exact formed
  | raised what => exact (caught what).meets
  | terminated => exact formed
  | undefined => exact formed

theorem handles_withConn (inside : Handles service req body) : Handles service req (withConn body) := by
  refine handles_call trivial fun _ => ⟨meets_withDestructor.mpr (inside.meets.mono ?_)⟩
  intro _ outcome formed
  have left : (release.andThen (onDestroyed outcome) : WorkerTask Response).Meets (confined service req)
      (fun _ outcome => ∀ response, outcome = .returned response → response.Formed service req) () :=
    meets_onDestroyed.mpr (meets_perform.mpr ⟨trivial, fun _ _ _ => formed,
      fun _ _ _ _ same => by cases same⟩)
  cases outcome with
  | returned response => exact left
  | raised what => exact left
  | terminated => exact formed
  | undefined => exact formed

theorem badRequest_formed {message : String} : (badRequest req message).Formed service req :=
  .json .badRequest _ _

theorem createJsonResponse_formed {code : StatusCode} {message : String} {data : Json} :
    (createJsonResponse (httpStatus code) req (apiResponse code message data)).Formed service req :=
  .json code message data

theorem handles_badRequest {message : String} : Handles service req (pure (badRequest req message)) :=
  handles_pure badRequest_formed

theorem rollbackAndReply_handles (formed : response.Formed service req) :
    Handles service req (rollbackAndReply response) :=
  handles_call trivial fun _ => handles_pure formed

end Rules

section Handlers

variable {service : Service} {req : Request} {ctx : ReqContext} {roomId : UInt64}

theorem handleLogin_handles (target : req.target = "/api/login") :
    Handles service req (handleLogin service req) := by
  unfold handleLogin
  refine handles_ite (fun post => ?_) fun _ => handles_badRequest
  split
  · exact handles_badRequest
  refine handles_ofExcept fun loginRequest _ => handles_withConn (handles_call trivial fun rows => ?_)
  split
  · refine handles_call ⟨post, target⟩ fun verified => handles_ite (fun _ => ?_) fun _ => ?_
    · exact handles_pure (@createJsonResponse_formed _ _ .incorrectPwd _ _)
    · refine handles_call ⟨post, target⟩ fun time => ?_
      exact handles_pure (@createJsonResponse_formed _ _ .success _ _)
  · exact handles_pure (@createJsonResponse_formed _ _ .userNotFound _ _)

theorem handleRegister_handles (target : req.target = "/api/register") :
    Handles service req (handleRegister service req) := by
  unfold handleRegister
  refine handles_ite (fun post => ?_) fun _ => handles_badRequest
  refine handles_tryCatch ?_ fun _ => handles_badRequest
  split
  · exact handles_badRequest
  refine handles_ofExcept fun registerRequest _ => handles_withConn ?_
  refine handles_call ⟨post, target⟩ fun hashed => handles_call (.inl ⟨post, target⟩) fun id => ?_
  refine handles_call ⟨post, target⟩ fun (count : Nat) => handles_ite (fun _ => ?_) fun _ => ?_
  · exact handles_pure (@createJsonResponse_formed _ _ .success _ _)
  · refine handles_ite (fun _ => ?_) fun _ => handles_badRequest
    exact handles_pure (@createJsonResponse_formed _ _ .regFailed _ _)

theorem createGRoom_handles (target : req.target = "/api/group_room") :
    Handles service req (createGRoom service req) := by
  unfold createGRoom
  refine handles_ite (fun _ => handles_badRequest) fun post => handles_withConn ?_
  have posts : req.Posts "/api/group_room" := ⟨not_not.mp post, target⟩
  refine handles_tryCatch ?_ fun _ => rollbackAndReply_handles badRequest_formed
  refine handles_ofExcept fun jv _ => handles_ofExcept fun createReq _ => ?_
  refine handles_call trivial fun _ => handles_call (.inr (.inl posts)) fun room => ?_
  refine handles_ofExcept fun claims _ => handles_call (.inl ⟨rfl, posts⟩) fun (_ : Nat) => ?_
  refine handles_throwIf (handles_call (.inl posts) fun (_ : Nat) => handles_throwIf ?_)
  exact handles_pure (@createJsonResponse_formed _ _ .success _ _)

theorem createPRoom_handles (target : req.target = "/api/private_room") :
    Handles service req (createPRoom service req) := by
  unfold createPRoom
  refine handles_ite (fun _ => handles_badRequest) fun post => handles_withConn ?_
  have posts : req.Posts "/api/private_room" := ⟨not_not.mp post, target⟩
  refine handles_tryCatch ?_ fun _ => rollbackAndReply_handles badRequest_formed
  refine handles_ofExcept fun jv _ => handles_ofExcept fun createReq _ => ?_
  refine handles_call trivial fun _ => handles_call (.inr (.inr posts)) fun room => ?_
  refine handles_ofExcept fun claims _ => handles_call (.inr ⟨rfl, posts⟩) fun (_ : Nat) => ?_
  refine handles_throwIf (handles_call (.inr (.inl posts)) fun (_ : Nat) => handles_throwIf ?_)
  refine handles_call trivial fun _ => ?_
  exact handles_pure (@createJsonResponse_formed _ _ .success _ _)

theorem deleteRoom_handles (deletes : req.method = .delete)
    (below : startsWith "/api/rooms/" req.target = true)
    (numbered : stoullOrThrow (extractTargetParam req.target 2) = .ok roomId) :
    Handles service req (deleteRoom service req roomId) := by
  refine handles_withConn (handles_call trivial fun _ => handles_tryCatch ?_ fun _ =>
    rollbackAndReply_handles (.json .badRequest _ _))
  refine handles_ofExcept fun claims _ => handles_call trivial fun roles => ?_
  split
  · refine handles_ite (fun _ => handles_pure (.json .forbidden _ _)) fun _ => ?_
    refine handles_call ⟨deletes, below, numbered⟩ fun (_ : Nat) => handles_throwIf ?_
    refine handles_call ⟨deletes, below, numbered⟩ fun (_ : Nat) => handles_throwIf ?_
    exact handles_call trivial fun _ => handles_pure (@createJsonResponse_formed _ _ .success _ _)
  · exact handles_pure (.json .badRequest _ _)

theorem inviteMember_handles (below : startsWith "/api/rooms/" req.target = true) :
    Handles service req (inviteMember service req roomId) := by
  unfold inviteMember
  refine handles_ite (fun _ => handles_badRequest) fun post => ?_
  refine handles_ofExcept fun jv _ => handles_ofExcept fun invtReq _ => handles_withConn ?_
  refine handles_ofExcept fun _ _ => handles_call trivial fun types => ?_
  split
  · exact handles_pure (.json .badRequest _ _)
  refine handles_ite (fun _ => handles_pure (.json .badRequest _ _)) fun _ => ?_
  refine handles_call (.inr (.inr ⟨not_not.mp post, below⟩)) fun (_ : Nat) => ?_
  refine handles_ite (fun _ => handles_badRequest) fun _ => ?_
  exact handles_pure (@createJsonResponse_formed _ _ .success _ _)

theorem handleChatRoom_handles (below : startsWith "/api/rooms/" req.target = true) :
    Handles service req (handleChatRoom service req) := by
  unfold handleChatRoom
  refine handles_tryCatch (handles_ofExcept fun roomId numbered => ?_) fun _ => handles_badRequest
  refine handles_ite (fun _ => ?_) fun _ => ?_
  · exact handles_ite (fun deletes => deleteRoom_handles deletes below numbered) fun _ =>
      handles_undefined
  · exact handles_ite (fun _ => inviteMember_handles below) fun _ => handles_badRequest

/-- The context repeats what it has from the request. -/
structure ReqContext.Of (req : Request) (ctx : ReqContext) : Prop where
  version : ctx.version = req.version
  keepAlive : ctx.keepAlive = req.keepAlive
  method : ctx.method = req.method
  target : ctx.target = req.target

theorem errorResp_formed {code : StatusCode} {message : String} (same : ctx.Of req)
    (known : code = .badRequest ∨ code = .internalServerError ∨ code = .notFound) :
    (ctx.errorResp code message).Formed service req := by
  unfold ReqContext.errorResp
  rw [same.version, same.keepAlive]
  rcases known with rfl | rfl | rfl
  · exact .json .badRequest _ _
  · exact .json .internalServerError _ _
  · exact .json .notFound _ _

theorem queryRooms_handles (same : ctx.Of req) : Handles service req (queryRooms ctx) := by
  unfold queryRooms
  refine handles_tryCatch ?_ fun _ => handles_pure (errorResp_formed same (.inr (.inl rfl)))
  refine handles_ite (fun _ => handles_pure (errorResp_formed same (.inl rfl))) fun _ => ?_
  refine handles_withConn ?_
  split
  · exact handles_undefined
  · exact handles_call trivial fun _ => handles_undefined

theorem serveAsset_handles (same : ctx.Of req) (get : req.method = .get)
    (asset : startsWith "/assets" req.target = true) :
    Handles service req (serveAsset service ctx req.assetPath) := by
  unfold serveAsset
  refine handles_ite (fun _ => handles_pure (errorResp_formed same (.inl rfl))) fun accepted => ?_
  obtain ⟨named, plain⟩ := not_or.mp accepted
  refine handles_call ⟨get, asset, rfl⟩ fun opened => ?_
  cases opened with
  | noSuchFile => exact handles_pure (errorResp_formed same (.inr (.inr rfl)))
  | failed message => exact ⟨fun _ same => by cases same⟩
  | opened size =>
    refine handles_pure ?_
    rw [same.version, same.keepAlive]
    exact .file size get asset named plain

theorem handleAssets_handles (same : ctx.Of req) (asset : startsWith "/assets" req.target = true) :
    Handles service req (handleAssets service ctx) := by
  unfold handleAssets
  refine handles_tryCatch ?_ fun _ => handles_pure (errorResp_formed same (.inr (.inl rfl)))
  refine handles_ite (fun _ => handles_pure (errorResp_formed same (.inl rfl))) fun gets => ?_
  refine handles_ite (fun _ => handles_undefined) fun _ => ?_
  have get : req.method = .get := same.method ▸ not_not.mp gets
  rw [same.target]
  exact serveAsset_handles same get asset

theorem route_handles (same : ctx.Of req) : Handles service req (route service req ctx) := by
  unfold route
  refine handles_ite handleLogin_handles fun _ => handles_ite handleRegister_handles fun _ => ?_
  refine handles_ite createGRoom_handles fun _ => handles_ite createPRoom_handles fun _ => ?_
  refine handles_ite handleChatRoom_handles fun _ => ?_
  refine handles_ite (fun _ => queryRooms_handles same) fun _ => ?_
  exact handles_ite (handleAssets_handles same) fun _ => handles_badRequest

theorem handleRequest_handles : Handles service req (handleRequest service req) := by
  unfold handleRequest
  refine handles_ofExcept fun claims _ => handles_ofExcept fun jv _ => ?_
  exact route_handles ⟨rfl, rfl, rfl, rfl⟩

end Handlers

section Requests

variable {service : Service} {req : Request}

/-- Whatever its calls are answered, a request makes only calls that its method and its target
allow: none that writes unless it is a `POST` or a `DELETE`, no deletion but that of the room
of its target, no file but that of its target, and none that tells another user anything. -/
theorem requests_confined :
    (handleRequest service req).Meets (confined service req) (fun _ _ => True) () :=
  handleRequest_handles.meets.mono fun _ _ _ => trivial

/-- Every reply repeats the version and the keep-alive of its request, and is an `ApiResponse`
whose code goes with the HTTP status, or the file that the document root and the target name. -/
theorem replies_formed {response : Response}
    (path : (handleRequest service req).Path (confined service req) () () (.returned response)) :
    response.Formed service req :=
  handleRequest_handles.meets.path path response rfl

/-- A file of 3 bytes. -/
theorem replies_formed_asset :
    Response.Formed sampleService (sampleRequest .get "/assets/a.txt" "1" "")
      { status := 200, version := 11, keepAlive := true, server := .tinyChatServer
        contentType := "text/plain", body := .file "/srv/www/a.txt" 3 } := by
  refine @replies_formed sampleService _ _ ?_
  exact @Path.call Op Op.Result _ _ _ (.openFile "/srv/www/a.txt") _ (.ok (OpenResult.opened 3))
    () () () _ trivial .done

end Requests

end TinyChat.Core
