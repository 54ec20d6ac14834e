import TinyChat.Core.RequestHandler
import TinyChat.Core.WSHandler

/-! What an exception out of a worker task does: `ThreadPool` calls `task()` without a
handler, so a task may only end by returning. -/
namespace TinyChat.Core

open TinyChat.Db TinyChat.Effect TinyChat.Text TinyChat.Utils
open Program

/-- The calls that throw although the database works: the clock has stepped back, or
there is no memory for a hash. -/
def Op.MayThrow : Op → Prop
  | .nextId => True
  | .hashPassword _ => True
  | _ => False

/-- Any contents of the database and the file system, all database calls succeeding. -/
def databaseWorks : Contract Op Op.Result Unit where
  permitted _ _ := True
  expected _ op answer _ := op.MayThrow ∨ ∃ result, answer = .ok result

/-- The task returns, whatever its calls are answered. -/
def Returns {α : Type} (task : WorkerTask α) : Prop := task.Ends databaseWorks false

/-- The task ends, though perhaps by an exception. -/
def Stops {α : Type} (task : WorkerTask α) : Prop := task.Ends databaseWorks true

theorem within_of_returned {α : Type} {mayRaise : Bool} :
    ∀ {outcome : Outcome α}, outcome.Within false → outcome.Within mayRaise
  | .returned _, _ => trivial

section Rules

variable {α β : Type} {task : WorkerTask α} {next : α → WorkerTask β} {mayRaise : Bool}

theorem ends_call {op : Op} (quiet : mayRaise = false → ¬ op.MayThrow) :
    (perform op : WorkerTask op.Result).Ends databaseWorks mayRaise := by
  refine ends_perform (fun _ => trivial) fun none _ what _ due => ?_
  rcases due with throws | ⟨result, same⟩
  · exact quiet none throws
  · cases same

theorem ends_executeQuery {query : Query} :
    (executeQuery query).Ends databaseWorks mayRaise :=
  ends_call fun _ => not_false

theorem ends_throwIf {condition : Prop} [Decidable condition] {what : String} :
    (throwIf condition what).Ends databaseWorks true := by
  unfold throwIf
  split
  · exact ends_raise
  · exact ends_pure

theorem ends_withConn (body : task.Ends databaseWorks mayRaise) :
    (withConn task).Ends databaseWorks mayRaise :=
  ends_bind (ends_call fun _ => not_false) fun _ =>
    ends_withDestructor (ends_call fun _ => not_false) body

theorem ends_of_call {op : Op} {next : op.Result → WorkerTask β}
    (ends : (perform op >>= next : WorkerTask β).Ends databaseWorks mayRaise) (result : op.Result) :
    (next result).Ends databaseWorks mayRaise :=
  fun state => (meets_perform.mp (meets_bind.mp (ends state))).2.1 result state (.inr ⟨result, rfl⟩)

theorem ends_of_withConn (ends : (withConn task).Ends databaseWorks mayRaise) :
    task.Ends databaseWorks true :=
  ends_of_withDestructor (ends_of_call ends ⟨⟩)

theorem not_ends_undefined : ¬ (undefined : WorkerTask α).Ends databaseWorks mayRaise :=
  fun ends => ends ()

end Rules

theorem storeMessage_stops {roomId : UInt64} {content : String} {userClaims : UserClaims}
    {insertFailed updateFailed : String} :
    Stops (storeMessage roomId content userClaims insertFailed updateFailed) := by
  refine ends_bind (ends_call nofun) fun members => ?_
  split
  · exact ends_bind (ends_call nofun) fun _ => ends_pure
  · refine ends_bind (ends_call nofun) fun msgId => ?_
    refine ends_bind (ends_call nofun) fun inserted => ends_bind ends_throwIf fun _ => ?_
    refine ends_bind (ends_call nofun) fun updated => ends_bind ends_throwIf fun _ => ?_
    exact ends_bind (ends_call nofun) fun _ => ends_pure

theorem privateMessage_stops {data : Json} {userClaims : UserClaims} :
    Stops (privateMessage data userClaims) := by
  refine ends_bind ends_ofExcept fun msg => ends_bind storeMessage_stops fun stored => ?_
  split
  · exact ends_bind (ends_call nofun) fun _ => ends_call nofun
  · exact ends_pure

theorem groupMessage_stops {data : Json} {userClaims : UserClaims} :
    Stops (groupMessage data userClaims) := by
  refine ends_bind ends_ofExcept fun msg => ends_bind storeMessage_stops fun stored => ?_
  split
  · exact ends_bind (ends_call nofun) fun _ => ends_call nofun
  · exact ends_pure

/-- Everything after `begin_transaction` is inside the `try` block. -/
theorem handleMessage_returns {service : Service} {msg : String} {userClaims : UserClaims} :
    Returns (handleMessage service msg userClaims) := by
  refine ends_withConn (ends_bind (ends_call fun _ => not_false) fun _ => ?_)
  refine ends_tryCatch ?_ fun _ => ends_call fun _ => not_false
  refine ends_bind ends_ofExcept fun jv => ends_bind ends_ofExcept fun typed => ?_
  obtain ⟨obj, type⟩ := typed
  dsimp only
  split
  · exact ends_bind ends_ofExcept fun data => privateMessage_stops
  · split
    · exact ends_bind ends_ofExcept fun data => groupMessage_stops
    · exact ends_pure

section Handlers

variable {service : Service} {req : Request} {ctx : ReqContext} {roomId : UInt64}

theorem rollbackAndReply_returns {response : Response} : Returns (rollbackAndReply response) :=
  ends_bind (ends_call fun _ => not_false) fun _ => ends_pure

theorem insertGRoom_stops : Stops (insertGRoom service req) := by
  refine ends_bind ends_ofExcept fun jv => ends_bind ends_ofExcept fun createReq => ?_
  refine ends_bind (ends_call nofun) fun _ => ends_bind (ends_call nofun) fun room => ?_
  refine ends_bind ends_ofExcept fun userClaims => ?_
  refine ends_bind (ends_call nofun) fun row1 => ends_bind ends_throwIf fun _ => ?_
  exact ends_bind (ends_call nofun) fun row2 => ends_bind ends_throwIf fun _ => ends_pure

theorem createGRoom_returns : Returns (createGRoom service req) := by
  unfold createGRoom
  split
  · exact ends_pure
  · exact ends_withConn (ends_tryCatch insertGRoom_stops fun _ => rollbackAndReply_returns)

theorem insertPRoom_stops : Stops (insertPRoom service req) := by
  refine ends_bind ends_ofExcept fun jv => ends_bind ends_ofExcept fun createReq => ?_
  refine ends_bind (ends_call nofun) fun _ => ends_bind (ends_call nofun) fun room => ?_
  refine ends_bind ends_ofExcept fun userClaims => ?_
  refine ends_bind (ends_call nofun) fun row1 => ends_bind ends_throwIf fun _ => ?_
  refine ends_bind (ends_call nofun) fun row2 => ends_bind ends_throwIf fun _ => ?_
  exact ends_bind (ends_call nofun) fun _ => ends_pure

theorem createPRoom_returns : Returns (createPRoom service req) := by
  unfold createPRoom
  split
  · exact ends_pure
  · exact ends_withConn (ends_tryCatch insertPRoom_stops fun _ => rollbackAndReply_returns)

theorem deleteRows_stops : Stops (deleteRows req roomId) := by
  refine ends_bind (ends_call nofun) fun members => ends_bind ends_throwIf fun _ => ?_
  refine ends_bind (ends_call nofun) fun rooms => ends_bind ends_throwIf fun _ => ?_
  exact ends_bind (ends_call nofun) fun _ => ends_pure

theorem deleteOwned_stops : Stops (deleteOwned service req roomId) := by
  refine ends_bind ends_ofExcept fun userClaims => ends_bind ends_executeQuery fun roles => ?_
  cases roles with
  | nil => exact ends_pure
  | cons role more =>
    dsimp only
    split
    · exact ends_pure
    · exact deleteRows_stops

theorem deleteRoom_returns : Returns (deleteRoom service req roomId) :=
  ends_withConn (ends_bind (ends_call fun _ => not_false) fun _ =>
    ends_tryCatch deleteOwned_stops fun _ => rollbackAndReply_returns)

theorem inviteMember_stops : Stops (inviteMember service req roomId) := by
  unfold inviteMember Stops
  split
  · exact ends_pure
  · refine ends_bind ends_ofExcept fun jv => ends_bind ends_ofExcept fun invtReq => ?_
    refine ends_withConn (ends_bind ends_ofExcept fun _ => ends_bind (ends_call nofun) fun types => ?_)
    cases types with
    | nil => exact ends_pure
    | cons type more =>
      dsimp only
      split
      · exact ends_pure
      · refine ends_bind (ends_call nofun) fun row => ?_
        split
        · exact ends_pure
        · exact ends_pure

theorem serveAsset_stops {assetPath : List Char} : Stops (serveAsset service ctx assetPath) := by
  unfold serveAsset Stops
  split
  · exact ends_pure
  · refine ends_bind (ends_call nofun) fun opened => ?_
    cases opened with
    | opened size => exact ends_pure
    | noSuchFile => exact ends_pure
    | failed message => exact ends_raise

theorem handleRegister_returns : Returns (handleRegister service req) := by
  unfold handleRegister
  split
  · refine ends_tryCatch ?_ fun _ => ends_pure
    cases service.parse req.body with
    | error what => exact ends_pure
    | ok jv =>
      refine ends_bind ends_ofExcept fun registerRequest => ends_withConn ?_
      refine ends_bind (ends_call nofun) fun hashed => ends_bind (ends_call nofun) fun id => ?_
      refine ends_bind (ends_call nofun) fun row => ?_
      split
      · exact ends_pure
      · split <;> exact ends_pure
  · exact ends_pure

theorem loginUser_returns {loginRequest : LoginRequest} {row : UserRow} :
    Returns (loginUser service req loginRequest row) := by
  refine ends_bind (ends_call fun _ => not_false) fun verified => ?_
  split
  · exact ends_pure
  · exact ends_bind (ends_call fun _ => not_false) fun time => ends_pure

/-- `handle_login` decodes the body outside of any `try` block. -/
theorem handleLogin_returns_iff : Returns (handleLogin service req) ↔
    (req.method = .post → ∀ jv, service.parse req.body = .ok jv →
      ∃ loginRequest, LoginRequest.valueTo jv = .ok loginRequest) := by
  unfold handleLogin
  split
  · rename_i post
    cases parsed : service.parse req.body with
    | error what => exact iff_of_true ends_pure fun _ _ => nofun
    | ok jv =>
      cases decoded : LoginRequest.valueTo jv with
      | error what =>
        refine iff_of_false (fun returns => absurd (returns ()) ?_) fun decodes => ?_
        · simp [decoded]
        · obtain ⟨loginRequest, same⟩ := decodes post jv rfl
          cases decoded.symm.trans same
      | ok loginRequest =>
        refine iff_of_true ?_ fun _ _ same => ⟨loginRequest, Except.ok.inj same ▸ decoded⟩
        refine ends_bind (ends_ofExcept_ok decoded) fun _ => ends_withConn ?_
        refine ends_bind ends_executeQuery fun rows => ?_
        cases rows with
        | nil => exact ends_pure
        | cons row more => exact loginUser_returns
  · rename_i other
    exact iff_of_true ends_pure fun post => absurd post other

theorem handleChatRoom_returns_iff : Returns (handleChatRoom service req) ↔
    (req.method ≠ .delete → extractTargetParam req.target 3 = "" →
      ∀ roomId, stoullOrThrow (extractTargetParam req.target 2) ≠ .ok roomId) := by
  cases numbered : stoullOrThrow (extractTargetParam req.target 2) with
  | error what =>
    refine iff_of_true ?_ fun _ _ _ => nofun
    unfold handleChatRoom
    rw [numbered]
    exact ends_tryCatch ends_raise fun _ => ends_pure
  | ok roomId =>
    unfold handleChatRoom
    rw [numbered]
    by_cases noVerb : extractTargetParam req.target 3 = ""
    · by_cases deletes : req.method = .delete
      · refine iff_of_true (ends_tryCatch ?_ fun _ => ends_pure) fun other => absurd deletes other
        refine ends_bind ends_ofExcept fun room => ?_
        simp only [noVerb, deletes, if_true]
        exact fun state => (deleteRoom_returns state).mono fun _ outcome => within_of_returned
      · refine iff_of_false (fun returns => ?_) fun numberless => numberless deletes noVerb roomId rfl
        have flowsOff := returns ()
        simp [noVerb, deletes] at flowsOff
    · refine iff_of_true (ends_tryCatch ?_ fun _ => ends_pure) fun _ empty => absurd empty noVerb
      refine ends_bind ends_ofExcept fun room => ?_
      simp only [noVerb, if_false]
      split
      · exact inviteMember_stops
      · exact ends_pure

theorem queryRooms_returns_iff : Returns (queryRooms ctx) ↔ ctx.method ≠ .get := by
  unfold queryRooms
  by_cases gets : ctx.method = .get
  · refine iff_of_false (fun returns => ?_) fun other => other gets
    rw [if_neg (not_not_intro gets)] at returns
    have body := ends_of_withConn (ends_of_tryCatch returns)
    cases claimed : ctx.userClaimsOpt with
    | none =>
      rw [claimed] at body
      exact not_ends_undefined body
    | some userClaims =>
      rw [claimed] at body
      exact not_ends_undefined (ends_of_call body [])
  · rw [if_pos gets]
    exact iff_of_true (ends_tryCatch ends_pure fun _ => ends_pure) gets

theorem handleAssets_returns_iff : Returns (handleAssets service ctx) ↔
    (ctx.method = .get → "/assets/".length ≤ ctx.target.toList.length) := by
  unfold handleAssets
  by_cases gets : ctx.method = .get
  · rw [if_neg (not_not_intro gets)]
    by_cases short : ctx.target.toList.length < "/assets/".length
    · rw [if_pos short]
      exact iff_of_false (fun returns => returns ()) fun enough => absurd (enough gets) (by omega)
    · rw [if_neg short]
      exact iff_of_true (ends_tryCatch serveAsset_stops fun _ => ends_pure) fun _ => by omega
  · rw [if_pos gets]
    exact iff_of_true (ends_tryCatch ends_pure fun _ => ends_pure) fun get => absurd get gets

end Handlers

/-- The requests whose task returns: what is read before the dispatch can be read, and
the handler has no path that throws or flows off its end. -/
structure Answerable (service : Service) (req : Request) : Prop where
  authorization : ∀ token, req.authorization = some token →
    ∃ userClaims, service.jwt.extractUserClaims token = .ok userClaims
  body : req.body ≠ "" → ∃ jv, service.parse req.body = .ok jv
  login : req.target = "/api/login" → req.method = .post →
    ∀ jv, service.parse req.body = .ok jv →
      ∃ loginRequest, LoginRequest.valueTo jv = .ok loginRequest
  room : startsWith "/api/rooms/" req.target = true → req.method ≠ .delete →
    extractTargetParam req.target 3 = "" →
    ∀ roomId, stoullOrThrow (extractTargetParam req.target 2) ≠ .ok roomId
  rooms : req.target = "/users/me/rooms" → req.method ≠ .get
  assets : startsWith "/assets" req.target = true → req.method = .get →
    "/assets/".length ≤ req.target.toList.length

section Requests

variable {service : Service} {req : Request}

theorem claimsOf_ok_iff : (∃ userClaimsOpt, claimsOf service req = .ok userClaimsOpt) ↔
    ∀ token, req.authorization = some token →
      ∃ userClaims, service.jwt.extractUserClaims token = .ok userClaims := by
  unfold claimsOf
  cases req.authorization with
  | none => simp
  | some token =>
    cases extracted : service.jwt.extractUserClaims token <;> simp [Except.map, extracted]

theorem bodyOf_ok_iff : (∃ jvOpt, bodyOf service req = .ok jvOpt) ↔
    (req.body ≠ "" → ∃ jv, service.parse req.body = .ok jv) := by
  unfold bodyOf
  split
  · rename_i empty
    simp [empty]
  · rename_i nonempty
    cases service.parse req.body <;> simp [Except.map, nonempty]

/-- The dispatcher has no `try` block around what it does before routing. -/
theorem handleRequest_returns_iff_route : Returns (handleRequest service req) ↔
    ∃ userClaimsOpt jvOpt, claimsOf service req = .ok userClaimsOpt ∧
      bodyOf service req = .ok jvOpt ∧
      Returns (route service req
        { version := req.version, keepAlive := req.keepAlive, method := req.method
          target := req.target, jvOpt, userClaimsOpt }) := by
  unfold handleRequest
  cases claimed : claimsOf service req with
  | error what => exact iff_of_false (fun returns => absurd (returns ()) (by simp)) (by simp)
  | ok userClaimsOpt =>
    cases parsed : bodyOf service req with
    | error what => exact iff_of_false (fun returns => absurd (returns ()) (by simp)) (by simp)
    | ok jvOpt =>
      constructor
      · exact fun returns => ⟨userClaimsOpt, jvOpt, rfl, rfl, returns⟩
      · rintro ⟨_, _, same, again, returns⟩
        cases same
        cases again
        exact returns

theorem startsWith_exclusive {first second target : String}
    (apart : startsWith first second = false) (also : startsWith second first = false)
    (starts : startsWith first target = true) : ¬ startsWith second target = true := by
  intro both
  simp only [startsWith, List.isPrefixOf_iff_prefix, Bool.eq_false_iff, ne_eq] at *
  rcases List.prefix_or_prefix_of_prefix starts both with one | other
  · exact apart one
  · exact also other

/-- The part of `Answerable` that depends on the route. -/
theorem route_returns_iff {ctx : ReqContext} (method : ctx.method = req.method)
    (target : ctx.target = req.target) : Returns (route service req ctx) ↔
    (req.target = "/api/login" → req.method = .post → ∀ jv, service.parse req.body = .ok jv →
      ∃ loginRequest, LoginRequest.valueTo jv = .ok loginRequest) ∧
    (startsWith "/api/rooms/" req.target = true → req.method ≠ .delete →
      extractTargetParam req.target 3 = "" →
      ∀ roomId, stoullOrThrow (extractTargetParam req.target 2) ≠ .ok roomId) ∧
    (req.target = "/users/me/rooms" → req.method ≠ .get) ∧
    (startsWith "/assets" req.target = true → req.method = .get →
      "/assets/".length ≤ req.target.toList.length) := by
  have elsewhere {fixed : String} (at_ : req.target = fixed)
      (noRoom : startsWith "/api/rooms/" fixed = false) (noAsset : startsWith "/assets" fixed = false) :
      ¬ startsWith "/api/rooms/" req.target = true ∧ ¬ startsWith "/assets" req.target = true := by
    simp [at_, noRoom, noAsset]
  unfold route
  by_cases login : req.target = "/api/login"
  · obtain ⟨noRoom, noAsset⟩ := elsewhere login (by decide) (by decide)
    rw [if_pos login, handleLogin_returns_iff]
    simp only [noRoom, noAsset]
    simp [login]
  by_cases register : req.target = "/api/register"
  · obtain ⟨noRoom, noAsset⟩ := elsewhere register (by decide) (by decide)
    rw [if_neg login, if_pos register]
    simp only [noRoom, noAsset]
    exact iff_of_true handleRegister_returns (by simp [register])
  by_cases groupRoom : req.target = "/api/group_room"
  · obtain ⟨noRoom, noAsset⟩ := elsewhere groupRoom (by decide) (by decide)
    rw [if_neg login, if_neg register, if_pos groupRoom]
    simp only [noRoom, noAsset]
    exact iff_of_true createGRoom_returns (by simp [groupRoom])
  by_cases privateRoom : req.target = "/api/private_room"
  · obtain ⟨noRoom, noAsset⟩ := elsewhere privateRoom (by decide) (by decide)
    rw [if_neg login, if_neg register, if_neg groupRoom, if_pos privateRoom]
    simp only [noRoom, noAsset]
    exact iff_of_true createPRoom_returns (by simp [privateRoom])
  rw [if_neg login, if_neg register, if_neg groupRoom, if_neg privateRoom]
  by_cases rooms : req.target = "/users/me/rooms"
  · obtain ⟨noRoom, noAsset⟩ := elsewhere rooms (by decide) (by decide)
    rw [if_neg noRoom, if_pos rooms, queryRooms_returns_iff, method]
    simp only [noRoom, noAsset]
    simp [rooms]
  rw [if_neg rooms]
  by_cases room : startsWith "/api/rooms/" req.target = true
  · have noAsset := @startsWith_exclusive _ "/assets" _ (by decide) (by decide) room
    rw [if_pos room, handleChatRoom_returns_iff]
    simp [login, rooms, room, noAsset]
  rw [if_neg room]
  by_cases assets : startsWith "/assets" req.target = true
  · rw [if_pos assets, handleAssets_returns_iff, method, target]
    simp [login, rooms, room, assets]
  · rw [if_neg assets]
    exact iff_of_true ends_pure (by simp [login, rooms, room, assets])

theorem handleRequest_returns_iff : Returns (handleRequest service req) ↔ Answerable service req := by
  rw [handleRequest_returns_iff_route]
  constructor
  · rintro ⟨userClaimsOpt, jvOpt, claimed, parsed, returns⟩
    obtain ⟨login, room, rooms, assets⟩ := (route_returns_iff rfl rfl).mp returns
    exact ⟨claimsOf_ok_iff.mp ⟨_, claimed⟩, bodyOf_ok_iff.mp ⟨_, parsed⟩, login, room, rooms, assets⟩
  · intro answerable
    obtain ⟨userClaimsOpt, claimed⟩ := claimsOf_ok_iff.mpr answerable.authorization
    obtain ⟨jvOpt, parsed⟩ := bodyOf_ok_iff.mpr answerable.body
    exact ⟨userClaimsOpt, jvOpt, claimed, parsed, (route_returns_iff rfl rfl).mpr
      ⟨answerable.login, answerable.room, answerable.rooms, answerable.assets⟩⟩

/-- A WebSocket task always returns. An HTTP task returns exactly if its request is
answerable: token and body are read outside any `try` block, as is the body of a
login; a room target without verb and the query of rooms flow off their end; and the
target `/assets` is shorter than what is cut off it. -/
theorem workers_survive_iff (service : Service) :
    (∀ msg userClaims, Returns (handleMessage service msg userClaims)) ∧
      ∀ req, Returns (handleRequest service req) ↔ Answerable service req :=
  ⟨fun _ _ => handleMessage_returns, fun _ => handleRequest_returns_iff⟩

end Requests

/-- A request whose Authorization field is no token ends the process. -/
theorem malformed_token_kills_worker :
    ¬ ∀ (service : Service) (req : Request), Returns (handleRequest service req) := by
  intro claimed
  have returns := claimed
    { jwt := { decode := fun _ => .error "invalid token supplied"
               encode := fun _ _ => ""
               hs256 := fun _ _ => "" }
      parse := fun _ => .error "syntax error"
      jwtSecret := "secret"
      docRoot := "/srv/www" }
    { version := 11, keepAlive := true, method := .get, target := "/"
      authorization := some "x", body := "" }
  have escaped : false = true := returns ()
  cases escaped

end TinyChat.Core
