import TinyChat.Core.TargetSegments
import TinyChat.Core.WorkerTasks

namespace TinyChat.Core

open TinyChat.Db TinyChat.Effect TinyChat.Text TinyChat.Utils
open Program

theorem targetParam_rooms {segment after : List Char} (inside : '/' ∉ segment)
    (ends : after = [] ∨ ∃ more, after = '/' :: more) :
    targetParamFrom ("/api/rooms/".toList ++ (segment ++ after)) 0 2 = segment ∧
      targetParamFrom ("/api/rooms/".toList ++ (segment ++ after)) 0 3 =
        (after.drop 1).takeWhile (· ≠ '/') := by
  have cut : segments ("/api/rooms/".toList ++ (segment ++ after)) =
      "api".toList :: "rooms".toList :: (segment ++ after).splitOn '/' := by
    change ("api".toList ++ '/' :: ("rooms".toList ++ '/' :: (segment ++ after))).splitOn '/' = _
    rw [List.splitOn_append_cons_self_of_not_mem (by decide),
      List.splitOn_append_cons_self_of_not_mem (by decide)]
  rw [targetParamFrom_eq, targetParamFrom_eq, List.drop_zero, cut]
  simp only [List.getElem?_cons_succ]
  constructor
  · rw [segments_here inside ends]
    rfl
  · rw [segments_later inside ends]
    rcases ends with rfl | ⟨more, rfl⟩
    · exact segments_nil
    · exact splitOn_head

/-- What `handle_chat_room` comes to. -/
inductive RoomCall where
  | deleteRoom (roomId : UInt64)
  | inviteMember (roomId : UInt64)
  | targetNotFound
  /-- The room id cannot be read. -/
  | serverError
  /-- Control flows off the end of the function. -/
  | flowsOff
  deriving DecidableEq

/-- The tests of `handle_chat_room` on method and target. -/
def roomCall (req : Request) : RoomCall :=
  match stoull (extractTargetParam req.target 2) with
  | .error _ => .serverError
  | .ok roomId =>
    if extractTargetParam req.target 3 = "" then
      if req.method = .delete then .deleteRoom roomId else .flowsOff
    else if extractTargetParam req.target 3 = "member" then .inviteMember roomId
    else .targetNotFound

/-- The call, inside the `try` block of `handle_chat_room`. -/
def RoomCall.task (service : Service) (req : Request) : RoomCall → WorkerTask Response
  | .deleteRoom roomId =>
    tryCatch (Core.deleteRoom service req roomId) fun _ => pure (badRequest req " Server Error")
  | .inviteMember roomId =>
    tryCatch (Core.inviteMember service req roomId) fun _ => pure (badRequest req " Server Error")
  | .targetNotFound => pure (badRequest req " target not found")
  | .serverError => pure (badRequest req " Server Error")
  | .flowsOff => undefined

variable {service : Service} {req : Request} {ctx : ReqContext} {roomId : UInt64}

theorem handleChatRoom_eq : handleChatRoom service req = (roomCall req).task service req := by
  unfold handleChatRoom roomCall stoullOrThrow
  cases stoull (extractTargetParam req.target 2) with
  | error what => rfl
  | ok roomId =>
    by_cases noVerb : extractTargetParam req.target 3 = ""
    · by_cases deletes : req.method = .delete
      · simp only [noVerb, deletes, if_true]
        rfl
      · simp only [noVerb, deletes, if_true, if_false]
        rfl
    · by_cases member : extractTargetParam req.target 3 = "member"
      · have named : ¬ "member" = "" := by decide
        simp only [member, named, if_true, if_false]
        rfl
      · simp only [noVerb, member, if_false]
        rfl

/-- The room segment of a target below `/api/rooms/`, and what follows it. -/
structure RoomTarget (target roomSegment rest : String) : Prop where
  split : target = "/api/rooms/" ++ roomSegment ++ rest
  inside : '/' ∉ roomSegment.toList
  ends : rest = "" ∨ startsWith "/" rest = true

theorem startsWith_iff {head target : String} :
    startsWith head target = true ↔ ∃ rest, target = head ++ rest := by
  simp only [startsWith, List.isPrefixOf_iff_prefix]
  constructor
  · rintro ⟨rest, same⟩
    exact ⟨String.ofList rest, String.toList_injective (by simp [same])⟩
  · rintro ⟨rest, rfl⟩
    exact ⟨rest.toList, by simp⟩

theorem exists_roomTarget {target : String} (rooms : startsWith "/api/rooms/" target = true) :
    ∃ roomSegment rest, RoomTarget target roomSegment rest := by
  obtain ⟨below, rfl⟩ := startsWith_iff.mp rooms
  obtain ⟨segment, after, split, inside, ends⟩ := exists_segment below.toList
  refine ⟨String.ofList segment, String.ofList after, ?_, by simpa using inside, ?_⟩
  · exact String.toList_injective (by simp [split])
  · rcases ends with rfl | ⟨more, rfl⟩
    · exact .inl rfl
    · exact .inr (startsWith_iff.mpr ⟨String.ofList more, String.toList_injective (by simp)⟩)

section RoomTargets

variable {target roomSegment rest : String}

theorem ends_toList_iff : (rest = "" ∨ startsWith "/" rest = true) ↔
    (rest.toList = [] ∨ ∃ more, rest.toList = '/' :: more) := by
  refine or_congr String.toList_eq_nil_iff.symm ?_
  rw [startsWith_iff]
  constructor
  · rintro ⟨more, rfl⟩
    exact ⟨more.toList, by simp⟩
  · rintro ⟨more, same⟩
    exact ⟨String.ofList more, String.toList_injective (by simp [same])⟩

theorem RoomTarget.params (at_ : RoomTarget target roomSegment rest) :
    extractTargetParam target 2 = roomSegment ∧ extractTargetParam target 3 =
      String.ofList ((rest.toList.drop 1).takeWhile (· ≠ '/')) := by
  obtain ⟨split, inside, ends⟩ := at_
  obtain ⟨room, verb⟩ := targetParam_rooms inside (ends_toList_iff.mp ends)
  subst split
  constructor
  · simp only [extractTargetParam, String.toList_append, List.append_assoc, room, String.ofList_toList]
  · simp only [extractTargetParam, String.toList_append, List.append_assoc, verb]

/-- The verb is empty. -/
def NoVerb (rest : String) : Prop := rest = "" ∨ rest = "/" ∨ startsWith "//" rest = true

/-- The verb is `member`, perhaps with further segments behind it. -/
def MemberVerb (rest : String) : Prop :=
  ∃ more, rest = "/member" ++ more ∧ (more = "" ∨ startsWith "/" more = true)

theorem RoomTarget.verb (at_ : RoomTarget target roomSegment rest) :
    (rest = "" ∧ extractTargetParam target 3 = "") ∨ ∃ more,
      rest = "/" ++ extractTargetParam target 3 ++ more ∧ (more = "" ∨ startsWith "/" more = true) := by
  rw [at_.params.2]
  rcases at_.ends with rfl | slash
  · exact .inl ⟨rfl, rfl⟩
  · obtain ⟨below, rfl⟩ := startsWith_iff.mp slash
    obtain ⟨segment, after, split, inside, ends⟩ := exists_segment below.toList
    have first : (("/" ++ below).toList.drop 1).takeWhile (· ≠ '/') = segment := by
      have same : ("/" ++ below).toList.drop 1 = segment ++ after := by simpa using split
      rw [same, takeWhile_segment inside ends]
    rw [first]
    refine .inr ⟨String.ofList after, ?_, ends_toList_iff.mpr (by simpa using ends)⟩
    exact String.toList_injective (by simpa using split)

theorem RoomTarget.noVerb_iff (at_ : RoomTarget target roomSegment rest) :
    extractTargetParam target 3 = "" ↔ NoVerb rest := by
  constructor
  · intro empty
    rcases at_.verb with ⟨nothing, _⟩ | ⟨more, split, none | slash⟩
    · exact .inl nothing
    · exact .inr (.inl (by rw [split, empty, none]; rfl))
    · obtain ⟨below, rfl⟩ := startsWith_iff.mp slash
      refine .inr (.inr (startsWith_iff.mpr ⟨below, ?_⟩))
      rw [split, empty]
      exact String.toList_injective (by simp)
  · rw [at_.params.2]
    rintro (rfl | rfl | slashes)
    · rfl
    · rfl
    · obtain ⟨below, rfl⟩ := startsWith_iff.mp slashes
      simp

theorem RoomTarget.memberVerb_iff (at_ : RoomTarget target roomSegment rest) :
    extractTargetParam target 3 = "member" ↔ MemberVerb rest := by
  constructor
  · intro member
    rcases at_.verb with ⟨_, empty⟩ | ⟨more, split, ends⟩
    · rw [member] at empty
      exact absurd empty (by decide)
    · refine ⟨more, ?_, ends⟩
      rw [split, member]
      rfl
  · rw [at_.params.2]
    rintro ⟨more, rfl, ends⟩
    have first := @takeWhile_segment "member".toList more.toList (by decide) (ends_toList_iff.mp ends)
    apply String.toList_injective
    simpa using first

theorem roomCall_eq_deleteRoom_iff : roomCall req = .deleteRoom roomId ↔ req.method = .delete ∧
    stoull (extractTargetParam req.target 2) = .ok roomId ∧ extractTargetParam req.target 3 = "" := by
  unfold roomCall
  cases stoull (extractTargetParam req.target 2) with
  | error what => simp
  | ok read =>
    by_cases noVerb : extractTargetParam req.target 3 = ""
    · by_cases deletes : req.method = .delete <;> simp [noVerb, deletes]
    · by_cases member : extractTargetParam req.target 3 = "member" <;> simp [noVerb, member]

theorem roomCall_eq_inviteMember_iff : roomCall req = .inviteMember roomId ↔
    stoull (extractTargetParam req.target 2) = .ok roomId ∧
      extractTargetParam req.target 3 = "member" := by
  unfold roomCall
  cases stoull (extractTargetParam req.target 2) with
  | error what => simp
  | ok read =>
    by_cases member : extractTargetParam req.target 3 = "member"
    · simp [member]
    · by_cases noVerb : extractTargetParam req.target 3 = ""
      · by_cases deletes : req.method = .delete <;> simp [noVerb, deletes]
      · simp [noVerb, member]

end RoomTargets

/-- None of the rooms in question is deleted or gets a member, if `next_id` gives no id of
one of them. -/
def sparing (existing : UInt64 → Prop) : Contract Op Op.Result Unit where
  permitted _
    | .update (.deleteMembers _) | .update (.deleteRoom _) => False
    | .update (.insertMembers rows) => ∀ row ∈ rows, ¬ existing row.roomId
    | _ => True
  expected _
    | .nextId, .ok (id : UInt64), _ => ¬ existing id
    | _, _, _ => True

section Sparing

variable {existing : UInt64 → Prop}

theorem sparing_governs : GovernsRooms (sparing existing) where
  quiet state op quiet := by
    cases op <;> trivial
  registers := fun _ _ _ _ _ _ => trivial

theorem sparing_fills (unused : ¬ existing roomId) : Fills (sparing existing) roomId where
  room := fun _ _ => obeys_perform fun _ => trivial
  members := fun _ all => obeys_perform fun _ row member room =>
    unused (all row member ▸ room)

/-- No other target deletes a room or adds a member. -/
theorem route_spares (other : startsWith "/api/rooms/" req.target = true → ∀ roomId,
    roomCall req ≠ .deleteRoom roomId ∧ roomCall req ≠ .inviteMember roomId) :
    (route service req ctx).Obeys (sparing existing) := by
  intro state
  refine sparing_governs.route (fun _ _ _ drawn => sparing_fills drawn) fun below => ?_
  replace other := other below
  rw [handleChatRoom_eq]
  generalize roomCall req = call at other ⊢
  cases call with
  | deleteRoom roomId => exact absurd rfl (other roomId).1
  | inviteMember roomId => exact absurd rfl (other roomId).2
  | targetNotFound => exact obeys_done state
  | serverError => exact obeys_done state
  | flowsOff => exact obeys_done state

end Sparing

/-- Which targets delete a room or add a member: below `/api/rooms/`, `handle_chat_room`
makes one call, decided by method and target; it deletes the room whose id `std::stoull`
reads from the room segment exactly for the method DELETE and an empty verb, and invites
to it exactly for the verb `member`, whatever segments are behind it. Every other request
spares the rooms that exist. -/
theorem room_routing_iff (service : Service) (req : Request) :
    (startsWith "/api/rooms/" req.target = true →
      handleChatRoom service req = (roomCall req).task service req ∧
      (∀ roomId, roomCall req = .deleteRoom roomId ↔ req.method = .delete ∧
        ∃ roomSegment rest, RoomTarget req.target roomSegment rest ∧
          stoull roomSegment = .ok roomId ∧ NoVerb rest) ∧
      (∀ roomId, roomCall req = .inviteMember roomId ↔
        ∃ roomSegment rest, RoomTarget req.target roomSegment rest ∧
          stoull roomSegment = .ok roomId ∧ MemberVerb rest)) ∧
    ∀ ctx existing, (startsWith "/api/rooms/" req.target = true → ∀ roomId,
        roomCall req ≠ .deleteRoom roomId ∧ roomCall req ≠ .inviteMember roomId) →
      (route service req ctx).Obeys (sparing existing) := by
  refine ⟨fun rooms => ?_, fun ctx existing other => route_spares other⟩
  obtain ⟨roomSegment, rest, at_⟩ := exists_roomTarget rooms
  refine ⟨handleChatRoom_eq, fun roomId => ?_, fun roomId => ?_⟩
  · rw [roomCall_eq_deleteRoom_iff]
    refine and_congr_right fun _ => ⟨fun ⟨read, verb⟩ => ?_, fun ⟨other, more, cut, read, empty⟩ => ?_⟩
    · exact ⟨roomSegment, rest, at_, at_.params.1 ▸ read, at_.noVerb_iff.mp verb⟩
    · exact ⟨cut.params.1.symm ▸ read, cut.noVerb_iff.mpr empty⟩
  · rw [roomCall_eq_inviteMember_iff]
    refine ⟨fun ⟨read, verb⟩ => ?_, fun ⟨other, more, cut, read, member⟩ => ?_⟩
    · exact ⟨roomSegment, rest, at_, at_.params.1 ▸ read, at_.memberVerb_iff.mp verb⟩
    · exact ⟨cut.params.1.symm ▸ read, cut.memberVerb_iff.mpr member⟩

/-- A request for a room target. -/
private def roomRequest (method : Verb) (target : String) : Request :=
  { version := 11, keepAlive := true, method, target, authorization := none, body := "" }

/-- A service without users. -/
private def bareService : Service :=
  { jwt := { decode := fun _ => .error "invalid token supplied"
             encode := fun _ _ => ""
             hs256 := fun _ _ => "" }
    parse := fun _ => .error "syntax error"
    jwtSecret := "secret"
    docRoot := "/srv/www" }

/-- `/api/rooms/7x` deletes room 7, though `7x` is not its numeral. -/
theorem room_routing_lenient :
    ¬ ∀ (service : Service) (req : Request), startsWith "/api/rooms/" req.target = true →
      handleChatRoom service req = (roomCall req).task service req ∧
      (∀ roomId, roomCall req = .deleteRoom roomId → req.method = .delete ∧
        (req.target = "/api/rooms/" ++ toDecimal roomId ∨
          req.target = "/api/rooms/" ++ toDecimal roomId ++ "/")) ∧
      (∀ roomId, roomCall req = .inviteMember roomId →
        req.target = "/api/rooms/" ++ toDecimal roomId ++ "/member") := by
  intro claimed
  obtain ⟨_, deletes, _⟩ :=
    claimed bareService (roomRequest .delete "/api/rooms/7x") (by decide)
  have canonical := (deletes 7 (by decide)).2
  revert canonical
  decide

/-- A target in the form the interface means. -/
theorem room_routing_member : roomCall (roomRequest .post "/api/rooms/7/member") = .inviteMember 7 ∧
    handleChatRoom bareService (roomRequest .post "/api/rooms/7/member") =
      (roomCall (roomRequest .post "/api/rooms/7/member")).task bareService
        (roomRequest .post "/api/rooms/7/member") ∧
    (∀ roomId, roomCall (roomRequest .post "/api/rooms/7/member") = .deleteRoom roomId ↔
      (roomRequest .post "/api/rooms/7/member").method = .delete ∧
      ∃ roomSegment rest, RoomTarget "/api/rooms/7/member" roomSegment rest ∧
        stoull roomSegment = .ok roomId ∧ NoVerb rest) ∧
    (∀ roomId, roomCall (roomRequest .post "/api/rooms/7/member") = .inviteMember roomId ↔
      ∃ roomSegment rest, RoomTarget "/api/rooms/7/member" roomSegment rest ∧
        stoull roomSegment = .ok roomId ∧ MemberVerb rest) :=
  ⟨by decide,
    (room_routing_iff bareService (roomRequest .post "/api/rooms/7/member")).1 (by decide)⟩

/-- Whatever the calls do: each of them may throw but the destructor of a connection. -/
def callsMayThrow : Contract Op Op.Result Unit where
  permitted _ _ := True
  expected _ op answer _ := op = .release → ∃ result, answer = .ok result

/-- The handler ends in the return of a response, without undefined behaviour. -/
def Completes (handler : WorkerTask Response) : Prop := handler.Ends callsMayThrow false

section Completion

variable {α : Type} {task : WorkerTask α}

theorem mayThrow {op : Op} : (perform op : WorkerTask op.Result).Ends callsMayThrow true :=
  ends_perform (fun _ => trivial) nofun

theorem releases : release.Ends callsMayThrow false := by
  refine ends_perform (fun _ => trivial) fun _ _ what _ due => ?_
  obtain ⟨_, same⟩ := due rfl
  cases same

theorem mayThrow_withConn (body : task.Ends callsMayThrow true) :
    (withConn task).Ends callsMayThrow true :=
  ends_bind mayThrow fun _ => ends_withDestructor releases body

theorem mayThrow_throwIf {condition : Prop} [Decidable condition] {what : String} :
    (throwIf condition what).Ends callsMayThrow true := by
  unfold throwIf
  split
  · exact ends_raise
  · exact ends_pure

theorem deleteRoom_mayThrow : (deleteRoom service req roomId).Ends callsMayThrow true := by
  refine mayThrow_withConn (ends_bind mayThrow fun _ => ends_tryCatch ?_ fun _ =>
    ends_bind mayThrow fun _ => ends_pure)
  refine ends_bind ends_ofExcept fun userClaims => ends_bind mayThrow fun roles => ?_
  cases roles with
  | nil => exact ends_pure
  | cons role more =>
    dsimp only
    split
    · exact ends_pure
    · refine ends_bind mayThrow fun members => ends_bind mayThrow_throwIf fun _ => ?_
      refine ends_bind mayThrow fun rooms => ends_bind mayThrow_throwIf fun _ => ?_
      exact ends_bind mayThrow fun _ => ends_pure

theorem inviteMember_mayThrow : (inviteMember service req roomId).Ends callsMayThrow true := by
  unfold inviteMember
  split
  · exact ends_pure
  · refine ends_bind ends_ofExcept fun jv => ends_bind ends_ofExcept fun invtReq => ?_
    refine mayThrow_withConn (ends_bind ends_ofExcept fun _ => ends_bind mayThrow fun types => ?_)
    cases types with
    | nil => exact ends_pure
    | cons type more =>
      dsimp only
      split
      · exact ends_pure
      · refine ends_bind mayThrow fun row => ?_
        split <;> exact ends_pure

theorem serveAsset_mayThrow {assetPath : List Char} :
    (serveAsset service ctx assetPath).Ends callsMayThrow true := by
  unfold serveAsset
  split
  · exact ends_pure
  · refine ends_bind mayThrow fun opened => ?_
    cases opened with
    | opened size | noSuchFile => exact ends_pure
    | failed message => exact ends_raise

theorem completes_tryCatch {body : WorkerTask Response} {response : Response}
    (ends : body.Ends callsMayThrow true) : Completes (body.tryCatch fun _ => pure response) :=
  ends_tryCatch ends fun _ => ends_pure

theorem not_completes_undefined {mayRaise : Bool} :
    ¬ (undefined : WorkerTask Response).Ends callsMayThrow mayRaise := fun ends => ends ()

theorem handleChatRoom_completes_iff : Completes (handleChatRoom service req) ↔
    roomCall req ≠ .flowsOff := by
  rw [handleChatRoom_eq]
  cases roomCall req with
  | deleteRoom roomId => exact iff_of_true (completes_tryCatch deleteRoom_mayThrow) nofun
  | inviteMember roomId => exact iff_of_true (completes_tryCatch inviteMember_mayThrow) nofun
  | targetNotFound | serverError => exact iff_of_true ends_pure nofun
  | flowsOff => exact iff_of_false not_completes_undefined fun other => other rfl

theorem mayThrow_of_call {β : Type} {op : Op} {next : op.Result → WorkerTask β}
    (ends : (perform op >>= next : WorkerTask β).Ends callsMayThrow true) (result : op.Result) :
    (next result).Ends callsMayThrow true :=
  fun state => (meets_perform.mp (meets_bind.mp (ends state))).2.1 result state
    fun _ => ⟨result, rfl⟩

theorem mayThrow_of_withConn (ends : (withConn task).Ends callsMayThrow true) :
    task.Ends callsMayThrow true :=
  ends_of_withDestructor (mayThrow_of_call ends ⟨⟩)

/-- A GET gets to the end of `query_rooms`, or dereferences the missing claims. -/
theorem queryRooms_completes_iff : Completes (queryRooms ctx) ↔ ctx.method ≠ .get := by
  unfold queryRooms
  by_cases gets : ctx.method = .get
  · refine iff_of_false (fun completes => ?_) fun other => other gets
    rw [if_neg (not_not_intro gets)] at completes
    have body := mayThrow_of_withConn (ends_of_tryCatch completes)
    cases claimed : ctx.userClaimsOpt with
    | none =>
      rw [claimed] at body
      exact not_completes_undefined body
    | some userClaims =>
      rw [claimed] at body
      exact not_completes_undefined (mayThrow_of_call body [])
  · rw [if_pos gets]
    exact iff_of_true (completes_tryCatch ends_pure) gets

theorem handleAssets_completes_iff : Completes (handleAssets service ctx) ↔
    (ctx.method = .get → "/assets/".length ≤ ctx.target.toList.length) := by
  unfold handleAssets
  by_cases gets : ctx.method = .get
  · rw [if_neg (not_not_intro gets)]
    by_cases short : ctx.target.toList.length < "/assets/".length
    · rw [if_pos short]
      exact iff_of_false (fun completes => completes ()) fun enough =>
        absurd (enough gets) (Nat.not_le.mpr short)
    · rw [if_neg short]
      exact iff_of_true (completes_tryCatch serveAsset_mayThrow) fun _ => Nat.not_lt.mp short
  · rw [if_pos gets]
    exact iff_of_true (completes_tryCatch ends_pure) fun get => absurd get gets

/-- The room target has an id that can be read and no verb, and the method is not DELETE. -/
theorem roomCall_eq_flowsOff_iff : roomCall req = .flowsOff ↔ req.method ≠ .delete ∧
    extractTargetParam req.target 3 = "" ∧
    ∃ roomId, stoull (extractTargetParam req.target 2) = .ok roomId := by
  unfold roomCall
  cases stoull (extractTargetParam req.target 2) with
  | error what => simp
  | ok read =>
    by_cases noVerb : extractTargetParam req.target 3 = ""
    · by_cases deletes : req.method = .delete <;> simp [noVerb, deletes]
    · by_cases member : extractTargetParam req.target 3 = "member" <;> simp [noVerb, member]

end Completion

/-- Which requests the three handlers answer, whatever their calls return or throw:
`handle_chat_room` flows off its end for a readable room id without a verb unless the
method is DELETE, `query_rooms` does for every GET, or dereferences claims that are not
there, and `handle_assets` cuts more off a GET target than it has when that is shorter
than `/assets/`. -/
theorem handlers_complete_iff (service : Service) (req : Request) (ctx : ReqContext) :
    (Completes (handleChatRoom service req) ↔ ¬(req.method ≠ .delete ∧
      extractTargetParam req.target 3 = "" ∧
      ∃ roomId, stoull (extractTargetParam req.target 2) = .ok roomId)) ∧
    (Completes (queryRooms ctx) ↔ ctx.method ≠ .get) ∧
    (Completes (handleAssets service ctx) ↔
      (ctx.method = .get → "/assets/".length ≤ ctx.target.toList.length)) :=
  ⟨handleChatRoom_completes_iff.trans (not_congr roomCall_eq_flowsOff_iff),
    queryRooms_completes_iff, handleAssets_completes_iff⟩

/-- A GET without credentials. -/
private def getContext (target : String) : ReqContext :=
  { version := 11, keepAlive := true, method := .get, target, jvOpt := none, userClaimsOpt := none }

/-- A GET of room 7, a GET of the own rooms without credentials and a GET of `/assets`
all have undefined behaviour. -/
theorem handlers_flow_off :
    (¬ ∀ (service : Service) (req : Request), startsWith "/api/rooms/" req.target = true →
      Completes (handleChatRoom service req)) ∧
    (¬ ∀ ctx : ReqContext, ctx.target = "/users/me/rooms" → Completes (queryRooms ctx)) ∧
    (¬ ∀ (service : Service) (ctx : ReqContext), startsWith "/assets" ctx.target = true →
      Completes (handleAssets service ctx)) := by
  refine ⟨fun claimed => ?_, fun claimed => ?_, fun claimed => ?_⟩
  · have completes := claimed bareService (roomRequest .get "/api/rooms/7") (by decide)
    exact handleChatRoom_completes_iff.mp completes (by decide)
  · have completes := claimed (getContext "/users/me/rooms") rfl
    exact queryRooms_completes_iff.mp completes rfl
  · have completes := claimed bareService (getContext "/assets") (by decide)
    exact absurd (handleAssets_completes_iff.mp completes rfl) (by decide)

end TinyChat.Core
