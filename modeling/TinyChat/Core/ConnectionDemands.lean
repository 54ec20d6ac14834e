import TinyChat.Core.Backend
import TinyChat.Db.PoolDeadlock
import TinyChat.Effect.Attribution
import TinyChat.Effect.Paths

/-! What the handlers ask of the connection pool: along every path on which connections last
they acquire and release them as one of the scripts of `Db.Task` says. -/
namespace TinyChat.Core

open TinyChat.Db TinyChat.Effect TinyChat.Text TinyChat.Transition TinyChat.Utils
open TinyChat.Transition.HoldAndWait (Demand)
open Program

/-- What a call does to the semaphore when its connection lasts; the query of `write_to_room`
has a connection of its own. -/
def Op.demands : Op → List Demand
  | connect => [.acquire]
  | release => [.release]
  | lookup _ => [.acquire, .release]
  | _ => []

/-- The calls of `execute_query` and `execute_update`. -/
def Op.IsStatement : Op → Prop
  | query _ => True
  | update _ => True
  | _ => False

/-- All that a call may do to the semaphore, and whether its connection has lasted. -/
inductive Op.Asks : (op : Op) → Except String op.Result → List Demand → Bool → Prop where
  | connect : Asks .connect (.ok ⟨⟩) [.acquire] true
  /-- `getConn` throws when it has taken the permit. -/
  | connectFails {what : String} : Asks .connect (.error what) [.acquire] false
  | release : Asks .release (.ok ⟨⟩) [.release] true
  /-- The destructor does not give back a connection that is not valid. -/
  | releaseLost : Asks .release (.ok ⟨⟩) [] false
  | releaseThrows {what : String} : Asks .release (.error what) [] false
  | lookup {query : Query} {answer : Except String (List query.Row)} :
      Asks (.lookup query) answer [.acquire, .release] true
  | lookupLost {query : Query} {answer : Except String (List query.Row)} {demands : List Demand}
      (lost : demands ∈ [[Demand.acquire], [.acquire, .acquire], [.acquire, .acquire, .release]]) :
      Asks (.lookup query) answer demands false
  /-- `getSql` takes another connection for a lost one and keeps the permit of that. -/
  | replaced {op : Op} {answer : Except String op.Result} (statement : op.IsStatement) :
      Asks op answer [.acquire] false
  | unpooled {op : Op} {answer : Except String op.Result} (none : op.demands = []) :
      Asks op answer [] true

/-- The demands of a task so far. -/
structure Demanded where
  asked : List Demand := []
  /-- Every connection could be had and was good until it was given back. -/
  lasting : Bool := true

/-- Any answers, with what they have to do with the pool. -/
def demanding : Contract Op Op.Result Demanded where
  permitted _ _ := True
  expected past op answer later := ∃ demands lasts, op.Asks answer demands lasts ∧
    later = ⟨past.asked ++ demands, past.lasting && lasts⟩

/-- Any answers as long as connections last, with the demands so far. -/
def lastingly : Contract Op Op.Result (List Demand) where
  permitted _ _ := True
  expected past op answer later :=
    (op = .connect ∨ op = .release → ∃ result, answer = .ok result) ∧ later = past ++ op.demands

/-- A path on which connections have lasted is one of those on which they do. -/
theorem lastingly_of_demanding {α : Type} {task : WorkerTask α} {past after : Demanded}
    {outcome : Outcome α} (path : task.Path demanding past after outcome) (lasting : after.lasting = true) :
    task.Path lastingly past.asked after.asked outcome := by
  refine (@Path.transfer _ _ _ _ demanding task past after outcome _ lastingly Demanded.asked
    (fun demanded => demanded.lasting = true) (fun due lasted => ?_) (fun due lasted => ?_) path
      lasting).2
  · obtain ⟨demands, lasts, _, rfl⟩ := due
    exact (Bool.and_eq_true_iff.mp lasted).1
  · obtain ⟨demands, lasts, asks, rfl⟩ := due
    cases asks with
    | connect => exact ⟨fun _ => ⟨_, rfl⟩, rfl⟩
    | release => exact ⟨fun _ => ⟨_, rfl⟩, rfl⟩
    | lookup =>
      refine ⟨fun pooled => ?_, rfl⟩
      rcases pooled with same | same
      · cases same
      · cases same
    | @unpooled op answer none =>
      refine ⟨fun pooled => ?_, by rw [none]⟩
      rcases pooled with rfl | rfl <;> cases none
    | connectFails | releaseLost | releaseThrows | lookupLost _ | replaced _ =>
      exact Bool.noConfusion (Bool.and_eq_true_iff.mp lasted).2

/-- The calls that leave the semaphore alone. -/
def unpooled : Contract Op Op.Result (List Demand) :=
  lastingly.narrow fun _ op => op.demands = []

/-- When the handler ends, it has had one connection in a scope of its own, or none. -/
structure OneScope {α : Type} (program : WorkerTask α) : Prop where
  asks : ∀ past, program.Meets lastingly (fun after outcome => outcome.Within true →
    ∃ usesPool, after = past ++ (Db.Task.httpRequest usesPool).demands) past

section Scopes

variable {α β : Type} {body : WorkerTask α} {past : List Demand}

theorem perform_unpooled {op : Op} (none : op.demands = []) :
    (perform op : WorkerTask op.Result).Obeys unpooled :=
  obeys_perform fun _ => ⟨trivial, none⟩

/-- Calls that leave the semaphore alone ask for nothing. -/
theorem stays_of_unpooled (obeys : body.Obeys unpooled) :
    body.Meets lastingly (fun after _ => after = past) past := by
  have kept : body.Meets unpooled (fun after _ => True ∧ after = past) past :=
    (obeys past).keeps rfl fun same permitted due => by
      rw [due.2, permitted.2, List.append_nil, same]
  exact (kept.relax (fun _ _ may => may.1) fun _ _ _ _ due => due).mono fun _ _ both => both.2

theorem leave_demands {outcome : Outcome α} :
    (onLeave release outcome : WorkerTask α).Meets lastingly
      (fun after ended => ended.Within true → outcome.Within true ∧ after = past ++ [.release])
      past := by
  have left {ended : Outcome α} (regular : ended.Within true) :
      (release.andThen (onDestroyed ended) : WorkerTask α).Meets lastingly
        (fun after ended' => ended'.Within true → ended.Within true ∧ after = past ++ [.release])
        past := by
    refine meets_onDestroyed.mpr (meets_perform.mpr ⟨trivial, fun _ after due _ => ?_, ?_⟩)
    · exact ⟨regular, due.2⟩
    · intro what after due
      obtain ⟨result, same⟩ := due.1 (.inr rfl)
      cases same
  cases outcome with
  | returned value => exact left trivial
  | raised what => exact left rfl
  | terminated => exact False.elim
  | undefined => exact False.elim

theorem withConn_demands {inside : List Demand → Prop}
    (meets : body.Meets lastingly (fun after outcome => outcome.Within true →
      ∃ demands, inside demands ∧ after = past ++ .acquire :: demands) (past ++ [.acquire])) :
    (withConn body).Meets lastingly (fun after outcome => outcome.Within true →
      ∃ demands, inside demands ∧ after = past ++ sqlConnRAII demands) past := by
  refine meets_call_then trivial (fun result after due => ?_) fun what after due => ?_
  · obtain rfl : after = past ++ [.acquire] := due.2
    refine meets_withDestructor.mpr (meets.mono fun after outcome asks => ?_)
    refine leave_demands.mono fun script ended left regular => ?_
    obtain ⟨within, rfl⟩ := left regular
    obtain ⟨demands, asked, rfl⟩ := asks within
    exact ⟨demands, asked, by simp [sqlConnRAII]⟩
  · obtain ⟨result, same⟩ := due.1 (.inl rfl)
    cases same

theorem oneScope_of_unpooled (obeys : body.Obeys unpooled) : OneScope body :=
  ⟨fun past => (stays_of_unpooled obeys).mono fun _ _ same _ =>
    ⟨false, same.trans (List.append_nil past).symm⟩⟩

theorem oneScope_ofExcept {computed : Except String β} {next : β → WorkerTask α}
    (rest : ∀ value, OneScope (next value)) : OneScope (ofExcept computed >>= next) :=
  ⟨fun past => meets_ofExcept_then (fun value _ => (rest value).asks past) fun _ _ _ =>
    ⟨false, (List.append_nil past).symm⟩⟩

theorem oneScope_withConn (obeys : body.Obeys unpooled) : OneScope (withConn body) := by
  constructor
  intro past
  have inside : body.Meets lastingly (fun after outcome => outcome.Within true →
      ∃ demands, demands = [] ∧ after = past ++ .acquire :: demands) (past ++ [.acquire]) :=
    (stays_of_unpooled obeys).mono fun _ _ same _ => ⟨[], rfl, same⟩
  refine (withConn_demands inside).mono fun script outcome asks regular => ⟨true, ?_⟩
  obtain ⟨_, rfl, same⟩ := asks regular
  exact same

theorem oneScope_tryCatch {value : α} (first : OneScope body) :
    OneScope (tryCatch body fun _ => pure value) := by
  constructor
  intro past
  refine meets_tryCatch.mpr ((first.asks past).mono fun script outcome asks => ?_)
  cases outcome with
  | returned result => exact asks
  | raised what => exact fun _ => asks rfl
  | terminated => exact asks
  | undefined => exact asks

theorem oneScope_ite {condition : Prop} [Decidable condition] {other : WorkerTask α}
    (yes : OneScope body) (no : OneScope other) : OneScope (if condition then body else other) :=
  ⟨fun past => meets_ite (fun _ => yes.asks past) fun _ => no.asks past⟩

theorem oneScope_undefined : OneScope (undefined : WorkerTask α) := ⟨fun _ => False.elim⟩

end Scopes

section Requests

variable {service : Service} {req : Request} {ctx : ReqContext} {roomId : UInt64}

theorem rollbackAndReply_unpooled {response : Response} :
    (rollbackAndReply response).Obeys unpooled :=
  obeys_bind (perform_unpooled rfl) fun _ => obeys_done

theorem handleLogin_oneScope : OneScope (handleLogin service req) := by
  unfold handleLogin
  split
  swap
  · exact oneScope_of_unpooled obeys_done
  split
  · exact oneScope_of_unpooled obeys_done
  refine oneScope_ofExcept fun loginRequest => oneScope_withConn ?_
  refine obeys_bind (perform_unpooled rfl) fun rows => ?_
  split
  swap
  · exact obeys_done
  refine obeys_bind (perform_unpooled rfl) fun verified => ?_
  split
  · exact obeys_done
  · exact obeys_bind (perform_unpooled rfl) fun _ => obeys_done

theorem handleRegister_oneScope : OneScope (handleRegister service req) := by
  unfold handleRegister
  split
  swap
  · exact oneScope_of_unpooled obeys_done
  refine oneScope_tryCatch ?_
  split
  · exact oneScope_of_unpooled obeys_done
  refine oneScope_ofExcept fun registerRequest => oneScope_withConn ?_
  refine obeys_bind (perform_unpooled rfl) fun _ => obeys_bind (perform_unpooled rfl) fun _ => ?_
  refine obeys_bind (perform_unpooled rfl) fun _ => ?_
  split
  · exact obeys_done
  · split <;> exact obeys_done

theorem createGRoom_oneScope : OneScope (createGRoom service req) := by
  unfold createGRoom
  split
  · exact oneScope_of_unpooled obeys_done
  refine oneScope_withConn (obeys_tryCatch ?_ fun _ => rollbackAndReply_unpooled)
  refine obeys_bind obeys_ofExcept fun jv => obeys_bind obeys_ofExcept fun createReq => ?_
  refine obeys_bind (perform_unpooled rfl) fun _ => obeys_bind (perform_unpooled rfl) fun _ => ?_
  refine obeys_bind obeys_ofExcept fun claims => obeys_bind (perform_unpooled rfl) fun _ => ?_
  refine obeys_bind obeys_throwIf fun _ => obeys_bind (perform_unpooled rfl) fun _ => ?_
  exact obeys_bind obeys_throwIf fun _ => obeys_done

theorem createPRoom_oneScope : OneScope (createPRoom service req) := by
  unfold createPRoom
  split
  · exact oneScope_of_unpooled obeys_done
  refine oneScope_withConn (obeys_tryCatch ?_ fun _ => rollbackAndReply_unpooled)
  refine obeys_bind obeys_ofExcept fun jv => obeys_bind obeys_ofExcept fun createReq => ?_
  refine obeys_bind (perform_unpooled rfl) fun _ => obeys_bind (perform_unpooled rfl) fun _ => ?_
  refine obeys_bind obeys_ofExcept fun claims => obeys_bind (perform_unpooled rfl) fun _ => ?_
  refine obeys_bind obeys_throwIf fun _ => obeys_bind (perform_unpooled rfl) fun _ => ?_
  exact obeys_bind obeys_throwIf fun _ => obeys_bind (perform_unpooled rfl) fun _ => obeys_done

theorem deleteRoom_oneScope : OneScope (deleteRoom service req roomId) := by
  refine oneScope_withConn (obeys_bind (perform_unpooled rfl) fun _ =>
    obeys_tryCatch ?_ fun _ => rollbackAndReply_unpooled)
  refine obeys_bind obeys_ofExcept fun claims => obeys_bind (perform_unpooled rfl) fun roles => ?_
  split
  swap
  · exact obeys_done
  split
  · exact obeys_done
  refine obeys_bind (perform_unpooled rfl) fun _ => obeys_bind obeys_throwIf fun _ => ?_
  refine obeys_bind (perform_unpooled rfl) fun _ => obeys_bind obeys_throwIf fun _ => ?_
  exact obeys_bind (perform_unpooled rfl) fun _ => obeys_done

theorem inviteMember_oneScope : OneScope (inviteMember service req roomId) := by
  unfold inviteMember
  split
  · exact oneScope_of_unpooled obeys_done
  refine oneScope_ofExcept fun jv => oneScope_ofExcept fun invtReq => oneScope_withConn ?_
  refine obeys_bind obeys_ofExcept fun _ => obeys_bind (perform_unpooled rfl) fun types => ?_
  split
  · exact obeys_done
  split
  · exact obeys_done
  refine obeys_bind (perform_unpooled rfl) fun _ => ?_
  split <;> exact obeys_done

theorem handleChatRoom_oneScope : OneScope (handleChatRoom service req) := by
  unfold handleChatRoom
  refine oneScope_tryCatch (oneScope_ofExcept fun roomId => ?_)
  refine oneScope_ite ?_ ?_
  · exact oneScope_ite deleteRoom_oneScope oneScope_undefined
  · exact oneScope_ite inviteMember_oneScope (oneScope_of_unpooled obeys_done)

theorem queryRooms_oneScope : OneScope (queryRooms ctx) := by
  unfold queryRooms
  refine oneScope_tryCatch (oneScope_ite (oneScope_of_unpooled obeys_done) (oneScope_withConn ?_))
  split
  · exact fun _ => trivial
  · exact obeys_bind (perform_unpooled rfl) fun _ => fun _ => trivial

theorem handleAssets_oneScope : OneScope (handleAssets service ctx) := by
  unfold handleAssets
  refine oneScope_tryCatch (oneScope_ite (oneScope_of_unpooled obeys_done) ?_)
  refine oneScope_ite oneScope_undefined ?_
  unfold serveAsset
  refine oneScope_ite (oneScope_of_unpooled obeys_done) ?_
  refine oneScope_of_unpooled (obeys_bind (perform_unpooled rfl) fun opened => ?_)
  cases opened with
  | opened size => exact obeys_done
  | noSuchFile => exact obeys_done
  | failed message => exact obeys_done

theorem handleRequest_oneScope : OneScope (handleRequest service req) := by
  unfold handleRequest
  refine oneScope_ofExcept fun claims => oneScope_ofExcept fun jv => ?_
  unfold route
  refine oneScope_ite handleLogin_oneScope ?_
  refine oneScope_ite handleRegister_oneScope ?_
  refine oneScope_ite createGRoom_oneScope ?_
  refine oneScope_ite createPRoom_oneScope ?_
  refine oneScope_ite handleChatRoom_oneScope ?_
  refine oneScope_ite queryRooms_oneScope ?_
  exact oneScope_ite handleAssets_oneScope (oneScope_of_unpooled obeys_done)

end Requests

section Messages

variable {service : Service} {msg : String} {userClaims : UserClaims} {past : List Demand}

/-- What is asked for while a message has its connection: nothing, or the connection of
`write_to_room`, if the message may be broadcast. -/
def Inside (broadcasts : Bool) (demands : List Demand) : Prop :=
  demands = [] ∨ broadcasts = true ∧ demands = Db.writeToRoom

theorem storeMessage_unpooled {roomId : UInt64} {content insertFailed updateFailed : String} :
    (storeMessage roomId content userClaims insertFailed updateFailed).Obeys unpooled := by
  refine obeys_bind (perform_unpooled rfl) fun members => ?_
  split
  · exact obeys_bind (perform_unpooled rfl) fun _ => obeys_done
  refine obeys_bind (perform_unpooled rfl) fun msgId => obeys_bind (perform_unpooled rfl) fun _ => ?_
  refine obeys_bind obeys_throwIf fun _ => obeys_bind (perform_unpooled rfl) fun _ => ?_
  exact obeys_bind obeys_throwIf fun _ => obeys_bind (perform_unpooled rfl) fun _ => obeys_done

theorem privateMessage_unpooled {data : Json} : (privateMessage data userClaims).Obeys unpooled := by
  refine obeys_bind obeys_ofExcept fun message => obeys_bind storeMessage_unpooled fun stored => ?_
  split
  · exact obeys_bind (perform_unpooled rfl) fun _ => perform_unpooled rfl
  · exact obeys_done

theorem writeToRoom_demands {roomId : UInt64} {text : Json} :
    (writeToRoom roomId text).Meets lastingly
      (fun after _ => after = past ++ Db.writeToRoom) past := by
  refine meets_call_then trivial (fun users after due => ?_) fun _ _ due => due.2
  obtain rfl : after = past ++ Db.writeToRoom := due.2
  exact meets_perform.mpr ⟨trivial, fun _ _ due => due.2.trans (List.append_nil _),
    fun _ _ due => due.2.trans (List.append_nil _)⟩

theorem groupMessage_demands {data : Json} : (groupMessage data userClaims).Meets lastingly
    (fun after _ => ∃ demands, Inside true demands ∧ after = past ++ demands) past := by
  have nothing : ∃ demands, Inside true demands ∧ past = past ++ demands :=
    ⟨[], .inl rfl, (List.append_nil past).symm⟩
  refine meets_ofExcept_then (fun message _ => ?_) fun _ _ => nothing
  refine meets_bind.mpr ((stays_of_unpooled storeMessage_unpooled).mono fun after outcome same => ?_)
  subst same
  cases outcome with
  | returned stored =>
    refine meets_ite (fun _ => ?_) fun _ => nothing
    exact writeToRoom_demands.mono fun _ _ same => ⟨_, .inr ⟨rfl, rfl⟩, same⟩
  | raised what => exact nothing
  | terminated => exact nothing
  | undefined => exact nothing

/-- The message is one to a group. -/
def isGroupMessage (service : Service) (msg : String) : Bool :=
  match service.parse msg with
  | .ok jv =>
    match messageType jv with
    | .ok (_, type) => type = "group_message"
    | .error _ => false
  | .error _ => false

theorem isGroupMessage_eq {jv : Json} {obj : List (String × Json)} {type : String}
    (parsed : service.parse msg = .ok jv) (typed : messageType jv = .ok (obj, type)) :
    isGroupMessage service msg = decide (type = "group_message") := by
  unfold isGroupMessage
  rw [parsed]
  dsimp only
  rw [typed]

theorem handleMessage_demands : (handleMessage service msg userClaims).Meets lastingly
    (fun after outcome => outcome.Within true → ∃ demands,
      Inside (isGroupMessage service msg) demands ∧ after = past ++ sqlConnRAII demands) past := by
  refine withConn_demands (meets_call_then trivial (fun _ after begun => ?_) fun _ after begun _ => ?_)
  · obtain rfl : after = past ++ [.acquire] := begun.2.trans (List.append_nil _)
    generalize same : past ++ [.acquire] = now
    have nothing : ∃ demands, Inside (isGroupMessage service msg) demands ∧ now = now ++ demands :=
      ⟨[], .inl rfl, (List.append_nil now).symm⟩
    refine meets_tryCatch.mpr (Meets.mono ?_ fun after outcome
      (asked : ∃ demands, Inside (isGroupMessage service msg) demands ∧ after = now ++ demands) => ?_)
    · refine meets_ofExcept_then (fun jv parsed => ?_) fun _ _ => nothing
      refine meets_ofExcept_then (fun typed found => ?_) fun _ _ => nothing
      obtain ⟨obj, type⟩ := typed
      refine meets_ite (fun _ => ?_) fun _ => meets_ite (fun group => ?_) fun _ => nothing
      · refine meets_ofExcept_then (fun data _ => ?_) fun _ _ => nothing
        exact (stays_of_unpooled privateMessage_unpooled).mono fun _ _ same => same ▸ nothing
      · refine meets_ofExcept_then (fun data _ => ?_) fun _ _ => nothing
        refine groupMessage_demands.mono fun _ _ asked => ?_
        rw [isGroupMessage_eq parsed found, decide_eq_true group]
        exact asked
    · obtain ⟨demands, inside, rfl⟩ := asked
      have ends : now ++ demands = past ++ .acquire :: demands := by simp [← same]
      cases outcome with
      | returned value => exact fun _ => ⟨demands, inside, ends⟩
      | raised what =>
        exact meets_perform.mpr ⟨trivial,
          fun _ _ due _ => ⟨demands, inside, due.2.trans ((List.append_nil _).trans ends)⟩,
          fun _ _ due _ => ⟨demands, inside, due.2.trans ((List.append_nil _).trans ends)⟩⟩
      | terminated => exact False.elim
      | undefined => exact False.elim
  · exact ⟨[], .inl rfl, begun.2.trans (List.append_nil _)⟩

end Messages

/-- A task of the thread pool. -/
inductive PoolTask where
  | httpRequest (req : Request)
  | message (msg : String) (userClaims : UserClaims)

namespace PoolTask

def program (service : Service) : PoolTask → WorkerTask (Option Response)
  | httpRequest req => some <$> handleRequest service req
  | message msg userClaims => (fun _ => none) <$> handleMessage service msg userClaims

/-- The task may come to `write_to_room`. -/
def broadcasts (service : Service) : PoolTask → Bool
  | httpRequest _ => false
  | message msg _ => isGroupMessage service msg

end PoolTask

/-- What the task asks of the pool on one of its paths. -/
def Demands (service : Service) (task : PoolTask) (after : Demanded) : Prop :=
  ∃ outcome, (task.program service).Path demanding {} after outcome ∧ outcome.Within true

section Tasks

variable {service : Service} {task : PoolTask} {tasks : List PoolTask} {script : List Demand}
variable {scripts : List (List Demand)}

theorem program_demands : (task.program service).Meets lastingly
    (fun script outcome => outcome.Within true → ∃ known : Db.Task, script = known.demands ∧
      (known.broadcasts = true → task.broadcasts service = true)) [] := by
  cases task with
  | httpRequest req =>
    refine meets_map.mpr ((handleRequest_oneScope.asks []).mono fun script outcome asks => ?_)
    have known (regular : outcome.Within true) : ∃ known : Db.Task, script = known.demands ∧
        (known.broadcasts = true → (PoolTask.httpRequest req).broadcasts service = true) := by
      obtain ⟨usesPool, same⟩ := asks regular
      exact ⟨.httpRequest usesPool, same, Bool.noConfusion⟩
    cases outcome with
    | returned response => exact fun _ => known trivial
    | raised what => exact fun _ => known rfl
    | terminated => exact False.elim
    | undefined => exact False.elim
  | message msg userClaims =>
    refine meets_map.mpr (handleMessage_demands.mono fun script outcome asks => ?_)
    have known (regular : outcome.Within true) : ∃ known : Db.Task, script = known.demands ∧
        (known.broadcasts = true → isGroupMessage service msg = true) := by
      obtain ⟨demands, rfl | ⟨group, rfl⟩, same⟩ := asks regular
      · exact ⟨.privateMessage, same, Bool.noConfusion⟩
      · exact ⟨.groupMessage true, same, fun _ => group⟩
    cases outcome with
    | returned response => exact fun _ => known trivial
    | raised what => exact fun _ => known rfl
    | terminated => exact False.elim
    | undefined => exact False.elim

private def foundRows : (query : Query) → List query.Row
  | .membership _ _ => [()]
  | .roomMembers _ => ([1, 2] : List UInt64)
  | _ => []

/-- Every call succeeds. -/
private def granted : (op : Op) → op.Result
  | .query query => foundRows query
  | .lookup query => foundRows query
  | .update _ => (1 : Nat)
  | .nextId => (7 : UInt64)
  | .hashPassword _ => "hash"
  | .verifyPassword _ _ => true
  | .now => (0 : Int)
  | .openFile _ => OpenResult.noSuchFile
  | .connect | .beginTransaction | .commit | .rollback | .release => ⟨⟩
  | .writeTo _ _ | .writeToAll _ _ => ⟨⟩

private def grant (past : Demanded) (op : Op) : Except String op.Result × Demanded :=
  (.ok (granted op), { past with asked := past.asked ++ op.demands })

private theorem demands_granted {task : PoolTask} {outcome : Outcome (Option Response)}
    (same : (task.program sampleService).run grant {} = (outcome, ⟨script, true⟩))
    (regular : outcome.Within true) : Demands sampleService task ⟨script, true⟩ := by
  have expected (past : Demanded) (op : Op) :
      demanding.expected past op (grant past op).1 (grant past op).2 := by
    refine ⟨op.demands, true, ?_, by simp [grant]⟩
    cases op with
    | connect => exact .connect
    | release => exact .release
    | lookup query => exact .lookup
    | _ => exact .unpooled rfl
  have path : (task.program sampleService).Path demanding {}
      ((task.program sampleService).run grant {}).2 ((task.program sampleService).run grant {}).1 :=
    path_run expected
  rw [same] at path
  exact ⟨outcome, path, regular⟩

private theorem demands_group :
    Demands sampleService (.message "group 1" ⟨1, "1"⟩)
      ⟨[.acquire, .acquire, .release, .release], true⟩ :=
  @demands_granted _ _ (.returned none) rfl trivial

private theorem demands_request :
    Demands sampleService (.httpRequest (sampleRequest .post "/api/group_room" "1" "room"))
      ⟨[.acquire, .release], true⟩ :=
  demands_granted rfl trivial

/-- Whatever its calls are answered, a task that ends has asked for the connections of one of
the tasks of the pool, and only a group message for two at a time, unless a connection could
not be had or was lost. -/
theorem handlers_demand {after : Demanded} (demands : Demands service task after)
    (lasting : after.lasting = true) :
    ∃ known : Db.Task, after.asked = known.demands ∧
      (known.broadcasts = true → task.broadcasts service = true) := by
  obtain ⟨outcome, path, regular⟩ := demands
  exact program_demands.path (lastingly_of_demanding path lasting) regular

theorem handlers_demand_group : ∃ known : Db.Task,
    [Demand.acquire, .acquire, .release, .release] = known.demands ∧
      (known.broadcasts = true → isGroupMessage sampleService "group 1" = true) :=
  handlers_demand demands_group rfl

theorem known_tasks
    (ran : List.Forall₂ (fun task script => Demands service task ⟨script, true⟩) tasks scripts) :
    ∃ known : List Db.Task, scripts = known.map Db.Task.demands ∧
      known.countP Db.Task.broadcasts ≤ tasks.countP (·.broadcasts service) := by
  induction ran with
  | nil => exact ⟨[], rfl, Nat.le_refl _⟩
  | @cons task script tasks scripts demands _ ih =>
    obtain ⟨outcome, path, regular⟩ := demands
    obtain ⟨first, rfl, groups⟩ := program_demands.path (lastingly_of_demanding path rfl) regular
    obtain ⟨rest, rfl, fewer⟩ := ih
    refine ⟨first :: rest, rfl, ?_⟩
    rw [List.countP_cons, List.countP_cons]
    by_cases broadcasts : first.broadcasts = true
    · rw [if_pos broadcasts, if_pos (groups broadcasts)]
      exact Nat.succ_le_succ fewer
    · rw [if_neg broadcasts]
      omega

/-- With fewer workers than connections, or fewer group messages, no interleaving of handlers
whose connections last deadlocks on the pool. -/
theorem handlers_deadlock_free {maxConn workerThreads : Nat} {actions : List (Nat × HoldAndWait.Event)}
    {final : HoldAndWait.Shop}
    (requires : List.Forall₂ (fun task script => Demands service task ⟨script, true⟩) tasks scripts)
    (staffed : 0 < workerThreads)
    (few : min workerThreads (tasks.countP (·.broadcasts service)) < maxConn)
    (ran : HoldAndWait.machine.run (HoldAndWait.start maxConn workerThreads scripts) actions =
      some final) : ¬ HoldAndWait.Deadlocked final := by
  obtain ⟨known, rfl, fewer⟩ := known_tasks requires
  have scripts : ∀ demands ∈ known.map Db.Task.demands, HoldAndWait.balanced 0 demands = true := by
    simpa using fun task _ => task.demands_balanced
  have bound : ∀ demands ∈ known.map Db.Task.demands, HoldAndWait.hold 0 demands ≤ 1 := by
    simpa using fun task _ => task.hold_demands_le
  refine HoldAndWait.deadlock_free scripts bound staffed ?_ ran
  rw [Db.Task.weigh_hold_demands]
  omega

theorem handlers_deadlock_free_two :
    ¬ HoldAndWait.Deadlocked ⟨0, [[.acquire, .release]], [.running 2 [.release, .release]]⟩ := by
  refine @handlers_deadlock_free _ _ _ 2 1
    [(0, .take), (0, .tryAcquire true), (0, .tryAcquire true)] _
    (.cons demands_group (.cons demands_request .nil)) (by decide) (by decide) rfl

end Tasks

end TinyChat.Core
