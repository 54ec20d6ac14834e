import TinyChat.Core.Announcements
import TinyChat.Core.SessionDelivery

/-! The server as a whole: the threads of the requests, whose calls of `write_to` and
`write_to_room` act on the registry, and the sessions, whose reads start `handle_message`. -/
namespace TinyChat.Core

open TinyChat.Db TinyChat.Effect TinyChat.Text TinyChat.Transition TinyChat.Utils

namespace SendQueue

variable {session : SendQueue}

@[simp] theorem asyncWrite_handshake : session.asyncWrite.handshake = session.handshake := by
  unfold asyncWrite
  split <;> rfl

@[simp] theorem onSend_handshake {message : String} :
    (session.onSend message).handshake = session.handshake := by
  simp only [onSend]
  split <;> simp

@[simp] theorem onWrite_handshake : session.onWrite.handshake = session.handshake := by
  simp [onWrite]

end SendQueue

namespace LiveSessions

variable {live next : LiveSessions} {session : Nat} {queue : SendQueue} {event : SessionEvent}
variable {events : List SessionEvent}

/-- Only `auth_user` lets a session begin its handshake. -/
theorem handshake_begins (taken : machine.step live event = some next)
    (found : next.queues[session]? = some queue) (begun : queue.handshake ≠ .absent) :
    (∃ before, live.queues[session]? = some before ∧ before.handshake ≠ .absent) ∨
      ∃ user, event = .registry (.doAccept session (some user)) := by
  cases event with
  | strand other event =>
    obtain ⟨before, after, there, onStrand, moved, rfl⟩ := strand_step taken
    rcases set_cases found with ⟨rfl, rfl⟩ | unchanged
    swap
    · exact .inl ⟨queue, unchanged, begun⟩
    refine .inl ⟨before, there, ?_⟩
    cases SendQueue.steps_of_step moved with
    | registered now => cases onStrand
    | posted message => cases onStrand
    | accepting now | accepted now | refused now => simp [now]
    | passed | written => simpa using begun
    | writeFailed | closed => exact begun
  | registry action =>
    obtain ⟨mgr, moved, rfl⟩ := Option.map_eq_some_iff.mp taken
    have delivered {sent : List (Nat × String)}
        (found : (deliver sent live.queues)[session]? = some queue) :
        ∃ before, live.queues[session]? = some before ∧ before.handshake ≠ .absent := by
      obtain ⟨before, there, rfl⟩ := Option.map_eq_some_iff.mp (deliver_getElem?.symm.trans found)
      exact ⟨before, there, begun⟩
    cases action with
    | connect indeterminate =>
      refine .inl ⟨queue, ?_, begun⟩
      rcases Nat.lt_or_ge session live.queues.length with old | new
      · exact (List.getElem?_append_left old).symm.trans found
      · have fresh := (List.getElem?_append_right new).symm.trans found
        exact absurd (List.mem_singleton.mp (List.mem_of_getElem? fresh) ▸ rfl) begun
    | doAccept other claims =>
      cases claims with
      | none => exact .inl (delivered found)
      | some user =>
        by_cases same : other = session
        · exact .inr ⟨user, by rw [same]⟩
        · refine .inl ⟨queue, ?_, begun⟩
          simpa [follow, List.getElem?_modify, same] using found
    | _ => exact .inl (delivered found)

/-- A session that has begun its handshake has been accepted for the user whose id it holds. -/
theorem authorized_of_run (ran : machine.run init events = some live) :
    ∀ (session : Nat) (queue : SendQueue), live.queues[session]? = some queue →
      queue.handshake ≠ .absent → ∃ user, .registry (.doAccept session (some user)) ∈ events ∧
        live.mgr.identities[session]? = some (user, true) := by
  refine Machine.run_induction (motive := fun past now =>
    ∀ (session : Nat) (queue : SendQueue), now.queues[session]? = some queue →
      queue.handshake ≠ .absent → ∃ user, .registry (.doAccept session (some user)) ∈ past ∧
        now.mgr.identities[session]? = some (user, true)) ran (by simp [init]) ?_
  intro past now event next _ authorized taken session queue found begun
  rcases handshake_begins taken found begun with ⟨before, there, earlier⟩ | ⟨user, rfl⟩
  · obtain ⟨user, accepted, holds⟩ := authorized session before there earlier
    refine ⟨user, List.mem_append_left _ accepted, ?_⟩
    cases event with
    | strand other event =>
      obtain ⟨_, _, _, _, _, rfl⟩ := strand_step taken
      exact holds
    | registry action =>
      obtain ⟨mgr, moved, rfl⟩ := Option.map_eq_some_iff.mp taken
      exact WSSessionMgr.identity_stays moved holds
  · refine ⟨user, List.mem_append_right _ (List.mem_singleton.mpr rfl), ?_⟩
    obtain ⟨mgr, moved, rfl⟩ := Option.map_eq_some_iff.mp taken
    have taken : WSSessionMgr.machine.step now.mgr (.doAccept session (some user)) = some mgr := moved
    obtain ⟨held, first⟩ := WSSessionMgr.doAccept_first taken
    rw [(WSSessionMgr.steps_of_step taken).identities]
    simp [first]

end LiveSessions

/-- The call of the registry that serves a call of a thread; `json::serialize` makes the text. -/
def Op.registryAction (serialize : Json → String) : Op → Option Action
  | .writeTo user msg => some (.writeTo user (serialize msg))
  | .writeToAll users msg => some (.writeToRoom users (serialize msg))
  | _ => none

/-- The users that a call of the registry looks up. -/
def Action.addressed : Action → List UInt64
  | .writeTo user _ => [user]
  | .writeToRoom usersInGroup _ => usersInGroup
  | _ => []

/-- The requests leave it to the registry who is online. -/
def Choice.isOnline : Choice → Bool
  | .online _ => true
  | _ => false

/-- Everything but a message for a session. -/
def SessionEvent.isQuiet : SessionEvent → Bool
  | .registry (.writeTo _ _) => false
  | .registry (.writeToRoom _ _) => false
  | _ => true

structure ChatServer where
  requests : Threads Op Op.Result Backend (Option Response)
  sessions : LiveSessions

inductive ServerEvent where
  /-- A worker gets the task of an HTTP request. -/
  | request (task : Task)
  /-- `on_read` hands a message and the claims of its session to the workers. -/
  | read (session : Nat) (text : String) (userClaims : UserClaims)
  | call (thread : Nat) (choice : Choice)
  /-- A call of a thread that goes to the registry. -/
  | tell (thread : Nat)
  | session (event : SessionEvent)

namespace ChatServer

def start (initial : Tables) (generator : Generator) : ChatServer :=
  { requests := Backend.start initial generator, sessions := .init }

/-- The next call of a thread. -/
def nextCall (server : ChatServer) (thread : Nat) : Option Op :=
  match server.requests.programs[thread]? with
  | some (.call op _) => some op
  | _ => none

/-- The session reads, and these are the claims it has got from its token. -/
def reads (server : ChatServer) (session : Nat) (userClaims : UserClaims) : Bool :=
  server.sessions.mgr.alive session &&
  server.sessions.queues[session]?.any (·.handshake = .succeeded) &&
  server.sessions.mgr.objects[session]?.any (·.userClaimsId = userClaims.id)

section Steps

variable (service : Service) (serialize : Json → String)

def advance (server : ChatServer) (move : Move { _task : Task // True } Choice) : Option ChatServer :=
  ((calmTasks service).step server.requests move).map fun requests => { server with requests }

def happens (server : ChatServer) (event : SessionEvent) : Option ChatServer :=
  (LiveSessions.machine.step server.sessions event).map fun sessions => { server with sessions }

/-- Of the users that a call is for, those who are online. -/
def online (server : ChatServer) (action : Action) : List UInt64 :=
  action.addressed.filter fun user => (server.sessions.mgr.liveSession user).isSome

def step (server : ChatServer) : ServerEvent → Option ChatServer
  | .request task =>
    match task with
    | .handleMessage _ _ => none
    | _ => server.advance service (.start ⟨task, trivial⟩)
  | .read session text userClaims =>
    if server.reads session userClaims then
      server.advance service (.start ⟨.handleMessage text userClaims, trivial⟩)
    else none
  | .call thread choice =>
    if choice.isOnline then none else server.advance service (.step thread choice)
  | .tell thread =>
    (server.nextCall thread).bind fun op => (op.registryAction serialize).bind fun action =>
      (server.advance service (.step thread (.online (server.online action)))).bind fun told =>
        told.happens (.registry action)
  | .session event => if event.isQuiet then server.happens event else none

def machine : Machine ChatServer ServerEvent := ⟨step service serialize⟩

end Steps

/-- The tasks that the workers have got, in the order of the threads. -/
def startedBy (events : List ServerEvent) : List Task := events.filterMap fun
  | .request task => some task
  | .read _ text userClaims => some (.handleMessage text userClaims)
  | _ => none

/-- The message of a delivery is posted to a session that was accepted for its user. -/
structure Posted (serialize : Json → String) (events : List ServerEvent) (delivery : Delivery)
    (entry : Nat × String) : Prop where
  text : entry.2 = serialize delivery.msg
  owner : .session (.registry (.doAccept entry.1 (some delivery.user))) ∈ events

/-- A run of the server is one of the requests and one of the sessions. What the requests
deliver is what is posted to the sessions, one by one, and the messages that are handled
have been read from sessions of their authors. -/
structure Projected (service : Service) (serialize : Json → String) (initial : Tables)
    (generator : Generator) (events : List ServerEvent) (server : ChatServer) : Prop where
  requests : ∃ moves, (calmTasks service).run (Backend.start initial generator) moves =
    some server.requests ∧ tasksOf moves = startedBy events
  sessions : ∃ past, LiveSessions.machine.run .init past = some server.sessions ∧
    ∀ session claims, .registry (.doAccept session claims) ∈ past ↔
      .session (.registry (.doAccept session claims)) ∈ events
  told : List.Forall₂ (Posted serialize events) server.requests.shared.sent
    server.sessions.mgr.posted
  authors : ∀ text userClaims, .handleMessage text userClaims ∈ startedBy events →
    ∃ session, .read session text userClaims ∈ events ∧
      .session (.registry (.doAccept session (some userClaims.id))) ∈ events

section Projections

variable {service : Service} {serialize : Json → String} {initial : Tables}
variable {generator : Generator} {events : List ServerEvent} {server next : ChatServer}
variable {backend after : Backend} {mgr later : WSSessionMgr} {thread : Nat} {op : Op}
variable {answer : Except String op.Result} {action : Action} {choice : Choice}

theorem sent_of_offline (served : backend.call thread op choice = some (answer, after))
    (offline : choice.isOnline = false) : after.sent = backend.sent := by
  by_cases tells : op.Tells
  swap
  · exact (call_tells.silent tells served).1
  cases Backend.calls_of_call served with
  | lookup done => cases done; rfl
  | throws may => rfl
  | writeTo done => cases offline
  | writeToAll done => cases offline
  | _ => exact absurd tells id

/-- A call of the registry delivers to the users that it finds online, and posts to their
sessions. -/
theorem tell_sent {online : List UInt64} (acts : op.registryAction serialize = some action)
    (served : backend.call thread op (.online online) = some (answer, after))
    (taken : WSSessionMgr.machine.step mgr action = some later) : ∃ msg according,
      after.sent = backend.sent ++ ((action.addressed.filter (· ∈ online)).map fun user =>
        ⟨thread, user, msg, according⟩) ∧
      later.posted = mgr.posted ++ ((action.addressed.filterMap mgr.liveSession).map fun session =>
        (session, serialize msg)) := by
  cases op with
  | writeTo user msg =>
    cases acts
    cases taken
    cases served
    refine ⟨msg, _, rfl, (congrArg WSSessionMgr.posted (WSSessionMgr.writeTo_eq ..)).trans ?_⟩
    rw [WSSessionMgr.sends_posted]
    cases found : mgr.liveSession user <;> simp [Action.addressed, WSSessionMgr.withEntry, found]
  | writeToAll users msg =>
    cases acts
    cases taken
    cases served
    exact ⟨msg, _, rfl, WSSessionMgr.writeToRoom_posted⟩
  | _ => cases acts

theorem forall₂_online {related : Delivery → Nat × String → Prop} {toDelivery : UInt64 → Delivery}
    {toEntry : Nat → Nat × String} {users : List UInt64}
    (each : ∀ user session, mgr.liveSession user = some session →
      related (toDelivery user) (toEntry session)) :
    List.Forall₂ related ((users.filter fun user => (mgr.liveSession user).isSome).map toDelivery)
      ((users.filterMap mgr.liveSession).map toEntry) := by
  induction users with
  | nil => exact .nil
  | cons user rest ih =>
    cases found : mgr.liveSession user with
    | none => simpa [found] using ih
    | some session =>
      simpa [found] using ⟨each user session found, by simpa using ih⟩

theorem Posted.mono {delivery : Delivery} {entry : Nat × String} {more : List ServerEvent}
    (posted : Posted serialize events delivery entry) :
    Posted serialize (events ++ more) delivery entry :=
  ⟨posted.text, List.mem_append_left _ posted.owner⟩

theorem projected_start :
    Projected service serialize initial generator [] (start initial generator) where
  requests := ⟨[], rfl, rfl⟩
  sessions := ⟨[], rfl, by simp⟩
  told := .nil
  authors := by simp [startedBy]

theorem advance_cases {move : Move { _task : Task // True } Choice}
    (advanced : server.advance service move = some next) :
    (calmTasks service).step server.requests move = some next.requests ∧
      next.sessions = server.sessions := by
  obtain ⟨requests, taken, rfl⟩ := Option.map_eq_some_iff.mp advanced
  exact ⟨taken, rfl⟩

theorem happens_cases {event : SessionEvent} (happened : server.happens event = some next) :
    LiveSessions.machine.step server.sessions event = some next.sessions ∧
      next.requests = server.requests := by
  obtain ⟨sessions, taken, rfl⟩ := Option.map_eq_some_iff.mp happened
  exact ⟨taken, rfl⟩

/-- An event that neither accepts a session nor reads from one. -/
theorem Projected.record {event : ServerEvent}
    (projected : Projected service serialize initial generator events server)
    {moves : List (Move { _task : Task // True } Choice)} {past : List SessionEvent}
    (requests : (calmTasks service).run (Backend.start initial generator) moves = some next.requests)
    (tasks : tasksOf moves = startedBy (events ++ [event]))
    (sessions : LiveSessions.machine.run .init past = some next.sessions)
    (accepts : ∀ session claims, .registry (.doAccept session claims) ∈ past ↔
      .session (.registry (.doAccept session claims)) ∈ events ++ [event])
    (told : List.Forall₂ (Posted serialize (events ++ [event])) next.requests.shared.sent
      next.sessions.mgr.posted)
    (reads : ∀ text userClaims, .handleMessage text userClaims ∈ startedBy [event] →
      ∃ session, event = .read session text userClaims ∧
        .session (.registry (.doAccept session (some userClaims.id))) ∈ events) :
    Projected service serialize initial generator (events ++ [event]) next where
  requests := ⟨moves, requests, tasks⟩
  sessions := ⟨past, sessions, accepts⟩
  told := told
  authors text userClaims member := by
    rw [startedBy, List.filterMap_append] at member
    rcases List.mem_append.mp member with before | now
    · obtain ⟨session, read, accepted⟩ := projected.authors text userClaims before
      exact ⟨session, List.mem_append_left _ read, List.mem_append_left _ accepted⟩
    · obtain ⟨session, rfl, accepted⟩ := reads text userClaims now
      exact ⟨session, List.mem_append_right _ (List.mem_singleton.mpr rfl),
        List.mem_append_left _ accepted⟩

theorem Projected.starts {event : ServerEvent} {task : Task}
    (projected : Projected service serialize initial generator events server)
    (starts : startedBy [event] = [task]) (quiet : ∀ action, event ≠ .session (.registry action))
    (advanced : server.advance service (.start ⟨task, trivial⟩) = some next)
    (reads : ∀ text userClaims, task = .handleMessage text userClaims →
      ∃ session, event = .read session text userClaims ∧
        .session (.registry (.doAccept session (some userClaims.id))) ∈ events) :
    Projected service serialize initial generator (events ++ [event]) next := by
  obtain ⟨moves, reached, tasks⟩ := projected.requests
  obtain ⟨past, ran, accepts⟩ := projected.sessions
  obtain ⟨taken, same⟩ := advance_cases advanced
  have unchanged : next.requests.shared = server.requests.shared :=
    (congrArg Threads.shared (Option.some.inj taken)).symm
  refine projected.record (Machine.run_snoc_iff.mpr ⟨_, reached, taken⟩) ?_ (same ▸ ran) ?_ ?_ ?_
  · calc tasksOf (moves ++ [.start ⟨task, trivial⟩]) = tasksOf moves ++ [task] := by simp [tasksOf]
      _ = startedBy events ++ startedBy [event] := by rw [tasks, starts]
      _ = startedBy (events ++ [event]) := List.filterMap_append.symm
  · intro session claims
    rw [accepts]
    simp [(quiet _).symm]
  · rw [unchanged, same]
    exact projected.told.imp fun _ _ => Posted.mono
  · intro text userClaims member
    exact reads text userClaims (List.mem_singleton.mp (starts ▸ member)).symm

theorem Projected.call
    (projected : Projected service serialize initial generator events server)
    (offline : choice.isOnline = false)
    (advanced : server.advance service (.step thread choice) = some next) :
    Projected service serialize initial generator (events ++ [.call thread choice]) next := by
  obtain ⟨moves, reached, tasks⟩ := projected.requests
  obtain ⟨past, ran, accepts⟩ := projected.sessions
  obtain ⟨taken, same⟩ := advance_cases advanced
  obtain ⟨op, rest, answer, found, served, _⟩ := interleaving_step taken
  refine projected.record (Machine.run_snoc_iff.mpr ⟨_, reached, taken⟩) ?_ (same ▸ ran) ?_ ?_
    (by simp [startedBy])
  · simpa [tasksOf, startedBy] using tasks
  · simpa using accepts
  · rw [sent_of_offline served offline, same]
    exact projected.told.imp fun _ _ => Posted.mono

theorem Projected.tell {told : ChatServer}
    (projected : Projected service serialize initial generator events server)
    (called : server.nextCall thread = some op)
    (acts : op.registryAction serialize = some action)
    (advanced : server.advance service (.step thread (.online (server.online action))) = some told)
    (happened : told.happens (.registry action) = some next) :
    Projected service serialize initial generator (events ++ [.tell thread]) next := by
  obtain ⟨moves, reached, tasks⟩ := projected.requests
  obtain ⟨past, ran, accepts⟩ := projected.sessions
  obtain ⟨taken, same⟩ := advance_cases advanced
  obtain ⟨moved, unchanged⟩ := happens_cases happened
  rw [same] at moved
  obtain ⟨mgr, posting, after⟩ := Option.map_eq_some_iff.mp moved
  have mgrAfter : next.sessions.mgr = mgr := (congrArg LiveSessions.mgr after).symm
  obtain ⟨other, rest, answer, found, served, _⟩ := interleaving_step taken
  obtain rfl : other = op := by
    simpa [nextCall, found] using called
  obtain ⟨msg, according, sent, posted⟩ := tell_sent acts served posting
  have twice : action.addressed.filter (· ∈ server.online action) = server.online action := by
    refine List.filter_congr fun user member => ?_
    simp [online, member]
  have quiet : ∀ session claims, action ≠ .doAccept session claims := by
    rintro session claims rfl
    cases other <;> cases acts
  refine projected.record (Machine.run_snoc_iff.mpr ⟨_, reached, unchanged ▸ taken⟩) ?_
    (Machine.run_snoc_iff.mpr ⟨_, ran, moved⟩) ?_ ?_ (by simp [startedBy])
  · simpa [tasksOf, startedBy] using tasks
  · intro session claims
    simpa [(quiet session claims).symm] using accepts session claims
  · rw [unchanged, sent, mgrAfter, posted, twice]
    refine List.rel_append (projected.told.imp fun _ _ => Posted.mono) (forall₂_online ?_)
    intro user session live
    have registered := (WSSessionMgr.liveSession_eq_some_iff.mp live).1
    have traced := WSSessionMgr.traced_of_run (LiveSessions.registry_run ran)
    have accepted := LiveSessions.mem_registryActions.mp (traced.registered user session registered)
    exact ⟨rfl, List.mem_append_left _ ((accepts session (some user)).mp accepted)⟩

theorem posted_of_quiet {event : SessionEvent} {live final : LiveSessions}
    (quiet : event.isQuiet = true) (taken : LiveSessions.machine.step live event = some final) :
    final.mgr.posted = live.mgr.posted := by
  cases event with
  | strand session event =>
    obtain ⟨_, _, _, _, _, rfl⟩ := LiveSessions.strand_step taken
    rfl
  | registry action =>
    obtain ⟨mgr, moved, rfl⟩ := Option.map_eq_some_iff.mp taken
    cases WSSessionMgr.steps_of_step moved with
    | connected | copied | reset | destroyed => rfl
    | accepted session claims object found held => cases claims <;> rfl
    | wrote user msg => cases quiet
    | wroteToRoom users msg => cases quiet

theorem Projected.session {event : SessionEvent}
    (projected : Projected service serialize initial generator events server)
    (quiet : event.isQuiet = true) (happened : server.happens event = some next) :
    Projected service serialize initial generator (events ++ [.session event]) next := by
  obtain ⟨moves, reached, tasks⟩ := projected.requests
  obtain ⟨past, ran, accepts⟩ := projected.sessions
  obtain ⟨taken, unchanged⟩ := happens_cases happened
  refine projected.record (unchanged ▸ reached) ?_ (Machine.run_snoc_iff.mpr ⟨_, ran, taken⟩) ?_ ?_
    (by simp [startedBy])
  · simpa [tasksOf, startedBy] using tasks
  · intro session claims
    simp [accepts]
  · rw [unchanged, posted_of_quiet quiet taken]
    exact projected.told.imp fun _ _ => Posted.mono

/-- Who reads has been accepted for the user of its claims. -/
theorem Projected.reads {session : Nat} {userClaims : UserClaims}
    (projected : Projected service serialize initial generator events server)
    (reading : server.reads session userClaims = true) :
    .session (.registry (.doAccept session (some userClaims.id))) ∈ events := by
  obtain ⟨past, ran, accepts⟩ := projected.sessions
  simp only [ChatServer.reads, Bool.and_eq_true, Option.any_eq_true] at reading
  obtain ⟨⟨_, queue, found, done⟩, object, there, holds⟩ := reading
  obtain ⟨user, accepted, identity⟩ := LiveSessions.authorized_of_run ran session queue found
    (by simp [of_decide_eq_true done])
  have same : user = userClaims.id := by
    rw [WSSessionMgr.identities, List.getElem?_map, there] at identity
    exact (congrArg Prod.fst (Option.some.inj identity)).symm.trans (of_decide_eq_true holds)
  exact (accepts session _).mp (same ▸ accepted)

theorem Projected.step {event : ServerEvent}
    (projected : Projected service serialize initial generator events server)
    (taken : (machine service serialize).step server event = some next) :
    Projected service serialize initial generator (events ++ [event]) next := by
  cases event with
  | request task =>
    cases task with
    | handleMessage text userClaims => cases taken
    | _ => exact projected.starts rfl nofun taken nofun
  | read session text userClaims =>
    obtain ⟨reading, advanced⟩ := Option.ite_none_right_eq_some.mp taken
    refine projected.starts rfl nofun advanced ?_
    rintro _ _ ⟨⟩
    exact ⟨session, rfl, projected.reads reading⟩
  | call thread choice =>
    obtain ⟨offline, advanced⟩ := Option.ite_none_left_eq_some.mp taken
    exact projected.call (by simpa using offline) advanced
  | tell thread =>
    obtain ⟨op, called, inside⟩ := Option.bind_eq_some_iff.mp taken
    obtain ⟨action, acts, inside⟩ := Option.bind_eq_some_iff.mp inside
    obtain ⟨told, advanced, happened⟩ := Option.bind_eq_some_iff.mp inside
    exact projected.tell called acts advanced happened
  | session event =>
    obtain ⟨quiet, happened⟩ := Option.ite_none_right_eq_some.mp taken
    exact projected.session quiet happened

end Projections

section Runs

variable {service : Service} {serialize : Json → String} {initial : Tables}
variable {generator : Generator} {events : List ServerEvent} {final : ChatServer}

/-- What a user is told comes of a message that a thread handles. -/
theorem handled_of_backed {tasks : List Task} {backend : Backend} {delivery : Delivery}
    (backed : Backed service tasks backend delivery) :
    ∃ text userClaims, tasks[delivery.thread]? = some (.handleMessage text userClaims) := by
  cases backed with
  | permissionDenied task => exact ⟨_, _, task⟩
  | posting logged own found asks => cases asks <;> exact ⟨_, _, found⟩

theorem projected_of_run
    (ran : (machine service serialize).run (start initial generator) events = some final) :
    Projected service serialize initial generator events final :=
  Machine.run_induction (motive := Projected service serialize initial generator) ran
    projected_start fun _ _ _ _ _ projected taken => projected.step taken

theorem posted_at {related : Delivery → Nat × String → Prop} {sent : List Delivery}
    {posted : List (Nat × String)} {delivery : Delivery} {entry : Nat × String} {place : Nat}
    (told : List.Forall₂ related sent posted) (found : sent[place]? = some delivery)
    (there : posted[place]? = some entry) : related delivery entry := by
  obtain ⟨inside, rfl⟩ := List.getElem?_eq_some_iff.mp found
  obtain ⟨within, rfl⟩ := List.getElem?_eq_some_iff.mp there
  exact told.get inside within

theorem exists_delivery {related : Delivery → Nat × String → Prop} {sent : List Delivery}
    {posted : List (Nat × String)} {entry : Nat × String}
    (told : List.Forall₂ related sent posted) (member : entry ∈ posted) :
    ∃ delivery ∈ sent, related delivery entry := by
  obtain ⟨index, inside, rfl⟩ := List.mem_iff_getElem.mp member
  have there : index < sent.length := told.length_eq ▸ inside
  exact ⟨sent.get ⟨index, there⟩, List.get_mem _ _, told.get there inside⟩

/-- `json::serialize` of a group message in plain letters. -/
private def serializedGroupMsg : Json → String
  | .object [(_, .integer 3), (_, .object [(_, .string roomId), (_, .string senderId),
      (_, .string content)])] =>
    "\x7b\"type\":3,\"data\":\x7b\"room_id\":\"" ++ roomId ++ "\",\"sender_id\":\"" ++
      senderId ++ "\",\"content\":\"" ++ content ++ "\"\x7d\x7d"
  | _ => "null"

private def connects (session : Nat) (user : UInt64) : List ServerEvent :=
  [.session (.registry (.connect 0)), .session (.registry (.doAccept session (some user))),
    .session (.strand session .asyncAccept), .session (.strand session (.onAccept false))]

private def calls (thread : Nat) (choices : List Choice) : List ServerEvent :=
  choices.map (.call thread)

/-- User 1 creates room 1 and invites user 2; both come online, and 1 writes to the room. -/
private def roomOfTwo : List ServerEvent :=
  .request (.createGRoom (sampleRequest .post "/api/group_room" "1" "room")) ::
    calls 0 [.returns, .returns, .returns, .returns, .returns, .returns] ++
  .request (.inviteMember (sampleRequest .post "/api/rooms/1/member" "1" "invitee 2") 1) ::
    calls 1 [.returns, .reads 0, .returns, .returns] ++
  connects 0 1 ++ connects 1 2 ++ .read 0 "group 1" ⟨1, "1"⟩ ::
    calls 2 [.returns, .returns, .reads 0, .returns, .returns, .returns, .returns, .returns] ++
  [.tell 2, .call 2 .returns, .session (.strand 1 .onSend)]

private theorem roomOfTwo_runs : ∃ final queue, (machine sampleService serializedGroupMsg).run
    (start {} (sampleGenerator 2)) roomOfTwo = some final ∧
      final.sessions.queues[1]? = some queue ∧ queue.started.length = 1 ∧
      final.requests.shared.generator.ids = [1, 2] := by
  have ran : ((((machine sampleService serializedGroupMsg).run
      (start {} (sampleGenerator 2)) roomOfTwo).bind fun final =>
        final.sessions.queues[1]?.map fun queue => (queue, final)).map fun reached =>
          (reached.1.started.length, reached.2.requests.shared.generator.ids)) = some (1, [1, 2]) := by
    decide +kernel
  obtain ⟨⟨queue, final⟩, found, facts⟩ := Option.map_eq_some_iff.mp ran
  obtain ⟨reached, whole, there⟩ := Option.bind_eq_some_iff.mp found
  obtain ⟨_, inQueue, same⟩ := Option.map_eq_some_iff.mp there
  cases same
  exact ⟨final, queue, whole, inQueue, congrArg Prod.fst facts, congrArg Prod.snd facts⟩

/-- Every run of the whole server is a run of the requests, with the registry to decide who
is online, and one of the sessions. The deliveries of the one are the posted messages of the
other, one by one, each at a session that was accepted for its user. -/
theorem server_projects
    (ran : (machine service serialize).run (start initial generator) events = some final) :
    Projected service serialize initial generator events final :=
  projected_of_run ran

theorem server_projects_two : ∃ final, (machine sampleService serializedGroupMsg).run
    (start {} (sampleGenerator 2)) roomOfTwo = some final ∧
      Projected sampleService serializedGroupMsg {} (sampleGenerator 2) roomOfTwo final := by
  obtain ⟨final, queue, reached, _⟩ := roomOfTwo_runs
  exact ⟨final, reached, server_projects reached⟩

/-- Whatever is handed to `async_write` on a session is the text of something the user of its
token is told, on the strength of what the thread that tells it has committed; and that
thread handles a message that was read from a session with the token of its author. -/
theorem written_backed {session : Nat} {queue : SendQueue} {call : WriteCall}
    (ran : (machine service serialize).run (start initial generator) events = some final)
    (found : final.sessions.queues[session]? = some queue) (started : call ∈ queue.started) :
    ∃ delivery, call.message = serialize delivery.msg ∧
      (∀ claims, .session (.registry (.doAccept session claims)) ∈ events ↔
        claims = some delivery.user) ∧
      Backed service (startedBy events) final.requests.shared delivery ∧
      ∃ sender text userClaims,
        (startedBy events)[delivery.thread]? = some (.handleMessage text userClaims) ∧
        .read sender text userClaims ∈ events ∧
        .session (.registry (.doAccept sender (some userClaims.id))) ∈ events := by
  have projected := projected_of_run ran
  obtain ⟨moves, reached, tasks⟩ := projected.requests
  obtain ⟨past, sessionsRan, accepts⟩ := projected.sessions
  have posted := (LiveSessions.linked_of_run sessionsRan).posted_of_started found started
  obtain ⟨delivery, sent, text, owner⟩ := exists_delivery projected.told posted
  have backed : Backed service (startedBy events) final.requests.shared delivery :=
    tasks ▸ (requests_attributed (motive := fun backend => ∀ delivery ∈ backend.sent,
      Backed service (tasksOf moves) backend delivery) reached nofun
        fun _ => backed_kept).valid.2 delivery sent
  refine ⟨delivery, text, fun claims => ⟨fun accepted => ?_, ?_⟩, backed, ?_⟩
  · have traced := WSSessionMgr.traced_of_run (LiveSessions.registry_run sessionsRan)
    exact traced.once session _ _
      (LiveSessions.mem_registryActions.mpr ((accepts session claims).mpr accepted))
      (LiveSessions.mem_registryActions.mpr ((accepts session _).mpr owner))
  · rintro rfl
    exact owner
  · obtain ⟨text, userClaims, handles⟩ := handled_of_backed backed
    obtain ⟨sender, read, accepted⟩ :=
      projected.authors text userClaims (List.mem_of_getElem? handles)
    exact ⟨sender, text, userClaims, handles, read, accepted⟩

theorem written_backed_two : ∃ final queue call, (machine sampleService serializedGroupMsg).run
    (start {} (sampleGenerator 2)) roomOfTwo = some final ∧
      final.sessions.queues[1]? = some queue ∧ call ∈ queue.started ∧
      ∃ delivery, call.message = serializedGroupMsg delivery.msg ∧
        (∀ claims, .session (.registry (.doAccept 1 claims)) ∈ roomOfTwo ↔
          claims = some delivery.user) ∧
        Backed sampleService (startedBy roomOfTwo) final.requests.shared delivery ∧
        ∃ sender text userClaims,
          (startedBy roomOfTwo)[delivery.thread]? = some (.handleMessage text userClaims) ∧
          .read sender text userClaims ∈ roomOfTwo ∧
          .session (.registry (.doAccept sender (some userClaims.id))) ∈ roomOfTwo := by
  obtain ⟨final, queue, reached, found, one, _⟩ := roomOfTwo_runs
  obtain ⟨call, only⟩ := List.length_eq_one_iff.mp one
  have started : call ∈ queue.started := only ▸ List.mem_singleton.mpr rfl
  exact ⟨final, queue, call, reached, found, started, written_backed reached found started⟩

/-- While ids are fresh no thread has the same message posted to a session twice. -/
theorem posted_once {first : RoomService}
    (ran : (machine service serialize).run (start initial generator) events = some final)
    (represents : Represents initial first) (drawable : Drawable first final.requests.shared) :
    final.requests.shared.sent.length = final.sessions.mgr.posted.length ∧
      ∀ (one two : Nat) (delivery other : Delivery) (entry next : Nat × String),
        final.requests.shared.sent[one]? = some delivery →
        final.sessions.mgr.posted[one]? = some entry →
        final.requests.shared.sent[two]? = some other →
        final.sessions.mgr.posted[two]? = some next →
        delivery.thread = other.thread → entry.1 = next.1 → delivery.msg = other.msg → one = two := by
  have projected := projected_of_run ran
  obtain ⟨moves, reached, _⟩ := projected.requests
  obtain ⟨past, sessionsRan, accepts⟩ := projected.sessions
  have once := (toldOnce_of_run reached represents drawable).once
  refine ⟨projected.told.length_eq, ?_⟩
  intro one two delivery other entry next sent posted sentToo postedToo thread session msg
  have owner := (posted_at projected.told sent posted).owner
  have ownerToo := (posted_at projected.told sentToo postedToo).owner
  have traced := WSSessionMgr.traced_of_run (LiveSessions.registry_run sessionsRan)
  have user : delivery.user = other.user := by
    have same := traced.once entry.1 _ _
      (LiveSessions.mem_registryActions.mpr ((accepts _ _).mpr owner))
      (LiveSessions.mem_registryActions.mpr ((accepts _ _).mpr (session ▸ ownerToo)))
    exact Option.some.inj same
  have parts : delivery.parts = other.parts := by
    simp [Delivery.parts, thread, user, msg]
  have there := (List.getElem?_eq_some_iff.mp sent).1
  refine (List.getElem?_inj (by simpa using there) once).mp ?_
  rw [List.getElem?_map, List.getElem?_map, sent, sentToo]
  exact congrArg some parts

theorem posted_once_two : ∃ final, (machine sampleService serializedGroupMsg).run
    (start {} (sampleGenerator 2)) roomOfTwo = some final ∧
      final.requests.shared.sent.length = final.sessions.mgr.posted.length ∧
      ∀ (one two : Nat) (delivery other : Delivery) (entry next : Nat × String),
        final.requests.shared.sent[one]? = some delivery →
        final.sessions.mgr.posted[one]? = some entry →
        final.requests.shared.sent[two]? = some other →
        final.sessions.mgr.posted[two]? = some next →
        delivery.thread = other.thread → entry.1 = next.1 → delivery.msg = other.msg → one = two := by
  obtain ⟨final, queue, reached, _, _, ids⟩ := roomOfTwo_runs
  exact ⟨final, reached,
    posted_once reached represents_empty (drawable_empty (ids ▸ by decide))⟩

end Runs

end ChatServer

end TinyChat.Core
