import TinyChat.Core.RegistryFrame
import TinyChat.Core.SendQueue

/-! The way of a message from `write_to` and `write_to_room` through the registry, the posted
calls of `on_send` and the queue of its session to `async_write`, for all sessions at once. -/
namespace TinyChat.Core

open TinyChat.Transition

namespace WSSessionMgr

variable {mgr next : WSSessionMgr} {user : UInt64} {session : Nat} {msg : String}
variable {action : Action} {past : List Action}

/-- A message to the user, alone or as one of a room. -/
inductive Addresses (user : UInt64) (msg : String) : Action → Prop where
  | alone : Addresses user msg (.writeTo user msg)
  | room {usersInGroup : List UInt64} (member : user ∈ usersInGroup) :
      Addresses user msg (.writeToRoom usersInGroup msg)

/-- An action posts messages to live sessions of the users that it addresses. -/
theorem Steps.posts (moved : Steps mgr action next) :
    ∃ sent, next.posted = mgr.posted ++ sent ∧ ∀ entry ∈ sent, ∃ user,
      mgr.liveSession user = some entry.1 ∧ Addresses user entry.2 action := by
  cases moved with
  | connected | copied | reset | destroyed => exact ⟨[], (List.append_nil _).symm, by simp⟩
  | accepted session claims object found held =>
    cases claims <;> exact ⟨[], (List.append_nil _).symm, by simp⟩
  | wrote user msg =>
    refine ⟨_, (congrArg posted (writeTo_eq user msg mgr)).trans (sends_posted ..), ?_⟩
    intro entry member
    obtain ⟨session, found, rfl⟩ := List.mem_map.mp member
    exact ⟨user, Option.mem_toList.mp found, .alone⟩
  | wroteToRoom users msg =>
    refine ⟨_, writeToRoom_posted, fun entry member => ?_⟩
    obtain ⟨session, found, rfl⟩ := List.mem_map.mp member
    obtain ⟨user, addressed, live⟩ := List.mem_filterMap.mp found
    exact ⟨user, live, .room addressed⟩

/-- What the registry and its history say of each other. -/
structure Traced (past : List Action) (mgr : WSSessionMgr) : Prop where
  registered : ∀ user session, mgr.sessions user = some session →
    .doAccept session (some user) ∈ past
  posted : ∀ session msg, (session, msg) ∈ mgr.posted →
    ∃ user, .doAccept session (some user) ∈ past ∧ ∃ action ∈ past, Addresses user msg action
  accepted : ∀ session claims, .doAccept session claims ∈ past →
    ∃ id, mgr.identities[session]? = some (id, true)
  once : ∀ session first second, .doAccept session first ∈ past → .doAccept session second ∈ past →
    first = second

theorem traced_init : Traced [] init := by
  refine ⟨fun _ _ registered => ?_, by simp [init], by simp, by simp⟩
  cases registered

/-- A session object that has been through `do_accept` keeps its user id. -/
theorem identity_stays (taken : machine.step mgr action = some next) {id : UInt64}
    (before : mgr.identities[session]? = some (id, true)) :
    next.identities[session]? = some (id, true) := by
  rw [(steps_of_step taken).identities]
  cases action with
  | connect indeterminate =>
    exact List.getElem?_append_left (List.getElem?_eq_some_iff.mp before).1 ▸ before
  | doAccept index claims =>
    obtain ⟨old, first⟩ := doAccept_first taken
    have other : index ≠ session := fun same => by simp [same, before] at first
    simpa [List.getElem?_modify, other] using before
  | _ => exact before

theorem Traced.step (traced : Traced past mgr) (taken : machine.step mgr action = some next) :
    Traced (past ++ [action]) next := by
  have moved := steps_of_step taken
  have older {earlier : Action} (member : earlier ∈ past) : earlier ∈ past ++ [action] :=
    List.mem_append_left _ member
  have latest : action ∈ past ++ [action] := List.mem_append_right _ (List.mem_singleton.mpr rfl)
  have twice {index : Nat} {claims first : Option UInt64} (now : action = .doAccept index claims)
      (member : .doAccept index first ∈ past) : False := by
    subst now
    obtain ⟨old, unaccepted⟩ := doAccept_first taken
    obtain ⟨id, accepted⟩ := traced.accepted index first member
    cases unaccepted.symm.trans accepted
  constructor
  · intro user session registered
    rcases moved.entries registered with before | now
    · exact older (traced.registered user session before)
    · exact now ▸ latest
  · intro session msg member
    obtain ⟨sent, same, live⟩ := moved.posts
    rw [same] at member
    rcases List.mem_append.mp member with before | new
    · obtain ⟨user, accepted, earlier, done, addresses⟩ := traced.posted session msg before
      exact ⟨user, older accepted, earlier, older done, addresses⟩
    · obtain ⟨user, found, addresses⟩ := live _ new
      have registered := (liveSession_eq_some_iff.mp found).1
      exact ⟨user, older (traced.registered user session registered), action, latest, addresses⟩
  · intro session claims member
    rcases List.mem_append.mp member with before | now
    · obtain ⟨id, accepted⟩ := traced.accepted session claims before
      exact ⟨id, identity_stays taken accepted⟩
    · have now := List.mem_singleton.mp now
      subst now
      obtain ⟨held, first⟩ := doAccept_first taken
      refine ⟨claims.getD held, ?_⟩
      rw [moved.identities]
      simp [first]
  · intro session first second one two
    rcases List.mem_append.mp one with one | one <;> rcases List.mem_append.mp two with two | two
    · exact traced.once session first second one two
    · exact (twice (List.mem_singleton.mp two).symm one).elim
    · exact (twice (List.mem_singleton.mp one).symm two).elim
    · cases (List.mem_singleton.mp one).trans (List.mem_singleton.mp two).symm
      rfl

theorem traced_of_run (ran : machine.run init past = some mgr) : Traced past mgr :=
  Machine.run_induction (motive := Traced) ran traced_init
    fun _ _ _ _ _ traced taken => traced.step taken

end WSSessionMgr

/-- The messages for one session among all that were posted. -/
def messagesTo (session : Nat) (posted : List (Nat × String)) : List String :=
  (posted.filter fun entry => entry.1 = session).map Prod.snd

/-- The events that are handlers on the strand of the session. -/
def SendEvent.onStrand : SendEvent → Bool
  | .authUser => false
  | .send _ => false
  | _ => true

namespace SendQueue

variable {session next : SendQueue}

/-- Writes succeed: the handshake is done, no write has failed, and the one under way
was not made before the handshake. -/
structure Flowing (session : SendQueue) : Prop where
  handshake : session.handshake = .succeeded
  fine : session.writeFailed = false
  dated : ∀ call ∈ session.writes, call.handshake = .succeeded

theorem Flowing.asyncWrite (flowing : session.Flowing) : session.asyncWrite.Flowing := by
  obtain ⟨done, fine, dated⟩ := flowing
  unfold SendQueue.asyncWrite
  split
  · exact ⟨done, fine, dated⟩
  · refine ⟨done, fine, fun call member => ?_⟩
    rcases List.mem_append.mp member with before | new
    · exact dated call before
    · exact List.mem_singleton.mp new ▸ done

theorem Flowing.onSend (flowing : session.Flowing) (message : String) :
    (session.onSend message).Flowing := by
  have queued : Flowing { session with
      messageQueue := session.messageQueue ++ [message]
      passed := session.passed ++ [message] } :=
    ⟨flowing.handshake, flowing.fine, flowing.dated⟩
  simp only [SendQueue.onSend]
  split
  · exact queued.asyncWrite
  · exact queued

theorem Flowing.onWrite (flowing : session.Flowing) : session.onWrite.Flowing :=
  have popped : Flowing { session with messageQueue := session.messageQueue.tail } :=
    ⟨flowing.handshake, flowing.fine, flowing.dated⟩
  popped.asyncWrite

@[simp] theorem asyncWrite_posted : session.asyncWrite.posted = session.posted := by
  unfold asyncWrite
  split <;> rfl

@[simp] theorem asyncWrite_messageQueue :
    session.asyncWrite.messageQueue = session.messageQueue := by
  unfold asyncWrite
  split <;> simp_all

@[simp] theorem onSend_posted {message : String} :
    (session.onSend message).posted = session.posted := by
  simp only [onSend]
  split <;> simp

@[simp] theorem onSend_messageQueue {message : String} :
    (session.onSend message).messageQueue = session.messageQueue ++ [message] := by
  simp only [onSend]
  split <;> simp

@[simp] theorem onWrite_posted : session.onWrite.posted = session.posted := by
  simp [onWrite]

@[simp] theorem onWrite_messageQueue :
    session.onWrite.messageQueue = session.messageQueue.tail := by
  simp [onWrite]

/-- The handlers that a strand still has to run for its messages. -/
def backlog (session : SendQueue) : Nat := 2 * session.posted.length + session.messageQueue.length

/-- While there is a backlog the strand has a handler to run that shortens it. -/
theorem Flowing.advances (flowing : session.Flowing) (queued : session.Queued)
    (behind : session.backlog ≠ 0) : ∃ event next, event.onStrand = true ∧
      machine.step session event = some next ∧ next.Flowing ∧ next.backlog < session.backlog := by
  cases waiting : session.posted with
  | cons message rest =>
    have before : Flowing { session with posted := rest } :=
      ⟨flowing.handshake, flowing.fine, flowing.dated⟩
    refine ⟨.onSend, _, rfl, ?_, before.onSend message, ?_⟩
    · simp [machine, step, flowing.handshake, waiting]
    · simp [backlog, waiting]
      omega
  | nil =>
    have some : session.messageQueue ≠ [] := fun empty => behind (by simp [backlog, waiting, empty])
    have writing := (queued.outstanding flowing.fine).mp some
    obtain ⟨call, rest, under⟩ := List.exists_cons_of_ne_nil writing
    have dated := flowing.dated call (under ▸ List.mem_cons_self)
    have before : Flowing { session with writes := rest } :=
      ⟨flowing.handshake, flowing.fine, fun call member =>
        flowing.dated call (under ▸ List.mem_cons_of_mem _ member)⟩
    refine ⟨.onWrite false, _, rfl, ?_, before.onWrite, ?_⟩
    · simp [machine, step, under, dated]
    · have positive := List.length_pos_iff.mpr some
      simp only [backlog, onWrite_posted, onWrite_messageQueue, List.length_tail]
      omega

/-- The strand can always come to the end of its messages. -/
theorem Flowing.drains (flowing : session.Flowing) (queued : session.Queued) :
    ∃ events final, (∀ event ∈ events, event.onStrand = true) ∧
      machine.run session events = some final ∧ final.Queued ∧ final.backlog = 0 := by
  induction bound : session.backlog using Nat.strongRecOn generalizing session with
  | _ bound ih =>
    by_cases behind : session.backlog = 0
    · exact ⟨[], session, by simp, rfl, queued, behind⟩
    · obtain ⟨event, next, onStrand, taken, still, less⟩ := flowing.advances queued behind
      obtain ⟨events, final, all, ran, done⟩ := ih _ (bound ▸ less) still (queued.step taken) rfl
      refine ⟨event :: events, final, ?_, by simp [taken, ran], done⟩
      simpa [onStrand] using all

end SendQueue

/-- The registry with the write sides of all session objects, which have the same places. -/
structure LiveSessions where
  mgr : WSSessionMgr
  queues : List SendQueue

inductive SessionEvent where
  /-- A call of another thread, or `do_accept`. -/
  | registry (action : Action)
  | strand (session : Nat) (event : SendEvent)

namespace LiveSessions

def init : LiveSessions := { mgr := .init, queues := [] }

/-- Every session is posted its own messages in their order. -/
def deliver (posted : List (Nat × String)) (queues : List SendQueue) : List SendQueue :=
  queues.mapIdx fun session queue =>
    { queue with posted := queue.posted ++ messagesTo session posted }

/-- What an action of the registry does to the write sides. -/
def follow (live : LiveSessions) (next : WSSessionMgr) : Action → List SendQueue
  | .connect _ => live.queues ++ [.init]
  | .doAccept session (some _) =>
    live.queues.modify session fun queue => { queue with handshake := .registered }
  | _ => deliver (next.posted.drop live.mgr.posted.length) live.queues

def step (live : LiveSessions) : SessionEvent → Option LiveSessions
  | .registry action => (live.mgr.step action).map fun next =>
    { mgr := next, queues := live.follow next action }
  | .strand session event =>
    -- The handlers hold a pointer to the session.
    if event.onStrand && live.mgr.alive session then
      live.queues[session]?.bind fun queue => (queue.step event).map fun after =>
        { live with queues := live.queues.set session after }
    else none

def machine : Machine LiveSessions SessionEvent := ⟨step⟩

variable {live next : LiveSessions} {session : Nat} {queue : SendQueue} {event : SessionEvent}
variable {events : List SessionEvent}

/-- What was done to the registry. -/
def registryActions (events : List SessionEvent) : List Action := events.filterMap fun
  | .registry action => some action
  | .strand _ _ => none

theorem mem_registryActions {action : Action} :
    action ∈ registryActions events ↔ .registry action ∈ events := by
  simp only [registryActions, List.mem_filterMap]
  constructor
  · rintro ⟨event, member, same⟩
    cases event with
    | registry other => exact Option.some.inj same ▸ member
    | strand session event => cases same
  · exact fun member => ⟨_, member, rfl⟩

/-- A handler on a strand changes its own write side only. -/
theorem strand_step {event : SendEvent}
    (taken : machine.step live (.strand session event) = some next) :
    ∃ queue after, live.queues[session]? = some queue ∧ event.onStrand = true ∧
      SendQueue.machine.step queue event = some after ∧
      next = { live with queues := live.queues.set session after } := by
  simp only [machine, step] at taken
  split at taken
  · rename_i enabled
    obtain ⟨queue, found, inside⟩ := Option.bind_eq_some_iff.mp taken
    obtain ⟨after, moved, rfl⟩ := Option.map_eq_some_iff.mp inside
    exact ⟨queue, after, found, (Bool.and_eq_true_iff.mp enabled).1, moved, rfl⟩
  · cases taken

theorem registry_run (ran : machine.run init events = some live) :
    WSSessionMgr.machine.run .init (registryActions events) = some live.mgr := by
  refine Machine.run_induction (motive := fun past now =>
    WSSessionMgr.machine.run .init (registryActions past) = some now.mgr) ran rfl ?_
  intro past now event next _ reached taken
  cases event with
  | registry action =>
    obtain ⟨mgr, moved, rfl⟩ := Option.map_eq_some_iff.mp taken
    have snoc : registryActions (past ++ [.registry action]) = registryActions past ++ [action] := by
      simp [registryActions]
    exact snoc ▸ Machine.run_snoc_iff.mpr ⟨_, reached, moved⟩
  | strand session event =>
    have same : registryActions (past ++ [.strand session event]) = registryActions past := by
      simp [registryActions]
    obtain ⟨_, _, _, _, _, rfl⟩ := strand_step taken
    exact same ▸ reached

/-- What the write sides and the registry are to each other. -/
structure Linked (live : LiveSessions) : Prop where
  length : live.queues.length = live.mgr.objects.length
  known : ∀ entry ∈ live.mgr.posted, entry.1 < live.queues.length
  queued : ∀ (session : Nat) (queue : SendQueue), live.queues[session]? = some queue → queue.Queued
  posts : ∀ (session : Nat) (queue : SendQueue), live.queues[session]? = some queue →
    queue.passed ++ queue.posted = messagesTo session live.mgr.posted

theorem linked_init : init.Linked := by
  constructor <;> simp [init, WSSessionMgr.init]

/-- On its strand a session moves messages on, but neither gets nor loses one. -/
theorem passed_posted {event : SendEvent} {after : SendQueue} (onStrand : event.onStrand = true)
    (taken : SendQueue.machine.step queue event = some after) :
    after.passed ++ after.posted = queue.passed ++ queue.posted := by
  cases SendQueue.steps_of_step taken with
  | registered now => cases onStrand
  | posted message => cases onStrand
  | accepting | accepted | refused | closed => rfl
  | passed message rest waiting =>
    rw [waiting]
    by_cases empty : queue.messageQueue = []
    · rw [@SendQueue.onSend_of_empty { queue with posted := rest } message empty]
      simp [SendQueue.asyncWrite]
    · rw [@SendQueue.onSend_of_waiting { queue with posted := rest } message empty]
      simp
  | written call rest under =>
    unfold SendQueue.onWrite SendQueue.asyncWrite
    split <;> rfl
  | writeFailed call rest under => rfl

theorem set_cases {queues : List SendQueue} {other : Nat} {after there : SendQueue}
    (found : (queues.set session after)[other]? = some there) :
    other = session ∧ there = after ∨ queues[other]? = some there := by
  by_cases same : session = other
  · subst same
    have inside := (List.getElem?_eq_some_iff.mp found).1
    rw [List.getElem?_set_self (by simpa using inside)] at found
    exact .inl ⟨rfl, (Option.some.inj found).symm⟩
  · exact .inr ((List.getElem?_set_ne same).symm.trans found)

theorem Linked.strand {event : SendEvent} (linked : live.Linked)
    (taken : machine.step live (.strand session event) = some next) : next.Linked := by
  obtain ⟨queue, after, found, onStrand, moved, rfl⟩ := strand_step taken
  refine ⟨by simpa using linked.length, fun entry member => ?_, ?_, ?_⟩
  · simpa using linked.known entry member
  · intro other there after
    rcases set_cases after with ⟨rfl, rfl⟩ | before
    · exact (linked.queued other queue found).step moved
    · exact linked.queued other there before
  · intro other there after
    rcases set_cases after with ⟨rfl, rfl⟩ | before
    · exact (passed_posted onStrand moved).trans (linked.posts other queue found)
    · exact linked.posts other there before

theorem messagesTo_append (session : Nat) (posted sent : List (Nat × String)) :
    messagesTo session (posted ++ sent) = messagesTo session posted ++ messagesTo session sent := by
  simp [messagesTo]

theorem deliver_getElem? {sent : List (Nat × String)} {queues : List SendQueue} :
    (deliver sent queues)[session]? = queues[session]?.map fun queue =>
      { queue with posted := queue.posted ++ messagesTo session sent } := by
  simp [deliver, List.getElem?_mapIdx]

theorem Linked.delivered {mgr : WSSessionMgr} {sent : List (Nat × String)} (linked : live.Linked)
    (length : mgr.objects.length = live.mgr.objects.length)
    (posted : mgr.posted = live.mgr.posted ++ sent)
    (inside : ∀ entry ∈ sent, entry.1 < live.queues.length) :
    Linked { mgr, queues := deliver sent live.queues } := by
  refine ⟨?_, fun entry member => ?_, fun session queue found => ?_, fun session queue found => ?_⟩
  · simpa [deliver] using linked.length.trans length.symm
  · have same : (deliver sent live.queues).length = live.queues.length := by simp [deliver]
    rw [posted] at member
    rw [same]
    exact (List.mem_append.mp member).elim (linked.known entry) (inside entry)
  · obtain ⟨old, before, rfl⟩ := Option.map_eq_some_iff.mp (deliver_getElem?.symm.trans found)
    have queued := linked.queued session old before
    exact ⟨queued.order, queued.front, queued.outstanding, queued.stuck⟩
  · obtain ⟨old, before, rfl⟩ := Option.map_eq_some_iff.mp (deliver_getElem?.symm.trans found)
    rw [posted, messagesTo_append, ← linked.posts session old before, List.append_assoc]

theorem Linked.connected {mgr : WSSessionMgr} (linked : live.Linked)
    (length : mgr.objects.length = live.mgr.objects.length + 1)
    (posted : mgr.posted = live.mgr.posted) :
    Linked { mgr, queues := live.queues ++ [.init] } := by
  refine ⟨?_, fun entry member => ?_, fun session queue found => ?_, fun session queue found => ?_⟩
  · simpa [linked.length] using length.symm
  · have before := linked.known entry (posted ▸ member)
    simpa using Nat.lt_succ_of_lt before
  · rcases List.mem_append.mp (List.mem_of_getElem? found) with old | new
    · obtain ⟨index, at_⟩ := List.mem_iff_getElem?.mp old
      exact linked.queued index queue at_
    · exact List.mem_singleton.mp new ▸ SendQueue.init_queued
  · rw [posted]
    rcases Nat.lt_or_ge session live.queues.length with old | new
    · exact linked.posts session queue ((List.getElem?_append_left old).symm.trans found)
    · rw [List.getElem?_append_right new] at found
      have fresh := List.mem_singleton.mp (List.mem_of_getElem? found)
      have none : messagesTo session live.mgr.posted = [] := by
        unfold messagesTo
        rw [List.filter_eq_nil_iff.mpr, List.map_nil]
        intro entry member
        have known := linked.known entry member
        simp only [decide_eq_true_eq]
        omega
      rw [fresh, none]
      rfl

theorem Linked.registered {mgr : WSSessionMgr} (linked : live.Linked)
    (length : mgr.objects.length = live.mgr.objects.length)
    (posted : mgr.posted = live.mgr.posted) : Linked
      { mgr, queues := live.queues.modify session fun queue =>
          { queue with handshake := .registered } } := by
  have sameQueue {other : Nat} {queue : SendQueue}
      (found : (live.queues.modify session fun queue =>
        { queue with handshake := .registered })[other]? = some queue) :
      ∃ old, live.queues[other]? = some old ∧
        queue = { old with handshake := queue.handshake } := by
    rw [List.getElem?_modify] at found
    obtain ⟨old, before, rfl⟩ := Option.map_eq_some_iff.mp found
    refine ⟨old, before, ?_⟩
    by_cases same : session = other <;> simp [same]
  refine ⟨?_, fun entry member => ?_, fun other queue found => ?_, fun other queue found => ?_⟩
  · simpa using linked.length.trans length.symm
  · simpa using linked.known entry (posted ▸ member)
  · obtain ⟨old, before, same⟩ := sameQueue found
    have queued := linked.queued other old before
    rw [same]
    exact ⟨queued.order, queued.front, queued.outstanding, queued.stuck⟩
  · obtain ⟨old, before, same⟩ := sameQueue found
    rw [posted, same]
    exact linked.posts other old before

theorem Linked.registry {action : Action} (linked : live.Linked)
    (taken : machine.step live (.registry action) = some next) : next.Linked := by
  obtain ⟨mgr, moved, rfl⟩ := Option.map_eq_some_iff.mp taken
  have moved := WSSessionMgr.steps_of_step moved
  obtain ⟨sent, posted, addressed⟩ := moved.posts
  have inside : ∀ entry ∈ sent, entry.1 < live.queues.length := by
    intro entry member
    obtain ⟨user, found, _⟩ := addressed entry member
    obtain ⟨object, there, _⟩ :=
      WSSessionMgr.alive_iff.mp (WSSessionMgr.liveSession_eq_some_iff.mp found).2
    exact linked.length ▸ (List.getElem?_eq_some_iff.mp there).1
  have delivered (length : mgr.objects.length = live.mgr.objects.length) :
      Linked { mgr, queues := deliver (mgr.posted.drop live.mgr.posted.length) live.queues } := by
    have same : mgr.posted.drop live.mgr.posted.length = sent := by rw [posted, List.drop_left]
    rw [same]
    exact linked.delivered length posted inside
  cases moved with
  | connected indeterminate => exact linked.connected (by simp) rfl
  | accepted session claims object found held =>
    cases claims with
    | none => exact delivered (by simp [WSSessionMgr.doAccept, WSSessionMgr.modifyObject])
    | some user =>
      refine linked.registered ?_ rfl
      simp [WSSessionMgr.doAccept, WSSessionMgr.addSession, WSSessionMgr.modifyObject]
  | copied | reset => exact delivered (by simp [WSSessionMgr.modifyObject])
  | destroyed => exact delivered (by simp [WSSessionMgr.removeSession, WSSessionMgr.modifyObject])
  | wrote user msg => exact delivered (WSSessionMgr.writeTo_keeps user msg live.mgr).length
  | wroteToRoom users msg =>
    exact delivered (WSSessionMgr.writeToRoom_keeps users msg live.mgr).length

theorem Linked.step (linked : live.Linked) {event : SessionEvent}
    (taken : machine.step live event = some next) : next.Linked := by
  cases event with
  | registry action => exact linked.registry taken
  | strand session event => exact linked.strand taken

theorem linked_of_run (ran : machine.run init events = some live) : live.Linked :=
  Machine.invariant ran linked_init fun _ _ _ linked taken => linked.step taken

theorem Linked.posted_of_started {call : WriteCall} (linked : live.Linked)
    (found : live.queues[session]? = some queue) (started : call ∈ queue.started) :
    (session, call.message) ∈ live.mgr.posted := by
  have sent : call.message ∈ messagesTo session live.mgr.posted := by
    rw [← linked.posts session queue found, ← (linked.queued session queue found).order]
    exact List.mem_append_left _ (List.mem_append_left _ (List.mem_map_of_mem started))
  obtain ⟨⟨target, msg⟩, member, rfl⟩ := List.mem_map.mp sent
  obtain ⟨posted, same⟩ := List.mem_filter.mp member
  obtain rfl : target = session := by simpa using same
  exact posted

/-- What the handlers of one session do, they do among all sessions. -/
theorem strand_run {handlers : List SendEvent} {after : SendQueue}
    (found : live.queues[session]? = some queue) (living : live.mgr.alive session = true)
    (onStrand : ∀ event ∈ handlers, event.onStrand = true)
    (ran : SendQueue.machine.run queue handlers = some after) :
    ∃ final, machine.run live (handlers.map (.strand session)) = some final ∧
      final.mgr = live.mgr ∧ final.queues[session]? = some after := by
  induction handlers generalizing live queue with
  | nil =>
    cases ran
    exact ⟨live, rfl, rfl, found⟩
  | cons event rest ih =>
    rw [Machine.run_cons] at ran
    obtain ⟨middle, taken, later⟩ := Option.bind_eq_some_iff.mp ran
    have inside := (List.getElem?_eq_some_iff.mp found).1
    have first : event.onStrand = true := onStrand event List.mem_cons_self
    have moved : machine.step live (.strand session event) =
        some { live with queues := live.queues.set session middle } := by
      have taken : queue.step event = some middle := taken
      simp [machine, step, first, living, found, taken]
    obtain ⟨final, reached, same, there⟩ := @ih { live with queues := live.queues.set session middle }
      middle (by simp [inside]) living
      (fun event member => onStrand event (List.mem_cons_of_mem _ member)) later
    exact ⟨final, by simp [moved, reached], same, there⟩

/-- The user 5 connects and is written to alone and in a room; one message is under way. -/
private def twoMessages : List SessionEvent :=
  [.registry (.connect 7), .registry (.doAccept 0 (some 5)), .strand 0 .asyncAccept,
    .strand 0 (.onAccept false), .registry (.writeTo 5 "a"), .registry (.writeToRoom [6, 5] "b"),
    .strand 0 .onSend]

private def twoMessagesReached : LiveSessions := (machine.run init twoMessages).get (by decide)

private theorem twoMessages_ran : machine.run init twoMessages = some twoMessagesReached :=
  (Option.some_get _).symm

private def twoMessagesQueue : SendQueue := twoMessagesReached.queues.get ⟨0, by decide⟩

private theorem twoMessages_queue :
    twoMessagesReached.queues[0]? = some twoMessagesQueue :=
  List.getElem?_eq_getElem _

/-- At every moment of every interleaving of the calls of the registry and the handlers of
all strands, the messages posted to a session are, each once and in their order, those
handed to `async_write`, those behind it in the queue, and those not yet run by the strand. -/
theorem messages_accounted (ran : machine.run init events = some live)
    (found : live.queues[session]? = some queue) :
    messagesTo session live.mgr.posted =
      queue.started.map WriteCall.message ++ queue.messageQueue.tail ++ queue.posted := by
  have linked := linked_of_run ran
  rw [(linked.queued session queue found).order]
  exact (linked.posts session queue found).symm

theorem messages_accounted_two : messagesTo 0 twoMessagesReached.mgr.posted =
    twoMessagesQueue.started.map WriteCall.message ++ twoMessagesQueue.messageQueue.tail ++
      twoMessagesQueue.posted :=
  messages_accounted twoMessages_ran twoMessages_queue

/-- A message is handed to `async_write` only on the session of a user that some call
addressed it to: the token of its handshake was the user's, and it has no other. -/
theorem messages_to_owner {call : WriteCall} (ran : machine.run init events = some live)
    (found : live.queues[session]? = some queue) (started : call ∈ queue.started) :
    ∃ user, .registry (.doAccept session (some user)) ∈ events ∧
      (∀ claims, .registry (.doAccept session claims) ∈ events → claims = some user) ∧
      ∃ action, .registry action ∈ events ∧ WSSessionMgr.Addresses user call.message action := by
  have traced := WSSessionMgr.traced_of_run (registry_run ran)
  obtain ⟨user, accepted, action, done, addresses⟩ :=
    traced.posted session _ ((linked_of_run ran).posted_of_started found started)
  refine ⟨user, mem_registryActions.mp accepted, fun claims other => ?_, action,
    mem_registryActions.mp done, addresses⟩
  exact traced.once session _ _ (mem_registryActions.mpr other) accepted

theorem messages_to_owner_two :
    ∃ user, .registry (.doAccept 0 (some user)) ∈ twoMessages ∧
      (∀ claims, .registry (.doAccept 0 claims) ∈ twoMessages → claims = some user) ∧
      ∃ action, .registry action ∈ twoMessages ∧ WSSessionMgr.Addresses user "a" action :=
  @messages_to_owner twoMessagesReached 0 twoMessagesQueue twoMessages
    { message := "a", handshake := .succeeded } twoMessages_ran twoMessages_queue (by decide)

/-- Whatever has happened, once the handshake is done and as long as writes succeed, the
strand of a live session can run on its own until every message posted to the session has
been handed to `async_write`, each once and in order. -/
theorem messages_drain (ran : machine.run init events = some live)
    (found : live.queues[session]? = some queue) (living : live.mgr.alive session = true)
    (flowing : queue.Flowing) :
    ∃ (handlers : List SendEvent) (final : LiveSessions) (after : SendQueue),
      machine.run live (handlers.map (.strand session)) = some final ∧
      final.mgr = live.mgr ∧ final.queues[session]? = some after ∧
      after.started.map WriteCall.message = messagesTo session live.mgr.posted := by
  have linked := linked_of_run ran
  obtain ⟨handlers, after, onStrand, drained, queued, empty⟩ :=
    flowing.drains (linked.queued session queue found)
  obtain ⟨final, reached, same, there⟩ := strand_run found living onStrand drained
  refine ⟨handlers, final, after, reached, same, there, ?_⟩
  have whole : machine.run init (events ++ handlers.map (.strand session)) = some final := by
    rw [Machine.run_append, ran]
    exact reached
  have accounted := (linked_of_run whole).posts session after there
  unfold SendQueue.backlog at empty
  have noPosted : after.posted = [] := List.length_eq_zero_iff.mp (by omega)
  have noQueue : after.messageQueue = [] := List.length_eq_zero_iff.mp (by omega)
  rw [← same, ← accounted, ← queued.order, noPosted, noQueue]
  simp

theorem messages_drain_two :
    ∃ (handlers : List SendEvent) (final : LiveSessions) (after : SendQueue),
      machine.run twoMessagesReached (handlers.map (.strand 0)) = some final ∧
      final.mgr = twoMessagesReached.mgr ∧ final.queues[0]? = some after ∧
      after.started.map WriteCall.message = messagesTo 0 twoMessagesReached.mgr.posted :=
  messages_drain twoMessages_ran twoMessages_queue (by decide)
    ⟨by decide, by decide, by decide⟩

end LiveSessions

end TinyChat.Core
