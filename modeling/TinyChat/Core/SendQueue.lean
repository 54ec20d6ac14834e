import TinyChat.Transition.Machine

/-! The write side of a `WebsocketSession`: `auth_user` makes the session reachable for
other threads before its handshake is done, they post `on_send` to its strand, and
`on_send` and `on_write` share the starting of `async_write`. -/
namespace TinyChat.Core

open TinyChat.Transition

/-- How far `do_accept` and its `async_accept` have come. -/
inductive Handshake where
  | absent
  /-- `auth_user` has registered the session; `do_accept` still runs on the strand. -/
  | registered
  | pending
  | succeeded
  | failed
  deriving DecidableEq

/-- A call of `async_write`, with the state of the handshake it was made in. -/
structure WriteCall where
  message : String
  handshake : Handshake
  deriving DecidableEq

structure SendQueue where
  handshake : Handshake
  /-- `ws_.is_open()`: after a successful handshake, while no error has occurred. -/
  isOpen : Bool
  /-- The posted calls of `on_send`, which the strand runs in order. -/
  posted : List String
  messageQueue : List String
  /-- The `async_write`s that have not completed. -/
  writes : List WriteCall
  /-- What `on_send` was called with so far. -/
  passed : List String
  started : List WriteCall
  /-- `on_write` has been called with an error. -/
  writeFailed : Bool
  deriving DecidableEq

inductive SendEvent where
  | authUser
  | asyncAccept
  | onAccept (failed : Bool)
  /-- Another thread calls `send`. -/
  | send (message : String)
  | onSend
  | onWrite (failed : Bool)
  /-- The peer, a timeout or a failed read ends the stream. -/
  | close
  deriving DecidableEq

namespace SendQueue

def init : SendQueue :=
  { handshake := .absent, isOpen := false, posted := [], messageQueue := [], writes := []
    passed := [], started := [], writeFailed := false }

/-- `ws_.async_write` of the front of the queue. -/
def asyncWrite (session : SendQueue) : SendQueue :=
  match session.messageQueue with
  | [] => session
  | message :: _ =>
    { session with
      writes := session.writes ++ [{ message, handshake := session.handshake }]
      started := session.started ++ [{ message, handshake := session.handshake }] }

def onSend (message : String) (session : SendQueue) : SendQueue :=
  let queued := { session with
    messageQueue := session.messageQueue ++ [message], passed := session.passed ++ [message] }
  if queued.messageQueue.length = 1 then queued.asyncWrite else queued

/-- `on_write` without an error. -/
def onWrite (session : SendQueue) : SendQueue :=
  { session with messageQueue := session.messageQueue.tail }.asyncWrite

/-- `on_write` with the error of a call, which ends the stream unless the call was made
before the handshake. -/
def onWriteError (call : WriteCall) (session : SendQueue) : SendQueue :=
  { session with
    writeFailed := true, isOpen := session.isOpen && call.handshake != .succeeded }

def step (session : SendQueue) : SendEvent → Option SendQueue
  | .authUser =>
    if session.handshake = .absent then some { session with handshake := .registered } else none
  | .asyncAccept =>
    if session.handshake = .registered then some { session with handshake := .pending } else none
  | .onAccept failed =>
    if session.handshake = .pending then
      some (if failed then { session with handshake := .failed }
        else { session with handshake := .succeeded, isOpen := true })
    else none
  | .send message =>
    if session.handshake = .absent then none
    else some { session with posted := session.posted ++ [message] }
  | .onSend =>
    if session.handshake = .absent ∨ session.handshake = .registered then none
    else match session.posted with
      | [] => none
      | message :: rest => some ({ session with posted := rest }.onSend message)
  | .onWrite failed =>
    match session.writes with
    | [] => none
    | call :: rest =>
      let completed := { session with writes := rest }
      if failed then some (completed.onWriteError call)
      -- Before the handshake there is no write that succeeds.
      else if call.handshake = .succeeded then some completed.onWrite
      else none
  | .close => some { session with isOpen := false }

def machine : Machine SendQueue SendEvent := ⟨step⟩

variable {session next : SendQueue} {message : String} {event : SendEvent}

/-- Everything a step can do. -/
inductive Steps (session : SendQueue) : SendEvent → SendQueue → Prop where
  | registered (now : session.handshake = .absent) :
      Steps session .authUser { session with handshake := .registered }
  | accepting (now : session.handshake = .registered) :
      Steps session .asyncAccept { session with handshake := .pending }
  | accepted (now : session.handshake = .pending) :
      Steps session (.onAccept false) { session with handshake := .succeeded, isOpen := true }
  | refused (now : session.handshake = .pending) :
      Steps session (.onAccept true) { session with handshake := .failed }
  | posted (message : String) :
      Steps session (.send message) { session with posted := session.posted ++ [message] }
  | passed (message : String) (rest : List String) (waiting : session.posted = message :: rest) :
      Steps session .onSend ({ session with posted := rest }.onSend message)
  | written (call : WriteCall) (rest : List WriteCall) (under : session.writes = call :: rest)
      (date : call.handshake = .succeeded) :
      Steps session (.onWrite false) { session with writes := rest }.onWrite
  | writeFailed (call : WriteCall) (rest : List WriteCall) (under : session.writes = call :: rest) :
      Steps session (.onWrite true) ({ session with writes := rest }.onWriteError call)
  | closed : Steps session .close { session with isOpen := false }

theorem steps_of_step (taken : machine.step session event = some next) : Steps session event next := by
  cases event with
  | authUser =>
    simp only [machine, step] at taken
    split at taken <;> cases taken
    exact .registered ‹_›
  | asyncAccept =>
    simp only [machine, step] at taken
    split at taken <;> cases taken
    exact .accepting ‹_›
  | onAccept failed =>
    simp only [machine, step] at taken
    split at taken <;> cases taken
    cases failed with
    | false => exact .accepted ‹_›
    | true => exact .refused ‹_›
  | send message =>
    simp only [machine, step] at taken
    split at taken <;> cases taken
    exact .posted message
  | onSend =>
    simp only [machine, step] at taken
    split at taken
    · cases taken
    · split at taken <;> cases taken
      exact .passed _ _ ‹_›
  | onWrite failed =>
    simp only [machine, step] at taken
    split at taken
    · cases taken
    · cases failed with
      | true =>
        cases taken
        exact .writeFailed _ _ ‹_›
      | false =>
        simp only [Bool.false_eq_true, if_false] at taken
        split at taken <;> cases taken
        exact .written _ _ ‹_› ‹_›
  | close =>
    cases taken
    exact .closed

/-- What the queue, the outstanding writes and the two histories are to each other,
whatever the handshake is doing. -/
structure Queued (session : SendQueue) : Prop where
  /-- The front stays in the queue while it is written. -/
  order : session.started.map WriteCall.message ++ session.messageQueue.tail = session.passed
  front : session.writes = [] ∨
    ∃ call, session.writes = [call] ∧ session.messageQueue.head? = some call.message
  outstanding : session.writeFailed = false → (session.messageQueue ≠ [] ↔ session.writes ≠ [])
  stuck : session.writeFailed = true → session.messageQueue ≠ [] ∧ session.writes = []

theorem init_queued : init.Queued := by
  constructor <;> simp [init]

theorem onSend_of_empty (empty : session.messageQueue = []) : session.onSend message =
    { session with messageQueue := [message], passed := session.passed ++ [message] }.asyncWrite := by
  simp [onSend, empty]

theorem onSend_of_waiting (waiting : session.messageQueue ≠ []) : session.onSend message =
    { session with
      messageQueue := session.messageQueue ++ [message], passed := session.passed ++ [message] } := by
  simp [onSend, waiting]

theorem onSend_queued (queued : session.Queued) : (session.onSend message).Queued := by
  obtain ⟨order, front, outstanding, stuck⟩ := queued
  by_cases empty : session.messageQueue = []
  · have idle : session.writes = [] := by
      rcases front with none | ⟨call, one, first⟩
      · exact none
      · simp [empty] at first
    have fine : session.writeFailed = false := by
      by_contra failed
      exact (stuck (by simpa using failed)).1 empty
    have all : session.started.map WriteCall.message = session.passed := by
      simpa [empty] using order
    rw [onSend_of_empty empty]
    constructor <;> simp [asyncWrite, idle, fine, all]
  · rw [onSend_of_waiting empty]
    refine ⟨?_, ?_, ?_, ?_⟩
    · rw [← order, List.append_assoc, List.tail_append_of_ne_nil empty]
    · refine front.imp_right fun ⟨call, one, first⟩ => ⟨call, one, ?_⟩
      rw [List.head?_append, first]
      rfl
    · simpa [empty] using outstanding
    · simpa [empty] using stuck

/-- Only the front is ever under way, and not while a failed write is stuck. -/
theorem Queued.alone {call : WriteCall} {rest : List WriteCall} (queued : session.Queued)
    (under : session.writes = call :: rest) :
    rest = [] ∧ session.messageQueue.head? = some call.message ∧ session.writeFailed = false := by
  obtain ⟨only, one, first⟩ : ∃ only, session.writes = [only] ∧
      session.messageQueue.head? = some only.message := by
    rcases queued.front with none | found
    · rw [none] at under
      cases under
    · exact found
  rw [one] at under
  obtain ⟨rfl, rfl⟩ := List.cons.inj under
  refine ⟨rfl, first, ?_⟩
  by_contra failed
  rw [(queued.stuck (by simpa using failed)).2] at one
  cases one

theorem onWrite_queued {call : WriteCall} {rest : List WriteCall} (queued : session.Queued)
    (under : session.writes = call :: rest) :
    ({ session with writes := rest }.onWrite).Queued := by
  obtain ⟨rfl, -, fine⟩ := queued.alone under
  have order := queued.order
  cases later : session.messageQueue.tail with
  | nil =>
    rw [later, List.append_nil] at order
    constructor <;> simp [onWrite, asyncWrite, later, fine, order]
  | cons second more =>
    rw [later] at order
    constructor <;> simp [onWrite, asyncWrite, later, fine, order]

theorem onWriteError_queued {call : WriteCall} {rest : List WriteCall} (queued : session.Queued)
    (under : session.writes = call :: rest) :
    ({ session with writes := rest }.onWriteError call).Queued := by
  obtain ⟨last, first, -⟩ := queued.alone under
  have waiting : session.messageQueue ≠ [] := fun empty => by simp [empty] at first
  exact ⟨queued.order, .inl last, fun fine => Bool.noConfusion fine, fun _ => ⟨waiting, last⟩⟩

theorem Queued.step (queued : session.Queued) (taken : machine.step session event = some next) :
    next.Queued := by
  have same : ∀ rest, ({ session with posted := rest } : SendQueue).Queued := fun _ =>
    ⟨queued.order, queued.front, queued.outstanding, queued.stuck⟩
  cases steps_of_step taken with
  | registered | accepting | accepted | refused | posted | closed =>
    exact ⟨queued.order, queued.front, queued.outstanding, queued.stuck⟩
  | passed message rest waiting => exact onSend_queued (same rest)
  | written call rest under date => exact onWrite_queued queued under
  | writeFailed call rest under => exact onWriteError_queued queued under

variable {events : List SendEvent}

theorem queued_of_run (ran : machine.run init events = some session) : session.Queued :=
  Machine.invariant ran init_queued fun _ _ _ queued taken => queued.step taken

/-- Once a write has failed no step starts another. -/
theorem started_of_writeFailed (queued : session.Queued) (failed : session.writeFailed = true)
    (taken : machine.step session event = some next) :
    next.writeFailed = true ∧ next.started = session.started := by
  obtain ⟨waiting, idle⟩ := queued.stuck failed
  cases steps_of_step taken with
  | registered | accepting | accepted | refused | posted | closed => exact ⟨failed, rfl⟩
  | passed message rest =>
    rw [@onSend_of_waiting { session with posted := rest } message waiting]
    exact ⟨failed, rfl⟩
  | written call rest under | writeFailed call rest under =>
    rw [idle] at under
    cases under

/-- In every state of every interleaving of `on_send`, `on_write` and whatever else the
strand runs: at most one write is outstanding, and it writes the front of the queue; what
was handed to `async_write` is a prefix of what was passed to `on_send`; while no write
has failed the queue is non-empty exactly when a write is outstanding; and after a
failed write no other is ever started. -/
theorem send_queue_fifo (ran : machine.run init events = some session) :
    (session.writes = [] ∨
      ∃ call, session.writes = [call] ∧ session.messageQueue.head? = some call.message) ∧
    session.started.map WriteCall.message <+: session.passed ∧
    (session.writeFailed = false → (session.messageQueue ≠ [] ↔ session.writes ≠ [])) ∧
    (session.writeFailed = true → ∀ rest later, machine.run session rest = some later →
      later.started = session.started) := by
  have queued := queued_of_run ran
  refine ⟨queued.front, ⟨session.messageQueue.tail, queued.order⟩, queued.outstanding, ?_⟩
  intro failed rest later ahead
  refine (Machine.invariant (motive := fun state => state.Queued ∧ state.writeFailed = true ∧
    state.started = session.started) ahead ⟨queued, failed, rfl⟩ ?_).2.2
  rintro state event after ⟨held, broken, same⟩ taken
  obtain ⟨still, unchanged⟩ := started_of_writeFailed held broken taken
  exact ⟨held.step taken, still, unchanged.trans same⟩

/-- A handshake, and three messages of which the write of the second fails. -/
private def threeMessages : List SendEvent :=
  [.authUser, .asyncAccept, .onAccept false, .send "a", .send "b", .onSend, .onSend,
    .onWrite false, .onWrite true, .send "c", .onSend]

/-- The third message stays behind the second. -/
theorem send_queue_fifo_three : ∃ session, machine.run init threeMessages = some session ∧
    (session.writes = [] ∨
      ∃ call, session.writes = [call] ∧ session.messageQueue.head? = some call.message) ∧
    session.started.map WriteCall.message <+: session.passed ∧
    (session.writeFailed = false → (session.messageQueue ≠ [] ↔ session.writes ≠ [])) ∧
    (session.writeFailed = true → ∀ rest later, machine.run session rest = some later →
      later.started = session.started) := by
  have ran := (@Option.some_get _ (machine.run init threeMessages) (by decide)).symm
  exact ⟨_, ran, send_queue_fifo ran⟩

/-- Every write was started after the handshake, and no message is left behind while the
stream is open. -/
def Served (_ : List SendEvent) (session : SendQueue) : Prop :=
  (∀ call ∈ session.started, call.handshake = .succeeded) ∧
  (session.handshake = .succeeded → session.isOpen = true → session.messageQueue ≠ [] →
    session.writes ≠ [])

/-- The strand runs no posted `on_send` before `on_accept` has been called without error. -/
def AfterHandshake (_ : List SendEvent) (session : SendQueue) (event : SendEvent) : Prop :=
  event = .onSend → session.handshake = .succeeded

/-- What the writes started so far tell of the handshake. -/
structure Dated (session : SendQueue) : Prop where
  first : session.messageQueue ≠ [] → session.started ≠ []
  outstanding : ∀ call ∈ session.writes, call ∈ session.started
  since : ∀ call ∈ session.started, call.handshake = .succeeded → session.handshake = .succeeded

theorem asyncWrite_dated (outstanding : ∀ call ∈ session.writes, call ∈ session.started)
    (since : ∀ call ∈ session.started, call.handshake = .succeeded → session.handshake = .succeeded) :
    session.asyncWrite.Dated := by
  unfold asyncWrite
  split
  · rename_i empty
    exact ⟨fun waiting => absurd empty waiting, outstanding, since⟩
  · refine ⟨fun _ => by simp, fun call member => ?_, fun call member date => ?_⟩
    · simp only [List.mem_append] at member ⊢
      exact member.imp_left (outstanding call)
    · rcases List.mem_append.mp member with old | new
      · exact since call old date
      · rwa [List.mem_singleton.mp new] at date

theorem onSend_dated (dated : session.Dated) : (session.onSend message).Dated := by
  obtain ⟨first, outstanding, since⟩ := dated
  by_cases empty : session.messageQueue = []
  · rw [onSend_of_empty empty]
    exact asyncWrite_dated outstanding since
  · rw [onSend_of_waiting empty]
    exact ⟨fun _ => first empty, outstanding, since⟩

theorem Dated.step (dated : session.Dated) (taken : machine.step session event = some next) :
    next.Dated := by
  obtain ⟨first, outstanding, since⟩ := dated
  have others {rest : List WriteCall} {call : WriteCall} (under : session.writes = call :: rest) :
      ∀ other ∈ rest, other ∈ session.started := fun other member =>
    outstanding other (by simp [under, member])
  cases steps_of_step taken with
  | registered now | accepting now | refused now =>
    exact ⟨first, outstanding, fun call member date => by simp [since call member date] at now⟩
  | accepted => exact ⟨first, outstanding, fun _ _ _ => rfl⟩
  | posted | closed => exact ⟨first, outstanding, since⟩
  | passed => exact onSend_dated ⟨first, outstanding, since⟩
  | written call rest under date => exact asyncWrite_dated (others under) since
  | writeFailed call rest under => exact ⟨first, others under, since⟩

theorem dated_of_run (ran : machine.run init events = some session) : session.Dated :=
  Machine.invariant ran (by constructor <;> simp [init]) fun _ _ _ dated taken => dated.step taken

/-- No message is left behind exactly if failed writes have ended the stream. -/
theorem served_iff {past : List SendEvent} (queued : session.Queued) (dated : session.Dated) :
    Served past session ↔ (∀ call ∈ session.started, call.handshake = .succeeded) ∧
      (session.writeFailed = true → session.isOpen = false) := by
  refine and_congr_right fun calls => ⟨fun served failed => ?_, fun ended _ alive waiting => ?_⟩
  · obtain ⟨waiting, idle⟩ := queued.stuck failed
    obtain ⟨call, member⟩ := List.exists_mem_of_ne_nil _ (dated.first waiting)
    by_contra alive
    exact served (dated.since call member (calls call member)) (by simpa using alive) waiting idle
  · by_cases failed : session.writeFailed = true
    · rw [ended failed] at alive
      cases alive
    · exact (queued.outstanding (by simpa using failed)).mp waiting

/-- While all writes were started after the handshake, there is nothing in the queue
before it. -/
theorem empty_of_no_handshake (dated : session.Dated)
    (calls : ∀ call ∈ session.started, call.handshake = .succeeded)
    (before : session.handshake ≠ .succeeded) : session.messageQueue = [] := by
  by_contra waiting
  obtain ⟨call, member⟩ := List.exists_mem_of_ne_nil _ (dated.first waiting)
  exact before (dated.since call member (calls call member))

theorem asyncWrite_started (done : session.handshake = .succeeded)
    (calls : ∀ call ∈ session.started, call.handshake = .succeeded) :
    ∀ call ∈ session.asyncWrite.started, call.handshake = .succeeded := by
  unfold asyncWrite
  split
  · exact calls
  · intro call member
    rcases List.mem_append.mp member with old | new
    · exact calls call old
    · rw [List.mem_singleton.mp new]
      exact done

theorem asyncWrite_ended (ended : session.writeFailed = true → session.isOpen = false) :
    session.asyncWrite.writeFailed = true → session.asyncWrite.isOpen = false := by
  unfold asyncWrite
  split <;> exact ended

theorem onSend_ended (ended : session.writeFailed = true → session.isOpen = false) :
    (session.onSend message).writeFailed = true → (session.onSend message).isOpen = false := by
  by_cases empty : session.messageQueue = []
  · rw [onSend_of_empty empty]
    exact asyncWrite_ended ended
  · rw [onSend_of_waiting empty]
    exact ended

theorem onSend_started_iff (dated : session.Dated)
    (calls : ∀ call ∈ session.started, call.handshake = .succeeded) :
    (∀ call ∈ (session.onSend message).started, call.handshake = .succeeded) ↔
      session.handshake = .succeeded := by
  constructor
  · intro all
    by_contra before
    have empty := empty_of_no_handshake dated calls before
    rw [onSend_of_empty empty] at all
    exact before (all { message, handshake := session.handshake } (by simp [asyncWrite]))
  · intro done
    by_cases empty : session.messageQueue = []
    · rw [onSend_of_empty empty]
      exact asyncWrite_started done calls
    · rw [onSend_of_waiting empty]
      exact calls

/-- A step leaves every message served exactly if it is no early `on_send`. -/
theorem served_step_iff {past : List SendEvent} (ran : machine.run init past = some session)
    (served : Served past session) (taken : machine.step session event = some next) :
    Served (past ++ [event]) next ↔ AfterHandshake past session event := by
  have queued := queued_of_run ran
  have dated := dated_of_run ran
  rw [served_iff (queued.step taken) (dated.step taken)]
  obtain ⟨calls, ended⟩ := (served_iff queued dated).mp served
  cases steps_of_step taken with
  | registered | accepting | refused | posted => exact iff_of_true ⟨calls, ended⟩ nofun
  | accepted now =>
    -- Nothing was started before, so nothing has failed.
    have empty := empty_of_no_handshake dated calls (by simp [now])
    exact iff_of_true ⟨calls, fun broken => absurd empty (queued.stuck broken).1⟩ nofun
  | passed message rest waiting =>
    have before : Dated { session with posted := rest } :=
      ⟨dated.first, dated.outstanding, dated.since⟩
    have early : AfterHandshake past session .onSend ↔ session.handshake = .succeeded :=
      ⟨fun after => after rfl, fun done _ => done⟩
    have kept := @onSend_ended { session with posted := rest } message ended
    rw [early, and_iff_left kept]
    exact onSend_started_iff before calls
  | written call rest under date =>
    have done := dated.since call (dated.outstanding call (by simp [under])) date
    exact iff_of_true ⟨asyncWrite_started done calls, asyncWrite_ended ended⟩ nofun
  | writeFailed call rest under =>
    have date := calls call (dated.outstanding call (by simp [under]))
    exact iff_of_true ⟨calls, fun _ => by simp [onWriteError, date]⟩ nofun
  | closed => exact iff_of_true ⟨calls, fun _ => rfl⟩ nofun

/-- In every interleaving of `do_accept`, the handshake, sends of other threads and write
completions: in every state, no write was started before `on_accept` was called without
error and no message waits in an open stream without an outstanding write, exactly if the
strand runs no posted `on_send` before that call. -/
theorem served_throughout_iff (ran : machine.run init events = some session) :
    machine.Throughout Served init events ↔ machine.Allowed AfterHandshake init events :=
  Machine.throughout_iff_allowed ran ⟨by simp [init], by simp [init]⟩
    fun _ _ _ _ before served taken => served_step_iff before served taken

/-- A message is posted to the session and `on_send` runs before the handshake is done; the
write fails, and the message after it waits in an open stream for ever. -/
private def earlySend : List SendEvent :=
  [.authUser, .asyncAccept, .send "a", .onSend, .onAccept false, .onWrite true, .send "b", .onSend]

/-- Both halves fail: an early write, and then a mute session. -/
theorem early_send_mute : ¬ ∀ (events : List SendEvent) (session : SendQueue),
    machine.run init events = some session → machine.Throughout Served init events := by
  intro claimed
  have ran := (@Option.some_get _ (machine.run init earlySend) (by decide)).symm
  obtain ⟨_, heard⟩ := claimed earlySend _ ran earlySend [] _ (by simp) ran
  exact heard (by decide) (by decide) (by decide) (by decide)

/-- A message that is posted during the handshake but runs after it. -/
theorem served_throughout_late :
    machine.Throughout Served init [.authUser, .asyncAccept, .send "a", .onAccept false, .onSend] ↔
      machine.Allowed AfterHandshake init
        [.authUser, .asyncAccept, .send "a", .onAccept false, .onSend] :=
  served_throughout_iff (@Option.some_get _ (machine.run init _) (by decide)).symm

end SendQueue

end TinyChat.Core
