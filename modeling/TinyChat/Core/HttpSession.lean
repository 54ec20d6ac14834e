import TinyChat.Transition.Machine

/-! `HttpSession` of `core/http_session.cpp`: the callbacks of one connection, which run
one at a time on its strand, and the asynchronous operations they leave pending. -/
namespace TinyChat.Core

open TinyChat.Transition

/-- A response and the number of the request it answers, counted from the first read. -/
structure QueuedResponse where
  request : Nat
  keepAlive : Bool
  deriving DecidableEq

structure HttpSession where
  inflightRequests : Nat
  responseQueue : List QueuedResponse
  /-- The `async_read`s that have not completed. -/
  reads : Nat
  /-- The requests with the thread pool. -/
  tasks : List Nat
  /-- The posted calls of `queue_write`, which the strand runs in order. -/
  posted : List QueuedResponse
  /-- The `async_write`s that have not completed. -/
  writes : List QueuedResponse
  /-- The requests read so far. -/
  received : Nat
  /-- What `async_write` was started with so far. -/
  started : List QueuedResponse
  /-- `do_close` has shut the connection down. -/
  closed : Bool
  /-- The socket has gone to a `WebsocketSession`. -/
  upgraded : Bool
  deriving DecidableEq

/-- How an `async_read` completes. -/
inductive ReadResult where
  | request
  | upgrade
  | endOfStream
  | failed
  deriving DecidableEq

inductive HttpEvent where
  | onRead (result : ReadResult)
  /-- A worker is done with the task at the place and posts its response. -/
  | respond (place : Nat) (keepAlive : Bool)
  /-- The strand runs the next posted `queue_write`. -/
  | queueWrite
  /-- The oldest `async_write` completes. -/
  | onWrite (failed : Bool)
  deriving DecidableEq

namespace HttpSession

def doRead (limit : Nat) (session : HttpSession) : HttpSession :=
  if session.inflightRequests ≥ limit then session else { session with reads := session.reads + 1 }

/-- After `run()` has called `do_read`. -/
def init (limit : Nat) : HttpSession :=
  doRead limit
    { inflightRequests := 0, responseQueue := [], reads := 0, tasks := [], posted := []
      writes := [], received := 0, started := [], closed := false, upgraded := false }

def doClose (session : HttpSession) : HttpSession := { session with closed := true }

def onRead (session : HttpSession) : ReadResult → HttpSession
  | .endOfStream => session.doClose
  | .failed => session
  | .upgrade => { session with upgraded := true }
  | .request =>
    { session with
      inflightRequests := session.inflightRequests + 1
      tasks := session.tasks ++ [session.received]
      received := session.received + 1 }

def doWrite (session : HttpSession) : HttpSession :=
  match session.responseQueue with
  | [] => session
  | response :: _ =>
    { session with
      writes := session.writes ++ [response]
      started := session.started ++ [response] }

def queueWrite (response : QueuedResponse) (session : HttpSession) : HttpSession :=
  let queued := { session with responseQueue := session.responseQueue ++ [response] }
  if queued.responseQueue.length = 1 then queued.doWrite else queued

/-- `on_write` without an error; `keepAlive` is bound to the handler. -/
def onWrite (limit : Nat) (keepAlive : Bool) (session : HttpSession) : HttpSession :=
  if !keepAlive then session.doClose
  else
    let counted := { session with inflightRequests := session.inflightRequests - 1 }
    let resumed := if counted.responseQueue.length = limit then counted.doRead limit else counted
    { resumed with responseQueue := resumed.responseQueue.tail }.doWrite

def step (limit : Nat) (session : HttpSession) : HttpEvent → Option HttpSession
  | .onRead result =>
    if 0 < session.reads then some ({ session with reads := session.reads - 1 }.onRead result)
    else none
  | .respond place keepAlive =>
    session.tasks[place]?.map fun request =>
      { session with
        tasks := session.tasks.eraseIdx place
        posted := session.posted ++ [{ request, keepAlive }] }
  | .queueWrite =>
    match session.posted with
    | [] => none
    | response :: rest => some ({ session with posted := rest }.queueWrite response)
  | .onWrite failed =>
    match session.writes with
    | [] => none
    | response :: rest =>
      let completed := { session with writes := rest }
      some (if failed then completed else completed.onWrite limit response.keepAlive)

def machine (limit : Nat) : Machine HttpSession HttpEvent := ⟨step limit⟩

/-- What can still call the session back. -/
def pending (session : HttpSession) : Nat :=
  session.reads + session.tasks.length + session.posted.length + session.writes.length

end HttpSession

/-- The event is no error, no upgrade and no end of the connection. -/
def HttpEvent.Calm : HttpEvent → Prop
  | .onRead result => result = .request
  | .respond _ keepAlive => keepAlive = true
  | .queueWrite => True
  | .onWrite failed => failed = false

instance : DecidablePred HttpEvent.Calm := fun event => by
  cases event <;> unfold HttpEvent.Calm <;> infer_instance

namespace HttpSession

/-- The runs in which every response is keep-alive and no operation fails. -/
def calm (limit : Nat) : Machine HttpSession HttpEvent := (machine limit).restrict HttpEvent.Calm

/-- One request at a time is somewhere between its read and its write. -/
structure Single (session : HttpSession) : Prop where
  one : session.pending = 1
  inflight : session.inflightRequests + session.reads = 1
  queued : session.responseQueue = session.writes
  keeps : ∀ response ∈ session.posted ++ session.writes, response.keepAlive = true

variable {limit : Nat} {session next : HttpSession} {event : HttpEvent}

theorem init_single (positive : 0 < limit) : (init limit).Single := by
  have reads : ¬ 0 ≥ limit := by omega
  constructor <;> simp [init, doRead, reads, pending]

theorem onRead_single (single : session.Single)
    (taken : (machine limit).step session (.onRead .request) = some next) : next.Single := by
  obtain ⟨one, inflight, queued, keeps⟩ := single
  simp only [machine, step, Option.ite_none_right_eq_some, Option.some.injEq] at taken
  obtain ⟨reading, rfl⟩ := taken
  simp only [pending] at one
  refine ⟨?_, ?_, queued, keeps⟩
  · simp only [pending, onRead, List.length_append, List.length_singleton]
    omega
  · simp only [onRead]
    omega

theorem respond_single {place : Nat} (single : session.Single)
    (taken : (machine limit).step session (.respond place true) = some next) : next.Single := by
  obtain ⟨one, inflight, queued, keeps⟩ := single
  obtain ⟨request, found, rfl⟩ := Option.map_eq_some_iff.mp taken
  have inside : place < session.tasks.length := (List.getElem?_eq_some_iff.mp found).1
  simp only [pending] at one
  refine ⟨?_, inflight, queued, ?_⟩
  · simp only [pending, List.length_eraseIdx, List.length_append, List.length_singleton, inside,
      if_true]
    omega
  · intro response member
    simp only [List.mem_append, List.mem_singleton] at member keeps
    rcases member with (old | rfl) | writing
    · exact keeps response (.inl old)
    · rfl
    · exact keeps response (.inr writing)

theorem queueWrite_single (single : session.Single)
    (taken : (machine limit).step session .queueWrite = some next) : next.Single := by
  obtain ⟨one, inflight, queued, keeps⟩ := single
  cases waiting : session.posted with
  | nil => simp [machine, step, waiting] at taken
  | cons response rest =>
    simp only [pending, waiting, List.length_cons] at one
    have idle : session.writes = [] := List.eq_nil_of_length_eq_zero (by omega)
    have last : rest = [] := List.eq_nil_of_length_eq_zero (by omega)
    have keep : response.keepAlive = true := keeps response (by simp [waiting])
    subst last
    simp only [machine, step, waiting, Option.some.injEq, queueWrite, queued, idle, List.nil_append,
      List.length_singleton, if_true, doWrite] at taken
    subst taken
    refine ⟨?_, inflight, rfl, ?_⟩
    · simp only [pending, List.length_singleton, List.length_nil]
      omega
    · simpa using keep

theorem onWrite_single (single : session.Single)
    (taken : (machine limit).step session (.onWrite false) = some next) :
    if limit = 1 then next.Single else next.pending = 0 := by
  obtain ⟨one, inflight, queued, keeps⟩ := single
  cases writing : session.writes with
  | nil => simp [machine, step, writing] at taken
  | cons response rest =>
    simp only [pending, writing, List.length_cons] at one
    have last : rest = [] := List.eq_nil_of_length_eq_zero (by omega)
    have keep : response.keepAlive = true := keeps response (by simp [writing])
    have idle : session.reads = 0 ∧ session.tasks = [] ∧ session.posted = [] :=
      ⟨by omega, List.eq_nil_of_length_eq_zero (by omega), List.eq_nil_of_length_eq_zero (by omega)⟩
    obtain ⟨noReads, noTasks, noPosts⟩ := idle
    have counted : session.inflightRequests = 1 := by omega
    subst last
    simp only [machine, step, writing, Option.some.injEq, onWrite, queued, keep, doRead, doWrite,
      counted, noReads] at taken
    subst taken
    split
    · rename_i single
      subst single
      constructor <;> simp [pending, noTasks, noPosts]
    · rename_i several
      have other : ¬ 1 = limit := fun same => several same.symm
      simp [pending, noTasks, noPosts, other]

/-- A calm step passes the one request on, until its write completes; then only the
limit one starts the next read. -/
theorem calm_step_single (single : session.Single)
    (taken : (calm limit).step session event = some next) :
    if event = .onWrite false ∧ limit ≠ 1 then next.pending = 0 else next.Single := by
  obtain ⟨quiet, taken⟩ := Machine.restrict_step_iff.mp taken
  cases event with
  | onRead result =>
    cases quiet
    exact onRead_single single taken
  | respond place keepAlive =>
    cases quiet
    exact respond_single single taken
  | queueWrite => exact queueWrite_single single taken
  | onWrite failed =>
    cases quiet
    have after := onWrite_single single taken
    by_cases one : limit = 1
    · simpa [one] using after
    · simpa [one] using after

theorem no_step_of_pending_eq_zero (dead : session.pending = 0) :
    (machine limit).step session event = none := by
  simp only [pending, Nat.add_eq_zero_iff, List.length_eq_zero_iff] at dead
  obtain ⟨⟨⟨noReads, noTasks⟩, noPosts⟩, noWrites⟩ := dead
  cases event <;> simp [machine, step, noReads, noTasks, noPosts, noWrites]

theorem single_or_dead (positive : 0 < limit) {events : List HttpEvent}
    (ran : (calm limit).run (init limit) events = some session) :
    session.Single ∨ session.pending = 0 := by
  refine Machine.invariant (motive := fun session => session.Single ∨ session.pending = 0) ran
    (.inl (init_single positive)) ?_
  intro state event after held taken
  rcases held with single | dead
  · have stepped := calm_step_single single taken
    split at stepped
    · exact .inr stepped
    · exact .inl stepped
  · have stepped := (Machine.restrict_step_iff.mp taken).2
    rw [no_step_of_pending_eq_zero dead] at stepped
    cases stepped

theorem pending_pos_iff_single (positive : 0 < limit) {events : List HttpEvent}
    (ran : (calm limit).run (init limit) events = some session) :
    0 < session.pending ↔ session.Single := by
  constructor
  · intro alive
    rcases single_or_dead positive ran with single | dead
    · exact single
    · omega
  · intro single
    rw [single.one]
    exact Nat.one_pos

/-- Along a run without errors, something is always pending for the session exactly if
no response is ever completely written, or the limit is one: `on_write` starts the
next read only when the queue is as long as the limit, and it never gets longer than
one response. -/
theorem keep_alive_live_iff (positive : 0 < limit) {events : List HttpEvent}
    (ran : (calm limit).run (init limit) events = some session) :
    (calm limit).Throughout (fun _ state => 0 < state.pending) (init limit) events ↔
      (calm limit).Allowed (fun _ _ event => event = .onWrite false → limit = 1)
        (init limit) events := by
  rw [Machine.throughout_congr fun past state reached => pending_pos_iff_single positive reached]
  refine Machine.throughout_iff_allowed ran (init_single positive) ?_
  intro past state event after _ single taken
  have stepped := calm_step_single single taken
  by_cases dies : event = .onWrite false ∧ limit ≠ 1
  · rw [if_pos dies] at stepped
    refine iff_of_false (fun alive => ?_) fun fine => dies.2 (fine dies.1)
    have one := alive.one
    omega
  · rw [if_neg dies] at stepped
    exact iff_of_true stepped fun wrote => not_not.mp fun several => dies ⟨wrote, several⟩

/-- The first response of a connection. -/
private def exchange : List HttpEvent :=
  [.onRead .request, .respond 0 true, .queueWrite, .onWrite false]

/-- With room for one request the connection goes on. -/
theorem keep_alive_live_one :
    (calm 1).Throughout (fun _ state => 0 < state.pending) (init 1) (exchange ++ exchange) :=
  (keep_alive_live_iff Nat.one_pos
    (@Option.some_get _ ((calm 1).run (init 1) (exchange ++ exchange)) (by decide)).symm).mpr fun _ _ _ _ _ _ _ => rfl

/-- With room for two, the session is dead after its first response. -/
theorem keep_alive_dead_two :
    ¬ ∀ limit : Nat, 0 < limit → ∀ events session,
      (calm limit).run (init limit) events = some session →
      (calm limit).Throughout (fun _ state => 0 < state.pending) (init limit) events := by
  intro claimed
  have ran : (calm 2).run (init 2) exchange = some (((calm 2).run (init 2) exchange).get (by decide)) :=
    (Option.some_get _).symm
  have alive := claimed 2 Nat.two_pos exchange _ ran exchange [] _ (by simp) ran
  exact absurd alive (by decide)

/-- One request at a time is between its read and its write, errors and closed
connections included, and the responses go out in the order of the requests. -/
structure Disciplined (session : HttpSession) : Prop where
  one : session.pending ≤ 1
  inflight : session.inflightRequests + session.reads ≤ 1
  held : session.tasks.length + session.posted.length + session.responseQueue.length ≤
    session.inflightRequests
  writing : session.writes.length ≤ session.responseQueue.length
  order : (session.started ++ session.posted).map QueuedResponse.request ++ session.tasks =
    List.range session.received

theorem init_disciplined (positive : 0 < limit) : (init limit).Disciplined := by
  have reads : ¬ 0 ≥ limit := by omega
  constructor <;> simp [init, doRead, reads, pending]

theorem onRead_disciplined {result : ReadResult} (disciplined : session.Disciplined)
    (taken : (machine limit).step session (.onRead result) = some next) : next.Disciplined := by
  obtain ⟨one, inflight, held, writing, order⟩ := disciplined
  simp only [machine, step, Option.ite_none_right_eq_some, Option.some.injEq] at taken
  obtain ⟨reading, rfl⟩ := taken
  simp only [pending] at one
  have rest : Disciplined { session with reads := session.reads - 1 } := by
    refine ⟨?_, ?_, held, writing, order⟩
    · simp only [pending]
      omega
    · simp only
      omega
  cases result with
  | request =>
    refine ⟨?_, ?_, ?_, writing, ?_⟩
    · simp only [pending, onRead, List.length_append, List.length_singleton]
      omega
    · simp only [onRead]
      omega
    · simp only [onRead, List.length_append, List.length_singleton]
      omega
    · simp only [onRead]
      rw [← List.append_assoc, order, List.range_succ]
  | upgrade | endOfStream | failed => exact ⟨rest.one, rest.inflight, held, writing, order⟩

theorem respond_disciplined {place : Nat} {keepAlive : Bool} (disciplined : session.Disciplined)
    (taken : (machine limit).step session (.respond place keepAlive) = some next) :
    next.Disciplined := by
  obtain ⟨one, inflight, held, writing, order⟩ := disciplined
  obtain ⟨request, found, rfl⟩ := Option.map_eq_some_iff.mp taken
  have inside : place < session.tasks.length := (List.getElem?_eq_some_iff.mp found).1
  simp only [pending] at one
  -- The task is the only thing pending.
  have only : session.tasks = [request] ∧ place = 0 := by
    match tasks : session.tasks with
    | [] => simp [tasks] at inside
    | [task] =>
      have first : place = 0 := by simpa [tasks] using inside
      subst first
      exact ⟨by simpa [tasks] using found, rfl⟩
    | _ :: _ :: _ =>
      simp only [tasks, List.length_cons] at one
      omega
  obtain ⟨tasks, rfl⟩ := only
  have idle : session.posted = [] := List.eq_nil_of_length_eq_zero (by
    simp only [tasks, List.length_singleton] at one
    omega)
  simp only [tasks, idle, List.length_singleton, List.length_nil] at one held order
  refine ⟨?_, inflight, ?_, writing, ?_⟩
  · simp only [pending, tasks, idle, List.eraseIdx_cons_zero, List.nil_append, List.length_singleton,
      List.length_nil]
    omega
  · simp only [tasks, idle, List.eraseIdx_cons_zero, List.nil_append, List.length_singleton,
      List.length_nil]
    omega
  · simpa [tasks, idle] using order

theorem queueWrite_disciplined (disciplined : session.Disciplined)
    (taken : (machine limit).step session .queueWrite = some next) : next.Disciplined := by
  obtain ⟨one, inflight, held, writing, order⟩ := disciplined
  cases waiting : session.posted with
  | nil => simp [machine, step, waiting] at taken
  | cons response rest =>
    simp only [pending, waiting, List.length_cons] at one held
    have idle : session.writes = [] := List.eq_nil_of_length_eq_zero (by omega)
    have empty : session.responseQueue = [] := List.eq_nil_of_length_eq_zero (by omega)
    simp only [machine, step, waiting, Option.some.injEq, queueWrite, empty, idle, List.nil_append,
      List.length_singleton, if_true, doWrite] at taken
    subst taken
    refine ⟨?_, inflight, ?_, ?_, ?_⟩
    · simp only [pending, List.length_singleton]
      omega
    · simp only [List.length_singleton]
      omega
    · simp
    · simpa [waiting] using order

theorem onWrite_disciplined (positive : 0 < limit) {failed : Bool}
    (disciplined : session.Disciplined)
    (taken : (machine limit).step session (.onWrite failed) = some next) : next.Disciplined := by
  obtain ⟨one, inflight, held, writing, order⟩ := disciplined
  cases under : session.writes with
  | nil => simp [machine, step, under] at taken
  | cons response rest =>
    simp only [pending, under, List.length_cons] at one writing
    have last : rest = [] := List.eq_nil_of_length_eq_zero (by omega)
    have idle : session.reads = 0 ∧ session.tasks = [] ∧ session.posted = [] :=
      ⟨by omega, List.eq_nil_of_length_eq_zero (by omega), List.eq_nil_of_length_eq_zero (by omega)⟩
    obtain ⟨noReads, noTasks, noPosts⟩ := idle
    subst last
    simp only [machine, step, under, Option.some.injEq] at taken
    have completed : Disciplined { session with writes := [] } := by
      refine ⟨?_, inflight, held, Nat.zero_le _, order⟩
      simp [pending, noReads, noTasks, noPosts]
    have counted : session.responseQueue.length = 1 ∧ session.inflightRequests = 1 := by omega
    have emptied : session.responseQueue.tail = [] :=
      List.eq_nil_of_length_eq_zero (by simp [counted.1])
    simp only [noTasks, noPosts, List.append_nil] at order
    cases failed with
    | true =>
      subst taken
      exact completed
    | false =>
      simp only [Bool.false_eq_true, if_false, onWrite] at taken
      split at taken
      · subst taken
        exact ⟨completed.one, inflight, held, completed.writing, completed.order⟩
      · -- `do_read` resumes only where the limit is one, and nothing is left to write.
        have below : ¬ 0 ≥ limit := by omega
        subst taken
        by_cases full : 1 = limit
        · constructor <;>
            simp [pending, doRead, doWrite, full.symm, counted, emptied, noReads, noTasks, noPosts, order]
        · constructor <;>
            simp [pending, doWrite, full, counted, emptied, noReads, noTasks, noPosts, order]

theorem disciplined_of_run (positive : 0 < limit) {events : List HttpEvent}
    (ran : (machine limit).run (init limit) events = some session) : session.Disciplined := by
  refine Machine.invariant ran (init_disciplined positive) ?_
  intro state event after disciplined taken
  cases event with
  | onRead result => exact onRead_disciplined disciplined taken
  | respond place keepAlive => exact respond_disciplined disciplined taken
  | queueWrite => exact queueWrite_disciplined disciplined taken
  | onWrite failed => exact onWrite_disciplined positive disciplined taken

/-- In every state of every run, whatever fails or closes: at most one `async_read` and
one `async_write` are outstanding, the counter stays within the limit and the queue
within the counter, and the responses started on the wire answer the requests read, from
the first on, each once and in order. -/
theorem session_disciplined (positive : 0 < limit) {events : List HttpEvent}
    (ran : (machine limit).run (init limit) events = some session) :
    session.reads ≤ 1 ∧ session.writes.length ≤ 1 ∧ session.inflightRequests ≤ limit ∧
      session.responseQueue.length ≤ session.inflightRequests ∧
      session.started.map QueuedResponse.request = List.range session.started.length ∧
      session.started.length ≤ session.received := by
  obtain ⟨one, inflight, held, writing, order⟩ := disciplined_of_run positive ran
  simp only [pending] at one
  have lengths := congrArg List.length order
  simp only [List.length_append, List.length_map, List.length_range] at lengths
  have answered : session.started.length ≤ session.received := by omega
  refine ⟨by omega, by omega, by omega, by omega, ?_, answered⟩
  rw [List.map_append, List.append_assoc] at order
  have start := congrArg (List.take session.started.length) order
  rw [List.take_left' (List.length_map _), List.take_range, Nat.min_eq_left answered] at start
  exact start

/-- Two requests and their responses, the second of which closes the connection. -/
theorem session_disciplined_two : ∃ session,
    (machine 1).run (init 1) (exchange ++ [.onRead .request, .respond 0 false, .queueWrite,
      .onWrite false]) = some session ∧
    session.reads ≤ 1 ∧ session.writes.length ≤ 1 ∧ session.inflightRequests ≤ 1 ∧
      session.responseQueue.length ≤ session.inflightRequests ∧
      session.started.map QueuedResponse.request = List.range session.started.length ∧
      session.started.length ≤ session.received :=
  ⟨_, rfl, session_disciplined Nat.one_pos (@Option.some_get _
    ((machine 1).run (init 1) (exchange ++ [.onRead .request, .respond 0 false, .queueWrite,
      .onWrite false])) rfl).symm⟩

end HttpSession

end TinyChat.Core
