import TinyChat.Core.HttpSession

/-! `core/listener.cpp`: one `async_accept` at a time, whose completion makes an
`HttpSession` of the accepted socket and starts the next one. -/
namespace TinyChat.Core

open TinyChat.Transition

/-- An accepted socket. The `HttpSession` constructor asks it twice for its remote endpoint,
and the peer may be gone at either of the calls. -/
structure Socket where
  address : String
  port : UInt16
  connectedAtAddress : Bool
  connectedAtPort : Bool
  deriving DecidableEq

/-- What the overload of `remote_endpoint()` without an `error_code` throws. -/
def notConnected : String := "remote_endpoint: Transport endpoint is not connected"

def Socket.remoteAddress (socket : Socket) : Except String String :=
  if socket.connectedAtAddress then .ok socket.address else .error notConnected

def Socket.remotePort (socket : Socket) : Except String UInt16 :=
  if socket.connectedAtPort then .ok socket.port else .error notConnected

/-- The constructor of `HttpSession`: the line it logs, or what it throws. -/
def HttpSession.create (socket : Socket) : Except String String := do
  let address ← socket.remoteAddress
  let port ← socket.remotePort
  return "Session created on " ++ address ++ ":" ++ toString port

/-- How an `async_accept` completes. -/
inductive AcceptResult where
  | failed (message : String)
  | accepted (socket : Socket)
  deriving DecidableEq

/-- The listener, and the threads that run its handlers. -/
structure Listener where
  /-- The `async_accept`s that have not completed. -/
  accepts : Nat
  /-- The sessions made so far, each as its `run()` has left it. -/
  sessions : List HttpSession
  /-- The threads inside `ioc_.run()`. -/
  threads : Nat
  /-- The exceptions that have left `ioc_.run()`. -/
  escaped : List String
  logged : List String
  deriving DecidableEq

namespace Listener

def doAccept (listener : Listener) : Listener := { listener with accepts := listener.accepts + 1 }

/-- `TinychatServer::run`: the first accept, the I/O threads and the main thread. -/
def start (ioThreads : Nat) : Listener :=
  doAccept { accepts := 0, sessions := [], threads := ioThreads + 1, escaped := [], logged := [] }

/-- `on_accept`; no member has changed when it throws. -/
def onAccept (queueLimit : Nat) (listener : Listener) :
    AcceptResult → Except String Listener
  | .failed message =>
    .ok { listener with logged := listener.logged ++ ["Failed to accept connection: " ++ message] }
  | .accepted socket => do
    let line ← HttpSession.create socket
    return { listener with
      sessions := listener.sessions ++ [HttpSession.init queueLimit]
      logged := listener.logged ++ [line] }.doAccept

/-- A thread runs the handler of a completed accept. An exception from it leaves
`ioc_.run()` and ends the thread. -/
def step (queueLimit : Nat) (listener : Listener) (result : AcceptResult) : Option Listener :=
  if 0 < listener.accepts ∧ 0 < listener.threads then
    let completed := { listener with accepts := listener.accepts - 1 }
    match completed.onAccept queueLimit result with
    | .ok next => some next
    | .error what => some { completed with
        threads := completed.threads - 1
        escaped := completed.escaped ++ [what] }
  else none

def machine (queueLimit : Nat) : Machine Listener AcceptResult := ⟨step queueLimit⟩

/-- An accept is outstanding and no exception has escaped. -/
structure Alive (listener : Listener) : Prop where
  accepts : listener.accepts = 1
  escaped : listener.escaped = []

end Listener

/-- The accept gave a socket whose peer is there until the session is made. -/
def AcceptResult.Connected : AcceptResult → Prop
  | .failed _ => False
  | .accepted socket => socket.connectedAtAddress = true ∧ socket.connectedAtPort = true

section Steps

variable {listener next : Listener} {result : AcceptResult} {results : List AcceptResult}
variable {socket : Socket} {queueLimit ioThreads : Nat}

theorem HttpSession.create_eq_ok_iff {line : String} : HttpSession.create socket = .ok line ↔
    (AcceptResult.accepted socket).Connected ∧
      line = "Session created on " ++ socket.address ++ ":" ++ toString socket.port := by
  rcases socket with ⟨address, port, atAddress, atPort⟩
  cases atAddress <;> cases atPort <;>
    simp [create, Socket.remoteAddress, Socket.remotePort, AcceptResult.Connected, bind, Except.bind,
      pure, Except.pure, eq_comm]

namespace Listener

theorem step_cases (single : listener.accepts = 1)
    (taken : (machine queueLimit).step listener result = some next) :
    (result.Connected ∧ next.accepts = 1 ∧ next.escaped = listener.escaped ∧
      next.sessions = listener.sessions ++ [HttpSession.init queueLimit]) ∨
    (¬ result.Connected ∧ next.accepts = 0 ∧ next.sessions = listener.sessions ∧
      ((∃ message, result = .failed message) ∨ next.escaped ≠ [])) := by
  simp only [machine, step] at taken
  split at taken
  · cases result with
    | failed message =>
      right
      cases taken
      exact ⟨id, by simp [single], rfl, .inl ⟨message, rfl⟩⟩
    | accepted socket =>
      cases made : HttpSession.create socket with
      | ok line =>
        left
        simp only [onAccept, made, bind, Except.bind, pure, Except.pure, Option.some.injEq] at taken
        subst taken
        exact ⟨(HttpSession.create_eq_ok_iff.mp made).1, by simp [doAccept, single], rfl, rfl⟩
      | error what =>
        right
        simp only [onAccept, made, bind, Except.bind, Option.some.injEq] at taken
        subst taken
        refine ⟨fun connected => ?_, by simp [single], rfl, .inr (by simp)⟩
        rw [HttpSession.create_eq_ok_iff.mpr ⟨connected, rfl⟩] at made
        cases made
  · cases taken

theorem alive_iff_connected (alive : listener.Alive)
    (taken : (machine queueLimit).step listener result = some next) :
    next.Alive ↔ result.Connected := by
  rcases step_cases alive.accepts taken with ⟨connected, again, same, _⟩ | ⟨gone, none, _⟩
  · exact ⟨fun _ => connected, fun _ => ⟨again, same.trans alive.escaped⟩⟩
  · refine ⟨fun next => ?_, fun connected => absurd connected gone⟩
    exact absurd (next.accepts.symm.trans none) (by decide)

theorem start_alive : (start ioThreads).Alive := ⟨rfl, rfl⟩

/-- Without an accept nothing calls the listener back. -/
theorem halted_of_no_accepts (none : listener.accepts = 0) :
    (machine queueLimit).Halted listener := by
  intro result
  simp [machine, step, none]

/-- A completion without a connected socket is the last one of its run. -/
theorem halted_of_not_connected (alive : listener.Alive) (gone : ¬ result.Connected)
    (taken : (machine queueLimit).step listener result = some next) :
    (machine queueLimit).Halted next := by
  rcases step_cases alive.accepts taken with ⟨connected, _⟩ | ⟨_, none, _⟩
  · exact absurd connected gone
  · exact halted_of_no_accepts none

/-- As long as every accept gives a connected socket, each of them makes a session. -/
theorem sessions_of_run
    (ran : (machine queueLimit).run (start ioThreads) results = some listener)
    (connected : ∀ result ∈ results, result.Connected) :
    listener.sessions = List.replicate results.length (HttpSession.init queueLimit) := by
  have along := (Machine.allowed_iff_forall_mem ran).mpr connected
  refine (Machine.run_induction_allowed (motive := fun past state => state.Alive ∧
    state.sessions = List.replicate past.length (HttpSession.init queueLimit))
    ran along ⟨start_alive, rfl⟩ ?_).2
  intro past state result next _ ⟨alive, made⟩ connected taken
  refine ⟨(alive_iff_connected alive taken).mpr connected, ?_⟩
  rcases step_cases alive.accepts taken with ⟨_, _, _, more⟩ | ⟨gone, _⟩
  · rw [more, made, List.length_append, List.length_singleton, List.replicate_succ']
  · exact absurd connected gone

/-- In every run of completions, an accept is outstanding and no exception has escaped
after each of them, exactly if each gave a socket that stayed connected. -/
theorem alive_throughout_iff
    (ran : (machine queueLimit).run (start ioThreads) results = some listener) :
    (machine queueLimit).Throughout (fun _ state => state.Alive) (start ioThreads) results ↔
      ∀ result ∈ results, result.Connected :=
  (Machine.throughout_iff_allowed ran start_alive
    fun _ _ _ _ _ alive taken => alive_iff_connected alive taken).trans
    (Machine.allowed_iff_forall_mem ran)

/-- A peer that leaves before its session is made takes the accept and a thread with it. -/
theorem not_alive_after_disconnect :
    ¬ ∀ (queueLimit ioThreads : Nat) (results : List AcceptResult) (listener : Listener),
      (machine queueLimit).run (start ioThreads) results = some listener →
      (machine queueLimit).Throughout (fun _ state => state.Alive) (start ioThreads) results := by
  intro claimed
  have left := claimed 10 4 [.accepted ⟨"203.0.113.7", 50122, false, false⟩] _ rfl
    [.accepted ⟨"203.0.113.7", 50122, false, false⟩] [] _ rfl rfl
  exact absurd left.escaped (by decide)

/-- Two clients that stay. -/
theorem alive_throughout_iff_two :
    (machine 10).Throughout (fun _ state => state.Alive) (start 4)
        [.accepted ⟨"203.0.113.7", 50122, true, true⟩, .accepted ⟨"203.0.113.9", 40210, true, true⟩] ↔
      ∀ result ∈ [AcceptResult.accepted ⟨"203.0.113.7", 50122, true, true⟩,
        .accepted ⟨"203.0.113.9", 40210, true, true⟩], result.Connected :=
  alive_throughout_iff rfl

example : ((machine 10).run (start 4) [.failed "Too many open files"]).map Listener.accepts = some 0 :=
  rfl

end Listener

end Steps

end TinyChat.Core
