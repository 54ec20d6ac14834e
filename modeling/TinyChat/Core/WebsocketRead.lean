import TinyChat.Transition.Machine

/-! The read loop of `core/websocket_session.cpp`: `do_read` and `on_read` call each
other with the same `buffer_`. -/
namespace TinyChat.Core

open TinyChat.Transition

structure UserClaims where
  id : UInt64
  username : String

/-- The members of a `WebsocketSession` that its read loop uses. -/
structure ReadLoop where
  /-- The readable bytes of `buffer_`. -/
  buffer : List UInt8
  userClaims : UserClaims
  /-- An `async_read` is pending. -/
  reading : Bool
  /-- The arguments of the `handle_message` tasks submitted to the thread pool. -/
  tasks : List (List UInt8 × UserClaims)

/-- How an `async_read` completes. -/
inductive Completion where
  | message (bytes : List UInt8)
  | closed
  | failed

namespace ReadLoop

/-- After `on_accept`, with the empty buffer the session was made with. -/
def init (userClaims : UserClaims) : ReadLoop :=
  { buffer := [], userClaims, reading := true, tasks := [] }

/-- `async_read` appends the message to what is readable. -/
def asyncRead (loop : ReadLoop) : Completion → ReadLoop
  | .message bytes => { loop with buffer := loop.buffer ++ bytes, reading := false }
  | _ => { loop with reading := false }

def doRead (loop : ReadLoop) : ReadLoop := { loop with reading := true }

/-- `on_read` with the completion that called it. -/
def onRead (loop : ReadLoop) : Completion → ReadLoop
  | .closed => loop
  | .failed => loop
  | .message _ => { loop with tasks := loop.tasks ++ [(loop.buffer, loop.userClaims)] }.doRead

def step (loop : ReadLoop) (completion : Completion) : Option ReadLoop :=
  if loop.reading then some ((loop.asyncRead completion).onRead completion) else none

def machine : Machine ReadLoop Completion := ⟨step⟩

/-- The payloads of the tasks in the order of their submission. -/
def payloads (loop : ReadLoop) : List (List UInt8) := loop.tasks.map Prod.fst

/-- The messages among the completions. -/
def received (completions : List Completion) : List (List UInt8) := completions.filterMap fun
  | .message bytes => some bytes
  | _ => none

/-- What is readable after each message, from what was readable before the first. -/
def accumulated : List UInt8 → List (List UInt8) → List (List UInt8)
  | _, [] => []
  | before, message :: rest => (before ++ message) :: accumulated (before ++ message) rest

theorem accumulated_snoc (before message : List UInt8) (messages : List (List UInt8)) :
    accumulated before (messages ++ [message]) =
      accumulated before messages ++ [before ++ messages.flatten ++ message] := by
  induction messages generalizing before with
  | nil => simp [accumulated]
  | cons first rest ih => simp [accumulated, ih]

/-- The readable bytes are the messages themselves only while nothing was readable
before them. -/
theorem accumulated_eq_iff (before : List UInt8) (messages : List (List UInt8)) :
    accumulated before messages = messages ↔
      (messages ≠ [] → before = []) ∧ ∀ message ∈ messages.dropLast, message = [] := by
  induction messages generalizing before with
  | nil => simp [accumulated]
  | cons first rest ih =>
    rw [accumulated, List.cons.injEq, List.append_left_eq_self, ih]
    cases rest with
    | nil => simp
    | cons second others =>
      simp only [ne_eq, reduceCtorEq, not_false_eq_true, forall_const, List.append_eq_nil_iff,
        List.dropLast_cons_cons, List.forall_mem_cons]
      grind

variable {loop next : ReadLoop} {completions : List Completion} {userClaims : UserClaims}

/-- The buffer holds all messages so far and each task carried all up to its own. -/
structure Repeats (past : List Completion) (loop : ReadLoop) : Prop where
  buffer : loop.buffer = (received past).flatten
  payloads : loop.payloads = accumulated [] (received past)

theorem Repeats.step {past : List Completion} {completion : Completion}
    (held : Repeats past loop) (taken : machine.step loop completion = some next) :
    Repeats (past ++ [completion]) next := by
  simp only [machine, ReadLoop.step] at taken
  split at taken
  · cases taken
    cases completion with
    | message bytes =>
      have more : received (past ++ [.message bytes]) = received past ++ [bytes] := by
        simp [received]
      refine ⟨?_, ?_⟩
      · simp [asyncRead, onRead, doRead, more, held.buffer]
      · rw [more, accumulated_snoc, ← held.payloads, List.nil_append, ← held.buffer]
        simp [asyncRead, onRead, doRead, ReadLoop.payloads]
    | closed | failed =>
      exact ⟨by simpa [asyncRead, onRead, received] using held.buffer,
        by simpa [asyncRead, onRead, received, ReadLoop.payloads] using held.payloads⟩
  · cases taken

theorem repeats_of_run (ran : machine.run (init userClaims) completions = some loop) :
    Repeats completions loop :=
  Machine.run_induction (motive := Repeats) ran ⟨rfl, rfl⟩
    fun _ _ _ _ _ held taken => held.step taken

/-- In every run of the read loop, the tasks carry exactly the messages received exactly
if all messages but the last are empty. -/
theorem payloads_eq_received_iff (ran : machine.run (init userClaims) completions = some loop) :
    loop.payloads = received completions ↔
      ∀ message ∈ (received completions).dropLast, message = [] := by
  rw [(repeats_of_run ran).payloads, accumulated_eq_iff]
  simp

/-- The second task of a session carries both messages. -/
theorem payloads_repeat_first :
    ¬ ∀ (userClaims : UserClaims) (completions : List Completion) (loop : ReadLoop),
      machine.run (init userClaims) completions = some loop →
      loop.payloads = received completions := by
  intro claimed
  exact absurd (claimed ⟨1, "alice"⟩ [.message [1], .message [2]] _ rfl) (by decide)

/-- Two empty messages, one with a byte, and a close. -/
private def lastHasBytes : List Completion := [.message [], .message [], .message [5], .closed]

theorem payloads_eq_received_last :
    ((machine.run (init ⟨1, "alice"⟩) lastHasBytes).get (by decide)).payloads =
        received lastHasBytes ↔
      ∀ message ∈ (received lastHasBytes).dropLast, message = [] :=
  payloads_eq_received_iff (Option.some_get _).symm

end ReadLoop

end TinyChat.Core
