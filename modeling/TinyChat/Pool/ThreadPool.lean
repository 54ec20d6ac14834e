import TinyChat.Transition.Machine
import TinyChat.Transition.Processes

/-! `pool/thread_pool.hpp` and `pool/thread_pool.cpp`: the calls of `addTask`, the workers
and the destructor over one queue, one mutex and one condition variable. A task is named
by the number of its `addTask` call. -/
namespace TinyChat.Pool

open TinyChat.Transition

/-- Where a worker is in its loop. -/
inductive Worker where
  /-- Before it takes the mutex: at the start or after a task. -/
  | free
  /-- With the mutex, before the predicate of `condition.wait`. -/
  | checking
  /-- In `condition.wait`, without the mutex. -/
  | parked
  /-- Notified, or woken for no reason, and about to take the mutex again. -/
  | woken
  /-- With the popped task, without the mutex. -/
  | running (task : Nat)
  | exited
  deriving DecidableEq

/-- Where a call of `addTask` is. -/
inductive AddTask where
  | entering
  | locked
  /-- The task is in the queue and the mutex released; `notify_one` is to come. -/
  | pushed
  | returned
  /-- `AddTask on a stopped ThreadPool`. -/
  | thrown
  deriving DecidableEq

/-- Where `~ThreadPool` is; what is left after `joining` only waits for the workers. -/
inductive Destructor where
  | notCalled
  | entering
  | locked
  /-- `stop` is set and the mutex released; `notify_all` is to come. -/
  | stopped
  | joining
  deriving DecidableEq

inductive Owner where
  | addTask (call : Nat)
  | worker (index : Nat)
  | destructor
  deriving DecidableEq

structure ThreadPool where
  stop : Bool
  tasks : List Nat
  queueMutex : Option Owner
  workers : List Worker
  calls : List AddTask
  destructor : Destructor
  /-- The tasks put into the queue so far. -/
  pushed : List Nat
  /-- The tasks taken out of the queue so far, with the worker. -/
  popped : List (Nat × Nat)
  /-- The tasks that have run so far, with the worker. -/
  ran : List (Nat × Nat)
  deriving DecidableEq

inductive PoolAction where
  /-- A thread calls `addTask`. -/
  | addTask
  | lockCall (call : Nat)
  /-- `addTask` with the mutex: throw or push, and release it. -/
  | push (call : Nat)
  /-- `notify_one` wakes the given worker, or none when none is waiting. -/
  | notifyOne (call : Nat) (worker : Option Nat)
  | lockWorker (worker : Nat)
  /-- A worker with the mutex: wait, leave the loop or pop a task. -/
  | check (worker : Nat)
  /-- A spurious wake-up. -/
  | wake (worker : Nat)
  /-- The task of a worker returns. -/
  | run (worker : Nat)
  /-- `~ThreadPool` is called. -/
  | destroy
  | lockDestructor
  | setStop
  | notifyAll
  deriving DecidableEq

/-- A step of a call, a worker or the destructor that has begun, and no spurious wake-up. -/
def PoolAction.Own : PoolAction → Prop
  | .addTask | .wake _ | .destroy => False
  | _ => True

namespace ThreadPool

def init (threadCount : Nat) : ThreadPool :=
  { stop := false, tasks := [], queueMutex := none, workers := List.replicate threadCount .free
    calls := [], destructor := .notCalled, pushed := [], popped := [], ran := [] }

def setWorker (worker : Nat) (state : Worker) (pool : ThreadPool) : ThreadPool :=
  { pool with workers := pool.workers.set worker state }

def setCall (call : Nat) (state : AddTask) (pool : ThreadPool) : ThreadPool :=
  { pool with calls := pool.calls.set call state }

/-- `addTask` between taking and releasing the mutex. -/
def push (call : Nat) (pool : ThreadPool) : ThreadPool :=
  if pool.stop then { pool.setCall call .thrown with queueMutex := none }
  else { pool.setCall call .pushed with
    queueMutex := none, tasks := pool.tasks ++ [call], pushed := pool.pushed ++ [call] }

/-- A worker between the predicate of `wait` and the release of the mutex. -/
def check (worker : Nat) (pool : ThreadPool) : ThreadPool :=
  match pool.tasks with
  | [] =>
    if pool.stop then { pool.setWorker worker .exited with queueMutex := none }
    else { pool.setWorker worker .parked with queueMutex := none }
  | task :: rest =>
    { pool.setWorker worker (.running task) with
      queueMutex := none, tasks := rest, popped := pool.popped ++ [(task, worker)] }

/-- What `notify_all` does to a worker. -/
def notified : Worker → Worker
  | .parked => .woken
  | other => other

def step (pool : ThreadPool) : PoolAction → Option ThreadPool
  | .addTask => some { pool with calls := pool.calls ++ [.entering] }
  | .lockCall call =>
    if pool.calls[call]? = some .entering ∧ pool.queueMutex = none then
      some { pool.setCall call .locked with queueMutex := some (.addTask call) }
    else none
  | .push call =>
    if pool.calls[call]? = some .locked then some (pool.push call) else none
  | .notifyOne call (some worker) =>
    if pool.calls[call]? = some .pushed ∧ pool.workers[worker]? = some .parked then
      some ((pool.setCall call .returned).setWorker worker .woken)
    else none
  | .notifyOne call none =>
    if pool.calls[call]? = some .pushed ∧ .parked ∉ pool.workers then
      some (pool.setCall call .returned)
    else none
  | .lockWorker worker =>
    if (pool.workers[worker]? = some .free ∨ pool.workers[worker]? = some .woken) ∧
        pool.queueMutex = none then
      some { pool.setWorker worker .checking with queueMutex := some (.worker worker) }
    else none
  | .check worker =>
    if pool.workers[worker]? = some .checking then some (pool.check worker) else none
  | .wake worker =>
    if pool.workers[worker]? = some .parked then some (pool.setWorker worker .woken) else none
  | .run worker =>
    match pool.workers[worker]? with
    | some (.running task) =>
      some { pool.setWorker worker .free with ran := pool.ran ++ [(task, worker)] }
    | _ => none
  | .destroy =>
    if pool.destructor = .notCalled then some { pool with destructor := .entering } else none
  | .lockDestructor =>
    if pool.destructor = .entering ∧ pool.queueMutex = none then
      some { pool with destructor := .locked, queueMutex := some .destructor }
    else none
  | .setStop =>
    if pool.destructor = .locked then
      some { pool with destructor := .stopped, stop := true, queueMutex := none }
    else none
  | .notifyAll =>
    if pool.destructor = .stopped then
      some { pool with destructor := .joining, workers := pool.workers.map notified }
    else none

def machine : Machine ThreadPool PoolAction := ⟨step⟩

variable {pool next : ThreadPool} {action : PoolAction}

/-- Everything a step can do. -/
inductive Steps (pool : ThreadPool) : PoolAction → ThreadPool → Prop where
  | called : Steps pool .addTask { pool with calls := pool.calls ++ [.entering] }
  | lockedCall (call : Nat) (found : pool.calls[call]? = some .entering)
      (unlocked : pool.queueMutex = none) : Steps pool (.lockCall call)
      { pool.setCall call .locked with queueMutex := some (.addTask call) }
  | refused (call : Nat) (found : pool.calls[call]? = some .locked) (stopped : pool.stop = true) :
      Steps pool (.push call) { pool.setCall call .thrown with queueMutex := none }
  | pushed (call : Nat) (found : pool.calls[call]? = some .locked) (accepting : pool.stop = false) :
      Steps pool (.push call) { pool.setCall call .pushed with
        queueMutex := none, tasks := pool.tasks ++ [call], pushed := pool.pushed ++ [call] }
  | notifiedOne (call worker : Nat) (found : pool.calls[call]? = some .pushed)
      (waiting : pool.workers[worker]? = some .parked) : Steps pool (.notifyOne call (some worker))
      ((pool.setCall call .returned).setWorker worker .woken)
  | notifiedNone (call : Nat) (found : pool.calls[call]? = some .pushed)
      (unparked : .parked ∉ pool.workers) : Steps pool (.notifyOne call none)
      (pool.setCall call .returned)
  | lockedWorker (worker : Nat) (old : Worker) (found : pool.workers[worker]? = some old)
      (ready : old = .free ∨ old = .woken) (unlocked : pool.queueMutex = none) :
      Steps pool (.lockWorker worker)
      { pool.setWorker worker .checking with queueMutex := some (.worker worker) }
  | left (worker : Nat) (found : pool.workers[worker]? = some .checking) (empty : pool.tasks = [])
      (stopped : pool.stop = true) : Steps pool (.check worker)
      { pool.setWorker worker .exited with queueMutex := none }
  | waited (worker : Nat) (found : pool.workers[worker]? = some .checking) (empty : pool.tasks = [])
      (accepting : pool.stop = false) : Steps pool (.check worker)
      { pool.setWorker worker .parked with queueMutex := none }
  | popped (worker task : Nat) (rest : List Nat) (found : pool.workers[worker]? = some .checking)
      (waiting : pool.tasks = task :: rest) : Steps pool (.check worker)
      { pool.setWorker worker (.running task) with
        queueMutex := none, tasks := rest, popped := pool.popped ++ [(task, worker)] }
  | woke (worker : Nat) (found : pool.workers[worker]? = some .parked) :
      Steps pool (.wake worker) (pool.setWorker worker .woken)
  | ran (worker task : Nat) (found : pool.workers[worker]? = some (.running task)) :
      Steps pool (.run worker)
      { pool.setWorker worker .free with ran := pool.ran ++ [(task, worker)] }
  | destroying (now : pool.destructor = .notCalled) :
      Steps pool .destroy { pool with destructor := .entering }
  | lockedDestructor (now : pool.destructor = .entering) (unlocked : pool.queueMutex = none) :
      Steps pool .lockDestructor
      { pool with destructor := .locked, queueMutex := some .destructor }
  | stopping (now : pool.destructor = .locked) : Steps pool .setStop
      { pool with destructor := .stopped, stop := true, queueMutex := none }
  | notifiedAll (now : pool.destructor = .stopped) : Steps pool .notifyAll
      { pool with destructor := .joining, workers := pool.workers.map notified }

theorem steps_of_step (taken : machine.step pool action = some next) : Steps pool action next := by
  cases action with
  | addTask =>
    cases taken
    exact .called
  | lockCall call =>
    simp only [machine, step] at taken
    split at taken <;> cases taken
    rename_i enabled
    exact .lockedCall call enabled.1 enabled.2
  | push call =>
    simp only [machine, step] at taken
    split at taken <;> cases taken
    unfold push
    cases stopped : pool.stop with
    | true => exact .refused call ‹_› stopped
    | false => exact .pushed call ‹_› stopped
  | notifyOne call worker =>
    cases worker with
    | none =>
      simp only [machine, step] at taken
      split at taken <;> cases taken
      rename_i enabled
      exact .notifiedNone call enabled.1 enabled.2
    | some worker =>
      simp only [machine, step] at taken
      split at taken <;> cases taken
      rename_i enabled
      exact .notifiedOne call worker enabled.1 enabled.2
  | lockWorker worker =>
    simp only [machine, step] at taken
    split at taken <;> cases taken
    rename_i enabled
    rcases enabled.1 with found | found
    · exact .lockedWorker worker .free found (.inl rfl) enabled.2
    · exact .lockedWorker worker .woken found (.inr rfl) enabled.2
  | check worker =>
    simp only [machine, step] at taken
    split at taken <;> cases taken
    unfold check
    split
    · cases stopped : pool.stop with
      | true => exact .left worker ‹_› ‹_› stopped
      | false => exact .waited worker ‹_› ‹_› stopped
    · exact .popped worker _ _ ‹_› ‹_›
  | wake worker =>
    simp only [machine, step] at taken
    split at taken <;> cases taken
    exact .woke worker ‹_›
  | run worker =>
    simp only [machine, step] at taken
    split at taken <;> cases taken
    exact .ran worker _ ‹_›
  | destroy =>
    simp only [machine, step] at taken
    split at taken <;> cases taken
    exact .destroying ‹_›
  | lockDestructor =>
    simp only [machine, step] at taken
    split at taken <;> cases taken
    rename_i enabled
    exact .lockedDestructor enabled.1 enabled.2
  | setStop =>
    simp only [machine, step] at taken
    split at taken <;> cases taken
    exact .stopping ‹_›
  | notifyAll =>
    simp only [machine, step] at taken
    split at taken <;> cases taken
    exact .notifiedAll ‹_›

end ThreadPool

end TinyChat.Pool
