import TinyChat.Db.PoolProgress
import TinyChat.Transition.HoldAndWait

/-! The worker threads of `ThreadPool` over the semaphore of `SqlConnPool`, which is all
they wait for (`SqlConnPool.waits_only_for_permits`). A group message that is committed
asks for its second connection in `write_to_room` while `handle_message` still holds
the first. -/
namespace TinyChat.Db

open TinyChat.Transition TinyChat.Transition.HoldAndWait

/-- What a worker thread runs. -/
inductive Task where
  /-- `RequestHandler::handle_request`, with the one connection of its handler or none. -/
  | httpRequest (usesPool : Bool)
  /-- A `private_message`; a message of no known type holds a connection as long. -/
  | privateMessage
  /-- A `group_message`, which is broadcast once it is committed. -/
  | groupMessage (committed : Bool)
  deriving DecidableEq

/-- The scope of a `SqlConnRAII` around what happens inside. -/
def sqlConnRAII (inside : List Demand) : List Demand := .acquire :: inside ++ [.release]

/-- The connection for the members of the room; its scope ends before the sends. -/
def writeToRoom : List Demand := sqlConnRAII []

def handleMessage (broadcasts : Bool) : List Demand :=
  sqlConnRAII (if broadcasts then writeToRoom else [])

namespace Task

def demands : Task → List Demand
  | .httpRequest true => sqlConnRAII []
  | .httpRequest false => []
  | .privateMessage => handleMessage false
  | .groupMessage committed => handleMessage committed

/-- The task gets to `write_to_room`. -/
def broadcasts : Task → Bool
  | .groupMessage committed => committed
  | _ => false

theorem demands_balanced (task : Task) : balanced 0 task.demands = true := by
  rcases task with (_ | _) | _ | (_ | _) <;> rfl

/-- Only a broadcast holds a connection while it asks for another. -/
theorem hold_demands (task : Task) : hold 0 task.demands = if task.broadcasts then 1 else 0 := by
  rcases task with (_ | _) | _ | (_ | _) <;> rfl

theorem hold_demands_le (task : Task) : hold 0 task.demands ≤ 1 := by
  rw [hold_demands]
  split <;> omega

theorem weigh_hold_demands (tasks : List Task) :
    weigh (hold 0) (tasks.map demands) = tasks.countP broadcasts := by
  induction tasks with
  | nil => rfl
  | cons task rest ih =>
    rw [List.map_cons, weigh_cons, ih, hold_demands, List.countP_cons, Nat.add_comm]

end Task

/-- A worker in `write_to_room` before it asks for its second connection. -/
def inWriteToRoom : Worker := .running 1 [.acquire, .release, .release]

variable {permits : Nat} {queue : List (List Demand)} {before after : List Worker} {task : Task}

theorem run_broadcast (broadcasts : task.broadcasts = true) :
    machine.run ⟨permits + 1, task.demands :: queue, before ++ .idle :: after⟩
        [(before.length, .take), (before.length, .tryAcquire true)] =
      some ⟨permits, queue, before ++ inWriteToRoom :: after⟩ := by
  rcases task with _ | _ | (_ | _)
  · cases broadcasts
  · cases broadcasts
  · cases broadcasts
  · simp [step_between, work, Task.demands, handleMessage, writeToRoom, sqlConnRAII, inWriteToRoom]

theorem run_other (other : task.broadcasts = false) :
    ∃ actions, machine.run ⟨permits + 1, task.demands :: queue, before ++ .idle :: after⟩ actions =
      some ⟨permits + 1, queue, before ++ .idle :: after⟩ := by
  have alone (same : task.demands = sqlConnRAII []) :
      machine.run ⟨permits + 1, task.demands :: queue, before ++ .idle :: after⟩
        [(before.length, .take), (before.length, .tryAcquire true), (before.length, .release),
          (before.length, .finish)] = some ⟨permits + 1, queue, before ++ .idle :: after⟩ := by
    simp [step_between, work, same, sqlConnRAII]
  rcases task with (_ | _) | _ | (_ | _)
  · exact ⟨[(before.length, .take), (before.length, .finish)],
      by simp [step_between, work, Task.demands]⟩
  · exact ⟨_, alone rfl⟩
  · exact ⟨_, alone rfl⟩
  · exact ⟨_, alone rfl⟩
  · cases other

/-- With enough broadcasts and idle workers every permit gets to a worker in
`write_to_room`. -/
theorem run_until_jammed (tasks : List Task) (before : List Worker) {permits idle : Nat}
    (demanded : permits ≤ tasks.countP Task.broadcasts) (staffed : permits ≤ idle) :
    ∃ actions queue, machine.run ⟨permits, tasks.map Task.demands, before ++ .replicate idle .idle⟩
        actions =
      some ⟨0, queue, before ++ .replicate permits inWriteToRoom ++
        .replicate (idle - permits) .idle⟩ := by
  -- The workers that got to `write_to_room` collect in `before`.
  induction tasks generalizing before permits idle with
  | nil =>
    have none : permits = 0 := by simpa using demanded
    subst none
    exact ⟨[], [], by simp⟩
  | cons task rest ih =>
    match permits, idle with
    | 0, idle => exact ⟨[], (task :: rest).map Task.demands, by simp⟩
    | permits + 1, 0 => omega
    | permits + 1, idle + 1 =>
      cases broadcasts : task.broadcasts with
      | true =>
        obtain ⟨actions, queue, ran⟩ := @ih (before ++ [inWriteToRoom]) permits idle
          (by simpa [List.countP_cons, broadcasts] using demanded) (by omega)
        refine ⟨[(before.length, .take), (before.length, .tryAcquire true)] ++ actions, queue,
          Machine.run_trans (run_broadcast broadcasts) ?_⟩
        simpa [List.replicate_succ] using ran
      | false =>
        obtain ⟨first, finished⟩ := @run_other permits (rest.map Task.demands) before
          (.replicate idle .idle) task broadcasts
        obtain ⟨actions, queue, ran⟩ := @ih before (permits + 1) (idle + 1)
          (by simpa [List.countP_cons, broadcasts] using demanded) staffed
        exact ⟨first ++ actions, queue, Machine.run_trans finished ran⟩

/-- No interleaving of the worker threads deadlocks on the connections exactly if
there are fewer workers than connections, or fewer tasks that broadcast. -/
theorem deadlock_free_iff {maxConn workerThreads : Nat} (tasks : List Task)
    (positive : 0 < maxConn) (staffed : 0 < workerThreads) :
    (∀ actions final,
        machine.run (start maxConn workerThreads (tasks.map Task.demands)) actions = some final →
        ¬ Deadlocked final) ↔
      min workerThreads (tasks.countP Task.broadcasts) < maxConn := by
  have scripts : ∀ demands ∈ tasks.map Task.demands, balanced 0 demands = true := by
    simpa using fun task _ => task.demands_balanced
  have bound : ∀ demands ∈ tasks.map Task.demands, hold 0 demands ≤ 1 := by
    simpa using fun task _ => task.hold_demands_le
  constructor
  · intro free
    by_contra many
    obtain ⟨actions, queue, ran⟩ := @run_until_jammed tasks [] maxConn workerThreads (by omega) (by omega)
    have sound := machine.invariant ran (sound_start _ 1 scripts bound) fun _ _ _ sound taken =>
      sound.step taken
    have jammed : Jammed ⟨0, queue, [] ++ .replicate maxConn inWriteToRoom ++
        .replicate (workerThreads - maxConn) .idle⟩ := by
      refine ⟨rfl, fun worker member holding => ?_⟩
      simp only [List.nil_append, List.mem_append, List.mem_replicate] at member
      rcases member with ⟨_, same⟩ | ⟨_, same⟩ <;> subst same
      · rfl
      · exact absurd holding (Nat.lt_irrefl 0)
    obtain ⟨rest, final, ended, dead⟩ := sound.deadlock_of_jammed staffed positive jammed
    exact free _ final (Machine.run_trans ran ended) dead
  · intro few actions final ran
    refine deadlock_free scripts bound staffed ?_ ran
    rw [Task.weigh_hold_demands]
    omega

/-- One worker, one connection, and one group message that is broadcast. -/
theorem deadlock_of_one_broadcast :
    ¬ ∀ (maxConn workerThreads : Nat) (tasks : List Task), 0 < maxConn → 0 < workerThreads →
      ∀ actions final,
        machine.run (start maxConn workerThreads (tasks.map Task.demands)) actions = some final →
        ¬ Deadlocked final := by
  intro claimed
  let blocked : Shop := ⟨0, [], [.waiting 1 [.release, .release]]⟩
  have waits : ∀ worker ∈ blocked.workers, worker = .waiting 1 [.release, .release] :=
    fun worker => List.mem_singleton.mp
  refine claimed 1 1 [.groupMessage true] Nat.one_pos Nat.one_pos
    [(0, .take), (0, .tryAcquire true), (0, .tryAcquire false)] blocked rfl ⟨?_, ?_, ?_⟩
  · exact .inr ⟨_, List.mem_singleton_self _, by decide⟩
  · exact fun worker member => .inr ⟨1, _, waits worker member⟩
  · rintro ⟨_ | index, event⟩
    · cases event <;> rfl
    · rfl

/-- Two group messages over three connections. -/
theorem deadlock_free_three :
    (∀ actions final,
        machine.run (start 3 20 ([.groupMessage true, .groupMessage true].map Task.demands)) actions =
          some final → ¬ Deadlocked final) ↔
      min 20 ([.groupMessage true, .groupMessage true].countP Task.broadcasts) < 3 :=
  deadlock_free_iff _ (by decide) (by decide)

end TinyChat.Db
