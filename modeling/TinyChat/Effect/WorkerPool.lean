import TinyChat.Effect.Interleaving

/-! Tasks of a first-in first-out queue on a number of workers. The tasks run as threads
over one shared state, numbered in the order in which they are taken. When a task is only
taken after another has returned, whatever it adds to a log comes later. -/
namespace TinyChat.Effect

open TinyChat.Transition

universe u v w x y z s

section WorkerPool

variable {Op : Type u} {Result : Op → Type v} {State : Type x} {α : Type w}
variable {Task : Type y} {Choice : Type z}

/-- The worker that runs the program is free for another one. -/
def Program.Returned : Program Op Result α → Bool
  | .done (.returned _) => true
  | _ => false

structure Pool (Op : Type u) (Result : Op → Type v) (State : Type x) (α : Type w)
    (Task : Type y) where
  queue : List Task := []
  /-- The tasks of the threads. -/
  taken : List Task := []
  threads : Threads Op Result State α

/-- The workers that are not free. -/
def Pool.busy (pool : Pool Op Result State α Task) : Nat :=
  pool.threads.programs.countP fun program => !program.Returned

inductive PoolMove (Task : Type y) (Choice : Type z) where
  /-- A task is added to the queue. -/
  | submit (task : Task)
  /-- A free worker takes the first task. -/
  | take
  /-- The next call of a thread, with all that the environment decides at it. -/
  | step (thread : Nat) (choice : Choice)
  deriving DecidableEq

/-- The tasks submitted in a list of moves. -/
def submitted (moves : List (PoolMove Task Choice)) : List Task := moves.filterMap fun
  | .submit task => some task
  | _ => none

variable (workers : Nat) (serve : Serve Op Result State Choice)
variable (program : Task → Program Op Result α)

def workerPool : Machine (Pool Op Result State α Task) (PoolMove Task Choice) where
  step pool
    | .submit task => some { pool with queue := pool.queue ++ [task] }
    | .take =>
      match pool.queue with
      | task :: queue =>
        if pool.busy < workers then
          ((interleaving serve program).step pool.threads (.start task)).map fun threads =>
            { queue, taken := pool.taken ++ [task], threads }
        else none
      | [] => none
    | .step thread choice =>
      ((interleaving serve program).step pool.threads (.step thread choice)).map fun threads =>
        { pool with threads }

variable {workers serve program}
variable {pool next start final : Pool Op Result State α Task}
variable {moves : List (PoolMove Task Choice)} {move : PoolMove Task Choice}

/-- What a move does to the pool. -/
inductive PoolStep (workers : Nat) (serve : Serve Op Result State Choice)
    (program : Task → Program Op Result α) (pool : Pool Op Result State α Task) :
    PoolMove Task Choice → Pool Op Result State α Task → Prop where
  | submit (task : Task) :
      PoolStep workers serve program pool (.submit task) { pool with queue := pool.queue ++ [task] }
  | take (task : Task) (queue : List Task) (first : pool.queue = task :: queue)
      (free : pool.busy < workers) : PoolStep workers serve program pool .take
        { queue, taken := pool.taken ++ [task], threads :=
          { pool.threads with programs := pool.threads.programs ++ [program task] } }
  | step (thread : Nat) (choice : Choice) (threads : Threads Op Result State α)
      (taken : (interleaving serve program).step pool.threads (.step thread choice) = some threads) :
      PoolStep workers serve program pool (.step thread choice) { pool with threads }

theorem pool_step (taken : (workerPool workers serve program).step pool move = some next) :
    PoolStep workers serve program pool move next := by
  cases move with
  | submit task =>
    cases taken
    exact .submit task
  | take =>
    simp only [workerPool] at taken
    split at taken
    · rename_i task queue first
      split at taken
      · cases taken
        exact .take task queue first ‹_›
      · cases taken
    · cases taken
  | step thread choice =>
    obtain ⟨threads, stepped, rfl⟩ := Option.map_eq_some_iff.mp taken
    exact .step thread choice threads stepped

/-- The tasks are taken in the order in which they are submitted, each by a thread of its
number. -/
theorem pool_fifo (ran : (workerPool workers serve program).run start moves = some final)
    (fresh : start.taken.length = start.threads.programs.length) :
    final.taken ++ final.queue = start.taken ++ start.queue ++ submitted moves ∧
      final.taken.length = final.threads.programs.length := by
  refine Machine.run_induction (motive := fun past pool => pool.taken ++ pool.queue =
    start.taken ++ start.queue ++ submitted past ∧
      pool.taken.length = pool.threads.programs.length) ran ?_ ?_
  · exact ⟨by simp [submitted], fresh⟩
  · intro past pool move next _ ⟨order, numbered⟩ taken
    cases pool_step taken with
    | submit task =>
      refine ⟨?_, numbered⟩
      rw [← List.append_assoc, order]
      simp [submitted]
    | take task queue first free =>
      rw [first] at order
      exact ⟨by simpa [submitted] using order, by simpa using numbered⟩
    | step thread choice threads stepped =>
      obtain ⟨_, _, _, _, _, replaced⟩ := interleaving_step stepped
      exact ⟨by simpa [submitted] using order, by simpa [replaced] using numbered⟩

/-- The threads of a pool run as an interleaving of their programs. -/
theorem pool_interleaves {Other : Type s} (other : Other → Program Op Result α) (tag : Task → Other)
    (same : ∀ task, program task = other (tag task))
    (ran : (workerPool workers serve program).run start moves = some final) :
    ∃ history : List (Move Other Choice),
      (interleaving serve other).run start.threads history = some final.threads := by
  refine Machine.invariant (motive := fun pool => ∃ history : List (Move Other Choice),
    (interleaving serve other).run start.threads history = some pool.threads) ran ⟨[], rfl⟩ ?_
  intro pool move next ⟨history, reached⟩ taken
  cases pool_step taken with
  | submit task => exact ⟨history, reached⟩
  | take task queue first free =>
    refine ⟨history ++ [.start (tag task)], Machine.run_trans reached ?_⟩
    simp [interleaving, same]
  | step thread choice threads stepped =>
    refine ⟨history ++ [.step thread choice], Machine.run_trans reached ?_⟩
    simpa [interleaving] using stepped

/-- A task is only taken after the earlier tasks that are related to it have returned. -/
def TakenApart (related : Task → Task → Prop) (pool : Pool Op Result State α Task)
    (move : PoolMove Task Choice) : Prop :=
  move = .take → ∀ task queue, pool.queue = task :: queue →
    ∀ (thread : Nat) (earlier : Task) (running : Program Op Result α),
      pool.taken[thread]? = some earlier → related earlier task →
        pool.threads.programs[thread]? = some running → running.Returned = true

/-- One worker takes a task when all earlier ones have returned. -/
theorem takenApart_of_one {related : Task → Task → Prop}
    (taken : (workerPool 1 serve program).step pool move = some next) :
    TakenApart related pool move := by
  intro same task queue first thread earlier running _ _ found
  subst same
  cases pool_step taken with
  | take _ _ _ free =>
    have idle : pool.busy = 0 := Nat.lt_one_iff.mp free
    simpa using List.countP_eq_zero.mp idle running (List.mem_of_getElem? found)

section Logs

variable {Entry : Type s} {log : State → List Entry} {owner : Entry → Nat}

/-- A call of a thread only adds entries of its own to the log. -/
def Logs (serve : Serve Op Result State Choice) (log : State → List Entry)
    (owner : Entry → Nat) : Prop :=
  ∀ state thread op choice answer after, serve state thread op choice = some (answer, after) →
    ∃ added, log after = log state ++ added ∧ ∀ entry ∈ added, owner entry = thread

/-- No entry of the second thread comes before one of the first. -/
def Precedes (owner : Entry → Nat) (first second : Nat) (entries : List Entry) : Prop :=
  entries.Pairwise fun early late => owner early = second → owner late ≠ first

/-- The entries are those of started threads, and a thread has returned when a later one
that is related to it is started. -/
structure Apart (related : Task → Task → Prop) (log : State → List Entry) (owner : Entry → Nat)
    (pool : Pool Op Result State α Task) : Prop where
  numbered : pool.taken.length = pool.threads.programs.length
  started : ∀ entry ∈ log pool.threads.shared, owner entry < pool.taken.length
  returned : ∀ first second earlier later, first < second → pool.taken[first]? = some earlier →
    pool.taken[second]? = some later → related earlier later →
      (∀ running, pool.threads.programs[first]? = some running → running.Returned = true) ∧
        Precedes owner first second (log pool.threads.shared)

variable {related : Task → Task → Prop}

theorem Apart.take (apart : Apart related log owner pool) {task : Task} {queue : List Task}
    (first : pool.queue = task :: queue) (met : TakenApart related pool (.take : PoolMove Task Choice)) :
    Apart related log owner
      { queue, taken := pool.taken ++ [task], threads :=
        { pool.threads with programs := pool.threads.programs ++ [program task] } } := by
  refine ⟨by simpa using apart.numbered, fun entry member => ?_, ?_⟩
  · have before := apart.started entry member
    simp only [List.length_append, List.length_singleton]
    omega
  · intro early late earlier later order earlyTaken lateTaken relates
    have within : early < pool.taken.length := by
      have bound := (List.getElem?_eq_some_iff.mp lateTaken).1
      simp only [List.length_append, List.length_singleton] at bound
      omega
    rw [List.getElem?_append_left within] at earlyTaken
    have keep : ∀ running, (pool.threads.programs ++ [program task])[early]? = some running →
        pool.threads.programs[early]? = some running := by
      intro running found
      rwa [List.getElem?_append_left (apart.numbered ▸ within)] at found
    rcases Nat.lt_or_ge late pool.taken.length with before | last
    · rw [List.getElem?_append_left before] at lateTaken
      obtain ⟨done, precedes⟩ := apart.returned early late earlier later order earlyTaken
        lateTaken relates
      exact ⟨fun running found => done running (keep running found), precedes⟩
    · obtain rfl : task = later := by
        rw [List.getElem?_append_right last] at lateTaken
        exact List.mem_singleton.mp (List.mem_of_getElem? lateTaken) |>.symm
      refine ⟨fun running found => met rfl task queue first early earlier running earlyTaken relates
        (keep running found), ?_⟩
      -- The thread that is started now has no entries yet.
      apply List.pairwise_of_forall_mem_list
      intro entry member _ _ same
      have started := apart.started entry member
      omega

theorem Apart.step (apart : Apart related log owner pool) (logs : Logs serve log owner)
    {thread : Nat} {choice : Choice} {threads : Threads Op Result State α}
    (taken : (interleaving serve program).step pool.threads (.step thread choice) = some threads) :
    Apart related log owner { pool with threads } := by
  obtain ⟨op, rest, answer, found, served, replaced⟩ := interleaving_step taken
  obtain ⟨added, appended, own⟩ := logs _ _ _ _ _ _ served
  have within : thread < pool.threads.programs.length := (List.getElem?_eq_some_iff.mp found).1
  refine ⟨by simpa [replaced] using apart.numbered, fun entry member => ?_, ?_⟩
  · rw [appended] at member
    rcases List.mem_append.mp member with before | new
    · exact apart.started entry before
    · exact own entry new ▸ apart.numbered ▸ within
  · intro early late earlier later order earlyTaken lateTaken relates
    obtain ⟨done, precedes⟩ := apart.returned early late earlier later order earlyTaken lateTaken
      relates
    -- A thread that makes a call has not returned.
    have other : thread ≠ early := fun same => by
      subst same
      exact absurd (done _ found) nofun
    constructor
    · intro running there
      rw [replaced, List.getElem?_set_ne other] at there
      exact done running there
    · rw [appended]
      refine List.pairwise_append.mpr ⟨precedes, ?_, ?_⟩
      · exact List.pairwise_of_forall_mem_list fun _ _ entry member _ => own entry member ▸ other
      · exact fun _ _ entry member _ => own entry member ▸ other

/-- When no task is taken before the earlier ones it is related to have returned, their
entries of the log are in the order in which the tasks were taken. -/
theorem apart_of_run (logs : Logs serve log owner) (fresh : start.taken = [])
    (idle : start.threads.programs = []) (empty : log start.threads.shared = [])
    (ran : (workerPool workers serve program).run start moves = some final)
    (met : (workerPool workers serve program).Allowed (fun _ => TakenApart related) start moves) :
    Apart related log owner final := by
  refine Machine.run_induction_allowed (motive := fun _ => Apart related log owner) ran met ?_ ?_
  · exact ⟨by simp [fresh, idle], by simp [empty], by simp [fresh]⟩
  · intro past pool move next _ apart apartly taken
    cases pool_step taken with
    | submit task => exact ⟨apart.numbered, apart.started, apart.returned⟩
    | take task queue first free => exact apart.take first apartly
    | step thread choice threads stepped => exact apart.step logs stepped

end Logs

end WorkerPool

end TinyChat.Effect
