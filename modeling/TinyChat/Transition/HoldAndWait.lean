import TinyChat.Transition.Machine
import TinyChat.Transition.Processes

/-! Workers that take tasks from one queue and run them over one counting semaphore.
A worker that finds no permit waits and keeps the permits it holds, so the workers
can wait for each other. -/
namespace TinyChat.Transition.HoldAndWait

inductive Demand where
  | acquire
  | release
  deriving DecidableEq

inductive Worker where
  | idle
  | running (held : Nat) (rest : List Demand)
  /-- Inside an acquisition that did not succeed at once. -/
  | waiting (held : Nat) (rest : List Demand)
  deriving DecidableEq

structure Shop where
  permits : Nat
  queue : List (List Demand)
  workers : List Worker

inductive Event where
  | take
  | tryAcquire (acquired : Bool)
  | acquire
  | release
  | finish

/-- One step of a worker with the permits and the queue it finds. -/
def work (permits : Nat) (queue : List (List Demand)) :
    Worker → Event → Option (Nat × List (List Demand) × Worker)
  | .idle, .take =>
    match queue with
    | [] => none
    | task :: others => some (permits, others, .running 0 task)
  | .running held (.acquire :: rest), .tryAcquire true =>
    if 0 < permits then some (permits - 1, queue, .running (held + 1) rest) else none
  | .running held (.acquire :: rest), .tryAcquire false => some (permits, queue, .waiting held rest)
  | .waiting held rest, .acquire =>
    if 0 < permits then some (permits - 1, queue, .running (held + 1) rest) else none
  | .running (held + 1) (.release :: rest), .release =>
    some (permits + 1, queue, .running held rest)
  | .running _ [], .finish => some (permits, queue, .idle)
  | _, _ => none

def step (shop : Shop) (action : Nat × Event) : Option Shop :=
  shop.workers[action.1]?.bind fun worker =>
    (work shop.permits shop.queue worker action.2).map fun (permits, queue, next) =>
      { permits, queue, workers := shop.workers.set action.1 next }

def machine : Machine Shop (Nat × Event) := ⟨step⟩

/-- All workers idle over full queue and semaphore. -/
def start (permits number : Nat) (tasks : List (List Demand)) : Shop :=
  { permits, queue := tasks, workers := List.replicate number .idle }

/-- Everything a worker can do. -/
inductive Works (permits : Nat) (queue : List (List Demand)) :
    Worker → Event → Nat → List (List Demand) → Worker → Prop where
  | take (task : List Demand) (others : List (List Demand)) (front : queue = task :: others) :
      Works permits queue .idle .take permits others (.running 0 task)
  | tried (held : Nat) (rest : List Demand) (free : 0 < permits) :
      Works permits queue (.running held (.acquire :: rest)) (.tryAcquire true) (permits - 1) queue
        (.running (held + 1) rest)
  | busy (held : Nat) (rest : List Demand) :
      Works permits queue (.running held (.acquire :: rest)) (.tryAcquire false) permits queue
        (.waiting held rest)
  | acquired (held : Nat) (rest : List Demand) (free : 0 < permits) :
      Works permits queue (.waiting held rest) .acquire (permits - 1) queue
        (.running (held + 1) rest)
  | released (held : Nat) (rest : List Demand) :
      Works permits queue (.running (held + 1) (.release :: rest)) .release (permits + 1) queue
        (.running held rest)
  | finished (held : Nat) : Works permits queue (.running held []) .finish permits queue .idle

theorem works_of_work {permits left : Nat} {queue others : List (List Demand)}
    {worker next : Worker} {event : Event}
    (worked : work permits queue worker event = some (left, others, next)) :
    Works permits queue worker event left others next := by
  unfold work at worked
  split at worked
  · split at worked
    · cases worked
    · cases worked
      exact .take _ _ rfl
  · split at worked
    · rename_i free
      cases worked
      exact .tried _ _ free
    · cases worked
  · cases worked
    exact .busy _ _
  · split at worked
    · rename_i free
      cases worked
      exact .acquired _ _ free
    · cases worked
  · cases worked
    exact .released _ _
  · cases worked
    exact .finished _
  · cases worked

theorem step_cases {shop next : Shop} {action : Nat × Event}
    (taken : machine.step shop action = some next) :
    ∃ worker moved, shop.workers[action.1]? = some worker ∧
      Works shop.permits shop.queue worker action.2 next.permits next.queue moved ∧
      next.workers = shop.workers.set action.1 moved := by
  obtain ⟨worker, found, inside⟩ := Option.bind_eq_some_iff.mp taken
  obtain ⟨⟨permits, queue, moved⟩, worked, same⟩ := Option.map_eq_some_iff.mp inside
  subst same
  exact ⟨worker, moved, found, works_of_work worked, rfl⟩

/-- Whether a script releases what it acquires, from the permits held before it. -/
def balanced : Nat → List Demand → Bool
  | held, [] => held == 0
  | held, .acquire :: rest => balanced (held + 1) rest
  | 0, .release :: _ => false
  | held + 1, .release :: rest => balanced held rest

/-- The most permits a script holds while it asks for another one. -/
def hold : Nat → List Demand → Nat
  | _, [] => 0
  | held, .acquire :: rest => max held (hold (held + 1) rest)
  | held, .release :: rest => hold (held - 1) rest

namespace Worker

def held : Worker → Nat
  | .idle => 0
  | .running held _ => held
  | .waiting held _ => held

def balanced : Worker → Bool
  | .idle => true
  | .running held rest => HoldAndWait.balanced held rest
  | .waiting held rest => HoldAndWait.balanced (held + 1) rest

def hold : Worker → Nat
  | .idle => 0
  | .running held rest => HoldAndWait.hold held rest
  | .waiting held rest => HoldAndWait.hold held (.acquire :: rest)

/-- The steps of a worker until it is idle again. -/
def size : Worker → Nat
  | .idle => 0
  | .running _ rest => 2 * rest.length + 1
  | .waiting _ rest => 2 * rest.length + 2

end Worker

/-- Every step keeps the number of permits, the balance of the script and the most
that the tasks hold while they wait. -/
structure Sound (permits number total most : Nat) (shop : Shop) : Prop where
  conserved : shop.permits + weigh Worker.held shop.workers = permits
  number : shop.workers.length = number
  queueBalanced : ∀ task ∈ shop.queue, balanced 0 task = true
  balanced : ∀ worker ∈ shop.workers, worker.balanced = true
  total : weigh Worker.hold shop.workers + weigh (hold 0) shop.queue ≤ total
  queueMost : ∀ task ∈ shop.queue, hold 0 task ≤ most
  most : ∀ worker ∈ shop.workers, worker.hold ≤ most

variable {permits number total most : Nat} {shop next final : Shop}
variable {actions : List (Nat × Event)}

theorem Works.conserved {left : Nat} {queue others : List (List Demand)} {worker moved : Worker}
    {event : Event} (works : Works permits queue worker event left others moved)
    (balanced : worker.balanced = true) :
    left + moved.held = permits + worker.held := by
  cases works with
  | tried held rest free | acquired held rest free =>
    simp only [Worker.held]
    omega
  | released held rest =>
    simp only [Worker.held]
    omega
  | finished held =>
    have none : held = 0 := by simpa [Worker.balanced, HoldAndWait.balanced] using balanced
    simp [Worker.held, none]
  | _ => rfl

theorem Works.balanced {left : Nat} {queue others : List (List Demand)} {worker moved : Worker}
    {event : Event} (works : Works permits queue worker event left others moved)
    (balanced : worker.balanced = true)
    (queueBalanced : ∀ task ∈ queue, HoldAndWait.balanced 0 task = true) :
    moved.balanced = true := by
  cases works with
  | take task others front => exact queueBalanced task (by simp [front])
  | finished held => rfl
  | _ => exact balanced

/-- A worker asks for no more than it did, except for the task it takes. -/
theorem Works.hold {left : Nat} {queue others : List (List Demand)} {worker moved : Worker}
    {event : Event} (works : Works permits queue worker event left others moved) :
    others <:+ queue ∧
      moved.hold + weigh (HoldAndWait.hold 0) others ≤
        worker.hold + weigh (HoldAndWait.hold 0) queue ∧
      (moved.hold ≤ worker.hold ∨ ∃ task ∈ queue, moved.hold = HoldAndWait.hold 0 task) := by
  cases works with
  | take task others front =>
    subst front
    refine ⟨List.suffix_cons _ _, ?_, .inr ⟨task, by simp, rfl⟩⟩
    simp [Worker.hold]
  | tried held rest free | acquired held rest free =>
    have less : HoldAndWait.hold (held + 1) rest ≤ HoldAndWait.hold held (.acquire :: rest) :=
      Nat.le_max_right _ _
    exact ⟨List.suffix_refl _, Nat.add_le_add_right less _, .inl less⟩
  | _ => exact ⟨List.suffix_refl _, Nat.le_refl _, .inl (Nat.le_refl _)⟩

theorem Works.size {left : Nat} {queue others : List (List Demand)} {worker moved : Worker}
    {event : Event} (works : Works permits queue worker event left others moved) :
    moved.size + weigh (fun task => 2 * task.length + 2) others <
      worker.size + weigh (fun task => 2 * task.length + 2) queue := by
  cases works with
  | take task others front =>
    simp only [Worker.size, front, weigh_cons]
    omega
  | _ =>
    simp only [Worker.size, List.length_cons]
    omega

theorem Sound.step (sound : Sound permits number total most shop) {action : Nat × Event}
    (taken : machine.step shop action = some next) : Sound permits number total most next := by
  obtain ⟨worker, moved, found, works, workers⟩ := step_cases taken
  have member := List.mem_of_getElem? found
  have own := sound.balanced worker member
  obtain ⟨rest, less, bound⟩ := works.hold
  constructor
  · have before := sound.conserved
    have change := @weigh_set _ Worker.held _ _ _ moved found
    have step := works.conserved own
    rw [workers]
    omega
  · rw [workers, List.length_set]
    exact sound.number
  · exact fun task queued => sound.queueBalanced task (rest.subset queued)
  · rw [workers]
    exact forall_mem_set sound.balanced (works.balanced own sound.queueBalanced)
  · have before := sound.total
    have change := @weigh_set _ Worker.hold _ _ _ moved found
    rw [workers]
    omega
  · exact fun task queued => sound.queueMost task (rest.subset queued)
  · rw [workers]
    refine forall_mem_set sound.most ?_
    rcases bound with kept | ⟨task, queued, same⟩
    · exact Nat.le_trans kept (sound.most worker member)
    · exact same ▸ sound.queueMost task queued

theorem sound_start (tasks : List (List Demand)) (most : Nat)
    (scripts : ∀ task ∈ tasks, balanced 0 task = true) (bound : ∀ task ∈ tasks, hold 0 task ≤ most) :
    Sound permits number (weigh (hold 0) tasks) most (start permits number tasks) := by
  constructor
  · simp [start, Worker.held]
  · simp [start]
  · exact scripts
  · intro worker member
    rw [List.eq_of_mem_replicate member]
    rfl
  · simp [start, Worker.hold]
  · exact bound
  · intro worker member
    rw [List.eq_of_mem_replicate member]
    exact Nat.zero_le _

/-- There is work left. -/
def Unfinished (shop : Shop) : Prop := shop.queue ≠ [] ∨ ∃ worker ∈ shop.workers, worker ≠ .idle

/-- Work is left, every worker that has a task waits for a permit, and nothing can
move. -/
structure Deadlocked (shop : Shop) : Prop where
  unfinished : Unfinished shop
  waits : ∀ worker ∈ shop.workers, worker = .idle ∨ ∃ held rest, worker = .waiting held rest
  halted : machine.Halted shop

/-- A worker that cannot move is idle over an empty queue or waits without a permit. -/
theorem blocked_of_halted (halted : machine.Halted shop) {index : Nat} {worker : Worker}
    (found : shop.workers[index]? = some worker) (balanced : worker.balanced = true) :
    worker = .idle ∧ shop.queue = [] ∨
      shop.permits = 0 ∧ ∃ held rest, worker = .waiting held rest := by
  have stuck (event : Event) : work shop.permits shop.queue worker event = none := by
    have none := halted (index, event)
    simpa [machine, HoldAndWait.step, found] using none
  cases worker with
  | idle =>
    refine .inl ⟨rfl, ?_⟩
    have empty := stuck .take
    cases queue : shop.queue with
    | nil => rfl
    | cons task others =>
      rw [queue] at empty
      cases empty
  | waiting held rest =>
    have taken := stuck .acquire
    simp only [work, ite_eq_right_iff, reduceCtorEq, imp_false] at taken
    exact .inr ⟨by omega, held, rest, rfl⟩
  | running held rest =>
    -- A balanced script never releases more than it holds.
    match held, rest with
    | held, [] => cases stuck .finish
    | held, .acquire :: rest => cases stuck (.tryAcquire false)
    | 0, .release :: rest => cases balanced
    | held + 1, .release :: rest => cases stuck .release

/-- When nothing can move and work is left, the workers hold all permits while they
wait. -/
theorem Sound.deadlocked (sound : Sound permits number total most shop) (staffed : 0 < number)
    (unfinished : Unfinished shop) (halted : machine.Halted shop) :
    Deadlocked shop ∧ shop.permits = 0 := by
  have blocked {worker : Worker} (member : worker ∈ shop.workers) :
      worker = .idle ∧ shop.queue = [] ∨
        shop.permits = 0 ∧ ∃ held rest, worker = .waiting held rest := by
    obtain ⟨index, found⟩ := List.mem_iff_getElem?.mp member
    exact blocked_of_halted halted found (sound.balanced worker member)
  obtain ⟨worker, member, busy⟩ : ∃ worker ∈ shop.workers, ¬ (worker = .idle ∧ shop.queue = []) := by
    rcases unfinished with queued | ⟨worker, member, busy⟩
    · obtain ⟨worker, member⟩ := List.exists_mem_of_length_pos (sound.number ▸ staffed)
      exact ⟨worker, member, fun idle => queued idle.2⟩
    · exact ⟨worker, member, fun idle => busy idle.1⟩
  refine ⟨⟨unfinished, fun other found => ?_, halted⟩, ?_⟩
  · rcases blocked found with idle | waits
    · exact .inl idle.1
    · exact .inr waits.2
  · rcases blocked member with idle | waits
    · exact absurd idle busy
    · exact waits.1

/-- A deadlock needs tasks and workers that hold all permits while they ask for more. -/
theorem Sound.permits_le_of_deadlocked (sound : Sound permits number total most shop)
    (staffed : 0 < number) (dead : Deadlocked shop) : permits ≤ total ∧ permits ≤ number * most := by
  have none := (sound.deadlocked staffed dead.unfinished dead.halted).2
  have held : weigh Worker.held shop.workers ≤ weigh Worker.hold shop.workers := by
    refine weigh_le_weigh fun worker member => ?_
    rcases dead.waits worker member with same | ⟨held, rest, same⟩ <;> subst same
    · exact Nat.le_refl _
    · exact Nat.le_max_left _ _
  have bound : weigh Worker.hold shop.workers ≤ number * most := by
    rw [← sound.number]
    exact weigh_le_length_mul sound.most
  have conserved := sound.conserved
  have total := sound.total
  omega

/-- No interleaving deadlocks when the permits outnumber what all tasks, or what all
workers, can hold while they ask for more. -/
theorem deadlock_free {tasks : List (List Demand)}
    (scripts : ∀ task ∈ tasks, balanced 0 task = true) (bound : ∀ task ∈ tasks, hold 0 task ≤ most)
    (staffed : 0 < number) (enough : weigh (hold 0) tasks < permits ∨ number * most < permits)
    (ran : machine.run (start permits number tasks) actions = some final) : ¬ Deadlocked final := by
  intro dead
  have sound : Sound permits number (weigh (hold 0) tasks) most final :=
    machine.invariant ran (sound_start tasks most scripts bound) fun _ _ _ sound taken =>
      sound.step taken
  obtain ⟨byTasks, byWorkers⟩ := sound.permits_le_of_deadlocked staffed dead
  omega

/-- The steps that are left. -/
def size (shop : Shop) : Nat :=
  weigh Worker.size shop.workers + weigh (fun task => 2 * task.length + 2) shop.queue

theorem size_decreases {action : Nat × Event} (taken : machine.step shop action = some next) :
    size next < size shop := by
  obtain ⟨index, event⟩ := action
  obtain ⟨worker, moved, found, works, workers⟩ := step_cases taken
  have change := @weigh_set _ Worker.size _ _ _ moved found
  have shrinks := works.size
  unfold size
  rw [workers]
  omega

/-- Every run can be continued until nothing can move. -/
theorem runs_halt (shop : Shop) :
    ∃ actions final, machine.run shop actions = some final ∧ machine.Halted final :=
  Machine.exists_halted (fun _ _ _ taken => size_decreases taken) shop

/-- The next thing the worker needs is a permit. -/
def Worker.asks : Worker → Bool
  | .running _ (.acquire :: _) => true
  | .waiting _ _ => true
  | _ => false

/-- No permit is free and whoever holds one asks for another. -/
structure Jammed (shop : Shop) : Prop where
  empty : shop.permits = 0
  asking : ∀ worker ∈ shop.workers, 0 < worker.held → worker.asks = true

theorem Jammed.step (jammed : Jammed shop) {action : Nat × Event}
    (taken : machine.step shop action = some next) : Jammed next := by
  obtain ⟨index, event⟩ := action
  obtain ⟨left, others, employees⟩ := next
  obtain ⟨worker, moved, found, works, workers⟩ := step_cases taken
  have asking := jammed.asking worker (List.mem_of_getElem? found)
  have empty := jammed.empty
  simp only at works workers
  subst workers
  cases works with
  | tried held rest free | acquired held rest free => omega
  | released held rest => cases asking (Nat.succ_pos held)
  | take task others front =>
    exact ⟨empty, forall_mem_set jammed.asking fun held => absurd held (Nat.lt_irrefl 0)⟩
  | busy held rest => exact ⟨empty, forall_mem_set jammed.asking fun _ => rfl⟩
  | finished held =>
    exact ⟨empty, forall_mem_set jammed.asking fun held => absurd held (Nat.lt_irrefl 0)⟩

/-- From a jam every way to go on ends in a deadlock. -/
theorem Sound.deadlock_of_jammed (sound : Sound permits number total most shop)
    (staffed : 0 < number) (positive : 0 < permits) (jammed : Jammed shop) :
    ∃ actions final, machine.run shop actions = some final ∧ Deadlocked final := by
  obtain ⟨actions, final, ran, halted⟩ := runs_halt shop
  obtain ⟨soundly, stuck⟩ := machine.invariant
    (motive := fun shop => Sound permits number total most shop ∧ Jammed shop) ran ⟨sound, jammed⟩
    fun _ _ _ ⟨sound, jammed⟩ taken => ⟨sound.step taken, jammed.step taken⟩
  obtain ⟨worker, member, holding⟩ : ∃ worker ∈ final.workers, 0 < worker.held := by
    have conserved := soundly.conserved
    rw [stuck.empty] at conserved
    exact weigh_pos_iff.mp (by omega)
  have busy : worker ≠ .idle := fun same => by
    subst same
    exact absurd holding (Nat.lt_irrefl 0)
  exact ⟨actions, final, ran, (soundly.deadlocked staffed (.inr ⟨worker, member, busy⟩) halted).1⟩

theorem step_between (permits : Nat) (queue : List (List Demand)) (before after : List Worker)
    (worker : Worker) (event : Event) :
    machine.step ⟨permits, queue, before ++ worker :: after⟩ (before.length, event) =
      (work permits queue worker event).map fun (permits, queue, next) =>
        ⟨permits, queue, before ++ next :: after⟩ := by
  simp [machine, HoldAndWait.step]

end TinyChat.Transition.HoldAndWait
