import TinyChat.Pool.ThreadPool

namespace TinyChat.Pool

open TinyChat.Transition

namespace ThreadPool

variable {pool next : ThreadPool} {action : PoolAction} {call worker other task : Nat}

theorem setWorker_same {old new : Worker} (found : pool.workers[worker]? = some old) :
    (pool.setWorker worker new).workers[worker]? = some new := by
  simp [setWorker, (List.getElem?_eq_some_iff.mp found).1]

theorem setWorker_other {new : Worker} (different : other ≠ worker) :
    (pool.setWorker worker new).workers[other]? = pool.workers[other]? := by
  simp [setWorker, different.symm]

theorem setCall_same {old new : AddTask} (found : pool.calls[call]? = some old) :
    (pool.setCall call new).calls[call]? = some new := by
  simp [setCall, (List.getElem?_eq_some_iff.mp found).1]

theorem setCall_other {new : AddTask} (different : other ≠ call) :
    (pool.setCall call new).calls[other]? = pool.calls[other]? := by
  simp [setCall, different.symm]

/-- The worker has the task in its hands. -/
def hands (pool : ThreadPool) (task worker : Nat) : Nat :=
  if pool.workers[worker]? = some (.running task) then 1 else 0

/-- A call whose task has been accepted. -/
def Accepted (pool : ThreadPool) (call : Nat) : Prop :=
  pool.calls[call]? = some .pushed ∨ pool.calls[call]? = some .returned

theorem hands_setWorker {old new : Worker} (found : pool.workers[worker]? = some old) :
    (pool.setWorker worker new).hands task other =
      if other = worker then if new = .running task then 1 else 0 else pool.hands task other := by
  unfold hands
  by_cases same : other = worker
  · subst same
    simp [setWorker_same found]
  · rw [setWorker_other same, if_neg same]

theorem hands_setWorker_idle {old new : Worker} (found : pool.workers[worker]? = some old)
    (idle : ∀ task, old ≠ .running task) (still : ∀ task, new ≠ .running task) :
    (pool.setWorker worker new).hands task other = pool.hands task other := by
  rw [hands_setWorker found]
  split
  · rename_i same
    simp [hands, same, found, idle, still]
  · rfl

/-- `notify_all` moves only the workers that are parked. -/
theorem getElem?_notified {state : Worker} (up : state ≠ .parked) (other : state ≠ .woken) :
    (pool.workers.map notified)[worker]? = some state ↔ pool.workers[worker]? = some state := by
  have moved (old : Worker) : notified old = state ↔ old = state := by
    cases old <;> simp [notified, up.symm, other.symm]
  simp [moved]

theorem hands_notifyAll : ThreadPool.hands { pool with workers := pool.workers.map notified } task worker =
    pool.hands task worker := by
  unfold hands
  simp only [getElem?_notified (by simp : Worker.running task ≠ .parked) (by simp)]

/-- Every accepted task is in the queue, in the hands of one worker, or has run. -/
structure Accounted (pool : ThreadPool) : Prop where
  order : pool.popped.map Prod.fst ++ pool.tasks = pool.pushed
  once : pool.pushed.Nodup
  accepted : ∀ call, call ∈ pool.pushed ↔ pool.Accepted call
  held : ∀ task worker,
    pool.popped.count (task, worker) = pool.ran.count (task, worker) + pool.hands task worker

theorem accepted_setCall {old new : AddTask} (found : pool.calls[call]? = some old)
    (same : (new = .pushed ∨ new = .returned) ↔ (old = .pushed ∨ old = .returned)) :
    (pool.setCall call new).Accepted other ↔ pool.Accepted other := by
  unfold Accepted
  by_cases own : other = call
  · subst own
    simpa [setCall_same found, found] using same
  · rw [setCall_other own]

theorem init_accounted (threadCount : Nat) : (init threadCount).Accounted := by
  refine ⟨rfl, List.nodup_nil, fun call => by simp [init, Accepted], fun task worker => ?_⟩
  simp [init, hands, List.getElem?_replicate]

theorem getElem?_called {state : AddTask} (begun : state ≠ .entering) :
    (pool.calls ++ [.entering])[call]? = some state ↔ pool.calls[call]? = some state := by
  rcases Nat.lt_or_ge call pool.calls.length with old | new
  · rw [List.getElem?_append_left old]
  · rw [List.getElem?_append_right new, List.getElem?_eq_none new]
    simp [List.getElem?_singleton, begun.symm]

theorem accepted_called : Accepted { pool with calls := pool.calls ++ [.entering] } call ↔
    pool.Accepted call :=
  or_congr (getElem?_called (by simp)) (getElem?_called (by simp))

theorem Accounted.push (accounted : pool.Accounted) (found : pool.calls[call]? = some .locked) :
    Accounted { pool.setCall call .pushed with
      queueMutex := none, tasks := pool.tasks ++ [call], pushed := pool.pushed ++ [call] } := by
  obtain ⟨order, once, accepted, held⟩ := accounted
  have fresh : call ∉ pool.pushed := fun member => by simpa [Accepted, found] using (accepted call).mp member
  refine ⟨?_, ?_, fun other => ?_, held⟩
  · simp [setCall, ← order]
  · exact List.nodup_append.mpr ⟨once, List.nodup_singleton call, by
      intro first member second last same
      rw [List.mem_singleton.mp last] at same
      exact fresh (same ▸ member)⟩
  · have states := accepted other
    by_cases own : other = call
    · subst own
      simp [Accepted, setCall, (List.getElem?_eq_some_iff.mp found).1]
    · simpa [Accepted, setCall, own, Ne.symm own] using states

theorem Accounted.pop {rest : List Nat} (accounted : pool.Accounted)
    (found : pool.workers[worker]? = some .checking) (waiting : pool.tasks = task :: rest) :
    Accounted { pool.setWorker worker (.running task) with
      queueMutex := none, tasks := rest, popped := pool.popped ++ [(task, worker)] } := by
  obtain ⟨order, once, accepted, held⟩ := accounted
  refine ⟨?_, once, accepted, fun other index => ?_⟩
  · rw [waiting] at order
    simpa [setWorker] using order
  · have before := held other index
    have after := @hands_setWorker pool worker index other _ (.running task) found
    change (pool.popped ++ [(task, worker)]).count (other, index) = pool.ran.count (other, index) +
      (pool.setWorker worker (.running task)).hands other index
    rw [after, List.count_append, before, List.count_singleton]
    by_cases own : index = worker
    · subst own
      simp [hands, found]
    · simp [own, Ne.symm own]

theorem Accounted.finish (accounted : pool.Accounted)
    (found : pool.workers[worker]? = some (.running task)) :
    Accounted { pool.setWorker worker .free with ran := pool.ran ++ [(task, worker)] } := by
  obtain ⟨order, once, accepted, held⟩ := accounted
  refine ⟨order, once, accepted, fun other index => ?_⟩
  have before := held other index
  have after := @hands_setWorker pool worker index other _ .free found
  change pool.popped.count (other, index) = (pool.ran ++ [(task, worker)]).count (other, index) +
    (pool.setWorker worker .free).hands other index
  rw [after, List.count_append, before, List.count_singleton]
  by_cases own : index = worker
  · subst own
    simp [hands, found]
  · simp [own, Ne.symm own]

/-- A change of a worker without a task to another place without one. -/
theorem Accounted.moveWorker {old new : Worker} (accounted : pool.Accounted)
    (found : pool.workers[worker]? = some old) (idle : ∀ task, old ≠ .running task)
    (still : ∀ task, new ≠ .running task) : (pool.setWorker worker new).Accounted :=
  ⟨accounted.order, accounted.once, accounted.accepted, fun task other =>
    (accounted.held task other).trans (by rw [hands_setWorker_idle found idle still]; rfl)⟩

theorem Accounted.moveCall {old new : AddTask} (accounted : pool.Accounted)
    (found : pool.calls[call]? = some old)
    (same : (new = .pushed ∨ new = .returned) ↔ (old = .pushed ∨ old = .returned)) :
    (pool.setCall call new).Accounted :=
  ⟨accounted.order, accounted.once,
    fun other => (accounted.accepted other).trans (accepted_setCall found same).symm, accounted.held⟩

theorem Accounted.congr {other : ThreadPool} (accounted : pool.Accounted)
    (tasks : other.tasks = pool.tasks) (workers : other.workers = pool.workers)
    (calls : other.calls = pool.calls) (pushed : other.pushed = pool.pushed)
    (popped : other.popped = pool.popped) (ran : other.ran = pool.ran) : other.Accounted := by
  obtain ⟨order, once, accepted, held⟩ := accounted
  constructor
  · rw [popped, tasks, pushed, order]
  · rwa [pushed]
  · simpa only [Accepted, pushed, calls] using accepted
  · simpa only [hands, popped, ran, workers] using held

theorem Accounted.step (accounted : pool.Accounted)
    (taken : machine.step pool action = some next) : next.Accounted := by
  cases steps_of_step taken with
  | called =>
    exact ⟨accounted.order, accounted.once,
      fun other => (accounted.accepted other).trans accepted_called.symm, accounted.held⟩
  | lockedCall call found unlocked =>
    have moved : (pool.setCall call .locked).Accounted := accounted.moveCall found (by simp)
    exact moved.congr rfl rfl rfl rfl rfl rfl
  | refused call found stopped =>
    have moved : (pool.setCall call .thrown).Accounted := accounted.moveCall found (by simp)
    exact moved.congr rfl rfl rfl rfl rfl rfl
  | pushed call found accepting => exact accounted.push found
  | notifiedOne call worker found waiting =>
    have moved : (pool.setCall call .returned).Accounted := accounted.moveCall found (by simp)
    exact moved.moveWorker waiting (by simp) (by simp)
  | notifiedNone call found unparked => exact accounted.moveCall found (by simp)
  | lockedWorker worker old found ready unlocked =>
    have moved : (pool.setWorker worker .checking).Accounted := accounted.moveWorker found
      (by rcases ready with rfl | rfl <;> simp) (by simp)
    exact moved.congr rfl rfl rfl rfl rfl rfl
  | left worker found empty stopped =>
    have moved : (pool.setWorker worker .exited).Accounted :=
      accounted.moveWorker found (by simp) (by simp)
    exact moved.congr rfl rfl rfl rfl rfl rfl
  | waited worker found empty accepting =>
    have moved : (pool.setWorker worker .parked).Accounted :=
      accounted.moveWorker found (by simp) (by simp)
    exact moved.congr rfl rfl rfl rfl rfl rfl
  | popped worker task rest found waiting => exact accounted.pop found waiting
  | woke worker found => exact accounted.moveWorker found (by simp) (by simp)
  | ran worker task found => exact accounted.finish found
  | destroying | lockedDestructor | stopping => exact accounted.congr rfl rfl rfl rfl rfl rfl
  | notifiedAll now =>
    exact ⟨accounted.order, accounted.once, accounted.accepted, fun task worker =>
      (accounted.held task worker).trans (by rw [← hands_notifyAll]; rfl)⟩

/-- The thread is between taking and releasing the mutex. -/
def Holds (pool : ThreadPool) : Owner → Prop
  | .addTask call => pool.calls[call]? = some .locked
  | .worker worker => pool.workers[worker]? = some .checking
  | .destructor => pool.destructor = .locked

/-- A notification is still to come: a task has been pushed or `stop` set. -/
def Notifying (pool : ThreadPool) : Prop :=
  (∃ call : Nat, pool.calls[call]? = some .pushed) ∨ pool.destructor = .stopped

/-- Some worker is not parked. -/
def Awake (pool : ThreadPool) : Prop :=
  ∃ (worker : Nat) (state : Worker), pool.workers[worker]? = some state ∧ state ≠ .parked

/-- The owner of the mutex, and nobody else, is where it can release it; workers leave an
empty queue after `stop`; while tasks wait a worker is awake or will be notified. -/
structure Monitored (pool : ThreadPool) : Prop where
  workers : pool.workers ≠ []
  mutex : ∀ owner, pool.Holds owner ↔ pool.queueMutex = some owner
  exited : ∀ worker : Nat, pool.workers[worker]? = some .exited → pool.stop = true ∧ pool.tasks = []
  served : pool.tasks ≠ [] → pool.Awake ∨ pool.Notifying

theorem init_monitored {threadCount : Nat} (positive : 0 < threadCount) :
    (init threadCount).Monitored := by
  refine ⟨?_, fun owner => ?_, ?_, fun waiting => absurd rfl waiting⟩
  · simpa [init, ← Nat.pos_iff_ne_zero] using positive
  · cases owner <;> simp [Holds, init, List.getElem?_replicate]
  · intro worker found
    simp [init, List.getElem?_replicate] at found

theorem holds_setCall {owner : Owner} {old new : AddTask} (found : pool.calls[call]? = some old) :
    (pool.setCall call new).Holds owner ↔
      if owner = .addTask call then new = .locked else pool.Holds owner := by
  cases owner with
  | addTask other =>
    by_cases own : other = call
    · subst own
      simp [Holds, setCall_same found]
    · simp [Holds, setCall_other own, own]
  | worker | destructor => simp [Holds, setCall]

theorem holds_setWorker {owner : Owner} {old new : Worker}
    (found : pool.workers[worker]? = some old) : (pool.setWorker worker new).Holds owner ↔
      if owner = .worker worker then new = .checking else pool.Holds owner := by
  cases owner with
  | worker other =>
    by_cases own : other = worker
    · subst own
      simp [Holds, setWorker_same found]
    · simp [Holds, setWorker_other own, own]
  | addTask | destructor => simp [Holds, setWorker]

theorem mutex_acquired {mutex : Option Owner} {before : Owner → Prop} {taker : Owner}
    (held : ∀ owner, before owner ↔ mutex = some owner) (unlocked : mutex = none) (owner : Owner) :
    (if owner = taker then True else before owner) ↔ some taker = some owner := by
  by_cases own : owner = taker
  · simp [own]
  · simp [own, held, unlocked, Ne.symm own]

theorem mutex_released {mutex : Option Owner} {before : Owner → Prop} {releaser : Owner}
    (held : ∀ owner, before owner ↔ mutex = some owner) (holds : before releaser) (owner : Owner) :
    (if owner = releaser then False else before owner) ↔ none = some owner := by
  by_cases own : owner = releaser
  · simp [own]
  · have same := (held releaser).mp holds
    simp [own, held, same, Ne.symm own]

theorem awake_setWorker {old new : Worker} (found : pool.workers[worker]? = some old)
    (up : new ≠ .parked) : (pool.setWorker worker new).Awake :=
  ⟨worker, new, setWorker_same found, up⟩

theorem notifying_setCall {old new : AddTask} (found : pool.calls[call]? = some old)
    (other : old ≠ .pushed) (notifying : pool.Notifying) : (pool.setCall call new).Notifying := by
  refine notifying.imp_left fun ⟨index, pending⟩ => ⟨index, ?_⟩
  rwa [setCall_other]
  intro same
  subst same
  exact other (Option.some.inj (found.symm.trans pending))

theorem setWorker_ne_nil {new : Worker} (workers : pool.workers ≠ []) :
    (pool.setWorker worker new).workers ≠ [] := by
  simpa [setWorker] using workers

/-- Only a worker that leaves now can be new among those that have left. -/
theorem exited_of_setWorker {old new : Worker} (found : pool.workers[worker]? = some old)
    (stays : new ≠ .exited) {index : Nat}
    (gone : (pool.setWorker worker new).workers[index]? = some .exited) :
    pool.workers[index]? = some .exited := by
  by_cases own : index = worker
  · subst own
    rw [setWorker_same found] at gone
    exact absurd (Option.some.inj gone) stays
  · rwa [setWorker_other own] at gone

theorem holds_setCall_idle {owner : Owner} {old new : AddTask} (found : pool.calls[call]? = some old)
    (without : old ≠ .locked) (still : new ≠ .locked) :
    (pool.setCall call new).Holds owner ↔ pool.Holds owner := by
  rw [holds_setCall found]
  split
  · rename_i same
    simp [same, Holds, found, without, still]
  · rfl

theorem holds_setWorker_idle {owner : Owner} {old new : Worker}
    (found : pool.workers[worker]? = some old) (without : old ≠ .checking)
    (still : new ≠ .checking) : (pool.setWorker worker new).Holds owner ↔ pool.Holds owner := by
  rw [holds_setWorker found]
  split
  · rename_i same
    simp [same, Holds, found, without, still]
  · rfl

/-- The mutex changes hands only where the source takes and releases it. -/
theorem mutex_step (mutex : ∀ owner, pool.Holds owner ↔ pool.queueMutex = some owner)
    (taken : machine.step pool action = some next) (owner : Owner) :
    next.Holds owner ↔ next.queueMutex = some owner := by
  cases steps_of_step taken with
  | called =>
    rw [← mutex owner]
    cases owner with
    | addTask call => exact getElem?_called (by simp)
    | worker | destructor => rfl
  | lockedCall call found unlocked =>
    have holds := @holds_setCall pool call owner _ .locked found
    exact holds.trans (by simpa using mutex_acquired mutex unlocked owner)
  | refused call found stopped =>
    have holds := @holds_setCall pool call owner _ .thrown found
    exact holds.trans (by simpa using @mutex_released _ _ (.addTask call) mutex found owner)
  | pushed call found accepting =>
    have holds := @holds_setCall pool call owner _ .pushed found
    exact holds.trans (by simpa using @mutex_released _ _ (.addTask call) mutex found owner)
  | notifiedOne call worker found waiting =>
    have called : (pool.setCall call .returned).Holds owner ↔ pool.Holds owner :=
      holds_setCall_idle found (by simp) (by simp)
    have moved := @holds_setWorker_idle (pool.setCall call .returned) worker owner .parked .woken
      waiting (by simp) (by simp)
    exact (moved.trans called).trans (mutex owner)
  | notifiedNone call found unparked =>
    have called : (pool.setCall call .returned).Holds owner ↔ pool.Holds owner :=
      holds_setCall_idle found (by simp) (by simp)
    exact called.trans (mutex owner)
  | lockedWorker worker old found ready unlocked =>
    have holds := @holds_setWorker pool worker owner _ .checking found
    exact holds.trans (by simpa using mutex_acquired mutex unlocked owner)
  | left worker found empty stopped =>
    have holds := @holds_setWorker pool worker owner _ .exited found
    exact holds.trans (by simpa using @mutex_released _ _ (.worker worker) mutex found owner)
  | waited worker found empty accepting =>
    have holds := @holds_setWorker pool worker owner _ .parked found
    exact holds.trans (by simpa using @mutex_released _ _ (.worker worker) mutex found owner)
  | popped worker task rest found waiting =>
    have holds := @holds_setWorker pool worker owner _ (.running task) found
    exact holds.trans (by simpa using @mutex_released _ _ (.worker worker) mutex found owner)
  | woke worker found =>
    have moved : (pool.setWorker worker .woken).Holds owner ↔ pool.Holds owner :=
      holds_setWorker_idle found (by simp) (by simp)
    exact moved.trans (mutex owner)
  | ran worker task found =>
    have moved : (pool.setWorker worker .free).Holds owner ↔ pool.Holds owner :=
      holds_setWorker_idle found (by simp) (by simp)
    exact moved.trans (mutex owner)
  | destroying now =>
    rw [← mutex owner]
    cases owner <;> simp [Holds, now]
  | lockedDestructor now unlocked =>
    have taken := @mutex_acquired _ _ .destructor mutex unlocked owner
    rw [← taken]
    cases owner <;> simp [Holds]
  | stopping now =>
    have released := @mutex_released _ _ .destructor mutex now owner
    rw [← released]
    cases owner <;> simp [Holds]
  | notifiedAll now =>
    rw [← mutex owner]
    cases owner with
    | addTask => rfl
    | worker => exact getElem?_notified (by simp) (by simp)
    | destructor => simp [Holds, now]

/-- A worker only leaves an empty queue after `stop`, and then the queue stays empty. -/
theorem exited_step
    (exited : ∀ worker : Nat, pool.workers[worker]? = some .exited → pool.stop = true ∧ pool.tasks = [])
    (taken : machine.step pool action = some next) (worker : Nat)
    (gone : next.workers[worker]? = some .exited) : next.stop = true ∧ next.tasks = [] := by
  cases steps_of_step taken with
  | called | lockedCall | refused | notifiedNone | destroying | lockedDestructor =>
    exact exited worker gone
  | pushed call found accepting =>
    -- Before `stop` no worker has left.
    have stopped := (exited worker gone).1
    rw [accepting] at stopped
    cases stopped
  | notifiedOne call other found waiting =>
    exact exited worker (exited_of_setWorker waiting (by simp) gone)
  | lockedWorker other old found ready unlocked =>
    exact exited worker (exited_of_setWorker found (by simp) gone)
  | left other found empty stopped => exact ⟨stopped, empty⟩
  | waited other found empty accepting =>
    exact exited worker (exited_of_setWorker found (by simp) gone)
  | popped other task rest found waiting =>
    have emptied := (exited worker (exited_of_setWorker found (by simp) gone)).2
    rw [waiting] at emptied
    cases emptied
  | woke other found | ran other task found =>
    exact exited worker (exited_of_setWorker found (by simp) gone)
  | stopping now => exact ⟨rfl, (exited worker gone).2⟩
  | notifiedAll now => exact exited worker ((getElem?_notified (by simp) (by simp)).mp gone)

theorem exists_worker (workers : pool.workers ≠ []) :
    ∃ (worker : Nat) (state : Worker), pool.workers[worker]? = some state ∧ state ∈ pool.workers := by
  obtain ⟨state, member⟩ := List.exists_mem_of_ne_nil _ workers
  obtain ⟨worker, there⟩ := List.getElem?_of_mem member
  exact ⟨worker, state, there, member⟩

/-- Whoever parks has found the queue empty, and whoever fills it notifies a worker. -/
theorem served_step (workers : pool.workers ≠ [])
    (served : pool.tasks ≠ [] → pool.Awake ∨ pool.Notifying)
    (taken : machine.step pool action = some next) (waiting : next.tasks ≠ []) :
    next.Awake ∨ next.Notifying := by
  cases steps_of_step taken with
  | called =>
    exact (served waiting).imp_right (.imp_left fun ⟨call, pending⟩ =>
      ⟨call, (getElem?_called (by simp)).mpr pending⟩)
  | lockedCall call found | refused call found =>
    exact (served waiting).imp_right (notifying_setCall found (by simp))
  | pushed call found accepting => exact .inr (.inl ⟨call, setCall_same found⟩)
  | notifiedOne call worker found parked => exact .inl (awake_setWorker parked (by simp))
  | notifiedNone call found unparked =>
    obtain ⟨worker, state, there, member⟩ := exists_worker workers
    exact .inl ⟨worker, state, there, fun parked => unparked (parked ▸ member)⟩
  | lockedWorker worker old found ready unlocked => exact .inl (awake_setWorker found (by simp))
  | left worker found empty | waited worker found empty => exact absurd empty waiting
  | popped worker task rest found first => exact .inl (awake_setWorker found (by simp))
  | woke worker found | ran worker task found => exact .inl (awake_setWorker found (by simp))
  | destroying now | lockedDestructor now =>
    exact (served waiting).imp_right (.imp_right fun stopped => by simp [now] at stopped)
  | stopping now => exact .inr (.inr rfl)
  | notifiedAll now =>
    obtain ⟨worker, state, there, _⟩ := exists_worker workers
    refine .inl ⟨worker, notified state, by simp [there], ?_⟩
    cases state <;> simp [notified]

theorem workers_step (workers : pool.workers ≠ []) (taken : machine.step pool action = some next) :
    next.workers ≠ [] := by
  cases steps_of_step taken with
  | called | lockedCall | refused | pushed | notifiedNone | destroying | lockedDestructor | stopping =>
    exact workers
  | notifiedOne | lockedWorker | left | waited | popped | woke | ran =>
    exact setWorker_ne_nil workers
  | notifiedAll now => simpa using workers

theorem Monitored.step (monitored : pool.Monitored)
    (taken : machine.step pool action = some next) : next.Monitored where
  workers := workers_step monitored.workers taken
  mutex := mutex_step monitored.mutex taken
  exited := exited_step monitored.exited taken
  served := served_step monitored.workers monitored.served taken

/-- After `stop` no task is accepted. -/
theorem pushed_of_stop (stopped : pool.stop = true)
    (taken : machine.step pool action = some next) :
    next.stop = true ∧ next.pushed = pool.pushed := by
  cases steps_of_step taken with
  | pushed call found accepting =>
    rw [stopped] at accepting
    cases accepting
  | stopping => exact ⟨rfl, rfl⟩
  | _ => exact ⟨stopped, rfl⟩

/-- How many steps a worker may still take before it is parked or has left. -/
def workerWork : Worker → Nat
  | .parked | .exited => 0
  | .checking => 1
  | .free | .woken => 2
  | .running _ => 3

/-- The steps of a call, those of the worker it wakes and those of its task. -/
def callWork : AddTask → Nat
  | .entering => 8
  | .locked => 7
  | .pushed => 3
  | .returned | .thrown => 0

/-- The steps of the destructor and those of the workers it wakes. -/
def destructorWork (workers : Nat) : Destructor → Nat
  | .notCalled | .joining => 0
  | .entering => 2 * workers + 3
  | .locked => 2 * workers + 2
  | .stopped => 2 * workers + 1

/-- A bound on the steps that what has begun can still take. -/
def work (pool : ThreadPool) : Nat :=
  weigh callWork pool.calls + weigh workerWork pool.workers + 3 * pool.tasks.length +
    destructorWork pool.workers.length pool.destructor

theorem work_setCall {old new : AddTask} (found : pool.calls[call]? = some old) :
    (pool.setCall call new).work + callWork old = pool.work + callWork new := by
  have moved := @weigh_set _ callWork pool.calls call old new found
  simp only [work, setCall]
  omega

theorem work_setWorker {old new : Worker} (found : pool.workers[worker]? = some old) :
    (pool.setWorker worker new).work + workerWork old = pool.work + workerWork new := by
  have moved := @weigh_set _ workerWork pool.workers worker old new found
  simp only [work, setWorker, List.length_set]
  omega

theorem weigh_notified (workers : List Worker) :
    weigh workerWork (workers.map notified) ≤ weigh workerWork workers + 2 * workers.length := by
  induction workers with
  | nil => simp
  | cons worker rest ih =>
    have one : workerWork (notified worker) ≤ workerWork worker + 2 := by
      cases worker <;> simp [notified, workerWork]
    simp only [List.map_cons, weigh_cons, List.length_cons]
    omega

theorem work_setCall_lt {call : Nat} {old new : AddTask} (found : pool.calls[call]? = some old)
    (less : callWork new < callWork old) : (pool.setCall call new).work < pool.work := by
  have moved := @work_setCall pool call _ new found
  omega

theorem work_setWorker_lt {worker : Nat} {old new : Worker} (found : pool.workers[worker]? = some old)
    (less : workerWork new < workerWork old) : (pool.setWorker worker new).work < pool.work := by
  have moved := @work_setWorker pool worker _ new found
  omega

/-- Every step of what has begun brings it nearer to its end. -/
theorem work_lt_of_own (own : action.Own) (taken : machine.step pool action = some next) :
    next.work < pool.work := by
  cases steps_of_step taken with
  | called | woke | destroying => exact absurd own id
  | lockedCall call found unlocked => exact work_setCall_lt found (by decide)
  | refused call found stopped => exact work_setCall_lt found (by decide)
  | pushed call found accepting =>
    -- The task in the queue is work for the worker that takes it.
    have less := @work_setCall pool call _ .pushed found
    simp only [callWork, work, setCall] at less
    simp only [work, setCall, List.length_append, List.length_singleton]
    omega
  | notifiedOne call worker found waiting =>
    have less := @work_setCall pool call _ .returned found
    have more := @work_setWorker (pool.setCall call .returned) worker _ .woken waiting
    simp only [callWork, workerWork] at less more
    omega
  | notifiedNone call found unparked => exact work_setCall_lt found (by decide)
  | lockedWorker worker old found ready unlocked =>
    refine work_setWorker_lt found ?_
    rcases ready with rfl | rfl <;> decide
  | left worker found empty stopped => exact work_setWorker_lt found (by decide)
  | waited worker found empty accepting => exact work_setWorker_lt found (by decide)
  | popped worker task rest found waiting =>
    have less := @work_setWorker pool worker _ (.running task) found
    simp only [workerWork, work, setWorker, waiting, List.length_cons] at less
    simp only [work, setWorker, waiting, List.length_cons]
    omega
  | ran worker task found => exact work_setWorker_lt found (Nat.lt_succ_self _)
  | lockedDestructor now unlocked | stopping now =>
    simp only [work, now, destructorWork]
    omega
  | notifiedAll now =>
    have more := weigh_notified pool.workers
    simp only [work, now, destructorWork]
    omega

/-- What has begun is done after that many steps. -/
theorem length_le_work {actions : List PoolAction} (ran : machine.run pool actions = some next)
    (own : ∀ action ∈ actions, action.Own) : actions.length ≤ pool.work := by
  induction actions generalizing pool with
  | nil => exact Nat.zero_le _
  | cons action rest ih =>
    obtain ⟨middle, taken, after⟩ := Option.bind_eq_some_iff.mp ran
    have shorter := ih after fun other member => own other (List.mem_cons_of_mem _ member)
    have less := work_lt_of_own (own action (by simp)) taken
    simp only [List.length_cons]
    omega

/-- Nothing that has begun can take a step. -/
def Quiet (pool : ThreadPool) : Prop :=
  ∀ action : PoolAction, action.Own → machine.step pool action = none

theorem Quiet.not_running (quiet : pool.Quiet) : pool.workers[worker]? ≠ some (.running task) := by
  intro found
  have stuck := quiet (.run worker) trivial
  simp [machine, step, found] at stuck

theorem Quiet.unlocked (quiet : pool.Quiet) (monitored : pool.Monitored) : pool.queueMutex = none := by
  cases locked : pool.queueMutex with
  | none => rfl
  | some owner =>
    have holds := (monitored.mutex owner).mpr locked
    cases owner with
    | addTask call =>
      have stuck := quiet (.push call) trivial
      simp [machine, step, show pool.calls[call]? = some .locked from holds] at stuck
    | worker worker =>
      have stuck := quiet (.check worker) trivial
      simp [machine, step, show pool.workers[worker]? = some .checking from holds] at stuck
    | destructor =>
      have stuck := quiet .setStop trivial
      simp [machine, step, show pool.destructor = .locked from holds] at stuck

theorem Quiet.not_notifying (quiet : pool.Quiet) : ¬ pool.Notifying := by
  rintro (⟨call, found⟩ | stopped)
  · by_cases parked : .parked ∈ pool.workers
    · obtain ⟨worker, there⟩ := List.getElem?_of_mem parked
      have stuck := quiet (.notifyOne call (some worker)) trivial
      simp [machine, step, found, there] at stuck
    · have stuck := quiet (.notifyOne call none) trivial
      simp [machine, step, found, parked] at stuck
  · have stuck := quiet .notifyAll trivial
    simp [machine, step, stopped] at stuck

/-- While tasks wait, something that has begun can take a step. -/
theorem Quiet.empty (quiet : pool.Quiet) (monitored : pool.Monitored) : pool.tasks = [] := by
  by_contra waiting
  have unlocked := quiet.unlocked monitored
  rcases monitored.served waiting with ⟨worker, state, found, up⟩ | notifying
  · cases state with
    | parked => exact up rfl
    | exited => exact waiting (monitored.exited worker found).2
    | running task => exact quiet.not_running found
    | checking =>
      have holds := (monitored.mutex (.worker worker)).mp found
      rw [unlocked] at holds
      cases holds
    | free | woken =>
      have stuck := quiet (.lockWorker worker) trivial
      simp [machine, step, found, unlocked] at stuck
  · exact quiet.not_notifying notifying

/-- The task has run once, on one worker. -/
def RanOnce (pool : ThreadPool) (call : Nat) : Prop :=
  ∃ worker, pool.ran.filter (fun run => run.1 = call) = [(call, worker)]

theorem filter_of_nodup {entries : List (Nat × Nat)} (once : (entries.map Prod.fst).Nodup)
    (member : call ∈ entries.map Prod.fst) :
    ∃ worker, entries.filter (fun run => run.1 = call) = [(call, worker)] := by
  induction entries with
  | nil => simp at member
  | cons entry rest ih =>
    rw [List.map_cons, List.nodup_cons] at once
    by_cases own : entry.1 = call
    · subst own
      refine ⟨entry.2, ?_⟩
      have others : rest.filter (fun run => run.1 = entry.1) = [] := by
        apply List.filter_eq_nil_iff.mpr
        intro run present same
        exact once.1 (List.mem_map.mpr ⟨run, present, by simpa using same⟩)
      simp [others]
    · obtain ⟨worker, only⟩ := ih once.2 (by simpa [Ne.symm own] using member)
      exact ⟨worker, by simp [own, only]⟩

/-- With an empty queue and no task in hand, every accepted task has run once. -/
theorem Accounted.ranOnce (accounted : pool.Accounted) (empty : pool.tasks = [])
    (idle : ∀ worker task : Nat, pool.workers[worker]? ≠ some (.running task))
    (accepted : pool.Accepted call) : pool.RanOnce call := by
  have all : pool.popped.map Prod.fst = pool.pushed := by simpa [empty] using accounted.order
  have member := (accounted.accepted call).mpr accepted
  obtain ⟨worker, only⟩ := @filter_of_nodup call pool.popped (all ▸ accounted.once) (all ▸ member)
  have same : pool.popped.Perm pool.ran := by
    refine List.perm_iff_count.mpr fun ⟨task, worker⟩ => ?_
    simpa [hands, idle worker task] using accounted.held task worker
  refine ⟨worker, List.perm_singleton.mp ?_⟩
  rw [← only]
  exact (same.filter _).symm

variable {threadCount : Nat} {actions : List PoolAction}

theorem accounted_of_run (ran : machine.run (init threadCount) actions = some pool) : pool.Accounted :=
  Machine.invariant ran (init_accounted threadCount) fun _ _ _ accounted taken => accounted.step taken

theorem monitored_of_run (positive : 0 < threadCount)
    (ran : machine.run (init threadCount) actions = some pool) : pool.Monitored :=
  Machine.invariant ran (init_monitored positive) fun _ _ _ monitored taken => monitored.step taken

/-- What the thread pool promises of the tasks it accepts. -/
structure Delivers (pool : ThreadPool) : Prop where
  /-- Tasks are popped in the order they were pushed. -/
  order : pool.popped.map Prod.fst ++ pool.tasks = pool.pushed
  once : ∀ call : Nat, pool.calls[call]? = some .returned → pool.pushed.count call = 1
  /-- A popped task is in the hands of the worker that popped it until that worker has run it. -/
  hands : ∀ task worker, pool.popped.count (task, worker) =
    pool.ran.count (task, worker) + pool.hands task worker
  closed : pool.stop = true → ∀ rest later, machine.run pool rest = some later →
    later.pushed = pool.pushed
  emptied : (∀ worker ∈ pool.workers, worker = .exited) → pool.tasks = []
  /-- No wake-up is lost. -/
  notified : pool.tasks ≠ [] → (∀ worker ∈ pool.workers, worker = .parked) → pool.Notifying
  delivered : (∀ worker ∈ pool.workers, worker = .exited) ∨ pool.Quiet →
    ∀ call : Nat, pool.calls[call]? = some .returned → pool.RanOnce call
  /-- What has begun goes on for so many steps at most. -/
  bounded : ∀ rest later, machine.run pool rest = some later → (∀ action ∈ rest, action.Own) →
    rest.length ≤ pool.work

/-- In every state of every interleaving of `addTask` calls, workers and the destructor:
every task whose `addTask` has returned was pushed once, is popped in the order of the
pushes and run once by the worker that popped it, at the latest when all workers have left
or nothing can go on; no task is accepted after `stop`, workers leave an empty queue, and
no wake-up is lost. -/
theorem thread_pool_delivers (positive : 0 < threadCount)
    (ran : machine.run (init threadCount) actions = some pool) : pool.Delivers := by
  have accounted := accounted_of_run ran
  have monitored := monitored_of_run positive ran
  have emptied (left : ∀ worker ∈ pool.workers, worker = .exited) : pool.tasks = [] := by
    obtain ⟨state, member⟩ := List.exists_mem_of_ne_nil _ monitored.workers
    obtain ⟨worker, there⟩ := List.getElem?_of_mem member
    exact (monitored.exited worker (left state member ▸ there)).2
  constructor
  · exact accounted.order
  · intro call returned
    exact List.count_eq_one_of_mem accounted.once ((accounted.accepted call).mpr (.inr returned))
  · exact accounted.held
  · intro stopped rest later ahead
    refine (Machine.invariant (motive := fun state => state.stop = true ∧
      state.pushed = pool.pushed) ahead ⟨stopped, rfl⟩ ?_).2
    rintro state action after ⟨still, same⟩ taken
    obtain ⟨kept, unchanged⟩ := pushed_of_stop still taken
    exact ⟨kept, unchanged.trans same⟩
  · exact emptied
  · intro waiting parked
    refine (monitored.served waiting).resolve_left ?_
    rintro ⟨worker, state, found, up⟩
    exact up (parked state (List.mem_of_getElem? found))
  · rintro (left | quiet) call returned
    · refine accounted.ranOnce (emptied left) (fun worker task found => ?_) (.inr returned)
      cases left _ (List.mem_of_getElem? found)
    · exact accounted.ranOnce (quiet.empty monitored) (fun worker task => quiet.not_running)
        (.inr returned)
  · exact fun rest later ahead own => length_le_work ahead own

/-- Two workers, two tasks, a notification that finds a worker parked and one that does
not, and a shutdown while the second task waits. -/
private def twoTasks : List PoolAction :=
  [.lockWorker 0, .check 0, .addTask, .addTask, .lockCall 0, .push 0, .notifyOne 0 (some 0),
    .lockWorker 0, .check 0, .lockCall 1, .push 1, .destroy, .lockDestructor, .setStop, .notifyAll,
    .notifyOne 1 none, .run 0, .lockWorker 1, .check 1, .run 1, .lockWorker 0, .check 0,
    .lockWorker 1, .check 1]

/-- Both tasks have run when both workers have left. -/
theorem thread_pool_delivers_two : ∃ pool, machine.run (init 2) twoTasks = some pool ∧
    pool.workers = [.exited, .exited] ∧ pool.ran = [(0, 0), (1, 1)] ∧ pool.Delivers := by
  have ran := (@Option.some_get _ (machine.run (init 2) twoTasks) (by decide)).symm
  exact ⟨_, ran, by decide, by decide, thread_pool_delivers (by decide) ran⟩

end ThreadPool

end TinyChat.Pool
