import TinyChat.Core.RoomKnowledge
import TinyChat.Effect.WorkerPool
import TinyChat.Utils.SnowFlakeOrder

/-! The messages of one session on the thread pool. They are taken in the order in which
`on_read` submits them; nothing keeps the workers from overtaking each other after that. -/
namespace TinyChat.Core

open TinyChat.Db TinyChat.Effect TinyChat.Text TinyChat.Transition TinyChat.Utils

/-- What is submitted to the thread pool. -/
inductive Submission where
  /-- `on_read` of a session. -/
  | onRead (session : Nat) (msg : String) (userClaims : UserClaims)
  /-- A request, or a message outside the sessions in question. -/
  | other (task : Task)

def Submission.task : Submission → Task
  | onRead _ msg userClaims => .handleMessage msg userClaims
  | other task => task

def Submission.session : Submission → Option Nat
  | onRead session _ _ => some session
  | other _ => none

/-- Both are messages of one session. -/
def SameSession (earlier later : Submission) : Prop :=
  earlier.session.isSome = true ∧ earlier.session = later.session

instance (earlier later : Submission) : Decidable (SameSession earlier later) :=
  inferInstanceAs (Decidable (_ ∧ _))

abbrev ChatPool : Type := Pool Op Op.Result Backend (Option Response) Submission

/-- `ThreadPool` with so many workers and the tasks about rooms and messages, any of whose
statements may fail. -/
def chatPool (service : Service) (workers : Nat) :
    Machine ChatPool (PoolMove Submission Choice) :=
  workerPool workers Backend.attempt fun submission => submission.task.program service

def ChatPool.start (initial : Tables) (generator : Generator) : ChatPool :=
  { threads := { shared := { store := { initial }, generator }, programs := [] } }

/-- The threads and the ids of the messages that they have stored. -/
def stored (store : Store) : List (Nat × UInt64) :=
  store.log.flatMap fun commit => commit.changes.filterMap fun
    | .addMessage row => some (commit.thread, row.id)
    | _ => none

/-- What the second thread has stored has greater ids than what the first has, and nobody
is sent anything by the first after something by the second. -/
def InOrder (first second : Nat) (backend : Backend) : Prop :=
  (∀ earlier ∈ stored backend.store, ∀ later ∈ stored backend.store,
    earlier.1 = first → later.1 = second → earlier.2 < later.2) ∧
  Precedes Delivery.thread first second backend.sent

instance (first second : Nat) (backend : Backend) : Decidable (InOrder first second backend) := by
  unfold InOrder Precedes
  infer_instance

/-- The messages of every session are in the order of their submission; a task runs as
the thread of its number. -/
def PerSenderOrder (submissions : List Submission) (backend : Backend) : Prop :=
  ∀ (first second : Nat) (earlier later : Submission), first < second →
    submissions[first]? = some earlier → submissions[second]? = some later →
      SameSession earlier later → InOrder first second backend

section Logs

variable {backend next : Backend} {thread : Nat} {op : Op} {choice : Choice}
variable {answer : Except String op.Result}

/-- A call leaves the generator as it is or is one of `next_id`. -/
theorem attempt_generator (served : backend.attempt thread op choice = some (answer, next)) :
    next.generator = backend.generator ∨
      Generator.machine.step backend.generator thread = some next.generator ∧
        ∃ result, next.generator.log = backend.generator.log ++ [(thread, result)] := by
  by_cases draws : op = .nextId
  · subst draws
    rw [Backend.attempt_eq_call rfl] at served
    cases Backend.calls_of_call served with
    | nextId done =>
      obtain ⟨generator, called, appended, rfl⟩ := Backend.nextId_eq_some done
      exact .inr ⟨called, _, appended⟩
    | throws may => exact .inl rfl
  · by_cases tells : op.Tells
    · rw [Backend.attempt_eq_call (takesEffect_of_tells tells)] at served
      cases Backend.calls_of_call served with
      | lookup done => cases done; exact .inl rfl
      | writeTo done => cases done; exact .inl rfl
      | writeToAll done => cases done; exact .inl rfl
      | throws may => exact .inl rfl
      | _ => exact absurd tells id
    · rw [Backend.attempt_frame tells draws served]
      exact .inl rfl

theorem generator_logs : Logs Backend.attempt (fun backend => backend.generator.log) Prod.fst := by
  intro backend thread op choice answer next served
  rcases attempt_generator served with same | ⟨_, result, appended⟩
  · exact ⟨[], by simp [same], nofun⟩
  · exact ⟨_, appended, fun entry member => List.mem_singleton.mp member ▸ rfl⟩

private theorem deliver_logs {users : List UInt64} {msg : Json} {according : Tables}
    {result : Except String PUnit}
    (served : backend.deliver thread users msg according = some (result, next)) :
    ∃ added, next.sent = backend.sent ++ added ∧ ∀ delivery ∈ added, delivery.thread = thread := by
  cases served
  refine ⟨_, rfl, fun delivery member => ?_⟩
  obtain ⟨user, _, rfl⟩ := List.mem_map.mp member
  rfl

theorem sent_logs : Logs Backend.attempt Backend.sent Delivery.thread := by
  intro backend thread op choice answer next served
  by_cases tells : op.Tells
  swap
  · by_cases draws : op = .nextId
    · subst draws
      rw [Backend.attempt_eq_call rfl] at served
      cases Backend.calls_of_call served with
      | nextId done =>
        obtain ⟨_, _, _, rfl⟩ := Backend.nextId_eq_some done
        exact ⟨[], by simp, nofun⟩
      | throws may => exact absurd may id
    · rw [Backend.attempt_frame tells draws served]
      exact ⟨[], by simp, nofun⟩
  rw [Backend.attempt_eq_call (takesEffect_of_tells tells)] at served
  cases Backend.calls_of_call served with
  | writeTo done => exact deliver_logs done
  | writeToAll done => exact deliver_logs done
  | lookup done => cases done; exact ⟨[], by simp, nofun⟩
  | throws may => exact ⟨[], by simp, nofun⟩
  | _ => exact absurd tells id

end Logs

section Runs

variable {service : Service} {initial : Tables} {generator : Generator} {workers : Nat}
variable {threads : Threads Op Op.Result Backend (Option Response)}
variable {history : List (Move { _task : Task // True } Choice)}

theorem generator_run
    (ran : (roomMachine Backend.attempt service fun _ => True).run (Backend.start initial generator) history =
      some threads) :
    ∃ calls, Generator.machine.run generator calls = some threads.shared.generator := by
  refine Machine.invariant (motive := fun threads => ∃ calls,
    Generator.machine.run generator calls = some threads.shared.generator) ran ⟨[], rfl⟩ ?_
  intro threads move after ⟨calls, reached⟩ taken
  cases move with
  | start task =>
    cases taken
    exact ⟨calls, reached⟩
  | step thread choice =>
    obtain ⟨_, _, _, _, served, _⟩ := interleaving_step taken
    rcases attempt_generator served with same | ⟨called, _⟩
    · exact ⟨calls, same ▸ reached⟩
    · exact ⟨calls ++ [thread], Machine.run_snoc_iff.mpr ⟨_, reached, called⟩⟩

theorem stored_drawn
    (ran : (roomMachine Backend.attempt service fun _ => True).run (Backend.start initial generator) history =
      some threads) :
    ∀ entry ∈ stored threads.shared.store, (entry.1, .ok entry.2) ∈ threads.shared.generator.log := by
  have drawn : ∀ commit ∈ threads.shared.store.log, ∀ row, .addMessage row ∈ commit.changes →
      (commit.thread, .ok row.id) ∈ threads.shared.generator.log := by
    refine room_invariant (motive := fun backend => ∀ commit ∈ backend.store.log, ∀ row,
      .addMessage row ∈ commit.changes → (commit.thread, .ok row.id) ∈ backend.generator.log)
      orderly_attempt (fun _ _ _ => trivial) ran nofun ?_
    intro backend next thread changes phase _ sofar knows released advances commit logged row adds
    rcases advances.moves.mem_log logged with older | rfl
    · exact advances.log_subset (sofar commit older row adds)
    · exact advances.log_subset (knows.facts _ (released.drew adds)).1
  intro entry member
  obtain ⟨commit, logged, there⟩ := List.mem_flatMap.mp member
  obtain ⟨change, adds, shown⟩ := List.mem_filterMap.mp there
  split at shown
  · cases shown
    exact drawn commit logged _ adds
  · cases shown

/-- Of two threads in order, the first has drawn the smaller ids. -/
theorem id_lt_of_precedes {log : List (Nat × Except String UInt64)} {first second : Nat}
    {small great : UInt64} (different : first ≠ second)
    (increasing : (log.filterMap fun entry => entry.2.toOption).Pairwise (· < ·))
    (precedes : Precedes Prod.fst first second log) (early : (first, .ok small) ∈ log)
    (late : (second, .ok great) ∈ log) : small < great := by
  induction log with
  | nil => cases early
  | cons entry rest ih =>
    obtain ⟨ahead, behind⟩ := List.pairwise_cons.mp precedes
    rcases List.mem_cons.mp early with rfl | earlyRest <;>
      rcases List.mem_cons.mp late with same | lateRest
    · exact absurd (congrArg Prod.fst same).symm different
    · exact (List.pairwise_cons.mp increasing).1 great (List.mem_filterMap.mpr ⟨_, lateRest, rfl⟩)
    · subst same
      exact absurd rfl (ahead _ earlyRest rfl)
    · refine ih (increasing.sublist ?_) behind earlyRest lateRest
      exact (List.sublist_cons_self _ _).filterMap _

/-- Entries of a thread that is not started would be out of its numbers. -/
theorem precedes_of_beyond {Entry : Type} {owner : Entry → Nat} {first second bound : Nat}
    {entries : List Entry} (started : ∀ entry ∈ entries, owner entry < bound)
    (beyond : bound ≤ second) : Precedes owner first second entries := by
  apply List.pairwise_of_forall_mem_list
  intro entry member _ _ same
  have within := started entry member
  omega

variable {final : ChatPool} {moves : List (PoolMove Submission Choice)}
variable {serviceId customEpoch : UInt64} {clock : Clock}

/-- When no message of a session is taken before the earlier ones are done with, as is
always so with one worker, the messages of every session are stored under increasing ids
and sent to every recipient in the order of their submission. -/
theorem sender_order (accepted : Generator.started serviceId customEpoch clock = some generator)
    (steady : NonDecreasing clock) (inRange : InRange customEpoch clock)
    (ran : (chatPool service workers).run (ChatPool.start initial generator) moves = some final)
    (apart : workers = 1 ∨ (chatPool service workers).Allowed (fun _ => TakenApart SameSession)
      (ChatPool.start initial generator) moves) :
    PerSenderOrder (submitted moves) final.threads.shared := by
  have met : (chatPool service workers).Allowed (fun _ => TakenApart SameSession)
      (ChatPool.start initial generator) moves := by
    rcases apart with rfl | apart
    · exact Machine.allowed_of_steps ran fun _ _ _ _ taken => takenApart_of_one taken
    · exact apart
  obtain ⟨fits, now, rest, _, begun⟩ := Generator.started_eq_some accepted
  have draws := apart_of_run generator_logs rfl rfl (by simp [ChatPool.start, begun]) ran met
  have sends := apart_of_run sent_logs rfl rfl rfl ran met
  have order := (pool_fifo ran rfl).1
  obtain ⟨history, interleaved⟩ : ∃ history : List (Move { _task : Task // True } Choice),
      (roomMachine Backend.attempt service fun _ => True).run (Backend.start initial generator) history =
        some final.threads :=
    pool_interleaves (roomProgram service fun _ => True)
      (fun submission : Submission => ⟨submission.task, trivial⟩) (fun _ => rfl) ran
  obtain ⟨calls, generated⟩ := generator_run interleaved
  have increasing := (Generator.Ordered.run accepted steady inRange generated).increasing
  intro first second earlier later before earlierSubmitted laterSubmitted related
  have orders {Entry : Type} {log : Backend → List Entry} {owner : Entry → Nat}
      (apart : Apart SameSession log owner final) :
      Precedes owner first second (log final.threads.shared) := by
    rcases Nat.lt_or_ge second final.taken.length with taken | beyond
    · have within (number : Nat) (less : number ≤ second) :
          final.taken[number]? = (submitted moves)[number]? := by
        rw [← List.getElem?_append_left (by omega), order]
        rfl
      exact (apart.returned first second earlier later before
        (within first (Nat.le_of_lt before) ▸ earlierSubmitted)
        (within second (Nat.le_refl _) ▸ laterSubmitted) related).2
    · exact precedes_of_beyond apart.started beyond
  constructor
  · intro early stores late alsoStores sameFirst sameSecond
    have drewEarly := stored_drawn interleaved early stores
    have drewLate := stored_drawn interleaved late alsoStores
    rw [sameFirst] at drewEarly
    rw [sameSecond] at drewLate
    exact id_lt_of_precedes (Nat.ne_of_lt before) increasing (orders draws) drewEarly drewLate
  · exact orders sends

/-- User 1 writes two messages into room 1; the buffer of the session still holds the
first when the second comes. -/
private def twoMessages : List (PoolMove Submission Choice) :=
  [.submit (.onRead 0 "group 1" ⟨1, "1"⟩), .submit (.onRead 0 "group 1 " ⟨1, "1"⟩)]

/-- All calls of the thread of a message, which finds user 2 online. -/
private def storing (thread : Nat) : List (PoolMove Submission Choice) :=
  [Choice.returns, .returns, .reads 0, .returns, .returns, .returns, .returns, .returns, .online [2],
    .returns].map (.step thread)

private def oneByOne : List (PoolMove Submission Choice) :=
  twoMessages ++ [.take] ++ storing 0 ++ [.take] ++ storing 1

theorem sender_order_one_by_one :
    PerSenderOrder (submitted oneByOne)
      (((chatPool sampleService 1).run (ChatPool.start sampleRoom (sampleGenerator 2)) oneByOne).get
        (by decide +kernel)).threads.shared :=
  @sender_order sampleService sampleRoom (sampleGenerator 2) 1 _ oneByOne 0 1000
    [1000, 1000, 1000] rfl (by unfold NonDecreasing; decide) (by simp [InRange])
    (Option.some_get _).symm (.inl rfl)

private theorem order_broken {workers : Nat} {generator : Generator}
    {moves : List (PoolMove Submission Choice)}
    (first : (submitted moves)[0]? = some (.onRead 0 "group 1" ⟨1, "1"⟩))
    (second : (submitted moves)[1]? = some (.onRead 0 "group 1 " ⟨1, "1"⟩))
    (broken : ((chatPool sampleService workers).run (ChatPool.start sampleRoom generator) moves).any
      fun pool => !decide (InOrder 0 1 pool.threads.shared)) :
    ∃ final, (chatPool sampleService workers).run (ChatPool.start sampleRoom generator) moves =
      some final ∧ ¬ PerSenderOrder (submitted moves) final.threads.shared := by
  obtain ⟨final, ran, unordered⟩ := (Option.any_eq_true _ _).mp broken
  refine ⟨final, ran, fun ordered => ?_⟩
  have order := ordered 0 1 _ _ Nat.one_pos first second (by decide)
  simp [order] at unordered

/-- The order is lost when a second worker is faster with the second message. With one
worker it is lost when the clock steps back in a millisecond whose 2047 ids are used up,
and when its readings outgrow the 42 bits of an id. -/
theorem sender_order_lost :
    (∃ moves final, (chatPool sampleService 2).run
        (ChatPool.start sampleRoom (sampleGenerator 2)) moves = some final ∧
      ¬ PerSenderOrder (submitted moves) final.threads.shared) ∧
    (∃ moves final, (chatPool sampleService 1).run (ChatPool.start sampleRoom
        { flake := { serviceId := 0, lastTimestamp := 1000, sequenceId := 2046 }
          clock := [1000, 1000, 400, 500] }) moves = some final ∧
      ¬ PerSenderOrder (submitted moves) final.threads.shared) ∧
    ∃ moves final, (chatPool sampleService 1).run (ChatPool.start sampleRoom
        { flake := { serviceId := 0, lastTimestamp := 4398046511103 }
          clock := [4398046511103, 4398046511104] }) moves = some final ∧
      ¬ PerSenderOrder (submitted moves) final.threads.shared := by
  refine ⟨⟨twoMessages ++ [.take, .take] ++ storing 1 ++ storing 0, ?_⟩, ⟨oneByOne, ?_⟩,
    ⟨oneByOne, ?_⟩⟩
  · exact order_broken rfl rfl (by decide +kernel)
  · exact order_broken rfl rfl (by decide +kernel)
  · exact order_broken rfl rfl (by decide +kernel)

end Runs

end TinyChat.Core
