import TinyChat.Core.TaskAccounts

namespace TinyChat.Core

open TinyChat.Db TinyChat.Effect TinyChat.Text TinyChat.Transition TinyChat.Utils

/-- The log bears out how far a thread has come. -/
def Done.Holds (thread : Nat) (backend : Backend) : Done → Prop
  | nothing => ∀ commit ∈ backend.store.log, commit.thread ≠ thread
  | unsure => True
  | committed changes => ∃ commit ∈ backend.store.log, commit.thread = thread ∧
      commit.changes = changes

/-- The phase, the account and what has been heard are true of the database. -/
structure Known.Holds (thread : Nat) (known : Known) (backend : Backend) : Prop where
  knows : known.1.Knows thread backend
  done : known.2.done.Holds thread backend
  told : ∀ delivery ∈ backend.sent, delivery.thread = thread → delivery.msg ∈ known.2.told
  heard : known.2.heard.Holds thread backend

/-- The contract of a thread is that of the task that was started under its number. -/
def contractOf (service : Service) (tasks : List Task) (thread : Nat) : Contract Op Op.Result Known :=
  accounting.narrow fun known op => ∃ task, tasks[thread]? = some task ∧
    Accountable service task known op

/-- What a call of a thread commits: nothing, or the one operation of its task, of which it has
told nobody yet. A member who is invited is none yet. -/
def Fulfils (service : Service) (tasks : List Task) (backend : Backend) (thread : Nat)
    (facts : List Fact) (changes : List Change) : Prop :=
  changes = [] ∨ (∀ commit ∈ backend.store.log, commit.thread ≠ thread) ∧
    (∀ delivery ∈ backend.sent, delivery.thread ≠ thread) ∧
    (∀ row, changes = [.addMembers [row]] → row.key ∉ backend.store.tables.members.map MemberRow.key) ∧
    ∃ task operation, tasks[thread]? = some task ∧ task.Asks service operation ∧
      Performs facts operation changes

section Calls

variable {service : Service} {tasks : List Task} {backend next : Backend} {thread other : Nat}
variable {op : Op} {choice : Choice} {answer : Except String op.Result} {known : Known}
variable {changes : List Change} {done : Done}

theorem told_nobody (holds : known.Holds thread backend) (untold : known.2.told = []) :
    ∀ delivery ∈ backend.sent, delivery.thread ≠ thread := by
  intro delivery sent own
  have told := holds.told delivery sent own
  rw [untold] at told
  cases told

theorem pending_fulfils {task : Task} (holds : known.Holds thread backend)
    (found : tasks[thread]? = some task) (may : MayCommit service task known) :
    Fulfils service tasks backend thread known.1.facts known.1.pending := by
  rcases may with empty | ⟨nothing, untold, two, operation, asks, performs⟩
  · exact .inl empty
  · refine .inr ⟨?_, told_nobody holds untold, fun row same => ?_, task, operation, found, asks,
      performs⟩
    · exact (nothing ▸ holds.done : Done.nothing.Holds thread backend)
    · rw [same] at two
      simp at two

/-- A statement of its own commits at most the invitation that it is. -/
theorem autoCommitted_fulfils {task : Task} {write : Write} (holds : known.Holds thread backend)
    (found : tasks[thread]? = some task) (accountable : Accountable service task known (.update write)) :
    Fulfils service tasks backend thread known.1.facts (backend.store.autoCommitted thread write) := by
  unfold Store.autoCommitted
  split
  swap
  · exact .inl rfl
  rename_i change total session changed
  obtain ⟨nothing, untold, room, newcomer, asks, group, rfl⟩ :=
    accountable (holds.knows.session.symm.trans session)
  obtain ⟨same, _, unique⟩ := Write.change_insertMembers changed
  cases same
  refine .inr ⟨(nothing ▸ holds.done : Done.nothing.Holds thread backend), told_nobody holds untold,
    fun row same => ?_, task, _, found, asks, .invite group⟩
  cases same
  have view : backend.store.view thread = backend.store.tables := by
    rw [Store.view, Store.pending, session]
    rfl
  rw [view, List.map_append, List.nodup_append] at unique
  exact fun there => unique.2.2 _ there _ (List.mem_singleton.mpr rfl) rfl

theorem call_fulfils (holds : known.Holds thread backend)
    (permitted : (contractOf service tasks thread).permitted known op)
    (served : backend.call thread op choice = some (answer, next))
    (advances : backend.Advances next thread changes) :
    Fulfils service tasks backend thread known.1.facts changes := by
  obtain ⟨_, task, found, accountable⟩ := permitted
  rw [committing_eq served advances]
  unfold Backend.committing
  split
  · exact pending_eq holds.knows ▸ pending_fulfils holds found accountable
  · exact pending_eq holds.knows ▸ pending_fulfils holds found accountable
  · exact autoCommitted_fulfils holds found accountable
  · exact autoCommitted_fulfils holds found accountable
  · cases served
  · cases served
  · cases served
  · exact .inl rfl

/-- What other threads commit does not bear on how far a thread has come. -/
theorem Done.Holds.others (holds : done.Holds other backend) (different : other ≠ thread)
    (advances : backend.Advances next thread changes) : done.Holds other next := by
  cases done with
  | nothing =>
    intro commit logged same
    rcases advances.moves.mem_log logged with older | rfl
    · exact holds commit older same
    · exact different same.symm
  | unsure => trivial
  | committed changes =>
    obtain ⟨commit, logged, told⟩ := holds
    exact ⟨commit, advances.moves.log_subset logged, told⟩

theorem Done.Holds.quiet (holds : done.Holds thread backend)
    (advances : backend.Advances next thread []) : done.Holds thread next := by
  have same : next.store.log = backend.store.log := advances.moves.log
  cases done with
  | nothing => exact fun commit logged => holds commit (same ▸ logged)
  | unsure => trivial
  | committed changes =>
    obtain ⟨commit, logged, told⟩ := holds
    exact ⟨commit, same ▸ logged, told⟩

theorem logged (advances : backend.Advances next thread changes) (some : changes ≠ []) :
    ∃ commit ∈ next.store.log, commit.thread = thread ∧ commit.changes = changes := by
  rw [advances.moves.log]
  cases changes with
  | nil => exact absurd rfl some
  | cons change rest => exact ⟨_, List.mem_cons_self .., rfl, rfl⟩

theorem Done.Holds.commit (holds : done.Holds thread backend)
    (advances : backend.Advances next thread changes) : (done.commit changes).Holds thread next := by
  cases changes with
  | nil => exact holds.quiet advances
  | cons change rest => exact logged advances (List.cons_ne_nil _ _)

/-- The calls that may commit something. -/
def Op.Settles : Op → Prop
  | .commit => True
  | .release => True
  | .update _ => True
  | _ => False

theorem doneAfter_quiet {phase : Phase} (quiet : ¬ op.Settles) : doneAfter phase done op answer = done := by
  cases op with
  | commit => exact absurd trivial quiet
  | release => exact absurd trivial quiet
  | update write => exact absurd trivial quiet
  | _ => rfl

theorem doneAfter_error {phase : Phase} {what : String} :
    doneAfter phase done op (.error what) = done := by
  cases op <;> rfl

theorem committing_quiet (quiet : ¬ op.Settles) : backend.committing thread op choice = [] := by
  cases op with
  | commit => exact absurd trivial quiet
  | release => exact absurd trivial quiet
  | update write => exact absurd trivial quiet
  | _ => cases choice <;> rfl

theorem doneAfter_transacted {phase : Phase} {write : Write} {result : Except String Nat}
    (transacted : phase.session ≠ .autoCommit) :
    doneAfter phase done (.update write) result = done := by
  cases result with
  | error what => rfl
  | ok count =>
    cases session : phase.session with
    | autoCommit => exact absurd session transacted
    | lost => simp [doneAfter, session]
    | inTransaction pending => simp [doneAfter, session]

/-- In a transaction a statement commits nothing, and its account waits for the commit. -/
theorem done_uncommitted {write : Write} {result : Except String Nat}
    (holds : known.Holds thread backend) (transacted : known.1.session ≠ .autoCommit)
    (advances : backend.Advances next thread (backend.store.autoCommitted thread write)) :
    (doneAfter known.1 known.2.done (.update write) result).Holds thread next := by
  have nothing : backend.store.autoCommitted thread write = [] := by
    unfold Store.autoCommitted
    split
    · rename_i session _
      exact absurd (holds.knows.session.symm.trans session) transacted
    · rfl
  rw [nothing] at advances
  rw [doneAfter_transacted transacted]
  exact holds.done.quiet advances

theorem executed_done {task : Task} {write : Write} {result : Except String Nat} {store : Store}
    (holds : known.Holds thread backend) (accountable : Accountable service task known (.update write))
    (executed : backend.store.executeUpdate thread write = some (result, store))
    (advances : backend.Advances next thread (backend.store.autoCommitted thread write)) :
    (doneAfter known.1 known.2.done (.update write) result).Holds thread next := by
  by_cases auto : known.1.session = .autoCommit
  swap
  · exact done_uncommitted holds auto advances
  obtain ⟨_, _, room, newcomer, _, _, rfl⟩ := accountable auto
  have session := holds.knows.session.trans auto
  unfold Store.executeUpdate at executed
  unfold Store.autoCommitted at advances
  split at executed
  · rename_i refused
    cases executed
    rw [session, refused] at advances
    exact holds.done.quiet advances
  · rename_i changed
    cases (Write.change_insertMembers changed).1
  · rename_i change total changed
    obtain ⟨same, rows, _⟩ := Write.change_insertMembers changed
    cases same
    rw [session, changed] at advances
    split at executed
    swap
    · cases executed
    obtain ⟨_, _, same⟩ := Option.map_eq_some_iff.mp executed
    cases same
    simp only [doneAfter, auto, rows, if_true]
    exact logged advances (List.cons_ne_nil _ _)

theorem done_after (holds : known.Holds thread backend)
    (permitted : (contractOf service tasks thread).permitted known op)
    (served : backend.call thread op choice = some (answer, next))
    (advances : backend.Advances next thread changes) :
    (doneAfter known.1 known.2.done op answer).Holds thread next := by
  obtain ⟨_, task, found, accountable⟩ := permitted
  obtain rfl := committing_eq served advances
  by_cases settles : op.Settles
  swap
  · rw [committing_quiet settles] at advances
    exact doneAfter_quiet settles ▸ holds.done.quiet advances
  cases Backend.calls_of_call served with
  | commit done =>
    obtain ⟨rfl, _⟩ := onConnection_eq_some done
    change (known.2.done.commit known.1.pending).Holds thread next
    exact pending_eq holds.knows ▸ holds.done.commit advances
  | release done =>
    obtain ⟨_, _, same⟩ := Option.map_eq_some_iff.mp done
    cases same
    change (known.2.done.commit known.1.pending).Holds thread _
    exact pending_eq holds.knows ▸ holds.done.commit advances
  | abandon done =>
    cases done
    exact holds.done.quiet advances
  | throws may =>
    have nothing : backend.committing thread op .throws = [] := by
      cases op <;> rfl
    exact doneAfter_error ▸ holds.done.quiet (nothing ▸ advances)
  | update done =>
    obtain ⟨⟨result, store⟩, executed, same⟩ := Option.map_eq_some_iff.mp done
    cases same
    exact executed_done holds accountable executed advances
  | @misreport write executed count _ _ done =>
    by_cases auto : known.1.session = .autoCommit
    · obtain ⟨_, _, room, newcomer, _, _, rfl⟩ := accountable auto
      unfold Backend.misreport at done
      split at done
      swap
      · cases done
      rename_i wrong
      have refused : count ≠ 1 := by simpa [unexpected] using wrong
      have unsure : doneAfter known.1 known.2.done (.update (.insertMembers
          [{ roomId := room, userId := newcomer, role := GroupRole.member.code }])) (.ok count) =
            .unsure := by simp [doneAfter, auto, refused]
      cases executed with
      | false =>
        cases done
        exact unsure ▸ trivial
      | true =>
        obtain ⟨_, _, same⟩ := Option.map_eq_some_iff.mp done
        cases same
        exact unsure ▸ trivial
    · cases executed with
      | true => exact done_uncommitted holds auto advances
      | false =>
        rw [doneAfter_transacted auto]
        exact holds.done.quiet advances
  | _ => exact absurd settles id

/-- A call tells nobody anything, or some of the users it is for. -/
def Op.Sends (backend : Backend) (thread : Nat) (op : Op) (users : List UInt64) (msg : Json)
    (according : Tables) : Prop :=
  users = [] ∨ (∃ user, op = .writeTo user msg ∧ users.Sublist [user]) ∨
    ∃ all, op = .writeToAll all msg ∧ users.Sublist all ∧ according = backend.lookedUp thread

theorem sent_appended (served : backend.call thread op choice = some (answer, next)) :
    ∃ users msg according, op.Sends backend thread users msg according ∧
      next.sent = backend.sent ++ users.map fun user => ⟨thread, user, msg, according⟩ := by
  by_cases tells : op.Tells
  swap
  · exact ⟨[], .null, {}, .inl rfl, by simp [(call_tells.silent tells served).1]⟩
  cases Backend.calls_of_call served with
  | lookup done => cases done; exact ⟨[], .null, {}, .inl rfl, by simp⟩
  | throws may => exact ⟨[], .null, {}, .inl rfl, by simp⟩
  | writeTo done =>
    cases done
    exact ⟨_, _, _, .inr (.inl ⟨_, rfl, List.filter_sublist⟩), rfl⟩
  | writeToAll done =>
    cases done
    exact ⟨_, _, _, .inr (.inr ⟨_, rfl, List.filter_sublist, rfl⟩), rfl⟩
  | _ => exact absurd tells id

/-- The call tells a user what is delivered; the recipients of `write_to_room` come from the
latest lookup. -/
def Op.Announces (backend : Backend) (thread : Nat) (delivery : Delivery) (op : Op) : Prop :=
  op = .writeTo delivery.user delivery.msg ∨ ∃ users, op = .writeToAll users delivery.msg ∧
    delivery.user ∈ users ∧ delivery.according = backend.lookedUp thread

theorem sent_after (served : backend.call thread op choice = some (answer, next)) :
    ∀ delivery ∈ next.sent, delivery ∈ backend.sent ∨
      delivery.thread = thread ∧ op.Announces backend thread delivery := by
  obtain ⟨users, msg, according, sends, appended⟩ := sent_appended served
  intro delivery member
  rw [appended] at member
  refine (List.mem_append.mp member).imp_right fun new => ?_
  obtain ⟨user, there, rfl⟩ := List.mem_map.mp new
  refine ⟨rfl, ?_⟩
  rcases sends with rfl | ⟨one, rfl, within⟩ | ⟨all, rfl, within, rfl⟩
  · cases there
  · obtain rfl := List.mem_singleton.mp (within.subset there)
    exact .inl rfl
  · exact .inr ⟨all, rfl, within.subset there, rfl⟩

theorem Op.Announces.told {delivery : Delivery} (announces : op.Announces backend thread delivery) :
    delivery.msg ∈ toldAfter [] op := by
  rcases announces with rfl | ⟨users, rfl, _, _⟩
  · exact List.mem_singleton.mpr rfl
  · exact List.mem_singleton.mpr rfl

theorem mem_toldAfter {told : List Json} {msg : Json} :
    msg ∈ toldAfter told op ↔ msg ∈ told ∨ msg ∈ toldAfter [] op := by
  cases op with
  | writeTo user text => exact List.mem_append
  | writeToAll users text => exact List.mem_append
  | _ => exact ⟨.inl, fun either => either.resolve_right List.not_mem_nil⟩

/-- A group message goes to the users that were looked up for it. -/
theorem accountable_telling {task : Task} (accountable : Accountable service task known op) :
    telling.permitted known.2.heard op := by
  cases op with
  | writeTo user msg =>
    intro roomId senderId content same
    obtain ⟨_, announces⟩ := accountable
    subst same
    generalize told : Op.writeTo user (groupMsgToSend roomId senderId content) = told at announces
    cases announces with
    | permissionDenied _ _ => exact serverRespMsg_ne (by decide) (Op.writeTo.inj told).2.symm
    | privateMsg _ _ _ => exact serverRespMsg_ne (by decide) (Op.writeTo.inj told).2.symm
    | msgSentInfo _ _ _ => exact serverRespMsg_ne (by decide) (Op.writeTo.inj told).2.symm
    | groupMsg _ _ _ _ => cases told
  | writeToAll users msg =>
    obtain ⟨_, announces⟩ := accountable
    cases announces with
    | groupMsg asks performs done heard => exact ⟨_, _, _, rfl, heard⟩
  | _ => trivial

theorem requests_keep : KeepsOwn (contractOf service tasks)
    (fun thread (known : Known) backend => known.Holds thread backend) Backend.Valid Backend.call where
  own {backend thread known op choice answer next} valid holds permitted served := by
    obtain ⟨changes, later, released, advances, expected, knows⟩ :=
      call_answered valid holds.knows permitted.1 served
    obtain ⟨task, _, accountable⟩ := permitted.2
    obtain ⟨_, rfl, heard⟩ := (telling_keeps call_tells).own trivial holds.heard (accountable_telling accountable) served
    refine ⟨(later, accountAfter known.1 op answer known.2), ⟨expected, rfl⟩, knows, ?_, ?_, heard⟩
    · exact done_after holds permitted served advances
    · intro delivery member own
      refine mem_toldAfter.mpr ((sent_after served delivery member).imp (fun older => ?_) fun new => ?_)
      · exact holds.told delivery older own
      · exact new.2.told
  others {backend thread known op choice answer next other others} valid holds permitted served
      different there := by
    obtain ⟨changes, later, released, advances, expected, knows⟩ :=
      call_answered valid holds.knows permitted.1 served
    obtain ⟨task, _, accountable⟩ := permitted.2
    refine ⟨there.knows.others advances different holds.knows.facts released,
      there.done.others different advances, fun delivery member own => ?_, ?_⟩
    · rcases sent_after served delivery member with older | ⟨sender, _⟩
      · exact there.told delivery older own
      · exact absurd (own.symm.trans sender) different
    · exact (telling_keeps call_tells).others trivial holds.heard (accountable_telling accountable) served different
        there.heard
  valid valid holds permitted served := by
    obtain ⟨changes, later, released, advances, expected, knows⟩ :=
      call_answered valid holds.knows permitted.1 served
    exact valid.advance advances holds.knows.facts released

end Calls

/-- All tasks about rooms and their messages, in the ordinary course. -/
abbrev calmTasks (service : Service) :
    Machine (Threads Op Op.Result Backend (Option Response)) (Move { _task : Task // True } Choice) :=
  roomMachine Backend.call service fun _ => True

section Runs

variable {service : Service} {initial : Tables} {generator : Generator}
variable {final : Threads Op Op.Result Backend (Option Response)}
variable {moves : List (Move { _task : Task // True } Choice)} {thread : Nat}

/-- The tasks of a run, in the order of the threads. -/
def tasksOf (moves : List (Move { _task : Task // True } Choice)) : List Task :=
  (startedTasks moves).map Subtype.val

theorem tasksOf_getElem {task : { _task : Task // True }}
    (found : (startedTasks moves)[thread]? = some task) : (tasksOf moves)[thread]? = some task.1 := by
  simp [tasksOf, found]

/-- What the end of a thread says in its reply. -/
def Closes (service : Service) (tasks : List Task) (thread : Nat) (known : Known)
    (outcome : Outcome (Option Response)) : Prop :=
  ∃ task, tasks[thread]? = some task ∧ Accounts service task known outcome

theorem contractOf_meets {task : { _task : Task // True }}
    (found : (startedTasks moves)[thread]? = some task) :
    (roomProgram service (fun _ => True) task).Meets (contractOf service (tasksOf moves) thread)
      (Closes service (tasksOf moves) thread) ({}, {}) := by
  have meets : (task.1.program service).Meets (contractOf service (tasksOf moves) thread)
      (Accounts service task.1) ({}, {}) :=
    task_accounted.relax (fun _ _ permitted =>
      ⟨permitted.1, task.1, tasksOf_getElem found, permitted.2⟩) fun _ _ _ _ expected => expected
  exact meets.mono fun _ _ accounts => ⟨task.1, tasksOf_getElem found, accounts⟩

/-- What holds at first and is kept by every commit of an operation that was asked for, and
by whatever users are truly told of it, holds in every state; and every thread has a true
account of itself. -/
theorem requests_attributed {motive : Backend → Prop}
    (ran : (calmTasks service).run (Backend.start initial generator) moves = some final)
    (starts : motive (Backend.start initial generator).shared)
    (kept : ∀ {backend next : Backend} {thread : Nat} {known : Known} {op : Op} {choice : Choice}
      {answer : Except String op.Result} {changes : List Change}, backend.Valid → motive backend →
      known.Holds thread backend → (contractOf service (tasksOf moves) thread).permitted known op →
      backend.call thread op choice = some (answer, next) →
      Fulfils service (tasksOf moves) backend thread known.1.facts changes →
      backend.Advances next thread changes → motive next) :
    Attributed (contractOf service (tasksOf moves))
      (fun thread (known : Known) backend => known.Holds thread backend)
      (fun backend => backend.Valid ∧ motive backend) ({}, {})
      (Closes service (tasksOf moves)) final := by
  have keeps : KeepsOwn (contractOf service (tasksOf moves))
      (fun thread (known : Known) backend => known.Holds thread backend)
      (fun backend => backend.Valid ∧ motive backend) Backend.call := by
    refine requests_keep.and fun valid holds knows permitted served => ?_
    obtain ⟨changes, _, _, advances, _⟩ := call_answered valid knows.knows permitted.1 served
    exact kept valid holds knows permitted served
      (call_fulfils knows permitted served advances) advances
  refine Attributed.run keeps ran ⟨start_valid, starts⟩ (fun thread => ?_) fun thread task found => ?_
  · exact ⟨⟨rfl, nofun⟩, nofun, nofun, nofun⟩
  · exact contractOf_meets found

/-- What a fact says of the past; a drawn id may have been used since. -/
def Fact.Was (backend : Backend) (thread : Nat) : Fact → Prop
  | .drew id => (thread, .ok id) ∈ backend.generator.log
  | fact => fact.Holds backend thread

theorem Fact.Holds.was {fact : Fact} {backend : Backend} (holds : fact.Holds backend thread) :
    fact.Was backend thread := by
  cases fact with
  | drew id => exact holds.1
  | _ => exact holds

theorem Fact.Was.advance {fact : Fact} {backend next : Backend} {other : Nat} {changes : List Change}
    (was : fact.Was backend thread) (advances : backend.Advances next other changes) :
    fact.Was next thread := by
  cases fact with
  | drew id => exact advances.log_subset was
  | wasMember room user =>
    obtain ⟨tables, snapshot, found⟩ := was
    exact ⟨tables, advances.moves.snapshots_subset snapshot, found⟩
  | wasGroup room =>
    obtain ⟨tables, snapshot, found⟩ := was
    exact ⟨tables, advances.moves.snapshots_subset snapshot, found⟩
  | wasOwner room user =>
    obtain ⟨tables, snapshot, found⟩ := was
    exact ⟨tables, advances.moves.snapshots_subset snapshot, found⟩

theorem committed_log {backend next : Backend} {changes : List Change}
    (advances : backend.Advances next thread changes) (some : changes ≠ []) : next.store.log =
      { thread, changes, after := backend.store.tables.applyAll changes } :: backend.store.log := by
  rw [advances.moves.log]
  split
  · exact absurd rfl some
  · rfl

theorem Performs.ne_nil {facts : List Fact} {operation : RoomOperation} {changes : List Change}
    (performs : Performs facts operation changes) : changes ≠ [] := by
  cases performs <;> exact List.cons_ne_nil _ _

theorem threads_once
    (ran : (calmTasks service).run (Backend.start initial generator) moves = some final) :
    (final.shared.store.log.map Commit.thread).Nodup := by
  refine (requests_attributed (motive := fun backend =>
    (backend.store.log.map Commit.thread).Nodup) ran List.nodup_nil ?_).valid.2
  intro backend next thread known op choice answer changes _ sofar _ _ _ fulfils advances
  rcases fulfils with rfl | ⟨first, _, _, task, operation, _, _, performs⟩
  · rw [show next.store.log = backend.store.log from advances.moves.log]
    exact sofar
  · rw [committed_log advances performs.ne_nil, List.map_cons]
    refine List.nodup_cons.mpr ⟨fun again => ?_, sofar⟩
    obtain ⟨commit, logged, same⟩ := List.mem_map.mp again
    exact first commit logged same

/-- In every run, whatever tasks are started and however their calls interleave, a thread
commits nothing or the one operation that its task asks for, with ids it has drawn itself and
on the strength of what it has read. -/
theorem commits_attributable
    (ran : (calmTasks service).run (Backend.start initial generator) moves = some final) :
    (final.shared.store.log.map Commit.thread).Nodup ∧
      ∀ commit ∈ final.shared.store.log, ∃ task operation facts,
        (tasksOf moves)[commit.thread]? = some task ∧ task.Asks service operation ∧
        Performs facts operation commit.changes ∧
        ∀ fact ∈ facts, fact.Was final.shared commit.thread := by
  refine ⟨threads_once ran, (requests_attributed (motive := fun backend =>
    ∀ commit ∈ backend.store.log, ∃ task operation facts,
      (tasksOf moves)[commit.thread]? = some task ∧ task.Asks service operation ∧
      Performs facts operation commit.changes ∧ ∀ fact ∈ facts, fact.Was backend commit.thread)
        ran nofun ?_).valid.2⟩
  intro backend next thread known op choice answer changes _ sofar holds _ _ fulfils advances commit
    logged
  rcases advances.moves.mem_log logged with older | rfl
  · obtain ⟨task, operation, facts, found, asks, performs, was⟩ := sofar commit older
    exact ⟨task, operation, facts, found, asks, performs,
      fun fact member => (was fact member).advance advances⟩
  · rcases fulfils with rfl | ⟨_, _, _, task, operation, found, asks, performs⟩
    · rw [show next.store.log = backend.store.log from advances.moves.log] at logged
      obtain ⟨task, operation, facts, found, asks, performs, was⟩ := sofar _ logged
      exact ⟨task, operation, facts, found, asks, performs,
        fun fact member => (was fact member).advance advances⟩
    · exact ⟨task, operation, known.1.facts, found, asks, performs,
        fun fact member => (holds.knows.facts fact member).was.advance advances⟩

theorem account_of_ended
    (ran : (calmTasks service).run (Backend.start initial generator) moves = some final)
    {outcome : Outcome (Option Response)}
    (ended : final.programs[thread]? = some (.done outcome)) : ∃ task known,
      (tasksOf moves)[thread]? = some task ∧ known.Holds thread final.shared ∧
      Accounts service task known outcome := by
  obtain ⟨known, holds, task, found, accounts⟩ :=
    (requests_attributed (motive := fun _ => True) ran trivial fun _ _ _ _ _ _ _ => trivial).ended ended
  exact ⟨task, known, found, holds, accounts⟩

/-- The reply of a thread that has returned one. -/
def replyOf (threads : Threads Op Op.Result Backend (Option Response)) (thread : Nat) :
    Option Response :=
  match threads.programs[thread]? with
  | some (.done (.returned reply)) => reply
  | _ => none

theorem replyOf_eq_some {threads : Threads Op Op.Result Backend (Option Response)}
    {response : Response} (replied : replyOf threads thread = some response) :
    threads.programs[thread]? = some (.done (.returned (some response))) := by
  unfold replyOf at replied
  split at replied
  · rename_i found
    exact replied ▸ found
  · cases replied

/-- The reply to a request says `Success` exactly when its operation is committed, with what
the operation has come to; only a failed invitation may have been committed all the same. -/
theorem replies_truthful
    (ran : (calmTasks service).run (Backend.start initial generator) moves = some final)
    {response : Response} (replied : replyOf final thread = some response) :
    ∃ task, (tasksOf moves)[thread]? = some task ∧
      (response.succeeded = true → ∃ commit ∈ final.shared.store.log, commit.thread = thread ∧
        ∃ operation facts message, task.Asks service operation ∧
          Performs facts operation commit.changes ∧
          response.body = .json (apiResponse .success message (operationData operation))) ∧
      (response.succeeded = false → (∀ commit ∈ final.shared.store.log, commit.thread ≠ thread) ∨
        ∃ req roomId, task = .inviteMember req roomId ∧ response = badRequest req " Invite failed") := by
  obtain ⟨task, known, found, holds, accounts⟩ := account_of_ended ran (replyOf_eq_some replied)
  obtain ⟨success, failure⟩ := accounts response rfl
  refine ⟨task, found, fun succeeded => ?_, fun failed => ?_⟩
  · obtain ⟨operation, facts, changes, message, asks, performs, done, body⟩ := success succeeded
    obtain ⟨commit, logged, own, same⟩ :=
      (done ▸ holds.done : (Done.committed changes).Holds thread final.shared)
    exact ⟨commit, logged, own, operation, facts, message, asks, same ▸ performs, body⟩
  · refine (failure failed).imp_left fun nothing => ?_
    have holds := holds.done
    rw [nothing] at holds
    exact holds

/-- User 1 creates a group room. -/
private def creatingRoom : List (Move { _task : Task // True } Choice) :=
  .start ⟨.createGRoom (sampleRequest .post "/api/group_room" "1" "room"), trivial⟩ ::
    stepsOf 0 [.returns, .returns, .returns, .returns, .returns, .returns]

theorem commits_attributable_creating :
    ∃ final, (calmTasks sampleService).run (Backend.start {} (sampleGenerator 1)) creatingRoom =
        some final ∧ final.shared.store.log ≠ [] ∧
      (final.shared.store.log.map Commit.thread).Nodup ∧
      ∀ commit ∈ final.shared.store.log, ∃ task operation facts,
        (tasksOf creatingRoom)[commit.thread]? = some task ∧ task.Asks sampleService operation ∧
        Performs facts operation commit.changes ∧
        ∀ fact ∈ facts, fact.Was final.shared commit.thread := by
  have ran : (((calmTasks sampleService).run (Backend.start {} (sampleGenerator 1)) creatingRoom).map
      fun final => final.shared.store.log.length) = some 1 := by decide +kernel
  obtain ⟨final, reached, commits⟩ := Option.map_eq_some_iff.mp ran
  exact ⟨final, reached, List.length_pos_iff.mp (by omega), commits_attributable reached⟩

theorem replies_truthful_creating :
    ∃ final response, (calmTasks sampleService).run (Backend.start {} (sampleGenerator 1))
        creatingRoom = some final ∧ replyOf final 0 = some response ∧ response.succeeded = true ∧
      ∃ task, (tasksOf creatingRoom)[0]? = some task ∧
        (response.succeeded = true → ∃ commit ∈ final.shared.store.log, commit.thread = 0 ∧
          ∃ operation facts message, task.Asks sampleService operation ∧
            Performs facts operation commit.changes ∧
            response.body = .json (apiResponse .success message (operationData operation))) ∧
        (response.succeeded = false → (∀ commit ∈ final.shared.store.log, commit.thread ≠ 0) ∨
          ∃ req roomId, task = .inviteMember req roomId ∧
            response = badRequest req " Invite failed") := by
  have ran : (((calmTasks sampleService).run (Backend.start {} (sampleGenerator 1)) creatingRoom).map
      fun final => (replyOf final 0).map Response.succeeded) = some (some true) := by decide +kernel
  obtain ⟨final, reached, told⟩ := Option.map_eq_some_iff.mp ran
  obtain ⟨response, replied, succeeded⟩ := Option.map_eq_some_iff.mp told
  exact ⟨final, response, reached, replied, succeeded, replies_truthful reached replied⟩

end Runs

end TinyChat.Core
