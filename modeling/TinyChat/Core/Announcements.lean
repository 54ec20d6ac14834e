import TinyChat.Core.ServiceRefinement

namespace TinyChat.Core

open TinyChat.Db TinyChat.Effect TinyChat.Text TinyChat.Transition TinyChat.Utils

/-- What a user may be told of a message. -/
inductive RoomPosting.ToldTo (posting : RoomPosting) (delivery : Delivery) : Prop where
  | privateMsg (msg : delivery.msg = privateMsgToSend posting.room posting.message.2)
  | msgSentInfo (msg : delivery.msg = serverRespMsg .msgSentInfo .null)
      (author : delivery.user = posting.author)
  | groupMsg (msg : delivery.msg = groupMsgToSend posting.room posting.author posting.message.2)
      (member : delivery.according.HasMember posting.room delivery.user)

/-- A delivery is backed by a commit of its thread, or tells an author that there is none. -/
inductive Backed (service : Service) (tasks : List Task) (backend : Backend) (delivery : Delivery) :
    Prop where
  | permissionDenied {text : String} {claims : UserClaims}
      (task : tasks[delivery.thread]? = some (.handleMessage text claims))
      (author : delivery.user = claims.id)
      (msg : delivery.msg = serverRespMsg .permissionDenied .null)
      (nothing : ∀ commit ∈ backend.store.log, commit.thread ≠ delivery.thread)
  | posting {posting : RoomPosting} {task : Task} {commit : Commit} {facts : List Fact}
      (logged : commit ∈ backend.store.log) (own : commit.thread = delivery.thread)
      (found : tasks[delivery.thread]? = some task) (asks : task.Asks service (.post posting))
      (performs : Performs facts (.post posting) commit.changes)
      (told : RoomPosting.ToldTo posting delivery)

section Calls

variable {service : Service} {tasks : List Task} {backend next : Backend} {thread : Nat}
variable {known : Known} {op : Op} {delivery : Delivery} {changes : List Change}

/-- What a truthful call tells anybody is backed. -/
theorem announces_backed {task : Task} (holds : known.Holds thread backend)
    (found : tasks[thread]? = some task) (accountable : Accountable service task known op)
    (own : delivery.thread = thread) (announces : op.Announces backend thread delivery) :
    Backed service tasks backend delivery := by
  subst own
  have stored {posting : RoomPosting} {facts : List Fact} {changes : List Change}
      (asks : task.Asks service (.post posting)) (performs : Performs facts (.post posting) changes)
      (done : known.2.done = .committed changes) (told : RoomPosting.ToldTo posting delivery) :
      Backed service tasks backend delivery := by
    have committed := holds.done
    rw [done] at committed
    obtain ⟨commit, logged, sender, rfl⟩ := committed
    exact .posting logged sender found asks performs told
  rcases announces with rfl | ⟨users, rfl, member, according⟩
  · obtain ⟨_, announces⟩ := accountable
    generalize user : delivery.user = recipient at announces
    generalize same : delivery.msg = msg at announces
    cases announces with
    | permissionDenied task nothing =>
      subst task
      have committed := holds.done
      rw [nothing] at committed
      exact .permissionDenied found user same committed
    | privateMsg asks performs done => exact stored asks performs done (.privateMsg same)
    | msgSentInfo asks performs done => exact stored asks performs done (.msgSentInfo same user)
  · obtain ⟨_, announces⟩ := accountable
    generalize same : delivery.msg = msg at announces
    cases announces with
    | groupMsg asks performs done heard =>
      refine stored asks performs done (.groupMsg same ?_)
      obtain ⟨tables, latest, rfl⟩ := holds.heard _ _ heard
      have lookedUp : backend.lookedUp delivery.thread = tables := by
        rw [Backend.lookedUp, latest]
        rfl
      obtain ⟨row, listed, sameUser⟩ := List.mem_map.mp member
      obtain ⟨there, ofRoom⟩ := List.mem_filter.mp listed
      rw [according, lookedUp]
      exact ⟨row, there, of_decide_eq_true ofRoom, sameUser⟩

theorem Backed.advance (backed : Backed service tasks backend delivery)
    (apart : changes = [] ∨ thread ≠ delivery.thread) (advances : backend.Advances next thread changes) :
    Backed service tasks next delivery := by
  cases backed with
  | permissionDenied task author msg nothing =>
    refine .permissionDenied task author msg fun commit logged => ?_
    rcases apart with rfl | different
    · exact nothing commit ((show next.store.log = backend.store.log from advances.moves.log) ▸ logged)
    · rcases advances.moves.mem_log logged with older | rfl
      · exact nothing commit older
      · exact different
  | posting logged own found asks performs told =>
    exact .posting (advances.moves.log_subset logged) own found asks performs told

theorem announces_quiet {choice : Choice} (announces : op.Announces backend thread delivery) :
    backend.committing thread op choice = [] := by
  rcases announces with rfl | ⟨users, rfl, _⟩
  · exact committing_quiet id
  · exact committing_quiet id

theorem backed_kept {choice : Choice} {answer : Except String op.Result}
    (sofar : ∀ delivery ∈ backend.sent, Backed service tasks backend delivery)
    (holds : known.Holds thread backend)
    (permitted : (contractOf service tasks thread).permitted known op)
    (served : backend.call thread op choice = some (answer, next))
    (fulfils : Fulfils service tasks backend thread known.1.facts changes)
    (advances : backend.Advances next thread changes) :
    ∀ delivery ∈ next.sent, Backed service tasks next delivery := by
  intro delivery member
  rcases sent_after served delivery member with older | ⟨own, announces⟩
  · refine (sofar delivery older).advance (fulfils.imp_right fun commits => ?_) advances
    exact (commits.2.1 delivery older).symm
  · obtain ⟨_, task, found, accountable⟩ := permitted
    refine (announces_backed holds found accountable own announces).advance (.inl ?_) advances
    exact (committing_eq served advances).trans (announces_quiet announces)

/-- What a lookup is answered from is the latest state. -/
theorem lookups_after {choice : Choice} {answer : Except String op.Result}
    (served : backend.call thread op choice = some (answer, next)) :
    ∀ entry ∈ next.lookups, entry ∈ backend.lookups ∨ entry.2 = backend.store.tables := by
  by_cases tells : op.Tells
  swap
  · exact (call_tells.silent tells served).2 ▸ fun _ => .inl
  cases Backend.calls_of_call served with
  | lookup done =>
    cases done
    intro entry member
    exact (List.mem_cons.mp member).symm.imp_right fun same => congrArg Prod.snd same
  | throws may => exact fun _ => .inl
  | writeTo done => cases done; exact fun _ => .inl
  | writeToAll done => cases done; exact fun _ => .inl
  | _ => exact absurd tells id

theorem users_once {tables : Tables} (once : (tables.members.map MemberRow.key).Nodup) (room : UInt64) :
    ((tables.membersOf room).map MemberRow.userId).Nodup := by
  have keys : ((tables.membersOf room).map MemberRow.key).Nodup :=
    once.sublist (List.filter_sublist.map _)
  have same : ((tables.membersOf room).map MemberRow.userId).map (Key.member room) =
      (tables.membersOf room).map MemberRow.key := by
    rw [List.map_map]
    refine List.map_congr_left fun row member => ?_
    simp [MemberRow.key, of_decide_eq_true (List.mem_filter.mp member).2]
  exact List.Nodup.of_map (Key.member room) (same ▸ keys)

/-- What tells one delivery from another. -/
def Delivery.parts (delivery : Delivery) : Nat × UInt64 × Json :=
  (delivery.thread, delivery.user, delivery.msg)

/-- A call of a truthful thread tells each user at most once, and what nobody has been told. -/
theorem parts_once {choice : Choice} {answer : Except String op.Result} {task : Task}
    (once : (backend.sent.map Delivery.parts).Nodup) (holds : known.Holds thread backend)
    (accountable : Accountable service task known op)
    (served : backend.call thread op choice = some (answer, next))
    (latest : ∀ entry ∈ backend.lookups, (entry.2.members.map MemberRow.key).Nodup) :
    (next.sent.map Delivery.parts).Nodup := by
  obtain ⟨users, msg, according, sends, appended⟩ := sent_appended served
  have alone (nodup : users.Nodup) (untold : msg ∉ known.2.told) :
      (next.sent.map Delivery.parts).Nodup := by
    rw [appended, List.map_append, List.map_map]
    refine List.nodup_append.mpr ⟨once, ?_, fun parts there new member same => ?_⟩
    · exact nodup.map fun one two same => (Prod.mk.inj (Prod.mk.inj same).2).1
    · obtain ⟨delivery, sent, rfl⟩ := List.mem_map.mp there
      obtain ⟨user, _, rfl⟩ := List.mem_map.mp member
      have own : delivery.thread = thread := congrArg Prod.fst same
      have again : delivery.msg = msg := congrArg (fun parts => parts.2.2) same
      exact untold (again ▸ holds.told delivery sent own)
  rcases sends with rfl | ⟨user, rfl, within⟩ | ⟨all, rfl, within, _⟩
  · rw [appended]
    simpa using once
  · exact alone ((List.nodup_singleton user).sublist within) accountable.1
  · obtain ⟨untold, announces⟩ := accountable
    refine alone (List.Nodup.sublist within ?_) untold
    cases announces with
    | groupMsg _ _ _ heard =>
      obtain ⟨tables, found, rfl⟩ := holds.heard _ _ heard
      obtain ⟨newer, older, same, _⟩ := List.lookup_eq_some_iff.mp found
      exact users_once (latest (thread, tables) (by simp [same])) _

end Calls

section Runs

variable {service : Service} {initial : Tables} {generator : Generator} {first : RoomService}
variable {moves : List (Move { _task : Task // True } Choice)}
variable {final : Threads Op Op.Result Backend (Option Response)}

/-- In every run, users are only told of messages that their thread has committed: the
content under its room and author, and that only to members when it is for a group, or to
the author that it has been stored. An author who is refused has nothing stored. -/
theorem deliveries_backed
    (ran : (calmTasks service).run (Backend.start initial generator) moves = some final) :
    ∀ delivery ∈ final.shared.sent, Backed service (tasksOf moves) final.shared delivery := by
  exact (requests_attributed (motive := fun backend => ∀ delivery ∈ backend.sent,
    Backed service (tasksOf moves) backend delivery) ran nofun fun _ => backed_kept).valid.2

/-- User 1 creates room 1, invites user 2 and writes to both. -/
private def writingToUserTwo : List (Move { _task : Task // True } Choice) :=
  .start ⟨.createGRoom (sampleRequest .post "/api/group_room" "1" "room"), trivial⟩ ::
    stepsOf 0 [.returns, .returns, .returns, .returns, .returns, .returns] ++
  .start ⟨.inviteMember (sampleRequest .post "/api/rooms/1/member" "1" "invitee 2") 1, trivial⟩ ::
    stepsOf 1 [.returns, .reads 0, .returns, .returns] ++
  .start ⟨.handleMessage "group 1" ⟨1, "1"⟩, trivial⟩ ::
    stepsOf 2 [.returns, .returns, .reads 0, .returns, .returns, .returns, .returns, .returns,
      .online [1, 2], .returns]

private theorem writingToUserTwo_runs : ∃ final, (calmTasks sampleService).run
    (Backend.start {} (sampleGenerator 2)) writingToUserTwo = some final ∧
      final.shared.generator.ids = [1, 2] ∧ final.shared.sent.map Delivery.user = [1, 2] := by
  have ran : (((calmTasks sampleService).run (Backend.start {} (sampleGenerator 2))
      writingToUserTwo).map fun final =>
        (final.shared.generator.ids, final.shared.sent.map Delivery.user)) = some ([1, 2], [1, 2]) := by
    decide +kernel
  obtain ⟨final, reached, both⟩ := Option.map_eq_some_iff.mp ran
  exact ⟨final, reached, congrArg Prod.fst both, congrArg Prod.snd both⟩

theorem deliveries_backed_two : ∃ final, (calmTasks sampleService).run
    (Backend.start {} (sampleGenerator 2)) writingToUserTwo = some final ∧
      final.shared.sent.map Delivery.user = [1, 2] ∧ ∀ delivery ∈ final.shared.sent,
        Backed sampleService (tasksOf writingToUserTwo) final.shared delivery := by
  obtain ⟨final, reached, _, users⟩ := writingToUserTwo_runs
  exact ⟨final, reached, users, deliveries_backed reached⟩

/-- Nobody has been told the same thing twice by one thread, and lookups are answered from
what was committed at some time. -/
structure ToldOnce (backend : Backend) : Prop where
  once : (backend.sent.map Delivery.parts).Nodup
  lookups : ∀ entry ∈ backend.lookups, entry.2 ∈ backend.store.snapshots

theorem toldOnce_of_run
    (ran : (calmTasks service).run (Backend.start initial generator) moves = some final)
    (represents : Represents initial first) (drawable : Drawable first final.shared) :
    ToldOnce final.shared := by
  obtain ⟨history, now, refines⟩ := runs_refine ran represents drawable
  have past : ∀ tables ∈ final.shared.store.snapshots, (tables.members.map MemberRow.key).Nodup := by
    intro tables snapshot
    obtain ⟨before, _, represented, _⟩ := refines.past tables snapshot
    exact represented.once
  refine (requests_attributed (motive := fun backend =>
    (∀ tables ∈ backend.store.snapshots, (tables.members.map MemberRow.key).Nodup) →
      ToldOnce backend) ran (fun _ => ⟨List.nodup_nil, nofun⟩) ?_).valid.2 past
  intro backend next thread known op choice answer changes _ sofar holds permitted served _ advances
    later
  have earlier : ∀ tables ∈ backend.store.snapshots, (tables.members.map MemberRow.key).Nodup :=
    fun tables snapshot => later tables (advances.moves.snapshots_subset snapshot)
  obtain ⟨once, latest⟩ := sofar earlier
  obtain ⟨_, task, found, accountable⟩ := permitted
  refine ⟨parts_once once holds accountable served fun entry looked =>
    earlier _ (latest entry looked), fun entry looked => advances.moves.snapshots_subset ?_⟩
  rcases lookups_after served entry looked with older | same
  · exact latest entry older
  · exact same ▸ Store.tables_mem_snapshots

/-- No thread tells a user the same thing twice, while ids are fresh. -/
theorem deliveries_once
    (ran : (calmTasks service).run (Backend.start initial generator) moves = some final)
    (represents : Represents initial first) (drawable : Drawable first final.shared) :
    (final.shared.sent.map Delivery.parts).Nodup :=
  (toldOnce_of_run ran represents drawable).once

theorem deliveries_once_two : ∃ final, (calmTasks sampleService).run
    (Backend.start {} (sampleGenerator 2)) writingToUserTwo = some final ∧
      final.shared.sent.map Delivery.user = [1, 2] ∧ (final.shared.sent.map Delivery.parts).Nodup := by
  obtain ⟨final, reached, ids, users⟩ := writingToUserTwo_runs
  exact ⟨final, reached, users,
    deliveries_once reached represents_empty (drawable_empty (ids ▸ by decide))⟩

end Runs

end TinyChat.Core
