import TinyChat.Core.RoomKnowledge
import TinyChat.Core.RoomTransactions

/-! Members of rooms that are gone. An invitation looks its room up and inserts the member
in two statements without a transaction, and a deletion takes the members away before the
room: what keeps every member in a room is the moment of the two commits. -/
namespace TinyChat.Core

open TinyChat.Db TinyChat.Effect TinyChat.Text TinyChat.Transition TinyChat.Utils
open Program

/-- Every member is one of a room that is there. -/
def OrphanFree (tables : Tables) : Prop := ∀ row ∈ tables.members, tables.HasRoom row.roomId

/-- The tables into which the changes may be committed: the room of an invitation is there,
and a deletion has found every member of its room. -/
structure Attached (tables : Tables) (changes : List Change) : Prop where
  invitation : ∀ row, changes = [.addMembers [row]] → tables.HasRoom row.roomId
  deletion : ∀ rows room, changes = [.dropMembers rows, .dropRoom room] →
    ∀ row ∈ tables.members, row.roomId = room → row ∈ rows

section Commits

variable {creates torn : Prop} {tables : Tables} {changes : List Change} {facts : List Fact}

/-- Members may come with their room. -/
theorem OrphanFree.addRoom (free : OrphanFree tables) {room : RoomRow} {rows : List MemberRow}
    (all : ∀ row ∈ rows, row.roomId = room.id) :
    OrphanFree (tables.applyAll [.addRoom room, .addMembers rows]) := by
  intro row member
  rcases List.mem_append.mp member with there | new
  · obtain ⟨found, old, same⟩ := free row there
    exact ⟨found, List.mem_append_left _ old, same⟩
  · exact ⟨room, List.mem_append_right _ (List.mem_singleton.mpr rfl), (all row new).symm⟩

theorem orphanFree_invitation_iff (free : OrphanFree tables) {row : MemberRow} :
    OrphanFree (tables.applyAll [.addMembers [row]]) ↔ tables.HasRoom row.roomId := by
  constructor
  · exact fun after => after row (List.mem_append_right _ (List.mem_singleton.mpr rfl))
  · intro room other member
    rcases List.mem_append.mp member with there | new
    · exact free other there
    · exact List.mem_singleton.mp new ▸ room

theorem orphanFree_deletion_iff (free : OrphanFree tables) {rows : List MemberRow} {room : UInt64} :
    OrphanFree (tables.applyAll [.dropMembers rows, .dropRoom room]) ↔
      ∀ row ∈ tables.members, row.roomId = room → row ∈ rows := by
  constructor
  · intro after row there of
    by_contra kept
    obtain ⟨left, still, same⟩ := after row (List.mem_filter.mpr ⟨there, decide_eq_true kept⟩)
    exact of_decide_eq_true (List.mem_filter.mp still).2 (same.trans of)
  · intro found row member
    obtain ⟨there, kept⟩ := List.mem_filter.mp member
    obtain ⟨left, still, same⟩ := free row there
    refine ⟨left, List.mem_filter.mpr ⟨still, decide_eq_true fun gone => ?_⟩, same⟩
    exact of_decide_eq_true kept (found row there (same.symm.trans gone))

/-- No half of a transaction leaves a member without a room. -/
theorem OrphanFree.half (free : OrphanFree tables) (half : Half creates facts changes) :
    OrphanFree (tables.applyAll changes) := by
  have stays (kept : ∀ room, .dropRoom room ∉ changes) {row : MemberRow} (there : row ∈ tables.members) :
      (tables.applyAll changes).HasRoom row.roomId :=
    Tables.hasRoom_applyAll (free row there) (kept _)
  cases half with
  | room may drew => exact fun row there => stays (by simp) there
  | members all => exact fun row left => stays (by simp) (List.mem_filter.mp left).1
  | message drew => exact fun row there => stays (by simp) there

theorem attached_half {other : Tables} (half : Half creates facts changes) : Attached other changes := by
  cases half <;> exact ⟨nofun, nofun⟩

/-- A commit leaves no member without a room if and only if the tables were fit for it. -/
theorem orphanFree_committed_iff (free : OrphanFree tables)
    (released : Released creates torn facts changes) :
    OrphanFree (tables.applyAll changes) ↔ Attached tables changes := by
  rcases released with committable | ⟨_, half⟩
  swap
  · exact iff_of_true (free.half half) (attached_half half)
  cases committable with
  | nothing => exact iff_of_true free ⟨nofun, nofun⟩
  | groupRoom may drew => exact iff_of_true (free.addRoom (by simp)) ⟨nofun, nofun⟩
  | privateRoom may drew different => exact iff_of_true (free.addRoom (by simp)) ⟨nofun, nofun⟩
  | invitation group =>
    rw [orphanFree_invitation_iff free]
    constructor
    · intro room
      refine ⟨fun row same => ?_, nofun⟩
      cases same
      exact room
    · exact fun attached => attached.invitation _ rfl
  | deletion some all owner =>
    rw [orphanFree_deletion_iff free]
    constructor
    · intro found
      refine ⟨nofun, fun rows room same => ?_⟩
      cases same
      exact found
    · exact fun attached => attached.deletion _ _ rfl
  | message member drew =>
    refine iff_of_true (fun row there => ?_) ⟨nofun, nofun⟩
    exact Tables.hasRoom_applyAll (free row there) (by simp)

end Commits

/-- The rooms that the changes take away. -/
def droppedRooms (changes : List Change) : List UInt64 :=
  changes.filterMap fun
    | .dropRoom room => some room
    | _ => none

/-- A thread remembers the rooms that its commits have taken away. -/
def recordDropped (phase : Phase) : (op : Op) → Except String op.Result → List UInt64 → List UInt64
  | .commit, .ok _, dropped => droppedRooms phase.pending ++ dropped
  | _, _, dropped => dropped

/-- The protocol of the tasks with the rooms they have taken away. -/
abbrev deletions : Contract Op Op.Result (Phase × List UInt64) :=
  (protocol True True).recording recordDropped

/-- A task with its reply. -/
def Task.replied (service : Service) (task : Task) : WorkerTask (Task × Option Response) :=
  (fun reply => (task, reply)) <$> task.program service

/-- A deletion that replies with success has taken its room away. -/
def Told (known : Phase × List UInt64) (outcome : Outcome (Task × Option Response)) : Prop :=
  ∀ req roomId response, outcome = .returned (.deleteRoom req roomId, some response) →
    response.succeeded = true → roomId ∈ known.2

section Replies

variable {service : Service} {req : Request} {roomId : UInt64} {facts : List Fact}
variable {known : Phase × List UInt64} {dropped : List UInt64}

/-- If the reply is a success, the room is among those taken away. -/
def Removes (roomId : UInt64) (known : Phase × List UInt64) (outcome : Outcome Response) : Prop :=
  ∀ response, outcome = .returned response → response.succeeded = true → roomId ∈ known.2

theorem removes_raised {what : String} : Removes roomId known (.raised what) := by
  intro response raised
  cases raised

theorem deleteRows_removes : (deleteRows req roomId).Meets deletions.unguarded (Removes roomId)
    (⟨.inTransaction [], facts⟩, dropped) := by
  refine meets_call_then trivial (fun (members : Nat) later expected => ?_) fun _ _ _ => removes_raised
  refine meets_throwIf_then (fun some => ?_) fun _ => removes_raised
  obtain ⟨_, change, changed, first⟩ := executed_of_accepted expected.1 (by simpa [unexpected] using some)
  obtain ⟨rows, rfl, _, _⟩ := Write.change_deleteMembers some changed
  refine meets_call_then trivial (fun (rooms : Nat) last expected => ?_) fun _ _ _ => removes_raised
  refine meets_throwIf_then (fun some => ?_) fun _ => removes_raised
  obtain ⟨_, change, changed, second⟩ := executed_of_accepted expected.1 (by simpa [unexpected] using some)
  obtain rfl := Write.change_deleteRoom some changed
  refine meets_call_then trivial (fun _ final committed => ?_) fun _ _ _ => removes_raised
  intro response _ _
  rw [committed.2, second, first]
  exact List.mem_append_left _ (List.mem_singleton.mpr rfl)

theorem removes_of_failure {response : Response} (fails : response.succeeded = false) :
    Removes roomId known (.returned response) := by
  intro other same succeeded
  cases same
  cases fails.symm.trans succeeded

theorem rollbackAndReply_removes {response : Response} (fails : response.succeeded = false) :
    (rollbackAndReply response).Meets deletions.unguarded (Removes roomId) known :=
  meets_call_then trivial (fun _ _ _ => removes_of_failure fails) fun _ _ _ => removes_raised

theorem deleteOwned_removes : (deleteOwned service req roomId).Meets deletions.unguarded
    (Removes roomId) (⟨.inTransaction [], facts⟩, dropped) := by
  refine meets_ofExcept_then (fun claims _ => ?_) fun _ _ => removes_raised
  refine meets_call_then trivial (fun (roles : List Int) later asked => ?_) fun _ _ _ => removes_raised
  cases roles with
  | nil => exact removes_of_failure rfl
  | cons role more =>
    obtain ⟨phase, _⟩ := later
    obtain ⟨learns, _⟩ := asked
    obtain rfl : phase = _ := learns
    dsimp only
    split
    · exact removes_of_failure rfl
    · exact deleteRows_removes

theorem leave_removes {outcome : Outcome Response} (removes : Removes roomId known outcome) :
    (onLeave release outcome : WorkerTask Response).Meets deletions.unguarded (Removes roomId)
      known := by
  cases outcome with
  | returned response =>
    refine meets_onDestroyed.mpr (meets_perform.mpr ⟨trivial, fun _ after left => ?_, fun _ _ _ => ?_⟩)
    · intro other same succeeded
      exact left.2 ▸ removes other same succeeded
    · exact nofun
  | raised what =>
    refine meets_onDestroyed.mpr (meets_perform.mpr ⟨trivial, fun _ _ _ => ?_, fun _ _ _ => ?_⟩)
    · exact removes_raised
    · exact nofun
  | terminated => exact nofun
  | undefined => exact nofun

theorem deleteRoom_removes : (deleteRoom service req roomId).Meets deletions.unguarded
    (Removes roomId) known := by
  refine meets_call_then trivial (fun _ later connected => ?_) fun _ _ _ => removes_raised
  obtain ⟨phase, _⟩ := later
  obtain rfl : phase = { known.1 with session := .autoCommit } := connected.1
  refine meets_withDestructor.mpr (meets_call_then trivial (fun _ later begun => ?_) fun _ _ _ => ?_)
  swap
  · exact leave_removes removes_raised
  obtain ⟨phase, _⟩ := later
  obtain rfl := after_begin begun.1.1 begun.1.2
  refine meets_tryCatch.mpr (deleteOwned_removes.mono fun after outcome removes => ?_)
  cases outcome with
  | returned response => exact leave_removes removes
  | raised what => exact (rollbackAndReply_removes rfl).mono fun _ _ => leave_removes
  | terminated => exact nofun
  | undefined => exact nofun

theorem program_removes : ((Task.deleteRoom req roomId).program service).Meets deletions.unguarded
    (fun later outcome => ∀ response, outcome = .returned (some response) →
      response.succeeded = true → roomId ∈ later.2) known := by
  refine meets_map.mpr (deleteRoom_removes.mono fun after outcome removes => ?_)
  cases outcome with
  | returned response =>
    intro other same
    cases same
    exact removes response rfl
  | raised what => exact fun _ => nofun
  | terminated => exact fun _ => nofun
  | undefined => exact fun _ => nofun

theorem replied_told (task : Task) : (task.replied service).Meets deletions Told ({}, []) := by
  have follows : (task.program service).Meets deletions (fun _ _ => True) ({}, []) :=
    (task_follows fun _ => trivial).recording
  have tells : (task.program service).Meets deletions (fun later outcome =>
      ∀ req roomId response, task = .deleteRoom req roomId → outcome = .returned (some response) →
        response.succeeded = true → roomId ∈ later.2) ({}, []) := by
    cases task with
    | deleteRoom req roomId =>
      refine (follows.and program_removes rfl).mono fun later outcome both => ?_
      intro _ _ response same
      cases same
      exact both.2 response
    | _ => exact follows.mono fun _ _ _ _ _ _ => nofun
  refine meets_map.mpr (tells.mono fun later outcome told => ?_)
  cases outcome with
  | returned reply =>
    intro req roomId response same
    cases same
    exact told req roomId response rfl rfl
  | raised what => exact fun _ _ _ => nofun
  | terminated => exact fun _ _ _ => nofun
  | undefined => exact fun _ _ _ => nofun

end Replies

namespace Backend

/-- A commit has taken away each of these rooms. -/
def HasDropped (rooms : List UInt64) (backend : Backend) : Prop :=
  ∀ room ∈ rooms, ∃ commit ∈ backend.store.log, .dropRoom room ∈ commit.changes

/-- A room that was taken away had been there, and it does not come back. -/
def Gone (backend : Backend) : Prop :=
  ∀ commit ∈ backend.store.log, ∀ room, .dropRoom room ∈ commit.changes →
    (∃ earlier ∈ backend.store.snapshots, earlier.HasRoom room) ∧
      (backend.Fresh → ¬ backend.store.tables.HasRoom room)

variable {backend next : Backend} {thread : Nat} {phase : Phase} {changes : List Change}
variable {rooms : List UInt64}

theorem HasDropped.advance (dropped : HasDropped rooms backend)
    (advances : backend.Advances next thread changes) : HasDropped rooms next := by
  intro room member
  obtain ⟨commit, logged, drops⟩ := dropped room member
  exact ⟨commit, advances.moves.log_subset logged, drops⟩

theorem Gone.advance (valid : backend.Valid) (gone : backend.Gone)
    (knows : phase.Knows thread backend) (released : Released True True phase.facts changes)
    (advances : backend.Advances next thread changes) : next.Gone := by
  intro commit logged room drops
  rcases advances.moves.mem_log logged with older | rfl
  · obtain ⟨⟨earlier, snapshot, was⟩, absent⟩ := gone commit older room drops
    refine ⟨⟨earlier, advances.moves.snapshots_subset snapshot, was⟩, fun fresh found => ?_⟩
    have before := advances.fresh fresh
    rw [advances.moves.tables] at found
    rcases Tables.hasRoom_of_applyAll found with there | ⟨row, adds, rfl⟩
    · exact absent before there
    · exact (knows.facts _ (released.added adds).2).2 before earlier snapshot was
  · rcases released with committable | ⟨_, half⟩
    swap
    · cases half <;> simp at drops
    cases committable with
    | @deletion _ _ rows some all owner =>
      obtain rfl : room = _ := by simpa using drops
      have was : backend.store.tables.HasRoom room := by
        rcases valid.locked.committed_found advances.steps advances.moves drops rfl with
          there | ⟨_, adds, _⟩
        · exact there
        · simp at adds
      refine ⟨⟨_, advances.moves.snapshots_subset Store.tables_mem_snapshots, was⟩, fun _ found => ?_⟩
      rw [advances.moves.tables] at found
      obtain ⟨left, still, same⟩ := found
      exact of_decide_eq_true (List.mem_filter.mp still).2 same
    | _ => simp at drops

/-- What a thread records of its own call is in the log. -/
theorem HasDropped.record {op : Op} {choice : Choice} {answer : Except String op.Result}
    (knows : phase.Knows thread backend)
    (served : backend.attempt thread op choice = some (answer, next))
    (dropped : HasDropped rooms next) : HasDropped (recordDropped phase op answer rooms) next := by
  cases op with
  | commit =>
    cases answer with
    | error what => exact dropped
    | ok result =>
      cases attempts_of_attempt served with
      | called called =>
        cases calls_of_call called with
        | commit done =>
          have moves := (Store.commit_moves (onConnection_eq_some done).2.2).1
          rw [pending_eq knows] at moves
          intro room member
          rcases List.mem_append.mp member with new | old
          · obtain ⟨change, pending, same⟩ := List.mem_filterMap.mp new
            cases change <;> cases same
            exact moves.logged pending
          · exact dropped room old
  | _ => exact dropped

end Backend

/-- Along every run, what the threads have taken away is in the log and stays away. -/
theorem deletions_keep : Keeps deletions
    (fun thread known backend => known.1.Knows thread backend ∧ Backend.HasDropped known.2 backend)
    (fun backend => backend.Valid ∧ backend.Gone) Backend.attempt := by
  have keeps : Keeps (protocol True True) (fun thread phase backend => phase.Knows thread backend)
      (fun backend => backend.Valid ∧ backend.Gone) Backend.attempt := by
    refine (backend_keeps orderly_attempt).and fun valid gone knows permitted served => ?_
    obtain ⟨_, _, released, advances, _⟩ :=
      attempt_answered valid knows permitted (.inl trivial) served
    exact gone.advance valid knows released advances
  refine keeps.recording (fun both knows permitted served dropped => ?_)
    fun _ knows _ served dropped => dropped.record knows served
  obtain ⟨_, _, _, advances, _⟩ := attempt_answered both.1 knows permitted (.inl trivial) served
  exact dropped.advance advances

/-- At a commit, the committed tables are fit for what it commits. -/
def CommitsAttached {α β : Type} (threads : Threads Op Op.Result Backend β) (move : Move α Choice) :
    Prop :=
  ∀ thread op next choice, move = .step thread choice →
    threads.programs[thread]? = some (.call op next) →
    Attached threads.shared.store.tables (threads.shared.committing thread op choice)

/-- Any number of tasks in any interleaving, each of which ends with its reply; any of their
statements may fail. -/
def replyMachine (service : Service) :
    Machine (Threads Op Op.Result Backend (Task × Option Response)) (Move Task Choice) :=
  interleaving Backend.attempt (Task.replied service)

/-- Before the first task, with these rows committed. -/
def unstarted (initial : Tables) (generator : Generator) :
    Threads Op Op.Result Backend (Task × Option Response) :=
  { shared := (Backend.start initial generator).shared, programs := [] }

/-- There is no member without a room. As long as ids are fresh, the room of a deletion that
has replied with success has no members. -/
structure NoOrphans (threads : Threads Op Op.Result Backend (Task × Option Response)) : Prop where
  rooms : OrphanFree threads.shared.store.tables
  deleted : threads.shared.Fresh → ∀ (thread : Nat) (req : Request) (roomId : UInt64)
    (response : Response),
    threads.programs[thread]? = some (.done (.returned (.deleteRoom req roomId, some response))) →
    response.succeeded = true → threads.shared.store.tables.membersOf roomId = []

section Runs

variable {service : Service} {initial : Tables} {generator : Generator} {moves : List (Move Task Choice)}
variable {threads after final : Threads Op Op.Result Backend (Task × Option Response)}
variable {move : Move Task Choice}

abbrev Reporting (threads : Threads Op Op.Result Backend (Task × Option Response)) : Prop :=
  Covered deletions
    (fun thread known backend => known.1.Knows thread backend ∧ Backend.HasDropped known.2 backend)
    (fun backend => backend.Valid ∧ backend.Gone) ({}, []) Told threads

theorem reporting_of_run
    (ran : (replyMachine service).run (unstarted initial generator) moves = some final) :
    Reporting final :=
  Covered.run deletions_keep replied_told ran
    (covered_initial ⟨start_valid, nofun⟩ fun _ => ⟨⟨rfl, nofun⟩, nofun⟩)

/-- One step keeps every member in a room if and only if what it commits is fit for that. -/
theorem orphanFree_step_iff (reporting : Reporting threads)
    (free : OrphanFree threads.shared.store.tables)
    (taken : (replyMachine service).step threads move = some after) :
    OrphanFree after.shared.store.tables ↔ CommitsAttached threads move := by
  cases move with
  | start task =>
    cases taken
    exact iff_of_true free nofun
  | step thread choice =>
    obtain ⟨op, rest, answer, found, served, _⟩ := interleaving_step taken
    obtain ⟨known, held, permitted, _⟩ := reporting.next_call found
    obtain ⟨changes, _, released, advances, _⟩ :=
      attempt_answered reporting.valid.1 held.1 permitted (.inl trivial) served
    rw [advances.moves.tables, orphanFree_committed_iff free released,
      advances.moves.unique (attempt_moves served)]
    constructor
    · intro attached other called next made same calls
      cases same
      cases found.symm.trans calls
      exact attached
    · exact fun attached => attached thread op rest choice rfl found

/-- A reported deletion is in the log, and its room does not come back. -/
theorem Reporting.deleted (reporting : Reporting threads)
    (free : OrphanFree threads.shared.store.tables) (fresh : threads.shared.Fresh) {thread : Nat}
    {req : Request} {roomId : UInt64} {response : Response}
    (done : threads.programs[thread]? =
      some (.done (.returned (.deleteRoom req roomId, some response))))
    (succeeded : response.succeeded = true) :
    threads.shared.store.tables.membersOf roomId = [] := by
  obtain ⟨known, held, told⟩ := reporting.running thread _ done
  obtain ⟨commit, logged, drops⟩ := held.2 roomId (told req roomId response rfl succeeded)
  have absent := (reporting.valid.2 commit logged roomId drops).2 fresh
  refine List.filter_eq_nil_iff.mpr fun row there of => absent ?_
  exact of_decide_eq_true of ▸ free row there

/-- In every interleaving of requests and messages, no member is ever without a room, also
after a deletion that has replied with success, if and only if each invitation inserts its
member while the room is there and each deletion is committed with all members found. -/
theorem no_orphans_iff (starts : OrphanFree initial)
    (ran : (replyMachine service).run (unstarted initial generator) moves = some final) :
    (replyMachine service).Throughout (fun _ => NoOrphans) (unstarted initial generator) moves ↔
      (replyMachine service).Allowed (fun _ => CommitsAttached) (unstarted initial generator)
        moves := by
  refine (Machine.throughout_congr fun _ threads reached => ?_).trans
    (Machine.throughout_iff_allowed ran starts fun _ _ _ _ reached free taken =>
      orphanFree_step_iff (reporting_of_run reached) free taken)
  constructor
  · exact fun none => none.rooms
  · intro free
    refine ⟨free, fun fresh _ _ _ _ done succeeded => ?_⟩
    exact (reporting_of_run reached).deleted free fresh done succeeded

end Runs

/-- User 1 creates a room and invites user 2. The invitation looks the room up, then the
room is deleted, and then the invitation inserts its member. -/
private def invitedTooLate : List (Move Task Choice) :=
  [.start (.createGRoom (sampleRequest .post "/api/group_room" "1" "room"))] ++
  stepsOf 0 [.returns, .returns, .returns, .returns, .returns, .returns] ++
  [.start (.inviteMember (sampleRequest .post "/api/rooms/1/member" "1" "invitee 2") 1)] ++
  stepsOf 1 [.returns, .reads 0] ++
  [.start (.deleteRoom (sampleRequest .delete "/api/rooms/1" "1" "") 1)] ++
  stepsOf 2 [.returns, .returns, .reads 0, .returns, .returns, .returns, .returns] ++
  stepsOf 1 [.returns, .returns]

theorem no_orphans_iff_too_late :
    (replyMachine sampleService).Throughout (fun _ => NoOrphans) (unstarted {} (sampleGenerator 1))
        invitedTooLate ↔
      (replyMachine sampleService).Allowed (fun _ => CommitsAttached)
        (unstarted {} (sampleGenerator 1)) invitedTooLate := by
  have ran : ((replyMachine sampleService).run (unstarted {} (sampleGenerator 1))
    invitedTooLate).isSome := by decide +kernel
  exact no_orphans_iff nofun (Option.some_get ran).symm

/-- User 2 ends as a member of room 1, which has been deleted with success. -/
theorem member_without_room :
    ¬ ∀ (service : Service) (generator : Generator) (moves : List (Move Task Choice))
      (final : Threads Op Op.Result Backend (Task × Option Response)),
      (∀ msg userClaims, .start (.handleMessage msg userClaims) ∉ moves) →
      (replyMachine service).run (unstarted {} generator) moves = some final →
      OrphanFree final.shared.store.tables := by
  intro claimed
  have ran : (((replyMachine sampleService).run (unstarted {} (sampleGenerator 1)) invitedTooLate).map
      fun final => final.shared.store.tables) = some
        { rooms := [], members := [{ roomId := 1, userId := 2, role := GroupRole.member.code }] } := by
    decide +kernel
  obtain ⟨final, reached, shown⟩ := Option.map_eq_some_iff.mp ran
  have free := claimed _ _ _ final (by simp [invitedTooLate, stepsOf]) reached
  rw [shown] at free
  obtain ⟨_, none, _⟩ := free _ (List.mem_singleton.mpr rfl)
  cases none

end TinyChat.Core
