import TinyChat.Core.RoomKnowledge

/-! Who has sent the stored messages. The membership check may read an older state; what
makes it good for the commit is the row of the room, which the message locks and without
which no deletion of members is committed. -/
namespace TinyChat.Core

open TinyChat.Db TinyChat.Effect TinyChat.Text TinyChat.Transition TinyChat.Utils

section Commits

variable {tables : Tables} {changes : List Change} {facts : List Fact} {roomId userId : UInt64}

theorem hasRoom_of_committed (committable : Committable False facts changes)
    (found : (tables.applyAll changes).HasRoom roomId) : tables.HasRoom roomId := by
  rcases Tables.hasRoom_of_applyAll found with there | ⟨row, adds, _⟩
  · exact there
  · exact absurd (committable.added adds).1 id

/-- A commit takes members only with their room. -/
theorem hasMember_committed (committable : Committable False facts changes)
    (found : (tables.applyAll changes).HasRoom roomId) (member : tables.HasMember roomId userId) :
    (tables.applyAll changes).HasMember roomId userId := by
  obtain ⟨row, there, sameRoom, sameUser⟩ := member
  cases committable with
  | nothing => exact ⟨row, there, sameRoom, sameUser⟩
  | groupRoom may _ => exact absurd may id
  | privateRoom may _ _ => exact absurd may id
  | invitation group =>
    exact ⟨row, List.mem_append_left _ there, sameRoom, sameUser⟩
  | @deletion room user rows some all owner =>
    obtain ⟨left, kept, same⟩ := found
    have other : roomId ≠ room := same ▸ of_decide_eq_true (List.mem_filter.mp kept).2
    refine ⟨row, List.mem_filter.mpr ⟨there, decide_eq_true fun dropped => ?_⟩, sameRoom, sameUser⟩
    exact other (sameRoom.symm.trans (all row dropped))
  | message member drew => exact ⟨row, there, sameRoom, sameUser⟩

end Commits

namespace Backend

/-- Who has been a member of a room is one as long as there is the room. -/
def MembersStay (backend : Backend) : Prop :=
  ∀ earlier ∈ backend.store.snapshots, ∀ roomId userId, earlier.HasMember roomId userId →
    backend.store.tables.HasRoom roomId → backend.store.tables.HasMember roomId userId

/-- Each message was committed to a room by one of its members. -/
def MembersSpeak (backend : Backend) : Prop :=
  ∀ commit ∈ backend.store.log, ∀ row, .addMessage row ∈ commit.changes →
    commit.after.HasRoom row.roomId ∧ commit.after.HasMember row.roomId row.senderId

variable {backend next : Backend} {thread : Nat} {phase : Phase} {changes : List Change}

theorem MembersStay.advance (stay : backend.MembersStay)
    (committable : Committable False phase.facts changes)
    (advances : backend.Advances next thread changes) : next.MembersStay := by
  intro earlier snapshot roomId userId member room
  rcases advances.moves.mem_snapshots snapshot with older | rfl
  · rw [advances.moves.tables] at room ⊢
    exact hasMember_committed committable room
      (stay earlier older roomId userId member (hasRoom_of_committed committable room))
  · exact member

theorem MembersSpeak.advance (valid : backend.Valid) (stay : backend.MembersStay)
    (speak : backend.MembersSpeak) (knows : phase.Knows thread backend)
    (committable : Committable False phase.facts changes)
    (advances : backend.Advances next thread changes) : next.MembersSpeak := by
  intro commit logged row adds
  rcases advances.moves.mem_log logged with older | rfl
  · exact speak commit older row adds
  cases committable with
  | @message other member drew =>
    obtain rfl : row = other := by simpa using adds
    have room : next.store.tables.HasRoom row.roomId := by
      rw [advances.moves.tables]
      exact Tables.hasRoom_applyAll (committed_room valid advances rfl) (by simp)
    obtain ⟨earlier, snapshot, was⟩ := knows.facts _ member
    exact ⟨room, stay.advance (.message member drew) advances earlier
      (advances.moves.snapshots_subset snapshot) _ _ was room⟩
  | groupRoom may _ => exact absurd may id
  | privateRoom may _ _ => exact absurd may id
  | _ => simp at adds

end Backend

/-- Messages, invitations and deletions of rooms; any of their statements may fail. -/
abbrev failingRooms (service : Service) :
    Machine (Threads Op Op.Result Backend (Option Response))
      (Move { task : Task // ¬ task.Creates } Choice) :=
  roomMachine Backend.attempt service fun task => ¬ task.Creates

/-- In every interleaving of message handlers with invitations and deletions of rooms, a
message is only committed while its room exists and its sender is a member of it, unless a
`ROLLBACK` throws while half of an operation is pending. -/
theorem only_members_speak {service : Service} {initial : Tables} {generator : Generator}
    {moves : List (Move { task : Task // ¬ task.Creates } Choice)}
    {final : Threads Op Op.Result Backend (Option Response)}
    (ran : (failingRooms service).run (Backend.start initial generator) moves = some final)
    (undone : (failingRooms service).Allowed (fun _ => UndoesHalves) (Backend.start initial generator)
      moves) :
    ∀ commit ∈ final.shared.store.log, ∀ row, .addMessage row ∈ commit.changes →
      commit.after.HasRoom row.roomId ∧ commit.after.HasMember row.roomId row.senderId := by
  refine (room_invariant (motive := fun backend => backend.MembersStay ∧ backend.MembersSpeak)
    orderly_wholly (fun _ none creates => none creates) (guarded_run_iff.mpr ⟨ran, undone⟩)
      ⟨?_, nofun⟩ ?_).2
  · intro earlier snapshot roomId userId member _
    obtain rfl := List.mem_singleton.mp snapshot
    exact member
  · intro _ _ _ _ _ valid ⟨stay, speak⟩ knows released advances
    have committable := released.committable
    exact ⟨stay.advance committable advances, speak.advance valid stay knows committable advances⟩

/-- User 1 speaks in room 1 while a request of his own deletes it: the deletion waits for
the row of the room after it has deleted the members. A message of user 2 fails before it has
written anything, and so does its `ROLLBACK`. -/
private def speakingWhileDeleting : List (Move { task : Task // ¬ task.Creates } Choice) :=
  [.start (sampleMessage ⟨1, "1"⟩),
    .start ⟨.deleteRoom (sampleRequest .delete "/api/rooms/1" "1" "") 1, id⟩,
    .start (sampleMessage ⟨2, "2"⟩)] ++
  stepsOf 0 [.returns, .returns, .reads 0, .returns, .returns, .returns] ++
  stepsOf 1 [.returns, .returns, .reads 0, .returns] ++ stepsOf 0 [.unanswered] ++
  stepsOf 2 [.returns, .returns, .throws, .throws, .returns] ++ stepsOf 1 [.returns, .returns]

theorem only_members_speak_while_deleting :
    ∃ final, (failingRooms sampleService).run (Backend.start sampleRoom (sampleGenerator 1))
        speakingWhileDeleting = some final ∧
      ∀ commit ∈ final.shared.store.log, ∀ row, .addMessage row ∈ commit.changes →
        commit.after.HasRoom row.roomId ∧ commit.after.HasMember row.roomId row.senderId := by
  have ran : ((roomMachine Backend.wholly sampleService fun task => ¬ task.Creates).run
    (Backend.start sampleRoom (sampleGenerator 1)) speakingWhileDeleting).isSome := by decide +kernel
  obtain ⟨reached, undone⟩ := guarded_run_iff.mp (Option.some_get ran).symm
  exact ⟨_, reached, only_members_speak reached undone⟩

/-- User 2 finds himself a member of room 1. Then its deletion fails at the row of the room,
the `ROLLBACK` throws, and the destructor commits that the room has no members. -/
private def speakingAfterHalf : List (Move { task : Task // ¬ task.Creates } Choice) :=
  [.start (sampleMessage ⟨2, "2"⟩),
    .start ⟨.deleteRoom (sampleRequest .delete "/api/rooms/1" "1" "") 1, id⟩] ++
  stepsOf 0 [.returns, .returns, .reads 0] ++
  stepsOf 1 [.returns, .returns, .reads 0, .returns, .throws, .throws, .returns] ++
  stepsOf 0 [.returns, .returns, .returns, .returns]

/-- The message of user 2 is committed to a room that has no members any more. -/
theorem stranger_speaks_after_half :
    ¬ ∀ (service : Service) (initial : Tables) (generator : Generator)
      (moves : List (Move { task : Task // ¬ task.Creates } Choice))
      (final : Threads Op Op.Result Backend (Option Response)),
      (failingRooms service).run (Backend.start initial generator) moves = some final →
      ∀ commit ∈ final.shared.store.log, ∀ row, .addMessage row ∈ commit.changes →
        commit.after.HasRoom row.roomId ∧ commit.after.HasMember row.roomId row.senderId := by
  intro claimed
  have ran : ((failingRooms sampleService).run (Backend.start sampleRoom (sampleGenerator 1))
      speakingAfterHalf).map (fun final => (final.shared.store.log.head?.map fun commit =>
        (commit.changes, commit.after.members))) =
      some (some ([.addMessage { id := 1, roomId := 1, senderId := 2, content := "hello" },
        .setLast 1 1], [])) := by decide +kernel
  obtain ⟨final, reached, shown⟩ := Option.map_eq_some_iff.mp ran
  obtain ⟨commit, latest, same⟩ := Option.map_eq_some_iff.mp shown
  obtain ⟨changes, members⟩ := Prod.mk.inj same
  obtain ⟨_, row, there, _⟩ := claimed _ _ _ _ final reached commit (List.mem_of_head? latest)
    { id := 1, roomId := 1, senderId := 2, content := "hello" } (by simp [changes])
  rw [members] at there
  cases there

end TinyChat.Core
