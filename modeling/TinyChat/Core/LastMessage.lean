import TinyChat.Core.RoomKnowledge

/-! The last message of a room under concurrent messages. The row of the room is locked
from its update to the commit, so messages of one room are committed one by one; their
ids were drawn before, under another lock and perhaps in another order. -/
namespace TinyChat.Core

open TinyChat.Db TinyChat.Effect TinyChat.Text TinyChat.Transition TinyChat.Utils

def messageIds (tables : Tables) (roomId : UInt64) : List UInt64 :=
  (tables.messages.filter (·.roomId = roomId)).map MessageRow.id

/-- `last_message_id` of every room with messages is the largest id among them. -/
def LastIsLargest (tables : Tables) : Prop :=
  ∀ room ∈ tables.rooms, messageIds tables room.id ≠ [] →
    ∃ last ∈ messageIds tables room.id, room.lastMessageId = some last ∧
      ∀ id ∈ messageIds tables room.id, id ≤ last

section Commits

variable {tables : Tables} {changes : List Change} {facts : List Fact} {row : MessageRow}
variable {roomId : UInt64}

theorem messageIds_message :
    messageIds (tables.applyAll [.addMessage row, .setLast row.id row.roomId]) roomId =
      messageIds tables roomId ++ if row.roomId = roomId then [row.id] else [] := by
  by_cases same : row.roomId = roomId <;> simp [messageIds, Tables.apply, same]

/-- A message that is committed keeps the last message the largest if and only if no
message of its room has a larger id. -/
theorem lastIsLargest_message_iff (largest : LastIsLargest tables) (room : tables.HasRoom row.roomId) :
    LastIsLargest (tables.applyAll [.addMessage row, .setLast row.id row.roomId]) ↔
      ∀ id ∈ messageIds tables row.roomId, id ≤ row.id := by
  have rooms : (tables.applyAll [.addMessage row, .setLast row.id row.roomId]).rooms =
      tables.rooms.map fun room => if room.id = row.roomId then
        { room with lastMessageId := some row.id } else room := rfl
  constructor
  · intro after id member
    obtain ⟨found, there, same⟩ := room
    have updated : { found with lastMessageId := some row.id } ∈
        (tables.applyAll [.addMessage row, .setLast row.id row.roomId]).rooms := by
      rw [rooms]
      exact List.mem_map.mpr ⟨found, there, if_pos same⟩
    have added : id ∈ messageIds (tables.applyAll [.addMessage row, .setLast row.id row.roomId])
        found.id := by
      rw [messageIds_message, same]
      exact List.mem_append_left _ member
    obtain ⟨last, _, shown, above⟩ := after _ updated (List.ne_nil_of_mem added)
    cases shown
    exact above id added
  · intro above changed updated nonempty
    rw [rooms] at updated
    obtain ⟨found, there, rfl⟩ := List.mem_map.mp updated
    by_cases same : found.id = row.roomId
    · rw [if_pos same, messageIds_message, if_pos same.symm, same] at nonempty ⊢
      refine ⟨row.id, List.mem_append_right _ (List.mem_singleton.mpr rfl), rfl, fun id member => ?_⟩
      rcases List.mem_append.mp member with earlier | new
      · exact above id earlier
      · exact List.mem_singleton.mp new ▸ UInt64.le_refl _
    · rw [if_neg same, messageIds_message, if_neg (Ne.symm same), List.append_nil] at nonempty ⊢
      exact largest found there nonempty

theorem LastIsLargest.committed (largest : LastIsLargest tables)
    (committable : Committable False facts changes) (silent : ∀ row, .addMessage row ∉ changes) :
    LastIsLargest (tables.applyAll changes) := by
  cases committable with
  | nothing => exact largest
  | groupRoom may _ => exact absurd may id
  | privateRoom may _ _ => exact absurd may id
  | invitation _ => exact largest
  | deletion _ _ _ => exact fun room left => largest room (List.mem_filter.mp left).1
  | @message row _ _ => exact absurd (List.mem_cons_self ..) (silent row)

end Commits

/-- At the commit of a message its id is not below that of a committed message of the
room. -/
def CommitsInOrder {α : Type} (threads : Threads Op Op.Result Backend (Option Response))
    (move : Move α Choice) : Prop :=
  ∀ thread op next choice, move = .step thread choice →
    threads.programs[thread]? = some (.call op next) → Commits op choice →
    ∀ row, .addMessage row ∈ threads.shared.store.pending thread →
      ∀ id ∈ messageIds threads.shared.store.tables row.roomId, id ≤ row.id

/-- Messages, invitations and deletions of rooms, in the ordinary course. -/
abbrev existingRooms (service : Service) :
    Machine (Threads Op Op.Result Backend (Option Response))
      (Move { task : Task // ¬ task.Creates } Choice) :=
  roomMachine Backend.call service fun task => ¬ task.Creates

variable {service : Service} {threads after : Threads Op Op.Result Backend (Option Response)}
variable {move : Move { task : Task // ¬ task.Creates } Choice}

/-- One step keeps the last message the largest if and only if it commits in order. -/
theorem lastIsLargest_step_iff
    (covered : Covered (calm False) (fun thread phase backend => phase.Knows thread backend)
      Backend.Valid {} (fun _ _ => True) threads)
    (largest : LastIsLargest threads.shared.store.tables)
    (taken : (existingRooms service).step threads move = some after) :
    LastIsLargest after.shared.store.tables ↔ CommitsInOrder threads move := by
  cases move with
  | start task =>
    cases taken
    exact iff_of_true largest nofun
  | step thread choice =>
    obtain ⟨op, rest, answer, found, served, _⟩ := interleaving_step taken
    obtain ⟨phase, knows, permitted, _⟩ := covered.next_call found
    obtain ⟨changes, _, released, advances, _⟩ := call_answered covered.valid knows permitted served
    have committable := released.committable
    rw [advances.moves.tables]
    by_cases message : ∃ row, .addMessage row ∈ changes
    · obtain ⟨row, adds⟩ := message
      obtain ⟨rfl, only⟩ := committable.sent adds
      -- Two changes are only committed together by the end of a transaction.
      have commits : Commits op choice := by
        by_contra other
        exact absurd (length_le_one other served advances) (by simp)
      have pending := commits_pending commits served advances
      rw [lastIsLargest_message_iff largest (committed_room covered.valid advances rfl)]
      constructor
      · intro above other called next made same calls _ row' member
        cases same
        rw [← pending] at member
        obtain rfl : row' = row := by simpa using member
        exact above
      · exact fun inOrder => inOrder thread op rest choice rfl found commits row (pending ▸ adds)
    · have silent : ∀ row, .addMessage row ∉ changes := fun row adds => message ⟨row, adds⟩
      apply iff_of_true (largest.committed committable silent)
      intro other called next made same calls commits row pending
      cases same
      cases found.symm.trans calls
      exact absurd (commits_pending commits served advances ▸ pending) (silent row)

/-- In every interleaving, the last message of every room is its largest one in every
committed state if and only if the messages of each room are committed in the order of
their ids. -/
theorem last_is_largest_iff {initial : Tables} {generator : Generator}
    {moves : List (Move { task : Task // ¬ task.Creates } Choice)} (starts : LastIsLargest initial)
    (ran : (existingRooms service).run (Backend.start initial generator) moves = some after) :
    (existingRooms service).Throughout (fun _ threads => LastIsLargest threads.shared.store.tables)
        (Backend.start initial generator) moves ↔
      (existingRooms service).Allowed (fun _ => CommitsInOrder)
        (Backend.start initial generator) moves :=
  Machine.throughout_iff_allowed ran starts fun _ _ _ _ reached largest taken =>
    lastIsLargest_step_iff (room_covered (fun _ none creates => none creates) reached) largest taken

/-- User 1 and user 2 speak in room 1: user 1 draws the first id, and user 2 commits
first. -/
private def overtaking : List (Move { task : Task // ¬ task.Creates } Choice) :=
  [.start (sampleMessage ⟨1, "1"⟩), .start (sampleMessage ⟨2, "2"⟩)] ++
  stepsOf 0 [.returns, .returns, .reads 0, .returns] ++
  stepsOf 1 [.returns, .returns, .reads 0, .returns, .returns, .returns, .returns] ++
  stepsOf 0 [.returns, .returns, .returns]

theorem last_is_largest_iff_overtaking :
    (existingRooms sampleService).Throughout
        (fun _ threads => LastIsLargest threads.shared.store.tables)
        (Backend.start sampleRoom (sampleGenerator 2)) overtaking ↔
      (existingRooms sampleService).Allowed (fun _ => CommitsInOrder)
        (Backend.start sampleRoom (sampleGenerator 2)) overtaking := by
  have ran : ((existingRooms sampleService).run
    (Backend.start sampleRoom (sampleGenerator 2)) overtaking).isSome := by decide +kernel
  exact last_is_largest_iff (fun _ _ some => absurd rfl some) (Option.some_get ran).symm

/-- The room ends with message 1 as its last one and with message 2 among its messages. -/
theorem last_message_overtaken :
    LastIsLargest sampleRoom ∧ ∃ final, (existingRooms sampleService).run
        (Backend.start sampleRoom (sampleGenerator 2)) overtaking = some final ∧
      messageIds final.shared.store.tables 1 = [2, 1] ∧
      (final.shared.store.tables.rooms.map fun room => (room.id, room.lastMessageId)) =
        [(1, some 1)] ∧
      ¬ LastIsLargest final.shared.store.tables := by
  have ran : ((existingRooms sampleService).run (Backend.start sampleRoom (sampleGenerator 2))
      overtaking).map (fun final => (messageIds final.shared.store.tables 1,
        final.shared.store.tables.rooms.map fun room => (room.id, room.lastMessageId))) =
          some ([2, 1], [(1, some 1)]) := by decide +kernel
  obtain ⟨final, reached, shown⟩ := Option.map_eq_some_iff.mp ran
  obtain ⟨ids, rooms⟩ := Prod.mk.inj shown
  refine ⟨fun _ _ some => absurd rfl some, final, reached, ids, rooms, fun largest => ?_⟩
  obtain ⟨room, there, same⟩ := List.mem_map.mp (rooms ▸ List.mem_singleton.mpr rfl)
  obtain ⟨id, last⟩ := Prod.mk.inj same
  obtain ⟨greatest, _, held, above⟩ := largest room there (by simp [id, ids])
  obtain rfl : 1 = greatest := Option.some.inj (last.symm.trans held)
  exact absurd (above 2 (by simp [id, ids])) (by decide)

end TinyChat.Core
