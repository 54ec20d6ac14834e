import TinyChat.Core.RoomKnowledge

namespace TinyChat.Core

open TinyChat.Db TinyChat.Effect TinyChat.Text TinyChat.Transition TinyChat.Utils

/-- The members of a room are those that its type asks for. -/
structure Structured (room : RoomRow) (members : List MemberRow) : Prop where
  group : room.type = RoomType.group.code → ∃ owner, room.ownerId = some owner ∧
    members.filter (·.role = GroupRole.owner.code) =
      [{ roomId := room.id, userId := owner, role := GroupRole.owner.code }] ∧
    ∀ row ∈ members, row.role ≠ GroupRole.owner.code → row.role = GroupRole.member.code
  privateRoom : room.type = RoomType.privateRoom.code → ∃ first second, first ≠ second ∧
    members =
      [{ roomId := room.id, userId := first, role := GroupRole.privateMember.code },
        { roomId := room.id, userId := second, role := GroupRole.privateMember.code }]

namespace Backend

/-- Along with the structure of the rooms: a room keeps its type, and there are members
only of rooms that are or have been there. -/
structure WellFormed (backend : Backend) : Prop where
  structured : ∀ room ∈ backend.store.tables.rooms,
    Structured room (backend.store.tables.membersOf room.id)
  typed : ∀ earlier ∈ backend.store.snapshots, ∀ before ∈ earlier.rooms,
    ∀ room ∈ backend.store.tables.rooms, room.id = before.id → room.type = before.type
  known : ∀ row ∈ backend.store.tables.members,
    ∃ earlier ∈ backend.store.snapshots, earlier.HasRoom row.roomId

end Backend

section Commits

variable {room origin : RoomRow} {members rows : List MemberRow} {tables : Tables}
variable {changes : List Change} {facts : List Fact} {backend next : Backend} {thread : Nat}
variable {phase : Phase} {id : UInt64}

theorem group_ne_private : RoomType.group.code ≠ RoomType.privateRoom.code := by decide

theorem Structured.congr (structured : Structured origin members) (id : origin.id = room.id)
    (type : origin.type = room.type) (ownerId : origin.ownerId = room.ownerId) :
    Structured room members := by
  constructor
  · rw [← type, ← ownerId, ← id]
    exact structured.group
  · rw [← type, ← id]
    exact structured.privateRoom

theorem Structured.invite (structured : Structured room members)
    (group : room.type = RoomType.group.code) {row : MemberRow}
    (role : row.role = GroupRole.member.code) : Structured room (members ++ [row]) := by
  constructor
  · intro _
    obtain ⟨owner, owned, owners, others⟩ := structured.group group
    refine ⟨owner, owned, ?_, fun other member ordinary => ?_⟩
    · rw [List.filter_append, owners, List.filter_cons_of_neg (by rw [role]; decide)]
      rfl
    · rcases List.mem_append.mp member with there | new
      · exact others other there ordinary
      · exact List.mem_singleton.mp new ▸ role
  · intro privateRoom
    exact absurd (group.symm.trans privateRoom) group_ne_private

theorem filter_append_other (elsewhere : ∀ row ∈ rows, row.roomId ≠ id) :
    (members ++ rows).filter (·.roomId = id) = members.filter (·.roomId = id) := by
  have none : rows.filter (·.roomId = id) = [] :=
    List.filter_eq_nil_iff.mpr fun row member => by simpa using elsewhere row member
  rw [List.filter_append, none, List.append_nil]

/-- A commit changes the members of a room that stays only by an invitation. -/
theorem membersOf_committed (committable : Committable True facts changes)
    (stays : (tables.applyAll changes).HasRoom id) (old : ∀ row, .addRoom row ∈ changes → row.id ≠ id) :
    (tables.applyAll changes).membersOf id = tables.membersOf id ∨
      .wasGroup id ∈ facts ∧ ∃ row : MemberRow, row.role = GroupRole.member.code ∧
        (tables.applyAll changes).membersOf id = tables.membersOf id ++ [row] := by
  cases committable with
  | nothing => exact .inl rfl
  | @groupRoom room owner name may drew =>
    have other : room ≠ id := old _ (List.mem_cons_self ..)
    exact .inl (filter_append_other fun row member => by
      obtain rfl := List.mem_singleton.mp member
      exact other)
  | @privateRoom room first second may drew different =>
    have other : room ≠ id := old _ (List.mem_cons_self ..)
    exact .inl (filter_append_other fun row member => by
      rcases List.mem_pair.mp member with rfl | rfl <;> exact other)
  | @invitation room user group =>
    by_cases same : room = id
    · subst same
      refine .inr ⟨group, { roomId := room, userId := user, role := GroupRole.member.code }, rfl, ?_⟩
      simp [Tables.membersOf, Tables.applyAll, Tables.apply]
    · exact .inl (filter_append_other fun row member => by
        obtain rfl := List.mem_singleton.mp member
        exact same)
  | @deletion room user rows some all owner =>
    obtain ⟨left, kept, rfl⟩ := stays
    have other : left.id ≠ room := of_decide_eq_true (List.mem_filter.mp kept).2
    refine .inl (List.filter_filter.trans (List.filter_congr fun row _ => ?_))
    by_cases same : row.roomId = left.id
    · have kept : row ∉ rows := fun dropped => other (same.symm.trans (all row dropped))
      simp [same, kept]
    · simp [same]
  | message member drew => exact .inl rfl

/-- A room that is added is not among those that are or have been there. -/
theorem added_unused (fresh : backend.Fresh) (knows : phase.Knows thread backend)
    (committable : Committable True phase.facts changes) {row : RoomRow}
    (adds : .addRoom row ∈ changes) {earlier : Tables} (snapshot : earlier ∈ backend.store.snapshots) :
    ¬ earlier.HasRoom row.id :=
  (knows.facts _ (committable.added adds).2).2 fresh earlier snapshot

/-- The members of a room that is added are those it is added with. -/
theorem structured_added (committable : Committable True facts changes)
    (adds : .addRoom origin ∈ changes) (none : tables.membersOf origin.id = []) :
    Structured origin ((tables.applyAll changes).membersOf origin.id) := by
  have append {more : List MemberRow} (all : ∀ row ∈ more, row.roomId = origin.id) :
      (tables.members ++ more).filter (·.roomId = origin.id) = more := by
    rw [List.filter_append]
    refine (congrArg (· ++ _) none).trans (List.filter_eq_self.mpr fun row member => ?_)
    exact decide_eq_true (all row member)
  cases committable with
  | @groupRoom room owner name may drew =>
    obtain rfl : origin = _ := by simpa using adds
    have members := @append [{ roomId := room, userId := owner, role := GroupRole.owner.code }]
      (by simp)
    refine ⟨fun _ => ⟨owner, rfl, ?_, fun row member ordinary => ?_⟩, fun privateRoom => ?_⟩
    · exact congrArg _ members
    · have one := (congrArg (row ∈ ·) members).mp member
      obtain rfl := List.mem_singleton.mp one
      exact absurd rfl ordinary
    · exact absurd privateRoom group_ne_private
  | @privateRoom room first second may drew different =>
    obtain rfl : origin = _ := by simpa using adds
    refine ⟨fun group => absurd group.symm group_ne_private, fun _ => ⟨first, second, different, ?_⟩⟩
    exact append (by simp)
  | _ => simp at adds

theorem added_once (committable : Committable True facts changes) {first second : RoomRow}
    (addsFirst : .addRoom first ∈ changes) (addsSecond : .addRoom second ∈ changes) :
    first = second := by
  cases committable <;> simp at addsFirst addsSecond
  · exact addsFirst.trans addsSecond.symm
  · exact addsFirst.trans addsSecond.symm

/-- A member is only added to a room that is added with it, or that has been a group. -/
theorem members_committed (committable : Committable True facts changes) {row : MemberRow}
    (member : row ∈ (tables.applyAll changes).members) : row ∈ tables.members ∨
      (tables.applyAll changes).HasRoom row.roomId ∨ .wasGroup row.roomId ∈ facts := by
  cases committable with
  | nothing => exact .inl member
  | groupRoom may drew =>
    rcases List.mem_append.mp member with there | new
    · exact .inl there
    · obtain rfl := List.mem_singleton.mp new
      exact .inr (.inl ⟨_, List.mem_append_right _ (List.mem_cons_self ..), rfl⟩)
  | privateRoom may drew different =>
    rcases List.mem_append.mp member with there | new
    · exact .inl there
    · refine .inr (.inl ⟨_, List.mem_append_right _ (List.mem_cons_self ..), ?_⟩)
      rcases List.mem_pair.mp new with rfl | rfl <;> rfl
  | invitation group =>
    rcases List.mem_append.mp member with there | new
    · exact .inl there
    · obtain rfl := List.mem_singleton.mp new
      exact .inr (.inr group)
  | deletion some all owner => exact .inl (List.mem_filter.mp member).1
  | message _ _ => exact .inl member

namespace Backend

section Advance

variable (wellFormed : backend.WellFormed) (fresh : backend.Fresh)
variable (knows : phase.Knows thread backend) (committable : Committable True phase.facts changes)

include wellFormed fresh knows committable

theorem WellFormed.structured_committed
    (found : room ∈ (backend.store.tables.applyAll changes).rooms) :
    Structured room ((backend.store.tables.applyAll changes).membersOf room.id) := by
  obtain ⟨origin, before | added, same, type, ownerId⟩ := Tables.origin_of_applyAll found
  · have old : ∀ row, .addRoom row ∈ changes → row.id ≠ room.id := fun row adds again =>
      added_unused fresh knows committable adds Store.tables_mem_snapshots
        ⟨origin, before, same.trans again.symm⟩
    have structured := (wellFormed.structured origin before).congr same type ownerId
    rw [same] at structured
    rcases membersOf_committed committable ⟨room, found, rfl⟩ old with
      kept | ⟨group, row, role, invited⟩
    · exact kept ▸ structured
    · obtain ⟨earlier, snapshot, was, there, sameId, wasGroup⟩ := knows.facts _ group
      have stillGroup := wellFormed.typed earlier snapshot was there origin before
        (same.trans sameId.symm)
      exact invited ▸ structured.invite (type.symm.trans (stillGroup.trans wasGroup)) role
  · have none : backend.store.tables.membersOf origin.id = [] := by
      apply List.filter_eq_nil_iff.mpr
      intro row member of
      obtain ⟨earlier, snapshot, there⟩ := wellFormed.known row member
      exact added_unused fresh knows committable added snapshot (of_decide_eq_true of ▸ there)
    have structured := structured_added committable added none
    rw [same] at structured
    exact structured.congr same type ownerId

theorem WellFormed.typed_committed {earlier : Tables} {before : RoomRow}
    (snapshot : earlier ∈ backend.store.snapshots) (there : before ∈ earlier.rooms)
    (found : room ∈ (backend.store.tables.applyAll changes).rooms) (same : room.id = before.id) :
    room.type = before.type := by
  obtain ⟨origin, old | added, sameId, type, _⟩ := Tables.origin_of_applyAll found
  · exact type.symm.trans
      (wellFormed.typed earlier snapshot before there origin old (sameId.trans same))
  · exact absurd ⟨before, there, (sameId.trans same).symm⟩
      (added_unused fresh knows committable added snapshot)

theorem WellFormed.advance (advances : backend.Advances next thread changes) : next.WellFormed := by
  constructor
  · rw [advances.moves.tables]
    exact fun room found => wellFormed.structured_committed fresh knows committable found
  · intro earlier snapshot before there room found same
    rw [advances.moves.tables] at found
    rcases advances.moves.mem_snapshots snapshot with older | rfl
    · exact wellFormed.typed_committed fresh knows committable older there found same
    · rw [advances.moves.tables] at there
      obtain ⟨origin, old | added, sameId, type, _⟩ := Tables.origin_of_applyAll there
      · exact (wellFormed.typed_committed fresh knows committable Store.tables_mem_snapshots old found
          (same.trans sameId.symm)).trans type
      · obtain ⟨other, old | again, otherId, otherType, _⟩ := Tables.origin_of_applyAll found
        · exact absurd ⟨other, old, otherId.trans (same.trans sameId.symm)⟩
            (added_unused fresh knows committable added Store.tables_mem_snapshots)
        · obtain rfl := added_once committable added again
          exact otherType.symm.trans type
  · intro row member
    rw [advances.moves.tables] at member
    rcases members_committed committable member with there | new | group
    · obtain ⟨earlier, snapshot, was⟩ := wellFormed.known row there
      exact ⟨earlier, advances.moves.snapshots_subset snapshot, was⟩
    · exact ⟨_, Store.tables_mem_snapshots, advances.moves.tables ▸ new⟩
    · obtain ⟨earlier, snapshot, was, there, sameId, _⟩ := knows.facts _ group
      exact ⟨earlier, advances.moves.snapshots_subset snapshot, was, there, sameId⟩

end Advance

end Backend

end Commits

/-- All tasks about rooms and their messages; any of their statements may fail. -/
abbrev failingTasks (service : Service) :
    Machine (Threads Op Op.Result Backend (Option Response)) (Move { _task : Task // True } Choice) :=
  roomMachine Backend.attempt service fun _ => True

/-- In every state that is reached from an empty database while ids are fresh, a group room
has exactly one owner, who is the user of `owner_id`, and otherwise ordinary members, and
a private room has exactly two members, who are different users, unless a `ROLLBACK` throws
while half of an operation is pending. -/
theorem rooms_structured {service : Service} {generator : Generator}
    {moves : List (Move { _task : Task // True } Choice)}
    {final : Threads Op Op.Result Backend (Option Response)}
    (ran : (failingTasks service).run (Backend.start {} generator) moves = some final)
    (fresh : final.shared.generator.ids.Nodup)
    (undone : (failingTasks service).Allowed (fun _ => UndoesHalves) (Backend.start {} generator)
      moves) :
    ∀ room ∈ final.shared.store.tables.rooms,
      Structured room (final.shared.store.tables.membersOf room.id) := by
  have invariant := room_invariant (motive := fun backend => backend.store.initial = {} ∧
      (backend.Fresh → backend.WellFormed)) orderly_wholly (fun _ _ _ => trivial)
    (guarded_run_iff.mpr ⟨ran, undone⟩) ⟨rfl, fun _ => ?_⟩ ?_
  · obtain ⟨empty, wellFormed⟩ := invariant
    refine (wellFormed ⟨fresh, fun id _ there => ?_⟩).structured
    rw [empty] at there
    obtain ⟨_, none, _⟩ := there
    cases none
  · exact ⟨nofun, fun _ _ _ _ _ => nofun, nofun⟩
  · intro backend next _ _ _ _ ⟨empty, wellFormed⟩ knows released advances
    refine ⟨advances.moves.initial.trans empty, fun later => ?_⟩
    have fresh := advances.fresh later
    exact (wellFormed fresh).advance fresh knows released.committable advances

/-- User 1 creates a group room and a private one side by side and invites user 2 to the
first. -/
private def twoRooms : List (Move { _task : Task // True } Choice) :=
  [.start ⟨.createGRoom (sampleRequest .post "/api/group_room" "1" "room"), trivial⟩,
    .start ⟨.createPRoom (sampleRequest .post "/api/private_room" "1" "other 2"), trivial⟩] ++
  stepsOf 0 [.returns, .returns, .returns, .returns] ++
  stepsOf 1 [.returns, .returns, .returns, .returns] ++
  stepsOf 0 [.returns, .returns] ++ stepsOf 1 [.returns, .returns, .returns] ++
  [.start ⟨.inviteMember (sampleRequest .post "/api/rooms/1/member" "1" "invitee 2") 1, trivial⟩] ++
  stepsOf 2 [.returns, .reads 0, .returns, .returns]

theorem rooms_structured_two :
    ∃ final, (failingTasks sampleService).run (Backend.start {} (sampleGenerator 2)) twoRooms =
        some final ∧
      ∀ room ∈ final.shared.store.tables.rooms,
        Structured room (final.shared.store.tables.membersOf room.id) := by
  have ran : (((roomMachine Backend.wholly sampleService fun _ => True).run
      (Backend.start {} (sampleGenerator 2)) twoRooms).map fun final => final.shared.generator.ids) =
        some [1, 2] := by decide +kernel
  obtain ⟨final, whole, ids⟩ := Option.map_eq_some_iff.mp ran
  obtain ⟨reached, undone⟩ := guarded_run_iff.mp whole
  exact ⟨final, reached, rooms_structured reached (by rw [ids]; decide) undone⟩

/-- User 1 creates a group room and deletes it. The deletion fails at the row of the room,
the `ROLLBACK` throws, and the destructor commits that the room has no members. -/
private def halfDeleted : List (Move { _task : Task // True } Choice) :=
  [.start ⟨.createGRoom (sampleRequest .post "/api/group_room" "1" "room"), trivial⟩] ++
  stepsOf 0 [.returns, .returns, .returns, .returns, .returns, .returns] ++
  [.start ⟨.deleteRoom (sampleRequest .delete "/api/rooms/1" "1" "") 1, trivial⟩] ++
  stepsOf 1 [.returns, .returns, .reads 0, .returns, .throws, .throws, .returns]

/-- The group room stays without an owner. -/
theorem room_without_owner :
    ¬ ∀ (service : Service) (generator : Generator)
      (moves : List (Move { _task : Task // True } Choice))
      (final : Threads Op Op.Result Backend (Option Response)),
      (failingTasks service).run (Backend.start {} generator) moves = some final →
      final.shared.generator.ids.Nodup →
      ∀ room ∈ final.shared.store.tables.rooms,
        Structured room (final.shared.store.tables.membersOf room.id) := by
  intro claimed
  have ran : (((failingTasks sampleService).run (Backend.start {} (sampleGenerator 1)) halfDeleted).map
      fun final => (final.shared.generator.ids, final.shared.store.tables)) =
        some ([1], { rooms := [{ id := 1, name := some "room", type := RoomType.group.code
                                 ownerId := some 1 }] }) := by decide +kernel
  obtain ⟨final, reached, shown⟩ := Option.map_eq_some_iff.mp ran
  obtain ⟨ids, tables⟩ := Prod.mk.inj shown
  have structured := claimed _ _ _ final reached (by rw [ids]; decide)
    { id := 1, name := some "room", type := RoomType.group.code, ownerId := some 1 } (by simp [tables])
  rw [tables] at structured
  obtain ⟨_, _, owners, _⟩ := structured.group rfl
  cases owners

end TinyChat.Core
