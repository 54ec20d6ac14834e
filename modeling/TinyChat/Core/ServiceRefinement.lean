import TinyChat.Core.RequestHistory
import TinyChat.Core.RoomRights
import TinyChat.Core.RoomStructure
import TinyChat.Effect.RealTime

/-! The committed tables as a state of the chat service. Whatever the tasks do side by side,
their commits are the operations of one serial history, each carried out under conditions
that hold at its commit although they were read before it. -/
namespace TinyChat.Core

open TinyChat.Db TinyChat.Effect TinyChat.Text TinyChat.Transition TinyChat.Utils

abbrev RoomService : Type := ChatService UInt64 String UInt64 (UInt64 × String)

abbrev RoomSlot : Type := Slot String UInt64 (UInt64 × String)

/-- The row of an open room. -/
def ChatRoom.row (id : UInt64) (chat : ChatRoom String UInt64 (UInt64 × String)) : RoomRow :=
  { id, name := chat.name, type := chat.users.type.code, ownerId := chat.users.owner
    lastMessageId := chat.last.map Prod.fst }

def roomsAt (tables : Tables) (id : UInt64) : List RoomRow := tables.rooms.filter (·.id = id)

/-- What the tables say of one room; the members of a closed one may be left behind. -/
def Shows (tables : Tables) (id : UInt64) : RoomSlot → Prop
  | .unused => roomsAt tables id = [] ∧ tables.membersOf id = []
  | .opened chat => roomsAt tables id = [chat.row id] ∧ ∀ user role,
      { roomId := id, userId := user, role } ∈ tables.members ↔
        ∃ named : GroupRole, chat.users.HasRole user named ∧ role = named.code
  | .closed => roomsAt tables id = []

/-- The tables are those of the service, and no user is a member of a room twice. -/
structure Represents (tables : Tables) (service : RoomService) : Prop where
  rooms : ∀ id, Shows tables id (service.rooms id)
  messages : tables.messages = service.postings.map Posting.row
  once : (tables.members.map MemberRow.key).Nodup

section Representing

variable {tables : Tables} {service next : RoomService} {id room : UInt64} {slot : RoomSlot}
variable {chat : ChatRoom String UInt64 (UInt64 × String)} {operation : RoomOperation}
variable {facts : List Fact} {changes : List Change}

theorem hasRoom_iff : tables.HasRoom id ↔ roomsAt tables id ≠ [] := by
  constructor
  · rintro ⟨row, there, same⟩ none
    exact List.filter_eq_nil_iff.mp none row there (decide_eq_true same)
  · intro some
    obtain ⟨row, member⟩ := List.exists_mem_of_ne_nil _ some
    obtain ⟨there, same⟩ := List.mem_filter.mp member
    exact ⟨row, there, of_decide_eq_true same⟩

theorem Represents.opened (represents : Represents tables service) (there : tables.HasRoom id) :
    ∃ chat, service.rooms id = .opened chat := by
  have shows := represents.rooms id
  cases slot : service.rooms id with
  | opened chat => exact ⟨chat, rfl⟩
  | unused =>
    rw [slot] at shows
    exact absurd shows.1 (hasRoom_iff.mp there)
  | closed =>
    rw [slot] at shows
    exact absurd shows (hasRoom_iff.mp there)

theorem Represents.hasRoom (represents : Represents tables service)
    (open_ : service.rooms id = .opened chat) : tables.HasRoom id := by
  have shows := represents.rooms id
  rw [open_] at shows
  exact hasRoom_iff.mpr (shows.1 ▸ List.cons_ne_nil _ _)

/-- The row of an open room is the one that says what the room is. -/
theorem Represents.row_eq (represents : Represents tables service)
    (open_ : service.rooms id = .opened chat) {row : RoomRow} (there : row ∈ tables.rooms)
    (same : row.id = id) : row = chat.row id := by
  have shows := represents.rooms id
  rw [open_] at shows
  have member : row ∈ roomsAt tables id := List.mem_filter.mpr ⟨there, decide_eq_true same⟩
  rw [shows.1] at member
  exact List.mem_singleton.mp member

theorem Represents.member_iff (represents : Represents tables service)
    (open_ : service.rooms id = .opened chat) {user : UInt64} {role : Int} :
    { roomId := id, userId := user, role } ∈ tables.members ↔
      ∃ named : GroupRole, chat.users.HasRole user named ∧ role = named.code := by
  have shows := represents.rooms id
  rw [open_] at shows
  exact shows.2 user role

theorem shows_setRoom (shows : Shows tables id slot) :
    Shows tables id ((service.setRoom id slot).rooms id) := by
  rw [ChatService.setRoom_same]
  exact shows

theorem Shows.congr {other : Tables} (shows : Shows tables id slot)
    (rooms : roomsAt other id = roomsAt tables id)
    (members : other.membersOf id = tables.membersOf id) : Shows other id slot := by
  cases slot with
  | unused => exact ⟨rooms.trans shows.1, members.trans shows.2⟩
  | closed => exact rooms.trans shows
  | opened chat =>
    refine ⟨rooms.trans shows.1, fun user role => ?_⟩
    have same : { roomId := id, userId := user, role } ∈ other.members ↔
        { roomId := id, userId := user, role } ∈ tables.members := by
      have listed := congrArg ({ roomId := id, userId := user, role } ∈ ·) members
      simpa [Tables.membersOf, List.mem_filter] using listed
    exact same.trans (shows.2 user role)

theorem roomsAt_append {row : RoomRow} :
    roomsAt { tables with rooms := tables.rooms ++ [row] } id =
      roomsAt tables id ++ if row.id = id then [row] else [] := by
  unfold roomsAt
  rw [List.filter_append]
  by_cases same : row.id = id <;> simp [same]

theorem roomsAt_setLast {message : UInt64} :
    roomsAt (tables.apply (.setLast message room)) room =
      (roomsAt tables room).map ({ · with lastMessageId := some message }) := by
  have kept (row : RoomRow) : (if row.id = room then
      { row with lastMessageId := some message } else row).id = row.id := by split <;> rfl
  refine List.filter_map.trans ((congrArg (List.map _) (List.filter_congr fun row _ => ?_)).trans
    (List.map_congr_left fun row member => ?_))
  · exact congrArg (fun id => decide (id = room)) (kept row)
  · exact if_pos (of_decide_eq_true (List.mem_filter.mp member).2)

/-- The room that an operation is about. -/
def Operation.about : RoomOperation → UInt64
  | .openGroup room _ _ => room
  | .openPair room _ _ => room
  | .invite room _ => room
  | .close room _ => room
  | .post posting => posting.room

/-- A transaction leaves the rows of all other rooms as they are. -/
theorem Performs.elsewhere (performs : Performs facts operation changes) (other : id ≠ operation.about) :
    roomsAt (tables.applyAll changes) id = roomsAt tables id ∧
      (tables.applyAll changes).membersOf id = tables.membersOf id := by
  cases performs with
  | @openGroup room owner name drew =>
    have apart : room ≠ id := Ne.symm other
    refine ⟨roomsAt_append.trans (by simp [apart]), filter_append_other fun row member => ?_⟩
    exact List.mem_singleton.mp member ▸ apart
  | @openPair room first second drew different =>
    have apart : room ≠ id := Ne.symm other
    refine ⟨roomsAt_append.trans (by simp [apart]), filter_append_other fun row member => ?_⟩
    rcases List.mem_pair.mp member with rfl | rfl <;> exact apart
  | @invite room newcomer group =>
    refine ⟨rfl, filter_append_other fun row member => ?_⟩
    exact List.mem_singleton.mp member ▸ Ne.symm other
  | @close room owner rows some all owns =>
    constructor
    · refine List.filter_filter.trans (List.filter_congr fun row _ => ?_)
      by_cases same : row.id = id
      · have kept : id ≠ room := other
        simp [same, kept]
      · simp [same]
    · refine List.filter_filter.trans (List.filter_congr fun row _ => ?_)
      by_cases same : row.roomId = id
      · have kept : row ∉ rows := fun dropped => other (same.symm.trans (all row dropped))
        simp [same, kept]
      · simp [same]
  | @post posting member drew =>
    refine ⟨filter_map_of_fixed (fun row => ?_) fun row same => ?_, rfl⟩
    · split <;> rfl
    · have apart : row.id ≠ posting.room := fun again => other ((of_decide_eq_true same).symm.trans again)
      rw [if_neg apart]

/-- The messages that a transaction adds. -/
def Operation.postings : RoomOperation → List RoomPosting
  | .post posting => [posting]
  | _ => []

theorem Performs.messages (performs : Performs facts operation changes) :
    (tables.applyAll changes).messages = tables.messages ++ operation.postings.map Posting.row := by
  cases performs with
  | post member drew => rfl
  | _ => exact (List.append_nil _).symm

/-- It is enough to look at the room that the operation is about. -/
theorem Represents.perform (represents : Represents tables service)
    (performs : Performs facts operation changes)
    (rooms : ∀ id, id ≠ operation.about → next.rooms id = service.rooms id)
    (postings : next.postings = service.postings ++ operation.postings)
    (shows : Shows (tables.applyAll changes) operation.about (next.rooms operation.about))
    (once : ((tables.applyAll changes).members.map MemberRow.key).Nodup) :
    Represents (tables.applyAll changes) next := by
  refine ⟨fun id => ?_, ?_, once⟩
  · by_cases same : id = operation.about
    · exact same ▸ shows
    · obtain ⟨sameRooms, sameMembers⟩ : roomsAt (tables.applyAll changes) id = roomsAt tables id ∧
          (tables.applyAll changes).membersOf id = tables.membersOf id := performs.elsewhere same
      exact rooms id same ▸ (represents.rooms id).congr sameRooms sameMembers
  · rw [performs.messages, represents.messages, postings, List.map_append]

/-- Keys of members who are added are those of nobody. -/
theorem once_append {rows : List MemberRow} (once : (tables.members.map MemberRow.key).Nodup)
    (apart : (rows.map MemberRow.key).Nodup)
    (new : ∀ row ∈ rows, row.key ∉ tables.members.map MemberRow.key) :
    ((tables.members ++ rows).map MemberRow.key).Nodup := by
  rw [List.map_append]
  refine List.nodup_append.mpr ⟨once, apart, fun key there other added same => ?_⟩
  obtain ⟨row, member, rfl⟩ := List.mem_map.mp added
  exact new row member (same ▸ there)

theorem not_mem_members (none : tables.membersOf id = []) {row : MemberRow} (room : row.roomId = id) :
    row ∉ tables.members := fun there =>
  List.filter_eq_nil_iff.mp none row there (decide_eq_true room)

/-- An unused room has no members whose keys would be taken. -/
theorem new_of_unused (none : tables.membersOf id = []) {row : MemberRow} (room : row.roomId = id) :
    row.key ∉ tables.members.map MemberRow.key := by
  intro taken
  obtain ⟨other, there, same⟩ := List.mem_map.mp taken
  exact not_mem_members none ((Key.member.inj same).1.trans room) there

theorem Represents.unused (represents : Represents tables service)
    (unused : service.rooms id = .unused) : roomsAt tables id = [] ∧ tables.membersOf id = [] := by
  have shows := represents.rooms id
  rw [unused] at shows
  exact shows

theorem group_role_iff {owner user : UInt64} {invited : Set UInt64} {apart : owner ∉ invited}
    {role : Int} :
    (∃ named : GroupRole, (Users.group owner invited apart).HasRole user named ∧ role = named.code) ↔
      user = owner ∧ role = GroupRole.owner.code ∨ user ∈ invited ∧ role = GroupRole.member.code := by
  constructor
  · rintro ⟨named, has, rfl⟩
    cases named with
    | owner => exact .inl ⟨has, rfl⟩
    | member => exact .inr ⟨has, rfl⟩
    | admin => exact absurd has id
    | privateMember => exact absurd has id
  · rintro (⟨has, rfl⟩ | ⟨has, rfl⟩)
    · exact ⟨.owner, has, rfl⟩
    · exact ⟨.member, has, rfl⟩

theorem pair_role_iff {first second user : UInt64} {different : first ≠ second} {role : Int} :
    (∃ named : GroupRole, (Users.pair first second different).HasRole user named ∧
      role = named.code) ↔ (user = first ∨ user = second) ∧ role = GroupRole.privateMember.code := by
  constructor
  · rintro ⟨named, has, rfl⟩
    cases named with
    | privateMember => exact ⟨has, rfl⟩
    | owner => exact absurd has id
    | member => exact absurd has id
    | admin => exact absurd has id
  · rintro ⟨has, rfl⟩
    exact ⟨.privateMember, has, rfl⟩

theorem invite_role_iff {users : Users UInt64} {newcomer user : UInt64} {role : Int}
    {new : ¬ users.Has newcomer} (group : users.type = .group) :
    (∃ named : GroupRole, (users.invite newcomer new).HasRole user named ∧ role = named.code) ↔
      (∃ named : GroupRole, users.HasRole user named ∧ role = named.code) ∨
        user = newcomer ∧ role = GroupRole.member.code := by
  simp only [Users.hasRole_invite_iff group]
  constructor
  · rintro ⟨named, has | ⟨same, rfl⟩, code⟩
    · exact .inl ⟨named, has, code⟩
    · exact .inr ⟨same, code⟩
  · rintro (⟨named, has, code⟩ | ⟨same, code⟩)
    · exact ⟨named, .inl has, code⟩
    · exact ⟨.member, .inr ⟨same, rfl⟩, code⟩

theorem Represents.openGroup {owner : UInt64} {name : String} (represents : Represents tables service)
    (performs : Performs facts (.openGroup room name owner) changes)
    (unused : service.rooms room = .unused) :
    ∃ next, ChatService.Step service (.openGroup room name owner) next ∧
      Represents (tables.applyAll changes) next := by
  obtain ⟨noRoom, nobody⟩ := represents.unused unused
  refine ⟨_, .openGroup unused, represents.perform performs
    (fun id other => ChatService.setRoom_other other) (List.append_nil _).symm ?_ ?_⟩
  · cases performs
    refine shows_setRoom ⟨?_, fun user role => ?_⟩
    · refine roomsAt_append.trans ?_
      simp [noRoom, Operation.about, ChatRoom.row, Users.type, Users.owner]
    · have nowhere : { roomId := room, userId := user, role } ∉ tables.members :=
        not_mem_members nobody rfl
      rw [group_role_iff]
      simp [Operation.about, Tables.apply, nowhere]
  · cases performs
    exact once_append represents.once (by simp) fun row member =>
      new_of_unused nobody (List.mem_singleton.mp member ▸ rfl)

theorem Represents.openPair {first second : UInt64} (represents : Represents tables service)
    (performs : Performs facts (.openPair room first second) changes)
    (unused : service.rooms room = .unused) :
    ∃ next, ChatService.Step service (.openPair room first second) next ∧
      Represents (tables.applyAll changes) next := by
  obtain ⟨noRoom, nobody⟩ := represents.unused unused
  have different : first ≠ second := by
    cases performs
    assumption
  refine ⟨_, .openPair unused different, represents.perform performs
    (fun id other => ChatService.setRoom_other other) (List.append_nil _).symm ?_ ?_⟩
  · cases performs
    refine shows_setRoom ⟨?_, fun user role => ?_⟩
    · refine roomsAt_append.trans ?_
      simp [noRoom, Operation.about, ChatRoom.row, Users.type, Users.owner]
    · have nowhere : { roomId := room, userId := user, role } ∉ tables.members :=
        not_mem_members nobody rfl
      rw [pair_role_iff]
      simp [Operation.about, Tables.apply, nowhere, or_and_right]
  · cases performs
    refine once_append represents.once (by simpa [MemberRow.key] using different) fun row member => ?_
    refine new_of_unused nobody ?_
    rcases List.mem_pair.mp member with rfl | rfl <;> rfl

theorem Represents.invite {newcomer : UInt64} (represents : Represents tables service)
    (performs : Performs facts (.invite room newcomer) changes)
    (new : ∀ row, changes = [.addMembers [row]] → row.key ∉ tables.members.map MemberRow.key)
    (group : service.rooms room = .closed ∨
      ∃ chat, service.rooms room = .opened chat ∧ chat.users.type = .group) :
    ∃ next, ChatService.Step service (.invite room newcomer) next ∧
      Represents (tables.applyAll changes) next := by
  have once : ((tables.applyAll changes).members.map MemberRow.key).Nodup := by
    cases performs
    refine once_append represents.once (by simp) fun row member => ?_
    exact List.mem_singleton.mp member ▸ new _ rfl
  rcases group with closed | ⟨chat, open_, group⟩
  · refine ⟨service, .invitedLate closed, represents.perform performs (fun _ _ => rfl)
      (List.append_nil _).symm ?_ once⟩
    have shows := represents.rooms room
    cases performs
    rw [closed] at shows
    exact closed.symm ▸ shows
  · have stranger : ¬ chat.users.Has newcomer := by
      rintro ⟨role, has⟩
      have there := (represents.member_iff open_).mpr ⟨role, has, rfl⟩
      cases performs
      exact new _ rfl (List.mem_map.mpr ⟨_, there, rfl⟩)
    refine ⟨_, .invite open_ group stranger, represents.perform performs
      (fun id other => ChatService.setRoom_other other) (List.append_nil _).symm ?_ once⟩
    have shows := represents.rooms room
    rw [open_] at shows
    cases performs
    refine shows_setRoom ⟨?_, fun user role => ?_⟩
    · refine shows.1.trans ?_
      simp [Operation.about, ChatRoom.row]
    · refine Iff.trans ?_ (invite_role_iff group).symm
      rw [← shows.2 user role]
      simp [Operation.about, Tables.apply]

/-- Only the owner of an open room closes it, and then nothing shows it any more. -/
theorem Represents.close {owner : UInt64} (represents : Represents tables service)
    (performs : Performs facts (.close room owner) changes) (open_ : service.rooms room = .opened chat)
    (owns : chat.users.owner = some owner) :
    ∃ next, ChatService.Step service (.close room owner) next ∧
      Represents (tables.applyAll changes) next := by
  refine ⟨_, .close open_ owns, represents.perform performs
    (fun id other => ChatService.setRoom_other other) (List.append_nil _).symm ?_ ?_⟩
  · cases performs
    refine shows_setRoom (List.filter_eq_nil_iff.mpr fun row member same => ?_)
    exact of_decide_eq_true (List.mem_filter.mp member).2 (of_decide_eq_true same)
  · cases performs
    exact represents.once.sublist (List.filter_sublist.map _)

theorem Represents.post {posting : RoomPosting} (represents : Represents tables service)
    (performs : Performs facts (.post posting) changes)
    (open_ : service.rooms posting.room = .opened chat) (member : chat.users.Has posting.author) :
    ∃ next, ChatService.Step service (.post posting) next ∧
      Represents (tables.applyAll changes) next := by
  refine ⟨_, .post open_ member, represents.perform performs
    (fun id other => ChatService.setRoom_other other) rfl ?_ ?_⟩
  · have shows := represents.rooms posting.room
    rw [open_] at shows
    cases performs
    change Shows _ posting.room ((service.setRoom posting.room _).rooms posting.room)
    refine shows_setRoom ⟨roomsAt_setLast.trans ?_, shows.2⟩
    rw [show roomsAt (tables.apply _) posting.room = roomsAt tables posting.room from rfl, shows.1]
    rfl
  · cases performs
    exact represents.once

end Representing

/-- The commit carries the operation out, and the task of its thread asks for that. -/
def Logged (service : Service) (tasks : List Task) (commit : Commit) :
    Nat × RoomOperation → Prop
  | (thread, operation) => commit.thread = thread ∧
      (∃ task, tasks[thread]? = some task ∧ task.Asks service operation) ∧
      ∃ facts, Performs facts operation commit.changes

/-- The log is one serial history of the service that has led to the tables. -/
structure Refines (service : Service) (tasks : List Task) (first : RoomService) (store : Store)
    (history : List (Nat × RoomOperation)) (now : RoomService) : Prop where
  logged : List.Forall₂ (Logged service tasks) store.log.reverse history
  serial : ChatService.Serial first (history.map Prod.snd) now
  represents : Represents store.tables now
  /-- What a `SELECT` may be answered from was the state of the service once. -/
  past : ∀ tables ∈ store.snapshots, ∃ before rest, Represents tables before ∧
    ChatService.Serial before rest now
  closed : ∀ room, now.rooms room = .closed →
    first.rooms room = .closed ∨ ∃ tables ∈ store.snapshots, tables.HasRoom room

section Refining

variable {service : Service} {tasks : List Task} {first now next : RoomService}
variable {backend after : Backend} {history : List (Nat × RoomOperation)} {thread : Nat}
variable {room user : UInt64} {operation : RoomOperation} {facts : List Fact}
variable {changes : List Change}

theorem roomType_code_inj {one two : RoomType} (same : one.code = two.code) : one = two := by
  cases one <;> cases two <;> first | rfl | exact absurd same (by decide)

theorem groupRole_code_inj {one two : GroupRole} (same : one.code = two.code) : one = two := by
  cases one <;> cases two <;> first | rfl | exact absurd same (by decide)

/-- A member in a snapshot has a role in the room, unless it is closed. -/
theorem Represents.member {tables : Tables} {before : RoomService} {row : MemberRow}
    (represents : Represents tables before) (there : row ∈ tables.members) :
    before.rooms row.roomId = .closed ∨ ∃ chat, before.rooms row.roomId = .opened chat ∧
      ∃ role : GroupRole, chat.users.HasRole row.userId role ∧ row.role = role.code := by
  cases slot : before.rooms row.roomId with
  | closed => exact .inl rfl
  | unused => exact absurd there (not_mem_members (represents.unused slot).2 rfl)
  | opened chat => exact .inr ⟨chat, rfl, (represents.member_iff slot).mp there⟩

section Knowing

variable (refines : Refines service tasks first backend.store history now)

include refines

/-- A fresh id is that of no room that has ever been there. -/
theorem Refines.unused (fresh : backend.Fresh) (open_ : first.rooms room ≠ .closed)
    (drew : Fact.Holds backend thread (.drew room)) : now.rooms room = .unused := by
  have never := drew.2 fresh
  cases slot : now.rooms room with
  | unused => rfl
  | opened chat =>
    exact absurd (refines.represents.hasRoom slot) (never _ Store.tables_mem_snapshots)
  | closed =>
    obtain ⟨tables, snapshot, there⟩ := (refines.closed room slot).resolve_left open_
    exact absurd there (never tables snapshot)

/-- What a room was in a snapshot it still is, unless it has been closed. -/
theorem Refines.still {tables : Tables} (snapshot : tables ∈ backend.store.snapshots)
    {motive : ChatRoom String UInt64 (UInt64 × String) → Prop}
    (was : ∀ before, Represents tables before →
      before.rooms room = .closed ∨ ∃ chat, before.rooms room = .opened chat ∧ motive chat)
    (stays : ∀ chat later, ChatService.Continues chat (.opened later) → motive chat → motive later) :
    now.rooms room = .closed ∨ ∃ chat, now.rooms room = .opened chat ∧ motive chat := by
  obtain ⟨before, rest, represents, serial⟩ := refines.past tables snapshot
  rcases was before represents with closed | ⟨chat, open_, holds⟩
  · exact .inl (serial.closed closed)
  · have continues := serial.continues open_
    cases slot : now.rooms room with
    | closed => exact .inl rfl
    | unused =>
      rw [slot] at continues
      cases continues
    | opened later => exact .inr ⟨later, rfl, stays chat later (slot ▸ continues) holds⟩

theorem Refines.wasGroup (was : Fact.Holds backend thread (.wasGroup room)) :
    now.rooms room = .closed ∨ ∃ chat, now.rooms room = .opened chat ∧ chat.users.type = .group := by
  obtain ⟨tables, snapshot, row, there, same, group⟩ := was
  refine refines.still snapshot (fun before represents => ?_) fun chat later continues group => ?_
  · obtain ⟨chat, open_⟩ := represents.opened ⟨row, there, same⟩
    obtain rfl := represents.row_eq open_ there same
    exact .inr ⟨chat, open_, roomType_code_inj group⟩
  · cases continues with
    | opened name type owner stays => exact type.trans group

theorem Refines.wasOwner (was : Fact.Holds backend thread (.wasOwner room user)) :
    now.rooms room = .closed ∨
      ∃ chat, now.rooms room = .opened chat ∧ chat.users.owner = some user := by
  obtain ⟨tables, snapshot, row, there, rfl, rfl, owner⟩ := was
  refine refines.still snapshot (fun before represents => ?_) fun chat later continues owns => ?_
  · refine (represents.member there).imp_right ?_
    rintro ⟨chat, open_, role, has, code⟩
    obtain rfl := groupRole_code_inj (owner.symm.trans code)
    exact ⟨chat, open_, Users.hasRole_owner_iff.mp has⟩
  · cases continues with
    | opened name type owner stays => exact owner.trans owns

theorem Refines.wasMember (was : Fact.Holds backend thread (.wasMember room user)) :
    now.rooms room = .closed ∨ ∃ chat, now.rooms room = .opened chat ∧ chat.users.Has user := by
  obtain ⟨tables, snapshot, row, there, rfl, rfl⟩ := was
  refine refines.still snapshot (fun before represents => ?_) fun chat later continues has => ?_
  · refine (represents.member there).imp_right ?_
    rintro ⟨chat, open_, role, has, _⟩
    exact ⟨chat, open_, role, has⟩
  · cases continues with
    | opened name type owner stays =>
      obtain ⟨role, has⟩ := has
      exact ⟨role, stays _ role has⟩

end Knowing

/-- Every transaction is an operation that the service allows in the state it is in. -/
theorem Refines.step (refines : Refines service tasks first backend.store history now)
    (valid : backend.Valid) (fresh : backend.Fresh)
    (unclosed : ∀ id ∈ backend.generator.ids, first.rooms id ≠ .closed)
    (performs : Performs facts operation changes)
    (facts_hold : ∀ fact ∈ facts, fact.Holds backend thread)
    (new : ∀ row, changes = [.addMembers [row]] →
      row.key ∉ backend.store.tables.members.map MemberRow.key)
    (advances : backend.Advances after thread changes) : ∃ next,
      ChatService.Step now operation next ∧ Represents after.store.tables next := by
  rw [advances.moves.tables]
  have represents := refines.represents
  have found {change : Change} {id : UInt64} (member : change ∈ changes)
      (finds : change.finds = some id) (none : ∀ row, .addRoom row ∉ changes) :
      ∃ chat, now.rooms id = .opened chat := by
    refine represents.opened ((valid.locked.committed_found advances.steps advances.moves member
      finds).resolve_right ?_)
    rintro ⟨row, adds, _⟩
    exact none row adds
  have opened {id : UInt64} {motive : ChatRoom String UInt64 (UInt64 × String) → Prop}
      (either : now.rooms id = .closed ∨ ∃ chat, now.rooms id = .opened chat ∧ motive chat)
      (there : ∃ chat, now.rooms id = .opened chat) :
      ∃ chat, now.rooms id = .opened chat ∧ motive chat := by
    refine either.resolve_left fun closed => ?_
    obtain ⟨chat, open_⟩ := there
    cases closed.symm.trans open_
  have unused {id : UInt64} (drew : .drew id ∈ facts) : now.rooms id = .unused := by
    have holds := facts_hold _ drew
    exact refines.unused fresh (unclosed id (List.mem_filterMap.mpr ⟨_, holds.1, rfl⟩)) holds
  have performed := performs
  cases performs with
  | openGroup drew => exact represents.openGroup performed (unused drew)
  | openPair drew different => exact represents.openPair performed (unused drew)
  | invite group => exact represents.invite performed new (refines.wasGroup (facts_hold _ group))
  | @close room owner rows some all owns =>
    obtain ⟨chat, open_, owned⟩ := opened (refines.wasOwner (facts_hold _ owns))
      (@found (.dropRoom room) room (by simp) rfl (by simp))
    exact represents.close performed open_ owned
  | @post posting member drew =>
    obtain ⟨chat, open_, has⟩ := opened (refines.wasMember (facts_hold _ member))
      (@found (.setLast posting.message.1 posting.room) posting.room (by simp) rfl (by simp))
    exact represents.post performed open_ has

theorem Refines.commit (refines : Refines service tasks first backend.store history now)
    (valid : backend.Valid) (fresh : backend.Fresh)
    (unclosed : ∀ id ∈ backend.generator.ids, first.rooms id ≠ .closed)
    (performs : Performs facts operation changes)
    (facts_hold : ∀ fact ∈ facts, fact.Holds backend thread)
    (new : ∀ row, changes = [.addMembers [row]] →
      row.key ∉ backend.store.tables.members.map MemberRow.key)
    (asked : ∃ task, tasks[thread]? = some task ∧ task.Asks service operation)
    (advances : backend.Advances after thread changes) : ∃ next,
      Refines service tasks first after.store (history ++ [(thread, operation)]) next := by
  obtain ⟨next, taken, represents⟩ :=
    refines.step valid fresh unclosed performs facts_hold new advances
  have log := committed_log advances performs.ne_nil
  refine ⟨next, ?_, ?_, represents, fun tables snapshot => ?_, fun room closed => ?_⟩
  · rw [log, List.reverse_cons]
    exact List.rel_append refines.logged (.cons ⟨rfl, asked, facts, performs⟩ .nil)
  · rw [List.map_append]
    exact ChatService.serial_snoc refines.serial taken
  · rcases advances.moves.mem_snapshots snapshot with older | rfl
    · obtain ⟨before, rest, was, serial⟩ := refines.past tables older
      exact ⟨before, rest ++ [operation], was, ChatService.serial_snoc serial taken⟩
    · exact ⟨next, [], represents, rfl⟩
  · cases slot : now.rooms room with
    | unused => exact absurd closed (taken.not_closed slot)
    | closed =>
      refine (refines.closed room slot).imp_right ?_
      rintro ⟨tables, snapshot, there⟩
      exact ⟨tables, advances.moves.snapshots_subset snapshot, there⟩
    | opened chat =>
      exact .inr ⟨_, advances.moves.snapshots_subset Store.tables_mem_snapshots,
        refines.represents.hasRoom slot⟩

theorem Refines.quiet (refines : Refines service tasks first backend.store history now)
    (advances : backend.Advances after thread []) :
    Refines service tasks first after.store history now := by
  have log : after.store.log = backend.store.log := advances.moves.log
  have snapshots : after.store.snapshots = backend.store.snapshots := advances.moves.snapshots
  refine ⟨log ▸ refines.logged, refines.serial, ?_, snapshots ▸ refines.past,
    snapshots ▸ refines.closed⟩
  rw [advances.moves.tables]
  exact refines.represents

theorem Refines.initial {initial : Tables} {generator : Generator}
    (represents : Represents initial first) :
    Refines service tasks first (Backend.start initial generator).shared.store [] first := by
  refine ⟨.nil, rfl, represents, fun tables snapshot => ?_, fun _ => .inl⟩
  obtain rfl := List.mem_singleton.mp snapshot
  exact ⟨first, [], represents, rfl⟩

end Refining

section Runs

variable {service : Service} {initial : Tables} {generator : Generator} {first : RoomService}
variable {moves : List (Move { _task : Task // True } Choice)}
variable {final : Threads Op Op.Result Backend (Option Response)}

/-- The ids that are drawn are those of rooms that have never been used. -/
structure Drawable (first : RoomService) (backend : Backend) : Prop where
  once : backend.generator.ids.Nodup
  unused : ∀ id ∈ backend.generator.ids, first.rooms id = .unused

theorem Drawable.before {backend next : Backend} {thread : Nat} {changes : List Change}
    (drawable : Drawable first next) (advances : backend.Advances next thread changes) :
    Drawable first backend :=
  ⟨drawable.once.sublist advances.ids_prefix.sublist,
    fun id drawn => drawable.unused id (advances.ids_prefix.subset drawn)⟩

theorem Drawable.fresh {backend : Backend} (drawable : Drawable first backend)
    (represents : Represents backend.store.initial first) : backend.Fresh := by
  refine ⟨drawable.once, fun id drawn there => ?_⟩
  obtain ⟨chat, open_⟩ := represents.opened there
  cases open_.symm.trans (drawable.unused id drawn)

/-- In every run the database goes through the states of one history of the service. -/
theorem runs_refine (ran : (calmTasks service).run (Backend.start initial generator) moves = some final)
    (represents : Represents initial first) (drawable : Drawable first final.shared) :
    ∃ history now, Refines service (tasksOf moves) first final.shared.store history now := by
  refine ((requests_attributed (motive := fun backend => backend.store.initial = initial ∧
    (Drawable first backend → ∃ history now,
      Refines service (tasksOf moves) first backend.store history now)) ran
        ⟨rfl, fun _ => ⟨[], first, .initial represents⟩⟩ ?_).valid.2).2 drawable
  rintro backend next thread known op choice answer changes valid ⟨same, sofar⟩ holds permitted
    served fulfils advances
  refine ⟨advances.moves.initial.trans same, fun later => ?_⟩
  have drawable := later.before advances
  obtain ⟨history, now, refines⟩ := sofar drawable
  rcases fulfils with rfl | ⟨_, _, new, task, operation, found, asks, performs⟩
  · exact ⟨history, now, refines.quiet advances⟩
  · exact ⟨_, refines.commit valid (drawable.fresh (same.symm ▸ represents))
      (fun id drawn closed => by cases (drawable.unused id drawn).symm.trans closed) performs
      holds.knows.facts new ⟨task, found, asks⟩ advances⟩

theorem represents_empty : Represents {} ChatService.empty :=
  ⟨fun _ => ⟨rfl, rfl⟩, rfl, List.nodup_nil⟩

theorem drawable_empty {backend : Backend} (once : backend.generator.ids.Nodup) :
    Drawable ChatService.empty backend := ⟨once, fun _ _ => rfl⟩

/-- The replies are those of the history: `Success` for an operation in it, with what it has
come to, and another reply for none; a failed invitation may be there all the same. -/
structure Answers (tasks : List Task) (final : Threads Op Op.Result Backend (Option Response))
    (history : List (Nat × RoomOperation)) : Prop where
  success : ∀ thread response, replyOf final thread = some response → response.succeeded = true →
    ∃ operation message, (thread, operation) ∈ history ∧
      response.body = .json (apiResponse .success message (operationData operation))
  failure : ∀ thread response, replyOf final thread = some response → response.succeeded = false →
    thread ∉ history.map Prod.fst ∨ ∃ req roomId, tasks[thread]? = some (.inviteMember req roomId) ∧
      response = badRequest req " Invite failed"

/-- What a task has committed tells the operation that it has carried out. -/
theorem Performs.unique {task : Task} {one two : RoomOperation} {facts others : List Fact}
    {changes : List Change} (asks : task.Asks service one) (again : task.Asks service two)
    (performs : Performs facts one changes) (alike : Performs others two changes) : one = two := by
  cases performs with
  | openGroup _ => cases alike; rfl
  | openPair _ _ => cases alike; rfl
  | invite _ => cases alike; rfl
  | close _ _ _ =>
    cases alike
    cases asks with
    | deleteRoom claimed =>
      cases again with
      | deleteRoom claimedAgain =>
        cases claimed.symm.trans claimedAgain
        rfl
  | @post posting _ _ =>
    generalize same : [Change.addMessage posting.row, .setLast posting.message.1 posting.room] = changes
      at alike
    cases alike with
    | @post other _ _ =>
      obtain ⟨room, author, id, content⟩ := posting
      obtain ⟨room', author', id', content'⟩ := other
      cases same
      rfl
    | _ => cases same

theorem Logged.thread {tasks : List Task} {commit : Commit} {entry : Nat × RoomOperation}
    (logged : Logged service tasks commit entry) : commit.thread = entry.1 := by
  obtain ⟨thread, operation⟩ := entry
  exact logged.1

theorem logged_threads {tasks : List Task} {log : List Commit} {history : List (Nat × RoomOperation)}
    (logged : List.Forall₂ (Logged service tasks) log history) :
    log.map Commit.thread = history.map Prod.fst := by
  induction logged with
  | nil => rfl
  | cons first _ ih => exact congrArg₂ List.cons first.thread ih

theorem logged_entry {tasks : List Task} {log : List Commit} {history : List (Nat × RoomOperation)}
    (logged : List.Forall₂ (Logged service tasks) log history) {commit : Commit} (member : commit ∈ log) :
    ∃ entry ∈ history, Logged service tasks commit entry := by
  induction logged with
  | nil => cases member
  | cons first _ ih =>
    rcases List.mem_cons.mp member with rfl | later
    · exact ⟨_, List.mem_cons_self .., first⟩
    · obtain ⟨entry, there, same⟩ := ih later
      exact ⟨entry, List.mem_cons_of_mem _ there, same⟩

theorem commits_log :
    Logs Backend.call (fun backend => backend.store.log.reverse) Commit.thread := by
  intro backend thread op choice answer next served
  have log := (committing_moves served).log
  split at log
  · exact ⟨[], by simp [log], nofun⟩
  · refine ⟨_, (congrArg List.reverse log).trans List.reverse_cons, fun commit member => ?_⟩
    exact List.mem_singleton.mp member ▸ rfl

theorem replies_answer {history : List (Nat × RoomOperation)} {now : RoomService}
    (ran : (calmTasks service).run (Backend.start initial generator) moves = some final)
    (refines : Refines service (tasksOf moves) first final.shared.store history now) :
    Answers (tasksOf moves) final history := by
  constructor
  · intro thread response replied succeeded
    obtain ⟨task, known, found, holds, accounts⟩ := account_of_ended ran (replyOf_eq_some replied)
    obtain ⟨operation, facts, changes, message, asks, performs, done, body⟩ :=
      (accounts response rfl).1 succeeded
    have committed := holds.done
    rw [done] at committed
    obtain ⟨commit, logged, rfl, rfl⟩ := committed
    obtain ⟨⟨owner, other⟩, entry, own, ⟨task', found', asks'⟩, _, performs'⟩ :=
      logged_entry refines.logged (List.mem_reverse.mpr logged)
    obtain rfl : commit.thread = owner := own
    obtain rfl := Option.some.inj (found.symm.trans found')
    obtain rfl := Performs.unique asks asks' performs performs'
    exact ⟨operation, message, entry, body⟩
  · intro thread response replied failed
    obtain ⟨task, known, found, holds, accounts⟩ := account_of_ended ran (replyOf_eq_some replied)
    refine ((accounts response rfl).2 failed).imp (fun nothing there => ?_) ?_
    · have never := holds.done
      rw [nothing] at never
      rw [← logged_threads refines.logged] at there
      obtain ⟨commit, logged, own⟩ := List.mem_map.mp there
      exact never commit (List.mem_reverse.mp logged) own
    · rintro ⟨req, roomId, rfl, same⟩
      exact ⟨req, roomId, found, same⟩

/-- The tasks about rooms and messages are linearizable. However they interleave, their
commits are the operations of one serial history of the chat service, which has led to the
tables; no task has carried out two, the replies are those of the history, and it agrees
with real time. -/
theorem runs_linearizable
    (ran : (calmTasks service).run (Backend.start initial generator) moves = some final)
    (represents : Represents initial first) (drawable : Drawable first final.shared) :
    ∃ history now, Refines service (tasksOf moves) first final.shared.store history now ∧
      (history.map Prod.fst).Nodup ∧ Answers (tasksOf moves) final history ∧
      RealTime Backend.call (roomProgram service fun _ => True) (Backend.start initial generator)
        moves (history.map Prod.fst) := by
  obtain ⟨history, now, refines⟩ := runs_refine ran represents drawable
  have threads := logged_threads refines.logged
  refine ⟨history, now, refines, ?_, replies_answer ran refines, ?_⟩
  · rw [← threads, List.map_reverse]
    exact List.nodup_reverse.mpr (threads_once ran)
  · exact threads ▸ real_time commits_log ran rfl

/-- User 1 creates room 1 and writes to it. -/
private def writingToNewRoom : List (Move { _task : Task // True } Choice) :=
  .start ⟨.createGRoom (sampleRequest .post "/api/group_room" "1" "room"), trivial⟩ ::
    stepsOf 0 [.returns, .returns, .returns, .returns, .returns, .returns] ++
  .start ⟨.handleMessage "group 1" ⟨1, "1"⟩, trivial⟩ ::
    stepsOf 1 [.returns, .returns, .reads 0, .returns, .returns, .returns, .returns, .returns,
      .online [2], .returns]

private theorem writing_runs : ∃ final, (calmTasks sampleService).run
    (Backend.start {} (sampleGenerator 2)) writingToNewRoom = some final ∧
      final.shared.generator.ids = [1, 2] ∧ final.shared.store.log.length = 2 := by
  have ran : (((calmTasks sampleService).run (Backend.start {} (sampleGenerator 2))
      writingToNewRoom).map fun final =>
        (final.shared.generator.ids, final.shared.store.log.length)) = some ([1, 2], 2) := by
    decide +kernel
  obtain ⟨final, reached, both⟩ := Option.map_eq_some_iff.mp ran
  exact ⟨final, reached, congrArg Prod.fst both, congrArg Prod.snd both⟩

theorem runs_linearizable_writing : ∃ final history now, (calmTasks sampleService).run
    (Backend.start {} (sampleGenerator 2)) writingToNewRoom = some final ∧ history.length = 2 ∧
      Refines sampleService (tasksOf writingToNewRoom) .empty final.shared.store history now ∧
      (history.map Prod.fst).Nodup ∧ Answers (tasksOf writingToNewRoom) final history ∧
      RealTime Backend.call (roomProgram sampleService fun _ => True)
        (Backend.start {} (sampleGenerator 2)) writingToNewRoom (history.map Prod.fst) := by
  obtain ⟨final, reached, ids, commits⟩ := writing_runs
  obtain ⟨history, now, refines, serial⟩ :=
    runs_linearizable reached represents_empty (drawable_empty (ids ▸ by decide))
  refine ⟨final, history, now, reached, ?_, refines, serial⟩
  rw [← refines.logged.length_eq, List.length_reverse, commits]

/-- While ids are fresh, a room names the latest of its messages as they were committed, and
all their senders are members of it. -/
theorem rooms_chronicled
    (ran : (calmTasks service).run (Backend.start {} generator) moves = some final)
    (once : final.shared.generator.ids.Nodup) :
    ∀ room ∈ final.shared.store.tables.rooms,
      let messages := final.shared.store.tables.messages.filter (·.roomId = room.id)
      room.lastMessageId = messages.getLast?.map MessageRow.id ∧
        ∀ message ∈ messages, final.shared.store.tables.HasMember room.id message.senderId := by
  obtain ⟨history, now, refines⟩ := runs_refine ran represents_empty (drawable_empty once)
  have represents := refines.represents
  have chronicled := refines.serial.chronicled
  intro room there messages
  obtain ⟨chat, open_⟩ := represents.opened ⟨room, there, rfl⟩
  have row := represents.row_eq open_ there rfl
  have shown : messages = (now.postingsIn room.id).map Posting.row := by
    change List.filter _ _ = _
    rw [represents.messages, List.filter_map]
    rfl
  rw [shown]
  constructor
  · rw [row, List.getLast?_map, ChatRoom.row, chronicled.last room.id chat open_]
    simp [Option.map_map, Function.comp_def, Posting.row]
  · intro message member
    obtain ⟨posting, listed, rfl⟩ := List.mem_map.mp member
    obtain ⟨posted, same⟩ := List.mem_filter.mp listed
    obtain ⟨role, has⟩ := chronicled.authors posting posted chat (of_decide_eq_true same ▸ open_)
    exact ⟨_, (represents.member_iff open_).mpr ⟨role, has, rfl⟩, rfl, rfl⟩

theorem rooms_chronicled_writing : ∃ final, (calmTasks sampleService).run
    (Backend.start {} (sampleGenerator 2)) writingToNewRoom = some final ∧
      ∀ room ∈ final.shared.store.tables.rooms,
        let messages := final.shared.store.tables.messages.filter (·.roomId = room.id)
        room.lastMessageId = messages.getLast?.map MessageRow.id ∧
          ∀ message ∈ messages, final.shared.store.tables.HasMember room.id message.senderId := by
  obtain ⟨final, reached, ids, _⟩ := writing_runs
  exact ⟨final, reached, rooms_chronicled reached (ids ▸ by decide)⟩

/-- A room that is still there has the name, the type and the owner it has had in every
earlier state, and all who were members of it then still are, in the same role. -/
theorem rooms_endure
    (ran : (calmTasks service).run (Backend.start initial generator) moves = some final)
    (represents : Represents initial first) (drawable : Drawable first final.shared) :
    ∀ earlier ∈ final.shared.store.snapshots, ∀ before ∈ earlier.rooms,
      ∀ room ∈ final.shared.store.tables.rooms, room.id = before.id →
        (room.name = before.name ∧ room.type = before.type ∧ room.ownerId = before.ownerId) ∧
        ∀ row ∈ earlier.membersOf before.id, row ∈ final.shared.store.tables.members := by
  obtain ⟨history, now, refines⟩ := runs_refine ran represents drawable
  intro earlier snapshot before there room still same
  obtain ⟨was, rest, represented, serial⟩ := refines.past earlier snapshot
  obtain ⟨chat, open_⟩ := represented.opened ⟨before, there, rfl⟩
  obtain ⟨later, opened⟩ := refines.represents.opened ⟨room, still, same⟩
  have row := represented.row_eq open_ there rfl
  have laterRow := refines.represents.row_eq opened still same
  have continues := serial.continues open_
  rw [opened] at continues
  cases continues with
  | opened name type owner stays =>
    refine ⟨?_, fun member listed => ?_⟩
    · rw [row, laterRow]
      exact ⟨name, congrArg RoomType.code type, owner⟩
    · obtain ⟨was, ofRoom⟩ := List.mem_filter.mp listed
      obtain ⟨roomId, userId, code⟩ := member
      obtain rfl : roomId = before.id := of_decide_eq_true ofRoom
      obtain ⟨role, has, rfl⟩ := (represented.member_iff open_).mp was
      exact (refines.represents.member_iff opened).mpr ⟨role, stays _ role has, rfl⟩

theorem rooms_endure_writing : ∃ final, (calmTasks sampleService).run
    (Backend.start {} (sampleGenerator 2)) writingToNewRoom = some final ∧
      ∀ earlier ∈ final.shared.store.snapshots, ∀ before ∈ earlier.rooms,
        ∀ room ∈ final.shared.store.tables.rooms, room.id = before.id →
          (room.name = before.name ∧ room.type = before.type ∧ room.ownerId = before.ownerId) ∧
          ∀ row ∈ earlier.membersOf before.id, row ∈ final.shared.store.tables.members := by
  obtain ⟨final, reached, ids, _⟩ := writing_runs
  exact ⟨final, reached, rooms_endure reached represents_empty (drawable_empty (ids ▸ by decide))⟩

end Runs

end TinyChat.Core
