import TinyChat.Utils.Enums
import Mathlib.Data.Set.Insert
import Mathlib.Logic.Function.Basic

/-! What the server is for, without statements, transactions and threads: rooms that users
open, join and close, and the messages they post there, one operation after the other. -/
namespace TinyChat.Core

open TinyChat.Utils

universe u

/-- The users of a room; a group has its owner and those who were invited. -/
inductive Users (User : Type u) where
  | group (owner : User) (invited : Set User) (apart : owner ∉ invited)
  | pair (first second : User) (different : first ≠ second)

namespace Users

variable {User : Type u} {users : Users User} {user newcomer : User} {role other : GroupRole}

def HasRole : Users User → User → GroupRole → Prop
  | group owner _ _, user, .owner => user = owner
  | group _ invited _, user, .member => user ∈ invited
  | pair first second _, user, .privateMember => user = first ∨ user = second
  | _, _, _ => False

def Has (users : Users User) (user : User) : Prop := ∃ role, users.HasRole user role

def type : Users User → RoomType
  | group _ _ _ => .group
  | pair _ _ _ => .privateRoom

/-- The user who may close the room. -/
def owner : Users User → Option User
  | group owner _ _ => some owner
  | pair _ _ _ => none

/-- A group with one more user; a pair stays what it is. -/
def invite (users : Users User) (newcomer : User) (new : ¬ users.Has newcomer) : Users User :=
  match users with
  | group owner invited apart => group owner (insert newcomer invited) (by
      rintro (same | member)
      · exact new ⟨.owner, same.symm⟩
      · exact apart member)
  | pair first second different => pair first second different

theorem hasRole_owner_iff : users.HasRole user .owner ↔ users.owner = some user := by
  cases users with
  | group owner invited apart => exact ⟨fun same => congrArg some same.symm, fun same => (Option.some.inj same).symm⟩
  | pair first second different => exact ⟨False.elim, nofun⟩

variable {new : ¬ users.Has newcomer}

@[simp] theorem invite_type : (users.invite newcomer new).type = users.type := by
  cases users <;> rfl

@[simp] theorem invite_owner : (users.invite newcomer new).owner = users.owner := by
  cases users <;> rfl

/-- An invitation adds the role of the newcomer and takes nobody's. -/
theorem hasRole_invite_iff (group : users.type = .group) :
    (users.invite newcomer new).HasRole user role ↔
      users.HasRole user role ∨ user = newcomer ∧ role = .member := by
  cases users with
  | pair first second different => cases group
  | group owner invited apart =>
    cases role with
    | member =>
      constructor
      · rintro (same | member)
        · exact .inr ⟨same, rfl⟩
        · exact .inl member
      · rintro (member | ⟨same, _⟩)
        · exact .inr member
        · exact .inl same
    | owner => exact ⟨.inl, fun either => either.resolve_right nofun⟩
    | admin => exact ⟨.inl, fun either => either.resolve_right nofun⟩
    | privateMember => exact ⟨.inl, fun either => either.resolve_right nofun⟩

theorem hasRole_invite (has : users.HasRole user role) :
    (users.invite newcomer new).HasRole user role := by
  cases users with
  | pair first second different => exact has
  | group owner invited apart => exact (hasRole_invite_iff rfl).mpr (.inl has)

end Users

/-- An open room. -/
structure ChatRoom (Name User Message : Type) where
  name : Option Name
  users : Users User
  /-- The message posted last. -/
  last : Option Message := none

/-- A room is opened once and closed at most once. -/
inductive Slot (Name User Message : Type) where
  | unused
  | opened (chat : ChatRoom Name User Message)
  | closed

structure Posting (Room User Message : Type) where
  room : Room
  author : User
  message : Message

structure ChatService (Room Name User Message : Type) where
  rooms : Room → Slot Name User Message
  /-- The oldest first; a closed room keeps its messages. -/
  postings : List (Posting Room User Message)

inductive Operation (Room Name User Message : Type) where
  | openGroup (room : Room) (name : Name) (owner : User)
  | openPair (room : Room) (first second : User)
  | invite (room : Room) (newcomer : User)
  | close (room : Room) (owner : User)
  | post (posting : Posting Room User Message)

namespace ChatService

variable {Room Name User Message : Type} [DecidableEq Room]
variable {service next final : ChatService Room Name User Message}
variable {operation : Operation Room Name User Message}
variable {history rest : List (Operation Room Name User Message)}

def empty : ChatService Room Name User Message := { rooms := fun _ => .unused, postings := [] }

def setRoom (service : ChatService Room Name User Message) (room : Room)
    (slot : Slot Name User Message) : ChatService Room Name User Message :=
  { service with rooms := Function.update service.rooms room slot }

/-- The operations with the conditions under which they are carried out. -/
inductive Step (service : ChatService Room Name User Message) :
    Operation Room Name User Message → ChatService Room Name User Message → Prop where
  | openGroup {room : Room} {name : Name} {owner : User} (unused : service.rooms room = .unused) :
      Step service (.openGroup room name owner) (service.setRoom room
        (.opened { name := some name, users := .group owner ∅ (Set.notMem_empty owner) }))
  | openPair {room : Room} {first second : User} (unused : service.rooms room = .unused)
      (different : first ≠ second) : Step service (.openPair room first second)
        (service.setRoom room (.opened { name := none, users := .pair first second different }))
  | invite {room : Room} {newcomer : User} {chat : ChatRoom Name User Message}
      (open_ : service.rooms room = .opened chat) (group : chat.users.type = .group)
      (new : ¬ chat.users.Has newcomer) : Step service (.invite room newcomer)
        (service.setRoom room (.opened { chat with users := chat.users.invite newcomer new }))
  /-- An invitation into a room that has been closed is of no consequence. -/
  | invitedLate {room : Room} {newcomer : User} (closed : service.rooms room = .closed) :
      Step service (.invite room newcomer) service
  | close {room : Room} {owner : User} {chat : ChatRoom Name User Message}
      (open_ : service.rooms room = .opened chat) (owns : chat.users.owner = some owner) :
      Step service (.close room owner) (service.setRoom room .closed)
  | post {posting : Posting Room User Message} {chat : ChatRoom Name User Message}
      (open_ : service.rooms posting.room = .opened chat) (member : chat.users.Has posting.author) :
      Step service (.post posting)
        { (service.setRoom posting.room (.opened { chat with last := some posting.message })) with
          postings := service.postings ++ [posting] }

/-- The operations are carried out in this order. -/
def Serial (service : ChatService Room Name User Message) :
    List (Operation Room Name User Message) → ChatService Room Name User Message → Prop
  | [], final => service = final
  | operation :: rest, final => ∃ next, Step service operation next ∧ Serial next rest final

theorem serial_append : Serial service (history ++ rest) final ↔
    ∃ middle, Serial service history middle ∧ Serial middle rest final := by
  induction history generalizing service with
  | nil => simp [Serial]
  | cons operation more ih =>
    simp only [List.cons_append, Serial, ih]
    constructor
    · rintro ⟨next, taken, middle, before, after⟩
      exact ⟨middle, ⟨next, taken, before⟩, after⟩
    · rintro ⟨middle, ⟨next, taken, before⟩, after⟩
      exact ⟨next, taken, middle, before, after⟩

theorem serial_snoc (before : Serial service history next) (taken : Step next operation final) :
    Serial service (history ++ [operation]) final :=
  serial_append.mpr ⟨next, before, final, taken, rfl⟩

/-- What every operation keeps holds at the end if it holds at the beginning. -/
theorem Serial.invariant {motive : ChatService Room Name User Message → Prop}
    (serial : Serial service history final) (initial : motive service)
    (kept : ∀ {service operation next}, motive service → Step service operation next → motive next) :
    motive final := by
  induction history generalizing service with
  | nil =>
    obtain rfl : service = final := serial
    exact initial
  | cons operation rest ih =>
    obtain ⟨next, taken, later⟩ := serial
    exact ih later (kept initial taken)

/-- What becomes of an open room: everybody stays what they are until it is closed. -/
inductive Continues (chat : ChatRoom Name User Message) : Slot Name User Message → Prop where
  | closed : Continues chat .closed
  | opened {later : ChatRoom Name User Message} (name : later.name = chat.name)
      (type : later.users.type = chat.users.type) (owner : later.users.owner = chat.users.owner)
      (stays : ∀ user role, chat.users.HasRole user role → later.users.HasRole user role) :
      Continues chat (.opened later)

theorem Continues.refl {chat : ChatRoom Name User Message} : Continues chat (.opened chat) :=
  .opened rfl rfl rfl fun _ _ => id

@[simp] theorem setRoom_same {room : Room} {slot : Slot Name User Message} :
    (service.setRoom room slot).rooms room = slot := Function.update_self ..

theorem setRoom_other {room other : Room} {slot : Slot Name User Message} (different : other ≠ room) :
    (service.setRoom room slot).rooms other = service.rooms other :=
  Function.update_of_ne different ..

/-- Only the room of the operation changes, and an open one goes on or is closed. -/
theorem Step.continues {room : Room} {chat : ChatRoom Name User Message}
    (taken : Step service operation next) (open_ : service.rooms room = .opened chat) :
    Continues chat (next.rooms room) := by
  have elsewhere {other : Room} {slot : Slot Name User Message} (different : room ≠ other) :
      Continues chat ((service.setRoom other slot).rooms room) := by
    rw [setRoom_other different, open_]
    exact .refl
  cases taken with
  | @openGroup other name owner unused =>
    refine elsewhere fun same => ?_
    rw [same, unused] at open_
    cases open_
  | @openPair other first second unused different =>
    refine elsewhere fun same => ?_
    rw [same, unused] at open_
    cases open_
  | @invite other newcomer there opened group new =>
    by_cases same : room = other
    · subst same
      cases opened.symm.trans open_
      rw [setRoom_same]
      exact .opened rfl Users.invite_type Users.invite_owner fun _ _ => Users.hasRole_invite
    · exact elsewhere same
  | invitedLate closed => exact open_ ▸ .refl
  | @close other owner there opened owns =>
    by_cases same : room = other
    · subst same
      rw [setRoom_same]
      exact .closed
    · exact elsewhere same
  | @post posting there opened member =>
    by_cases same : room = posting.room
    · subst same
      cases opened.symm.trans open_
      change Continues chat ((service.setRoom _ _).rooms _)
      rw [setRoom_same]
      exact .opened rfl rfl rfl fun _ _ => id
    · exact elsewhere same

theorem Step.closed {room : Room} (taken : Step service operation next)
    (closed : service.rooms room = .closed) : next.rooms room = .closed := by
  have elsewhere {other : Room} {slot : Slot Name User Message}
      (open_ : service.rooms other ≠ .closed) : (service.setRoom other slot).rooms room = .closed := by
    rw [setRoom_other (fun same : room = other => open_ (same ▸ closed)), closed]
  cases taken with
  | openGroup unused => exact elsewhere (unused ▸ nofun)
  | openPair unused different => exact elsewhere (unused ▸ nofun)
  | invite open_ group new => exact elsewhere (open_ ▸ nofun)
  | invitedLate again => exact closed
  | close open_ owns => exact elsewhere (open_ ▸ nofun)
  | post open_ member => exact elsewhere (open_ ▸ nofun)

theorem Step.not_closed {room : Room} (taken : Step service operation next)
    (unused : service.rooms room = .unused) : next.rooms room ≠ .closed := by
  have elsewhere {other : Room} {slot : Slot Name User Message} (open_ : room = other → slot ≠ .closed) :
      (service.setRoom other slot).rooms room ≠ .closed := by
    by_cases own : room = other
    · subst own
      exact setRoom_same.trans_ne (open_ rfl)
    · rw [setRoom_other own, unused]
      nofun
  cases taken with
  | openGroup _ => exact elsewhere fun _ => nofun
  | openPair _ _ => exact elsewhere fun _ => nofun
  | invite _ _ _ => exact elsewhere fun _ => nofun
  | invitedLate closed => exact fun again => by cases unused.symm.trans again
  | close open_ _ => exact elsewhere fun own => by cases (own ▸ unused).symm.trans open_
  | post _ _ => exact elsewhere fun _ => nofun

theorem Serial.continues {room : Room} {chat : ChatRoom Name User Message}
    (serial : Serial service history final) (open_ : service.rooms room = .opened chat) :
    Continues chat (final.rooms room) := by
  refine serial.invariant (motive := fun now => Continues chat (now.rooms room))
    (open_ ▸ .refl) fun {now operation next} sofar taken => ?_
  cases slot : now.rooms room with
  | unused =>
    rw [slot] at sofar
    cases sofar
  | closed =>
    rw [taken.closed slot]
    exact .closed
  | opened current =>
    rw [slot] at sofar
    cases sofar with
    | opened name type owner stays =>
      have step := taken.continues slot
      cases after : next.rooms room with
      | unused =>
        rw [after] at step
        cases step
      | closed => exact .closed
      | opened later =>
        rw [after] at step
        cases step with
        | opened laterName laterType laterOwner laterStays =>
          exact .opened (laterName.trans name) (laterType.trans type) (laterOwner.trans owner)
            fun user role has => laterStays user role (stays user role has)

theorem Serial.closed {room : Room} (serial : Serial service history final)
    (closed : service.rooms room = .closed) : final.rooms room = .closed :=
  serial.invariant (motive := fun now => now.rooms room = .closed) closed
    fun sofar taken => taken.closed sofar

/-- The messages of a room, the oldest first. -/
def postingsIn (service : ChatService Room Name User Message) (room : Room) :
    List (Posting Room User Message) := service.postings.filter (·.room = room)

/-- An open room names its latest message, and all who have written there are its users. -/
structure Chronicled (service : ChatService Room Name User Message) : Prop where
  last : ∀ room chat, service.rooms room = .opened chat →
    chat.last = (service.postingsIn room).getLast?.map Posting.message
  authors : ∀ posting ∈ service.postings, ∀ chat, service.rooms posting.room = .opened chat →
    chat.users.Has posting.author
  unused : ∀ room, service.rooms room = .unused → service.postingsIn room = []

theorem empty_chronicled : (empty : ChatService Room Name User Message).Chronicled :=
  ⟨fun _ _ => nofun, fun _ => nofun, fun _ _ => rfl⟩

/-- The messages have nothing to do with a room that nobody has written to. -/
theorem Chronicled.setRoom {room : Room} {slot : Slot Name User Message}
    (chronicled : service.Chronicled) (used : slot ≠ .unused)
    (last : ∀ chat, slot = .opened chat →
      chat.last = (service.postingsIn room).getLast?.map Posting.message)
    (authors : ∀ chat, slot = .opened chat → ∀ posting ∈ service.postings, posting.room = room →
      chat.users.Has posting.author) : (service.setRoom room slot).Chronicled := by
  refine ⟨fun other chat open_ => ?_, fun posting member chat open_ => ?_, fun other unused => ?_⟩
  · by_cases same : other = room
    · subst same
      rw [setRoom_same] at open_
      exact last chat open_
    · rw [setRoom_other same] at open_
      exact chronicled.last other chat open_
  · by_cases same : posting.room = room
    · rw [same, setRoom_same] at open_
      exact authors chat open_ posting member same
    · rw [setRoom_other same] at open_
      exact chronicled.authors posting member chat open_
  · by_cases same : other = room
    · subst same
      rw [setRoom_same] at unused
      exact absurd unused used
    · rw [setRoom_other same] at unused
      exact chronicled.unused other unused

theorem postingsIn_snoc {posting : Posting Room User Message} {slot : Slot Name User Message}
    {room other : Room} :
    postingsIn { (service.setRoom room slot) with postings := service.postings ++ [posting] } other =
      service.postingsIn other ++ if posting.room = other then [posting] else [] := by
  unfold postingsIn
  rw [List.filter_append]
  by_cases same : posting.room = other <;> simp [same]

theorem Step.chronicled (taken : Step service operation next) (chronicled : service.Chronicled) :
    next.Chronicled := by
  have nobody {room : Room} (unused : service.rooms room = .unused)
      {posting : Posting Room User Message} (member : posting ∈ service.postings) :
      posting.room ≠ room := by
    intro same
    have there : posting ∈ service.postingsIn room :=
      List.mem_filter.mpr ⟨member, decide_eq_true same⟩
    rw [chronicled.unused room unused] at there
    cases there
  cases taken with
  | @openGroup room name owner unused =>
    refine chronicled.setRoom nofun (fun chat open_ => ?_) fun chat open_ posting member same => ?_
    · cases open_
      rw [chronicled.unused room unused]
      rfl
    · exact absurd same (nobody unused member)
  | @openPair room first second unused different =>
    refine chronicled.setRoom nofun (fun chat open_ => ?_) fun chat open_ posting member same => ?_
    · cases open_
      rw [chronicled.unused room unused]
      rfl
    · exact absurd same (nobody unused member)
  | @invite room newcomer chat opened group new =>
    refine chronicled.setRoom nofun (fun _ open_ => ?_) fun _ open_ posting member same => ?_
    · cases open_
      exact chronicled.last room chat opened
    · cases open_
      obtain ⟨role, has⟩ := chronicled.authors posting member chat (same ▸ opened)
      exact ⟨role, Users.hasRole_invite has⟩
  | invitedLate closed => exact chronicled
  | close opened owns => exact chronicled.setRoom nofun (fun _ => nofun) fun _ => nofun
  | @post posting chat opened author =>
    refine ⟨fun other later open_ => ?_, fun earlier member later open_ => ?_, fun other unused => ?_⟩
    · rw [postingsIn_snoc]
      by_cases same : other = posting.room
      · subst same
        rw [show _ = Slot.opened { chat with last := some posting.message } from setRoom_same] at open_
        cases open_
        simp
      · rw [show _ = service.rooms other from setRoom_other same] at open_
        rw [if_neg (Ne.symm same), List.append_nil]
        exact chronicled.last other later open_
    · by_cases same : earlier.room = posting.room
      · rw [same, show _ = Slot.opened { chat with last := some posting.message } from setRoom_same]
          at open_
        cases open_
        rcases List.mem_append.mp member with before | new
        · exact chronicled.authors earlier before chat (same ▸ opened)
        · exact List.mem_singleton.mp new ▸ author
      · rw [show _ = service.rooms earlier.room from setRoom_other same] at open_
        rcases List.mem_append.mp member with before | new
        · exact chronicled.authors earlier before later open_
        · exact absurd (congrArg Posting.room (List.mem_singleton.mp new)) same
    · by_cases same : other = posting.room
      · subst same
        rw [show _ = Slot.opened { chat with last := some posting.message } from setRoom_same] at unused
        cases unused
      · rw [show _ = service.rooms other from setRoom_other same] at unused
        rw [postingsIn_snoc, if_neg (Ne.symm same), List.append_nil]
        exact chronicled.unused other unused

/-- In every history the rooms know their latest message and their authors. -/
theorem Serial.chronicled (serial : Serial empty history final) : final.Chronicled :=
  serial.invariant empty_chronicled fun sofar taken => taken.chronicled sofar

end ChatService

end TinyChat.Core
