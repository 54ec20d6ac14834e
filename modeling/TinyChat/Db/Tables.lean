import TinyChat.Utils.Enums

/-! The rows of the tables the handlers name and the statements they send. The values
are the bound arguments of the prepared statements. -/
namespace TinyChat.Db

/-- A row of `users`. -/
structure UserRow where
  id : UInt64
  username : String
  passwordHash : String
  email : String
  nickname : String
  avatarUrl : String
  createdAt : String
  deriving DecidableEq

/-- A row of `rooms` as it is inserted; a column that is not named is null. -/
structure RoomRow where
  id : UInt64
  name : Option String
  type : Int
  ownerId : Option UInt64
  lastMessageId : Option UInt64 := none
  deriving DecidableEq

/-- A row of `room_members`. -/
structure MemberRow where
  roomId : UInt64
  userId : UInt64
  role : Int
  deriving DecidableEq

/-- A row of `messages`. -/
structure MessageRow where
  id : UInt64
  roomId : UInt64
  senderId : UInt64
  content : String
  deriving DecidableEq

/-- The arguments of `execute_update`. -/
inductive Write where
  /-- `INSERT INTO users (id, username, password_hash, email, nickname)`. -/
  | insertUser (id : UInt64) (username passwordHash email nickname : String)
  | insertRoom (row : RoomRow)
  | insertMembers (rows : List MemberRow)
  /-- `DELETE FROM room_members WHERE room_id = ?`. -/
  | deleteMembers (roomId : UInt64)
  /-- `DELETE FROM rooms WHERE id = ?`. -/
  | deleteRoom (id : UInt64)
  | insertMessage (row : MessageRow)
  /-- `UPDATE rooms set last_message_id = ? WHERE id = ?`. -/
  | setLastMessage (msgId id : UInt64)
  deriving DecidableEq

/-- The arguments of `execute_query`. -/
inductive Query where
  | userNamed (username : String)
  /-- `SELECT role FROM room_members WHERE room_id = ? AND user_id = ?`. -/
  | role (roomId userId : UInt64)
  /-- `SELECT 1 FROM room_members WHERE room_id = ? AND user_id = ?`. -/
  | membership (roomId userId : UInt64)
  /-- `SELECT type FROM rooms WHERE id = ?`. -/
  | roomType (id : UInt64)
  /-- `SELECT user_id FROM room_members WHERE room_id = ?`. -/
  | roomMembers (roomId : UInt64)
  /-- `SELECT room_id FROM room_members WHERE user_id = ?`. -/
  | roomsOf (userId : UInt64)
  deriving DecidableEq

/-- What one row of the answer gives the caller. -/
def Query.Row : Query → Type
  | userNamed _ => UserRow
  | role _ _ => Int
  | membership _ _ => Unit
  | roomType _ => Int
  | roomMembers _ => UInt64
  | roomsOf _ => UInt64

end TinyChat.Db
