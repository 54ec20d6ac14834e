import Mathlib.Data.Nat.Basic

namespace TinyChat.Utils

/-- The configured database; each field has passed the check of its setter. -/
structure Database where
  sqlconnpoolMaxSize : Nat
  server : String
  user : String
  passwd : String
  db : String
  maxSizePositive : 0 < sqlconnpoolMaxSize
  serverNonempty : server ≠ ""
  userNonempty : user ≠ ""
  passwdNonempty : passwd ≠ ""
  dbNonempty : db ≠ ""

/-- The `[Database]` section of `doc/config.ini`. -/
def Database.documented : Database :=
  { sqlconnpoolMaxSize := 20
    server := "tcp://localhost:3306"
    user := "root"
    passwd := "123RootP"
    db := "tinychat"
    maxSizePositive := by decide
    serverNonempty := by decide
    userNonempty := by decide
    passwdNonempty := by decide
    dbNonempty := by decide }

end TinyChat.Utils
