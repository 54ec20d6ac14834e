import TinyChat.Core.RequestHandler
import TinyChat.Effect.Attribution
import TinyChat.Utils.SnowFlake

/-! Logins and registrations as threads over the `users` table. Their connections stay in
autocommit mode, so that a row is there for everybody as soon as its statement has returned. -/
namespace TinyChat.Core

open TinyChat.Db TinyChat.Effect TinyChat.Text TinyChat.Transition TinyChat.Utils
open Program

/-- What the service uses of `crypto_pwhash_str`: a hash verifies the password it was made
of, whatever the salt. -/
structure PasswordHash where
  hash : String → String → String
  verify : String → String → Bool
  verifies : ∀ salt plain, verify plain (hash salt plain) = true

/-- The table of users with the id generator. -/
structure Directory where
  initial : List UserRow := []
  /-- The rows inserted since with their threads, the oldest first. -/
  inserted : List (Nat × UserRow) := []
  generator : Generator

/-- All that the environment decides at a call. -/
inductive AccountChoice where
  /-- The call does what it is for. -/
  | returns
  /-- The salt of a password. -/
  | salted (salt : String)
  /-- The rows of a query in the order in which they come. -/
  | lists (rows : List UserRow)
  /-- The row gets these values in the columns that the statement does not name. -/
  | inserts (avatarUrl createdAt : String)
  /-- The statement reports a number of rows that its caller does not expect. -/
  | misreports (inserted : Option (String × String)) (count : Nat)
  | reads (time : Int)
  | throws
  /-- The row is inserted and the call throws all the same. -/
  | unanswered (avatarUrl createdAt : String)

/-- `next_id`; there is no answer while the call waits for the clock. -/
def drawId (generator : Generator) (thread : Nat) : Option (Except String UInt64 × Generator) :=
  match generator.flake.nextId generator.clock with
  | .returned id _ _ => (generator.call thread).map (.ok id, ·)
  | .threw what _ _ => (generator.call thread).map (.error what, ·)
  | .waiting _ => none

namespace Directory

def rows (directory : Directory) : List UserRow :=
  directory.initial ++ directory.inserted.map Prod.snd

def named (rows : List UserRow) (username : String) : List UserRow :=
  rows.filter (·.username = username)

def insert (directory : Directory) (thread : Nat) (row : UserRow) : Directory :=
  { directory with inserted := directory.inserted ++ [(thread, row)] }

def nextId (directory : Directory) (thread : Nat) : Option (Except String UInt64 × Directory) :=
  (drawId directory.generator thread).map fun (answer, generator) =>
    (answer, { directory with generator })

/-- `SELECT ... FROM users WHERE username = ?`, whose rows come in any order. -/
def select (directory : Directory) (username : String) (rows : List UserRow) :
    Option (Except String (List UserRow) × Directory) :=
  if rows.isPerm (named directory.rows username) then some (.ok rows, directory) else none

/-- A statement whose number of rows is not the one it is executed for. -/
def misreport (directory : Directory) (thread : Nat) (row : String → String → UserRow)
    (inserted : Option (String × String)) (count : Nat) : Option (Except String Nat × Directory) :=
  if count = 1 then none
  else match inserted with
    | some (avatarUrl, createdAt) => some (.ok count, directory.insert thread (row avatarUrl createdAt))
    | none => some (.ok count, directory)

/-- The calls of the threads; what other tasks than logins and registrations call is left out. -/
def serve (hashing : PasswordHash) (directory : Directory) (thread : Nat) :
    (op : Op) → AccountChoice → Option (Except String op.Result × Directory)
  | .connect, .returns => some (.ok ⟨⟩, directory)
  | .release, .returns => some (.ok ⟨⟩, directory)
  | .query (.userNamed username), .lists rows => directory.select username rows
  | .update (.insertUser id username passwordHash email nickname), .inserts avatarUrl createdAt =>
    some (.ok (1 : Nat), directory.insert thread
      { id, username, passwordHash, email, nickname, avatarUrl, createdAt })
  | .update (.insertUser id username passwordHash email nickname), .misreports inserted count =>
    directory.misreport thread (fun avatarUrl createdAt =>
      { id, username, passwordHash, email, nickname, avatarUrl, createdAt }) inserted count
  | .update (.insertUser id username passwordHash email nickname), .unanswered avatarUrl createdAt =>
    some (.error "sql::SQLException", directory.insert thread
      { id, username, passwordHash, email, nickname, avatarUrl, createdAt })
  | .nextId, .returns => directory.nextId thread
  | .hashPassword plainPassword, .salted salt => some (.ok (hashing.hash salt plainPassword), directory)
  | .verifyPassword plainPassword storedHash, .returns =>
    some (.ok (hashing.verify plainPassword storedHash), directory)
  | .now, .reads time => some (.ok time, directory)
  | .hashPassword _, .throws =>
    some (.error "Failed to hash password with Argon2id", directory)
  | .connect, .throws | .release, .throws | .query _, .throws | .update _, .throws =>
    some (.error "sql::SQLException", directory)
  | _, _ => none

end Directory

/-- A task of the thread pool that has to do with accounts. -/
inductive AccountTask where
  | login (req : Request)
  | register (req : Request)

def AccountTask.program (service : Service) : AccountTask → WorkerTask Response
  | login req => handleLogin service req
  | register req => handleRegister service req

/-- All interleavings of logins and registrations. -/
def accountMachine (service : Service) (hashing : PasswordHash) :
    Machine (Threads Op Op.Result Directory Response) (Move AccountTask AccountChoice) :=
  interleaving (Directory.serve hashing) (AccountTask.program service)

/-- The user that a body of `/api/register` describes. -/
def AccountTask.Registers (service : Service) (task : AccountTask) (request : RegisterRequest) : Prop :=
  ∃ req jv, task = .register req ∧ service.parse req.body = .ok jv ∧
    RegisterRequest.valueTo jv = .ok request

/-- The user that a body of `/api/login` names. -/
def AccountTask.LogsIn (service : Service) (task : AccountTask) (req : Request)
    (request : LoginRequest) : Prop :=
  task = .login req ∧ req.method = .post ∧ ∃ jv, service.parse req.body = .ok jv ∧
    LoginRequest.valueTo jv = .ok request

/-- The row has what the request says, and the hash is one of its password. -/
structure RegisterRequest.Describes (hashing : PasswordHash) (request : RegisterRequest)
    (row : UserRow) : Prop where
  username : row.username = request.username
  email : row.email = request.email
  nickname : row.nickname = request.nickname
  hashed : ∃ salt, row.passwordHash = hashing.hash salt request.password

/-! What a thread has learnt, and what it has done. -/

inductive AccountFact where
  /-- A query has listed the rows of a name. -/
  | listed (username : String) (rows : List UserRow)
  | hashed (plainPassword storedHash : String)
  | verified (plainPassword storedHash : String) (result : Bool)
  | drew (id : UInt64)

inductive Registration where
  | nothing
  /-- A statement has thrown, or reported another number of rows than one. -/
  | unsure
  | inserted (id : UInt64) (username passwordHash email nickname : String)

structure Progress where
  facts : List AccountFact := []
  registration : Registration := .nothing

def accountFact : (op : Op) → op.Result → List AccountFact
  | .query (.userNamed username), (rows : List UserRow) => [.listed username rows]
  | .hashPassword plainPassword, (storedHash : String) => [.hashed plainPassword storedHash]
  | .verifyPassword plainPassword storedHash, (result : Bool) =>
    [.verified plainPassword storedHash result]
  | .nextId, (id : UInt64) => [.drew id]
  | _, _ => []

def registrationAfter (registration : Registration) : (op : Op) → op.Result → Registration
  | .update (.insertUser id username passwordHash email nickname), (count : Nat) =>
    if count = 1 then .inserted id username passwordHash email nickname else .unsure
  | _, _ => registration

def registrationFailed (registration : Registration) : Op → Registration
  | .update _ => .unsure
  | _ => registration

def Progress.after (progress : Progress) (op : Op) : Except String op.Result → Progress
  | .ok result =>
    { facts := accountFact op result ++ progress.facts
      registration := registrationAfter progress.registration op result }
  | .error _ => { progress with registration := registrationFailed progress.registration op }

/-- Only the user is inserted whom the request describes, once and under a drawn id. -/
def MayInsert (service : Service) (task : AccountTask) (progress : Progress) : Op → Prop
  | .update (.insertUser id username passwordHash email nickname) =>
    progress.registration = .nothing ∧ .drew id ∈ progress.facts ∧
      ∃ password, task.Registers service { username, password, email, nickname } ∧
        .hashed password passwordHash ∈ progress.facts
  | .update _ => False
  | _ => True

/-- The rules of a login or a registration. -/
def accountRules (service : Service) (task : AccountTask) : Contract Op Op.Result Progress where
  permitted := MayInsert service task
  expected progress op answer later := later = progress.after op answer

end TinyChat.Core
