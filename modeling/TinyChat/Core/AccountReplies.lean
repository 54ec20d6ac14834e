import TinyChat.Core.RoomTransactions
import TinyChat.Core.UserAccounts

namespace TinyChat.Core

open TinyChat.Db TinyChat.Effect TinyChat.Text TinyChat.Transition TinyChat.Utils
open Program

/-- The reply to a login that lets the user of the row in. -/
def welcome (service : Service) (req : Request) (username : String) (row : UserRow) (time : Int) :
    Response :=
  createJsonResponse 200 req (apiResponse .success "Login successful" (.object
    [("token", .string (Login.generateLoginToken service.jwt service.jwtSecret
      { username, id := row.id, time })),
      ("user", userJson row.id username row.nickname row.email row.avatarUrl row.createdAt)]))

/-- The replies to a login and what they rest on. -/
inductive LoginReply (service : Service) (req : Request) (facts : List AccountFact) :
    Response → Prop where
  | notPost (other : req.method ≠ .post) : LoginReply service req facts (badRequest req "Bad Request")
  | unparsed {what : String} (refused : service.parse req.body = .error what) :
      LoginReply service req facts (badRequest req "Invalid JSON format")
  | userNotFound {request : LoginRequest}
      (asks : (AccountTask.login req).LogsIn service req request)
      (listed : .listed request.username [] ∈ facts) : LoginReply service req facts
        (createJsonResponse 404 req (apiResponse .userNotFound "User not found" .null))
  | incorrectPwd {request : LoginRequest} {row : UserRow} {rows : List UserRow}
      (asks : (AccountTask.login req).LogsIn service req request)
      (listed : .listed request.username (row :: rows) ∈ facts)
      (verified : .verified request.password row.passwordHash false ∈ facts) :
      LoginReply service req facts
        (createJsonResponse 401 req (apiResponse .incorrectPwd "Password incorrect" .null))
  | success {request : LoginRequest} {row : UserRow} {rows : List UserRow} {time : Int}
      (asks : (AccountTask.login req).LogsIn service req request)
      (listed : .listed request.username (row :: rows) ∈ facts)
      (verified : .verified request.password row.passwordHash true ∈ facts) :
      LoginReply service req facts (welcome service req request.username row time)

/-- A registration has only succeeded if its user has been inserted. -/
def RegisterReply (service : Service) (task : AccountTask) (progress : Progress)
    (response : Response) : Prop :=
  response.succeeded = true → ∃ request id passwordHash, task.Registers service request ∧
    .hashed request.password passwordHash ∈ progress.facts ∧ progress.registration =
      .inserted id request.username passwordHash request.email request.nickname

def AccountTask.Replies (service : Service) (task : AccountTask) (progress : Progress)
    (response : Response) : Prop :=
  match task with
  | login req => LoginReply service req progress.facts response
  | register _ => RegisterReply service task progress response

/-- What a task has come to when it has returned. -/
def OnReturn (good : Progress → Response → Prop) (progress : Progress) (outcome : Outcome Response) :
    Prop :=
  ∀ response, outcome = .returned response → good progress response

section Tasks

variable {service : Service} {task : AccountTask} {req : Request} {progress : Progress}
variable {good : Progress → Response → Prop}

theorem returns_raised {what : String} : OnReturn good progress (.raised what) := by
  intro response same
  cases same

theorem returns_value {response : Response} (replies : good progress response) :
    OnReturn good progress (.returned response) := by
  intro value same
  cases same
  exact replies

theorem leave_returns {outcome : Outcome Response} (returns : OnReturn good progress outcome) :
    (onLeave release outcome : WorkerTask Response).Meets (accountRules service task) (OnReturn good)
      progress := by
  have left : (release.andThen (onDestroyed outcome) : WorkerTask Response).Meets
      (accountRules service task) (OnReturn good) progress := by
    refine meets_onDestroyed.mpr (meets_perform.mpr ⟨trivial, fun _ later released => ?_,
      fun _ _ _ => fun response same => by cases same⟩)
    obtain rfl : later = progress := released
    exact returns
  cases outcome with
  | returned value => exact left
  | raised what => exact left
  | terminated => exact fun response same => by cases same
  | undefined => exact fun response same => by cases same

theorem withConn_returns {body : WorkerTask Response}
    (meets : body.Meets (accountRules service task) (OnReturn good) {}) :
    (withConn body).Meets (accountRules service task) (OnReturn good) {} := by
  refine meets_call_then trivial (fun _ later connected => ?_) fun _ _ _ => returns_raised
  obtain rfl : later = {} := connected
  exact meets_withDestructor.mpr (meets.mono fun _ _ => leave_returns)

theorem handleLogin_replies : (handleLogin service req).Meets (accountRules service (.login req))
    (OnReturn fun progress response => LoginReply service req progress.facts response) {} := by
  unfold handleLogin
  refine meets_ite (fun post => ?_) fun other => returns_value (.notPost other)
  cases parsed : service.parse req.body with
  | error what => exact returns_value (.unparsed parsed)
  | ok jv =>
    refine meets_ofExcept_then (fun request decoded => ?_) fun _ _ => returns_raised
    have asks : (AccountTask.login req).LogsIn service req request := ⟨rfl, post, jv, parsed, decoded⟩
    refine withConn_returns (meets_call_then trivial (fun (rows : List UserRow) later listed => ?_)
      fun _ _ _ => returns_raised)
    obtain rfl : later = { facts := [.listed request.username rows] } := listed
    cases rows with
    | nil => exact returns_value (.userNotFound asks (List.mem_singleton.mpr rfl))
    | cons row rows =>
      refine meets_call_then trivial (fun (verified : Bool) later checked => ?_)
        fun _ _ _ => returns_raised
      obtain rfl : later = { facts := [.verified request.password row.passwordHash verified,
        .listed request.username (row :: rows)] } := checked
      have listed : AccountFact.listed request.username (row :: rows) ∈
          [.verified request.password row.passwordHash verified,
            .listed request.username (row :: rows)] := by simp
      cases verified with
      | false => exact returns_value (.incorrectPwd asks listed (List.mem_cons_self ..))
      | true =>
        refine meets_call_then trivial (fun (time : Int) later told => ?_) fun _ _ _ => returns_raised
        obtain rfl : later = { facts := [.verified request.password row.passwordHash true,
          .listed request.username (row :: rows)] } := told
        exact returns_value (.success asks listed (List.mem_cons_self ..))

theorem refused_reply {response : Response} (failed : response.succeeded = false) :
    RegisterReply service task progress response :=
  fun succeeded => Bool.noConfusion (succeeded.symm.trans failed)

theorem registerUser_replies {request : RegisterRequest}
    (asks : (AccountTask.register req).Registers service request) :
    (registerUser req request).Meets (accountRules service (.register req))
      (OnReturn (RegisterReply service (.register req))) {} := by
  refine withConn_returns (meets_call_then trivial (fun (passwordHash : String) later hashed => ?_)
    fun _ _ _ => returns_raised)
  obtain rfl : later = { facts := [.hashed request.password passwordHash] } := hashed
  refine meets_call_then trivial (fun (id : UInt64) later drawn => ?_) fun _ _ _ => returns_raised
  obtain rfl : later = { facts := [.drew id, .hashed request.password passwordHash] } := drawn
  have hashed : AccountFact.hashed request.password passwordHash ∈
      [.drew id, .hashed request.password passwordHash] := by simp
  refine meets_call_then ⟨rfl, List.mem_cons_self .., request.password, asks, hashed⟩
    (fun (count : Nat) later executed => ?_) fun _ _ _ => returns_raised
  by_cases one : count = 1
  · subst one
    obtain rfl : later = ⟨[.drew id, .hashed request.password passwordHash],
      .inserted id request.username passwordHash request.email request.nickname⟩ := executed
    exact returns_value fun _ => ⟨request, id, passwordHash, asks, hashed, rfl⟩
  · rw [if_neg one]
    exact meets_ite (fun _ => returns_value (refused_reply rfl)) fun _ =>
      returns_value (refused_reply rfl)

theorem handleRegister_replies : (handleRegister service req).Meets
    (accountRules service (.register req)) (OnReturn (RegisterReply service (.register req))) {} := by
  unfold handleRegister
  refine meets_ite (fun _ => ?_) fun _ => returns_value (refused_reply rfl)
  refine meets_tryCatch.mpr (Meets.mono ?_ fun after outcome
    (returns : OnReturn (RegisterReply service (.register req)) after outcome) => ?_)
  · cases parsed : service.parse req.body with
    | error what => exact returns_value (refused_reply rfl)
    | ok jv =>
      refine meets_ofExcept_then (fun request decoded => ?_) fun _ _ => returns_raised
      exact registerUser_replies ⟨req, jv, rfl, parsed, decoded⟩
  · cases outcome with
    | returned value => exact returns
    | raised what => exact returns_value (refused_reply rfl)
    | terminated => exact returns
    | undefined => exact returns

/-- Every task inserts only what it may, and its reply rests on what it has learnt. -/
theorem task_replies : (task.program service).Meets (accountRules service task)
    (OnReturn (task.Replies service)) {} := by
  cases task with
  | login req => exact handleLogin_replies
  | register req => exact handleRegister_replies

end Tasks

/-- The fact is true of the directory, and queries were answered when the rows of the base
were there. -/
def AccountFact.Holds (hashing : PasswordHash) (base : List UserRow) (directory : Directory)
    (thread : Nat) : AccountFact → Prop
  | listed username rows => ∃ past, base <+: past ∧ past <+: directory.rows ∧
      rows.Perm (Directory.named past username)
  | hashed plainPassword storedHash => ∃ salt, storedHash = hashing.hash salt plainPassword
  | verified plainPassword storedHash result => hashing.verify plainPassword storedHash = result
  | drew id => (thread, .ok id) ∈ directory.generator.log

def Registration.Holds (directory : Directory) (thread : Nat) : Registration → Prop
  | nothing => ∀ entry ∈ directory.inserted, entry.1 ≠ thread
  | unsure => True
  | inserted id username passwordHash email nickname => ∃ avatarUrl createdAt,
      (thread, { id, username, passwordHash, email, nickname, avatarUrl, createdAt }) ∈
        directory.inserted

structure Progress.Holds (hashing : PasswordHash) (base : List UserRow) (thread : Nat)
    (progress : Progress) (directory : Directory) : Prop where
  facts : ∀ fact ∈ progress.facts, fact.Holds hashing base directory thread
  registration : progress.registration.Holds directory thread

def Op.Inserts (row : UserRow) (op : Op) : Prop :=
  op = .update (.insertUser row.id row.username row.passwordHash row.email row.nickname)

/-- What a call of a thread does to the directory: it only ever grows. -/
structure Directory.Grows (directory next : Directory) (thread : Nat) (op : Op) : Prop where
  initial : next.initial = directory.initial
  inserted : next.inserted = directory.inserted ∨
    ∃ row, op.Inserts row ∧ next.inserted = directory.inserted ++ [(thread, row)]
  generator : next.generator = directory.generator ∨
    Generator.machine.step directory.generator thread = some next.generator

section Calls

variable {hashing : PasswordHash} {base : List UserRow} {directory next : Directory}
variable {thread other : Nat} {op : Op} {choice : AccountChoice} {answer : Except String op.Result}
variable {progress : Progress} {fact : AccountFact} {registration : Registration}

theorem drawId_eq_some {generator later : Generator} {result : Except String UInt64}
    (drawn : drawId generator thread = some (result, later)) :
    Generator.machine.step generator thread = some later ∧
      later.log = generator.log ++ [(thread, result)] := by
  unfold drawId at drawn
  split at drawn
  case h_3 => cases drawn
  all_goals
    rename_i called
    obtain ⟨generator, taken, same⟩ := Option.map_eq_some_iff.mp drawn
    cases same
    refine ⟨taken, ?_⟩
    unfold Generator.call at taken
    split at taken
    · cases taken
    · rw [called] at taken
      cases taken
      rfl

theorem Directory.Grows.refl : directory.Grows directory thread op :=
  ⟨rfl, .inl rfl, .inl rfl⟩

theorem Directory.Grows.insert {row : UserRow} (inserts : op.Inserts row) :
    directory.Grows (directory.insert thread row) thread op :=
  ⟨rfl, .inr ⟨row, inserts, rfl⟩, .inl rfl⟩

section Growing

variable (grows : directory.Grows next thread op)

include grows

theorem Directory.Grows.rows : directory.rows <+: next.rows := by
  unfold Directory.rows
  rw [grows.initial]
  rcases grows.inserted with same | ⟨row, _, appended⟩
  · rw [same]
  · rw [appended, List.map_append, ← List.append_assoc]
    exact List.prefix_append _ _

theorem Directory.Grows.log : directory.generator.log <+: next.generator.log := by
  rcases grows.generator with same | taken
  · exact same ▸ List.prefix_refl _
  · generalize next.generator = later at taken
    cases Generator.calls_of_step taken with
    | returned called => exact List.prefix_append _ _
    | threw called => exact List.prefix_append _ _
    | waiting called => exact List.prefix_refl _

theorem Directory.Grows.subset {entry : Nat × UserRow} (member : entry ∈ directory.inserted) :
    entry ∈ next.inserted := by
  rcases grows.inserted with same | ⟨row, _, appended⟩
  · exact same ▸ member
  · exact appended ▸ List.mem_append_left _ member

theorem AccountFact.Holds.grow (holds : fact.Holds hashing base directory other) :
    fact.Holds hashing base next other := by
  cases fact with
  | listed username rows =>
    obtain ⟨past, since, before, listed⟩ := holds
    exact ⟨past, since, before.trans grows.rows, listed⟩
  | drew id => exact grows.log.subset holds
  | hashed plainPassword storedHash => exact holds
  | verified plainPassword storedHash result => exact holds

/-- Other threads have no say in what a thread has registered. -/
theorem Registration.Holds.grow (holds : registration.Holds directory other)
    (apart : next.inserted = directory.inserted ∨ other ≠ thread) : registration.Holds next other := by
  cases registration with
  | unsure => trivial
  | inserted id username passwordHash email nickname =>
    obtain ⟨avatarUrl, createdAt, there⟩ := holds
    exact ⟨avatarUrl, createdAt, grows.subset there⟩
  | nothing =>
    intro entry member
    rcases grows.inserted with same | ⟨row, _, appended⟩
    · exact holds entry (same ▸ member)
    · rcases apart with same | different
      · exact holds entry (same ▸ member)
      · rcases List.mem_append.mp (appended ▸ member) with older | new
        · exact holds entry older
        · exact List.mem_singleton.mp new ▸ Ne.symm different

end Growing

/-- A thread that learns something new and has not registered anybody since. -/
theorem Progress.Holds.learn (holds : progress.Holds hashing base thread directory)
    (grows : directory.Grows next thread op) (same : next.inserted = directory.inserted)
    (learns : fact.Holds hashing base next thread) :
    Progress.Holds hashing base thread { progress with facts := fact :: progress.facts } next := by
  refine ⟨fun known member => ?_, holds.registration.grow grows (.inl same)⟩
  rcases List.mem_cons.mp member with rfl | older
  · exact learns
  · exact (holds.facts known older).grow grows

theorem Progress.Holds.register (holds : progress.Holds hashing base thread directory)
    (grows : directory.Grows next thread op) (registers : registration.Holds next thread) :
    Progress.Holds hashing base thread { progress with registration } next :=
  ⟨fun known member => (holds.facts known member).grow grows, registers⟩

/-- A thread learns nothing from an exception; a statement that threw may have been executed. -/
theorem Progress.Holds.fail {what : String} (holds : progress.Holds hashing base thread directory) :
    (progress.after op (.error what)).Holds hashing base thread directory := by
  refine ⟨holds.facts, ?_⟩
  cases op with
  | update write => trivial
  | _ => exact holds.registration

theorem select_eq_some {username : String} {rows : List UserRow} {result : Except String (List UserRow)}
    (done : directory.select username rows = some (result, next)) :
    result = .ok rows ∧ next = directory ∧ rows.Perm (Directory.named directory.rows username) := by
  unfold Directory.select at done
  split at done
  · rename_i listed
    cases done
    exact ⟨rfl, rfl, List.isPerm_iff.mp listed⟩
  · cases done

theorem misreport_eq_some {row : String → String → UserRow} {inserted : Option (String × String)}
    {count : Nat} {result : Except String Nat}
    (inserts : ∀ avatarUrl createdAt, op.Inserts (row avatarUrl createdAt))
    (done : directory.misreport thread row inserted count = some (result, next)) :
    result = .ok count ∧ count ≠ 1 ∧ directory.Grows next thread op := by
  unfold Directory.misreport at done
  split at done
  · cases done
  · rename_i wrong
    split at done <;> cases done
    · exact ⟨rfl, wrong, .insert (inserts _ _)⟩
    · exact ⟨rfl, wrong, .refl⟩

theorem directory_nextId_eq_some {result : Except String UInt64}
    (done : directory.nextId thread = some (result, next)) : next.inserted = directory.inserted ∧
      directory.Grows next thread op ∧ (thread, result) ∈ next.generator.log := by
  obtain ⟨⟨result, generator⟩, drawn, same⟩ := Option.map_eq_some_iff.mp done
  cases same
  obtain ⟨taken, logged⟩ := drawId_eq_some drawn
  refine ⟨rfl, ⟨rfl, .inl rfl, .inr taken⟩, ?_⟩
  change _ ∈ generator.log
  rw [logged]
  exact List.mem_append_right _ (List.mem_singleton.mpr rfl)

/-- Every call lets the directory grow, and the thread learns nothing but the truth. -/
theorem account_served (since : base <+: directory.rows)
    (holds : progress.Holds hashing base thread directory)
    (served : directory.serve hashing thread op choice = some (answer, next)) :
    directory.Grows next thread op ∧ (progress.after op answer).Holds hashing base thread next := by
  have fails {what : String} (same : some (.error what, directory) = some (answer, next)) :
      directory.Grows next thread op ∧ (progress.after op answer).Holds hashing base thread next := by
    cases same
    exact ⟨.refl, holds.fail⟩
  have still : directory.Grows directory thread op := .refl
  cases op with
  | connect =>
    cases choice with
    | returns => cases served; exact ⟨.refl, holds⟩
    | throws => exact fails served
    | _ => cases served
  | release =>
    cases choice with
    | returns => cases served; exact ⟨.refl, holds⟩
    | throws => exact fails served
    | _ => cases served
  | now =>
    cases choice with
    | reads time => cases served; exact ⟨.refl, holds⟩
    | _ => cases served
  | hashPassword plainPassword =>
    cases choice with
    | salted salt => cases served; exact ⟨.refl, holds.learn still rfl ⟨salt, rfl⟩⟩
    | throws => exact fails served
    | _ => cases served
  | verifyPassword plainPassword storedHash =>
    cases choice with
    | returns =>
      cases served
      exact ⟨.refl, @Progress.Holds.learn _ _ _ _ _ _ _ (.verified _ _ _) holds still rfl rfl⟩
    | _ => cases served
  | nextId =>
    cases choice with
    | returns =>
      obtain ⟨same, grows, drawn⟩ := directory_nextId_eq_some served
      cases answer with
      | ok id => exact ⟨grows, @Progress.Holds.learn _ _ _ _ _ _ _ (.drew id) holds grows same drawn⟩
      | error what =>
        exact ⟨grows, fun known member => (holds.facts known member).grow grows,
          holds.registration.grow grows (.inl same)⟩
    | _ => cases served
  | query query =>
    cases choice with
    | throws => cases query <;> exact fails served
    | lists rows =>
      cases query with
      | userNamed username =>
        obtain ⟨rfl, rfl, listed⟩ := select_eq_some served
        exact ⟨.refl, @Progress.Holds.learn _ _ _ _ _ _ _ (.listed username rows) holds still rfl
          ⟨_, since, List.prefix_refl _, listed⟩⟩
      | _ => cases served
    | _ => cases query <;> cases served
  | update write =>
    cases choice with
    | throws => cases write <;> exact fails served
    | unanswered avatarUrl createdAt =>
      cases write with
      | insertUser id username passwordHash email nickname =>
        cases served
        exact ⟨.insert rfl, holds.register (.insert rfl) trivial⟩
      | _ => cases served
    | inserts avatarUrl createdAt =>
      cases write with
      | insertUser id username passwordHash email nickname =>
        cases served
        refine ⟨.insert rfl, holds.register (.insert rfl) ⟨avatarUrl, createdAt, ?_⟩⟩
        exact List.mem_append_right _ (List.mem_singleton.mpr rfl)
      | _ => cases served
    | misreports inserted count =>
      cases write with
      | insertUser id username passwordHash email nickname =>
        have inserts (avatarUrl createdAt : String) : Op.Inserts
            { id, username, passwordHash, email, nickname, avatarUrl, createdAt }
            (.update (.insertUser id username passwordHash email nickname)) := rfl
        obtain ⟨rfl, wrong, grows⟩ := misreport_eq_some inserts served
        have unsure : progress.after (.update (.insertUser id username passwordHash email nickname))
            (.ok count) = { progress with registration := .unsure } := by
          simp [Progress.after, accountFact, registrationAfter, wrong]
        exact ⟨grows, unsure ▸ holds.register grows trivial⟩
      | _ => cases served
    | _ => cases write <;> cases served
  | _ => cases choice <;> cases served

/-- The directory keeps what every thread has learnt, whatever the calls. -/
theorem accounts_keep {contract : Nat → Contract Op Op.Result Progress}
    (expects : ∀ thread, (contract thread).expected =
      fun progress op answer later => later = progress.after op answer) :
    KeepsOwn contract (fun thread progress directory => progress.Holds hashing base thread directory)
      (fun directory => base <+: directory.rows) (Directory.serve hashing) where
  own {directory thread progress op choice answer next} since holds _ served := by
    refine ⟨progress.after op answer, ?_, (account_served since holds served).2⟩
    rw [expects thread]
  others {directory thread progress op choice answer next other known} since holds _ served different
      there := by
    obtain ⟨grows, _⟩ := account_served since holds served
    exact ⟨fun fact member => (there.facts fact member).grow grows,
      there.registration.grow grows (.inr different)⟩
  valid {directory thread progress op choice answer next} since holds _ served :=
    since.trans (account_served since holds served).1.rows

end Calls

end TinyChat.Core
