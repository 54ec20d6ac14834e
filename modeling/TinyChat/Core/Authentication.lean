import TinyChat.Core.AccountReplies
import TinyChat.Core.RoomKnowledge
import TinyChat.Utils.SnowFlakeOrder

/-! Who is let in: a login succeeds for the users who have registered with its password, and
its token names them, in all interleavings of logins and registrations. -/
namespace TinyChat.Core

open TinyChat.Db TinyChat.Effect TinyChat.Text TinyChat.Transition TinyChat.Utils

section Runs

variable {service : Service} {hashing : PasswordHash} {initial : List UserRow} {generator : Generator}
variable {middle final : Threads Op Op.Result Directory Response} {thread : Nat} {response : Response}
variable {moves earlier later : List (Move AccountTask AccountChoice)} {tasks : List AccountTask}

/-- The rules of a thread are those of its task. -/
def rulesOf (service : Service) (tasks : List AccountTask) (thread : Nat) :
    Contract Op Op.Result Progress where
  permitted progress op := ∃ task, tasks[thread]? = some task ∧ MayInsert service task progress op
  expected progress op answer later := later = progress.after op answer

/-- No thread has been started yet. -/
def accountsStart (initial : List UserRow) (generator : Generator) :
    Threads Op Op.Result Directory Response :=
  { shared := { initial, generator }, programs := [] }

/-- What a thread has replied, if it has returned. -/
def accountReply (threads : Threads Op Op.Result Directory Response) (thread : Nat) :
    Option Response :=
  match threads.programs[thread]? with
  | some (.done (.returned response)) => some response
  | _ => none

theorem accountReply_eq_some {threads : Threads Op Op.Result Directory Response}
    (replied : accountReply threads thread = some response) :
    threads.programs[thread]? = some (.done (.returned response)) := by
  unfold accountReply at replied
  split at replied
  · rename_i found
    cases replied
    exact found
  · cases replied

/-- Where the users come from that are not there from the start. -/
structure Directory.Accounted (service : Service) (hashing : PasswordHash) (tasks : List AccountTask)
    (directory : Directory) : Prop where
  once : (directory.inserted.map Prod.fst).Nodup
  registered : ∀ thread row, (thread, row) ∈ directory.inserted → ∃ task request,
    tasks[thread]? = some task ∧ task.Registers service request ∧ request.Describes hashing row ∧
      (thread, .ok row.id) ∈ directory.generator.log

theorem Directory.Accounted.step {directory next : Directory} {progress : Progress} {op : Op}
    (accounted : directory.Accounted service hashing tasks)
    (holds : progress.Holds hashing initial thread directory)
    (permitted : (rulesOf service tasks thread).permitted progress op)
    (grows : directory.Grows next thread op) : next.Accounted service hashing tasks := by
  have older (author : Nat) (row : UserRow) (there : (author, row) ∈ directory.inserted) :
      ∃ task request, tasks[author]? = some task ∧ task.Registers service request ∧
        request.Describes hashing row ∧ (author, .ok row.id) ∈ next.generator.log := by
    obtain ⟨task, request, found, registers, describes, drawn⟩ := accounted.registered author row there
    exact ⟨task, request, found, registers, describes, grows.log.subset drawn⟩
  rcases grows.inserted with same | ⟨row, rfl, appended⟩
  · exact ⟨same ▸ accounted.once, fun author row there => older author row (same ▸ there)⟩
  obtain ⟨task, found, untouched, drew, password, registers, hashed⟩ := permitted
  constructor
  · rw [appended, List.map_append]
    refine List.nodup_append.mpr ⟨accounted.once, List.nodup_singleton _, ?_⟩
    intro author before _ new
    obtain ⟨entry, there, rfl⟩ := List.mem_map.mp before
    have nothing := untouched ▸ holds.registration
    exact List.mem_singleton.mp new ▸ nothing entry there
  · intro author added there
    rcases List.mem_append.mp (appended ▸ there) with before | new
    · exact older author added before
    · cases List.mem_singleton.mp new
      exact ⟨task, _, found, registers, ⟨rfl, rfl, rfl, holds.facts _ hashed⟩,
        grows.log.subset (holds.facts _ drew)⟩

/-- What the threads keep of the directory. -/
structure Directory.Kept (service : Service) (hashing : PasswordHash) (initial : List UserRow)
    (generator : Generator) (tasks : List AccountTask) (directory : Directory) : Prop where
  initial : directory.initial = initial
  accounted : directory.Accounted service hashing tasks
  drawn : ∃ threads, Generator.machine.run generator threads = some directory.generator

theorem directory_keeps (tasks : List AccountTask) : KeepsOwn (rulesOf service tasks)
    (fun thread progress directory => progress.Holds hashing initial thread directory)
    (fun directory => initial <+: directory.rows ∧
      directory.Kept service hashing initial generator tasks) (Directory.serve hashing) := by
  refine (accounts_keep fun _ => rfl).and ?_
  intro directory thread progress op choice answer next since kept holds permitted served
  have grows := (account_served since holds served).1
  obtain ⟨threads, drawn⟩ := kept.drawn
  refine ⟨grows.initial.trans kept.initial, kept.accounted.step holds permitted grows, ?_⟩
  rcases grows.generator with same | taken
  · exact ⟨threads, same ▸ drawn⟩
  · exact ⟨threads ++ [thread], Generator.machine.run_snoc_iff.mpr ⟨_, drawn, taken⟩⟩

theorem rules_met {task : AccountTask} (found : tasks[thread]? = some task) :
    (task.program service).Meets (rulesOf service tasks thread)
      (OnReturn fun progress response => ∀ task, tasks[thread]? = some task →
        task.Replies service progress response) {} := by
  have meets : (task.program service).Meets (rulesOf service tasks thread)
      (OnReturn (task.Replies service)) {} :=
    task_replies.relax (fun _ _ may => ⟨task, found, may⟩) fun _ _ _ _ expected => expected
  refine meets.mono fun progress outcome returns response same task again => ?_
  cases found.symm.trans again
  exact returns response same

/-- Every thread of a run has learnt nothing but the truth. -/
theorem accounts_attributed
    (ran : (accountMachine service hashing).run (accountsStart initial generator) moves = some final) :
    Attributed (rulesOf service (startedTasks moves))
      (fun thread progress directory => progress.Holds hashing initial thread directory)
      (fun directory => initial <+: directory.rows ∧
        directory.Kept service hashing initial generator (startedTasks moves)) {}
      (fun thread => OnReturn fun progress response => ∀ task,
        (startedTasks moves)[thread]? = some task → task.Replies service progress response) final := by
  refine Attributed.run (directory_keeps _) ran ?_ ?_ fun thread task found => rules_met found
  · exact ⟨by simp [Directory.rows], rfl, ⟨List.nodup_nil, by simp⟩, [], rfl⟩
  · intro thread
    exact ⟨by simp, by simp [Registration.Holds]⟩

theorem replies_held
    (ran : (accountMachine service hashing).run (accountsStart initial generator) moves = some final)
    {task : AccountTask} (found : (startedTasks moves)[thread]? = some task)
    (replied : accountReply final thread = some response) :
    ∃ progress, Progress.Holds hashing initial thread progress final.shared ∧
      task.Replies service progress response := by
  obtain ⟨progress, holds, returns⟩ := (accounts_attributed ran).ended (accountReply_eq_some replied)
  exact ⟨progress, holds, returns response rfl task found⟩

/-! One user registers and then logs in, at a fixed time and with a fixed salt. -/

private def aliceLogin : Login := { username := "alice", id := 1, time := 1700000000 }

private def signedInput : String := "eyJ0eXAiOiJKV1MiLCJhbGciOiJIUzI1NiJ9." ++
  "eyJpc3MiOiJ0aW55Y2hhdF9zZXJ2ZXIiLCJzdWIiOiIxIiwiZXhwIjoxNzAyNTkyMDAwLCJ1c2VybmFtZSI6ImFsaWNlIn0"

private def loginSignature : String := "Qm-qCFAPHScmaTl7nTPLIo4veqnnK2gi6nlINdoVMGo"

private def loginToken : String := signedInput ++ "." ++ loginSignature

private def expiryOf (payload : Claims) : Int :=
  match payload.lookup "exp" with
  | some (.integer expires) => expires
  | _ => 0

/-- What jwt-cpp does with the token of this login; it is not asked for another. -/
private def loginJwt : Jwt where
  decode token :=
    if token = loginToken then .ok
      { signingInput := signedInput, signature := loginSignature
        header := [("alg", .string "HS256"), ("typ", .string "JWS")]
        payload := aliceLogin.builder.payload }
    else .error "invalid token supplied"
  encode _ payload := if expiryOf payload = 1702592000 then signedInput else ""
  hs256 _ input :=
    if input = signedInput then loginSignature else "-eZuF5tnR65UEI-C-K3os8Jddv0wr95sOVgixTAZYWk"

private def aliceService : Service where
  jwt := loginJwt
  parse text :=
    if text = "alice" then .ok (.object [("username", .string "alice"), ("password", .string "secret"),
      ("email", .string "alice@tinychat"), ("nickname", .string "Alice")])
    else .error "syntax error"
  jwtSecret := "secret"
  docRoot := "/srv/www"

private def aliceSalt : String := "c2FsdHNhbHRzYWx0c2FsdA"

/-- `crypto_pwhash_str` of the password under this salt. -/
private def aliceHash : String := "$argon2id$v=19$m=65536,t=2,p=1$" ++ aliceSalt ++
  "$4ri7mhiSrnj9oEyFS4ZxbjEro69F+Nh/mAteAg51Amo"

/-- The password and the salt of this run; any other pair is kept as it is. -/
private def sampleHash : PasswordHash where
  hash salt plainPassword :=
    if salt = aliceSalt ∧ plainPassword = "secret" then aliceHash else plainPassword
  verify plainPassword storedHash :=
    storedHash = plainPassword ∨ storedHash = aliceHash ∧ plainPassword = "secret"
  verifies salt plain := by
    split
    · rename_i same
      exact decide_eq_true (.inr ⟨rfl, same.2⟩)
    · exact decide_eq_true (.inl rfl)

private def aliceRequest (target : String) : Request :=
  { version := 11, keepAlive := true, method := .post, target, authorization := none
    body := "alice" }

private def aliceRow : UserRow :=
  { id := 1, username := "alice", passwordHash := aliceHash, email := "alice@tinychat"
    nickname := "Alice", avatarUrl := "", createdAt := "2023-11-14 22:13:20" }

private def aliceRegisters : List (Move AccountTask AccountChoice) :=
  .start (.register (aliceRequest "/api/register")) ::
    [.returns, .salted aliceSalt, .returns, .inserts "" "2023-11-14 22:13:20", .returns].map (.step 0)

private def aliceLogsIn : List (Move AccountTask AccountChoice) :=
  .start (.login (aliceRequest "/api/login")) ::
    [.returns, .lists [aliceRow], .returns, .reads 1700000000, .returns].map (.step 1)

private def aliceMachine : Machine (Threads Op Op.Result Directory Response)
    (Move AccountTask AccountChoice) := accountMachine aliceService sampleHash

private def bobRow : UserRow := { aliceRow with id := 7, username := "bob" }

private def aliceGenerator : Generator :=
  { flake := { serviceId := 0, lastTimestamp := 1000, customEpoch := 1000 }, clock := [1000] }

/-- The token in a reply. -/
private def tokenOf (response : Response) : Option Json :=
  match response.body with
  | .json (.object members) =>
    match members.lookup "data" with
    | some (.object data) => data.lookup "token"
    | _ => none
  | _ => none

private def isLoginToken : Json → Bool
  | .string token => token = loginToken
  | _ => false

private theorem alice_runs : ∃ middle final told response,
    aliceMachine.run (accountsStart [bobRow] aliceGenerator) aliceRegisters = some middle ∧
      aliceMachine.run middle aliceLogsIn = some final ∧
      (accountReply middle 0 = some told ∧ told.succeeded = true) ∧
      (accountReply final 1 = some response ∧
        (response.succeeded = true ∧ (tokenOf response).any isLoginToken = true)) ∧
      final.shared.rows = [bobRow, aliceRow] ∧ final.shared.generator.ids = [1] := by
  have ran : ((aliceMachine.run (accountsStart [bobRow] aliceGenerator) aliceRegisters).bind
      fun middle => (aliceMachine.run middle aliceLogsIn).map fun final =>
        (((accountReply middle 0).map Response.succeeded, (accountReply final 1).map fun response =>
            (response.succeeded, (tokenOf response).any isLoginToken)),
          final.shared.rows, final.shared.generator.ids)) =
      some ((some true, some (true, true)), [bobRow, aliceRow], [1]) := by decide +kernel
  obtain ⟨middle, first, rest⟩ := Option.bind_eq_some_iff.mp ran
  obtain ⟨final, second, same⟩ := Option.map_eq_some_iff.mp rest
  have replies := congrArg Prod.fst same
  obtain ⟨told, registered⟩ := Option.map_eq_some_iff.mp (congrArg Prod.fst replies)
  obtain ⟨response, letIn, carried⟩ := Option.map_eq_some_iff.mp (congrArg Prod.snd replies)
  exact ⟨middle, final, told, response, first, second, registered,
    ⟨letIn, congrArg Prod.fst carried, congrArg Prod.snd carried⟩, congrArg (·.2.1) same,
    congrArg (·.2.2) same⟩

/-- Whoever has been registered was registered by one thread, as its request describes and under
an id that the thread has drawn, and a registration that reports success has registered its user. -/
theorem registrations_attributed
    (ran : (accountMachine service hashing).run (accountsStart initial generator) moves = some final) :
    final.shared.rows = initial ++ final.shared.inserted.map Prod.snd ∧
      final.shared.Accounted service hashing (startedTasks moves) ∧
      ∀ thread req response, (startedTasks moves)[thread]? = some (.register req) →
        accountReply final thread = some response → response.succeeded = true →
          ∃ row, (thread, row) ∈ final.shared.inserted := by
  obtain ⟨_, kept⟩ := (accounts_attributed ran).valid
  refine ⟨by rw [Directory.rows, kept.initial], kept.accounted, ?_⟩
  intro thread req response found replied succeeded
  obtain ⟨progress, holds, replies⟩ := replies_held ran found replied
  obtain ⟨request, id, passwordHash, _, _, inserted⟩ := replies succeeded
  obtain ⟨avatarUrl, createdAt, there⟩ := inserted ▸ holds.registration
  exact ⟨_, there⟩

theorem registrations_attributed_alice : ∃ middle,
    aliceMachine.run (accountsStart [bobRow] aliceGenerator) aliceRegisters = some middle ∧
      middle.shared.Accounted aliceService sampleHash (startedTasks aliceRegisters) ∧
      ∃ row, (0, row) ∈ middle.shared.inserted := by
  obtain ⟨middle, _, told, _, reached, _, ⟨replied, succeeded⟩, _⟩ := alice_runs
  obtain ⟨_, accounted, inserts⟩ := registrations_attributed reached
  exact ⟨middle, reached, accounted, inserts 0 (aliceRequest "/api/register") told rfl replied succeeded⟩

/-- Under a clock that never steps back no two users have one id, if this was so at first and
none of the first users has an id that is drawn. -/
theorem user_ids_distinct {serviceId customEpoch : UInt64} {clock : Clock}
    (ran : (accountMachine service hashing).run (accountsStart initial generator) moves = some final)
    (accepted : Generator.started serviceId customEpoch clock = some generator)
    (steady : NonDecreasing clock) (inRange : InRange customEpoch clock)
    (once : (initial.map UserRow.id).Nodup)
    (unused : ∀ row ∈ initial, row.id ∉ final.shared.generator.ids) :
    (final.shared.rows.map UserRow.id).Nodup := by
  obtain ⟨_, kept⟩ := (accounts_attributed ran).valid
  obtain ⟨threads, drawn⟩ := kept.drawn
  have increasing := (Generator.Ordered.run accepted steady inRange drawn).increasing
  have fresh : final.shared.generator.ids.Nodup := increasing.imp fun less => UInt64.ne_of_lt less
  have draws (thread : Nat) (row : UserRow) (there : (thread, row) ∈ final.shared.inserted) :
      (thread, .ok row.id) ∈ final.shared.generator.log := by
    obtain ⟨_, _, _, _, _, drew⟩ := kept.accounted.registered thread row there
    exact drew
  rw [Directory.rows, kept.initial, List.map_append, List.map_map]
  refine List.nodup_append.mpr ⟨once, ?_, ?_⟩
  · refine List.pairwise_map.mpr ((List.pairwise_map.mp kept.accounted.once).imp_of_mem ?_)
    intro entry other there also different (same : entry.2.id = other.2.id)
    exact different (drawn_once fresh (draws _ _ there) (same ▸ draws _ _ also))
  · intro id first _ second
    obtain ⟨row, there, rfl⟩ := List.mem_map.mp first
    obtain ⟨⟨thread, added⟩, also, rfl⟩ := List.mem_map.mp second
    intro same
    refine unused row there (same ▸ ?_)
    exact List.mem_filterMap.mpr ⟨_, draws thread added also, rfl⟩

theorem user_ids_distinct_alice : ∃ final,
    aliceMachine.run (accountsStart [bobRow] aliceGenerator) (aliceRegisters ++ aliceLogsIn) =
      some final ∧ final.shared.rows = [bobRow, aliceRow] ∧
      (final.shared.rows.map UserRow.id).Nodup := by
  obtain ⟨_, final, _, _, first, second, _, _, rows, ids⟩ := alice_runs
  have reached := aliceMachine.run_trans first second
  refine ⟨final, reached, rows, @user_ids_distinct _ _ _ _ _ _ 0 1000 [1000, 1000] reached (by decide)
    (by unfold NonDecreasing; decide) (by simp [InRange]) (by decide) ?_⟩
  rw [ids]
  decide

theorem extractUserClaims_generated {jwt : Jwt} {secret : String} {logins : List Login} {login : Login}
    (documented : jwt.Documented secret logins) (issued : login ∈ logins) :
    jwt.extractUserClaims (login.generateLoginToken jwt secret) =
      .ok { id := login.id, username := login.username } := by
  obtain ⟨decoded, reread, _, payload⟩ := documented.decodes login issued
  refine Jwt.extractUserClaims_eq_ok_iff.mpr ⟨decoded, toDecimal login.id, reread, ?_, ?_, ?_⟩
  · exact Json.stringMember_eq_ok_iff.mpr (payload ▸ login.builder_subject)
  · exact stoull_toDecimal _
  · exact Json.stringMember_eq_ok_iff.mpr (payload ▸ login.builder_username)

theorem logsIn_unique {task : AccountTask} {req other : Request} {first second : LoginRequest}
    (asks : task.LogsIn service req first) (also : task.LogsIn service other second) :
    first = second := by
  obtain ⟨same, _, jv, parsed, decoded⟩ := asks
  obtain ⟨also, _, again, parsed', decoded'⟩ := also
  cases same.symm.trans also
  cases parsed.symm.trans parsed'
  exact Except.ok.inj (decoded.symm.trans decoded')

/-- Only a user of the table is let in, with a password that the hash of its row verifies, and
its token is read back as this user by whoever extracts its claims. -/
theorem login_sound {req : Request}
    (ran : (accountMachine service hashing).run (accountsStart initial generator) moves = some final)
    (found : (startedTasks moves)[thread]? = some (.login req))
    (replied : accountReply final thread = some response) (succeeded : response.succeeded = true) :
    ∃ request row time, (AccountTask.login req).LogsIn service req request ∧
      row ∈ final.shared.rows ∧ row.username = request.username ∧
      hashing.verify request.password row.passwordHash = true ∧
      response = welcome service req request.username row time ∧
      ∀ logins : List Login, ⟨request.username, row.id, time⟩ ∈ logins →
        service.jwt.Documented service.jwtSecret logins → service.jwt.extractUserClaims
          (Login.generateLoginToken service.jwt service.jwtSecret ⟨request.username, row.id, time⟩) =
            .ok { id := row.id, username := request.username } := by
  obtain ⟨progress, holds, replies⟩ := replies_held ran found replied
  have replies : LoginReply service req progress.facts response := replies
  cases replies with
  | notPost other => cases succeeded
  | unparsed refused => cases succeeded
  | userNotFound asks listed => cases succeeded
  | incorrectPwd asks listed verified => cases succeeded
  | @success request row rows time asks listed verified =>
    obtain ⟨past, _, before, same⟩ := holds.facts _ listed
    obtain ⟨there, named⟩ := List.mem_filter.mp (same.subset (List.mem_cons_self ..))
    exact ⟨request, row, time, asks, before.subset there, of_decide_eq_true named,
      holds.facts _ verified, rfl, fun logins issued documented =>
        extractUserClaims_generated documented issued⟩

private theorem signingInput_loginJwt {login : Login} : login.builder.signingInput loginJwt =
    if login.time + 24 * 30 * 3600 = 1702592000 then signedInput else "" := rfl

private theorem generate_loginToken : aliceLogin.generateLoginToken loginJwt "secret" = loginToken := by
  have input : aliceLogin.builder.signingInput loginJwt = signedInput :=
    signingInput_loginJwt.trans (if_pos rfl)
  rw [Login.generateLoginToken, JwtBuilder.sign, input, loginToken]
  simp [loginJwt]

private theorem decode_eq_ok {token : String} {decoded : DecodedJwt}
    (parsed : loginJwt.decode token = .ok decoded) :
    decoded.signingInput = signedInput ∧ decoded.payload = aliceLogin.builder.payload := by
  simp only [loginJwt] at parsed
  split at parsed
  · cases parsed
    exact ⟨rfl, rfl⟩
  · cases parsed

private theorem loginJwt_documented : loginJwt.Documented "secret" [aliceLogin] where
  decodes login issued := by
    obtain rfl := List.mem_singleton.mp issued
    rw [generate_loginToken, signingInput_loginJwt, if_pos (by decide)]
    obtain ⟨decoded, read⟩ : ∃ decoded, loginJwt.decode loginToken = .ok decoded := by
      simp [loginJwt]
    exact ⟨decoded, read, decode_eq_ok read⟩
  payload token other decoded copy parsed reread _ :=
    (decode_eq_ok parsed).2.trans (decode_eq_ok reread).2.symm

/-- The token of a login at another time is another one. -/
private theorem loginToken_time {time : Int}
    (same : Login.generateLoginToken loginJwt "secret" ⟨"alice", 1, time⟩ = loginToken) :
    time = 1700000000 := by
  by_contra other
  have later : time + 24 * 30 * 3600 ≠ 1702592000 := by omega
  have input : (Login.builder ⟨"alice", 1, time⟩).signingInput loginJwt = "" :=
    signingInput_loginJwt.trans (if_neg later)
  rw [Login.generateLoginToken, JwtBuilder.sign, input] at same
  exact absurd same (by decide +kernel)

theorem login_sound_alice : ∃ final response request row time,
    aliceMachine.run (accountsStart [bobRow] aliceGenerator) (aliceRegisters ++ aliceLogsIn) =
        some final ∧ accountReply final 1 = some response ∧
      (AccountTask.login (aliceRequest "/api/login")).LogsIn aliceService (aliceRequest "/api/login")
        request ∧ row ∈ final.shared.rows ∧ row.username = request.username ∧
      sampleHash.verify request.password row.passwordHash = true ∧
      response = welcome aliceService (aliceRequest "/api/login") request.username row time ∧
      loginJwt.Documented "secret" [⟨request.username, row.id, time⟩] ∧
      loginJwt.extractUserClaims
          (Login.generateLoginToken loginJwt "secret" ⟨request.username, row.id, time⟩) =
        .ok { id := row.id, username := request.username } := by
  obtain ⟨_, final, _, response, first, second, _, ⟨replied, succeeded, carried⟩, rows, _⟩ := alice_runs
  have reached := aliceMachine.run_trans first second
  obtain ⟨request, row, time, asks, there, named, verified, rfl, reread⟩ :=
    login_sound reached rfl replied succeeded
  have named' : request = ⟨"alice", "secret"⟩ := logsIn_unique asks ⟨rfl, rfl, _, rfl, rfl⟩
  subst named'
  have row_eq : row = aliceRow := by
    rcases List.mem_cons.mp (rows ▸ there) with rfl | found
    · exact absurd named (by decide)
    · exact List.mem_singleton.mp found
  subst row_eq
  obtain rfl : time = 1700000000 := loginToken_time (of_decide_eq_true carried)
  exact ⟨final, _, _, _, _, reached, replied, asks, there, named, verified, rfl, loginJwt_documented,
    reread _ (List.mem_singleton.mpr rfl) loginJwt_documented⟩

/-- Any calls, of which a thread remembers the answers. -/
def anyCalls : Contract Op Op.Result Progress where
  permitted _ _ := True
  expected progress op answer later := later = progress.after op answer

/-- After a run, the threads that are started later see at least its rows. -/
theorem accounts_since
    (before : (accountMachine service hashing).run (accountsStart initial generator) earlier =
      some middle)
    (after : (accountMachine service hashing).run middle later = some final) :
    Attributed (fun _ => anyCalls)
      (fun thread progress directory => progress.Holds hashing middle.shared.rows thread directory)
      (fun directory => middle.shared.rows <+: directory.rows) {}
      (fun thread progress outcome => ∀ index task, thread = middle.programs.length + index →
        (startedTasks later)[index]? = some task → OnReturn (task.Replies service) progress outcome)
      final := by
  have known := accounts_attributed before
  refine Attributed.run_from (accounts_keep fun _ => rfl) after ⟨List.prefix_refl _, ?_, ?_⟩ ?_
  · -- The threads of the first run have learnt what they know from fewer rows.
    intro thread program found
    refine ⟨{ registration := .unsure }, ⟨by simp, trivial⟩, ?_⟩
    have old := (List.getElem?_eq_some_iff.mp found).1
    have free : program.Meets anyCalls (fun _ _ => True) { registration := .unsure } :=
      Program.meets_of_free (fun _ _ => trivial) (fun _ _ => trivial) program _
    refine free.mono fun progress outcome _ index task same => ?_
    omega
  · intro thread beyond
    exact ⟨by simp, (known.unstarted thread beyond).registration⟩
  · intro index task found
    have meets : (task.program service).Meets anyCalls (OnReturn (task.Replies service)) {} :=
      task_replies.relax (fun _ _ _ => trivial) fun _ _ _ _ expected => expected
    refine meets.mono fun progress outcome returns other again same found' => ?_
    obtain rfl : index = other := by omega
    cases found.symm.trans found'
    exact returns

theorem registers_unique {task : AccountTask} {first second : RegisterRequest}
    (registers : task.Registers service first) (also : task.Registers service second) :
    first = second := by
  obtain ⟨req, jv, same, parsed, decoded⟩ := registers
  obtain ⟨other, again, also, parsed', decoded'⟩ := also
  cases same.symm.trans also
  cases parsed.symm.trans parsed'
  exact Except.ok.inj (decoded.symm.trans decoded')

/-- A row of the base is what a query of its name lists, if it stays the only one of its name. -/
theorem listed_single {directory : Directory} {base rows : List UserRow} {row : UserRow}
    (listed : AccountFact.Holds hashing base directory thread (.listed row.username rows))
    (there : row ∈ base) (single : (Directory.named directory.rows row.username).length ≤ 1) :
    rows = [row] := by
  obtain ⟨past, since, before, same⟩ := listed
  have member : row ∈ rows :=
    same.symm.subset (List.mem_filter.mpr ⟨since.subset there, decide_eq_true rfl⟩)
  have short : rows.length ≤ 1 :=
    same.length_eq ▸ ((before.sublist.filter _).length_le).trans single
  cases rows with
  | nil => cases member
  | cons first rest =>
    cases rest with
    | nil => rw [List.mem_singleton.mp member]
    | cons second rest => simp at short

/-- Whoever has been told that its registration succeeded is let in with its password, by every
login that starts then and replies, as long as nobody else has its name. -/
theorem login_after_registration {registrar index : Nat} {reg req : Request}
    {request : RegisterRequest} {told : Response}
    (before : (accountMachine service hashing).run (accountsStart initial generator) earlier =
      some middle)
    (after : (accountMachine service hashing).run middle later = some final)
    (registering : (startedTasks earlier)[registrar]? = some (.register reg))
    (registers : (AccountTask.register reg).Registers service request)
    (registered : accountReply middle registrar = some told) (succeeded : told.succeeded = true)
    (started : (startedTasks later)[index]? = some (.login req))
    (asks : (AccountTask.login req).LogsIn service req
      { username := request.username, password := request.password })
    (replied : accountReply final (middle.programs.length + index) = some response)
    (single : (Directory.named final.shared.rows request.username).length ≤ 1) :
    ∃ row time, (registrar, row) ∈ middle.shared.inserted ∧ request.Describes hashing row ∧
      response = welcome service req request.username row time := by
  obtain ⟨progress, holds, replies⟩ := replies_held before registering registered
  obtain ⟨same, id, passwordHash, also, hashed, inserted⟩ := replies succeeded
  obtain rfl := registers_unique registers also
  obtain ⟨avatarUrl, createdAt, there⟩ := inserted ▸ holds.registration
  obtain ⟨salt, hash⟩ := holds.facts _ hashed
  generalize same : (UserRow.mk id request.username passwordHash request.email request.nickname
    avatarUrl createdAt) = row at there
  have named : row.username = request.username := same ▸ rfl
  have describes : request.Describes hashing row :=
    same ▸ ⟨rfl, rfl, rfl, salt, hash⟩
  have member : row ∈ middle.shared.rows :=
    List.mem_append_right _ (List.mem_map.mpr ⟨_, there, rfl⟩)
  obtain ⟨known, knows, ends⟩ := (accounts_since before after).ended (accountReply_eq_some replied)
  have only {rows : List UserRow} (listed : .listed request.username rows ∈ known.facts) :
      rows = [row] :=
    listed_single (named ▸ knows.facts _ listed) member (named ▸ single)
  have reply : LoginReply service req known.facts response := ends index _ rfl started response rfl
  cases reply with
  | notPost other => exact absurd asks.2.1 other
  | unparsed refused =>
    obtain ⟨_, _, jv, parsed, _⟩ := asks
    cases parsed.symm.trans refused
  | userNotFound asked listed =>
    cases logsIn_unique asks asked
    cases only listed
  | incorrectPwd asked listed verified =>
    cases logsIn_unique asks asked
    cases only listed
    obtain ⟨salt, hash⟩ := describes.hashed
    have refused := knows.facts _ verified
    cases (hash ▸ refused).symm.trans (hashing.verifies salt request.password)
  | @success asked found rows time asks' listed verified =>
    cases logsIn_unique asks asks'
    cases only listed
    exact ⟨row, time, there, describes, rfl⟩

theorem login_after_registration_alice : ∃ middle final response time,
    aliceMachine.run (accountsStart [bobRow] aliceGenerator) aliceRegisters = some middle ∧
      aliceMachine.run middle aliceLogsIn = some final ∧ accountReply final 1 = some response ∧
      ∃ row, (0, row) ∈ middle.shared.inserted ∧
        RegisterRequest.Describes sampleHash
          ⟨"alice", "secret", "alice@tinychat", "Alice"⟩ row ∧
        response = welcome aliceService (aliceRequest "/api/login") "alice" row time := by
  obtain ⟨middle, final, told, response, first, second, ⟨replied, succeeded⟩, ⟨letIn, _⟩, rows, _⟩ :=
    alice_runs
  have started : middle.programs.length = 1 := programs_length first
  have single : (Directory.named final.shared.rows "alice").length ≤ 1 := rows ▸ by decide
  obtain ⟨row, time, there, describes, same⟩ := @login_after_registration _ _ _ _ _ _ _ _ _ 0 0
    (aliceRequest "/api/register") (aliceRequest "/api/login")
    ⟨"alice", "secret", "alice@tinychat", "Alice"⟩ told first second rfl
    ⟨aliceRequest "/api/register", _, rfl, rfl, rfl⟩ replied succeeded rfl ⟨rfl, rfl, _, rfl, rfl⟩
    (started ▸ letIn) single
  exact ⟨middle, final, response, time, first, second, letIn, row, there, describes, same⟩

end Runs

end TinyChat.Core
