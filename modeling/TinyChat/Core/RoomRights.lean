import TinyChat.Core.Backend
import TinyChat.Core.HandlerPaths

/-! Who may change a room. Every change that a request makes to the tables is judged by
the tables before it: members may change their rooms and owners may take rows away. One
request runs by itself, and any of its calls may throw or find the connection lost. -/
namespace TinyChat.Core

open TinyChat.Db TinyChat.Effect TinyChat.Text TinyChat.Utils
open Program

section Rights

def MemberOf (tables : Tables) (user : Option UInt64) (roomId : UInt64) : Prop :=
  ∃ id ∈ user, tables.HasMember roomId id

def OwnerOf (tables : Tables) (user : Option UInt64) (roomId : UInt64) : Prop :=
  ∃ id ∈ user, ∃ row ∈ tables.members,
    row.roomId = roomId ∧ row.userId = id ∧ row.role = GroupRole.owner.code

/-- What was done to the rows of a room was for the user to do. -/
structure Authorised (before after : Tables) (user : Option UInt64) (roomId : UInt64) : Prop where
  changed : after.rooms.filter (·.id = roomId) ≠ before.rooms.filter (·.id = roomId) ∨
    after.membersOf roomId ≠ before.membersOf roomId → MemberOf before user roomId
  removed : ¬ after.HasRoom roomId ∨ (∃ row ∈ before.membersOf roomId, row ∉ after.members) →
    OwnerOf before user roomId

/-- The changes that the user may make, where a room has been there before. -/
def Granted (before : Tables) (user : Option UInt64) : Change → Prop
  | .addRoom row => ¬ before.HasRoom row.id
  | .addMembers rows => ∀ row ∈ rows, before.HasRoom row.roomId → MemberOf before user row.roomId
  | .addMessage _ => True
  | .dropMembers rows => ∀ row ∈ rows, before.HasRoom row.roomId → OwnerOf before user row.roomId
  | .dropRoom id => before.HasRoom id → OwnerOf before user id
  | .setLast _ id => before.HasRoom id → MemberOf before user id

variable {before tables : Tables} {user : Option UInt64} {roomId : UInt64} {change : Change}
variable {changes : List Change}

theorem OwnerOf.member (owner : OwnerOf before user roomId) : MemberOf before user roomId := by
  obtain ⟨id, own, row, there, sameRoom, sameUser, _⟩ := owner
  exact ⟨id, own, row, there, sameRoom, sameUser⟩

/-- Updating rows that are not kept does not show among those that are. -/
theorem filter_map_of_fixed {α : Type} {keep : α → Bool} {update : α → α} {rows : List α}
    (same : ∀ row, keep (update row) = keep row) (fixed : ∀ row, keep row = true → update row = row) :
    (rows.map update).filter keep = rows.filter keep := by
  rw [List.filter_map, show keep ∘ update = keep from funext same]
  refine (List.map_congr_left fun row member => ?_).trans (List.map_id _)
  exact fixed row (List.mem_filter.mp member).2

/-- Of a room the user is no member of, a granted change leaves all rows alone. -/
theorem Granted.frame (granted : Granted before user change) (room : before.HasRoom roomId)
    (stranger : ¬ MemberOf before user roomId) (tables : Tables) :
    (tables.apply change).rooms.filter (·.id = roomId) = tables.rooms.filter (·.id = roomId) ∧
      (tables.apply change).membersOf roomId = tables.membersOf roomId := by
  cases change with
  | addRoom row =>
    have other : row.id ≠ roomId := fun same => granted (same ▸ room)
    simp [Tables.apply, Tables.membersOf, other]
  | addMembers rows =>
    have other : ∀ row ∈ rows, row.roomId ≠ roomId := by
      intro row member same
      exact stranger (same ▸ granted row member (same ▸ room))
    have none : rows.filter (·.roomId = roomId) = [] :=
      List.filter_eq_nil_iff.mpr fun row member => by simpa using other row member
    simp [Tables.apply, Tables.membersOf, none]
  | addMessage row => exact ⟨rfl, rfl⟩
  | dropMembers rows =>
    refine ⟨rfl, List.filter_filter.trans (List.filter_congr fun row _ => ?_)⟩
    by_cases same : row.roomId = roomId
    · have kept : row ∉ rows := fun dropped =>
        stranger (same ▸ (granted row dropped (same ▸ room)).member)
      simp [same, kept]
    · simp [same]
  | dropRoom id =>
    refine ⟨List.filter_filter.trans (List.filter_congr fun row _ => ?_), rfl⟩
    have other : id ≠ roomId := by
      intro same
      subst same
      exact stranger (granted room).member
    by_cases same : row.id = roomId
    · simp [same, Ne.symm other]
    · simp [same]
  | setLast msgId id =>
    have other : id ≠ roomId := by
      intro same
      subst same
      exact stranger (granted room)
    refine ⟨filter_map_of_fixed (fun room => ?_) fun room kept => if_neg fun same => ?_, rfl⟩
    · split <;> rfl
    · exact other (same.symm.trans (of_decide_eq_true kept))

theorem applyAll_frame (granted : ∀ change ∈ changes, Granted before user change)
    (room : before.HasRoom roomId) (stranger : ¬ MemberOf before user roomId) :
    (tables.applyAll changes).rooms.filter (·.id = roomId) = tables.rooms.filter (·.id = roomId) ∧
      (tables.applyAll changes).membersOf roomId = tables.membersOf roomId := by
  induction changes generalizing tables with
  | nil => exact ⟨rfl, rfl⟩
  | cons change rest ih =>
    rw [Tables.applyAll_cons]
    obtain ⟨rooms, members⟩ := (granted change (List.mem_cons_self ..)).frame room stranger tables
    have later := @ih (tables.apply change) fun other member => granted other (List.mem_cons_of_mem _ member)
    exact ⟨later.1.trans rooms, later.2.trans members⟩

/-- Of a room the user does not own, a granted change takes no row away. -/
theorem Granted.stays (granted : Granted before user change) (room : before.HasRoom roomId)
    (guest : ¬ OwnerOf before user roomId) {row : MemberRow} (there : row ∈ tables.members)
    (of : row.roomId = roomId) : row ∈ (tables.apply change).members := by
  cases change with
  | addMembers rows => exact List.mem_append_left _ there
  | dropMembers rows =>
    refine List.mem_filter.mpr ⟨there, decide_eq_true fun dropped => ?_⟩
    exact guest (of ▸ granted row dropped (of ▸ room))
  | addRoom row => exact there
  | addMessage row => exact there
  | dropRoom id => exact there
  | setLast msgId id => exact there

theorem applyAll_stays (granted : ∀ change ∈ changes, Granted before user change)
    (room : before.HasRoom roomId) (guest : ¬ OwnerOf before user roomId) {row : MemberRow}
    (there : row ∈ tables.members) (of : row.roomId = roomId) :
    row ∈ (tables.applyAll changes).members := by
  induction changes generalizing tables with
  | nil => exact there
  | cons change rest ih =>
    have first := (granted change (List.mem_cons_self ..)).stays room guest there of
    exact ih (fun other member => granted other (List.mem_cons_of_mem _ member)) first

theorem authorised_of_granted (granted : ∀ change ∈ changes, Granted before user change)
    (room : before.HasRoom roomId) : Authorised before (before.applyAll changes) user roomId := by
  constructor
  · intro changed
    by_contra stranger
    obtain ⟨rooms, members⟩ := applyAll_frame granted room stranger
    rcases changed with differ | differ
    · exact differ rooms
    · exact differ members
  · intro removed
    by_contra guest
    rcases removed with gone | ⟨row, there, gone⟩
    · exact gone (Tables.hasRoom_applyAll room fun dropped => guest (granted _ dropped room))
    · obtain ⟨there, of⟩ := List.mem_filter.mp there
      exact gone (applyAll_stays granted room guest there (of_decide_eq_true of))

end Rights

section Alone

/-- Everything that was written since the request began. -/
def written (transaction : Transaction Change) : List Change :=
  transaction.committed ++ transaction.pending

/-- The tables as the statements of the request find them. -/
def found (before : Tables) (transaction : Transaction Change) : Tables :=
  before.applyAll (written transaction)

/-- A statement on the connection that `getSql` has returned. -/
def executeWrite (before : Tables) (write : Write) (live : Transaction Change) :
    Except (Transaction Change) (Transaction Change) :=
  match write.change (found before live) with
  | .ok (some change, _) => live.execute change .executed
  | .ok (none, _) => .ok live
  | .error _ => .error live

/-- How a call on the connection ends. It may throw before or after the server has done
what it is for, and with the connection lost. -/
inductive Called (effect : Transaction Change → Except (Transaction Change) (Transaction Change))
    (transaction : Transaction Change) : Bool → Transaction Change → Prop where
  | returns {after : Transaction Change} (done : effect transaction = .ok after) :
      Called effect transaction true after
  | throws (lost : Bool) : Called effect transaction false (transaction.lose lost)
  | unanswered {after : Transaction Change} (done : effect transaction = .ok after) (lost : Bool) :
      Called effect transaction false (after.lose lost)

/-- The calls of a request that runs by itself. A statement replaces a lost connection,
and `next_id` gives no id of a room that is there; `users` is not among the tables. -/
def aloneExpected (before : Tables) (transaction : Transaction Change) :
    (op : Op) → Except String op.Result → Transaction Change → Prop
  | .connect, .ok _, after => after = { transaction with sql := .autoCommit }
  | .beginTransaction, answer, after =>
    Called Transaction.beginTransaction transaction answer.isOk after
  | .commit, answer, after => Called Transaction.commit transaction answer.isOk after
  | .rollback, answer, after => Called Transaction.rollback transaction answer.isOk after
  | .release, answer, after =>
    Called (Transaction.setAutoCommit true) transaction answer.isOk after ∨
      answer.isOk = true ∧ after = transaction.lose true
  | .query query, .ok rows, after => (∃ lost, (transaction.lose lost).getSql true = .ok after) ∧
      (rows = (found before after).answer query ∨ ∃ username, query = .userNamed username)
  | .query _, .error _, after => ∃ lost, after = transaction.lose lost
  | .update write, answer, after => ∃ lost live, (transaction.lose lost).getSql true = .ok live ∧
      Called (executeWrite before write) live answer.isOk after ∧
      ∀ count, answer = .ok count → ∃ change, write.change (found before live) = .ok (change, count)
  | .nextId, .ok id, after => after = transaction ∧ ¬ before.HasRoom id
  | _, _, after => after = transaction

/-- A request alone with the tables, whose statements make only changes that it may. -/
def alone (before : Tables) (may : Change → Prop) :
    Contract Op Op.Result (Transaction Change) where
  permitted transaction
    | .update write => ∀ lost live change total, (transaction.lose lost).getSql true = .ok live →
        write.change (found before live) = .ok (some change, total) → may change
    | _ => True
  expected := aloneExpected before

variable {before : Tables} {may : Change → Prop} {transaction live after : Transaction Change}
variable {effect : Transaction Change → Except (Transaction Change) (Transaction Change)}
variable {returned : Bool}

theorem written_lose {lost : Bool} : written (transaction.lose lost) ⊆ written transaction := by
  cases lost with
  | false => exact List.Subset.refl _
  | true => simp [written, Transaction.lose, Transaction.pending]

theorem written_getSql {lost : Bool} (connected : (transaction.lose lost).getSql true = .ok live) :
    written live ⊆ written transaction := by
  have same {transaction : Transaction Change} (connected : transaction.getSql true = .ok live) :
      written live ⊆ written transaction := by
    obtain ⟨sql, committed⟩ := transaction
    cases sql <;> cases connected <;> exact List.Subset.refl _
  exact List.Subset.trans (same connected) written_lose

theorem Called.written (called : Called effect transaction returned after)
    (shrinks : ∀ done, effect transaction = .ok done → written done ⊆ written transaction) :
    written after ⊆ written transaction := by
  cases called with
  | returns done => exact shrinks _ done
  | throws lost => exact written_lose
  | unanswered done lost => exact List.Subset.trans written_lose (shrinks _ done)

theorem written_setAutoCommit {on : Bool} (done : transaction.setAutoCommit on = .ok after) :
    written after ⊆ written transaction := by
  obtain ⟨sql, committed⟩ := transaction
  cases sql <;> cases on <;> cases done <;>
    simp [written, Transaction.pending]

theorem written_commit (done : transaction.commit = .ok after) :
    written after ⊆ written transaction := by
  obtain ⟨sql, committed⟩ := transaction
  cases sql <;> cases done <;> simp [written, Transaction.pending]

theorem written_rollback (done : transaction.rollback = .ok after) :
    written after ⊆ written transaction := by
  obtain ⟨sql, committed⟩ := transaction
  cases sql <;> cases done <;> simp [written, Transaction.pending]

theorem written_execute {change : Change} (done : live.execute change .executed = .ok after) :
    written after = written live ++ [change] := by
  obtain ⟨sql, committed⟩ := live
  cases sql <;> cases done <;> simp [written, Transaction.pending]

theorem executeWrite_written {write : Write} {change : Change}
    (called : Called (executeWrite before write) live returned after)
    (member : change ∈ written after) : change ∈ written live ∨
      ∃ total, write.change (found before live) = .ok (some change, total) := by
  have executed {done : Transaction Change} (same : executeWrite before write live = .ok done)
      (member : change ∈ written done) : change ∈ written live ∨
        ∃ total, write.change (found before live) = .ok (some change, total) := by
    unfold executeWrite at same
    split at same
    · rename_i made total changed
      rw [written_execute same] at member
      refine (List.mem_append.mp member).imp_right fun last => ⟨total, ?_⟩
      rw [List.mem_singleton.mp last, changed]
    · cases same
      exact .inl member
    · cases same
  cases called with
  | returns done => exact executed done member
  | throws lost => exact .inl (written_lose member)
  | unanswered done lost => exact executed done (written_lose member)

theorem written_kept {op : Op} {answer : Except String op.Result}
    (kept : ∀ change ∈ written transaction, may change)
    (permitted : (alone before may).permitted transaction op)
    (expected : (alone before may).expected transaction op answer after) :
    ∀ change ∈ written after, may change := by
  have shrinks (subset : written after ⊆ written transaction) : ∀ change ∈ written after, may change :=
    fun change member => kept change (subset member)
  cases op with
  | connect =>
    cases answer with
    | ok result =>
      obtain rfl : after = { transaction with sql := .autoCommit } := expected
      refine shrinks fun change member => ?_
      exact List.mem_append_left _ (by simpa [written, Transaction.pending] using member)
    | error what =>
      obtain rfl : after = transaction := expected
      exact kept
  | beginTransaction => exact shrinks (Called.written expected fun _ => written_setAutoCommit)
  | commit => exact shrinks (Called.written expected fun _ => written_commit)
  | rollback => exact shrinks (Called.written expected fun _ => written_rollback)
  | release =>
    rcases expected with called | ⟨_, rfl⟩
    · exact shrinks (called.written fun _ => written_setAutoCommit)
    · exact shrinks written_lose
  | query query =>
    cases answer with
    | ok rows =>
      obtain ⟨⟨lost, connected⟩, _⟩ := expected
      exact shrinks (written_getSql connected)
    | error what =>
      obtain ⟨lost, rfl⟩ := expected
      exact shrinks written_lose
  | update write =>
    obtain ⟨lost, live, connected, called, _⟩ := expected
    intro change member
    rcases executeWrite_written called member with earlier | ⟨total, changed⟩
    · exact kept change (written_getSql connected earlier)
    · exact permitted lost live change total connected changed
  | nextId =>
    cases answer with
    | ok id => exact shrinks (expected.1 ▸ List.Subset.refl _)
    | error what =>
      obtain rfl : after = transaction := expected
      exact kept
  | lookup _ | hashPassword _ | verifyPassword _ _ | now | openFile _ | writeTo _ _ | writeToAll _ _ =>
    obtain rfl : after = transaction := expected
    exact kept

/-- What a program that makes only granted changes has done is authorised. -/
theorem authorised_of_meets {α : Type} {task : WorkerTask α} {user : Option UInt64}
    (meets : task.Meets (alone before (Granted before user)) (fun _ _ => True) ⟨.lost, []⟩) :
    task.Meets (alone before fun _ => True) (fun last _ => ∀ roomId, before.HasRoom roomId →
      Authorised before (before.applyAll last.committed) user roomId) ⟨.lost, []⟩ := by
  have kept : task.Meets (alone before (Granted before user)) (fun last _ => True ∧
      ∀ change ∈ written last, Granted before user change) ⟨.lost, []⟩ :=
    meets.keeps nofun written_kept
  refine Meets.mono (Meets.relax kept (fun _ op _ => ?_) fun _ _ _ _ due => due) ?_
  · cases op <;> first | trivial | exact fun _ _ _ _ _ _ => trivial
  intro last _ ⟨_, granted⟩ roomId room
  exact authorised_of_granted (fun change member => granted change (List.mem_append_left _ member)) room

end Alone

/-- The user whose claims the handlers extract from the request. -/
def requester (service : Service) (req : Request) : Option UInt64 :=
  (service.jwt.extractUserClaims req.authorizationField).toOption.map UserClaims.id

/-- A request alone with the tables whose statements make only granted changes. -/
abbrev granting (before : Tables) (user : Option UInt64) :
    Contract Op Op.Result (Transaction Change) := alone before (Granted before user)

section Handlers

variable {before : Tables} {user : Option UInt64} {transaction after : Transaction Change}
variable {service : Service} {req : Request} {ctx : ReqContext} {roomId : UInt64}

/-- The table that a registration writes is not one of the rooms'. -/
theorem granting_governs : GovernsRooms (granting before user) where
  quiet transaction op quiet := by
    cases op <;> trivial
  registers := by
    intro transaction id username passwordHash email nickname lost live change total _ changed
    cases changed

/-- Whoever may be added to a room that is not there. -/
theorem granting_fills (unused : ¬ before.HasRoom roomId) : Fills (granting before user) roomId where
  room row same := by
    refine obeys_perform fun transaction lost live change total _ changed => ?_
    cases changed
    subst same
    exact unused
  members rows all := by
    refine obeys_perform fun transaction lost live change total _ changed => ?_
    cases (Write.change_insertMembers changed).1
    exact fun row member room => absurd (all row member ▸ room) unused

theorem deleteRows_granted (owner : OwnerOf before user roomId) :
    (deleteRows req roomId).Obeys (granting before user) := by
  have members : (executeUpdate (.deleteMembers roomId)).Obeys (granting before user) := by
    refine obeys_perform fun transaction lost live change total _ changed => ?_
    obtain ⟨rows, rfl, all⟩ := Write.made_deleteMembers changed
    exact fun row member _ => all row member ▸ owner
  have room : (executeUpdate (.deleteRoom roomId)).Obeys (granting before user) := by
    refine obeys_perform fun transaction lost live change total _ changed => ?_
    obtain rfl := Write.made_deleteRoom changed
    exact fun _ => owner
  exact granting_governs.deleteRows members room

/-- Nothing is written yet, so that queries are answered from the tables before. -/
def Clean (transaction : Transaction Change) : Prop := written transaction = []

theorem Clean.of_subset (clean : Clean transaction) (subset : written after ⊆ written transaction) :
    Clean after := List.subset_nil.mp (clean ▸ subset)

theorem Clean.found (clean : Clean transaction) : found before transaction = before := by
  rw [Core.found, clean, Tables.applyAll_nil]

/-- Before the first write, the rows of a query are those of the tables before. -/
theorem Clean.query (clean : Clean transaction) {query : Query} {rows : List query.Row}
    (asked : (granting before user).expected transaction (.query query) (.ok rows) after)
    (users : ∀ username, query ≠ .userNamed username) :
    Clean after ∧ rows = before.answer query := by
  obtain ⟨⟨lost, connected⟩, answered⟩ := asked
  have later := clean.of_subset (written_getSql connected)
  refine ⟨later, ?_⟩
  rcases answered with same | ⟨username, same⟩
  · rw [same, later.found]
  · exact absurd same (users username)

theorem withConn_granted {body : WorkerTask Response}
    (meets : body.Meets (granting before user) (fun _ _ => True) ⟨.autoCommit, []⟩) :
    (withConn body).Meets (granting before user) (fun _ _ => True) ⟨.lost, []⟩ := by
  refine meets_call_then trivial (fun _ after connected => ?_) fun _ _ _ => trivial
  obtain rfl : after = ⟨.autoCommit, []⟩ := connected
  exact meets_andThen_obeys meets (obeys_onLeave (obeys_perform fun _ => trivial))

/-- A deletion takes rows away only after it has found the requester to be the owner. -/
theorem deleteRoom_granted : (deleteRoom service req roomId).Meets
    (granting before (requester service req)) (fun _ _ => True) ⟨.lost, []⟩ := by
  refine withConn_granted (meets_call_then trivial (fun _ after begun => ?_) fun _ _ _ => trivial)
  have fresh : Clean ⟨.autoCommit, []⟩ := rfl
  have clean := fresh.of_subset (Called.written begun fun _ => written_setAutoCommit)
  refine meets_andThen_obeys ?_ (obeys_onRaise fun _ => granting_governs.rollbackAndReply)
  refine meets_ofExcept_then (fun claims claimed => ?_) fun _ _ => trivial
  refine meets_call_then trivial (fun (roles : List Int) last asked => ?_) fun _ _ _ => trivial
  obtain ⟨_, answered⟩ := clean.query asked fun _ => nofun
  cases roles with
  | nil => trivial
  | cons role more =>
    by_cases owns : role = GroupRole.owner.code
    · have owner : OwnerOf before (requester service req) roomId := by
        have found : GroupRole.owner.code ∈ before.answer (.role roomId claims.id) :=
          answered ▸ owns ▸ List.mem_cons_self ..
        obtain ⟨row, there, same⟩ := List.mem_map.mp found
        obtain ⟨there, fits⟩ := List.mem_filter.mp there
        obtain ⟨sameRoom, sameUser⟩ := of_decide_eq_true fits
        exact ⟨claims.id, by simp [requester, claimed, Except.toOption], row, there, sameRoom, sameUser, same⟩
      dsimp only
      rw [if_neg (not_not_intro owns)]
      exact deleteRows_granted owner last
    · dsimp only
      rw [if_pos owns]
      trivial

/-- The row that an invitation inserts. -/
def GRoomInvtReq.row (invtReq : GRoomInvtReq) (roomId : UInt64) : MemberRow :=
  { roomId, userId := invtReq.inviteeId, role := GroupRole.member.code }

/-- An invitation that is carried out although its sender is no member of the room. -/
structure UncheckedInvitation (service : Service) (req : Request) (before : Tables)
    (roomId : UInt64) (claims : UserClaims) (invtReq : GRoomInvtReq) : Prop where
  post : req.method = .post
  decodes : ∃ jv, service.parse req.body = .ok jv ∧ GRoomInvtReq.valueTo jv = .ok invtReq
  claimed : service.jwt.extractUserClaims req.authorizationField = .ok claims
  group : ∃ more, before.answer (.roomType roomId) = RoomType.group.code :: more
  accepted : ((before.members ++ [invtReq.row roomId]).map MemberRow.key).Nodup
  stranger : ¬ before.HasMember roomId claims.id

/-- The request is an invitation to a room that nobody keeps it from. -/
def Unchecked (service : Service) (req : Request) (before : Tables) : Prop :=
  startsWith "/api/rooms/" req.target = true ∧ ∃ roomId claims invtReq,
    roomCall req = .inviteMember roomId ∧
      UncheckedInvitation service req before roomId claims invtReq

theorem inviteMember_granted
    (checked : ∀ claims invtReq, ¬ UncheckedInvitation service req before roomId claims invtReq) :
    (inviteMember service req roomId).Meets (granting before (requester service req))
      (fun _ _ => True) ⟨.lost, []⟩ := by
  unfold inviteMember
  by_cases post : req.method = .post
  swap
  · rw [if_pos post]
    trivial
  rw [if_neg (not_not_intro post)]
  refine meets_ofExcept_then (fun jv parsed => ?_) fun _ _ => trivial
  refine meets_ofExcept_then (fun invtReq decoded => ?_) fun _ _ => trivial
  refine withConn_granted (meets_ofExcept_then (fun claims claimed => ?_) fun _ _ => trivial)
  refine meets_call_then trivial (fun (types : List Int) after asked => ?_) fun _ _ _ => trivial
  have fresh : Clean ⟨.autoCommit, []⟩ := rfl
  obtain ⟨clean, answered⟩ := fresh.query asked fun _ => nofun
  cases types with
  | nil => trivial
  | cons type more =>
    by_cases group : type = RoomType.group.code
    · dsimp only
      rw [if_neg (not_not_intro group)]
      refine meets_call_then ?_ (fun (count : Nat) _ _ => ?_) fun _ _ _ => trivial
      · intro lost live change total connected changed
        obtain ⟨same, _, accepted⟩ := Write.change_insertMembers changed
        cases same
        rw [(clean.of_subset (written_getSql connected)).found] at accepted
        intro row member _
        obtain rfl := List.mem_singleton.mp member
        by_contra stranger
        refine checked claims invtReq ⟨post, ⟨jv, parsed, decoded⟩, claimed,
          ⟨more, group ▸ answered.symm⟩, accepted, fun isMember => stranger ?_⟩
        exact ⟨claims.id, by simp [requester, claimed, Except.toOption], isMember⟩
      · split <;> trivial
    · dsimp only
      rw [if_pos group]
      trivial

theorem roomCall_granted {call : RoomCall} (checked : ∀ roomId claims invtReq,
    call = .inviteMember roomId → ¬ UncheckedInvitation service req before roomId claims invtReq) :
    (call.task service req).Meets (granting before (requester service req)) (fun _ _ => True)
      ⟨.lost, []⟩ := by
  have replies (what : String) : (pure (badRequest req " Server Error") : WorkerTask Response).Obeys
      (granting before (requester service req)) := obeys_done
  cases call with
  | deleteRoom roomId => exact meets_andThen_obeys deleteRoom_granted (obeys_onRaise replies)
  | inviteMember roomId =>
    refine meets_andThen_obeys (inviteMember_granted fun claims invtReq => ?_) (obeys_onRaise replies)
    exact checked roomId claims invtReq rfl
  | targetNotFound => trivial
  | serverError => trivial
  | flowsOff => trivial

theorem route_granted (checked : ¬ Unchecked service req before) :
    (route service req ctx).Meets (granting before (requester service req))
      (fun _ _ => True) ⟨.lost, []⟩ := by
  refine granting_governs.route (fun _ _ _ drawn => granting_fills drawn.2) fun below => ?_
  rw [handleChatRoom_eq]
  unfold Unchecked at checked
  generalize roomCall req = call at checked ⊢
  apply roomCall_granted
  intro roomId claims invtReq called unchecked
  exact checked ⟨below, roomId, claims, invtReq, called, unchecked⟩

theorem handleRequest_granted (checked : ¬ Unchecked service req before) :
    (handleRequest service req).Meets (granting before (requester service req))
      (fun _ _ => True) ⟨.lost, []⟩ :=
  meets_ofExcept_then (fun _ _ => meets_ofExcept_then (fun _ _ => route_granted checked)
    fun _ _ => trivial) fun _ _ => trivial

end Handlers

section Invitations

variable {before : Tables} {service : Service} {req : Request} {roomId : UInt64}
variable {claims : UserClaims} {invtReq : GRoomInvtReq}
variable {post : Transaction Change → Outcome Response → Prop}

theorem UncheckedInvitation.invites
    (unchecked : UncheckedInvitation service req before roomId claims invtReq)
    (meets : (inviteMember service req roomId).Meets (alone before fun _ => True) post ⟨.lost, []⟩) :
    ∃ response, post ⟨.autoCommit, [.addMembers [invtReq.row roomId]]⟩ (.returned response) := by
  obtain ⟨jv, parsed, decoded⟩ := unchecked.decodes
  obtain ⟨more, answered⟩ := unchecked.group
  unfold inviteMember at meets
  rw [if_neg (not_not_intro unchecked.post)] at meets
  have connecting := (meets.computed parsed).computed decoded
  have body := meets_withDestructor.mp (connecting.returned ⟨⟩ ⟨.autoCommit, []⟩ rfl)
  have asking := body.computed unchecked.claimed
  have told := asking.returned (RoomType.group.code :: more) ⟨.autoCommit, []⟩
    ⟨⟨false, rfl⟩, .inl answered.symm⟩
  dsimp only at told
  rw [if_neg (not_not_intro rfl)] at told
  have changed : (Write.insertMembers [invtReq.row roomId]).change before =
      .ok (some (.addMembers [invtReq.row roomId]), 1) := if_pos unchecked.accepted
  have executed : executeWrite before (.insertMembers [invtReq.row roomId]) ⟨.autoCommit, []⟩ =
      .ok ⟨.autoCommit, [.addMembers [invtReq.row roomId]]⟩ := by
    unfold executeWrite
    rw [show found before ⟨.autoCommit, []⟩ = before from rfl, changed]
    rfl
  have replied := told.returned (1 : Nat) ⟨.autoCommit, [.addMembers [invtReq.row roomId]]⟩
    ⟨false, ⟨.autoCommit, []⟩, rfl, .returns executed,
      fun count same => ⟨_, Except.ok.inj same ▸ changed⟩⟩
  rw [if_neg (not_not_intro rfl)] at replied
  have left := meets_perform.mp (meets_onDestroyed.mp replied)
  exact ⟨_, left.2.1 ⟨⟩ ⟨.autoCommit, [.addMembers [invtReq.row roomId]]⟩ (.inl (.returns rfl))⟩

/-- A request below `/api/rooms/` whose claims and body can be read gets to its handler. -/
theorem routed_below (below : startsWith "/api/rooms/" req.target = true) {jv : Json}
    (claimed : service.jwt.extractUserClaims req.authorizationField = .ok claims)
    (parsed : service.parse req.body = .ok jv) {call : RoomCall} (called : roomCall req = call)
    {transaction : Transaction Change} (meets : (handleRequest service req).Meets
      (alone before fun _ => True) post transaction) :
    (call.task service req).Meets (alone before fun _ => True) post transaction := by
  have readable : ∀ token, req.authorization = some token →
      ∃ userClaims, service.jwt.extractUserClaims token = .ok userClaims := by
    intro token same
    exact ⟨claims, by simpa [Request.authorizationField, same] using claimed⟩
  obtain ⟨userClaimsOpt, extracted⟩ := claimsOf_ok_iff.mpr readable
  obtain ⟨jvOpt, read⟩ := bodyOf_ok_iff.mpr fun _ => ⟨jv, parsed⟩
  have dispatched := (meets.computed extracted).computed read
  have other {fixed : String} (apart : startsWith "/api/rooms/" fixed = false) :
      req.target ≠ fixed := by
    intro same
    rw [same, apart] at below
    cases below
  unfold route at dispatched
  rw [handleChatRoom_eq, called, if_neg (other (by decide)), if_neg (other (by decide)),
    if_neg (other (by decide)), if_neg (other (by decide)), if_pos below] at dispatched
  exact dispatched

end Invitations

/-- A request alone with the tables does nothing to a room that was not for its user to do. -/
def ActsWithinRights (service : Service) (req : Request) (before : Tables) : Prop :=
  (handleRequest service req).Meets (alone before fun _ => True) (fun last _ =>
    ∀ roomId, before.HasRoom roomId →
      Authorised before (before.applyAll last.committed) (requester service req) roomId) ⟨.lost, []⟩

variable {service : Service} {req : Request} {before : Tables}

theorem Unchecked.violates (unchecked : Unchecked service req before) :
    ¬ ActsWithinRights service req before := by
  intro within
  obtain ⟨below, roomId, claims, invtReq, called, invitation⟩ := unchecked
  obtain ⟨jv, parsed, _⟩ := invitation.decodes
  have routed := routed_below below invitation.claimed parsed called within
  obtain ⟨response, ended⟩ := invitation.invites (meets_tryCatch.mp routed)
  obtain ⟨more, answered⟩ := invitation.group
  have room : before.HasRoom roomId := by
    have typed : RoomType.group.code ∈ before.answer (.roomType roomId) :=
      answered ▸ List.mem_cons_self ..
    obtain ⟨row, there, _⟩ := List.mem_map.mp typed
    obtain ⟨there, same⟩ := List.mem_filter.mp there
    exact ⟨row, there, of_decide_eq_true same⟩
  have inserted : (before.applyAll [.addMembers [invtReq.row roomId]]).membersOf roomId ≠
      before.membersOf roomId := by
    simp [Tables.apply, Tables.membersOf, GRoomInvtReq.row]
  obtain ⟨id, own, isMember⟩ := (ended roomId room).changed (.inr inserted)
  have same : claims.id = id := by
    simpa [requester, invitation.claimed, Except.toOption] using own
  exact invitation.stranger (same ▸ isMember)

/-- Whatever the tables, whoever asks for whatever, and whichever calls fail: a request
adds, changes and takes away only rows of rooms whose members and owners may do that, except
when it is an invitation by somebody who is no member of the room. -/
theorem requests_authorised_iff (service : Service) (req : Request) (before : Tables) :
    ActsWithinRights service req before ↔ ¬ Unchecked service req before :=
  ⟨fun within unchecked => unchecked.violates within,
    fun checked => authorised_of_meets (handleRequest_granted checked)⟩

/-- Room 1 with its owner, user 1. -/
private def ownedRoom : Tables where
  rooms := [{ id := 1, name := some "room", type := RoomType.group.code, ownerId := some 1 }]
  members := [{ roomId := 1, userId := 1, role := GroupRole.owner.code }]

/-- User 3, who is in no room, adds user 2 to room 1. -/
theorem stranger_invites : ¬ ∀ (service : Service) (req : Request) (before : Tables),
    ActsWithinRights service req before := by
  intro claimed
  have within := claimed sampleService (sampleRequest .post "/api/rooms/1/member" "3" "invitee 2")
    ownedRoom
  have invitation : UncheckedInvitation sampleService
      (sampleRequest .post "/api/rooms/1/member" "3" "invitee 2") ownedRoom 1 ⟨3, "3"⟩ ⟨2⟩ :=
    { post := rfl
      decodes := ⟨_, rfl, rfl⟩
      claimed := rfl
      group := ⟨[], rfl⟩
      accepted := by decide
      stranger := by simp [Tables.HasMember, ownedRoom] }
  have called : roomCall (sampleRequest .post "/api/rooms/1/member" "3" "invitee 2") =
      .inviteMember 1 := by decide +kernel
  have unchecked : Unchecked sampleService
      (sampleRequest .post "/api/rooms/1/member" "3" "invitee 2") ownedRoom :=
    ⟨by decide, 1, ⟨3, "3"⟩, ⟨2⟩, called, invitation⟩
  exact unchecked.violates within

end TinyChat.Core
