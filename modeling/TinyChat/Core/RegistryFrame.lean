import TinyChat.Core.SessionRegistry
import TinyChat.Core.Token
import Mathlib.Data.List.Nodup

namespace TinyChat.Core

open TinyChat.Transition

namespace WSSessionMgr

variable {mgr next : WSSessionMgr} {user other : UInt64} {session : Nat} {msg : String}

/-- The live session a user is registered with. -/
def liveSession (mgr : WSSessionMgr) (user : UInt64) : Option Nat :=
  (mgr.sessions user).filter mgr.alive

/-- The user is registered with a session that is gone. -/
def Expired (mgr : WSSessionMgr) (user : UInt64) : Prop :=
  ∃ session, mgr.sessions user = some session ∧ mgr.alive session = false

theorem liveSession_eq_some_iff : mgr.liveSession user = some session ↔
    mgr.sessions user = some session ∧ mgr.alive session = true := by
  simp [liveSession, Option.filter_eq_some_iff]

/-- The registry with another entry for one user. -/
def withEntry (user : UInt64) (entry : Option Nat) (mgr : WSSessionMgr) : WSSessionMgr :=
  { mgr with sessions := Function.update mgr.sessions user entry }

theorem withEntry_self (user : UInt64) (mgr : WSSessionMgr) :
    mgr.withEntry user (mgr.sessions user) = mgr := by
  simp [withEntry]

/-- Locking leaves the live session of the user and erases an expired entry. -/
theorem lockSession_eq (user : UInt64) (mgr : WSSessionMgr) :
    mgr.lockSession user = (mgr.withEntry user (mgr.liveSession user), mgr.liveSession user) := by
  have same := withEntry_self user mgr
  unfold lockSession liveSession
  cases registered : mgr.sessions user with
  | none =>
    rw [registered] at same
    exact Prod.ext same.symm rfl
  | some session =>
    rw [registered] at same
    by_cases living : mgr.alive session = true
    · rw [Option.filter_some_pos living]
      simpa [living] using same.symm
    · rw [Option.filter_some_neg (by simpa using living)]
      simp [living, removeSession, withEntry]

theorem liveSession_withEntry (user : UInt64) (mgr : WSSessionMgr) :
    (mgr.withEntry user (mgr.liveSession user)).liveSession = mgr.liveSession := by
  funext other
  change Option.filter mgr.alive (Function.update mgr.sessions user (mgr.liveSession user) other) = _
  by_cases own : other = user
  · subst own
    simp [liveSession, Option.filter_filter]
  · simp [liveSession, own]

/-- The loop of `write_to_room`: the entries of the members become their live sessions. -/
theorem onlineUsers_eq (users : List UInt64) (mgr : WSSessionMgr) : mgr.onlineUsers users =
    ({ mgr with sessions := fun user =>
        if user ∈ users then mgr.liveSession user else mgr.sessions user },
      users.filterMap mgr.liveSession) := by
  induction users generalizing mgr with
  | nil => simp [onlineUsers]
  | cons user rest ih =>
    simp only [onlineUsers, lockSession_eq, ih, liveSession_withEntry, Prod.mk.injEq]
    constructor
    · simp only [withEntry, WSSessionMgr.mk.injEq, and_true]
      funext other
      by_cases own : other = user
      · simp [own]
      · simp [own]
    · cases found : mgr.liveSession user <;> simp [found]

theorem sends_posted (msg : String) (online : List Nat) (mgr : WSSessionMgr) :
    (online.foldl (send msg) mgr).posted = mgr.posted ++ online.map fun session => (session, msg) := by
  induction online generalizing mgr with
  | nil => simp
  | cons session rest ih =>
    rw [List.foldl_cons, ih]
    simp [send]

@[simp] theorem sends_sessions (msg : String) (online : List Nat) (mgr : WSSessionMgr) :
    (online.foldl (send msg) mgr).sessions = mgr.sessions := by
  induction online generalizing mgr with
  | nil => rfl
  | cons session rest ih => exact ih (mgr.send msg session)

/-- The user id each session object holds and whether `do_accept` has run. -/
def identities (mgr : WSSessionMgr) : List (UInt64 × Bool) :=
  mgr.objects.map fun object => (object.userClaimsId, object.accepted)

/-- A registered session holds the user id it is registered under. -/
def HoldsOwnId (mgr : WSSessionMgr) : Prop :=
  ∀ user session, mgr.sessions user = some session → mgr.identities[session]? = some (user, true)

theorem modifyObject_identities {change : WebsocketSession → WebsocketSession}
    (kept : ∀ object, (change object).userClaimsId = object.userClaimsId ∧
      (change object).accepted = object.accepted) :
    (mgr.modifyObject session change).identities = mgr.identities := by
  apply List.ext_getElem?
  intro index
  simp only [identities, modifyObject, List.getElem?_map, List.getElem?_modify]
  cases mgr.objects[index]? with
  | none => rfl
  | some object =>
    by_cases same : session = index
    · simp [same, kept object]
    · simp [same]

theorem sends_identities (msg : String) (online : List Nat) (mgr : WSSessionMgr) :
    (online.foldl (send msg) mgr).identities = mgr.identities := by
  induction online generalizing mgr with
  | nil => rfl
  | cons session rest ih =>
    have first : (mgr.send msg session).identities = mgr.identities :=
      modifyObject_identities fun _ => ⟨rfl, rfl⟩
    rw [List.foldl_cons, ih, first]

theorem writeTo_eq (user : UInt64) (msg : String) (mgr : WSSessionMgr) :
    mgr.writeTo user msg = (mgr.liveSession user).toList.foldl (send msg)
      (mgr.withEntry user (mgr.liveSession user)) := by
  unfold writeTo
  rw [lockSession_eq]
  cases mgr.liveSession user <;> rfl

theorem writeTo_identities : (mgr.writeTo user msg).identities = mgr.identities := by
  rw [writeTo_eq, sends_identities]
  rfl

theorem writeToRoom_identities {users : List UInt64} :
    (mgr.writeToRoom users msg).identities = mgr.identities := by
  unfold writeToRoom
  simp only [onlineUsers_eq, sends_identities]
  rfl

theorem writeToRoom_sessions {users : List UInt64} : (mgr.writeToRoom users msg).sessions user =
    if user ∈ users then mgr.liveSession user else mgr.sessions user := by
  unfold writeToRoom
  simp only [onlineUsers_eq, sends_sessions]

theorem writeToRoom_posted {users : List UInt64} : (mgr.writeToRoom users msg).posted =
    mgr.posted ++ (users.filterMap mgr.liveSession).map fun session => (session, msg) := by
  unfold writeToRoom
  simp only [onlineUsers_eq, sends_posted]

/-- Only `do_accept` gives a session object a user id. -/
theorem Steps.identities {action : Action} (moved : Steps mgr action next) : next.identities =
    match action with
    | .connect indeterminate => mgr.identities ++ [(indeterminate, false)]
    | .doAccept session claims =>
      mgr.identities.modify session fun held => (claims.getD held.1, true)
    | _ => mgr.identities := by
  cases moved with
  | connected indeterminate => simp [WSSessionMgr.identities]
  | accepted session claims object found held =>
    apply List.ext_getElem?
    intro index
    cases claims <;>
      simp only [doAccept, addSession, modifyObject, WSSessionMgr.identities, List.getElem?_map,
        List.getElem?_modify] <;>
      cases mgr.objects[index]? <;> by_cases same : session = index <;> simp [same]
  | copied | reset | destroyed => exact modifyObject_identities fun _ => ⟨rfl, rfl⟩
  | wrote user msg => exact writeTo_identities
  | wroteToRoom users msg => exact writeToRoom_identities

theorem doAccept_first {claims : Option UInt64}
    (taken : machine.step mgr (.doAccept session claims) = some next) :
    ∃ held, mgr.identities[session]? = some (held, false) := by
  obtain ⟨object, found, inside⟩ := Option.bind_eq_some_iff.mp taken
  split at inside
  · rename_i enabled
    exact ⟨object.userClaimsId, by simp [identities, found, enabled.2]⟩
  · cases inside

theorem Steps.entries {action : Action} (moved : Steps mgr action next)
    (registered : next.sessions user = some session) :
    mgr.sessions user = some session ∨ action = .doAccept session (some user) := by
  cases moved with
  | connected | copied | reset => exact .inl registered
  | accepted index claims object found held =>
    cases claims with
    | none => exact .inl registered
    | some claimed =>
      by_cases own : user = claimed
      · subst own
        cases addSession_same.symm.trans registered
        exact .inr rfl
      · exact .inl ((addSession_other own).symm.trans registered)
  | destroyed index object found expired =>
    by_cases own : user = object.userClaimsId
    · subst own
      cases removeSession_same.symm.trans registered
    · exact .inl ((removeSession_other own).symm.trans registered)
  | wrote target msg =>
    rw [writeTo_eq, sends_sessions] at registered
    by_cases own : user = target
    · subst own
      simp only [withEntry, Function.update_self] at registered
      exact .inl (liveSession_eq_some_iff.mp registered).1
    · simp only [withEntry, Function.update_of_ne own] at registered
      exact .inl registered
  | wroteToRoom users msg =>
    rw [writeToRoom_sessions] at registered
    split at registered
    · exact .inl (liveSession_eq_some_iff.mp registered).1
    · exact .inl registered

theorem HoldsOwnId.step {action : Action} (own : mgr.HoldsOwnId)
    (taken : machine.step mgr action = some next) : next.HoldsOwnId := by
  have moved := steps_of_step taken
  intro user session registered
  rw [moved.identities]
  rcases moved.entries registered with before | accepted
  · have held := own user session before
    cases action with
    | connect indeterminate =>
      simp only
      rwa [List.getElem?_append_left (List.getElem?_eq_some_iff.mp held).1]
    | doAccept index claims =>
      -- A session that is registered has been through `do_accept`.
      obtain ⟨old, first⟩ := doAccept_first taken
      have other : index ≠ session := fun same => by simp [same, held] at first
      simpa [List.getElem?_modify, other] using held
    | _ => exact held
  · subst accepted
    obtain ⟨old, first⟩ := doAccept_first taken
    simp [first]

theorem holdsOwnId_of_run {past : List Action} (ran : machine.run init past = some mgr) :
    mgr.HoldsOwnId :=
  Machine.invariant ran (fun _ _ registered => by cases registered)
    fun _ _ _ own taken => own.step taken

theorem liveSession_inj (own : mgr.HoldsOwnId) (first : mgr.liveSession user = some session)
    (second : mgr.liveSession other = some session) : user = other := by
  have one := own user session (liveSession_eq_some_iff.mp first).1
  have two := own other session (liveSession_eq_some_iff.mp second).1
  rw [one] at two
  cases two
  rfl

/-- `write_to_room` with the distinct members of a room, in every state of the registry:
it posts the message to the sessions that are registered for a member and alive, to each
of them once, and afterwards exactly the expired entries of the members are gone. That no
session is registered for two users holds in every state the registry can be in. -/
theorem writeToRoom_fanOut (mgr : WSSessionMgr) (users : List UInt64) (msg : String)
    (distinct : users.Nodup) : ∃ online : List Nat,
      (mgr.writeToRoom users msg).posted =
        mgr.posted ++ online.map (fun session => (session, msg)) ∧
      (∀ session, session ∈ online ↔
        mgr.alive session = true ∧ ∃ user ∈ users, mgr.sessions user = some session) ∧
      ((∃ past, machine.run init past = some mgr) → online.Nodup) ∧
      (∀ user, user ∈ users ∧ mgr.Expired user → (mgr.writeToRoom users msg).sessions user = none) ∧
      ∀ user, ¬(user ∈ users ∧ mgr.Expired user) →
        (mgr.writeToRoom users msg).sessions user = mgr.sessions user := by
  refine ⟨users.filterMap mgr.liveSession, writeToRoom_posted, fun session => ?_, ?_, ?_, ?_⟩
  · simp only [List.mem_filterMap, liveSession_eq_some_iff]
    constructor
    · rintro ⟨user, member, registered, living⟩
      exact ⟨living, user, member, registered⟩
    · rintro ⟨living, user, member, registered⟩
      exact ⟨user, member, registered, living⟩
  · rintro ⟨past, ran⟩
    have own := holdsOwnId_of_run ran
    exact List.Nodup.filterMap
      (fun user other session first second => liveSession_inj own first second) distinct
  · rintro user ⟨member, session, registered, dead⟩
    rw [writeToRoom_sessions, if_pos member]
    simp [liveSession, registered, dead]
  · intro user spared
    rw [writeToRoom_sessions]
    split
    · rename_i member
      cases registered : mgr.sessions user with
      | none => simp [liveSession, registered]
      | some session =>
        have living : mgr.alive session = true := by
          by_contra dead
          exact spared ⟨member, session, registered, by simpa using dead⟩
        simp [liveSession, registered, living]
    · rfl

/-- Of the members 1, 2 and 3 one is online, one has gone and one never came. -/
theorem writeToRoom_fanOut_three : ∃ mgr : WSSessionMgr,
    machine.run init [.connect 0, .doAccept 0 (some 1), .connect 0, .doAccept 1 (some 2),
      .resetPtr 1] = some mgr ∧ mgr.Expired 2 ∧ ∃ online : List Nat,
      (mgr.writeToRoom [1, 2, 3] "hi").posted =
        mgr.posted ++ online.map (fun session => (session, "hi")) ∧
      (∀ session, session ∈ online ↔
        mgr.alive session = true ∧ ∃ user ∈ [1, 2, 3], mgr.sessions user = some session) ∧
      ((∃ past, machine.run init past = some mgr) → online.Nodup) ∧
      (∀ user, user ∈ [1, 2, 3] ∧ mgr.Expired user →
        (mgr.writeToRoom [1, 2, 3] "hi").sessions user = none) ∧
      ∀ user, ¬(user ∈ [1, 2, 3] ∧ mgr.Expired user) →
        (mgr.writeToRoom [1, 2, 3] "hi").sessions user = mgr.sessions user :=
  ⟨_, rfl, ⟨1, rfl, rfl⟩, writeToRoom_fanOut _ [1, 2, 3] "hi" (by decide)⟩

/-- The user id `do_accept` takes from the `Authorization` field of the request; without
one it returns early. -/
def acceptedId (jwt : Jwt) : Option String → Option UInt64
  | none => none
  | some token =>
    if token.isEmpty then none
    else match jwt.extractUserClaims token with
      | .ok claims => some claims.id
      | .error _ => none

/-- The step is one of the connection whose session object this is. -/
def OfConnection (session : Nat) (mgr : WSSessionMgr) : Action → Prop
  | .connect _ => mgr.objects.length = session
  | .doAccept other _ | .copyPtr other | .resetPtr other | .destroy other => other = session
  | .writeTo _ _ | .writeToRoom _ _ => False

/-- A step of the connection leaves the entry of the user as it is. -/
def LeavesEntry (session : Nat) (user : UInt64) (_ : List Action) (mgr : WSSessionMgr)
    (action : Action) : Prop :=
  OfConnection session mgr action → ∀ next, machine.step mgr action = some next →
    next.sessions user = mgr.sessions user

/-- The user ids that happened to be in memory when the objects were made. -/
def indeterminateIds (past : List Action) : List UInt64 := past.filterMap fun
  | .connect indeterminate => some indeterminate
  | _ => none

/-- The object is not destroyed while it holds, for want of an accepted token, the id of
a registered user by chance. `first` is the place of the first object the run makes. -/
def NoChanceId (first session : Nat) (user : UInt64) (past : List Action) (mgr : WSSessionMgr)
    (action : Action) : Prop :=
  action = .destroy session → (∃ claimed, .doAccept session (some claimed) ∈ past) ∨
    (indeterminateIds past)[session - first]? ≠ some user ∨ mgr.sessions user = none

/-- A session made during the run holds the id of its token, if one was accepted, and
else the one that was in memory. -/
structure HeldId (first session : Nat) (past : List Action) (mgr : WSSessionMgr) : Prop where
  made : first + (indeterminateIds past).length = mgr.identities.length
  accepts : ∀ claims, .doAccept session claims ∈ past → ∃ id, mgr.identities[session]? = some (id, true)
  claimed : ∀ user, .doAccept session (some user) ∈ past → mgr.identities[session]? = some (user, true)
  chance : ∀ id accepted, mgr.identities[session]? = some (id, accepted) →
    (∀ user, .doAccept session (some user) ∉ past) → (indeterminateIds past)[session - first]? = some id

theorem HeldId.connect {first : Nat} {past : List Action} {indeterminate : UInt64}
    (fresh : first ≤ session) (held : HeldId first session past mgr)
    (same : next.identities = mgr.identities ++ [(indeterminate, false)]) :
    HeldId first session (past ++ [.connect indeterminate]) next := by
  have ids : indeterminateIds (past ++ [.connect indeterminate]) =
      indeterminateIds past ++ [indeterminate] := by simp [indeterminateIds]
  have kept {id : UInt64} (found : mgr.identities[session]? = some (id, true)) :
      next.identities[session]? = some (id, true) := by
    rwa [same, List.getElem?_append_left (List.getElem?_eq_some_iff.mp found).1]
  constructor
  · simp only [ids, same, List.length_append, List.length_singleton]
    have made := held.made
    omega
  · intro claims member
    obtain ⟨id, found⟩ := held.accepts claims (by simpa using member)
    exact ⟨id, kept found⟩
  · intro user member
    exact kept (held.claimed user (by simpa using member))
  · intro id accepted found unclaimed
    have made := held.made
    rw [same] at found
    rw [ids]
    rcases Nat.lt_or_ge session mgr.identities.length with old | new
    · rw [List.getElem?_append_left old] at found
      rw [List.getElem?_append_left (by omega)]
      exact held.chance id accepted found fun user member => unclaimed user (by simp [member])
    · rw [List.getElem?_append_right new] at found
      rw [List.getElem?_append_right (by omega)]
      have place : session - first - (indeterminateIds past).length =
          session - mgr.identities.length := by omega
      obtain ⟨inside, there⟩ := List.getElem?_eq_some_iff.mp found
      rw [place]
      simp only [List.length_singleton, Nat.lt_one_iff] at inside
      simp [inside] at there ⊢
      exact there.1

theorem HeldId.doAccept {first index : Nat} {past : List Action} {claims : Option UInt64}
    (held : HeldId first session past mgr)
    (taken : machine.step mgr (.doAccept index claims) = some next) :
    HeldId first session (past ++ [.doAccept index claims]) next := by
  have same := (steps_of_step taken).identities
  obtain ⟨old, before⟩ := doAccept_first taken
  have ids : indeterminateIds (past ++ [.doAccept index claims]) = indeterminateIds past := by
    simp [indeterminateIds]
  have made : first + (indeterminateIds (past ++ [.doAccept index claims])).length =
      next.identities.length := by simpa [same, ids] using held.made
  by_cases own : index = session
  · subst own
    -- `do_accept` had not run before.
    have never (others : Option UInt64) : .doAccept index others ∉ past := fun member => by
      obtain ⟨id, after⟩ := held.accepts others member
      simp [before] at after
    have now : next.identities[index]? = some (claims.getD old, true) := by simp [same, before]
    refine ⟨made, fun _ _ => ⟨_, now⟩, fun user member => ?_, fun id accepted found unclaimed => ?_⟩
    · simp only [List.mem_append, never, List.mem_singleton, false_or] at member
      cases member
      exact now
    · rw [ids]
      cases claims with
      | some user => exact absurd (by simp) (unclaimed user)
      | none =>
        cases now.symm.trans found
        exact held.chance old false before fun user => never (some user)
  · have kept : next.identities[session]? = mgr.identities[session]? := by simp [same, own]
    have members (others : Option UInt64) :
        .doAccept session others ∈ past ++ [.doAccept index claims] ↔ .doAccept session others ∈ past := by
      simp [Ne.symm own]
    refine ⟨made, ?_, ?_, ?_⟩
    · simpa only [kept, members] using held.accepts
    · simpa only [kept, members] using held.claimed
    · simpa only [kept, members, ids] using held.chance

theorem HeldId.step {first : Nat} {past : List Action} {action : Action} (fresh : first ≤ session)
    (held : HeldId first session past mgr) (taken : machine.step mgr action = some next) :
    HeldId first session (past ++ [action]) next := by
  have same := (steps_of_step taken).identities
  cases action with
  | connect indeterminate => exact held.connect fresh same
  | doAccept index claims => exact held.doAccept taken
  | _ =>
    simp only at same
    refine ⟨?_, ?_, ?_, ?_⟩
    · simpa [same, indeterminateIds] using held.made
    · simpa [same] using held.accepts
    · simpa [same] using held.claimed
    · simpa [same, indeterminateIds] using held.chance

theorem heldId_of_run {start : WSSessionMgr} {past : List Action}
    (ran : machine.run start past = some mgr) (fresh : start.objects.length ≤ session) :
    HeldId start.objects.length session past mgr := by
  refine Machine.run_induction (motive := HeldId start.objects.length session) ran ?_
    fun _ _ _ _ _ held taken => held.step fresh taken
  have outside : start.identities[session]? = none :=
    List.getElem?_eq_none (by simpa [identities] using fresh)
  refine ⟨by simp [indeterminateIds, identities], ?_, ?_, ?_⟩
  · simp
  · simp
  · simp [outside]

/-- Of the steps of a connection whose token is not the user's, only the destruction of
the object can touch the entry of the user. -/
theorem leavesEntry_of_ne_destroy {past : List Action} {action : Action}
    (foreign : action ≠ .doAccept session (some user)) (lives : action ≠ .destroy session) :
    LeavesEntry session user past mgr action := by
  intro ofConnection next taken
  cases steps_of_step taken with
  | connected | copied | reset => rfl
  | accepted index claims object found held =>
    cases ofConnection
    cases claims with
    | none => rfl
    | some claimed => exact addSession_other fun same => foreign (by rw [same])
  | destroyed index object found expired => exact absurd (congrArg Action.destroy ofConnection) lives
  | wrote | wroteToRoom => cases ofConnection

/-- A destruction leaves the entry of the user exactly if the object does not hold the
user's id or there is no entry. -/
theorem leavesEntry_destroy_iff {past : List Action} {id : UInt64} {accepted : Bool}
    (found : mgr.identities[session]? = some (id, accepted))
    (taken : machine.step mgr (.destroy session) = some next) :
    LeavesEntry session user past mgr (.destroy session) ↔ id ≠ user ∨ mgr.sessions user = none := by
  have erased : next.sessions = Function.update mgr.sessions id none := by
    cases steps_of_step taken with
    | destroyed _ object there expired =>
      simp only [identities, List.getElem?_map, there, Option.map_some, Option.some.injEq,
        Prod.mk.injEq] at found
      rw [← found.1]
      rfl
  constructor
  · intro leaves
    have same := leaves rfl next taken
    by_cases own : id = user
    · subst own
      exact .inr (by rw [← same, erased, Function.update_self])
    · exact .inl own
  · intro spared _ other again
    cases taken.symm.trans again
    rw [erased]
    rcases spared with different | absent
    · exact Function.update_of_ne different.symm none mgr.sessions
    · by_cases own : user = id
      · subst own
        rw [Function.update_self, absent]
      · exact Function.update_of_ne own none mgr.sessions

/-- In every run from every state of the registry, among any steps of other sessions: a
connection whose request has no `Authorization` field, an empty or unreadable token or
the token of another user leaves the entry of the user alone exactly if its object is
not destroyed while it holds by chance, no token having been accepted, the id of the
user, and the user is registered. -/
theorem foreign_connection_iff {start final : WSSessionMgr} {actions : List Action} {jwt : Jwt}
    {authorization : Option String} (ran : machine.run start actions = some final)
    (fresh : start.objects.length ≤ session)
    (request : ∀ claims, .doAccept session claims ∈ actions → claims = acceptedId jwt authorization)
    (foreign : acceptedId jwt authorization ≠ some user) :
    machine.Allowed (LeavesEntry session user) start actions ↔
      machine.Allowed (NoChanceId start.objects.length session user) start actions := by
  refine Machine.allowed_iff_of_steps ran ?_
  intro past action rest mgr next split reached taken
  have other : ∀ claims, .doAccept session claims ∈ past ++ [action] → claims ≠ some user := by
    intro claims member same
    refine foreign ((request claims ?_).symm.trans same)
    rw [← split]
    simp only [List.mem_append, List.mem_cons, List.not_mem_nil, or_false] at member ⊢
    tauto
  by_cases destroys : action = .destroy session
  · subst destroys
    have held := heldId_of_run reached fresh
    obtain ⟨id, accepted, found⟩ : ∃ id accepted, mgr.identities[session]? = some (id, accepted) := by
      cases steps_of_step taken with
      | destroyed _ object there expired =>
        exact ⟨object.userClaimsId, object.accepted, by simp [identities, there]⟩
    rw [leavesEntry_destroy_iff found taken]
    simp only [NoChanceId, true_implies]
    by_cases accepts : ∃ claimed, .doAccept session (some claimed) ∈ past
    · obtain ⟨claimed, member⟩ := accepts
      cases found.symm.trans (held.claimed claimed member)
      exact iff_of_true (.inl fun same => other (some id) (by simp [member]) (congrArg some same))
        (.inl ⟨id, member⟩)
    · have chance := held.chance id accepted found (not_exists.mp accepts)
      simp [accepts, chance]
  · exact iff_of_true (leavesEntry_of_ne_destroy
      (fun same => other (some user) (by simp [same]) rfl) destroys) fun same => absurd same destroys

/-- The memory of a connection without an `Authorization` field happens to hold 7, the id
of an online user. -/
theorem foreign_connection_erases :
    ¬ ∀ (start final : WSSessionMgr) (actions : List Action) (session : Nat) (user : UInt64)
      (jwt : Jwt) (authorization : Option String),
      machine.run start actions = some final → start.objects.length ≤ session →
      (∀ claims, .doAccept session claims ∈ actions → claims = acceptedId jwt authorization) →
      acceptedId jwt authorization ≠ some user →
      machine.Allowed (LeavesEntry session user) start actions := by
  intro claimed
  let before : List Action :=
    [.connect 0, .doAccept 0 (some 7), .connect 7, .doAccept 1 none, .resetPtr 1]
  have leaves := claimed init _ (before ++ [.destroy 1]) 1 7
    { decode := fun _ => .error "invalid token supplied", encode := fun _ _ => "", hs256 := fun _ _ => "" }
    none (@Option.some_get _ (machine.run init (before ++ [.destroy 1])) rfl).symm (Nat.zero_le 1)
    (fun claims member => by simpa [before, acceptedId] using member) (by simp [acceptedId])
    before (.destroy 1) [] _ rfl (@Option.some_get _ (machine.run init before) rfl).symm
  have erased := leaves rfl _ (@Option.some_get _ (machine.step _ (.destroy 1)) rfl).symm
  cases erased

/-- A connection without an `Authorization` field comes and goes while user 7 is online. -/
theorem foreign_connection_harmless :
    machine.Allowed (LeavesEntry 1 7) init
      [.connect 0, .doAccept 0 (some 7), .connect 3, .doAccept 1 none, .resetPtr 1, .destroy 1] ↔
    machine.Allowed (NoChanceId 0 1 7) init
      [.connect 0, .doAccept 0 (some 7), .connect 3, .doAccept 1 none, .resetPtr 1, .destroy 1] :=
  @foreign_connection_iff 7 1 init _ _
    { decode := fun _ => .error "invalid token supplied", encode := fun _ _ => "", hs256 := fun _ _ => "" }
    none (@Option.some_get _ (machine.run init _) rfl).symm (Nat.zero_le 1)
    (fun claims member => by simpa [acceptedId] using member) (by simp [acceptedId])

end WSSessionMgr

end TinyChat.Core
