import TinyChat.Core.WSSessionMgr

namespace TinyChat.Core

open TinyChat.Transition

namespace WSSessionMgr

/-- Who is alive does not change, and no entry of a live session goes. -/
structure Keeps (before after : WSSessionMgr) : Prop where
  length : after.objects.length = before.objects.length
  alive : ∀ session, after.alive session = before.alive session
  entries : ∀ user session, before.sessions user = some session → before.alive session = true →
    after.sessions user = some session

variable {mgr next middle : WSSessionMgr} {user : UInt64} {session : Nat}

theorem Keeps.refl (mgr : WSSessionMgr) : Keeps mgr mgr := ⟨rfl, fun _ => rfl, fun _ _ same _ => same⟩

theorem Keeps.trans (first : Keeps mgr middle) (second : Keeps middle next) : Keeps mgr next := by
  refine ⟨second.length.trans first.length,
    fun session => (second.alive session).trans (first.alive session), ?_⟩
  intro user session registered alive
  exact second.entries user session (first.entries user session registered alive)
    ((first.alive session).trans alive)

theorem lockSession_keeps (user : UInt64) (mgr : WSSessionMgr) :
    Keeps mgr (mgr.lockSession user).1 := by
  unfold lockSession
  split
  · exact .refl mgr
  · rename_i expired registered
    split
    · exact .refl mgr
    · rename_i dead
      refine ⟨rfl, fun _ => removeSession_alive, fun other session entry alive => ?_⟩
      rw [removeSession_other]
      · exact entry
      · intro same
        rw [same, registered] at entry
        cases entry
        exact dead alive

theorem lockSession_alive {found : Nat} (locked : (mgr.lockSession user).2 = some found) :
    mgr.alive found = true := by
  unfold lockSession at locked
  split at locked
  · cases locked
  · split at locked
    · rename_i alive
      cases locked
      exact alive
    · cases locked

theorem send_keeps (msg : String) (alive : mgr.alive session = true) :
    Keeps mgr (mgr.send msg session) := by
  obtain ⟨object, found, positive⟩ := alive_iff.mp alive
  refine ⟨List.length_modify .., fun index => modifyObject_alive fun other same => ?_,
    fun _ _ registered _ => registered⟩
  cases found.symm.trans same
  exact iff_of_true (Nat.succ_pos _) positive

theorem writeTo_keeps (user : UInt64) (msg : String) (mgr : WSSessionMgr) :
    Keeps mgr (mgr.writeTo user msg) := by
  have kept := lockSession_keeps user mgr
  have alive := @lockSession_alive mgr user
  unfold writeTo
  split
  · rename_i locked session same
    rw [same] at kept alive
    exact kept.trans (send_keeps msg ((kept.alive session).trans (alive rfl)))
  · rename_i locked same
    rw [same] at kept
    exact kept

theorem onlineUsers_keeps (users : List UInt64) (mgr : WSSessionMgr) :
    Keeps mgr (mgr.onlineUsers users).1 ∧
      ∀ session ∈ (mgr.onlineUsers users).2, mgr.alive session = true := by
  induction users generalizing mgr with
  | nil => exact ⟨.refl mgr, by simp [onlineUsers]⟩
  | cons user rest ih =>
    obtain ⟨later, online⟩ := ih (mgr.lockSession user).1
    have first := lockSession_keeps user mgr
    refine ⟨first.trans later, fun session member => ?_⟩
    rcases List.mem_append.mp member with found | other
    · exact lockSession_alive (Option.mem_toList.mp found)
    · exact (first.alive session).symm.trans (online session other)

theorem sends_keep (msg : String) (online : List Nat) (mgr : WSSessionMgr)
    (alive : ∀ session ∈ online, mgr.alive session = true) :
    Keeps mgr (online.foldl (send msg) mgr) := by
  induction online generalizing mgr with
  | nil => exact .refl mgr
  | cons session rest ih =>
    have first := send_keeps msg (alive session (by simp))
    exact first.trans (ih _ fun other member =>
      (first.alive other).trans (alive other (by simp [member])))

theorem writeToRoom_keeps (users : List UInt64) (msg : String) (mgr : WSSessionMgr) :
    Keeps mgr (mgr.writeToRoom users msg) := by
  obtain ⟨kept, alive⟩ := onlineUsers_keeps users mgr
  exact kept.trans (sends_keep msg _ _ fun session member =>
    (kept.alive session).trans (alive session member))

/-- What a registration is after one more action. -/
def registers (last : UInt64 → Option Nat) : Action → UInt64 → Option Nat
  | .doAccept session (some user) => Function.update last user (some session)
  | _ => last

/-- The session most recently registered for a user id. -/
def lastRegistered (past : List Action) : UInt64 → Option Nat :=
  past.foldl registers fun _ => none

@[simp] theorem lastRegistered_snoc (past : List Action) (action : Action) :
    lastRegistered (past ++ [action]) = registers (lastRegistered past) action := by
  simp [lastRegistered]

/-- Every user whose latest session is alive is registered with that session, and
`write_to` reaches it. -/
def LatestReached (past : List Action) (mgr : WSSessionMgr) : Prop :=
  ∀ user session, lastRegistered past user = some session → mgr.alive session = true →
    mgr.sessions user = some session ∧
      ∀ msg, (mgr.writeTo user msg).posted = mgr.posted ++ [(session, msg)]

/-- No session is destroyed while a more recent session registered for the user id it
holds is alive. -/
def SparesLatest (past : List Action) (mgr : WSSessionMgr) (action : Action) : Prop :=
  ∀ session object latest, action = .destroy session → mgr.objects[session]? = some object →
    lastRegistered past object.userClaimsId = some latest → mgr.alive latest = false

theorem writeTo_posted (msg : String) (registered : mgr.sessions user = some session)
    (alive : mgr.alive session = true) :
    (mgr.writeTo user msg).posted = mgr.posted ++ [(session, msg)] := by
  simp [writeTo, lockSession, registered, alive, send, modifyObject]

variable {past : List Action}

theorem latestReached_iff : LatestReached past mgr ↔
    ∀ user session, lastRegistered past user = some session → mgr.alive session = true →
      mgr.sessions user = some session :=
  forall₄_congr fun _ _ _ alive =>
    ⟨And.left, fun entry => ⟨entry, fun msg => writeTo_posted msg entry alive⟩⟩

/-- What revives no session and keeps the live entries keeps the latest sessions. -/
theorem LatestReached.move (reached : LatestReached past mgr)
    (alive : ∀ user session, lastRegistered past user = some session →
      next.alive session = true → mgr.alive session = true)
    (entries : ∀ user session, mgr.sessions user = some session → mgr.alive session = true →
      next.sessions user = some session) : LatestReached past next := by
  refine latestReached_iff.mpr fun user session registered living => ?_
  have before := alive user session registered living
  exact entries user session (reached user session registered before).1 before

theorem LatestReached.keeps (reached : LatestReached past mgr) (kept : Keeps mgr next) :
    LatestReached past next :=
  reached.move (fun _ session _ alive => (kept.alive session).symm.trans alive) kept.entries

/-- Every session registered so far exists. -/
def RegisteredExist (past : List Action) (mgr : WSSessionMgr) : Prop :=
  ∀ user session, lastRegistered past user = some session → session < mgr.objects.length

theorem registers_doAccept_same (last : UInt64 → Option Nat) (session : Nat) (user : UInt64) :
    registers last (.doAccept session (some user)) user = some session := by
  simp [registers]

theorem registers_doAccept_other {last : UInt64 → Option Nat} {session : Nat} {user other : UInt64}
    (different : other ≠ user) :
    registers last (.doAccept session (some user)) other = last other := by
  simp [registers, different]

theorem Steps.length {action : Action} (moved : Steps mgr action next) :
    mgr.objects.length ≤ next.objects.length := by
  cases moved with
  | connected indeterminate => simp
  | accepted session claims object found held => cases claims <;> simp [doAccept, addSession, modifyObject]
  | copied | reset => simp [modifyObject]
  | destroyed => simp [removeSession, modifyObject]
  | wrote user msg => exact Nat.le_of_eq (writeTo_keeps user msg mgr).length.symm
  | wroteToRoom users msg => exact Nat.le_of_eq (writeToRoom_keeps users msg mgr).length.symm

theorem registeredExist_of_run (ran : machine.run init past = some mgr) :
    RegisteredExist past mgr := by
  refine Machine.run_induction (motive := RegisteredExist) ran (by intro user session none; cases none) ?_
  intro earlier state action after reached exist taken user session registered
  have moved := steps_of_step taken
  have longer := moved.length
  rw [lastRegistered_snoc] at registered
  have kept (same : registers (lastRegistered earlier) action user = lastRegistered earlier user) :
      session < after.objects.length :=
    Nat.lt_of_lt_of_le (exist user session (same ▸ registered)) longer
  cases moved with
  | accepted index claims object found held =>
    cases claims with
    | none => exact kept rfl
    | some claimed =>
      by_cases same : user = claimed
      · subst same
        rw [registers_doAccept_same] at registered
        cases registered
        exact Nat.lt_of_lt_of_le (List.getElem?_eq_some_iff.mp found).1 longer
      · exact kept (registers_doAccept_other same)
  | _ => exact kept rfl

/-- A session that loses its last pointer is no longer the latest live one. -/
theorem modifyObject_alive_of_le {change : WebsocketSession → WebsocketSession} {index : Nat}
    (fewer : ∀ object, 0 < (change object).useCount → 0 < object.useCount)
    (alive : (mgr.modifyObject session change).alive index = true) : mgr.alive index = true := by
  obtain ⟨object, found, positive⟩ := alive_iff.mp alive
  simp only [modifyObject, List.getElem?_modify] at found
  obtain ⟨before, same, changed⟩ := Option.map_eq_some_iff.mp found
  refine alive_iff.mpr ⟨before, same, ?_⟩
  split at changed
  · exact fewer before (changed ▸ positive)
  · exact changed ▸ positive

/-- Every step but the destruction of an object keeps the latest sessions. -/
theorem LatestReached.step {action : Action} (reached : LatestReached past mgr)
    (exist : RegisteredExist past mgr) (moved : Steps mgr action next)
    (spared : ∀ session, action ≠ .destroy session) : LatestReached (past ++ [action]) next := by
  have same (keeps : LatestReached past next)
      (registers : registers (lastRegistered past) action = lastRegistered past) :
      LatestReached (past ++ [action]) next := by
    unfold LatestReached
    rw [lastRegistered_snoc, registers]
    exact keeps
  cases moved with
  | connected indeterminate =>
    refine same (reached.move (fun user session registered alive => ?_) fun _ _ entry _ => entry) rfl
    obtain ⟨object, found, positive⟩ := alive_iff.mp alive
    rw [List.getElem?_append_left (exist user session registered)] at found
    exact alive_iff.mpr ⟨object, found, positive⟩
  | accepted index claims object found held =>
    cases claims with
    | none =>
      exact same (reached.move (fun _ _ _ => modifyObject_alive_of_le fun _ positive => positive)
        fun _ _ entry _ => entry) rfl
    | some claimed =>
      refine latestReached_iff.mpr fun user session registered alive => ?_
      rw [lastRegistered_snoc] at registered
      by_cases own : user = claimed
      · subst own
        rw [registers_doAccept_same] at registered
        cases registered
        exact addSession_same
      · rw [registers_doAccept_other own] at registered
        have before : mgr.alive session = true :=
          @modifyObject_alive_of_le mgr index (fun object =>
            { object with userClaimsId := claimed, accepted := true }) session
            (fun _ positive => positive) alive
        exact (addSession_other own).trans (reached user session registered before).1
  | copied index held =>
    refine same (reached.move (fun _ session _ alive => ?_) fun _ _ entry _ => entry) rfl
    obtain ⟨object, found, positive⟩ := alive_iff.mp held
    rwa [modifyObject_alive fun other there => by
      cases found.symm.trans there
      exact iff_of_true (Nat.succ_pos _) positive] at alive
  | reset index held =>
    exact same (reached.move (fun _ _ _ => modifyObject_alive_of_le fun object positive =>
      Nat.lt_of_lt_of_le positive (Nat.sub_le _ _)) fun _ _ entry _ => entry) rfl
  | destroyed index object found expired => exact absurd rfl (spared index)
  | wrote user msg => exact same (reached.keeps (writeTo_keeps user msg mgr)) rfl
  | wroteToRoom users msg => exact same (reached.keeps (writeToRoom_keeps users msg mgr)) rfl

/-- A destruction keeps the latest sessions exactly if the latest session of its user
id is not alive. -/
theorem LatestReached.destroy_iff {object : WebsocketSession} (reached : LatestReached past mgr)
    (found : mgr.objects[session]? = some object) :
    LatestReached (past ++ [.destroy session]) ((mgr.modifyObject session fun object =>
        { object with destroyed := true }).removeSession object.userClaimsId) ↔
      SparesLatest past mgr (.destroy session) := by
  have alive (index : Nat) : ((mgr.modifyObject session fun object =>
      { object with destroyed := true }).removeSession object.userClaimsId).alive index =
      mgr.alive index := modifyObject_alive fun _ _ => Iff.rfl
  rw [latestReached_iff, lastRegistered_snoc]
  constructor
  · -- The erased entry is the one a live latest session would have to be found under.
    rintro kept index other latest same there registered
    cases same
    cases found.symm.trans there
    by_contra living
    have entry := kept object.userClaimsId latest registered
      ((alive latest).trans (by simpa using living))
    rw [removeSession_same] at entry
    cases entry
  · intro spares user latest registered living
    have before := (alive latest).symm.trans living
    have different : user ≠ object.userClaimsId := fun same => by
      have dead := spares session object latest rfl found (same ▸ registered)
      rw [dead] at before
      cases before
    exact (removeSession_other different).trans (reached user latest registered before).1

theorem latestReached_step_iff {action : Action} (ran : machine.run init past = some mgr)
    (reached : LatestReached past mgr) (taken : machine.step mgr action = some next) :
    LatestReached (past ++ [action]) next ↔ SparesLatest past mgr action := by
  have moved := steps_of_step taken
  by_cases destroys : ∃ session, action = .destroy session
  · obtain ⟨session, same⟩ := destroys
    subst same
    cases moved with
    | destroyed _ object found expired => exact reached.destroy_iff found
  · refine iff_of_true (reached.step (registeredExist_of_run ran) moved fun session same =>
      destroys ⟨session, same⟩) fun session _ _ same _ _ => absurd ⟨session, same⟩ destroys

variable {actions : List Action}

/-- In every interleaving of upgrades, logins, pointer copies, destructions and writes:
in every state the session most recently registered for a user, while alive, is
the registered one and is reached, exactly if no session is destroyed while a more
recent one of the user id it holds is alive. -/
theorem latest_session_reached_iff (ran : machine.run init actions = some mgr) :
    machine.Throughout LatestReached init actions ↔
      machine.Allowed SparesLatest init actions :=
  Machine.throughout_iff_allowed ran (by intro user session none; cases none)
    fun _ _ _ _ before reached taken => latestReached_step_iff before reached taken

/-- User 7 logs in again before the first session is gone; its destructor erases the
second session. -/
theorem latest_session_erased :
    ¬ ∀ (actions : List Action) (mgr : WSSessionMgr), machine.run init actions = some mgr →
      machine.Throughout LatestReached init actions := by
  intro claimed
  let actions : List Action :=
    [.connect 0, .doAccept 0 (some 7), .connect 0, .doAccept 1 (some 7), .resetPtr 0, .destroy 0]
  have reached := claimed actions _ (@Option.some_get _ (machine.run init actions) rfl).symm
    actions [] _ (List.append_nil _) (@Option.some_get _ (machine.run init actions) rfl).symm
  have entry := (reached 7 1 rfl rfl).1
  cases entry

/-- A user logs in again after the first session is gone. -/
theorem latest_session_reached_relogin :
    let actions : List Action :=
      [.connect 0, .doAccept 0 (some 7), .resetPtr 0, .destroy 0, .connect 3, .doAccept 1 (some 7),
        .writeTo 7 "hello", .connect 7, .doAccept 2 none]
    machine.Throughout LatestReached init actions ↔ machine.Allowed SparesLatest init actions :=
  latest_session_reached_iff (@Option.some_get _ (machine.run init _) rfl).symm

end WSSessionMgr

end TinyChat.Core
