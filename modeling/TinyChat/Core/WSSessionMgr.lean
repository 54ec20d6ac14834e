import TinyChat.Transition.Machine
import Mathlib.Logic.Function.Basic

/-! `core/ws_session_mgr.cpp` together with the life of the `WebsocketSession` objects:
the registry holds weak pointers under the id of a user, and the destructor of a
session erases by that id. -/
namespace TinyChat.Core

open TinyChat.Transition

/-- A `WebsocketSession` object. -/
structure WebsocketSession where
  /-- `user_claims_.id`, indeterminate until `auth_user` assigns it. -/
  userClaimsId : UInt64
  /-- The `shared_ptr`s to the object, those inside pending handlers included. -/
  useCount : Nat
  accepted : Bool
  /-- `~WebsocketSession` is done. -/
  destroyed : Bool

/-- The registry and all session objects ever made; an object is named by its place
among them. -/
structure WSSessionMgr where
  sessions : UInt64 → Option Nat
  objects : List WebsocketSession
  /-- The messages given to `send`, with the session that posts them. -/
  posted : List (Nat × String)

inductive Action where
  /-- An upgrade request makes a session; its user id is whatever was in memory. -/
  | connect (indeterminate : UInt64)
  /-- `do_accept` with the user id of the token, if the token is accepted. -/
  | doAccept (session : Nat) (claims : Option UInt64)
  | copyPtr (session : Nat)
  | resetPtr (session : Nat)
  | destroy (session : Nat)
  | writeTo (user : UInt64) (msg : String)
  /-- With the members of the room that the database returned. -/
  | writeToRoom (usersInGroup : List UInt64) (msg : String)

namespace WSSessionMgr

def init : WSSessionMgr := { sessions := fun _ => none, objects := [], posted := [] }

/-- A `weak_ptr` to the session can be locked. -/
def alive (mgr : WSSessionMgr) (session : Nat) : Bool :=
  mgr.objects[session]?.any fun object => 0 < object.useCount

def modifyObject (mgr : WSSessionMgr) (session : Nat)
    (change : WebsocketSession → WebsocketSession) : WSSessionMgr :=
  { mgr with objects := mgr.objects.modify session change }

def addSession (user : UInt64) (session : Nat) (mgr : WSSessionMgr) : WSSessionMgr :=
  { mgr with sessions := Function.update mgr.sessions user (some session) }

def removeSession (user : UInt64) (mgr : WSSessionMgr) : WSSessionMgr :=
  { mgr with sessions := Function.update mgr.sessions user none }

/-- Look a user up and lock the session; an expired entry is erased. -/
def lockSession (user : UInt64) (mgr : WSSessionMgr) : WSSessionMgr × Option Nat :=
  match mgr.sessions user with
  | none => (mgr, none)
  | some session =>
    if mgr.alive session then (mgr, some session) else (mgr.removeSession user, none)

/-- The posted handler holds a pointer to the session. -/
def send (msg : String) (mgr : WSSessionMgr) (session : Nat) : WSSessionMgr :=
  { mgr.modifyObject session (fun object => { object with useCount := object.useCount + 1 }) with
    posted := mgr.posted ++ [(session, msg)] }

def writeTo (user : UInt64) (msg : String) (mgr : WSSessionMgr) : WSSessionMgr :=
  match mgr.lockSession user with
  | (locked, some session) => locked.send msg session
  | (locked, none) => locked

/-- The locked loop of `write_to_room` over the members. -/
def onlineUsers : List UInt64 → WSSessionMgr → WSSessionMgr × List Nat
  | [], mgr => (mgr, [])
  | user :: rest, mgr =>
    let (locked, found) := mgr.lockSession user
    let (last, online) := onlineUsers rest locked
    (last, found.toList ++ online)

def writeToRoom (usersInGroup : List UInt64) (msg : String) (mgr : WSSessionMgr) : WSSessionMgr :=
  let (locked, online) := mgr.onlineUsers usersInGroup
  online.foldl (send msg) locked

/-- `auth_user` for an accepted token; otherwise `do_accept` returns early. -/
def doAccept (session : Nat) (claims : Option UInt64) (mgr : WSSessionMgr) : WSSessionMgr :=
  match claims with
  | some user =>
    (mgr.modifyObject session fun object =>
      { object with userClaimsId := user, accepted := true }).addSession user session
  | none => mgr.modifyObject session fun object => { object with accepted := true }

def step (mgr : WSSessionMgr) : Action → Option WSSessionMgr
  | .connect indeterminate =>
    some { mgr with objects := mgr.objects ++
      [{ userClaimsId := indeterminate, useCount := 1, accepted := false, destroyed := false }] }
  | .doAccept session claims =>
    mgr.objects[session]?.bind fun object =>
      if 0 < object.useCount ∧ object.accepted = false then some (mgr.doAccept session claims)
      else none
  | .copyPtr session =>
    if mgr.alive session then
      some (mgr.modifyObject session fun object => { object with useCount := object.useCount + 1 })
    else none
  | .resetPtr session =>
    if mgr.alive session then
      some (mgr.modifyObject session fun object => { object with useCount := object.useCount - 1 })
    else none
  | .destroy session =>
    mgr.objects[session]?.bind fun object =>
      if object.useCount = 0 ∧ object.destroyed = false then
        some ((mgr.modifyObject session fun object =>
          { object with destroyed := true }).removeSession object.userClaimsId)
      else none
  | .writeTo user msg => some (mgr.writeTo user msg)
  | .writeToRoom usersInGroup msg => some (mgr.writeToRoom usersInGroup msg)

def machine : Machine WSSessionMgr Action := ⟨step⟩

variable {mgr next : WSSessionMgr} {user other : UInt64} {session index : Nat}

@[simp] theorem addSession_same : (mgr.addSession user session).sessions user = some session := by
  simp [addSession]

theorem addSession_other (different : other ≠ user) :
    (mgr.addSession user session).sessions other = mgr.sessions other := by
  simp [addSession, different]

@[simp] theorem removeSession_same : (mgr.removeSession user).sessions user = none := by
  simp [removeSession]

theorem removeSession_other (different : other ≠ user) :
    (mgr.removeSession user).sessions other = mgr.sessions other := by
  simp [removeSession, different]

@[simp] theorem removeSession_alive : (mgr.removeSession user).alive index = mgr.alive index := rfl

theorem alive_iff : mgr.alive session = true ↔
    ∃ object, mgr.objects[session]? = some object ∧ 0 < object.useCount := by
  simp [alive, Option.any_eq_true]

/-- A change that keeps every use count positive or zero keeps who is alive. -/
theorem modifyObject_alive {change : WebsocketSession → WebsocketSession}
    (kept : ∀ object, mgr.objects[session]? = some object →
      (0 < (change object).useCount ↔ 0 < object.useCount)) :
    (mgr.modifyObject session change).alive index = mgr.alive index := by
  unfold alive modifyObject
  rw [List.getElem?_modify]
  cases found : mgr.objects[index]? with
  | none => rfl
  | some object =>
    by_cases same : session = index
    · subst same
      simpa using kept object found
    · simp [same]

/-- Everything a step can do. -/
inductive Steps (mgr : WSSessionMgr) : Action → WSSessionMgr → Prop where
  | connected (indeterminate : UInt64) : Steps mgr (.connect indeterminate)
      { mgr with objects := mgr.objects ++
        [{ userClaimsId := indeterminate, useCount := 1, accepted := false, destroyed := false }] }
  | accepted (session : Nat) (claims : Option UInt64) (object : WebsocketSession)
      (found : mgr.objects[session]? = some object) (held : 0 < object.useCount) :
      Steps mgr (.doAccept session claims) (mgr.doAccept session claims)
  | copied (session : Nat) (held : mgr.alive session = true) : Steps mgr (.copyPtr session)
      (mgr.modifyObject session fun object => { object with useCount := object.useCount + 1 })
  | reset (session : Nat) (held : mgr.alive session = true) : Steps mgr (.resetPtr session)
      (mgr.modifyObject session fun object => { object with useCount := object.useCount - 1 })
  | destroyed (session : Nat) (object : WebsocketSession)
      (found : mgr.objects[session]? = some object) (expired : object.useCount = 0) : Steps mgr (.destroy session)
      ((mgr.modifyObject session fun object =>
        { object with destroyed := true }).removeSession object.userClaimsId)
  | wrote (user : UInt64) (msg : String) : Steps mgr (.writeTo user msg) (mgr.writeTo user msg)
  | wroteToRoom (usersInGroup : List UInt64) (msg : String) :
      Steps mgr (.writeToRoom usersInGroup msg) (mgr.writeToRoom usersInGroup msg)

theorem steps_of_step {action : Action} (taken : machine.step mgr action = some next) :
    Steps mgr action next := by
  cases action with
  | connect indeterminate =>
    cases taken
    exact .connected indeterminate
  | doAccept session claims =>
    obtain ⟨object, found, inside⟩ := Option.bind_eq_some_iff.mp taken
    split at inside
    · rename_i enabled
      cases inside
      exact .accepted session claims object found enabled.1
    · cases inside
  | copyPtr session =>
    simp only [machine, step] at taken
    split at taken
    · rename_i held
      cases taken
      exact .copied session held
    · cases taken
  | resetPtr session =>
    simp only [machine, step] at taken
    split at taken
    · rename_i held
      cases taken
      exact .reset session held
    · cases taken
  | destroy session =>
    obtain ⟨object, found, inside⟩ := Option.bind_eq_some_iff.mp taken
    split at inside
    · rename_i enabled
      cases inside
      exact .destroyed session object found enabled.1
    · cases inside
  | writeTo user msg =>
    cases taken
    exact .wrote user msg
  | writeToRoom usersInGroup msg =>
    cases taken
    exact .wroteToRoom usersInGroup msg

end WSSessionMgr

end TinyChat.Core
