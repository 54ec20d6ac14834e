import Mathlib.Logic.Basic

/-! The enumerations of `utils/enums.hpp`; `code` is `static_cast<int>`. -/
namespace TinyChat.Utils

inductive StatusCode where
  | success
  | forbidden
  | badRequest
  | notFound
  | internalServerError
  | loginFailed
  | regFailed
  | userNotFound
  | incorrectPwd
  | createRoomFailed
  deriving DecidableEq

def StatusCode.code : StatusCode → Int
  | success => 0
  | forbidden => 403
  | badRequest => 400
  | notFound => 404
  | internalServerError => 500
  | loginFailed => 1001
  | regFailed => 1002
  | userNotFound => 1003
  | incorrectPwd => 1004
  | createRoomFailed => 2001

inductive RoomType where
  | group
  | privateRoom
  deriving DecidableEq

def RoomType.code : RoomType → Int
  | group => 1
  | privateRoom => 2

inductive GroupRole where
  | owner
  | admin
  | member
  | privateMember
  deriving DecidableEq

def GroupRole.code : GroupRole → Int
  | owner => 3
  | admin => 2
  | member => 1
  | privateMember => 0

inductive ServerRespType where
  | msgSentInfo
  | pMsgToSend
  | gMsgToSend
  | permissionDenied
  deriving DecidableEq

def ServerRespType.code : ServerRespType → Int
  | msgSentInfo => 1
  | pMsgToSend => 2
  | gMsgToSend => 3
  | permissionDenied => 4

end TinyChat.Utils
