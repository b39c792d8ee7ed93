import ChatService.Foundation.Bytes
import ChatService.Foundation.Tables

/-!
# `CallManager`: who is in which call (`server/CallManager.cc`)

Two maps describe the calls: `users` gives each busy user a state, a call id and a peer, `calls` gives
each call id its caller, its callee and whether it was accepted.  A user without an entry is idle.

Every public method runs under the manager's lock, so each one is a function on the whole manager; it
returns the text the source stores in `*errorReason`, or `none` when the source returns `true`.
-/

namespace ChatService

inductive CallUserState where
  | idle
  | calling
  | ringing
  | inCall
deriving DecidableEq, Repr

structure UserCall where
  state : CallUserState
  callId : Bytes
  peer : Bytes
deriving DecidableEq, Repr

structure CallRecord where
  caller : Bytes
  callee : Bytes
  accepted : Bool
deriving DecidableEq, Repr

structure CallDisconnectEvent where
  callId : Bytes
  peer : Bytes
  disconnectedState : CallUserState
deriving DecidableEq, Repr

structure CallManager where
  users : Std.ExtTreeMap Bytes UserCall compare
  calls : Std.ExtTreeMap Bytes CallRecord compare
deriving DecidableEq

namespace CallManager

def empty : CallManager := ⟨∅, ∅⟩

def startCall (m : CallManager) (caller callee callId : Bytes) : Option Bytes × CallManager :=
  if m.users[caller]?.isSome then (some (ascii "caller_busy"), m)
  else if m.users[callee]?.isSome then (some (ascii "target_busy"), m)
  else if m.calls[callId]?.isSome then (some (ascii "duplicate_call_id"), m)
  else
    (none,
      { users := (m.users.insert caller ⟨.calling, callId, callee⟩).insert callee
          ⟨.ringing, callId, caller⟩
        calls := m.calls.insert callId ⟨caller, callee, false⟩ })

def acceptCall (m : CallManager) (callee caller callId : Bytes) : Option Bytes × CallManager :=
  match m.users[callee]?, m.users[caller]?, m.calls[callId]? with
  | some calleeIt, some callerIt, some callIt =>
    if calleeIt.state ≠ .ringing ∨ callerIt.state ≠ .calling ∨ calleeIt.callId ≠ callId ∨
        callerIt.callId ≠ callId ∨ calleeIt.peer ≠ caller ∨ callerIt.peer ≠ callee ∨
        callIt.caller ≠ caller ∨ callIt.callee ≠ callee ∨ callIt.accepted then
      (some (ascii "invalid_pending_call"), m)
    else
      (none,
        { users := (m.users.insert callee { calleeIt with state := .inCall }).insert caller
            { callerIt with state := .inCall }
          calls := m.calls.insert callId { callIt with accepted := true } })
  | _, _, _ => (some (ascii "invalid_pending_call"), m)

def eraseCallLocked (m : CallManager) (callId : Bytes) : CallManager :=
  match m.calls[callId]? with
  | none => m
  | some callIt =>
    { users := (m.users.erase callIt.caller).erase callIt.callee
      calls := m.calls.erase callId }

def finishPendingCall (m : CallManager) (username peer callId : Bytes)
    (expectedState : CallUserState) (expectCaller : Bool) : Option Bytes × CallManager :=
  match m.users[username]?, m.users[peer]?, m.calls[callId]? with
  | some userIt, some peerIt, some callIt =>
    if userIt.state ≠ expectedState ∨ userIt.callId ≠ callId ∨ peerIt.callId ≠ callId ∨
        userIt.peer ≠ peer ∨ peerIt.peer ≠ username ∨ callIt.accepted ∨
        (expectCaller ∧ callIt.caller ≠ username) ∨ (¬ expectCaller ∧ callIt.callee ≠ username) then
      (some (ascii "invalid_pending_call"), m)
    else (none, m.eraseCallLocked callId)
  | _, _, _ => (some (ascii "invalid_pending_call"), m)

def rejectCall (m : CallManager) (callee caller callId : Bytes) : Option Bytes × CallManager :=
  m.finishPendingCall callee caller callId .ringing false

def cancelCall (m : CallManager) (caller callee callId : Bytes) : Option Bytes × CallManager :=
  m.finishPendingCall caller callee callId .calling true

def timeoutCall (m : CallManager) (caller callee callId : Bytes) : Option Bytes × CallManager :=
  m.finishPendingCall caller callee callId .calling true

/-- The guard that `hangupCall` and `validateSignaling` share: both users are in the accepted call
`callId`, with each other. -/
def inSameActiveCall (m : CallManager) (username peer callId : Bytes) : Option CallRecord :=
  match m.users[username]?, m.users[peer]?, m.calls[callId]? with
  | some userIt, some peerIt, some callIt =>
    if userIt.state ≠ .inCall ∨ peerIt.state ≠ .inCall ∨ userIt.callId ≠ callId ∨
        peerIt.callId ≠ callId ∨ userIt.peer ≠ peer ∨ peerIt.peer ≠ username ∨ ¬ callIt.accepted then
      none
    else some callIt
  | _, _, _ => none

def hangupCall (m : CallManager) (username peer callId : Bytes) : Option Bytes × CallManager :=
  match m.inSameActiveCall username peer callId with
  | none => (some (ascii "invalid_active_call"), m)
  | some _ => (none, m.eraseCallLocked callId)

def validateSignaling (m : CallManager) (username peer callId type : Bytes) : Option Bytes :=
  match m.inSameActiveCall username peer callId with
  | none => some (ascii "not_in_same_active_call")
  | some callIt =>
    if type = ascii "webrtc_offer" ∧ callIt.caller ≠ username then
      some (ascii "only_caller_can_offer")
    else if type = ascii "webrtc_answer" ∧ callIt.callee ≠ username then
      some (ascii "only_callee_can_answer")
    else none

def removeUser (m : CallManager) (username : Bytes) : Option CallDisconnectEvent × CallManager :=
  match m.users[username]? with
  | none => (none, m)
  | some userIt =>
    (some ⟨userIt.callId, userIt.peer, userIt.state⟩, m.eraseCallLocked userIt.callId)

def stateForUser (m : CallManager) (username : Bytes) : CallUserState :=
  match m.users[username]? with
  | none => .idle
  | some it => it.state

end CallManager

end ChatService
