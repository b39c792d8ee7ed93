import ChatService.Foundation.Bytes
import Mathlib.Logic.Function.Basic

/-!
# The call state of the web client (`web-client/app.js`)

What the browser keeps about its call, the messages it exchanges about it, and the functions of `app.js`
that end a call.  The client is logged in and its socket is open.  What is only shown on the page (status
texts, buttons, the users list) is left out.

The web client runs one event handler at a time.  An asynchronous function runs up to its first `await`
and leaves a `Task` behind, which the browser resumes when the promise is settled.
-/

namespace ChatService

/-! ### Messages -/

/-- The messages about calls that clients send, and that the server passes on. -/
inductive CallType where
  | invite
  | accept
  | reject
  | cancel
  | hangup
  | timeout
  | offer
  | answer
  | candidate
deriving DecidableEq, Repr

/-- `SERVER_TYPES`. -/
def CallType.name : CallType → Bytes
  | invite => ascii "call_invite"
  | accept => ascii "call_accept"
  | reject => ascii "call_reject"
  | cancel => ascii "call_cancel"
  | hangup => ascii "call_hangup"
  | timeout => ascii "call_timeout"
  | offer => ascii "webrtc_offer"
  | answer => ascii "webrtc_answer"
  | candidate => ascii "ice_candidate"

/-- What a client sends: `sendMessage(type, { to, call_id, … })`, where the last field is `media`,
`reason`, `sdp` or `candidate`. -/
structure ClientMessage where
  type : CallType
  target : Bytes
  callId : Bytes
  payload : Bytes
deriving DecidableEq

/-- The types of what a client receives about calls. -/
inductive NoticeType where
  | event (type : CallType)
  | busy
  | error
deriving DecidableEq, Repr

/-- What a client reads of a message about a call.  The reason is only shown to the user. -/
structure ServerMessage where
  type : NoticeType
  sender : Bytes
  callId : Bytes
  candidate : Bytes
deriving DecidableEq

/-! ### State -/

/-- `CALL_PHASE`. -/
inductive CallPhase where
  | idle
  | outgoing
  | incoming
  | connecting
  | inCall
  | finished
deriving DecidableEq, Repr

inductive CallDirection where
  | none
  | outgoing
  | incoming
deriving DecidableEq, Repr

/-- A pending timer, with the call id in its closure: nobody answers, or no media connection comes
about. -/
inductive CallTimer where
  | noAnswer (callId : Bytes)
  | noMedia (callId : Bytes)
deriving DecidableEq

/-- What the client reads of an `RTCPeerConnection` that is not closed. -/
structure PeerConnection where
  remoteDescription : Bool
deriving DecidableEq

/-- A `WebRtcCall`.  Of the candidates that wait for a remote description only their number matters
here. -/
structure WebRtcCall where
  peerConnection : Option PeerConnection
  localStream : Bool
  pendingIceCandidates : ℕ
  closing : Bool
deriving DecidableEq

/-- What `close` leaves of a `WebRtcCall`. -/
def WebRtcCall.closed : WebRtcCall := ⟨none, false, 0, true⟩

/-- What comes after `prepareMedia`. -/
inductive MediaNext where
  | acceptIncomingCall
  | startAsCaller
  | receiveOffer
deriving DecidableEq

/-- What comes after `flushPendingIceCandidates`. -/
inductive FlushNext where
  | receiveOffer
  | receiveAnswer
deriving DecidableEq

/-- The promises that are awaited, with what comes after them. -/
inductive AwaitedPromise where
  | getUserMedia (next : MediaNext)
  | createOffer
  | setLocalOffer
  | setRemoteOffer
  | flushCandidate (rest : ℕ) (next : FlushNext)
  | createAnswer
  | setLocalAnswer
  | setRemoteAnswer
  | addIceCandidate
deriving DecidableEq

/-- An asynchronous function that waits: its `this`, the call id when it was called, and the promise.
Only `acceptIncomingCall` reads the call id again. -/
structure Task where
  webrtc : ℕ
  callId : Bytes
  awaited : AwaitedPromise
deriving DecidableEq

/-- `state.call`; a `WebRtcCall` is known by its number. -/
structure ClientCall where
  phase : CallPhase
  callId : Bytes
  peer : Bytes
  direction : CallDirection
  timeoutId : Option CallTimer
  webrtc : Option ℕ
deriving DecidableEq

/-- A client, with the `WebRtcCall`s it has made so far, the asynchronous functions that wait, and the
messages that it has sent and the server has not yet read. -/
structure WebClient where
  username : Bytes
  call : ClientCall
  webrtcs : ℕ → WebRtcCall
  made : ℕ
  tasks : List Task
  sent : List ClientMessage

namespace WebClient

/-- A client that has just logged in. -/
def loggedIn (username : Bytes) : WebClient where
  username := username
  call := ⟨.idle, [], [], .none, none, none⟩
  webrtcs := fun _ => .closed
  made := 0
  tasks := []
  sent := []

def withCall (c : WebClient) (call : ClientCall) : WebClient := { c with call := call }

def withPhase (c : WebClient) (phase : CallPhase) : WebClient :=
  c.withCall { c.call with phase := phase }

def withWebRtc (c : WebClient) (w : ℕ) (value : WebRtcCall) : WebClient :=
  { c with webrtcs := Function.update c.webrtcs w value }

/-! ### Sending -/

/-- `sendMessage`: the socket is open. -/
def sendMessage (c : WebClient) (message : ClientMessage) : WebClient :=
  { c with sent := c.sent ++ [message] }

/-- `sendCurrentCallMessage`, which answers whether there was a call to send about. -/
def sendCurrentCallMessage (c : WebClient) (type : CallType) (payload : Bytes) : Bool × WebClient :=
  if c.call.callId = [] ∨ c.call.peer = [] then (false, c)
  else (true, c.sendMessage ⟨type, c.call.peer, c.call.callId, payload⟩)

/-! ### Ending a call -/

def hasCurrentCall (c : WebClient) : Bool := c.call.phase ≠ .idle ∧ c.call.phase ≠ .finished

def clearCallTimeout (c : WebClient) : WebClient := c.withCall { c.call with timeoutId := none }

/-- `WebRtcCall.close`. -/
def close (c : WebClient) (w : ℕ) : WebClient := c.withWebRtc w .closed

def cleanupWebRtc (c : WebClient) : WebClient :=
  match c.call.webrtc with
  | none => c
  | some w => (c.close w).withCall { c.call with webrtc := none }

def resetCallState (c : WebClient) : WebClient :=
  let c := c.clearCallTimeout.cleanupWebRtc
  c.withCall { c.call with phase := .idle, callId := [], peer := [], direction := .none }

def finishCall (c : WebClient) : WebClient := c.clearCallTimeout.cleanupWebRtc.withPhase .finished

def handleLocalCallFailure (c : WebClient) : WebClient :=
  if c.hasCurrentCall = false then c
  else
    let c :=
      if c.call.phase = .incoming then (c.sendCurrentCallMessage .reject (ascii "media_unavailable")).2
      else if c.call.phase = .connecting ∨ c.call.phase = .inCall then
        (c.sendCurrentCallMessage .hangup []).2
      else (c.sendCurrentCallMessage .cancel []).2
    c.finishCall

/-! ### Timers -/

def startMediaConnectionTimeout (c : WebClient) : WebClient :=
  c.withCall { c.clearCallTimeout.call with timeoutId := some (.noMedia c.call.callId) }

/-- The pending timer fires. -/
def fireTimeout (c : WebClient) : WebClient :=
  match c.call.timeoutId with
  | none => c
  | some (.noAnswer callId) =>
    let c := c.clearCallTimeout
    if c.call.phase = .outgoing ∧ c.call.callId = callId then
      (c.sendCurrentCallMessage .timeout []).2.finishCall
    else c
  | some (.noMedia callId) =>
    let c := c.clearCallTimeout
    if c.call.phase = .connecting ∧ c.call.callId = callId then
      (c.sendCurrentCallMessage .hangup []).2.finishCall
    else c

end WebClient

end ChatService
