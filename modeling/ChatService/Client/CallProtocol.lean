import ChatService.Client.CallState

/-!
# What the web client does about calls (`web-client/webrtc.js` and `web-client/app.js`)

The asynchronous methods of `WebRtcCall` are cut at their `await`s: each piece runs without interruption
and may leave the rest behind as a `Task`.  `settle` resumes a task, whose promise the browser has
resolved or rejected.  An error that is thrown goes to the `catch` of the function that was called first,
which is `acceptIncomingCall` or `handleCallProtocolMessage`.
-/

namespace ChatService

open Byte

/-- The text of an object, which is what `JSON.stringify` makes of a description or a candidate. -/
structure ObjectText where
  text : Bytes
  brace : text.head? = some lbrace
deriving DecidableEq

/-- How the browser settles a promise: a rejection, or a value.  Only the local description, as it is
after `setLocalDescription`, is looked at. -/
inductive Settled where
  | rejected
  | resolved (description : ObjectText)
deriving DecidableEq

/-- The events of a peer connection that is not closed. -/
inductive ConnectionEvent where
  | icecandidate (candidate : ObjectText)
  | track
  | connected
  | failed
deriving DecidableEq

/-- What happens to a client, other than messages of the server. -/
inductive ClientInput where
  | startVideoCall (peer callId : Bytes)
  | acceptIncomingCall
  | rejectIncomingCall
  | cancelOutgoingCall
  | hangupActiveCall
  | dismissCall
  | timeout
  | settle (index : ℕ) (settled : Settled)
  | connection (w : ℕ) (event : ConnectionEvent)
deriving DecidableEq

namespace WebClient

/-! ### `WebRtcCall` -/

/-- The function waits for a promise. -/
def await (c : WebClient) (w : ℕ) (callId : Bytes) (awaited : AwaitedPromise) : WebClient :=
  { c with tasks := c.tasks ++ [⟨w, callId, awaited⟩] }

/-- A method of `this.peerConnection` is called; `null` has none. -/
def awaitPeerConnection (c : WebClient) (w : ℕ) (callId : Bytes) (awaited : AwaitedPromise) : WebClient :=
  if (c.webrtcs w).peerConnection = none then c.handleLocalCallFailure
  else c.await w callId awaited

/-- `onStatus`: only the text `Connected` changes the call. -/
def onConnected (c : WebClient) : WebClient :=
  if c.hasCurrentCall then c.clearCallTimeout.withPhase .inCall else c

/-- The callers of `prepareMedia`, after it has returned. -/
def mediaReady (c : WebClient) (w : ℕ) (callId : Bytes) : MediaNext → WebClient
  | .acceptIncomingCall =>
    if c.call.phase ≠ .incoming ∨ c.call.callId ≠ callId then c.cleanupWebRtc
    else
      let c := (c.withPhase .connecting).startMediaConnectionTimeout
      let (sent, c) := c.sendCurrentCallMessage .accept []
      if sent then c else c.finishCall
  | .startAsCaller => c.awaitPeerConnection w callId .createOffer
  | .receiveOffer => c.awaitPeerConnection w callId .setRemoteOffer

/-- The callers of `prepareMedia`, after it has thrown. -/
def mediaFailed (c : WebClient) (callId : Bytes) : MediaNext → WebClient
  | .acceptIncomingCall =>
    if c.call.phase = .incoming ∧ c.call.callId = callId then
      (c.sendCurrentCallMessage .reject (ascii "media_unavailable")).2.finishCall
    else c
  | .startAsCaller => c.handleLocalCallFailure
  | .receiveOffer => c.handleLocalCallFailure

/-- `prepareMedia`, up to `getUserMedia`. -/
def prepareMedia (c : WebClient) (w : ℕ) (callId : Bytes) (next : MediaNext) : WebClient :=
  if (c.webrtcs w).localStream = true ∧ (c.webrtcs w).peerConnection ≠ none then
    c.mediaReady w callId next
  else
    (c.withWebRtc w { c.webrtcs w with closing := false }).await w callId (.getUserMedia next)

/-- The rest of `prepareMedia`, when there is a stream. -/
def gotUserMedia (c : WebClient) (w : ℕ) (callId : Bytes) (next : MediaNext) : WebClient :=
  if (c.webrtcs w).closing = true then (c.close w).mediaFailed callId next
  else
    let peerConnection := ((c.webrtcs w).peerConnection).getD ⟨false⟩
    (c.withWebRtc w
      { c.webrtcs w with localStream := true, peerConnection := some peerConnection }).mediaReady
        w callId next

/-- The callers of `flushPendingIceCandidates`, after it has returned. -/
def flushed (c : WebClient) (w : ℕ) (callId : Bytes) : FlushNext → WebClient
  | .receiveOffer => c.awaitPeerConnection w callId .createAnswer
  | .receiveAnswer => c

/-- The loop of `flushPendingIceCandidates`. -/
def flushCandidates (c : WebClient) (w : ℕ) (callId : Bytes) (next : FlushNext) : ℕ → WebClient
  | 0 => c.flushed w callId next
  | rest + 1 => c.awaitPeerConnection w callId (.flushCandidate rest next)

def flushPendingIceCandidates (c : WebClient) (w : ℕ) (callId : Bytes) (next : FlushNext) :
    WebClient :=
  match (c.webrtcs w).peerConnection with
  | none => c.flushed w callId next
  | some peerConnection =>
    if peerConnection.remoteDescription = false then c.flushed w callId next
    else
      (c.withWebRtc w { c.webrtcs w with pendingIceCandidates := 0 }).flushCandidates w callId next
        (c.webrtcs w).pendingIceCandidates

/-- `setRemoteDescription` has been resolved. -/
def remoteDescriptionSet (c : WebClient) (w : ℕ) (callId : Bytes) (next : FlushNext) : WebClient :=
  let webrtc := c.webrtcs w
  (c.withWebRtc w { webrtc with
    peerConnection := webrtc.peerConnection.map fun _ => ⟨true⟩ }).flushPendingIceCandidates w callId
      next

/-- `sendSignal` with the local description. -/
def sendDescription (c : WebClient) (w : ℕ) (type : CallType) (description : ObjectText) : WebClient :=
  if (c.webrtcs w).peerConnection = none then c.handleLocalCallFailure
  else (c.sendCurrentCallMessage type description.text).2

/-- `startAsCaller`. -/
def startAsCaller (c : WebClient) (w : ℕ) (callId : Bytes) : WebClient :=
  c.prepareMedia w callId .startAsCaller

/-- `receiveOffer`. -/
def receiveOffer (c : WebClient) (w : ℕ) (callId : Bytes) : WebClient :=
  c.prepareMedia w callId .receiveOffer

/-- `receiveAnswer`. -/
def receiveAnswer (c : WebClient) (w : ℕ) (callId : Bytes) : WebClient :=
  c.awaitPeerConnection w callId .setRemoteAnswer

/-- `addIceCandidate`. -/
def addIceCandidate (c : WebClient) (w : ℕ) (callId candidate : Bytes) : WebClient :=
  if candidate = [] then c
  else
    match (c.webrtcs w).peerConnection with
    | some ⟨true⟩ => c.await w callId .addIceCandidate
    | _ => c.withWebRtc w { c.webrtcs w with
        pendingIceCandidates := (c.webrtcs w).pendingIceCandidates + 1 }

/-- The rest of a function whose promise has been resolved. -/
def onResolved (c : WebClient) (w : ℕ) (callId : Bytes) (description : ObjectText) :
    AwaitedPromise → WebClient
  | .getUserMedia next => c.gotUserMedia w callId next
  | .createOffer => c.awaitPeerConnection w callId .setLocalOffer
  | .setLocalOffer => c.sendDescription w .offer description
  | .setRemoteOffer => c.remoteDescriptionSet w callId .receiveOffer
  | .flushCandidate rest next => c.flushCandidates w callId next rest
  | .createAnswer => c.awaitPeerConnection w callId .setLocalAnswer
  | .setLocalAnswer => c.sendDescription w .answer description
  | .setRemoteAnswer => c.remoteDescriptionSet w callId .receiveAnswer
  | .addIceCandidate => c

/-- The `catch` that the rejection of a promise ends in. -/
def onRejected (c : WebClient) (w : ℕ) (callId : Bytes) : AwaitedPromise → WebClient
  | .getUserMedia next => (c.close w).mediaFailed callId next
  | _ => c.handleLocalCallFailure

/-- The browser settles the promise of a task. -/
def settle (c : WebClient) (index : ℕ) (settled : Settled) : WebClient :=
  match c.tasks[index]? with
  | none => c
  | some task =>
    let c := { c with tasks := c.tasks.eraseIdx index }
    match settled with
    | .rejected => c.onRejected task.webrtc task.callId task.awaited
    | .resolved description => c.onResolved task.webrtc task.callId description task.awaited

/-- The listeners of `createPeerConnection`. -/
def onConnectionEvent (c : WebClient) (w : ℕ) : ConnectionEvent → WebClient
  | .icecandidate candidate => (c.sendCurrentCallMessage .candidate candidate.text).2
  | .track => c.onConnected
  | .connected => if (c.webrtcs w).closing = true then c else c.onConnected
  | .failed => if (c.webrtcs w).closing = true then c else c.handleLocalCallFailure

/-! ### The buttons -/

/-- `ensureWebRtc`. -/
def ensureWebRtc (c : WebClient) : ℕ × WebClient :=
  match c.call.webrtc with
  | some w => (w, c)
  | none =>
    (c.made, { c with
      call := { c.call with webrtc := some c.made }
      webrtcs := Function.update c.webrtcs c.made ⟨none, false, 0, false⟩
      made := c.made + 1 })

/-- `startVideoCall`; `callId` is what `generateCallId` returns. -/
def startVideoCall (c : WebClient) (peer callId : Bytes) : WebClient :=
  if peer = c.username then c
  else if c.hasCurrentCall then c
  else
    let c := if c.call.phase = .finished then c.resetCallState else c
    let c := c.withCall { c.call with
      phase := .outgoing, callId := callId, peer := peer, direction := .outgoing }
    let (sent, c) := c.sendCurrentCallMessage .invite (ascii "video")
    if sent then c.withCall { c.call with timeoutId := some (.noAnswer callId) } else c.finishCall

def acceptIncomingCall (c : WebClient) : WebClient :=
  if c.call.phase ≠ .incoming then c
  else
    let callId := c.call.callId
    let (w, c) := c.ensureWebRtc
    c.prepareMedia w callId .acceptIncomingCall

def rejectIncomingCall (c : WebClient) : WebClient :=
  if c.call.phase ≠ .incoming then c
  else (c.sendCurrentCallMessage .reject (ascii "rejected")).2.finishCall

def cancelOutgoingCall (c : WebClient) : WebClient :=
  if c.call.phase ≠ .outgoing then c else (c.sendCurrentCallMessage .cancel []).2.finishCall

def hangupActiveCall (c : WebClient) : WebClient :=
  if c.call.phase ≠ .connecting ∧ c.call.phase ≠ .inCall then c
  else (c.sendCurrentCallMessage .hangup []).2.finishCall

/-! ### Messages of the server -/

/-- `handleCallProtocolMessage` for an invitation. -/
def handleInvite (c : WebClient) (message : ServerMessage) : WebClient :=
  if message.sender = [] ∨ message.callId = [] then c
  else if c.hasCurrentCall then
    c.sendMessage ⟨.reject, message.sender, message.callId, ascii "busy"⟩
  else
    let c := if c.call.phase = .finished then c.resetCallState else c
    c.withCall { c.call with
      phase := .incoming, callId := message.callId, peer := message.sender, direction := .incoming }

/-- `handleCallProtocolMessage`. -/
def handleCallProtocolMessage (c : WebClient) (message : ServerMessage) : WebClient :=
  if message.type = .event .invite then c.handleInvite message
  else if message.callId = [] ∨ message.callId ≠ c.call.callId then c
  else
    match message.type with
    | .event .accept =>
      if c.call.phase ≠ .outgoing then c
      else
        let c := (c.clearCallTimeout.withPhase .connecting).startMediaConnectionTimeout
        let (w, c) := c.ensureWebRtc
        c.startAsCaller w c.call.callId
    | .event .offer =>
      if c.call.phase ≠ .connecting ∧ c.call.phase ≠ .inCall then c
      else
        let (w, c) := c.ensureWebRtc
        c.receiveOffer w c.call.callId
    | .event .answer =>
      if c.call.phase ≠ .connecting ∧ c.call.phase ≠ .inCall then c
      else
        let (w, c) := c.ensureWebRtc
        c.receiveAnswer w c.call.callId
    | .event .candidate =>
      if c.call.phase ≠ .connecting ∧ c.call.phase ≠ .inCall then c
      else
        let (w, c) := c.ensureWebRtc
        c.addIceCandidate w c.call.callId message.candidate
    | _ => c.finishCall

/-! ### Inputs -/

/-- The button that dismisses a call is shown when the call is finished, and a closed peer connection has
no events. -/
def allows (c : WebClient) : ClientInput → Prop
  | .dismissCall => c.call.phase = .finished
  | .connection w _ => (c.webrtcs w).peerConnection ≠ none
  | _ => True

instance (c : WebClient) (input : ClientInput) : Decidable (c.allows input) := by
  cases input <;> simp only [allows] <;> infer_instance

def onInput (c : WebClient) : ClientInput → WebClient
  | .startVideoCall peer callId => c.startVideoCall peer callId
  | .acceptIncomingCall => c.acceptIncomingCall
  | .rejectIncomingCall => c.rejectIncomingCall
  | .cancelOutgoingCall => c.cancelOutgoingCall
  | .hangupActiveCall => c.hangupActiveCall
  | .dismissCall => c.resetCallState
  | .timeout => c.fireTimeout
  | .settle index settled => c.settle index settled
  | .connection w event => c.onConnectionEvent w event

end WebClient

end ChatService
