import ChatService.Client.CallProtocol
import Mathlib.Data.List.Perm.Basic

/-!
# ICE candidates and the description they wait for (`web-client/webrtc.js`)

A candidate must not reach the peer connection before the remote description is set, so `addIceCandidate` keeps
it in `pendingIceCandidates` until then, and `receiveOffer` and `receiveAnswer` pass on what is kept once the
description is there.  Candidates arrive at any time: before the exchange of descriptions, while the browser sets
the description, between the promise and the function that waits for it, and during the flush.

`CallProtocol` keeps the number of the pending candidates.  Here is one `WebRtcCall`, not closed, with the
candidates themselves, and one call of `receiveOffer` or `receiveAnswer` on it, cut at its `await`s.  A promise is
resolved in one step (`resolve`), and the function goes on in a later one (`resume`).
-/

namespace ChatService

/-! ### The model -/

/-- The exchange of descriptions, from the side that answers and from the side that has called. -/
inductive Exchange where
  | receiveOffer
  | receiveAnswer
deriving DecidableEq, Repr

/-- What an exchange awaits; the loop of `flushPendingIceCandidates` has `rest` before it. -/
inductive ExchangePromise (α : Type*) where
  | getUserMedia
  | setRemoteDescription
  | addIceCandidate (rest : List α)
  | createAnswer
  | setLocalDescription
deriving DecidableEq

/-- How far the exchange is; a promise is resolved before the function goes on. -/
inductive Progress (α : Type*) where
  | notCalled
  | awaits (exchange : Exchange) (promise : ExchangePromise α) (resolved : Bool)
  | returned
  | threw
deriving DecidableEq

/-- A `WebRtcCall` that is not closed, and its exchange.  `passed` lists the candidates that
`peerConnection.addIceCandidate` was called with, and whether the remote description was set. -/
structure ExchangingCall (α : Type*) where
  peerConnection : Option PeerConnection
  localStream : Bool
  pendingIceCandidates : List α
  progress : Progress α
  passed : List (α × Bool)
deriving DecidableEq

/-- What can happen: a candidate arrives (`none` is one that counts as false), `acceptIncomingCall` or
`startAsCaller` gets the media it has asked for, the exchange begins, the browser resolves the promise, and the
function goes on. -/
inductive ExchangeStep (α : Type*) where
  | addIceCandidate (candidate : Option α)
  | prepareMedia
  | receive (exchange : Exchange)
  | resolve
  | resume
deriving DecidableEq

namespace ExchangingCall

variable {α : Type*}

/-- The constructor. -/
def constructed : ExchangingCall α := ⟨none, false, [], .notCalled, []⟩

def await (w : ExchangingCall α) (exchange : Exchange) (promise : ExchangePromise α) : ExchangingCall α :=
  { w with progress := .awaits exchange promise false }

/-- A method of `this.peerConnection` is called; `null` has none. -/
def awaitPeerConnection (w : ExchangingCall α) (exchange : Exchange) (promise : ExchangePromise α) :
    ExchangingCall α :=
  if w.peerConnection = none then { w with progress := .threw } else w.await exchange promise

/-- `peerConnection.addIceCandidate`. -/
def pass (w : ExchangingCall α) (candidate : α) : ExchangingCall α :=
  { w with passed := w.passed ++ [(candidate, decide (w.peerConnection = some ⟨true⟩))] }

/-- `addIceCandidate`. -/
def addIceCandidate (w : ExchangingCall α) : Option α → ExchangingCall α
  | none => w
  | some candidate =>
    if w.peerConnection = some ⟨true⟩ then w.pass candidate
    else { w with pendingIceCandidates := w.pendingIceCandidates ++ [candidate] }

/-- The rest of `prepareMedia`, when there is a stream. -/
def gotUserMedia (w : ExchangingCall α) : ExchangingCall α :=
  { w with localStream := true, peerConnection := some (w.peerConnection.getD ⟨false⟩) }

/-- What comes after `flushPendingIceCandidates`. -/
def flushed (w : ExchangingCall α) : Exchange → ExchangingCall α
  | .receiveOffer => w.awaitPeerConnection .receiveOffer .createAnswer
  | .receiveAnswer => { w with progress := .returned }

/-- The loop of `flushPendingIceCandidates`. -/
def flushCandidates (w : ExchangingCall α) (exchange : Exchange) : List α → ExchangingCall α
  | [] => w.flushed exchange
  | candidate :: rest =>
    if w.peerConnection = none then { w with progress := .threw }
    else (w.pass candidate).await exchange (.addIceCandidate rest)

def flushPendingIceCandidates (w : ExchangingCall α) (exchange : Exchange) : ExchangingCall α :=
  if w.peerConnection = some ⟨true⟩ then
    { w with pendingIceCandidates := [] }.flushCandidates exchange w.pendingIceCandidates
  else w.flushed exchange

/-- `receiveOffer` and `receiveAnswer`, up to their first `await`. -/
def receive (w : ExchangingCall α) : Exchange → ExchangingCall α
  | .receiveOffer =>
    if w.localStream = true ∧ w.peerConnection ≠ none then
      w.awaitPeerConnection .receiveOffer .setRemoteDescription
    else w.await .receiveOffer .getUserMedia
  | .receiveAnswer =>
    if w.peerConnection = none then { w with progress := .threw }
    else w.awaitPeerConnection .receiveAnswer .setRemoteDescription

/-- The promise is resolved; of the browser's own state only the remote description matters. -/
def resolve (w : ExchangingCall α) (exchange : Exchange) (promise : ExchangePromise α) : ExchangingCall α :=
  match promise with
  | .setRemoteDescription =>
    { w with
      peerConnection := w.peerConnection.map fun _ => ⟨true⟩
      progress := .awaits exchange promise true }
  | _ => { w with progress := .awaits exchange promise true }

/-- The function goes on to its next `await`. -/
def resume (w : ExchangingCall α) (exchange : Exchange) : ExchangePromise α → ExchangingCall α
  | .getUserMedia => w.gotUserMedia.awaitPeerConnection exchange .setRemoteDescription
  | .setRemoteDescription => w.flushPendingIceCandidates exchange
  | .addIceCandidate rest => w.flushCandidates exchange rest
  | .createAnswer => w.awaitPeerConnection exchange .setLocalDescription
  | .setLocalDescription => { w with progress := .returned }

/-- One step; there is one exchange, and only what is awaited is resolved. -/
def step (w : ExchangingCall α) : ExchangeStep α → ExchangingCall α
  | .addIceCandidate candidate => w.addIceCandidate candidate
  | .prepareMedia => w.gotUserMedia
  | .receive exchange =>
    match w.progress with
    | .notCalled => w.receive exchange
    | _ => w
  | .resolve =>
    match w.progress with
    | .awaits exchange promise false => w.resolve exchange promise
    | _ => w
  | .resume =>
    match w.progress with
    | .awaits exchange promise true => w.resume exchange promise
    | _ => w

def run (w : ExchangingCall α) (steps : List (ExchangeStep α)) : ExchangingCall α := steps.foldl step w

/-- The candidates that arrive. -/
def received (steps : List (ExchangeStep α)) : List α :=
  steps.filterMap fun
    | .addIceCandidate candidate => candidate
    | _ => none

end ExchangingCall

/-! ### Where the candidates are -/

section

variable {α : Type*}

/-- The candidates that the flush has before it. -/
def Progress.queue : Progress α → List α
  | awaits _ (.addIceCandidate rest) _ => rest
  | _ => []

/-- The flush has begun. -/
def Progress.Flushed : Progress α → Prop
  | awaits _ .getUserMedia _ => False
  | awaits _ .setRemoteDescription _ => False
  | awaits _ _ _ => True
  | returned => True
  | _ => False

/-- The remote description has been set. -/
def Progress.Described : Progress α → Prop
  | awaits _ .setRemoteDescription resolved => resolved = true
  | progress => progress.Flushed

theorem Progress.Flushed.described {progress : Progress α} (h : progress.Flushed) : progress.Described := by
  cases progress with
  | awaits _ promise _ =>
    cases promise with
    | setRemoteDescription => exact absurd h id
    | _ => exact h
  | _ => exact h

end

namespace ExchangingCall

variable {α : Type*}

/-- The progress of a call says what there is of its remote description and of its pending candidates. -/
structure Stage (w : ExchangingCall α) : Prop where
  described : w.peerConnection = some ⟨true⟩ ↔ w.progress.Described
  flushed : w.progress.Flushed → w.pendingIceCandidates = []
  connected : ∀ exchange resolved, w.progress = .awaits exchange .setRemoteDescription resolved →
    w.peerConnection ≠ none

/-- The candidates that are passed on, about to be, and kept. -/
def candidates (w : ExchangingCall α) : List α :=
  w.passed.map Prod.fst ++ (w.progress.queue ++ w.pendingIceCandidates)

/-- Each of the candidates `arrived` is in one place, and none was passed on too early. -/
structure Sound (w : ExchangingCall α) (arrived : List α) : Prop extends Stage w where
  once : w.candidates.Perm arrived
  late : ∀ p ∈ w.passed, p.2 = true

theorem sound_constructed : (constructed : ExchangingCall α).Sound [] where
  described := ⟨nofun, nofun⟩
  flushed := nofun
  connected := nofun
  once := .refl []
  late _ hp := absurd hp List.not_mem_nil

variable {w : ExchangingCall α} {arrived : List α}

/-- A candidate is passed on; it comes from outside, or from where `rest` is what remains. -/
theorem Sound.pass (h : w.Sound arrived) (hset : w.peerConnection = some ⟨true⟩) (candidate : α) :
    (w.pass candidate).Sound (arrived ++ [candidate]) := by
  refine ⟨⟨h.described, h.flushed, h.connected⟩, ?_, ?_⟩
  · show ((w.passed ++ [_]).map Prod.fst ++ (w.progress.queue ++ w.pendingIceCandidates)).Perm _
    rw [List.map_append, List.append_assoc]
    have hlast : (w.passed.map Prod.fst ++ ([candidate] ++ (w.progress.queue ++ w.pendingIceCandidates))).Perm
        (w.candidates ++ [candidate]) := by
      rw [candidates, List.append_assoc]
      exact List.perm_append_comm.append_left _
    exact hlast.trans (h.once.append_right _)
  · intro p hp
    rcases List.mem_append.mp hp with hp | hp
    · exact h.late p hp
    · rw [List.mem_singleton.mp hp]
      exact decide_eq_true hset

/-- **A candidate arrives.** -/
theorem Sound.addIceCandidate (h : w.Sound arrived) (candidate : Option α) :
    (w.addIceCandidate candidate).Sound (arrived ++ candidate.toList) := by
  cases candidate with
  | none =>
    rw [Option.toList_none, List.append_nil]
    exact h
  | some candidate =>
    rw [ExchangingCall.addIceCandidate]
    split_ifs with hset
    · exact h.pass hset candidate
    · -- nothing is kept once the description is set
      have hearly : ¬ w.progress.Flushed := fun hflushed => hset (h.described.mpr hflushed.described)
      refine ⟨⟨h.described, fun hflushed => absurd hflushed hearly, h.connected⟩, ?_, h.late⟩
      show (w.passed.map Prod.fst ++ (w.progress.queue ++ (w.pendingIceCandidates ++ [candidate]))).Perm _
      rw [← List.append_assoc, ← List.append_assoc, List.append_assoc (w.passed.map Prod.fst)]
      exact h.once.append_right _

/-- The media arrive: a peer connection that is there stays. -/
theorem Sound.gotUserMedia (h : w.Sound arrived) : w.gotUserMedia.Sound arrived := by
  refine ⟨⟨?_, h.flushed, fun _ _ _ => Option.some_ne_none _⟩, h.once, h.late⟩
  show some (w.peerConnection.getD ⟨false⟩) = some ⟨true⟩ ↔ w.progress.Described
  rw [← h.described]
  cases w.peerConnection with
  | none => exact ⟨nofun, nofun⟩
  | some peerConnection => exact Iff.rfl

/-- The exchange goes on to another promise, or ends, with the candidates where they are. -/
theorem Sound.goOn (h : w.Sound arrived) {progress : Progress α} (hqueue : progress.queue = w.progress.queue)
    (hdescribed : progress.Described ↔ w.progress.Described)
    (hflushed : progress.Flushed → w.pendingIceCandidates = [])
    (hconnected : ∀ exchange resolved, progress = .awaits exchange .setRemoteDescription resolved →
      w.peerConnection ≠ none) : ({ w with progress := progress } : ExchangingCall α).Sound arrived := by
  refine ⟨⟨h.described.trans hdescribed.symm, hflushed, hconnected⟩, ?_, h.late⟩
  show (w.passed.map Prod.fst ++ (progress.queue ++ w.pendingIceCandidates)).Perm _
  rw [hqueue]
  exact h.once

/-- The loop of the flush: nothing is pending any more, and `rest` is still to be passed on. -/
theorem sound_flushCandidates {exchange : Exchange} {rest : List α} (hset : w.peerConnection = some ⟨true⟩)
    (hempty : w.pendingIceCandidates = []) (honce : (w.passed.map Prod.fst ++ rest).Perm arrived)
    (hlate : ∀ p ∈ w.passed, p.2 = true) : (w.flushCandidates exchange rest).Sound arrived := by
  have hconnected : w.peerConnection ≠ none := by
    rw [hset]
    exact Option.some_ne_none _
  have hperm : ∀ queue : List α, queue = rest → (w.passed.map Prod.fst ++ (queue ++ w.pendingIceCandidates)).Perm
      arrived := by
    intro queue hqueue
    rw [hqueue, hempty, List.append_nil]
    exact honce
  cases rest with
  | nil =>
    cases exchange with
    | receiveOffer =>
      rw [flushCandidates, flushed, awaitPeerConnection, if_neg hconnected]
      exact ⟨⟨iff_of_true hset trivial, fun _ => hempty, nofun⟩, hperm [] rfl, hlate⟩
    | receiveAnswer => exact ⟨⟨iff_of_true hset trivial, fun _ => hempty, nofun⟩, hperm [] rfl, hlate⟩
  | cons candidate rest =>
    rw [flushCandidates, if_neg hconnected]
    refine ⟨⟨iff_of_true hset trivial, fun _ => hempty, nofun⟩, ?_, ?_⟩
    · show ((w.passed ++ [_]).map Prod.fst ++ (rest ++ w.pendingIceCandidates)).Perm arrived
      rw [List.map_append, List.append_assoc, ← List.append_assoc _ rest]
      exact hperm _ rfl
    · intro p hp
      rcases List.mem_append.mp hp with hp | hp
      · exact hlate p hp
      · rw [List.mem_singleton.mp hp]
        exact decide_eq_true hset

/-- **The exchange begins.** -/
theorem Sound.receive (h : w.Sound arrived) (hprogress : w.progress = .notCalled) (exchange : Exchange) :
    (w.receive exchange).Sound arrived := by
  have hgoOn : ∀ progress : Progress α, progress.queue = [] → ¬ progress.Described →
      (∀ exchange resolved, progress = .awaits exchange .setRemoteDescription resolved → w.peerConnection ≠ none) →
      ({ w with progress := progress } : ExchangingCall α).Sound arrived := by
    intro progress hqueue hearly hconnected
    refine h.goOn ?_ ?_ (fun hflushed => absurd hflushed.described hearly) hconnected
    · rw [hqueue, hprogress]
      rfl
    · rw [hprogress]
      exact iff_of_false hearly id
  cases exchange with
  | receiveOffer =>
    rw [ExchangingCall.receive]
    split_ifs with hready
    · rw [awaitPeerConnection, if_neg hready.2]
      exact hgoOn _ rfl nofun fun _ _ _ => hready.2
    · exact hgoOn _ rfl nofun nofun
  | receiveAnswer =>
    rw [ExchangingCall.receive]
    split_ifs with hnone
    · exact hgoOn _ rfl nofun nofun
    · rw [awaitPeerConnection, if_neg hnone]
      exact hgoOn _ rfl nofun fun _ _ _ => hnone

/-- **The promise is resolved.** -/
theorem Sound.resolve (h : w.Sound arrived) {exchange : Exchange} {promise : ExchangePromise α}
    (hprogress : w.progress = .awaits exchange promise false) : (w.resolve exchange promise).Sound arrived := by
  have honce : (w.passed.map Prod.fst ++ (w.progress.queue ++ w.pendingIceCandidates)).Perm arrived := h.once
  have hflushed := h.flushed
  have hdescribed := h.described
  rw [hprogress] at honce hflushed hdescribed
  cases promise with
  | setRemoteDescription =>
    refine ⟨⟨iff_of_true ?_ rfl, nofun, ?_⟩, honce, h.late⟩
    · obtain ⟨peerConnection, hpeer⟩ := Option.ne_none_iff_exists'.mp (h.connected _ _ hprogress)
      show w.peerConnection.map (fun _ => PeerConnection.mk true) = some ⟨true⟩
      rw [hpeer]
      rfl
    · intro _ _ _
      exact Option.map_eq_none_iff.not.mpr (h.connected _ _ hprogress)
  | getUserMedia => exact ⟨⟨hdescribed, hflushed, nofun⟩, honce, h.late⟩
  | addIceCandidate rest => exact ⟨⟨hdescribed, hflushed, nofun⟩, honce, h.late⟩
  | createAnswer => exact ⟨⟨hdescribed, hflushed, nofun⟩, honce, h.late⟩
  | setLocalDescription => exact ⟨⟨hdescribed, hflushed, nofun⟩, honce, h.late⟩

/-- **The function goes on.** -/
theorem Sound.resume (h : w.Sound arrived) {exchange : Exchange} {promise : ExchangePromise α}
    (hprogress : w.progress = .awaits exchange promise true) : (w.resume exchange promise).Sound arrived := by
  have honce : (w.passed.map Prod.fst ++ (w.progress.queue ++ w.pendingIceCandidates)).Perm arrived := h.once
  have hflushed := h.flushed
  have hdescribed := h.described
  rw [hprogress] at honce hflushed hdescribed
  cases promise with
  | getUserMedia =>
    have hpeer : w.gotUserMedia.peerConnection ≠ none := Option.some_ne_none _
    rw [ExchangingCall.resume, awaitPeerConnection, if_neg hpeer]
    refine h.gotUserMedia.goOn ?_ ?_ nofun fun _ _ _ => hpeer
    · show _ = w.progress.queue
      rw [hprogress]
      rfl
    · show _ ↔ w.progress.Described
      rw [hprogress]
      exact iff_of_false nofun id
  | setRemoteDescription =>
    have hset : w.peerConnection = some ⟨true⟩ := hdescribed.mpr rfl
    rw [ExchangingCall.resume, flushPendingIceCandidates, if_pos hset]
    exact sound_flushCandidates hset rfl honce h.late
  | addIceCandidate rest =>
    have hempty : w.pendingIceCandidates = [] := hflushed trivial
    rw [hempty, List.append_nil] at honce
    exact sound_flushCandidates (hdescribed.mpr trivial) hempty honce h.late
  | createAnswer =>
    have hset : w.peerConnection = some ⟨true⟩ := hdescribed.mpr trivial
    have hpeer : w.peerConnection ≠ none := by
      rw [hset]
      exact Option.some_ne_none _
    rw [ExchangingCall.resume, awaitPeerConnection, if_neg hpeer]
    exact ⟨⟨iff_of_true hset trivial, fun _ => hflushed trivial, nofun⟩, honce, h.late⟩
  | setLocalDescription =>
    exact ⟨⟨iff_of_true (hdescribed.mpr trivial) trivial, fun _ => hflushed trivial, nofun⟩, honce, h.late⟩

theorem received_cons (s : ExchangeStep α) (steps : List (ExchangeStep α)) :
    received (s :: steps) = received [s] ++ received steps := by
  rw [received, received, received, ← List.filterMap_append]
  rfl

/-- **Each step** leaves each candidate in one place. -/
theorem Sound.step (h : w.Sound arrived) (s : ExchangeStep α) : (w.step s).Sound (arrived ++ received [s]) := by
  cases s with
  | addIceCandidate candidate =>
    have hreceived : received [.addIceCandidate candidate] = candidate.toList := by cases candidate <;> rfl
    rw [hreceived]
    exact h.addIceCandidate candidate
  | prepareMedia =>
    rw [show received [ExchangeStep.prepareMedia] = ([] : List α) from rfl, List.append_nil]
    exact h.gotUserMedia
  | receive exchange =>
    rw [show received [ExchangeStep.receive exchange] = ([] : List α) from rfl, List.append_nil, ExchangingCall.step]
    split
    · next hprogress => exact h.receive hprogress exchange
    · exact h
  | resolve =>
    rw [show received [ExchangeStep.resolve] = ([] : List α) from rfl, List.append_nil, ExchangingCall.step]
    split
    · next hprogress => exact h.resolve hprogress
    · exact h
  | resume =>
    rw [show received [ExchangeStep.resume] = ([] : List α) from rfl, List.append_nil, ExchangingCall.step]
    split
    · next hprogress => exact h.resume hprogress
    · exact h

theorem Sound.run (h : w.Sound arrived) (steps : List (ExchangeStep α)) :
    (w.run steps).Sound (arrived ++ received steps) := by
  induction steps generalizing w arrived with
  | nil =>
    rw [show received ([] : List (ExchangeStep α)) = [] from rfl, List.append_nil]
    exact h
  | cons s steps ih =>
    rw [received_cons, ← List.append_assoc]
    exact ih (h.step s)

/-! ### The end of the exchange -/

/-- The step takes the exchange on. -/
def moves (w : ExchangingCall α) : ExchangeStep α → Bool
  | .receive _ =>
    match w.progress with
    | .notCalled => true
    | _ => false
  | .resolve =>
    match w.progress with
    | .awaits _ _ resolved => !resolved
    | _ => false
  | .resume =>
    match w.progress with
    | .awaits _ _ resolved => resolved
    | _ => false
  | _ => false

def moveCount (w : ExchangingCall α) : List (ExchangeStep α) → ℕ
  | [] => 0
  | s :: steps => (w.moves s).toNat + (w.step s).moveCount steps

/-- The promises before the end, this one included, if no other candidate is kept. -/
def promises (w : ExchangingCall α) : ExchangePromise α → ℕ
  | .getUserMedia => w.pendingIceCandidates.length + 4
  | .setRemoteDescription => w.pendingIceCandidates.length + 3
  | .addIceCandidate rest => rest.length + 3
  | .createAnswer => 2
  | .setLocalDescription => 1

/-- The moves before the end, if no other candidate is kept. -/
def movesLeft (w : ExchangingCall α) : ℕ :=
  match w.progress with
  | .notCalled => 2 * (w.pendingIceCandidates.length + 4) + 1
  | .awaits _ promise resolved => 2 * w.promises promise - resolved.toNat
  | _ => 0

theorem movesLeft_awaits {exchange : Exchange} {promise : ExchangePromise α} {resolved : Bool}
    (h : w.progress = .awaits exchange promise resolved) :
    w.movesLeft = 2 * w.promises promise - resolved.toNat := by
  rw [movesLeft, h]

theorem movesLeft_awaitPeerConnection (exchange : Exchange) (promise : ExchangePromise α) :
    (w.awaitPeerConnection exchange promise).movesLeft ≤ 2 * w.promises promise := by
  rw [awaitPeerConnection]
  split_ifs
  · exact Nat.zero_le _
  · rw [movesLeft_awaits rfl]
    cases promise <;> exact Nat.sub_le ..

theorem movesLeft_flushed (exchange : Exchange) : (w.flushed exchange).movesLeft ≤ 4 := by
  cases exchange with
  | receiveOffer => exact movesLeft_awaitPeerConnection ..
  | receiveAnswer => exact Nat.zero_le _

theorem movesLeft_flushCandidates (exchange : Exchange) (rest : List α) :
    (w.flushCandidates exchange rest).movesLeft ≤ 2 * (rest.length + 2) := by
  cases rest with
  | nil => exact movesLeft_flushed exchange
  | cons candidate rest =>
    rw [flushCandidates]
    split_ifs
    · exact Nat.zero_le _
    · rw [movesLeft_awaits rfl, List.length_cons]
      exact Nat.sub_le ..

theorem movesLeft_receive (exchange : Exchange) :
    (w.receive exchange).movesLeft ≤ 2 * (w.pendingIceCandidates.length + 4) := by
  have hremote : (w.awaitPeerConnection exchange .setRemoteDescription).movesLeft ≤
      2 * (w.pendingIceCandidates.length + 3) := movesLeft_awaitPeerConnection ..
  cases exchange with
  | receiveOffer =>
    rw [receive]
    split_ifs
    · omega
    · exact le_rfl
  | receiveAnswer =>
    rw [receive]
    split_ifs
    · exact Nat.zero_le _
    · omega

theorem movesLeft_resume (exchange : Exchange) (promise : ExchangePromise α) :
    (w.resume exchange promise).movesLeft + 1 ≤ 2 * w.promises promise - 1 := by
  cases promise with
  | getUserMedia =>
    have hremote : (w.gotUserMedia.awaitPeerConnection exchange .setRemoteDescription).movesLeft ≤
        2 * (w.pendingIceCandidates.length + 3) := movesLeft_awaitPeerConnection ..
    rw [resume, promises]
    omega
  | setRemoteDescription =>
    rw [resume, flushPendingIceCandidates, promises]
    split_ifs
    · have hflush : ({ w with pendingIceCandidates := [] }.flushCandidates exchange
          w.pendingIceCandidates).movesLeft ≤ 2 * (w.pendingIceCandidates.length + 2) :=
        movesLeft_flushCandidates ..
      omega
    · have hflushed : (w.flushed exchange).movesLeft ≤ 4 := movesLeft_flushed exchange
      omega
  | addIceCandidate rest =>
    have hflush : (w.flushCandidates exchange rest).movesLeft ≤ 2 * (rest.length + 2) :=
      movesLeft_flushCandidates ..
    rw [resume, promises]
    omega
  | createAnswer =>
    have hlocal : (w.awaitPeerConnection exchange .setLocalDescription).movesLeft ≤ 2 :=
      movesLeft_awaitPeerConnection ..
    rw [resume, promises]
    omega
  | setLocalDescription => exact le_rfl

theorem movesLeft_resolve (exchange : Exchange) (promise : ExchangePromise α) :
    (w.resolve exchange promise).movesLeft = 2 * w.promises promise - 1 := by
  cases promise <;> rfl

/-- A candidate that is kept takes two moves more. -/
theorem movesLeft_addIceCandidate (candidate : Option α) :
    (w.addIceCandidate candidate).movesLeft ≤ w.movesLeft + 2 * candidate.toList.length := by
  cases candidate with
  | none => exact le_rfl
  | some candidate =>
    rw [addIceCandidate, Option.toList_some, List.length_singleton]
    split_ifs
    · exact Nat.le_add_right ..
    · rw [movesLeft, movesLeft]
      cases w.progress with
      | notCalled =>
        dsimp only
        rw [List.length_append, List.length_singleton]
        omega
      | awaits exchange promise resolved =>
        cases promise <;> simp only [promises, List.length_append, List.length_singleton] <;> omega
      | returned => exact Nat.zero_le _
      | threw => exact Nat.zero_le _

/-- **Each move** brings the end nearer. -/
theorem movesLeft_step (w : ExchangingCall α) (s : ExchangeStep α) :
    (w.moves s).toNat + (w.step s).movesLeft ≤ w.movesLeft + 2 * (received [s]).length := by
  cases s with
  | addIceCandidate candidate =>
    have hreceived : received [.addIceCandidate candidate] = candidate.toList := by cases candidate <;> rfl
    rw [hreceived, show w.moves (.addIceCandidate candidate) = false from rfl, Bool.toNat_false, Nat.zero_add]
    exact movesLeft_addIceCandidate candidate
  | prepareMedia =>
    have hleft : w.gotUserMedia.movesLeft = w.movesLeft := rfl
    exact (Nat.zero_add _).le.trans hleft.le
  | receive exchange =>
    rw [moves, step]
    cases hprogress : w.progress with
    | notCalled =>
      have hreceive : (w.receive exchange).movesLeft ≤ 2 * (w.pendingIceCandidates.length + 4) :=
        movesLeft_receive exchange
      have hleft : w.movesLeft = 2 * (w.pendingIceCandidates.length + 4) + 1 := by rw [movesLeft, hprogress]
      rw [hleft]
      show 1 + (w.receive exchange).movesLeft ≤ _
      omega
    | _ => exact (Nat.zero_add _).le
  | resolve =>
    rw [moves, step]
    cases hprogress : w.progress with
    | awaits exchange promise resolved =>
      cases resolved with
      | false =>
        have hresolve := movesLeft_resolve (w := w) exchange promise
        have hpos : 0 < w.promises promise := by cases promise <;> exact Nat.succ_pos _
        rw [movesLeft_awaits hprogress]
        simp only [Bool.not_false, Bool.toNat_true, Bool.toNat_false]
        omega
      | true => exact (Nat.zero_add _).le
    | _ => exact (Nat.zero_add _).le
  | resume =>
    rw [moves, step]
    cases hprogress : w.progress with
    | awaits exchange promise resolved =>
      cases resolved with
      | false => exact (Nat.zero_add _).le
      | true =>
        have hresume := movesLeft_resume (w := w) exchange promise
        rw [movesLeft_awaits hprogress]
        simp only [Bool.toNat_true]
        omega
    | _ => exact (Nat.zero_add _).le

theorem moveCount_le (w : ExchangingCall α) (steps : List (ExchangeStep α)) :
    w.moveCount steps ≤ w.movesLeft + 2 * (received steps).length := by
  induction steps generalizing w with
  | nil => exact Nat.zero_le _
  | cons s steps ih =>
    have hstep := movesLeft_step w s
    have hrest := ih (w.step s)
    rw [moveCount, received_cons, List.length_append]
    omega

/-- `receiveAnswer` is called before there is a peer connection. -/
def Unprepared (w : ExchangingCall α) (s : ExchangeStep α) : Prop :=
  w.progress = .notCalled ∧ w.peerConnection = none ∧ s = .receive .receiveAnswer

theorem threw_flushCandidates {exchange : Exchange} {rest : List α} (hset : w.peerConnection = some ⟨true⟩) :
    (w.flushCandidates exchange rest).progress ≠ .threw := by
  have hpeer : w.peerConnection ≠ none := by
    rw [hset]
    exact Option.some_ne_none _
  cases rest with
  | nil =>
    cases exchange with
    | receiveOffer =>
      rw [flushCandidates, flushed, awaitPeerConnection, if_neg hpeer]
      exact nofun
    | receiveAnswer => exact nofun
  | cons candidate rest =>
    rw [flushCandidates, if_neg hpeer]
    exact nofun

theorem threw_resume (h : w.Sound arrived) {exchange : Exchange} {promise : ExchangePromise α}
    (hprogress : w.progress = .awaits exchange promise true) : (w.resume exchange promise).progress ≠ .threw := by
  have hdescribed := h.described
  rw [hprogress] at hdescribed
  cases promise with
  | getUserMedia =>
    have hpeer : w.gotUserMedia.peerConnection ≠ none := Option.some_ne_none _
    rw [resume, awaitPeerConnection, if_neg hpeer]
    exact nofun
  | setRemoteDescription =>
    have hset : w.peerConnection = some ⟨true⟩ := hdescribed.mpr rfl
    rw [resume, flushPendingIceCandidates, if_pos hset]
    exact threw_flushCandidates hset
  | addIceCandidate rest => exact threw_flushCandidates (hdescribed.mpr trivial)
  | createAnswer =>
    have hpeer : w.peerConnection ≠ none := by
      rw [hdescribed.mpr trivial]
      exact Option.some_ne_none _
    rw [resume, awaitPeerConnection, if_neg hpeer]
    exact nofun
  | setLocalDescription => exact nofun

/-- Nothing else throws. -/
theorem threw_step (h : w.Sound arrived) (s : ExchangeStep α) :
    (w.step s).progress = .threw ↔ w.progress = .threw ∨ w.Unprepared s := by
  have hother : s ≠ .receive .receiveAnswer → ¬ w.Unprepared s := fun hs hu => hs hu.2.2
  cases s with
  | addIceCandidate candidate =>
    have hprogress : (w.addIceCandidate candidate).progress = w.progress := by
      cases candidate with
      | none => rfl
      | some candidate =>
        rw [addIceCandidate]
        split_ifs <;> rfl
    rw [or_iff_left (hother nofun), step, hprogress]
  | prepareMedia => rw [or_iff_left (hother nofun), step, gotUserMedia]
  | receive exchange =>
    rw [step]
    split
    · next hprogress =>
      rw [hprogress, or_iff_right nofun]
      cases exchange with
      | receiveOffer =>
        refine iff_of_false ?_ (hother nofun)
        rw [receive]
        split_ifs with hready
        · rw [awaitPeerConnection, if_neg hready.2]
          exact nofun
        · exact nofun
      | receiveAnswer =>
        rw [receive]
        split_ifs with hnone
        · exact iff_of_true rfl ⟨hprogress, hnone, rfl⟩
        · rw [awaitPeerConnection, if_neg hnone]
          exact iff_of_false nofun fun hu => hnone hu.2.1
    · next hcalled => exact (or_iff_left fun hu => hcalled hu.1).symm
  | resolve =>
    rw [or_iff_left (hother nofun), step]
    split
    · next exchange promise hprogress =>
      rw [hprogress]
      cases promise <;> exact ⟨nofun, nofun⟩
    · exact Iff.rfl
  | resume =>
    rw [or_iff_left (hother nofun), step]
    split
    · next exchange promise hprogress =>
      rw [hprogress]
      exact iff_of_false (threw_resume h hprogress) nofun
    · exact Iff.rfl

theorem threw_run (h : w.Sound arrived) (steps : List (ExchangeStep α)) :
    (w.run steps).progress = .threw ↔
      w.progress = .threw ∨ ∃ front s rest, steps = front ++ s :: rest ∧ (w.run front).Unprepared s := by
  induction steps generalizing w arrived with
  | nil =>
    refine (or_iff_left ?_).symm
    rintro ⟨front, s, rest, hsteps, -⟩
    exact absurd hsteps.symm (List.append_ne_nil_of_right_ne_nil _ (List.cons_ne_nil _ _))
  | cons s steps ih =>
    have hrun : w.run (s :: steps) = (w.step s).run steps := rfl
    rw [hrun, ih (h.step s), threw_step h, or_assoc]
    refine or_congr_right ⟨?_, ?_⟩
    · rintro (hu | ⟨front, s', rest, rfl, hu⟩)
      · exact ⟨[], s, steps, rfl, hu⟩
      · exact ⟨s :: front, s', rest, rfl, hu⟩
    · rintro ⟨front, s', rest, hsteps, hu⟩
      cases front with
      | nil =>
        obtain ⟨rfl, rfl⟩ := List.cons.inj hsteps
        exact .inl hu
      | cons s'' front =>
        obtain ⟨rfl, rfl⟩ := List.cons.inj hsteps
        exact .inr ⟨front, s', rest, rfl, hu⟩

/-- **Each candidate is passed on once, and after the remote description.**  In every run: no candidate is passed
on before the remote description is set; each is passed on, about to be, or kept, and once the exchange has
returned each has been passed on, exactly once.  The exchange throws exactly if it is a `receiveAnswer` for which
there is no peer connection; until it returns or throws some step takes it on, and it takes finitely many. -/
theorem candidates_are_passed (steps : List (ExchangeStep α)) :
    (∀ p ∈ (constructed.run steps).passed, p.2 = true) ∧
    (constructed.run steps).candidates.Perm (received steps) ∧
    ((constructed.run steps).progress = .returned →
      ((constructed.run steps).passed.map Prod.fst).Perm (received steps)) ∧
    ((constructed.run steps).progress = .threw ↔
      ∃ front s rest, steps = front ++ s :: rest ∧ (constructed.run front).Unprepared s) ∧
    ((constructed.run steps).progress = .returned ∨ (constructed.run steps).progress = .threw ∨
      ∃ s, (constructed.run steps).moves s = true) ∧
    constructed.moveCount steps ≤ 2 * (received steps).length + 9 := by
  have hsound : (constructed.run steps).Sound (received steps) := sound_constructed.run steps
  refine ⟨hsound.late, hsound.once, ?_, ?_, ?_, ?_⟩
  · intro hreturned
    have honce : (constructed.run steps).candidates.Perm (received steps) := hsound.once
    have hempty : (constructed.run steps).pendingIceCandidates = [] := by
      refine hsound.flushed ?_
      rw [hreturned]
      trivial
    have hqueue : (constructed.run steps).progress.queue = [] := by
      rw [hreturned]
      rfl
    rwa [candidates, hempty, hqueue, List.append_nil, List.append_nil] at honce
  · rw [threw_run sound_constructed, or_iff_right nofun]
  · cases hprogress : (constructed.run steps).progress with
    | notCalled => exact .inr (.inr ⟨.receive .receiveOffer, by rw [moves, hprogress]⟩)
    | awaits exchange promise resolved =>
      refine .inr (.inr ?_)
      cases resolved with
      | false => exact ⟨.resolve, by rw [moves, hprogress]; rfl⟩
      | true => exact ⟨.resume, by rw [moves, hprogress]⟩
    | returned => exact .inl rfl
    | threw => exact .inr (.inl rfl)
  · have hcount := moveCount_le (constructed : ExchangingCall α) steps
    have hleft : (constructed : ExchangingCall α).movesLeft = 9 := rfl
    omega

/-- An answer comes before there is a peer connection: its exchange throws, and the candidate is never passed
on. -/
theorem answer_without_peerConnection :
    ¬ ∀ steps : List (ExchangeStep ℕ), (constructed.run steps).progress = .returned ∨
        (constructed.run steps).progress = .threw →
      ((constructed.run steps).passed.map Prod.fst).Perm (received steps) := by
  intro h
  have hperm := h [.addIceCandidate (some 7), .receive .receiveAnswer] (.inr (by decide))
  exact absurd hperm (by decide)

/-! ### The number of the candidates -/

/-- What `CallProtocol` keeps of the call. -/
def webRtcCall (w : ExchangingCall α) : WebRtcCall :=
  ⟨w.peerConnection, w.localStream, w.pendingIceCandidates.length, false⟩

/-- `addIceCandidate` is the same on what `CallProtocol` keeps. -/
theorem webRtcCall_addIceCandidate (c : WebClient) (k : ℕ) (callId : Bytes) {candidate : Bytes}
    (w : ExchangingCall Bytes) (h : c.webrtcs k = w.webRtcCall) (hcandidate : candidate ≠ []) :
    (c.addIceCandidate k callId candidate).webrtcs k = (w.addIceCandidate (some candidate)).webRtcCall := by
  have hpeer : (c.webrtcs k).peerConnection = w.peerConnection := congrArg WebRtcCall.peerConnection h
  rw [WebClient.addIceCandidate, if_neg hcandidate, addIceCandidate, hpeer]
  split
  · next hset =>
    rw [if_pos hset]
    exact h
  · next hunset =>
    rw [if_neg hunset]
    refine (Function.update_self ..).trans ?_
    rw [h]
    show (⟨_, _, _, _⟩ : WebRtcCall) = ⟨_, _, (w.pendingIceCandidates ++ [candidate]).length, _⟩
    rw [List.length_append]
    rfl

/-- So is the media's arrival. -/
theorem webRtcCall_gotUserMedia (c : WebClient) (k : ℕ) (callId : Bytes) (w : ExchangingCall Bytes)
    (h : c.webrtcs k = w.webRtcCall) :
    (c.gotUserMedia k callId .receiveOffer).webrtcs k = w.gotUserMedia.webRtcCall := by
  have hclosing : (c.webrtcs k).closing = false := congrArg WebRtcCall.closing h
  have hstate : (c.withWebRtc k { c.webrtcs k with
      localStream := true, peerConnection := some (((c.webrtcs k).peerConnection).getD ⟨false⟩) }).webrtcs k =
        w.gotUserMedia.webRtcCall := by
    refine (Function.update_self ..).trans ?_
    rw [h]
    rfl
  have hopen : ((c.withWebRtc k { c.webrtcs k with
      localStream := true
      peerConnection := some (((c.webrtcs k).peerConnection).getD ⟨false⟩) }).webrtcs k).peerConnection ≠ none := by
    rw [hstate]
    exact Option.some_ne_none _
  rw [WebClient.gotUserMedia, if_neg (by rw [hclosing]; decide), WebClient.mediaReady,
    WebClient.awaitPeerConnection, if_neg hopen]
  exact hstate

/-- What `CallProtocol` calls the exchange. -/
def flushNext : Exchange → FlushNext
  | .receiveOffer => .receiveOffer
  | .receiveAnswer => .receiveAnswer

/-- So is the loop of the flush. -/
theorem webRtcCall_flushCandidates (c : WebClient) (k : ℕ) (callId : Bytes) (exchange : Exchange) (rest : List Bytes)
    (w : ExchangingCall Bytes) (h : c.webrtcs k = w.webRtcCall) (hset : w.peerConnection = some ⟨true⟩) :
    (c.flushCandidates k callId (flushNext exchange) rest.length).webrtcs k =
      (w.flushCandidates exchange rest).webRtcCall := by
  have hpeer : w.peerConnection ≠ none := by
    rw [hset]
    exact Option.some_ne_none _
  have hopen : (c.webrtcs k).peerConnection ≠ none := by
    rw [h]
    exact hpeer
  cases rest with
  | nil =>
    rw [List.length_nil, WebClient.flushCandidates, flushCandidates]
    cases exchange with
    | receiveOffer =>
      rw [flushNext, WebClient.flushed, flushed, WebClient.awaitPeerConnection, if_neg hopen, awaitPeerConnection,
        if_neg hpeer]
      exact h
    | receiveAnswer => exact h
  | cons candidate rest =>
    rw [List.length_cons, WebClient.flushCandidates, WebClient.awaitPeerConnection, if_neg hopen, flushCandidates,
      if_neg hpeer]
    exact h

theorem webRtcCall_flushPendingIceCandidates (c : WebClient) (k : ℕ) (callId : Bytes) (exchange : Exchange)
    (w : ExchangingCall Bytes) (h : c.webrtcs k = w.webRtcCall) (hset : w.peerConnection = some ⟨true⟩) :
    (c.flushPendingIceCandidates k callId (flushNext exchange)).webrtcs k =
      (w.flushPendingIceCandidates exchange).webRtcCall := by
  have hpeer : (c.webrtcs k).peerConnection = some ⟨true⟩ := by
    rw [h]
    exact hset
  have hcount : (c.webrtcs k).pendingIceCandidates = w.pendingIceCandidates.length := by
    rw [h]
    rfl
  rw [WebClient.flushPendingIceCandidates, hpeer, hcount, flushPendingIceCandidates, if_pos hset]
  refine webRtcCall_flushCandidates _ k callId exchange _ { w with pendingIceCandidates := [] } ?_ hset
  refine (Function.update_self ..).trans ?_
  exact congrArg (fun call : WebRtcCall => ({ call with pendingIceCandidates := 0 } : WebRtcCall)) h

/-- And what becomes of the call when the remote description is set. -/
theorem webRtcCall_remoteDescriptionSet (c : WebClient) (k : ℕ) (callId : Bytes) (exchange : Exchange)
    (w : ExchangingCall Bytes) (h : c.webrtcs k = w.webRtcCall) (hpeer : w.peerConnection ≠ none) :
    (c.remoteDescriptionSet k callId (flushNext exchange)).webrtcs k =
      ((w.resolve exchange .setRemoteDescription).resume exchange .setRemoteDescription).webRtcCall := by
  obtain ⟨peerConnection, hconnection⟩ := Option.ne_none_iff_exists'.mp hpeer
  refine webRtcCall_flushPendingIceCandidates _ k callId exchange (w.resolve exchange .setRemoteDescription) ?_ ?_
  · refine (Function.update_self ..).trans ?_
    rw [h]
    rfl
  · show w.peerConnection.map (fun _ => PeerConnection.mk true) = some ⟨true⟩
    rw [hconnection]
    rfl

end ExchangingCall

end ChatService
