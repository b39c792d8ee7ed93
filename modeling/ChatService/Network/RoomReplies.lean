import ChatService.Foundation.Utf8
import ChatService.Server.Sends

/-!
# Room requests of one client, and the replies to them

A client sends requests about rooms without waiting for the replies, and the replies do not name the room: the
client remembers a room and takes the next reply to be about it.  `RoomSession` joins such a client to the
server's rooms by queues.  The server handles the requests in order, the gateway may refuse one on its own,
other users change the rooms, and other messages arrive in between.

The two clients are instances of `RoomClient`.  `RoomClient.Lawful` is what their handlers have to meet;
`announcements_right` is what follows for every run.
-/

namespace ChatService

open AtomicProgram

/-! ### Requests and the server -/

inductive RoomAction where
  | create
  | join
  | leave
deriving DecidableEq, Repr

/-- The type of the request. -/
def RoomAction.type : RoomAction → String
  | create => "create_room"
  | join => "join"
  | leave => "leave"

/-- The text of the reply when it is done. -/
def RoomAction.success : RoomAction → String
  | create => "room created"
  | join => "joined room"
  | leave => "left room"

/-- The success that a message of this type and this text reports. -/
def RoomAction.reported (type text : List Char) : Option RoomAction :=
  if type = "ok".toList then [RoomAction.create, .join, .leave].find? fun action => text = action.success.toList
  else none

theorem RoomAction.reported_eq_some {type text : List Char} {action : RoomAction} :
    RoomAction.reported type text = some action ↔ type = "ok".toList ∧ text = action.success.toList := by
  rw [RoomAction.reported]
  split_ifs with htype
  · rw [and_iff_right htype]
    constructor
    · intro hfound
      have hsuccess := List.find?_some hfound
      exact of_decide_eq_true hsuccess
    · rintro rfl
      cases action <;> decide
  · exact iff_of_false nofun fun h => htype h.1

theorem RoomAction.reported_error (text : List Char) : RoomAction.reported "error".toList text = none :=
  if_neg (by decide)

structure RoomRequest where
  action : RoomAction
  room : List Char
deriving DecidableEq

/-- A client announces the room that is pending for the success that was reported. -/
def RoomRequest.announced (reported : Option RoomAction) (pending : RoomAction → Option (List Char)) :
    Option RoomRequest :=
  reported.bind fun action => (pending action).map fun room => ⟨action, room⟩

theorem RoomRequest.announced_eq_some {reported : Option RoomAction} {pending : RoomAction → Option (List Char)}
    {request : RoomRequest} : RoomRequest.announced reported pending = some request ↔
      reported = some request.action ∧ pending request.action = some request.room := by
  rw [RoomRequest.announced, Option.bind_eq_some_iff]
  constructor
  · rintro ⟨action, hreported, h⟩
    obtain ⟨room, hroom, rfl⟩ := Option.map_eq_some_iff.mp h
    exact ⟨hreported, hroom⟩
  · rintro ⟨hreported, hroom⟩
    exact ⟨request.action, hreported, Option.map_eq_some_iff.mpr ⟨request.room, hroom, rfl⟩⟩

def RoomRequest.object (request : RoomRequest) : JsonObject :=
  ((∅ : JsonObject).insert (ascii "type") (ascii request.action.type)).insert (ascii "room")
    (Utf8.encode request.room)

/-- What the rooms make of the request of a user. -/
def RoomManager.serve (m : RoomManager) (username : Bytes) (request : RoomRequest) : Option Bytes × RoomManager :=
  match request.action with
  | .create => m.createRoom (Utf8.encode request.room)
  | .join => m.joinRoom (Utf8.encode request.room) username
  | .leave => m.leaveRoom (Utf8.encode request.room) username

/-- The reply to the request. -/
def RoomAction.reply (action : RoomAction) : Option Bytes → JsonObject
  | none => makeOkResponse (ascii action.success)
  | some error => makeErrorResponse error

/-- **The server handles a request about a room**: the rooms change, and the user gets the reply. -/
theorem serve1_roomRequest (env : Env) {connection : Conn} {s : ServerState}
    (hname : (s.connections connection).username ≠ []) (request : RoomRequest) :
    serve1 env connection (.request request.object) s =
      (s.onRooms (s.roomManager.serve (s.connections connection).username request)).2.send connection
        (.json (request.action.reply (s.roomManager.serve (s.connections connection).username request).1)) := by
  have htype : fieldOrEmpty request.object "type" = ascii request.action.type := by
    rw [RoomRequest.object]
    simp (disch := decide) only [fieldOrEmpty_insert_self, fieldOrEmpty_insert_of_ne]
  have hroom : fieldOrEmpty request.object "room" = Utf8.encode request.room := fieldOrEmpty_insert_self ..
  have hanswer : ∀ (success : String) (error : Option Bytes) (s : ServerState),
      ((answerRoom connection success error).run exec env s).2 = s.send connection
        (.json (match error with
          | none => makeOkResponse (ascii success)
          | some error => makeErrorResponse error)) := by
    intro success error s
    cases error <;> rfl
  obtain ⟨action, room⟩ := request
  show ((handleRequest connection _).run exec env s).2 = _
  cases action with
  | create =>
    rw [handleRequest_createRoom htype, hroom, createRoom, Prog.run_bind, run_requireLoggedIn, if_neg hname]
    exact hanswer ..
  | join =>
    rw [handleRequest_join htype, hroom, joinRoom, Prog.run_bind, run_requireLoggedIn, if_neg hname]
    exact hanswer ..
  | leave =>
    rw [handleRequest_leave htype, hroom, leaveRoom, Prog.run_bind, run_requireLoggedIn, if_neg hname]
    exact hanswer ..

/-! ### Clients -/

/-- A client with states `σ`, actions of its user `α`, and messages of the server `μ`. -/
structure RoomClient (σ α μ : Type) where
  act : σ → α → σ
  read : σ → μ → σ
  /-- what it has sent; `none` stands for a request that is not about rooms -/
  sent : σ → List (Option RoomRequest)
  /-- the room that the next reply to a join (to a leave) will be taken to be about -/
  pending : σ → RoomAction → Option (List Char)
  /-- where an action of the user sets such a room -/
  actSets : σ → α → List RoomRequest
  /-- where a message of the server makes the client set such a room -/
  readSets : σ → μ → List RoomRequest
  /-- the messages that report success -/
  succeeded : RoomAction → μ
  failed : List Char → μ
  /-- which success a message reports -/
  reports : μ → Option RoomAction
  /-- the room that the client announces upon a message, and whether as joined or as left -/
  announces : σ → μ → Option RoomRequest

namespace RoomClient

variable {σ α μ : Type}

/-- A pending room stays, or is set; and what is sent about rooms is about the pending ones. -/
def Follows (c : RoomClient σ α μ) (s s' : σ) (sets : List RoomRequest) : Prop :=
  (∀ action room, c.pending s' action = some room → c.pending s action = some room ∨ ⟨action, room⟩ ∈ sets) ∧
    ∃ requests, c.sent s' = c.sent s ++ requests ∧
      ∀ request, some request ∈ requests → ∀ room, c.pending s' request.action = some room → request.room = room

/-- What the handlers of a client have to meet. -/
structure Lawful (c : RoomClient σ α μ) : Prop where
  act : ∀ s action, c.Follows s (c.act s action) (c.actSets s action)
  read : ∀ s message, c.Follows s (c.read s message) (c.readSets s message)
  succeeded : ∀ action, c.reports (c.succeeded action) = some action
  failed : ∀ error, c.reports (c.failed error) = none
  announces : ∀ s message request, c.announces s message = some request →
    c.reports message = some request.action ∧ c.pending s request.action = some request.room

/-- No pending room is set, and nothing is sent about rooms. -/
def Calm (c : RoomClient σ α μ) (s s' : σ) : Prop :=
  (∀ action room, c.pending s' action = some room → c.pending s action = some room) ∧
    ∃ n, c.sent s' = c.sent s ++ List.replicate n none

variable {c : RoomClient σ α μ} {s s' s'' : σ} {sets : List RoomRequest}

theorem Calm.refl (s : σ) : c.Calm s s := ⟨fun _ _ h => h, 0, (List.append_nil _).symm⟩

theorem Calm.trans (h : c.Calm s s') (h' : c.Calm s' s'') : c.Calm s s'' := by
  obtain ⟨hpending, n, hsent⟩ := h
  obtain ⟨hpending', n', hsent'⟩ := h'
  refine ⟨fun action room hroom => hpending action room (hpending' action room hroom), n + n', ?_⟩
  rw [hsent', hsent, List.append_assoc, List.replicate_append_replicate]

theorem Calm.follows (h : c.Calm s s') : c.Follows s s' sets := by
  obtain ⟨hpending, n, hsent⟩ := h
  refine ⟨fun action room hroom => .inl (hpending action room hroom), _, hsent, ?_⟩
  intro request hrequest
  exact absurd (List.eq_of_mem_replicate hrequest) nofun

/-- Pending rooms are set, and nothing is sent. -/
theorem follows_of_sent_eq (hpending : ∀ action room, c.pending s' action = some room →
      c.pending s action = some room ∨ ⟨action, room⟩ ∈ sets) (hsent : c.sent s' = c.sent s) : c.Follows s s' sets :=
  ⟨hpending, [], hsent.trans (List.append_nil _).symm, fun _ h => absurd h List.not_mem_nil⟩

theorem Follows.trans_calm (h : c.Follows s s' sets) (h' : c.Calm s' s'') : c.Follows s s'' sets := by
  obtain ⟨hpending, requests, hsent, hrequests⟩ := h
  obtain ⟨hpending', n, hsent'⟩ := h'
  refine ⟨fun action room hroom => hpending action room (hpending' action room hroom),
    requests ++ List.replicate n none, ?_, ?_⟩
  · rw [hsent', hsent, List.append_assoc]
  · intro request hrequest room hroom
    rcases List.mem_append.mp hrequest with hmem | hmem
    · exact hrequests request hmem room (hpending' _ room hroom)
    · exact absurd (List.eq_of_mem_replicate hmem) nofun

/-- A request about the pending room is sent. -/
theorem Follows.ask (asked : RoomRequest) (h : c.Follows s s' sets) (hpending : c.pending s'' = c.pending s')
    (hsent : c.sent s'' = c.sent s' ++ [some asked])
    (hroom : ∀ room, c.pending s' asked.action = some room → asked.room = room) : c.Follows s s'' sets := by
  obtain ⟨hsets, requests, hrequests, hasked⟩ := h
  rw [Follows, hpending]
  refine ⟨hsets, requests ++ [some asked], ?_, ?_⟩
  · rw [hsent, hrequests, List.append_assoc]
  · intro request hrequest
    rcases List.mem_append.mp hrequest with hmem | hmem
    · exact hasked request hmem
    · rw [Option.some.inj (List.mem_singleton.mp hmem)]
      exact hroom

end RoomClient

/-! ### Sessions -/

/-- A message on its way to the client: the reply to a request about rooms, with the requests of the user that
the server has accepted by then, or another message. -/
inductive SessionMessage (μ : Type) where
  | reply (request : RoomRequest) (error : Option (List Char)) (accepted : List RoomRequest)
  | other (message : μ)

def SessionMessage.message {σ α μ : Type} (c : RoomClient σ α μ) : SessionMessage μ → μ
  | reply request none _ => c.succeeded request.action
  | reply _ (some error) _ => c.failed error
  | other message => message

/-- The request that a delivery replies to. -/
def SessionMessage.request {μ : Type} : SessionMessage μ → Option RoomRequest
  | reply request _ _ => some request
  | other _ => none

def SessionMessage.accepted {μ : Type} : SessionMessage μ → List RoomRequest
  | reply _ _ accepted => accepted
  | other _ => []

/-- A client, and the server's rooms. -/
structure RoomSession (σ μ : Type) where
  client : σ
  username : Bytes
  rooms : RoomManager
  accepted : List RoomRequest
  toServer : List (Option RoomRequest)
  toClient : List (SessionMessage μ)

/-- What happens: the user acts, the server handles the next request, the gateway refuses one, another message
is sent (an event, or the reply to a request that is not about rooms), other users change the rooms, the client
reads the next message. -/
inductive SessionEvent (α μ : Type) where
  | act (action : α)
  | serve
  | refuse (index : ℕ) (error : List Char)
  | send (message : μ)
  | others (rooms : RoomManager)
  | read

namespace RoomSession

variable {σ α μ : Type} (c : RoomClient σ α μ)

/-- The client has nothing under way. -/
def start (client : σ) (username : Bytes) (rooms : RoomManager) : RoomSession σ μ where
  client := client
  username := username
  rooms := rooms
  accepted := []
  toServer := []
  toClient := []

/-- The client goes on, and what it has sent is under way. -/
def goOn (s : RoomSession σ μ) (client : σ) : RoomSession σ μ :=
  { s with client := client, toServer := s.toServer ++ (c.sent client).drop (c.sent s.client).length }

/-- The texts of the server are ASCII. -/
def textOfBytes (bytes : Bytes) : List Char := bytes.map fun b => Char.ofNat b.toNat

/-- The server handles a request about rooms. -/
def handle (s : RoomSession σ μ) (request : RoomRequest) : RoomSession σ μ :=
  let (error, rooms) := s.rooms.serve s.username request
  let accepted := if error = none then s.accepted ++ [request] else s.accepted
  { s with
    rooms := rooms
    accepted := accepted
    toClient := s.toClient ++ [.reply request (error.map textOfBytes) accepted] }

def step (s : RoomSession σ μ) : SessionEvent α μ → RoomSession σ μ
  | .act action => s.goOn c (c.act s.client action)
  | .serve =>
    match s.toServer with
    | [] => s
    | none :: rest => { s with toServer := rest }
    | some request :: rest => { s with toServer := rest }.handle request
  | .refuse index error =>
    if index < s.toServer.length then
      { s with toServer := s.toServer.eraseIdx index, toClient := s.toClient ++ [.other (c.failed error)] }
    else s
  | .send message =>
    if c.reports message = none then { s with toClient := s.toClient ++ [.other message] } else s
  | .others rooms => { s with rooms := rooms }
  | .read =>
    match s.toClient with
    | [] => s
    | delivery :: rest => { s with toClient := rest }.goOn c (c.read s.client (delivery.message c))

/-- The requests about rooms whose replies the client has not read. -/
def unanswered (s : RoomSession σ μ) : List RoomRequest :=
  s.toClient.filterMap SessionMessage.request ++ s.toServer.filterMap id

/-- Where the event makes the client set a pending room. -/
def sets (s : RoomSession σ μ) : SessionEvent α μ → List RoomRequest
  | .act action => c.actSets s.client action
  | .read =>
    match s.toClient with
    | [] => []
    | delivery :: _ => c.readSets s.client (delivery.message c)
  | _ => []

/-- A pending room is set only if the unanswered requests of this kind are about it too. -/
def Waits (s : RoomSession σ μ) (event : SessionEvent α μ) : Prop :=
  ∀ set ∈ s.sets c event, ∀ request ∈ s.unanswered, request.action = set.action → request.room = set.room

/-- If the client announces a room as joined (as left), the server had accepted the user's join (leave) of this
room when it sent the message. -/
def AnnouncesRight (s : RoomSession σ μ) : SessionEvent α μ → Prop
  | .read => ∀ delivery ∈ s.toClient.head?, ∀ request, c.announces s.client (delivery.message c) = some request →
      request ∈ delivery.accepted
  | _ => True

/-- `P` holds at each event of a run. -/
def Throughout (P : RoomSession σ μ → SessionEvent α μ → Prop) : RoomSession σ μ → List (SessionEvent α μ) → Prop
  | _, [] => True
  | s, event :: events => P s event ∧ Throughout P (s.step c event) events

instance (s : RoomSession σ μ) (event : SessionEvent α μ) : Decidable (s.Waits c event) :=
  inferInstanceAs (Decidable (∀ set ∈ s.sets c event, ∀ request ∈ s.unanswered,
    request.action = set.action → request.room = set.room))

instance (s : RoomSession σ μ) : ∀ event : SessionEvent α μ, Decidable (s.AnnouncesRight c event)
  | .read => inferInstanceAs (Decidable (∀ delivery ∈ s.toClient.head?,
      ∀ request ∈ c.announces s.client (delivery.message c), request ∈ delivery.accepted))
  | .act _ | .serve | .refuse .. | .send _ | .others _ => isTrue trivial

instance decidableThroughout (P : RoomSession σ μ → SessionEvent α μ → Prop) [∀ s event, Decidable (P s event)] :
    ∀ (s : RoomSession σ μ) (events : List (SessionEvent α μ)), Decidable (Throughout c P s events)
  | _, [] => isTrue trivial
  | s, event :: events =>
    have := decidableThroughout P (s.step c event) events
    inferInstanceAs (Decidable (P s event ∧ Throughout c P (s.step c event) events))

/-! ### The invariant -/

/-- The pending rooms are those of the unanswered requests, and the replies tell what was accepted. -/
structure Agrees (s : RoomSession σ μ) : Prop where
  pending : ∀ action room, c.pending s.client action = some room → ∀ request ∈ s.unanswered,
    request.action = action → request.room = room
  accepted : ∀ delivery ∈ s.toClient, ∀ request accepted, delivery = .reply request none accepted →
    request ∈ accepted
  others : ∀ message, SessionMessage.other message ∈ s.toClient → c.reports message = none

variable {c} {s : RoomSession σ μ}

theorem agrees_start (client : σ) (username : Bytes) (rooms : RoomManager) :
    (start client username rooms : RoomSession σ μ).Agrees c where
  pending _ _ _ _ hrequest := absurd hrequest List.not_mem_nil
  accepted _ hdelivery := absurd hdelivery List.not_mem_nil
  others _ hmessage := absurd hmessage List.not_mem_nil

/-- The client acts or reads. -/
theorem Agrees.goOn (h : s.Agrees c) {client : σ} {sets : List RoomRequest} (hfollows : c.Follows s.client client sets)
    (hsets : ∀ set ∈ sets, ∀ request ∈ s.unanswered, request.action = set.action → request.room = set.room) :
    (s.goOn c client).Agrees c := by
  obtain ⟨hpending, requests, hsent, hrequests⟩ := hfollows
  have hnew : (c.sent client).drop (c.sent s.client).length = requests := by
    rw [hsent]
    exact List.drop_left
  refine ⟨?_, h.accepted, h.others⟩
  intro action room hroom request hrequest haction
  have hcases : request ∈ s.unanswered ∨ some request ∈ requests := by
    rw [unanswered, RoomSession.goOn, hnew, List.filterMap_append, ← List.append_assoc] at hrequest
    rcases List.mem_append.mp hrequest with hold | hnew
    · exact .inl hold
    · obtain ⟨_, hmem, rfl⟩ := List.mem_filterMap.mp hnew
      exact .inr hmem
  rcases hcases with hold | hnew
  · rcases hpending action room hroom with hkept | hset
    · exact h.pending action room hkept request hold haction
    · exact hsets _ hset request hold haction
  · exact hrequests request hnew room (haction ▸ hroom)

/-- Nothing new is unanswered. -/
theorem Agrees.of_subset (h : s.Agrees c) {s' : RoomSession σ μ} (hclient : s'.client = s.client)
    (hunanswered : ∀ request ∈ s'.unanswered, request ∈ s.unanswered)
    (haccepted : ∀ delivery ∈ s'.toClient, ∀ request accepted, delivery = .reply request none accepted →
      request ∈ accepted)
    (hothers : ∀ message, SessionMessage.other message ∈ s'.toClient → c.reports message = none) : s'.Agrees c := by
  refine ⟨?_, haccepted, hothers⟩
  intro action room hroom request hrequest
  rw [hclient] at hroom
  exact h.pending action room hroom request (hunanswered request hrequest)

/-- The server handles a request: it is unanswered still, and its reply tells whether it was accepted. -/
theorem Agrees.handle {request : RoomRequest} {rest : List (Option RoomRequest)} (h : s.Agrees c)
    (hrequest : s.toServer = some request :: rest) :
    (({ s with toServer := rest } : RoomSession σ μ).handle request).Agrees c := by
  refine h.of_subset rfl ?_ ?_ ?_
  · intro request' hmem
    have hunanswered : s.unanswered = s.toClient.filterMap SessionMessage.request ++ request :: rest.filterMap id := by
      rw [unanswered, hrequest]
      rfl
    rw [unanswered, RoomSession.handle, List.filterMap_append, List.append_assoc] at hmem
    rw [hunanswered]
    exact hmem
  · intro delivery hdelivery request' accepted heq
    rcases List.mem_append.mp hdelivery with hold | hnew
    · exact h.accepted delivery hold request' accepted heq
    · rw [List.mem_singleton.mp hnew] at heq
      obtain ⟨rfl, herror, rfl⟩ := SessionMessage.reply.inj heq
      rw [if_pos (Option.map_eq_none_iff.mp herror)]
      exact List.mem_append_right _ (List.mem_singleton_self _)
  · intro message hmessage
    rcases List.mem_append.mp hmessage with hold | hnew
    · exact h.others message hold
    · cases List.mem_singleton.mp hnew

/-- A message that reports no success is sent. -/
theorem Agrees.send {message : μ} {toServer : List (Option RoomRequest)} (h : s.Agrees c)
    (hmessage : c.reports message = none) (htoServer : toServer.Sublist s.toServer) :
    ({ s with toServer := toServer, toClient := s.toClient ++ [.other message] } : RoomSession σ μ).Agrees c := by
  refine h.of_subset rfl ?_ ?_ ?_
  · intro request hrequest
    rw [unanswered, List.filterMap_append, List.append_assoc] at hrequest
    rcases List.mem_append.mp hrequest with hold | hnew
    · exact List.mem_append_left _ hold
    · exact List.mem_append_right _ ((htoServer.filterMap id).subset hnew)
  · intro delivery hdelivery request accepted heq
    rcases List.mem_append.mp hdelivery with hold | hnew
    · exact h.accepted delivery hold request accepted heq
    · cases (List.mem_singleton.mp hnew).symm.trans heq
  · intro message' hmessage'
    rcases List.mem_append.mp hmessage' with hold | hnew
    · exact h.others message' hold
    · obtain rfl := SessionMessage.other.inj (List.mem_singleton.mp hnew)
      exact hmessage

/-- **One event** keeps the invariant, if it sets no pending room too early. -/
theorem Agrees.step (hc : c.Lawful) (h : s.Agrees c) {event : SessionEvent α μ} (hwaits : s.Waits c event) :
    (s.step c event).Agrees c := by
  cases event with
  | act action => exact h.goOn (hc.act s.client action) hwaits
  | serve =>
    rw [RoomSession.step]
    split
    · exact h
    · next rest hrest =>
      refine h.of_subset rfl ?_ h.accepted h.others
      intro request hrequest
      rw [unanswered, hrest]
      exact hrequest
    · next request rest hrest => exact h.handle hrest
  | refuse index error =>
    rw [RoomSession.step]
    split_ifs
    · exact h.send (hc.failed error) (List.eraseIdx_sublist ..)
    · exact h
  | send message =>
    rw [RoomSession.step]
    split_ifs with hmessage
    · exact h.send hmessage (List.Sublist.refl _)
    · exact h
  | others rooms => exact ⟨h.pending, h.accepted, h.others⟩
  | read =>
    rw [RoomSession.step]
    split
    · exact h
    · next delivery rest hrest =>
      have hsubset : ∀ request ∈ ({ s with toClient := rest } : RoomSession σ μ).unanswered,
          request ∈ s.unanswered := by
        intro request hrequest
        rcases List.mem_append.mp hrequest with hold | hnew
        · refine List.mem_append_left _ ?_
          rw [hrest]
          exact ((List.sublist_cons_self ..).filterMap _).subset hold
        · exact List.mem_append_right _ hnew
      have hmem : ∀ delivery' ∈ rest, delivery' ∈ s.toClient := by
        intro delivery' hdelivery'
        rw [hrest]
        exact List.mem_cons_of_mem _ hdelivery'
      have hread : ({ s with toClient := rest } : RoomSession σ μ).Agrees c :=
        h.of_subset rfl hsubset (fun delivery' hdelivery' => h.accepted delivery' (hmem _ hdelivery'))
          fun message hmessage => h.others message (hmem _ hmessage)
      refine hread.goOn (hc.read s.client (delivery.message c)) ?_
      intro set hset request hrequest
      refine hwaits set ?_ request (hsubset request hrequest)
      rw [sets, hrest]
      exact hset

/-- **One announcement.** -/
theorem Agrees.announcesRight (hc : c.Lawful) (h : s.Agrees c) (event : SessionEvent α μ) :
    s.AnnouncesRight c event := by
  cases event with
  | read =>
    intro delivery hdelivery request hannounces
    have hmem : delivery ∈ s.toClient := List.mem_of_mem_head? hdelivery
    obtain ⟨hreports, hpending⟩ := hc.announces _ _ _ hannounces
    match delivery with
    | .reply request' none accepted =>
      -- the reply is the one to an unanswered request of this kind
      have haction : request'.action = request.action :=
        Option.some.inj ((hc.succeeded request'.action).symm.trans hreports)
      have hunanswered : request' ∈ s.unanswered :=
        List.mem_append_left _ (List.mem_filterMap.mpr ⟨_, hmem, rfl⟩)
      have hroom : request'.room = request.room := h.pending _ _ hpending request' hunanswered haction
      have hsame : request' = request := by
        cases request'
        cases request
        exact congrArg₂ RoomRequest.mk haction hroom
      rw [← hsame]
      exact h.accepted _ hmem request' accepted rfl
    | .reply request' (some error) accepted => exact absurd ((hc.failed error).symm.trans hreports) nofun
    | .other message => exact absurd ((h.others message hmem).symm.trans hreports) nofun
  | _ => trivial

/-- **Announcements are right** in every run in which no pending room is set too early. -/
theorem announcements_right (hc : c.Lawful) (client : σ) (username : Bytes) (rooms : RoomManager)
    (events : List (SessionEvent α μ)) (hwaits : Throughout c (Waits c) (start client username rooms) events) :
    Throughout c (AnnouncesRight c) (start client username rooms) events := by
  have hagrees : (start client username rooms : RoomSession σ μ).Agrees c := agrees_start client username rooms
  generalize (start client username rooms : RoomSession σ μ) = s at hagrees hwaits
  induction events generalizing s with
  | nil => trivial
  | cons event events ih =>
    obtain ⟨hevent, hevents⟩ := hwaits
    exact ⟨hagrees.announcesRight hc event, ih _ (hagrees.step hc hevent) hevents⟩

end RoomSession

end ChatService
