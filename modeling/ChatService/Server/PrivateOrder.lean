import ChatService.Server.AsideHandlers
import ChatService.Server.SentOrder

/-!
# The order of the private events

A private message is saved, its receiver is looked up, and if the receiver is online the event goes out on
the one connection that was found.  `Errand` says how far a handler has come with this.  It is finer than
`Delivery`: once the event is sent the errand is done, so no handler sends it again.

The ids are handed out by the storage, and no two handlers act for one sender at a time; so no private event
is sent twice, on whatever connections, and the events of one sender are sent in the order of their ids.
-/

namespace ChatService

open AtomicProgram

/-- A private message that is saved. -/
structure Letter where
  id : ℤ
  sender : Bytes
  receiver : Bytes
  content : Bytes
  createdAt : ℤ

/-- The line for the receiver. -/
def Letter.event (letter : Letter) : Outgoing :=
  .json (privateEvent letter.sender letter.content letter.id letter.createdAt)

/-- The line is the event of a private message with this id, from this sender. -/
def PrivateEvent (payload : Outgoing) (id : ℤ) (sender : Bytes) : Prop :=
  ∃ letter : Letter, payload = letter.event ∧ letter.id = id ∧ letter.sender = sender

/-- Two private events have different ids; if they are of one sender, the later one has the larger. -/
def PrivateBefore (e e' : Sent) : Prop :=
  ∀ id id' sender sender', PrivateEvent e.payload id sender → PrivateEvent e'.payload id' sender' →
    id ≠ id' ∧ (sender = sender' → id < id')

section

variable {letter letter' : Letter} {payload : Outgoing} {id id' : ℤ} {sender sender' : Bytes}

/-- The fields of an event are those of its message. -/
theorem privateEvent_fields (username message : Bytes) (messageId createdAt : ℤ) :
    let event := privateEvent username message messageId createdAt
    fieldOrEmpty event "from" = username ∧ fieldOrEmpty event "message" = message ∧
      fieldOrEmpty event "id" = int64ToString messageId ∧
      fieldOrEmpty event "created_at" = int64ToString createdAt := by
  simp (disch := decide) only [privateEvent, fieldOrEmpty_insert_self, fieldOrEmpty_insert_of_ne, and_self]

/-- An event determines its message, but for the receiver. -/
theorem Letter.event_inj (h : letter.event = letter'.event) :
    letter.sender = letter'.sender ∧ letter.content = letter'.content ∧ letter.id = letter'.id ∧
      letter.createdAt = letter'.createdAt := by
  have hobjects : privateEvent letter.sender letter.content letter.id letter.createdAt =
      privateEvent letter'.sender letter'.content letter'.id letter'.createdAt := Outgoing.json.inj h
  obtain ⟨hsender, hcontent, hid, hcreatedAt⟩ :=
    privateEvent_fields letter.sender letter.content letter.id letter.createdAt
  obtain ⟨hsender', hcontent', hid', hcreatedAt'⟩ :=
    privateEvent_fields letter'.sender letter'.content letter'.id letter'.createdAt
  rw [hobjects] at hsender hcontent hid hcreatedAt
  exact ⟨hsender.symm.trans hsender', hcontent.symm.trans hcontent',
    int64ToString_injective (hid.symm.trans hid'),
    int64ToString_injective (hcreatedAt.symm.trans hcreatedAt')⟩

theorem Letter.privateEvent (letter : Letter) : PrivateEvent letter.event letter.id letter.sender :=
  ⟨letter, rfl, rfl, rfl⟩

theorem privateEvent_event (h : PrivateEvent letter.event id sender) :
    id = letter.id ∧ sender = letter.sender := by
  obtain ⟨letter', heq, rfl, rfl⟩ := h
  obtain ⟨hsender, -, hid, -⟩ := Letter.event_inj heq
  exact ⟨hid.symm, hsender.symm⟩

theorem not_privateEvent_of_plain (h : payload.Plain) : ¬ PrivateEvent payload id sender := by
  rintro ⟨letter, rfl, -⟩
  exact h.1 (type_privateEvent _ _ _ _)

theorem not_privateEvent_room {room username message : Bytes} {messageId createdAt : ℤ} :
    ¬ PrivateEvent (.json (roomEvent room username message messageId createdAt)) id sender := by
  rintro ⟨letter, heq, -⟩
  have hobjects : roomEvent room username message messageId createdAt =
      ChatService.privateEvent letter.sender letter.content letter.id letter.createdAt := Outgoing.json.inj heq
  have htype := type_roomEvent room username message messageId createdAt
  rw [hobjects, type_privateEvent] at htype
  exact absurd htype (by decide)

theorem not_privateEvent_privateHistory {peer : Bytes} {messages : List Message} :
    ¬ PrivateEvent (.privateHistory peer messages) id sender := by
  rintro ⟨letter, heq, -⟩
  simp [Letter.event] at heq

theorem not_privateEvent_roomHistory {room : Bytes} {messages : List Message} :
    ¬ PrivateEvent (.roomHistory room messages) id sender := by
  rintro ⟨letter, heq, -⟩
  simp [Letter.event] at heq

end

/-! ### How far a handler has come -/

inductive Errand where
  /-- it has read nothing yet -/
  | idle
  /-- it acts for this user -/
  | acting (username : Bytes)
  /-- the message is saved -/
  | saved (letter : Letter)
  /-- the receiver is registered for this connection -/
  | found (letter : Letter) (connection : Conn)
  /-- there is nothing to send, or it is sent -/
  | settled

namespace Errand

/-- What an action and its answer make of it. -/
def next (errand : Errand) : (op : Op) → op.Response → Errand
  | .username _, name => if name = [] then settled else acting name
  | .currentTimeSeconds, _ => errand
  | .savePrivateMessage sender receiver content createdAt, some id =>
    saved ⟨id, sender, receiver, content, createdAt⟩
  | .userFind _, connection =>
    match errand, connection with
    | saved letter, some connection => found letter connection
    | _, _ => settled
  | _, _ => settled

/-- What may be sent to whom. -/
def MaySend (connection : Conn) (payload : Outgoing) : Errand → Prop
  | saved _ => False
  | found letter connection' => connection = connection' ∧ payload = letter.event
  | _ => ∀ id sender, ¬ PrivateEvent payload id sender

/-- No message is in hand. -/
def Free : Errand → Prop
  | saved _ => False
  | found _ _ => False
  | _ => True

/-- The message in hand. -/
def letter? : Errand → Option Letter
  | saved letter => some letter
  | found letter _ => some letter
  | _ => none

/-- The user it acts for. -/
def user? : Errand → Option Bytes
  | acting username => some username
  | saved letter => some letter.sender
  | found letter _ => some letter.sender
  | _ => none

variable {errand : Errand} {letter : Letter}

theorem user?_of_letter? (h : errand.letter? = some letter) : errand.user? = some letter.sender := by
  cases errand with
  | saved letter' =>
    obtain rfl := Option.some.inj h
    rfl
  | found letter' connection =>
    obtain rfl := Option.some.inj h
    rfl
  | _ => exact absurd h (by simp [letter?])

end Errand

/-- Which actions connection `c` may take. -/
def Op.PostedIn (c : Conn) (errand : Errand) : Op → Prop
  | .username connection => connection = c ∧ errand = .idle
  | .savePrivateMessage sender _ _ _ => errand = .acting sender
  | .userFind name =>
    match errand with
    | .saved letter => name = letter.receiver
    | .found _ _ => False
    | _ => True
  | .send connection payload => errand.MaySend connection payload
  | _ => errand.Free

def posting : Typestate Conn Op Op.Response Errand where
  resting := .idle
  next _ := Errand.next
  allowed := Op.PostedIn
  mayRest := Errand.Free

/-! ### The handlers keep to it -/

/-- The actions that have nothing to do with private messages. -/
def Op.Unposted : Op → Prop
  | .username _ => False
  | .savePrivateMessage _ _ _ _ => False
  | .send _ payload => ∀ id sender, ¬ PrivateEvent payload id sender
  | _ => True

theorem Op.Aside.unposted {op : Op} (h : op.Aside) : op.Unposted := by
  cases op with
  | username connection => exact h.elim
  | savePrivateMessage sender receiver content createdAt => exact h.elim
  | send connection payload => exact fun id sender => not_privateEvent_of_plain h
  | _ => exact trivial

/-- They are in place where no message is in hand, and none is in hand afterwards. -/
theorem Op.Unposted.posted {op : Op} (h : op.Unposted) {errand : Errand} (hfree : errand.Free) (c : Conn) :
    op.PostedIn c errand ∧ ∀ r, (errand.next op r).Free := by
  cases op with
  | username connection => exact h.elim
  | savePrivateMessage sender receiver content createdAt => exact h.elim
  | send connection payload =>
    cases errand with
    | saved letter => exact hfree.elim
    | found letter connection => exact hfree.elim
    | _ => exact ⟨h, fun _ => trivial⟩
  | userFind username =>
    cases errand with
    | saved letter => exact hfree.elim
    | found letter connection => exact hfree.elim
    | _ => exact ⟨trivial, fun _ => trivial⟩
  | currentTimeSeconds => exact ⟨hfree, fun _ => hfree⟩
  | _ => exact ⟨hfree, fun _ => trivial⟩

theorem neutral_posting : Neutral posting Errand.Free where
  username c := by
    refine ⟨⟨rfl, rfl⟩, fun name => ?_⟩
    show (if name = [] then Errand.settled else .acting name).Free
    split_ifs <;> exact trivial
  aside h hfree := h.unposted.posted hfree _
  resting := trivial
  rest h := h

section

variable {c : Conn} {errand : Errand}

/-- A handler that takes such actions only. -/
theorem posts_of_only {p : Handler Unit} (h : p.Only Op.Unposted) (hfree : errand.Free) :
    KeepsTo posting c errand p := by
  induction p generalizing errand with
  | ret a => exact hfree
  | call op next ih =>
    obtain ⟨hallowed, hnext⟩ := h.1.posted hfree c
    exact ⟨hallowed, fun r => ih r (h.2 r) (hnext r)⟩

theorem posts_of_aside {p : Handler Unit} (h : p.Only Op.Aside) (hfree : errand.Free) :
    KeepsTo posting c errand p :=
  neutral_posting.only h hfree

/-- A handler that asks for a login acts for its user then. -/
theorem posts_requireLoggedIn {f : Option Bytes → Handler Unit} (hnone : (f none).Only Op.Aside)
    (hsome : ∀ username, KeepsTo posting c (.acting username) (f (some username))) :
    KeepsTo posting c .idle (requireLoggedIn c >>= f) := by
  refine neutral_posting.requireLoggedIn hnone fun username husername => ?_
  show KeepsTo posting c (if username = [] then Errand.settled else .acting username) _
  rw [if_neg husername]
  exact hsome username

/-- The event goes out between the look-up and the response, if there is anybody to send it to. -/
theorem sendPrivate_posts (target message : Bytes) :
    KeepsTo posting c .idle (sendPrivate c target message) := by
  refine posts_requireLoggedIn trivial fun username => ?_
  dsimp only
  split_ifs
  · exact posts_of_aside (aside_sendError _) trivial
  · exact posts_of_aside (aside_sendError _) trivial
  · refine ⟨trivial, fun createdAt => ⟨rfl, fun saved => ?_⟩⟩
    cases saved with
    | none => exact posts_of_aside (aside_sendError _) trivial
    | some messageId =>
      have hresponse : ∀ text, ∀ id sender,
          ¬ PrivateEvent (.json (privateResponse text target messageId createdAt)) id sender :=
        fun text _ _ => not_privateEvent_of_plain (plain_privateResponse _ _ _ _)
      refine ⟨rfl, fun found => ?_⟩
      cases found with
      | none => exact ⟨hresponse _, fun _ => trivial⟩
      | some targetConnection => exact ⟨⟨rfl, rfl⟩, fun _ => ⟨hresponse _, fun _ => trivial⟩⟩

theorem unposted_sendToAll {payload : Outgoing} (h : ∀ id sender, ¬ PrivateEvent payload id sender)
    (connections : List Conn) : (sendToAll payload connections).Only Op.Unposted := by
  induction connections with
  | nil => exact trivial
  | cons connection connections ih => exact ⟨h, fun _ => ih⟩

theorem sendRoomMessage_posts (room message : Bytes) :
    KeepsTo posting c .idle (sendRoomMessage c room message) := by
  refine posts_requireLoggedIn trivial fun username => ?_
  dsimp only
  split_ifs
  · exact posts_of_aside (aside_sendError _) trivial
  · refine ⟨trivial, fun members => ?_⟩
    cases members with
    | error error => exact posts_of_aside (aside_sendError error) trivial
    | ok members =>
      refine ⟨trivial, fun createdAt => ⟨trivial, fun saved => ?_⟩⟩
      cases saved with
      | none => exact posts_of_aside (aside_sendError _) trivial
      | some messageId =>
        exact ⟨trivial, fun connections =>
          posts_of_only (unposted_sendToAll (fun _ _ => not_privateEvent_room) connections) trivial⟩

theorem sendPrivateHistory_posts (peer limitText before : Bytes) :
    KeepsTo posting c .idle (sendPrivateHistory c peer limitText before) := by
  refine posts_requireLoggedIn trivial fun username => ?_
  dsimp only
  split_ifs
  · exact posts_of_aside (aside_sendError _) trivial
  · exact ⟨trivial, fun messages => ⟨fun _ _ => not_privateEvent_privateHistory, fun _ => trivial⟩⟩

theorem sendRoomHistory_posts (room limitText before : Bytes) :
    KeepsTo posting c .idle (sendRoomHistory c room limitText before) := by
  refine posts_requireLoggedIn trivial fun username => ?_
  dsimp only
  split_ifs
  · exact posts_of_aside (aside_sendError _) trivial
  · exact ⟨trivial, fun messages => ⟨fun _ _ => not_privateEvent_roomHistory, fun _ => trivial⟩⟩

end

/-- **Every handler sends the event of what it saved, once.** -/
theorem server_posts (c : Conn) (input : Input) :
    posting.Follows c posting.resting (server.program c input) fun errand _ => posting.mayRest errand :=
  neutral_posting.server (fun _ => sendPrivate_posts) (fun _ => sendRoomMessage_posts)
    (fun _ => sendPrivateHistory_posts) (fun _ => sendRoomHistory_posts) c input

/-! ### What holds in every run -/

structure Posting (s : ServerState) (P : Conn → Phase × Errand) : Prop where
  identity : Identity s fun c => (P c).1
  acting : ∀ {c u}, (P c).2.user? = some u → (P c).1 = .acting u
  issued : ∀ e ∈ s.sent, ∀ {id u}, PrivateEvent e.payload id u → id ≤ s.storage.lastId
  fresh : ∀ {c letter}, (P c).2.letter? = some letter → letter.id ≤ s.storage.lastId ∧
    ∀ e ∈ s.sent, ∀ {id u}, PrivateEvent e.payload id u →
      id ≠ letter.id ∧ (u = letter.sender → id < letter.id)
  apart : ∀ {c c' letter letter'}, (P c).2.letter? = some letter → (P c').2.letter? = some letter' →
    c ≠ c' → letter.id ≠ letter'.id
  sent : s.sent.Pairwise PrivateBefore

/-- A handler that acts for a user acts for the same user afterwards. -/
theorem acting_errand {c : Conn} {phase : Phase} {errand : Errand} {op : Op} (hallowed : op.PostedIn c errand)
    (hacting : ∀ {u}, errand.user? = some u → phase = .acting u) (r : op.Response) {u : Bytes}
    (hu : (errand.next op r).user? = some u) : phase.next op r = .acting u := by
  cases op with
  | username connection =>
    change (if r = [] then Errand.settled else .acting r).user? = some u at hu
    change (if r = [] then Phase.anonymous else .acting r) = .acting u
    split_ifs at hu ⊢ with hname
    · exact absurd hu (by simp [Errand.user?])
    · rw [Option.some.inj hu]
  | currentTimeSeconds => exact hacting hu
  | savePrivateMessage sender receiver content createdAt =>
    cases r with
    | none => exact absurd hu (by simp [Errand.next, Errand.user?])
    | some id =>
      obtain rfl := Option.some.inj hu
      have herrand : errand = .acting sender := hallowed
      exact hacting (by rw [herrand]; rfl)
  | userFind name =>
    cases errand with
    | saved letter =>
      cases r with
      | none => exact absurd hu (by simp [Errand.next, Errand.user?])
      | some connection =>
        obtain rfl := Option.some.inj hu
        have hphase := hacting (u := letter.sender) rfl
        subst hphase
        rfl
    | _ => cases r <;> exact absurd hu (by simp [Errand.next, Errand.user?])
  | _ => exact absurd hu (by simp [Errand.next, Errand.user?])

/-- After an action, a message is in hand that was in hand before, or that was saved just now. -/
theorem letter_next {errand : Errand} {op : Op} {r : op.Response} {letter : Letter}
    (h : (errand.next op r).letter? = some letter) :
    errand.letter? = some letter ∨
      (⟨op, r⟩ : Event Op Op.Response) =
        ⟨.savePrivateMessage letter.sender letter.receiver letter.content letter.createdAt,
          some letter.id⟩ := by
  cases op with
  | username connection =>
    change (if r = [] then Errand.settled else .acting r).letter? = some letter at h
    split_ifs at h <;> exact absurd h (by simp [Errand.letter?])
  | currentTimeSeconds => exact .inl h
  | savePrivateMessage sender receiver content createdAt =>
    cases r with
    | none => exact absurd h (by simp [Errand.next, Errand.letter?])
    | some id =>
      obtain rfl := Option.some.inj h
      exact .inr rfl
  | userFind name =>
    cases errand with
    | saved letter' =>
      cases r with
      | none => exact absurd h (by simp [Errand.next, Errand.letter?])
      | some connection => exact .inl h
    | _ => cases r <;> exact absurd h (by simp [Errand.next, Errand.letter?])
  | _ => exact absurd h (by simp [Errand.next, Errand.letter?])

section

variable {s : ServerState} {P : Conn → Phase × Errand} {t : Conn}

/-- No two handlers act for one user. -/
theorem Posting.unique (h : Posting s P) {c c' : Conn} {u : Bytes} (hc : (P c).2.user? = some u)
    (hc' : (P c').2.user? = some u) : c = c' := by
  have honline : ∀ {k : Conn}, (P k).2.user? = some u → s.userManager.users[u]? = some k := by
    intro k hk
    have hphase := h.acting hk
    exact (h.identity.each k).registered (by rw [hphase]; rfl) (by rw [hphase]; simp)
  exact Option.some.inj ((honline hc).symm.trans (honline hc'))

/-- A private message that is saved gets the next id. -/
theorem exec_savePrivateMessage (env : Env) (sender receiver content : Bytes) (timestamp : ℤ)
    (s : ServerState) :
    ((exec env (.savePrivateMessage sender receiver content timestamp) s).1 : Option ℤ) =
        (if env.saved then some s.storage.nextId else none) ∧
      (exec env (.savePrivateMessage sender receiver content timestamp) s).2.storage.lastId =
        if env.saved then s.storage.nextId else s.storage.lastId := by
  show (s.storage.savePrivateMessage env.saved sender receiver content timestamp).1 = _ ∧
    (s.storage.savePrivateMessage env.saved sender receiver content timestamp).2.lastId = _
  rw [ChatStorage.savePrivateMessage, ChatStorage.insert]
  split_ifs
  · exact ⟨rfl, rfl⟩
  · exact ⟨rfl, rfl⟩

/-- So the letter that is saved just now has the next id. -/
theorem id_of_saved {op : Op} {env : Env} {letter : Letter}
    (h : (⟨op, (exec env op s).1⟩ : Event Op Op.Response) =
      ⟨.savePrivateMessage letter.sender letter.receiver letter.content letter.createdAt, some letter.id⟩) :
    letter.id = s.storage.nextId ∧ (exec env op s).2.storage.lastId = s.storage.nextId := by
  obtain ⟨rfl, hresponse⟩ := Event.mk.inj h
  obtain ⟨hid, hlast⟩ := exec_savePrivateMessage env letter.sender letter.receiver letter.content
    letter.createdAt s
  rw [eq_of_heq hresponse] at hid
  split_ifs at hid hlast
  · exact ⟨Option.some.inj hid, hlast⟩

/-- A line is sent. -/
theorem Posting.send (h : Posting s P) {connection : Conn} {payload : Outgoing} {phase : Phase}
    (hidentity : Identity (s.send connection payload) (Function.update (fun c => (P c).1) t phase))
    (hmay : (P t).2.MaySend connection payload) :
    Posting (s.send connection payload)
      (Function.update P t (phase, (P t).2.next (.send connection payload) ())) := by
  -- if it is the event of a message, the message is the one in hand
  have hletter : ∀ {id u}, PrivateEvent payload id u → ∃ letter : Letter,
      (P t).2.letter? = some letter ∧ letter.id = id ∧ letter.sender = u := by
    intro id u hevent
    cases herrand : (P t).2 with
    | saved letter =>
      rw [herrand] at hmay
      exact hmay.elim
    | found letter connection' =>
      rw [herrand] at hmay
      obtain ⟨-, rfl⟩ := hmay
      obtain ⟨rfl, rfl⟩ := privateEvent_event hevent
      exact ⟨letter, rfl, rfl, rfl⟩
    | _ =>
      rw [herrand] at hmay
      exact absurd hevent (hmay id u)
  have hold : ∀ {c letter}, (Function.update P t (phase, (P t).2.next (.send connection payload) ()) c).2.letter?
      = some letter → c ≠ t ∧ (P c).2.letter? = some letter := by
    intro c letter hc
    by_cases hct : c = t
    · rw [hct, Function.update_self] at hc
      exact absurd hc (by simp [Errand.next, Errand.letter?])
    · rw [Function.update_of_ne hct] at hc
      exact ⟨hct, hc⟩
  refine ⟨?_, @fun c u hu => ?_, @fun e he id u hevent => ?_, @fun c letter hc => ?_, ?_, ?_⟩
  · rwa [Typestate.update_fst]
  · by_cases hc : c = t
    · rw [hc, Function.update_self] at hu
      exact absurd hu (by simp [Errand.next, Errand.user?])
    · rw [Function.update_of_ne hc] at hu ⊢
      exact h.acting hu
  · rcases List.mem_append.mp he with he | he
    · exact h.issued e he hevent
    · rw [List.mem_singleton.mp he] at hevent
      obtain ⟨letter, hletter, rfl, -⟩ := hletter hevent
      exact (h.fresh hletter).1
  · obtain ⟨hct, hc⟩ := hold hc
    refine ⟨(h.fresh hc).1, fun e he id u hevent => ?_⟩
    rcases List.mem_append.mp he with he | he
    · exact (h.fresh hc).2 e he hevent
    · rw [List.mem_singleton.mp he] at hevent
      obtain ⟨letter', hletter', rfl, rfl⟩ := hletter hevent
      refine ⟨(h.apart hc hletter' hct).symm, fun hsame => ?_⟩
      -- nobody else acts for the sender
      have huser : (P c).2.user? = some letter'.sender := by
        rw [Errand.user?_of_letter? hc, hsame]
      exact absurd (h.unique huser (Errand.user?_of_letter? hletter')) hct
  · intro c c' letter letter' hc hc' hne
    exact h.apart (hold hc).2 (hold hc').2 hne
  · show (s.sent ++ [_]).Pairwise PrivateBefore
    refine List.pairwise_append.mpr ⟨h.sent, List.pairwise_singleton _ _, fun e he e' he' => ?_⟩
    rw [List.mem_singleton.mp he']
    intro id id' u u' hevent hevent'
    obtain ⟨letter, hletter, rfl, rfl⟩ := hletter hevent'
    exact (h.fresh hletter).2 e he hevent

/-- Any other action is taken. -/
theorem Posting.other (h : Posting s P) {op : Op} (env : Env)
    (hsend : ∀ connection payload, op ≠ .send connection payload) {phase : Phase}
    (hidentity : Identity (exec env op s).2 (Function.update (fun c => (P c).1) t phase))
    (hacting : ∀ {u}, ((P t).2.next op (exec env op s).1).user? = some u → phase = .acting u) :
    Posting (exec env op s).2 (Function.update P t (phase, (P t).2.next op (exec env op s).1)) := by
  have hsent : (exec env op s).2.sent = s.sent := by
    rw [sent_exec]
    cases op with
    | send connection payload => exact absurd rfl (hsend connection payload)
    | _ => exact List.append_nil _
  have hlast := lastId_exec env op s
  have hnew := s.storage.lastId_lt_nextId
  -- a message in hand was there before, or it has the next id
  have hold : ∀ {c letter}, (Function.update P t (phase, (P t).2.next op (exec env op s).1) c).2.letter?
      = some letter → (P c).2.letter? = some letter ∨
        (c = t ∧ letter.id = s.storage.nextId ∧ (exec env op s).2.storage.lastId = s.storage.nextId) := by
    intro c letter hc
    by_cases hct : c = t
    · rw [hct, Function.update_self] at hc
      rcases letter_next hc with hc | hsaved
      · exact .inl (hct ▸ hc)
      · exact .inr ⟨hct, id_of_saved hsaved⟩
    · rw [Function.update_of_ne hct] at hc
      exact .inl hc
  refine ⟨?_, @fun c u hu => ?_, @fun e he id u hevent => ?_, @fun c letter hc => ?_, ?_, ?_⟩
  · rwa [Typestate.update_fst]
  · by_cases hc : c = t
    · subst hc
      rw [Function.update_self] at hu ⊢
      exact hacting hu
    · rw [Function.update_of_ne hc] at hu ⊢
      exact h.acting hu
  · rw [hsent] at he
    exact (h.issued e he hevent).trans hlast
  · rw [hsent]
    rcases hold hc with hc | ⟨-, hid, hnext⟩
    · exact ⟨(h.fresh hc).1.trans hlast, (h.fresh hc).2⟩
    · refine ⟨by rw [hid, hnext], fun e he id u hevent => ?_⟩
      have hle := h.issued e he hevent
      constructor <;> omega
  · intro c c' letter letter' hc hc' hne
    rcases hold hc with hc | ⟨hct, hid, -⟩
    · rcases hold hc' with hc' | ⟨-, hid', -⟩
      · exact h.apart hc hc' hne
      · have hle := (h.fresh hc).1
        omega
    · rcases hold hc' with hc' | ⟨hct', -, -⟩
      · have hle := (h.fresh hc').1
        omega
      · exact absurd (hct.trans hct'.symm) hne
  · rw [hsent]
    exact h.sent

/-- **Every action keeps the private events in order.** -/
theorem posting_kept : (discipline.both posting).Keeps server (fun _ _ _ _ => True) Posting where
  enter := by
    intro s P t i h hphase hadmits
    have hidentity := identity_kept.enter h.identity (congrArg Prod.fst hphase) hadmits
    have hsame : (enter t i s).sent = s.sent ∧ (enter t i s).storage = s.storage := by
      cases i <;> exact ⟨rfl, rfl⟩
    refine ⟨hidentity, h.acting, ?_, ?_, h.apart, ?_⟩
    · show ∀ e ∈ (enter t i s).sent, ∀ {id u}, PrivateEvent e.payload id u → id ≤ (enter t i s).storage.lastId
      rw [hsame.1, hsame.2]
      exact fun e he _ _ hevent => h.issued e he hevent
    · intro c letter hc
      show letter.id ≤ (enter t i s).storage.lastId ∧ ∀ e ∈ (enter t i s).sent, _
      rw [hsame.1, hsame.2]
      exact h.fresh hc
    · show (enter t i s).sent.Pairwise PrivateBefore
      rw [hsame.1]
      exact h.sent
  act := by
    intro s P t op env h hallowed _
    have hidentity := identity_kept.act env h.identity hallowed.1 trivial
    have hacting : ∀ {u : Bytes}, ((P t).2.next op (exec env op s).1).user? = some u →
        (P t).1.next op (exec env op s).1 = .acting u :=
      acting_errand hallowed.2 h.acting _
    by_cases hsend : ∃ connection payload, op = .send connection payload
    · obtain ⟨connection, payload, rfl⟩ := hsend
      exact h.send hidentity hallowed.2
    · exact h.other env (fun connection payload heq => hsend ⟨connection, payload, heq⟩) hidentity hacting
  rest := by
    intro s P t h hrest
    have hold : ∀ {c letter}, (Function.update P t (discipline.both posting).resting c).2.letter? = some letter →
        (P c).2.letter? = some letter := by
      intro c letter hc
      by_cases hct : c = t
      · rw [hct, Function.update_self] at hc
        exact absurd hc (by simp [Typestate.both, posting, Errand.letter?])
      · rwa [Function.update_of_ne hct] at hc
    refine ⟨?_, @fun c u hu => ?_, h.issued, fun hc => h.fresh (hold hc),
      fun hc hc' => h.apart (hold hc) (hold hc'), h.sent⟩
    · rw [Typestate.update_fst]
      exact identity_kept.rest h.identity hrest.1
    · by_cases hc : c = t
      · rw [hc, Function.update_self] at hu
        exact absurd hu (by simp [Typestate.both, posting, Errand.user?])
      · rw [Function.update_of_ne hc] at hu ⊢
        exact h.acting hu

end

/-- Nothing has been sent at the start. -/
theorem Posting.initial (storage : ChatStorage) :
    Posting (.initial storage) fun _ => (discipline.both posting).resting :=
  ⟨Identity.initial storage, fun hu => absurd hu (by simp [Typestate.both, posting, Errand.user?]),
    fun e he => absurd he (by simp [ServerState.initial]),
    fun hc => absurd hc (by simp [Typestate.both, posting, Errand.letter?]),
    fun hc => absurd hc (by simp [Typestate.both, posting, Errand.letter?]), .nil⟩

/-- What any run reaches is in order. -/
theorem posting_of_reachable {storage : ChatStorage} {c : Config Conn Input Op Op.Response ServerState}
    (h : Reachable server (fun _ _ => True) (.initial storage) c) :
    Posting c.shared ((discipline.both posting).phases c) :=
  (Typestate.invariant_always (fun t i => (server_follows t i).both (server_posts t i)) posting_kept
    (Posting.initial storage) h).1

/-- **Private events are sent in order.**  In every run, whatever the interleaving, no private event is sent
twice, on the same connection or on two, and the events of one sender are sent in the order of their ids. -/
theorem private_events_in_order (storage : ChatStorage) {c : Config Conn Input Op Op.Response ServerState}
    (hrun : Reachable server (fun _ _ => True) (.initial storage) c) : c.shared.sent.Pairwise PrivateBefore :=
  (posting_of_reachable hrun).sent

/-- Alice writes to bob twice. -/
def twoLetters : ServerState :=
  serve1 ⟨6, true⟩ 1 (privateRequest "bob" (ascii "again"))
    (serve1 ⟨5, true⟩ 1 (privateRequest "bob" (ascii "hi")) aliceAndBob)

theorem twoLetters_reachable : Serial server (.initial .empty) twoLetters :=
  Serial.serve1 (Serial.serve1 aliceAndBob_reachable (admits_request (by decide +kernel) _))
    (admits_request (by decide +kernel) _)

/-- Bob gets the first one before the second one. -/
theorem twoLetters_in_order :
    ⟨2, Letter.event ⟨1, ascii "alice", ascii "bob", ascii "hi", 5⟩, true⟩ ∈ twoLetters.sent ∧
      ⟨2, Letter.event ⟨2, ascii "alice", ascii "bob", ascii "again", 6⟩, true⟩ ∈ twoLetters.sent ∧
      twoLetters.sent.Pairwise PrivateBefore :=
  ⟨by decide +kernel, by decide +kernel, private_events_in_order .empty (c := .quiet twoLetters)
    (twoLetters_reachable.reachable fun _ _ _ => trivial)⟩

end ChatService
