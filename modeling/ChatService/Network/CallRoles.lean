import ChatService.Network.CallNetwork

/-!
# Who is who in a call

Every call id that has been used belongs to one caller and one callee, its `Parties`.  `Coherent` says that
what the clients keep, what is under way, and what the server keeps all agree with this; every move keeps it
(`Coherent.acts`, `Coherent.reads`, `Coherent.serves`), whatever the order of the messages.
-/

namespace ChatService

open AtomicProgram Byte

/-! ### Parts -/

/-- The caller and the callee of the call ids that have been used. -/
abbrev Parties := Bytes → Option (Bytes × Bytes)

/-- In the call `callId`, `u` has the part `direction`, with `peer`. -/
def Parties.Part (parties : Parties) (callId u peer : Bytes) : CallDirection → Prop
  | .outgoing => parties callId = some (u, peer)
  | .incoming => parties callId = some (peer, u)
  | .none => False

/-- Nothing that is known is forgotten. -/
def Parties.Extends (parties parties' : Parties) : Prop :=
  ∀ callId x, parties callId = some x → parties' callId = some x

def CallDirection.opposite : CallDirection → CallDirection
  | none => .none
  | outgoing => .incoming
  | incoming => .outgoing

/-- The part of who sends a message; both may hang up and send candidates. -/
def CallType.SentAs : CallType → CallDirection → Prop
  | invite, direction => direction = .outgoing
  | accept, direction => direction = .incoming
  | reject, direction => direction = .incoming
  | cancel, direction => direction = .outgoing
  | timeout, direction => direction = .outgoing
  | offer, direction => direction = .outgoing
  | answer, direction => direction = .incoming
  | hangup, _ => True
  | candidate, _ => True

/-- The part of who receives a message. -/
def NoticeType.HeardAs : NoticeType → CallDirection → Prop
  | event type, direction => type.SentAs direction.opposite
  | _, _ => True

def CallType.Signals (type : CallType) : Prop := type = .offer ∨ type = .answer ∨ type = .candidate

/-- What `u` sends is about a call of `u` with the target, and becomes the part of `u`. -/
structure ClientMessage.Sound (parties : Parties) (u : Bytes) (m : ClientMessage) : Prop where
  part : ∃ direction, parties.Part m.callId u m.target direction ∧ m.type.SentAs direction
  payload : m.type.Signals → m.payload.head? = some lbrace

/-- What `u` is sent is about a call of `u`, and becomes the part of `u`. -/
structure ServerMessage.Sound (parties : Parties) (u : Bytes) (message : ServerMessage) : Prop where
  part : ∃ direction peer, parties.Part message.callId u peer direction ∧
    message.type.HeardAs direction ∧ (message.type = .event .invite → message.sender = peer)

/-- The call in which a client is active is one of its user, with this part. -/
structure CallSlot.Fits (parties : Parties) (u : Bytes) (σ : CallSlot) : Prop where
  part : σ.view ≠ .inactive → parties.Part σ.callId u σ.peer σ.direction
  outgoing : σ.view = .outgoing → σ.direction = .outgoing
  incoming : σ.view = .incoming → σ.direction = .incoming

section

variable {parties parties' : Parties} {callId u v peer peer' : Bytes} {direction direction' : CallDirection}
  {σ σ' : CallSlot} {m : ClientMessage} {message : ServerMessage} {messages : List ClientMessage}
  {input : ClientInput}

theorem Parties.Part.mono (h : parties.Part callId u peer direction) (hext : parties.Extends parties') :
    parties'.Part callId u peer direction := by
  cases direction with
  | none => exact h
  | outgoing => exact hext _ _ h
  | incoming => exact hext _ _ h

theorem Parties.Part.isSome (h : parties.Part callId u peer direction) : parties callId ≠ none := by
  intro hnone
  cases direction with
  | none => exact h
  | outgoing => exact absurd (hnone.symm.trans h) nofun
  | incoming => exact absurd (hnone.symm.trans h) nofun

/-- The other one has the other part. -/
theorem Parties.Part.flip (h : parties.Part callId u peer direction) :
    parties.Part callId peer u direction.opposite := by
  cases direction with
  | none => exact h
  | outgoing => exact h
  | incoming => exact h

theorem CallDirection.opposite_opposite (direction : CallDirection) :
    direction.opposite.opposite = direction := by
  cases direction <;> rfl

/-- In one call, a user has one part. -/
theorem Parties.Part.unique (h : parties.Part callId u peer direction)
    (h' : parties.Part callId u peer' direction')
    (hdistinct : ∀ a b, parties callId = some (a, b) → a ≠ b) :
    direction = direction' ∧ peer = peer' := by
  have hsame : ∀ {a b a' b' : Bytes}, parties callId = some (a, b) → parties callId = some (a', b') →
      a = a' ∧ b = b' ∧ a ≠ b := by
    intro a b a' b' hab hab'
    obtain ⟨rfl, rfl⟩ := Prod.mk.inj (Option.some.inj (hab.symm.trans hab'))
    exact ⟨rfl, rfl, hdistinct _ _ hab⟩
  cases direction with
  | none => exact h.elim
  | outgoing =>
    cases direction' with
    | none => exact h'.elim
    | outgoing => exact ⟨rfl, (hsame h h').2.1⟩
    | incoming =>
      obtain ⟨-, hpeer, hne⟩ := hsame h h'
      exact absurd hpeer.symm hne
  | incoming =>
    cases direction' with
    | none => exact h'.elim
    | outgoing =>
      obtain ⟨hpeer, -, hne⟩ := hsame h h'
      exact absurd hpeer hne
    | incoming => exact ⟨rfl, (hsame h h').1⟩

theorem ClientMessage.Sound.mono (h : m.Sound parties u) (hext : parties.Extends parties') :
    m.Sound parties' u := by
  obtain ⟨direction, hpart, hsent⟩ := h.part
  exact ⟨⟨direction, hpart.mono hext, hsent⟩, h.payload⟩

theorem ServerMessage.Sound.mono (h : message.Sound parties u) (hext : parties.Extends parties') :
    message.Sound parties' u := by
  obtain ⟨direction, peer, hpart, hheard⟩ := h.part
  exact ⟨⟨direction, peer, hpart.mono hext, hheard⟩⟩

theorem CallSlot.Fits.mono (h : σ.Fits parties u) (hext : parties.Extends parties') :
    σ.Fits parties' u where
  part hview := (h.part hview).mono hext
  outgoing := h.outgoing
  incoming := h.incoming

theorem CallSlot.fits_of_inactive (h : σ.view = .inactive) : σ.Fits parties u where
  part hview := absurd h hview
  outgoing hview := absurd (h.symm.trans hview) (by decide)
  incoming hview := absurd (h.symm.trans hview) (by decide)

/-- The call goes on, and it has been accepted now. -/
theorem CallSlot.Fits.talking (h : σ.Fits parties u) (hview : σ.view ≠ .inactive) :
    { σ with view := .talking : CallSlot }.Fits parties u where
  part _ := h.part hview
  outgoing := nofun
  incoming := nofun

/-- The message by which a client leaves its call becomes its part. -/
theorem CallSlot.Fits.sentAs_of_leavesBy (h : σ.Fits parties u) {type : CallType}
    (hleaves : σ.view.LeavesBy type) : σ.view ≠ .inactive ∧ type.SentAs σ.direction ∧ ¬ type.Signals := by
  cases hview : σ.view with
  | inactive =>
    rw [hview] at hleaves
    exact hleaves.elim
  | outgoing =>
    rw [hview] at hleaves
    rw [h.outgoing hview]
    rcases hleaves with rfl | rfl
    · exact ⟨by decide, rfl, by simp [CallType.Signals]⟩
    · exact ⟨by decide, rfl, by simp [CallType.Signals]⟩
  | incoming =>
    rw [hview] at hleaves
    rw [h.incoming hview, show type = .reject from hleaves]
    exact ⟨by decide, rfl, by simp [CallType.Signals]⟩
  | talking =>
    rw [hview] at hleaves
    rw [show type = .hangup from hleaves]
    exact ⟨by decide, trivial, by simp [CallType.Signals]⟩

theorem CallView.LeavesBy.ne_invite {view : CallView} {type : CallType} (h : view.LeavesBy type) :
    type ≠ .invite := by
  rintro rfl
  cases view with
  | inactive => exact h
  | outgoing => exact absurd h (by simp [CallView.LeavesBy])
  | incoming => exact absurd h (by simp [CallView.LeavesBy])
  | talking => exact absurd h (by simp [CallView.LeavesBy])

theorem CallType.SignaledBy.sentAs {type : CallType} (h : type.SignaledBy direction) :
    type.SentAs direction := by
  cases type with
  | offer => exact h
  | answer => exact h
  | candidate => trivial
  | _ => exact h.elim

/-! ### Clients keep to their parts -/

/-- What a client does on its own becomes its part, if the call that it starts is its own. -/
theorem CallSlot.Acts.fits (h : σ.Acts u input messages σ') (hσ : σ.Fits parties u)
    (hnew : ∀ peer callId, messages = [⟨.invite, peer, callId, ascii "video"⟩] →
      parties callId = some (u, peer)) :
    σ'.Fits parties u ∧ ∀ m ∈ messages, m.Sound parties u := by
  cases h with
  | stay => exact ⟨hσ, by simp⟩
  | @start peer callId hinput hview hself hid hpeer =>
    have hparty : parties callId = some (u, peer) := hnew peer callId rfl
    refine ⟨⟨fun _ => hparty, fun _ => rfl, nofun⟩, fun m hm => ?_⟩
    rw [List.mem_singleton.mp hm]
    exact ⟨⟨.outgoing, hparty, rfl⟩, by simp [CallType.Signals]⟩
  | reset hview hview' => exact ⟨fits_of_inactive hview', by simp⟩
  | leave hleaves =>
    obtain ⟨hview, hsent, hsignals⟩ := hσ.sentAs_of_leavesBy hleaves
    refine ⟨fits_of_inactive rfl, fun m hm => ?_⟩
    rw [List.mem_singleton.mp hm]
    exact ⟨⟨σ.direction, hσ.part hview, hsent⟩, fun h => absurd h hsignals⟩
  | accept hview =>
    have hactive : σ.view ≠ .inactive := by
      rw [hview]
      decide
    refine ⟨hσ.talking hactive, fun m hm => ?_⟩
    rw [List.mem_singleton.mp hm]
    exact ⟨⟨σ.direction, hσ.part hactive, hσ.incoming hview⟩, by simp [CallType.Signals]⟩
  | signal hview hsignaled hpayload =>
    have hactive : σ.view ≠ .inactive := by
      rw [hview]
      decide
    refine ⟨hσ, fun m hm => ?_⟩
    rw [List.mem_singleton.mp hm]
    exact ⟨⟨σ.direction, hσ.part hactive, hsignaled.sentAs⟩, fun _ => hpayload⟩

theorem ServerMessage.Sound.invite (h : message.Sound parties u)
    (htype : message.type = .event .invite) :
    parties.Part message.callId u message.sender .incoming := by
  obtain ⟨direction, peer, hpart, hheard, hsender⟩ := h.part
  rw [htype] at hheard
  have hincoming : direction = .incoming := by
    rw [← direction.opposite_opposite, show direction.opposite = .outgoing from hheard]
    rfl
  rw [hsender htype, ← hincoming]
  exact hpart

/-- What a client does upon a message becomes its part. -/
theorem CallSlot.Reacts.fits (h : σ.Reacts message messages σ') (hσ : σ.Fits parties u)
    (hmessage : message.Sound parties u) :
    σ'.Fits parties u ∧ ∀ m ∈ messages, m.Sound parties u := by
  cases h with
  | ring htype hsender hid hview =>
    exact ⟨⟨fun _ => hmessage.invite htype, nofun, fun _ => rfl⟩, by simp⟩
  | nobody htype hnobody => exact ⟨hσ, by simp⟩
  | decline htype hview =>
    refine ⟨hσ, fun m hm => ?_⟩
    rw [List.mem_singleton.mp hm]
    exact ⟨⟨.incoming, hmessage.invite htype, rfl⟩, by simp [CallType.Signals]⟩
  | other htype hother => exact ⟨hσ, by simp⟩
  | connect htype hid hview =>
    refine ⟨hσ.talking ?_, by simp⟩
    rw [hview]
    decide
  | late htype hview => exact ⟨hσ, by simp⟩
  | ended hending hid => exact ⟨fits_of_inactive rfl, by simp⟩
  | signaled htype => exact ⟨hσ, by simp⟩
  | hangup htype hid hview =>
    refine ⟨fits_of_inactive rfl, fun m hm => ?_⟩
    rw [List.mem_singleton.mp hm]
    refine ⟨⟨σ.direction, hσ.part ?_, trivial⟩, by simp [CallType.Signals]⟩
    rw [hview]
    decide

/-! ### The server keeps to the parts -/

variable {calls calls' : CallManager} {recipient : Bytes}

theorem Served.callId_eq (h : Served calls u m calls' recipient message) :
    message.callId = m.callId := by
  cases h <;> rfl

/-- A message about one call leaves the other calls alone. -/
theorem Served.elsewhere (h : Served calls u m calls' recipient message) {id : Bytes}
    (hid : id ≠ m.callId) : calls'.calls[id]? = calls.calls[id]? := by
  cases h with
  | refused htype hgranted => rfl
  | invited htype hfree hself htarget hvalid => exact Tables.getElem?_insert_of_ne (Ne.symm hid) ..
  | accepted htype hcall => exact Tables.getElem?_insert_of_ne (Ne.symm hid) ..
  | rejected htype hcall =>
    rw [CallManager.without, Tables.getElem?_erase, if_neg (Ne.symm hid)]
  | cancelled htype hcall =>
    rw [CallManager.without, Tables.getElem?_erase, if_neg (Ne.symm hid)]
  | hungUp htype hcall haccepted hbetween =>
    rw [CallManager.without, Tables.getElem?_erase, if_neg (Ne.symm hid)]
  | forwarded htype hcall haccepted hbetween => rfl

/-- What the server passes on becomes the part of who gets it. -/
theorem ClientMessage.Sound.passedOn (h : m.Sound parties u) (candidate : Bytes) :
    ServerMessage.Sound parties m.target ⟨.event m.type, u, m.callId, candidate⟩ := by
  obtain ⟨direction, hpart, hsent⟩ := h.part
  refine ⟨⟨direction.opposite, u, hpart.flip, ?_, fun _ => rfl⟩⟩
  show m.type.SentAs direction.opposite.opposite
  rw [direction.opposite_opposite]
  exact hsent

theorem Served.sound (h : Served calls u m calls' recipient message) (hm : m.Sound parties u) :
    message.Sound parties recipient := by
  cases h with
  | @refused type sender candidate htype hgranted =>
    obtain ⟨direction, hpart, -⟩ := hm.part
    refine ⟨⟨direction, m.target, hpart, ?_, fun hinvite => ?_⟩⟩
    · rcases htype with rfl | rfl
      · trivial
      · trivial
    · rcases htype with rfl | rfl
      · exact absurd hinvite nofun
      · exact absurd hinvite nofun
  | @invited candidate htype hfree hself htarget hid => exact htype ▸ hm.passedOn candidate
  | @accepted candidate htype hcall => exact htype ▸ hm.passedOn candidate
  | @rejected candidate htype hcall => exact htype ▸ hm.passedOn candidate
  | @cancelled candidate htype hcall => exact hm.passedOn candidate
  | @hungUp call candidate htype hcall haccepted hbetween => exact htype ▸ hm.passedOn candidate
  | @forwarded call candidate htype hcall haccepted hbetween => exact hm.passedOn candidate

/-- The record of a call names its parties. -/
def CallManager.Names (calls : CallManager) (parties : Parties) : Prop :=
  ∀ (id : Bytes) (call : CallRecord), calls.calls[id]? = some call →
    parties id = some (call.caller, call.callee) ∧ isValidCallId id = true

theorem CallManager.Names.without (h : calls.Names parties) (id : Bytes) (call : CallRecord) :
    (calls.without id call).Names parties :=
  fun _ _ hcall => h _ _ (CallManager.calls_without hcall).1

theorem Served.names (h : Served calls u m calls' recipient message) (hm : m.Sound parties u)
    (hnames : calls.Names parties) : calls'.Names parties := by
  cases h with
  | refused htype hgranted => exact hnames
  | invited htype hfree hself htarget hvalid =>
    intro id call hcall
    by_cases hid : m.callId = id
    · subst hid
      rw [CallManager.withCall, Tables.getElem?_insert_self] at hcall
      obtain rfl := Option.some.inj hcall
      obtain ⟨direction, hpart, hsent⟩ := hm.part
      rw [htype] at hsent
      obtain rfl : direction = .outgoing := hsent
      exact ⟨hpart, hvalid⟩
    · rw [CallManager.withCall, Tables.getElem?_insert_of_ne hid] at hcall
      exact hnames _ _ hcall
  | accepted htype hold =>
    intro id call hcall
    by_cases hid : m.callId = id
    · subst hid
      rw [CallManager.withAccepted, Tables.getElem?_insert_self] at hcall
      obtain rfl := Option.some.inj hcall
      exact hnames m.callId ⟨m.target, u, false⟩ hold
    · rw [CallManager.withAccepted, Tables.getElem?_insert_of_ne hid] at hcall
      exact hnames _ _ hcall
  | rejected htype hcall => exact hnames.without _ _
  | cancelled htype hcall => exact hnames.without _ _
  | hungUp htype hcall haccepted hbetween => exact hnames.without _ _
  | forwarded htype hcall haccepted hbetween => exact hnames

end

/-! ### Everything agrees -/

namespace Network

structure Coherent (parties : Parties) (n : Network) : Prop where
  serial : ∃ storage, Serial ChatService.server (.initial storage) n.server
  connected : ∀ {u : Bytes} {connection : Conn},
    n.server.userManager.users[u]? = some connection →
      (n.server.connections connection).tcpState = .kConnected
  ok : ∀ u, (n.clients u).Ok
  username : ∀ u, (n.clients u).username = u
  generated : ∀ {id : Bytes}, parties id ≠ none → id ∈ n.generated
  proper : ∀ {id a b : Bytes}, parties id = some (a, b) → id ≠ [] ∧ a ≠ [] ∧ a ≠ b
  record : n.server.callManager.Names parties
  slot : ∀ u, (n.clients u).slot.Fits parties u
  sent : ∀ u, ∀ m ∈ (n.clients u).sent, m.Sound parties u
  heard : ∀ u, ∀ message ∈ n.toClient u, message.Sound parties u

section

variable {parties parties' : Parties} {n : Network} {u : Bytes} {c' : WebClient}

theorem Coherent.inOrder (h : n.Coherent parties) : InOrder n.server fun _ => .quiet := by
  obtain ⟨storage, hserial⟩ := h.serial
  exact Serial.inOrder hserial

theorem coherent_start {s : ServerState} (h : Start s) : (start s).Coherent fun _ => none where
  serial := h.serial
  connected := h.connected
  ok := WebClient.ok_loggedIn
  username _ := rfl
  generated hne := absurd rfl hne
  proper := nofun
  record id call hcall := by
    have hcall' : s.callManager.calls[id]? = some call := hcall
    rw [h.idle] at hcall'
    exact absurd hcall' (by simp [CallManager.empty])
  slot _ := CallSlot.fits_of_inactive rfl
  sent _ _ hm := absurd hm List.not_mem_nil
  heard _ _ hm := absurd hm List.not_mem_nil

/-- Something that holds of all clients holds of them still when one has changed. -/
theorem forall_update {α : Type} {f : Bytes → α} {x : α} {P : Bytes → α → Prop} (h : ∀ v, P v (f v))
    (hx : P u x) (v : Bytes) : P v (Function.update f u x v) := by
  by_cases hv : v = u
  · subst hv
    rwa [Function.update_self]
  · rw [Function.update_of_ne hv]
    exact h v

/-- The client of `u` takes a step, while nothing new is sent to the clients. -/
theorem Coherent.client (h : n.Coherent parties) (hext : parties.Extends parties')
    {toClient' : Bytes → List ServerMessage} {generated' : List Bytes}
    (hgenerated : ∀ {id : Bytes}, parties' id ≠ none → id ∈ generated')
    (hproper : ∀ {id a b : Bytes}, parties' id = some (a, b) → id ≠ [] ∧ a ≠ [] ∧ a ≠ b)
    (hok : c'.Ok) (hname : c'.username = u) (hslot : c'.slot.Fits parties' u)
    (hsent : ∀ m ∈ c'.sent, m.Sound parties' u)
    (hheard : ∀ v, ∀ message ∈ toClient' v, message ∈ n.toClient v) :
    Coherent parties' ⟨n.server, Function.update n.clients u c', toClient', generated'⟩ where
  serial := h.serial
  connected := h.connected
  ok := forall_update h.ok hok
  username := forall_update (P := fun v (c : WebClient) => c.username = v) h.username hname
  generated := hgenerated
  proper := hproper
  record id call hcall := ⟨hext _ _ (h.record id call hcall).1, (h.record id call hcall).2⟩
  slot := forall_update (P := fun v (c : WebClient) => c.slot.Fits parties' v) (fun v => (h.slot v).mono hext) hslot
  sent := forall_update (P := fun v (c : WebClient) => ∀ m ∈ c.sent, m.Sound parties' v)
    (fun v m hm => (h.sent v m hm).mono hext) hsent
  heard v message hmessage := (h.heard v message (hheard v message hmessage)).mono hext

/-! ### Moves -/

variable {input : ClientInput}

/-- A call id that is generated now is new. -/
theorem Coherent.fresh (h : n.Coherent parties) (henabled : n.enabled (.acts u input)) {id : Bytes}
    (hid : id ∈ input.generated) : parties id = none := by
  by_contra hne
  exact henabled.2.2 id hid (h.generated hne)

/-- The call ids that are known after the client of `u` has sent these messages. -/
def newParties (parties : Parties) (u : Bytes) : List ClientMessage → Parties
  | [⟨.invite, peer, id, _⟩] => Function.update parties id (some (u, peer))
  | _ => parties

/-- The client of `u` calls somebody. -/
structure Calls (u : Bytes) (input : ClientInput) (messages : List ClientMessage) (σ' : CallSlot)
    (id peer : Bytes) : Prop where
  input : input = .startVideoCall peer id
  other : peer ≠ u
  callId : id ≠ []
  messages : messages = [⟨.invite, peer, id, ascii "video"⟩]
  slot : σ' = ⟨.outgoing, id, peer, .outgoing⟩

theorem newParties_eq {messages : List ClientMessage} (h : ∀ m ∈ messages, m.type ≠ .invite) :
    newParties parties u messages = parties := by
  rw [newParties.eq_def]
  split
  · exact absurd rfl (h _ List.mem_cons_self)
  · rfl

/-- A client acts.  Either this is no new call, or it has a new call id. -/
theorem newParties_of_acts {σ σ' : CallSlot} {messages : List ClientMessage}
    (h : σ.Acts u input messages σ') (hfresh : ∀ id ∈ input.generated, parties id = none) :
    parties.Extends (newParties parties u messages) ∧
      ∀ id x, newParties parties u messages id = some x → parties id = some x ∨
        ∃ peer, x = (u, peer) ∧ Calls u input messages σ' id peer := by
  -- unless somebody is called, nothing is new
  have hsame : (∀ m ∈ messages, m.type ≠ .invite) → parties.Extends (newParties parties u messages) ∧
      ∀ id x, newParties parties u messages id = some x → parties id = some x ∨
        ∃ peer, x = (u, peer) ∧ Calls u input messages σ' id peer := by
    intro hinvite
    rw [newParties_eq hinvite]
    exact ⟨fun _ _ hx => hx, fun _ _ hx => .inl hx⟩
  cases h with
  | stay => exact hsame (by simp)
  | reset hview hview' => exact hsame (by simp)
  | leave hleaves =>
    refine hsame fun m hm => ?_
    rw [List.mem_singleton.mp hm]
    exact hleaves.ne_invite
  | accept hview => exact hsame (by simp)
  | signal hview hsignaled hpayload =>
    refine hsame fun m hm => ?_
    rw [List.mem_singleton.mp hm]
    rintro rfl
    exact hsignaled
  | @start peer callId hinput hview hself hid hpeer =>
    have hnew : parties callId = none := hfresh callId (by
      rw [hinput]
      exact List.mem_singleton_self callId)
    show parties.Extends (Function.update parties callId (some (u, peer))) ∧ _
    refine ⟨fun id x hx => ?_, fun id x (hx : Function.update parties callId (some (u, peer)) id = _) => ?_⟩
    · rw [Function.update_of_ne]
      · exact hx
      · rintro rfl
        exact absurd (hnew.symm.trans hx) nofun
    · by_cases hsame : id = callId
      · subst hsame
        rw [Function.update_self] at hx
        exact .inr ⟨peer, (Option.some.inj hx).symm, hinput, hself, hid, rfl, rfl⟩
      · rw [Function.update_of_ne hsame] at hx
        exact .inl hx

theorem Coherent.acts (h : n.Coherent parties) (henabled : n.enabled (.acts u input)) :
    ∃ messages, (n.clients u).slot.Acts u input messages ((n.clients u).onInput input).slot ∧
      ((n.clients u).onInput input).sent = (n.clients u).sent ++ messages ∧
        (n.after (.acts u input)).Coherent (newParties parties u messages) := by
  obtain ⟨hname, hok, messages, hsent, hacts⟩ :=
    WebClient.takes_onInput (h.ok u) input henabled.2.1
  rw [h.username u] at hacts hname
  obtain ⟨hext, hold⟩ := newParties_of_acts hacts fun id hid => h.fresh henabled hid
  obtain ⟨hslot, hsound⟩ := hacts.fits ((h.slot u).mono hext) fun peer id hinvite => by
    rw [hinvite]
    exact Function.update_self ..
  refine ⟨messages, hacts, hsent, h.client hext ?_ ?_ hok hname hslot ?_ fun v message hm => hm⟩
  · intro id hne
    obtain ⟨x, hx⟩ := Option.ne_none_iff_exists'.mp hne
    rcases hold id x hx with hx | ⟨peer, -, hcalls⟩
    · exact List.mem_append_right _ (h.generated (by rw [hx]; nofun))
    · refine List.mem_append_left _ ?_
      rw [hcalls.input]
      exact List.mem_singleton_self id
  · intro id a b hx
    rcases hold id _ hx with hx | ⟨peer, hpair, hcalls⟩
    · exact h.proper hx
    · obtain ⟨rfl, rfl⟩ := Prod.mk.inj hpair
      obtain ⟨c, hc⟩ := Option.isSome_iff_exists.mp henabled.1
      exact ⟨hcalls.callId, ne_nil_of_isValidName (h.inOrder.identity.valid hc), hcalls.other.symm⟩
  · intro m hm
    rw [hsent, List.mem_append] at hm
    rcases hm with hm | hm
    · exact (h.sent u m hm).mono hext
    · exact hsound m hm

variable {message : ServerMessage} {rest : List ServerMessage}

theorem after_reads (hqueue : n.toClient u = message :: rest) :
    n.after (.reads u) = ⟨n.server,
      Function.update n.clients u ((n.clients u).handleCallProtocolMessage message),
      Function.update n.toClient u rest, n.generated⟩ := by
  rw [after, hqueue]

/-- A client reads a message. -/
theorem Coherent.reads (h : n.Coherent parties) (hqueue : n.toClient u = message :: rest) :
    ∃ messages, (n.clients u).slot.Reacts message messages
        ((n.clients u).handleCallProtocolMessage message).slot ∧
      ((n.clients u).handleCallProtocolMessage message).sent = (n.clients u).sent ++ messages ∧
        (n.after (.reads u)).Coherent parties := by
  have hmessage : message.Sound parties u := h.heard u message (by rw [hqueue]; exact List.mem_cons_self)
  have hfits := h.slot u
  have htakes : WebClient.Takes (CallSlot.Reacts message) (n.clients u)
      ((n.clients u).handleCallProtocolMessage message) := by
    refine WebClient.takes_handleCallProtocolMessage (h.ok u) fun hid => ⟨fun _ hphase => ?_, ?_⟩
    · refine hfits.outgoing ?_
      show (n.clients u).call.phase.view = .outgoing
      rw [hphase]
      rfl
    · -- an offer is heard by the callee
      intro htype hview
      obtain ⟨direction, peer, hpart, hheard, -⟩ := hmessage.part
      rw [htype] at hheard
      have hincoming : direction = .incoming := by
        rw [← direction.opposite_opposite, show direction.opposite = .outgoing from hheard]
        rfl
      rw [hid, hincoming] at hpart
      have hactive : (n.clients u).slot.view ≠ .inactive := by
        rw [hview]
        decide
      exact ((hfits.part hactive).unique hpart fun a b hab => (h.proper hab).2.2).1
  obtain ⟨hname, hok, messages, hsent, hreacts⟩ := htakes
  rw [h.username u] at hname
  obtain ⟨hslot, hsound⟩ := hreacts.fits hfits hmessage
  refine ⟨messages, hreacts, hsent, ?_⟩
  rw [after_reads hqueue]
  refine h.client (fun _ _ hx => hx) h.generated h.proper hok hname hslot ?_ ?_
  · intro m hm
    rw [hsent, List.mem_append] at hm
    rcases hm with hm | hm
    · exact h.sent u m hm
    · exact hsound m hm
  · refine forall_update (P := fun v (l : List ServerMessage) => ∀ message' ∈ l, message' ∈ n.toClient v)
      (fun v message' hm => hm) fun message' hm => ?_
    rw [hqueue]
    exact List.mem_cons_of_mem _ hm

variable {connection : Conn} {m : ClientMessage} {rest' : List ClientMessage} {env : Env}

theorem after_serves (honline : n.server.userManager.users[u]? = some connection)
    (hqueue : (n.clients u).sent = m :: rest') :
    n.after (.serves u env) = ⟨serve1 env connection (.request m.object) n.server,
      Function.update n.clients u { n.clients u with sent := rest' },
      fun v => n.toClient v ++
        received n.server v (actions env connection (.request m.object) n.server),
      n.generated⟩ := by
  rw [after, honline, hqueue]

/-- The server reads a message. -/
theorem Coherent.serves (h : n.Coherent parties) (env : Env)
    (honline : n.server.userManager.users[u]? = some connection)
    (hqueue : (n.clients u).sent = m :: rest') :
    ∃ calls recipient message, Served n.server.callManager u m calls recipient message ∧
      (n.after (.serves u env)).server.callManager = calls ∧
      (∀ v, (n.after (.serves u env)).toClient v =
        n.toClient v ++ if v = recipient then [message] else []) ∧
      (n.after (.serves u env)).Coherent parties := by
  have hm : m.Sound parties u := h.sent u m (by rw [hqueue]; exact List.mem_cons_self)
  obtain ⟨calls, recipient, message, hserved, hdelivers⟩ :=
    handles_handleRequest env m h.inOrder honline
  have hread : Coherent parties ⟨n.server,
      Function.update n.clients u { n.clients u with sent := rest' }, n.toClient, n.generated⟩ := by
    refine h.client (fun _ _ hx => hx) h.generated h.proper ?_ (h.username u) (h.slot u) ?_
      fun v message hm => hm
    · exact ⟨⟨(h.ok u).made, (h.ok u).closed, (h.ok u).started, (h.ok u).named⟩, (h.ok u).answered,
        (h.ok u).connected, (h.ok u).tasks⟩
    · intro m' hm'
      refine h.sent u m' ?_
      rw [hqueue]
      exact List.mem_cons_of_mem _ hm'
  obtain ⟨storage, hserial⟩ := h.serial
  have hadmits : admits n.server connection (.request m.object) :=
    admits_request (h.connected honline) m.object
  rw [after_serves honline hqueue]
  refine ⟨calls, recipient, message, hserved, hdelivers.calls, fun v => ?_, ?_⟩
  · rw [← hdelivers.heard v]
    rfl
  · refine ⟨⟨storage, Serial.serve1 hserial hadmits⟩, fun {v c} hv => ?_, hread.ok, hread.username,
      hread.generated, hread.proper, ?_, hread.slot, hread.sent, fun v message' hm' => ?_⟩
    · have husers : n.server.userManager.users[v]? = some c := by
        rw [← hdelivers.users]
        exact hv
      show (((handleRequest connection m.object).run exec env n.server).2.connections c).tcpState = _
      rw [hdelivers.connections]
      exact h.connected husers
    · show CallManager.Names _ parties
      have hcalls : (serve1 env connection (.request m.object) n.server).callManager = calls :=
        hdelivers.calls
      rw [hcalls]
      exact hserved.names hm h.record
    · have hheard : received n.server v (actions env connection (.request m.object) n.server) =
          if v = recipient then [message] else [] := hdelivers.heard v
      dsimp only at hm'
      rw [hheard, List.mem_append] at hm'
      rcases hm' with hm' | hm'
      · exact h.heard v message' hm'
      · split_ifs at hm' with hv
        · rw [List.mem_singleton.mp hm', hv]
          exact hserved.sound hm
        · exact absurd hm' List.not_mem_nil

end

end Network

end ChatService
