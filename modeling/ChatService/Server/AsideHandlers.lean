import ChatService.Server.Delivery

/-!
# The handlers that have no message in hand

Most handlers neither save nor load a message, and what they send tells of none.  A discipline about messages
has nothing to say about them: if it lets a handler read the name of its session and take the actions that are
aside (`Neutral`), all these handlers keep to it, and `Neutral.server` leaves the four that have to do with
messages.
-/

namespace ChatService

open AtomicProgram

/-- The discipline lets a handler read the name of its session at the start, and take the actions that are
aside; in between, it is `Free`. -/
structure Neutral {State : Type} (T : Typestate Conn Op Op.Response State) (Free : State → Prop) : Prop where
  username : ∀ c, T.allowed c T.resting (.username c) ∧ ∀ name, Free (T.next c T.resting (.username c) name)
  aside : ∀ {c state op}, op.Aside → Free state → T.allowed c state op ∧ ∀ r, Free (T.next c state op r)
  resting : Free T.resting
  rest : ∀ {state}, Free state → T.mayRest state

section

variable {State : Type} {T : Typestate Conn Op Op.Response State} {Free : State → Prop} {c : Conn} {state : State}

/-- `c` keeps to the discipline from `state` on and may rest at the end. -/
def KeepsTo (T : Typestate Conn Op Op.Response State) (c : Conn) (state : State) (p : Handler Unit) : Prop :=
  T.Follows c state p fun state _ => T.mayRest state

namespace Neutral

/-- A handler that takes such actions only. -/
theorem only (h : Neutral T Free) {p : Handler Unit} (hp : p.Only Op.Aside) (hfree : Free state) :
    KeepsTo T c state p := by
  induction p generalizing state with
  | ret a => exact h.rest hfree
  | call op next ih =>
    obtain ⟨hallowed, hnext⟩ := h.aside hp.1 hfree
    exact ⟨hallowed, fun r => ih r (hp.2 r) (hnext r)⟩

/-- What a handler does with the name of its session. -/
theorem named (h : Neutral T Free) {f : Bytes → Handler Unit}
    (hf : ∀ name, KeepsTo T c (T.next c T.resting (.username c) name) (f name)) :
    KeepsTo T c T.resting (act (.username c) >>= f) :=
  ⟨(h.username c).1, hf⟩

/-- The same where what it does is aside. -/
theorem named_only (h : Neutral T Free) {f : Bytes → Handler Unit} (hf : ∀ name, (f name).Only Op.Aside) :
    KeepsTo T c T.resting (act (.username c) >>= f) :=
  h.named fun name => h.only (hf name) ((h.username c).2 name)

/-- A handler that asks for a login. -/
theorem requireLoggedIn (h : Neutral T Free) {f : Option Bytes → Handler Unit} (hnone : (f none).Only Op.Aside)
    (hsome : ∀ username, username ≠ [] →
      KeepsTo T c (T.next c T.resting (.username c) username) (f (some username))) :
    KeepsTo T c T.resting (requireLoggedIn c >>= f) := by
  refine h.named (f := fun username => (if username = [] then do
    sendError c (ascii "login required")
    pure none
  else pure (some username)) >>= f) fun name => ?_
  by_cases hname : name = []
  · rw [if_pos hname]
    exact h.only ⟨plain_error _, fun _ => hnone⟩ ((h.username c).2 name)
  · rw [if_neg hname]
    exact hsome name hname

theorem requireLoggedIn_only (h : Neutral T Free) {f : Option Bytes → Handler Unit}
    (hf : ∀ username, (f username).Only Op.Aside) : KeepsTo T c T.resting (ChatService.requireLoggedIn c >>= f) :=
  h.requireLoggedIn (hf none) fun username _ => h.only (hf (some username)) ((h.username c).2 username)

theorem login (h : Neutral T Free) (username : Bytes) : KeepsTo T c T.resting (login c username) := by
  refine h.named_only fun name => ?_
  split_ifs
  · exact aside_sendError _
  · refine ⟨trivial, fun result => ?_⟩
    cases result with
    | some error => exact aside_sendError error
    | none => exact ⟨trivial, fun _ => aside_sendOk _⟩

theorem logout (h : Neutral T Free) (notifyClient : Bool) : KeepsTo T c T.resting (logout c notifyClient) := by
  refine h.named_only fun name => ?_
  split_ifs
  · exact aside_sendError _
  · exact trivial
  · exact (aside_leaveCall name).bind fun _ => ⟨trivial, fun _ => ⟨trivial, fun _ => ⟨trivial, fun _ =>
      aside_sendOk _⟩⟩⟩
  · exact (aside_leaveCall name).bind fun _ => ⟨trivial, fun _ => ⟨trivial, fun _ => ⟨trivial, fun _ =>
      trivial⟩⟩⟩

theorem createRoom (h : Neutral T Free) (room : Bytes) : KeepsTo T c T.resting (createRoom c room) := by
  refine h.requireLoggedIn_only fun username => ?_
  cases username with
  | none => exact trivial
  | some username => exact ⟨trivial, fun result => aside_answerRoom _ result⟩

theorem joinRoom (h : Neutral T Free) (room : Bytes) : KeepsTo T c T.resting (joinRoom c room) := by
  refine h.requireLoggedIn_only fun username => ?_
  cases username with
  | none => exact trivial
  | some username => exact ⟨trivial, fun result => aside_answerRoom _ result⟩

theorem leaveRoom (h : Neutral T Free) (room : Bytes) : KeepsTo T c T.resting (leaveRoom c room) := by
  refine h.requireLoggedIn_only fun username => ?_
  cases username with
  | none => exact trivial
  | some username => exact ⟨trivial, fun result => aside_answerRoom _ result⟩

theorem sendOnlineUsers (h : Neutral T Free) : KeepsTo T c T.resting (sendOnlineUsers c) :=
  h.only ⟨trivial, fun users => Prog.only_perform (plain_usersResponse users)⟩ h.resting

theorem handleCallRequest (h : Neutral T Free) (request : JsonObject)
    (htype : isCallType (fieldOrEmpty request "type") = true) :
    KeepsTo T c T.resting (handleCallRequest c request) := by
  refine h.requireLoggedIn_only fun username => ?_
  cases username with
  | none => exact trivial
  | some username =>
    dsimp only
    split_ifs
    · exact aside_sendCallError _ _ _
    · exact aside_sendCallError _ _ _
    · exact aside_sendCallError _ _ _
    · exact aside_handleInvite request
    · exact aside_handleSignaling request _
    · exact aside_handleCallAction request htype

/-- Both branches of a test. -/
theorem keeps_ite {q : Prop} [Decidable q] {p₁ p₂ : Handler Unit} (h₁ : KeepsTo T c state p₁)
    (h₂ : KeepsTo T c state p₂) : KeepsTo T c state (if q then p₁ else p₂) := by
  split_ifs
  · exact h₁
  · exact h₂

theorem handleRequest (h : Neutral T Free) (request : JsonObject)
    (hprivate : ∀ target message, KeepsTo T c T.resting (sendPrivate c target message))
    (hroom : ∀ room message, KeepsTo T c T.resting (sendRoomMessage c room message))
    (hprivateHistory : ∀ peer limit before, KeepsTo T c T.resting (sendPrivateHistory c peer limit before))
    (hroomHistory : ∀ room limit before, KeepsTo T c T.resting (sendRoomHistory c room limit before)) :
    KeepsTo T c T.resting (handleRequest c request) := by
  rw [ChatService.handleRequest]
  refine keeps_ite (h.login _) ?_
  refine keeps_ite (h.logout true) ?_
  refine keeps_ite h.sendOnlineUsers ?_
  refine keeps_ite (hprivate _ _) ?_
  refine keeps_ite (h.createRoom _) ?_
  refine keeps_ite (h.joinRoom _) ?_
  refine keeps_ite (h.leaveRoom _) ?_
  refine keeps_ite (hroom _ _) ?_
  refine keeps_ite (hprivateHistory _ _ _) ?_
  refine keeps_ite (hroomHistory _ _ _) ?_
  split_ifs with htype
  · exact h.handleCallRequest request htype
  · exact h.only (aside_sendError _) h.resting

/-- **Four handlers are left.**  If they keep to the discipline, all do. -/
theorem server (h : Neutral T Free)
    (hprivate : ∀ c target message, KeepsTo T c T.resting (sendPrivate c target message))
    (hroom : ∀ c room message, KeepsTo T c T.resting (sendRoomMessage c room message))
    (hprivateHistory : ∀ c peer limit before, KeepsTo T c T.resting (sendPrivateHistory c peer limit before))
    (hroomHistory : ∀ c room limit before, KeepsTo T c T.resting (sendRoomHistory c room limit before))
    (c : Conn) (input : Input) : KeepsTo T c T.resting (server.program c input) := by
  cases input with
  | connected => exact h.only (aside_sendOk _) h.resting
  | disconnected => exact h.logout false
  | reaction reaction =>
    cases reaction with
    | dispatch line request =>
      exact h.handleRequest request (hprivate c) (hroom c) (hprivateHistory c) (hroomHistory c)
    | parseError line error => exact h.only (aside_sendError _) h.resting
    | fault line => exact h.rest h.resting
    | tooLarge => exact h.only ⟨plain_error _, fun _ => ⟨trivial, fun _ => trivial⟩⟩ h.resting

end Neutral

end

end ChatService
