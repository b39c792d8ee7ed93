import ChatService.Network.CallServing

/-!
# Web clients and the server, joined by queues

Any number of users are logged in, each with a web client.  What a client has sent (`WebClient.sent`) waits
for the server in order, and what the server has sent to a client waits in `toClient` in order.  In one move
a client acts on its own, a client reads a message, or the server reads one and handles it to the end.
Nobody logs in or out, and the sockets stay open.
-/

namespace ChatService

open AtomicProgram

/-- The call ids that `generateCallId` returns for an input. -/
def ClientInput.generated : ClientInput → List Bytes
  | startVideoCall _ callId => [callId]
  | _ => []

/-- The server, the clients of the users, what is under way from the server to each client, and the call
ids that the clients have generated. -/
structure Network where
  server : ServerState
  clients : Bytes → WebClient
  toClient : Bytes → List ServerMessage
  generated : List Bytes

/-- What happens next. -/
inductive Move where
  | acts (u : Bytes) (input : ClientInput)
  | reads (u : Bytes)
  | serves (u : Bytes) (env : Env)

namespace Network

/-- Nobody has called yet. -/
def start (s : ServerState) : Network := ⟨s, WebClient.loggedIn, fun _ => [], []⟩

/-- Who is logged in can act, and a call id is generated once only (`crypto.randomUUID`); messages are
read if there are any. -/
def enabled (n : Network) : Move → Prop
  | .acts u input => n.server.userManager.users[u]?.isSome ∧ (n.clients u).allows input ∧
      ∀ callId ∈ input.generated, callId ∉ n.generated
  | .reads u => n.toClient u ≠ []
  | .serves u _ => n.server.userManager.users[u]?.isSome ∧ (n.clients u).sent ≠ []

instance (n : Network) (move : Move) : Decidable (n.enabled move) := by
  cases move <;> simp only [enabled] <;> infer_instance

def after (n : Network) : Move → Network
  | .acts u input =>
    { n with
      clients := Function.update n.clients u ((n.clients u).onInput input)
      generated := input.generated ++ n.generated }
  | .reads u =>
    match n.toClient u with
    | [] => n
    | message :: rest =>
      { n with
        clients := Function.update n.clients u ((n.clients u).handleCallProtocolMessage message)
        toClient := Function.update n.toClient u rest }
  | .serves u env =>
    match n.server.userManager.users[u]?, (n.clients u).sent with
    | some connection, m :: rest =>
      { n with
        server := serve1 env connection (.request m.object) n.server
        clients := Function.update n.clients u { n.clients u with sent := rest }
        toClient := fun v => n.toClient v ++
          received n.server v (actions env connection (.request m.object) n.server) }
    | _, _ => n

/-- What moves that meet `C` lead to from the state `s₀` of the server. -/
inductive Reachable (C : Network → Move → Prop) (s₀ : ServerState) : Network → Prop where
  | start : Reachable C s₀ (.start s₀)
  | move {n : Network} (move : Move) : Reachable C s₀ n → n.enabled move → C n move →
      Reachable C s₀ (n.after move)

/-- The server is in a state in which it handles no request, everybody's socket is open, and there are no
calls. -/
structure Start (s : ServerState) : Prop where
  serial : ∃ storage, Serial ChatService.server (.initial storage) s
  connected : ∀ {u : Bytes} {connection : Conn}, s.userManager.users[u]? = some connection →
    (s.connections connection).tcpState = .kConnected
  idle : s.callManager = .empty

/-- No message is under way, and no asynchronous function waits. -/
structure Quiescent (n : Network) : Prop where
  sent : ∀ u, (n.clients u).sent = []
  toClient : ∀ u, n.toClient u = []
  tasks : ∀ u, (n.clients u).tasks = []

/-- If the server reads that a call is cancelled or has timed out, it has not accepted this call before. -/
def NoLateCancel (n : Network) : Move → Prop
  | .serves u _ => ∀ m ∈ (n.clients u).sent.head?, m.type = .cancel ∨ m.type = .timeout →
      ∀ call ∈ n.server.callManager.calls[m.callId]?, call.accepted = false
  | _ => True

instance (n : Network) (move : Move) : Decidable (n.NoLateCancel move) := by
  cases move <;> simp only [NoLateCancel] <;> infer_instance

/-! ### Runs that are written out -/

def play (n : Network) (moves : List Move) : Network := moves.foldl after n

/-- All of the moves can be made in turn, and meet `C`. -/
def Plays (C : Network → Move → Prop) : Network → List Move → Prop
  | _, [] => True
  | n, move :: moves => n.enabled move ∧ C n move ∧ Plays C (n.after move) moves

instance Plays.decidable (C : Network → Move → Prop) [∀ n move, Decidable (C n move)] :
    ∀ (n : Network) (moves : List Move), Decidable (Plays C n moves)
  | _, [] => .isTrue trivial
  | n, move :: moves =>
    have := Plays.decidable C (n.after move) moves
    inferInstanceAs (Decidable (_ ∧ _ ∧ _))

theorem Reachable.play {C : Network → Move → Prop} {s₀ : ServerState} (moves : List Move) :
    ∀ {n : Network}, Reachable C s₀ n → Plays C n moves → Reachable C s₀ (n.play moves) := by
  induction moves with
  | nil => exact fun h _ => h
  | cons move moves ih => exact fun h hplays => ih (h.move move hplays.1 hplays.2.1) hplays.2.2

/-- Only these users are concerned. -/
def Concerns (users : List Bytes) (n : Network) : Move → Prop
  | .acts u _ => u ∈ users
  | .reads u => u ∈ users
  | .serves u env => u ∈ users ∧ ∀ connection ∈ n.server.userManager.users[u]?,
      ∀ m ∈ (n.clients u).sent.head?,
        ∀ out ∈ sends (actions env connection (.request m.object) n.server),
          (n.server.connections out.1).username ∈ users

instance (users : List Bytes) (n : Network) (move : Move) : Decidable (n.Concerns users move) := by
  cases move <;> simp only [Concerns] <;> infer_instance

section

variable {users : List Bytes} {n : Network} {v : Bytes}

theorem after_elsewhere {move : Move} (h : n.Concerns users move) (hv : v ∉ users) :
    (n.after move).clients v = n.clients v ∧ (n.after move).toClient v = n.toClient v := by
  have hne : ∀ {u : Bytes}, u ∈ users → v ≠ u := by
    rintro u hu rfl
    exact hv hu
  cases move with
  | acts u input => exact ⟨Function.update_of_ne (hne h) .., rfl⟩
  | reads u =>
    rw [after]
    split
    · exact ⟨rfl, rfl⟩
    · exact ⟨Function.update_of_ne (hne h) .., Function.update_of_ne (hne h) ..⟩
  | serves u env =>
    rw [after]
    split
    · next connection m rest honline hqueue =>
      refine ⟨Function.update_of_ne (hne h.1) .., ?_⟩
      have hnone : received n.server v (actions env connection (.request m.object) n.server) = [] := by
        refine List.filterMap_eq_nil_iff.mpr fun out hout => if_neg ?_
        rintro rfl
        exact hv (h.2 connection honline m (by rw [hqueue]; rfl) out hout)
      dsimp only
      rw [hnone, List.append_nil]
    · exact ⟨rfl, rfl⟩

theorem play_elsewhere (hv : v ∉ users) (moves : List Move) :
    ∀ {n : Network}, Plays (Concerns users) n moves →
      (n.play moves).clients v = n.clients v ∧ (n.play moves).toClient v = n.toClient v := by
  induction moves with
  | nil => exact fun _ => ⟨rfl, rfl⟩
  | cons move moves ih =>
    intro n h
    obtain ⟨hclients, htoClient⟩ := after_elsewhere h.2.1 hv
    obtain ⟨hclients', htoClient'⟩ := ih h.2.2
    exact ⟨hclients'.trans hclients, htoClient'.trans htoClient⟩

/-- Where only some users are concerned, it is enough to look at them. -/
theorem quiescent_play (users : List Bytes) {s : ServerState} {moves : List Move}
    (h : Plays (Concerns users) (start s) moves)
    (husers : ∀ u ∈ users, (((start s).play moves).clients u).sent = [] ∧
      ((start s).play moves).toClient u = [] ∧ (((start s).play moves).clients u).tasks = []) :
    ((start s).play moves).Quiescent := by
  have hall : ∀ u, (((start s).play moves).clients u).sent = [] ∧
      ((start s).play moves).toClient u = [] ∧ (((start s).play moves).clients u).tasks = [] := by
    intro u
    by_cases hu : u ∈ users
    · exact husers u hu
    · obtain ⟨hclients, htoClient⟩ := play_elsewhere hu moves h
      rw [hclients, htoClient]
      exact ⟨rfl, rfl, rfl⟩
  exact ⟨fun u => (hall u).1, fun u => (hall u).2.1, fun u => (hall u).2.2⟩

end

end Network

/-- The client is in an active phase, with this call id. -/
def WebClient.ActiveIn (c : WebClient) (callId : Bytes) : Prop :=
  (c.call.phase = .outgoing ∨ c.call.phase = .incoming ∨ c.call.phase = .connecting ∨
    c.call.phase = .inCall) ∧ c.call.callId = callId

/-- There is an entry for the user that is not idle, with this call id. -/
def CallManager.Holds (m : CallManager) (u callId : Bytes) : Prop :=
  ∃ entry, m.users[u]? = some entry ∧ entry.state ≠ .idle ∧ entry.callId = callId

end ChatService
