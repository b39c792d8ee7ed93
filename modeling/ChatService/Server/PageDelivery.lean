import ChatService.Server.PrivateDelivery

/-!
# What the history pages hold, and who gets them

A history request is answered on its own connection, with what the storage has loaded in the same handler.
The table holds exactly the messages that were saved so far, all of them under valid names
(`storage_of_traced`, `valid_of_traced`), so a page is the newest part of its conversation at the moment of
the load; and the user who asks for a private page is one of the two.

`Reading` says how far a handler has come with a page.
-/

namespace ChatService

open AtomicProgram

/-! ### The table is what was saved -/

/-- The message that an action has saved. -/
def saved? : Event Op Op.Response → Option Save
  | ⟨.savePrivateMessage sender receiver content timestamp, some _⟩ =>
    some (.privateMessage sender receiver content timestamp)
  | ⟨.saveRoomMessage room sender content timestamp, some _⟩ =>
    some (.roomMessage room sender content timestamp)
  | _ => none

/-- The messages that were saved in a run, in this order. -/
def savesOf (history : History) : List Save :=
  history.filterMap fun entry =>
    match entry.move with
    | .act event => saved? event
    | _ => none

/-- The line that answers a request for the conversation. -/
def Conversation.page (messages : List Message) : Conversation → Outgoing
  | between _ peer => .privateHistory peer messages
  | inRoom room => .roomHistory room messages

/-- Thread `t` loads a page of the conversation. -/
def Conversation.loads (t : Conn) (s : ServerState) (limit before : ℤ) (messages : List Message) :
    Conversation → Entry Conn Input Op Op.Response ServerState
  | between userA userB => ⟨t, s, .act ⟨.loadPrivateHistory userA userB limit before, messages⟩⟩
  | inRoom room => ⟨t, s, .act ⟨.loadRoomHistory room limit before, messages⟩⟩

inductive Reading where
  /-- it has read nothing yet -/
  | idle
  /-- it acts for this user -/
  | acting (username : Bytes)
  /-- the page is loaded -/
  | loaded (conversation : Conversation) (limit before : ℤ) (messages : List Message)
  /-- it has no page in hand, and loads none any more -/
  | done

namespace Reading

def next : (op : Op) → op.Response → Reading
  | .username _, name => if name = [] then done else acting name
  | .loadPrivateHistory userA userB limit before, messages => loaded (.between userA userB) limit before messages
  | .loadRoomHistory room limit before, messages => loaded (.inRoom room) limit before messages
  | _, _ => done

/-- What connection `c` may send to whom. -/
def MaySend (c connection : Conn) (payload : Outgoing) : Reading → Prop
  | loaded conversation _ _ messages => connection = c ∧ payload = conversation.page messages
  | _ => ∀ conversation messages, payload ≠ Conversation.page messages conversation

/-- No page is in hand. -/
def Free : Reading → Prop
  | loaded _ _ _ _ => False
  | _ => True

end Reading

/-- Which actions connection `c` may take. -/
def Op.ReadIn (c : Conn) (state : Reading) : Op → Prop
  | .username connection => connection = c ∧ state = .idle
  | .savePrivateMessage _ receiver _ _ => isValidName receiver = true ∧ state.Free
  | .loadPrivateHistory userA userB _ _ => state = .acting userA ∧ isValidName userB = true
  | .loadRoomHistory room _ _ => isValidName room = true ∧ state.Free
  | .send connection payload => state.MaySend c connection payload
  | _ => state.Free

def reading : Typestate Conn Op Op.Response Reading where
  resting := .idle
  next _ _ := Reading.next
  allowed := Op.ReadIn
  mayRest := Reading.Free

/-! ### The handlers keep to it -/

section

variable {c : Conn}

end

/-- Where the page in hand comes from. -/
structure Paging (history : History) (P : Conn → Phase × Reading) : Prop where
  acting : ∀ {t u}, (P t).2 = .acting u → (P t).1 = .acting u
  loaded : ∀ {t conversation limit before messages}, (P t).2 = .loaded conversation limit before messages →
    (∀ u peer, conversation = .between u peer → (P t).1 = .acting u) ∧ conversation.Valid ∧
    ∃ earlier s during, history = earlier ++ conversation.loads t s limit before messages :: during ∧
      Within t during ∧ messages = conversation.load s.storage limit before

section

variable {history : History} {s s' : ServerState} {P P' : Conn → Phase × Reading} {t : Conn}
  {m : AtomicProgram.Move Input Op Op.Response}

/-- A page that was in hand before an entry of another thread. -/
theorem Paging.snoc (h : Paging history P) (entry : Entry Conn Input Op Op.Response ServerState)
    (hsame : ∀ t', (P' t').2 ≠ .idle → (P' t').2 ≠ .done → P' t' = P t' ∧ (entry.thread = t' → entry.move ≠ .finish)) :
    Paging (history ++ [entry]) P' := by
  refine ⟨@fun t' u hacting => ?_, @fun t' conversation limit before messages hloaded => ?_⟩
  · have hthere := (hsame t' (by simp [hacting]) (by simp [hacting])).1
    rw [hthere] at hacting ⊢
    exact h.acting hacting
  · obtain ⟨hthere, hnot⟩ := hsame t' (by simp [hloaded]) (by simp [hloaded])
    rw [hthere] at hloaded ⊢
    obtain ⟨hphase, hvalid, earlier, s, during, rfl, hwithin, hmessages⟩ := h.loaded hloaded
    exact ⟨hphase, hvalid, earlier, s, during ++ [entry], by simp, hwithin.snoc hnot, hmessages⟩

/-- **Every action keeps it.** -/
theorem Paging.act (h : Paging history P) (hidentity : Identity s fun t => (P t).1) {op : Op} (env : Env)
    (hallowed : op.ReadIn t (P t).2) :
    Paging (history ++ [⟨t, s, .act ⟨op, (exec env op s).1⟩⟩])
      (Function.update P t ((P t).1.next op (exec env op s).1, Reading.next op (exec env op s).1)) := by
  let entry : Entry Conn Input Op Op.Response ServerState := ⟨t, s, .act ⟨op, (exec env op s).1⟩⟩
  -- the other threads have what they had
  have hothers : ∀ phase state, (state = Reading.idle ∨ state = .done) →
      Paging (history ++ [entry]) (Function.update P t (phase, state)) := by
    intro phase state hstate
    refine h.snoc entry fun t' hidle hdone => ?_
    by_cases ht : t' = t
    · rw [ht, Function.update_self] at hidle hdone
      exact absurd hstate (not_or.mpr ⟨hidle, hdone⟩)
    · exact ⟨Function.update_of_ne ht .., fun _ => by simp [entry]⟩
  have hself : ∀ {phase state}, (∀ u, state = Reading.acting u → phase = Phase.acting u) →
      (∀ {conversation limit before messages}, state = .loaded conversation limit before messages →
        (∀ u peer, conversation = .between u peer → phase = .acting u) ∧ conversation.Valid ∧
          entry = conversation.loads t s limit before messages ∧
          messages = conversation.load s.storage limit before) →
      Paging (history ++ [entry]) (Function.update P t (phase, state)) := by
    intro phase state hacting hloaded
    have hrest := hothers phase .done (.inr rfl)
    refine ⟨@fun t' u hu => ?_, @fun t' conversation limit before messages hu => ?_⟩
    · by_cases ht : t' = t
      · rw [ht, Function.update_self] at hu ⊢
        exact hacting u hu
      · rw [Function.update_of_ne ht] at hu ⊢
        exact h.acting hu
    · by_cases ht : t' = t
      · rw [ht, Function.update_self] at hu ⊢
        obtain ⟨hphase, hvalid, hentry, hmessages⟩ := hloaded hu
        exact ⟨hphase, hvalid, history, s, [], by rw [hentry], fun _ he => absurd he (by simp), hmessages⟩
      · have hother : _ = Reading.loaded conversation limit before messages → _ := hrest.loaded (t := t')
        rw [Function.update_of_ne ht] at hu hother ⊢
        exact hother hu
  cases op with
  | username connection =>
    refine hself (fun u hu => ?_) (fun {_ _ _ _} hu => ?_)
    · change (if (s.connections connection).username = [] then Reading.done else .acting _) = .acting u at hu
      change (if (s.connections connection).username = [] then Phase.anonymous else .acting _) = .acting u
      split_ifs at hu ⊢
      rw [Reading.acting.inj hu]
    · change (if (s.connections connection).username = [] then Reading.done else .acting _) = _ at hu
      split_ifs at hu
  | loadPrivateHistory userA userB limit before =>
    obtain ⟨hacting, hpeer⟩ := hallowed
    have hphase := h.acting hacting
    refine hself (fun u hu => absurd hu (by simp [Reading.next])) (fun {_ _ _ _} hu => ?_)
    obtain ⟨rfl, rfl, rfl, rfl⟩ := Reading.loaded.inj hu
    have hregistered := (hidentity.each t).registered (u := userA) (by rw [hphase]; rfl) (by rw [hphase]; simp)
    refine ⟨fun u peer heq => ?_, ⟨hidentity.valid hregistered, hpeer⟩, rfl, rfl⟩
    obtain ⟨rfl, rfl⟩ := Conversation.between.inj heq
    exact hphase
  | loadRoomHistory room limit before =>
    refine hself (fun u hu => absurd hu (by simp [Reading.next])) (fun {_ _ _ _} hu => ?_)
    obtain ⟨rfl, rfl, rfl, rfl⟩ := Reading.loaded.inj hu
    exact ⟨fun u peer heq => absurd heq (by simp), hallowed.1, rfl, rfl⟩
  | _ => exact hothers _ _ (.inr rfl)

/-- Every move keeps it. -/
theorem Paging.step (h : Paging history P) (hidentity : Identity s fun t => (P t).1)
    (hadvances : (discipline.both reading).Advances server s P t m s' P') :
    Paging (history ++ [⟨t, s, m⟩]) P' := by
  cases m with
  | begin i =>
    obtain ⟨-, -, -, rfl⟩ := hadvances
    exact h.snoc _ fun t' _ _ => ⟨rfl, fun _ => by simp⟩
  | act event =>
    obtain ⟨op, r⟩ := event
    obtain ⟨hallowed, ⟨env, hresponse, -⟩, rfl⟩ := hadvances
    change r = (exec env op s).1 at hresponse
    subst hresponse
    exact h.act hidentity env hallowed.2
  | finish =>
    obtain ⟨-, -, rfl⟩ := hadvances
    refine h.snoc _ fun t' hidle _ => ?_
    have ht : t' ≠ t := by
      rintro rfl
      rw [Function.update_self] at hidle
      exact hidle rfl
    exact ⟨Function.update_of_ne ht .., fun heq => absurd heq.symm ht⟩

end

end ChatService
