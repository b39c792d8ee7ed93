import ChatService.Server.PrivateOrder
import ChatService.Server.RoomDelivery

/-!
# Who gets a private message

The event of a private message goes to the connection that the sender's handler found registered for the
receiver, after the message was saved.  A receiver who stays registered for one connection, which stays
connected, from the save until the handler has sent what it sends is sent the event on that connection, and
nobody is sent it again.

`Errand.Progress` says how far the handler has come for such a receiver; it looks back to the save, so it is
an invariant of the history.
-/

namespace ChatService

open AtomicProgram

/-- Thread `t` saves a private message. -/
def filed (t : Conn) (s : ServerState) (letter : Letter) : Entry Conn Input Op Op.Response ServerState :=
  ⟨t, s, .act ⟨.savePrivateMessage letter.sender letter.receiver letter.content letter.createdAt,
    some letter.id⟩⟩

/-- In the handler it is in, thread `t` has saved this message; `during` is what happened since. -/
def Filed (history : History) (t : Conn) (letter : Letter) (during : History) : Prop :=
  (∃ earlier s, history = earlier ++ filed t s letter :: during) ∧ Within t during

/-- User `v` is registered for connection `k`, which is connected. -/
structure Waits (v : Bytes) (k : Conn) (s : ServerState) : Prop where
  online : s.userManager.users[v]? = some k
  connected : (s.connections k).tcpState = .kConnected

/-- Thread `t` has looked `v` up, who was registered for connection `k`. -/
def LooksUp (t : Conn) (v : Bytes) (k : Conn) (entry : Entry Conn Input Op Op.Response ServerState) : Prop :=
  entry.thread = t ∧ entry.move = .act ⟨.userFind v, some k⟩ ∧ entry.before.userManager.users[v]? = some k

namespace Errand

/-- How far the handler has come with a receiver who waits on connection `k`. -/
def Progress (k : Conn) (letter : Letter) (sent : List Sent) : Errand → Prop
  | saved letter' => letter' = letter
  | found letter' connection => letter' = letter ∧ connection = k
  | settled => ⟨k, letter.event, true⟩ ∈ sent
  | _ => False

/-- Where the message in hand comes from. -/
def Recalls (history : History) (t : Conn) : Errand → Prop
  | saved letter => ∃ during, Filed history t letter during
  | found letter connection => ∃ during, Filed history t letter during ∧
      ∃ entry ∈ during, LooksUp t letter.receiver connection entry
  | _ => True

variable {errand : Errand} {k : Conn} {letter : Letter} {sent sent' : List Sent}

theorem Progress.mono (h : errand.Progress k letter sent) (hsent : ∀ e ∈ sent, e ∈ sent') :
    errand.Progress k letter sent' := by
  cases errand with
  | settled => exact hsent _ h
  | _ => exact h

end Errand

/-- What holds of every handler that has saved a private message. -/
structure Delivering (history : History) (s : ServerState) (P : Conn → Errand) : Prop where
  progress : ∀ {t letter during k}, Filed history t letter during →
    (∀ entry ∈ during, Waits letter.receiver k entry.before) → (P t).Progress k letter s.sent
  recalls : ∀ t, (P t).Recalls history t

section

variable {history : History} {s s' : ServerState} {P P' : Conn → Errand} {t : Conn} {letter : Letter}
  {during : History} {m : AtomicProgram.Move Input Op Op.Response}

/-- Each action of the handler brings it on. -/
theorem progress_errand {errand : Errand} {k : Conn} (h : errand.Progress k letter s.sent)
    (hwaits : Waits letter.receiver k s) {op : Op} (hallowed : op.PostedIn t errand) (env : Env) :
    (errand.next op (exec env op s).1).Progress k letter (exec env op s).2.sent := by
  cases errand with
  | idle => exact h.elim
  | acting username => exact h.elim
  | saved letter' =>
    obtain rfl : letter' = letter := h
    cases op with
    | userFind name =>
      obtain rfl : name = letter'.receiver := hallowed
      have hfound : (exec env (.userFind letter'.receiver) s).1 = some k := hwaits.online
      rw [hfound]
      exact ⟨rfl, rfl⟩
    | username connection => exact absurd hallowed.2 (by simp)
    | savePrivateMessage sender receiver content createdAt =>
      have habsurd : Errand.saved letter' = .acting sender := hallowed
      exact absurd habsurd (by simp)
    | send connection payload => exact hallowed.elim
    | _ => exact hallowed.elim
  | found letter' connection' =>
    obtain ⟨rfl, rfl⟩ := h
    cases op with
    | send connection payload =>
      obtain ⟨rfl, rfl⟩ := hallowed
      -- the event goes out now, on a connection that is connected
      show _ ∈ s.sent ++ [_]
      rw [hwaits.connected]
      simp
    | username connection => exact absurd hallowed.2 (by simp)
    | savePrivateMessage sender receiver content createdAt =>
      have habsurd : Errand.found letter' connection' = .acting sender := hallowed
      exact absurd habsurd (by simp)
    | _ => exact hallowed.elim
  | settled =>
    have hsettled : Errand.settled.next op (exec env op s).1 = .settled := by
      cases op with
      | username connection => exact absurd hallowed.2 (by simp)
      | savePrivateMessage sender receiver content createdAt =>
        have habsurd : Errand.settled = .acting sender := hallowed
        exact absurd habsurd (by simp)
      | userFind name => cases (exec env (.userFind name) s).1 <;> rfl
      | _ => rfl
    rw [hsettled]
    show _ ∈ (exec env op s).2.sent
    rw [sent_exec]
    exact List.mem_append_left _ h

/-- What was filed before the last entry, or by it. -/
theorem Filed.of_snoc {entry : Entry Conn Input Op Op.Response ServerState}
    (h : Filed (history ++ [entry]) t letter during) :
    (∃ s, entry = filed t s letter ∧ during = []) ∨
      ∃ during', during = during' ++ [entry] ∧ Filed history t letter during' ∧
        (entry.thread = t → entry.move ≠ .finish) := by
  obtain ⟨⟨earlier, s, hhistory⟩, hwithin⟩ := h
  rcases List.eq_nil_or_concat during with rfl | ⟨during', last, rfl⟩
  · exact .inl ⟨s, List.singleton_inj.mp (List.append_inj' hhistory rfl).2, rfl⟩
  · rw [List.concat_eq_append, ← List.cons_append, ← List.append_assoc] at hhistory
    obtain ⟨hbefore, hlast⟩ := List.append_inj' hhistory rfl
    obtain rfl := List.singleton_inj.mp hlast
    rw [List.concat_eq_append] at hwithin ⊢
    exact .inr ⟨during', rfl, ⟨⟨earlier, s, hbefore⟩, fun e he => hwithin e (List.mem_append_left _ he)⟩,
      hwithin entry (by simp)⟩

theorem Filed.snoc (h : Filed history t letter during)
    {entry : Entry Conn Input Op Op.Response ServerState} (hentry : entry.thread = t → entry.move ≠ .finish) :
    Filed (history ++ [entry]) t letter (during ++ [entry]) := by
  obtain ⟨⟨earlier, s, rfl⟩, hwithin⟩ := h
  exact ⟨⟨earlier, s, by simp⟩, hwithin.snoc hentry⟩

theorem Errand.Recalls.snoc {errand : Errand} (h : errand.Recalls history t)
    {entry : Entry Conn Input Op Op.Response ServerState} (hentry : entry.thread = t → entry.move ≠ .finish) :
    errand.Recalls (history ++ [entry]) t := by
  cases errand with
  | saved letter =>
    obtain ⟨during, hfiled⟩ := h
    exact ⟨_, hfiled.snoc hentry⟩
  | found letter connection =>
    obtain ⟨during, hfiled, lookup, hlookup, hlooks⟩ := h
    exact ⟨_, hfiled.snoc hentry, lookup, List.mem_append_left _ hlookup, hlooks⟩
  | _ => trivial

/-- After an action, the message in hand is that of the history. -/
theorem recalls_errand {errand : Errand} (h : errand.Recalls history t) {op : Op}
    (hallowed : op.PostedIn t errand) (env : Env) :
    (errand.next op (exec env op s).1).Recalls
      (history ++ [⟨t, s, .act ⟨op, (exec env op s).1⟩⟩]) t := by
  cases op with
  | username connection =>
    show (if _ then Errand.settled else .acting _).Recalls _ t
    split_ifs <;> exact trivial
  | currentTimeSeconds => exact h.snoc fun _ => by simp
  | savePrivateMessage sender receiver content createdAt =>
    generalize hresponse :
      ((exec env (.savePrivateMessage sender receiver content createdAt) s).1 : Option ℤ) = saved
    cases saved with
    | none => exact trivial
    | some id => exact ⟨[], ⟨history, s, rfl⟩, fun _ he => absurd he (by simp)⟩
  | userFind name =>
    generalize hresponse : ((exec env (.userFind name) s).1 : Option Conn) = found
    cases errand with
    | saved letter =>
      obtain rfl : name = letter.receiver := hallowed
      cases found with
      | none => exact trivial
      | some connection =>
        obtain ⟨during, hfiled⟩ := h
        exact ⟨_, hfiled.snoc fun _ => by simp, _, List.mem_append_right _ (List.mem_singleton_self _),
          rfl, rfl, hresponse⟩
    | _ => cases found <;> exact trivial
  | _ => exact trivial

/-- A move of a thread leaves the phases of the others, whatever the discipline, … -/
theorem phase_of_ne {Phase' : Type} {T : Typestate Conn Op Op.Response Phase'} {P P' : Conn → Phase'}
    (h : T.Advances server s P t m s' P') {t' : Conn} (ht : t' ≠ t) : P' t' = P t' := by
  cases m with
  | begin i =>
    obtain ⟨-, -, -, rfl⟩ := h
    rfl
  | act event =>
    obtain ⟨-, -, rfl⟩ := h
    exact Function.update_of_ne ht ..
  | finish =>
    obtain ⟨-, -, rfl⟩ := h
    exact Function.update_of_ne ht ..

/-- … and what was sent. -/
theorem sent_kept {Phase' : Type} {T : Typestate Conn Op Op.Response Phase'} {P P' : Conn → Phase'}
    (h : T.Advances server s P t m s' P') : ∀ e ∈ s.sent, e ∈ s'.sent := by
  intro e he
  cases m with
  | begin i =>
    obtain ⟨-, -, rfl, -⟩ := h
    cases i <;> exact he
  | act event =>
    obtain ⟨-, ⟨env, -, rfl⟩, -⟩ := h
    show e ∈ (exec env event.op s).2.sent
    rw [sent_exec]
    exact List.mem_append_left _ he
  | finish =>
    obtain ⟨-, rfl, -⟩ := h
    exact he

/-- **Every move keeps it.** -/
theorem Delivering.step (h : Delivering history s P) (hadvances : posting.Advances server s P t m s' P') :
    Delivering (history ++ [⟨t, s, m⟩]) s' P' := by
  refine ⟨@fun t' letter during k hfiled hwaits => ?_, fun t' => ?_⟩
  · rcases hfiled.of_snoc with ⟨s₀, hentry, rfl⟩ | ⟨during', rfl, hfiled', hnot⟩
    · -- the message is saved just now
      obtain ⟨rfl, rfl, rfl⟩ := Entry.mk.inj hentry
      obtain ⟨-, -, rfl⟩ := hadvances
      rw [Function.update_self]
      exact rfl
    · have hprogress := h.progress hfiled' fun entry he => hwaits entry (List.mem_append_left _ he)
      by_cases ht : t' = t
      · subst ht
        have hnow := hwaits _ (List.mem_append_right _ (List.mem_singleton_self _))
        cases m with
        | begin i =>
          obtain ⟨hresting, -⟩ := hadvances
          rw [hresting] at hprogress
          exact hprogress.elim
        | act event =>
          obtain ⟨op, r⟩ := event
          obtain ⟨hallowed, ⟨env, hresponse, rfl⟩, rfl⟩ := hadvances
          change r = (exec env op s).1 at hresponse
          subst hresponse
          rw [Function.update_self]
          exact progress_errand hprogress hnow hallowed env
        | finish => exact absurd rfl (hnot rfl)
      · rw [phase_of_ne hadvances ht]
        exact hprogress.mono (sent_kept hadvances)
  · by_cases ht : t' = t
    · subst ht
      cases m with
      | begin i =>
        obtain ⟨-, -, -, rfl⟩ := hadvances
        exact (h.recalls t').snoc fun _ => by simp
      | act event =>
        obtain ⟨op, r⟩ := event
        obtain ⟨hallowed, ⟨env, hresponse, rfl⟩, rfl⟩ := hadvances
        change r = (exec env op s).1 at hresponse
        subst hresponse
        rw [Function.update_self]
        exact recalls_errand (h.recalls t') hallowed env
      | finish =>
        obtain ⟨-, -, rfl⟩ := hadvances
        rw [Function.update_self]
        exact trivial
    · rw [phase_of_ne hadvances ht]
      exact (h.recalls t').snoc fun heq => absurd heq.symm ht

end

theorem delivering_of_traced {storage : ChatStorage} {history : History}
    {c : Config Conn Input Op Op.Response ServerState} (h : Traced server (.initial storage) history c) :
    Delivering history c.shared (posting.phases c) ∧ posting.Following c := by
  have hinit : Delivering [] (.initial storage) fun _ => posting.resting := by
    refine ⟨fun hfiled => ?_, fun _ => trivial⟩
    obtain ⟨⟨earlier, s, hhistory⟩, -⟩ := hfiled
    exact absurd hhistory (by simp)
  exact Typestate.history_invariant server_posts hinit (fun h hadvances => h.step hadvances) h

/-- No event is sent twice. -/
theorem countP_letter_le_one {sent : List Sent} (h : sent.Pairwise PrivateBefore) (letter : Letter) :
    sent.countP (fun e => decide (e.payload = letter.event)) ≤ 1 := by
  refine countP_le_one h fun {e e'} he he' hbefore => ?_
  have hevent := letter.privateEvent
  exact (hbefore letter.id letter.id letter.sender letter.sender (of_decide_eq_true he ▸ hevent)
    (of_decide_eq_true he' ▸ hevent)).1 rfl

/-- Where a private event that is sent comes from. -/
theorem letter_of_send {storage : ChatStorage} {history : History}
    {c : Config Conn Input Op Op.Response ServerState} (hrun : Traced server (.initial storage) history c)
    {before after : History} {t k : Conn} {s : ServerState} {payload : Outgoing} {id : ℤ} {sender : Bytes}
    (hhistory : history = before ++ ⟨t, s, .act ⟨.send k payload, ()⟩⟩ :: after)
    (hevent : PrivateEvent payload id sender) : ∃ letter during, payload = letter.event ∧
      Filed before t letter during ∧ ∃ entry ∈ during, LooksUp t letter.receiver k entry := by
  obtain ⟨c₁, c₂, hbefore, -, hmove⟩ := hrun.split hhistory
  obtain ⟨hdelivering, hfollowing⟩ := delivering_of_traced hbefore
  have hmay : (posting.phases c₁ t).MaySend k payload := (hfollowing.moves server_posts hmove).2.1
  have hrecalls := hdelivering.recalls t
  cases herrand : posting.phases c₁ t with
  | saved letter =>
    rw [herrand] at hmay
    exact hmay.elim
  | found letter connection =>
    rw [herrand] at hmay hrecalls
    obtain ⟨rfl, rfl⟩ := hmay
    obtain ⟨during, hfiled, hlooks⟩ := hrecalls
    exact ⟨letter, during, rfl, hfiled, hlooks⟩
  | _ =>
    rw [herrand] at hmay
    exact absurd hevent (hmay id sender)

/-- **Private messages reach their receivers.**  In every run, whatever the interleaving: whoever is sent a
private event is a connection that the same handler has found registered for the receiver, after it saved the
message; and a receiver who is registered for one connection, which is connected, from the save until the
handler has sent what it sends is sent the event there, and it is sent once and nowhere else, however the run
goes on. -/
theorem private_messages_reach_their_receivers (storage : ChatStorage) {history : History}
    {c : Config Conn Input Op Op.Response ServerState}
    (hrun : Traced server (.initial storage) history c) :
    (∀ before t s k payload after id sender, history = before ++ ⟨t, s, .act ⟨.send k payload, ()⟩⟩ :: after →
      PrivateEvent payload id sender → ∃ letter during, payload = letter.event ∧
        Filed before t letter during ∧ ∃ entry ∈ during, LooksUp t letter.receiver k entry) ∧
    ∀ before t s letter after, history = before ++ filed t s letter :: after → Within t after →
      (∃ i done, c.threads t = some ⟨i, done, .ret ()⟩) →
      ∀ k, (∀ entry ∈ after, Waits letter.receiver k entry.before) →
        ∀ c', Path server (fun _ _ => True) c c' → ⟨k, letter.event, true⟩ ∈ c'.shared.sent ∧
          c'.shared.sent.countP (fun e => decide (e.payload = letter.event)) = 1 := by
  constructor
  · intro before t s k payload after id sender hhistory hevent
    exact letter_of_send hrun hhistory hevent
  · rintro before t s letter after hhistory hwithin ⟨i, done, hthread⟩ k hwaits c' hpath
    obtain ⟨hdelivering, hfollowing⟩ := delivering_of_traced hrun
    have hprogress := hdelivering.progress ⟨⟨before, s, hhistory⟩, hwithin⟩ hwaits
    -- the handler has nothing in hand any more, so the event is sent
    have hfree : (posting.phases c t).Free := by
      rw [Typestate.phases, hthread]
      exact hfollowing t _ hthread
    have hsent : ⟨k, letter.event, true⟩ ∈ c.shared.sent := by
      cases herrand : posting.phases c t with
      | settled =>
        rw [herrand] at hprogress
        exact hprogress
      | saved letter' =>
        rw [herrand] at hfree
        exact hfree.elim
      | found letter' connection =>
        rw [herrand] at hfree
        exact hfree.elim
      | _ =>
        rw [herrand] at hprogress
        exact hprogress.elim
    have hstill := sent_path (broadcasting_of_traced hrun).2 hpath _ hsent
    refine ⟨hstill, Nat.le_antisymm
      (countP_letter_le_one (posting_of_reachable (hrun.reachable.path hpath)).sent letter) ?_⟩
    exact List.countP_pos_iff.mpr ⟨_, hstill, decide_eq_true rfl⟩

/-! ### A private message under way -/

/-- The actions of the handler for a receiver who is online. -/
theorem sendPrivate_calls (t : Conn) (target message username : Bytes) (husername : username ≠ [])
    (htarget : isValidName target = true) (hmessage : message ≠ []) (now id : ℤ) (k : Conn) :
    ∃ n₁ n₂ n₃ n₄ n₅ object, sendPrivate t target message = .call (.username t) n₁ ∧
      n₁ username = .call .currentTimeSeconds n₂ ∧
      n₂ now = .call (.savePrivateMessage username target message now) n₃ ∧
      n₃ (some id) = .call (.userFind target) n₄ ∧
      n₄ (some k) = .call (.send k (Letter.event ⟨id, username, target, message, now⟩)) n₅ ∧
      n₅ () = .call (.send t (.json object)) .ret := by
  have hnamed : ∃ n₁ n₂, sendPrivate t target message = .call (.username t) n₁ ∧
      n₁ username = .call .currentTimeSeconds n₂ ∧
      ∃ n₃, n₂ now = .call (.savePrivateMessage username target message now) n₃ ∧
        ∃ n₄, n₃ (some id) = .call (.userFind target) n₄ ∧
          ∃ n₅, n₄ (some k) = .call (.send k (Letter.event ⟨id, username, target, message, now⟩)) n₅ ∧
            ∃ object, n₅ () = .call (.send t (.json object)) .ret := by
    apply Exists.intro
    apply Exists.intro
    refine ⟨rfl, ?_, ?_⟩
    · show ((if username = [] then _ else _ : Handler (Option Bytes)) >>= _) = _
      rw [if_neg husername]
      show (if isValidName target = false then _ else if message = [] then _ else _) = _
      rw [if_neg (by simp [htarget]), if_neg hmessage]
      rfl
    · exact ⟨_, rfl, _, rfl, _, rfl, _, rfl⟩
  obtain ⟨n₁, n₂, h₁, h₂, n₃, h₃, n₄, h₄, n₅, h₅, object, h₆⟩ := hnamed
  exact ⟨n₁, n₂, n₃, n₄, n₅, object, h₁, h₂, h₃, h₄, h₅, h₆⟩

theorem program_privateRequest (t : Conn) (target : String) (message : Bytes) :
    server.program t (privateRequest target message) = sendPrivate t (ascii target) message := by
  let request : JsonObject := (((∅ : JsonObject).insert (ascii "type") (ascii "private")).insert
    (ascii "target") (ascii target)).insert (ascii "message") message
  have hfields : fieldOrEmpty request "type" = ascii "private" ∧
      fieldOrEmpty request "target" = ascii target ∧ fieldOrEmpty request "message" = message := by
    simp (disch := decide) only [request, fieldOrEmpty_insert_self, fieldOrEmpty_insert_of_ne, and_self]
  obtain ⟨htype, htarget, hmessage⟩ := hfields
  show handleRequest t request = _
  rw [handleRequest_private htype, htarget, hmessage]

/-- Bob is sent alice's message, once, and it is never sent again. -/
theorem bob_gets_his_letter :
    ∃ history c, Traced server (.initial .empty) history c ∧
      ∀ c', Path server (fun _ _ => True) c c' →
        ⟨2, Letter.event ⟨1, ascii "alice", ascii "bob", ascii "hi", 7⟩, true⟩ ∈ c'.shared.sent ∧
        c'.shared.sent.countP (fun e => decide
          (e.payload = Letter.event ⟨1, ascii "alice", ascii "bob", ascii "hi", 7⟩)) = 1 := by
  have hquiet : Reachable server (fun _ _ => True) (.initial .empty) (.quiet aliceAndBob) :=
    aliceAndBob_reachable.reachable fun _ _ _ => trivial
  obtain ⟨earlier, htraced⟩ := hquiet.traced
  obtain ⟨n₁, n₂, n₃, n₄, n₅, object, h₁, h₂, h₃, h₄, h₅, h₆⟩ := sendPrivate_calls 1
    (ascii "bob") (ascii "hi") (ascii "alice") (by decide) (by decide)
    (by decide) 7 1 2
  have hbegin := htraced.begin (t := 1) (i := privateRequest "bob" (ascii "hi")) rfl
    (admits_request (by decide +kernel) _)
  rw [program_privateRequest, h₁] at hbegin
  have hnamed := hbegin.perform ⟨7, true⟩ (r := ascii "alice") (by decide +kernel)
  rw [h₂] at hnamed
  have htimed := hnamed.perform ⟨7, true⟩ (r := 7) rfl
  rw [h₃] at htimed
  have hsaved := htimed.perform ⟨7, true⟩ (r := some 1) (by decide +kernel)
  rw [h₄] at hsaved
  have hfound := hsaved.perform ⟨7, true⟩ (r := some 2) (by decide +kernel)
  rw [h₅] at hfound
  have hsent := hfound.perform ⟨7, true⟩ (r := ()) rfl
  rw [h₆] at hsent
  have hdone := hsent.perform ⟨7, true⟩ (r := ()) rfl
  refine ⟨_, _, hdone, (private_messages_reach_their_receivers .empty hdone).2
    (earlier ++ [_, _, _]) 1 _ ⟨1, ascii "alice", ascii "bob", ascii "hi", 7⟩ [_, _, _]
    (by simp only [List.append_assoc, List.cons_append, List.nil_append]; rfl) (by simp [Within])
    ⟨_, _, rfl⟩ 2 ?_⟩
  simp only [List.forall_mem_cons]
  exact ⟨⟨by decide +kernel, by decide +kernel⟩, ⟨by decide +kernel, by decide +kernel⟩,
    ⟨by decide +kernel, by decide +kernel⟩, by simp⟩

end ChatService
