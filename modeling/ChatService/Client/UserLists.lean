import ChatService.Client.ChatState
import ChatService.QtClient.MainWindow
import ChatService.Server.Conversations
import ChatService.Server.Identity
import ChatService.Server.Outgoing

/-!
# The list of online users

The server joins the names of the online map with commas, and escapes nothing; each client splits the text at
the commas, trims the parts, and drops the empty ones and its own name.  Names that can be online are valid
names: no commas, no spaces, never empty.

* `users_response_decodes` — a request for the list is answered, and both clients make of the answer the other online
  users, each once.
-/

namespace ChatService

open AtomicProgram

/-! ### Lists with separators -/

/-- Parts that have no blanks are left as they are. -/
theorem map_trim {α : Type*} {q : α → Bool} {parts : List (List α)} (h : ∀ part ∈ parts, ∀ a ∈ part, q a = false) :
    parts.map (Words.trim q) = parts := by
  have hself : parts.map (Words.trim q) = parts.map id :=
    List.map_congr_left fun part hpart => Words.trim_eq_self (h part hpart)
  rw [hself, List.map_id]

/-! ### Names as texts -/

/-- A byte of a name, as a character. -/
theorem char_of_byte (b : UInt8) (h : (isalnum b || b == 0x5f || b == 0x2d || b == 0x2e) = true) :
    Qt.isSpace (Char.ofNat b.toNat) = false ∧ Gateway.isJsSpace (Char.ofNat b.toNat) = false ∧
      Char.ofNat b.toNat ≠ ',' :=
  forall_byte (fun b => (isalnum b || b == 0x5f || b == 0x2d || b == 0x2e) = true →
    Qt.isSpace (Char.ofNat b.toNat) = false ∧ Gateway.isJsSpace (Char.ofNat b.toNat) = false ∧
      Char.ofNat b.toNat ≠ ',') (by decide +kernel) b h

/-- The characters of a name. -/
theorem char_of_isValidName {text : List Char} (h : isValidName (Utf8.encode text) = true) {c : Char} (hc : c ∈ text) :
    Qt.isSpace c = false ∧ Gateway.isJsSpace c = false ∧ c ≠ ',' := by
  have hbytes : ∀ b ∈ String.utf8EncodeChar c, (isalnum b || b == 0x5f || b == 0x2d || b == 0x2e) = true := by
    intro b hb
    by_contra hno
    rw [Bool.not_eq_true] at hno
    exact not_mem_of_isValidName h hno (List.mem_flatMap.mpr ⟨c, hc, hb⟩)
  rcases Utf8.utf8EncodeChar_cases c with ⟨hascii, heq⟩ | ⟨-, hbeyond⟩
  · have hb := hbytes (UInt8.ofNat c.toNat) (heq ▸ List.mem_singleton_self _)
    have hchar := char_of_byte _ hb
    rwa [Utf8.toNat_ofNat (by omega), Char.ofNat_toNat] at hchar
  · obtain ⟨b, hb⟩ : ∃ b, b ∈ String.utf8EncodeChar c := by
      apply List.exists_mem_of_ne_nil
      rw [String.utf8EncodeChar]
      split_ifs <;> exact List.cons_ne_nil _ _
    have hno : ¬ (0x80 ≤ b) := forall_byte (fun b => (isalnum b || b == 0x5f || b == 0x2d || b == 0x2e) = true →
      ¬ (0x80 ≤ b)) (by decide +kernel) b (hbytes b hb)
    exact absurd (hbeyond b hb) hno

/-- The text of a name. -/
def nameText (name : Bytes) : List Char := (Utf8.write [] name).1

theorem encode_nameText {name : Bytes} (h : isValidName name = true) : Utf8.encode (nameText name) = name := by
  obtain ⟨text, rfl⟩ := valid_of_isValidName h
  rw [nameText, Utf8.write_encode]

/-- The text of a joined list. -/
theorem write_joinList {names : List Bytes} (h : ∀ name ∈ names, isValidName name = true) :
    Utf8.write [] (joinList names) = (List.intercalate [','] (names.map nameText), []) := by
  have hnames : (names.map nameText).map Utf8.encode = names := by
    rw [List.map_map]
    exact (List.map_congr_left fun name hname => encode_nameText (h name hname)).trans (List.map_id _)
  have hcomma : Utf8.encode [','] = [Byte.comma] := by decide
  rw [← Utf8.write_encode, Utf8.encode_intercalate, hnames, hcomma]
  rfl

section

variable {names : List Bytes}

/-- What is known of the parts of the text. -/
theorem parts_of_names (h : ∀ name ∈ names, isValidName name = true) :
    (∀ part ∈ names.map nameText, part ≠ []) ∧ ∀ part ∈ names.map nameText, ∀ c ∈ part,
      Qt.isSpace c = false ∧ Gateway.isJsSpace c = false ∧ c ≠ ',' := by
  constructor
  · rw [List.forall_mem_map]
    intro name hname hnil
    have hempty := encode_nameText (h name hname)
    rw [hnil] at hempty
    exact ne_nil_of_isValidName (h name hname) hempty.symm
  · rw [List.forall_mem_map]
    intro name hname c hc
    refine char_of_isValidName ?_ hc
    rw [encode_nameText (h name hname)]
    exact h name hname

/-- **The Qt client** keeps the names but its own. -/
theorem handleUsers_qt (h : ∀ name ∈ names, isValidName name = true) (w : Qt.MainWindow) :
    w.handleUsers (List.intercalate [','] (names.map nameText)) =
      (names.map nameText).filter (· ≠ w.currentUsername) := by
  obtain ⟨hne, hchars⟩ := parts_of_names h
  have hsep : ∀ part ∈ names.map nameText, ',' ∉ part := fun part hpart hmem => (hchars part hpart ',' hmem).2.2 rfl
  have htrim : (names.map nameText).map Qt.trimmed = names.map nameText :=
    map_trim fun part hpart c hc => (hchars part hpart c hc).1
  rw [Qt.MainWindow.handleUsers, Separators.filter_splitOn_intercalate hsep hne, htrim]
  refine List.filter_congr fun part hpart => ?_
  simp [hne part hpart]

/-- A set of different values lists them. -/
theorem foldl_addToSet {values set : List (List Char)} (h : (set ++ values).Nodup) :
    values.foldl Web.addToSet set = set ++ values := by
  induction values generalizing set with
  | nil => rw [List.append_nil]; rfl
  | cons value values ih =>
    have hnew : value ∉ set := fun hmem => (List.disjoint_of_nodup_append h) hmem List.mem_cons_self
    rw [List.append_cons] at h ⊢
    rw [List.foldl_cons, Web.addToSet, if_neg hnew, ih h]

/-- **The web client** keeps the names but its own. -/
theorem handleUsers_web (h : ∀ name ∈ names, isValidName name = true) (hnodup : (names.map nameText).Nodup)
    (s : Web.ChatState) :
    (s.handleUsers (List.intercalate [','] (names.map nameText))).users =
      (names.map nameText).filter (· ≠ s.username) := by
  obtain ⟨hne, hchars⟩ := parts_of_names h
  have hsep : ∀ part ∈ names.map nameText, ',' ∉ part := fun part hpart hmem => (hchars part hpart ',' hmem).2.2 rfl
  have hfilter : ((((List.intercalate [','] (names.map nameText)).splitOn ',').map
      (Words.trim Gateway.isJsSpace)).filter fun user => user ≠ [] ∧ user ≠ s.username) =
        (names.map nameText).filter (· ≠ s.username) := by
    by_cases hempty : names.map nameText = []
    · -- an empty text is split into one empty part, which is dropped
      rw [hempty]
      rfl
    · have htrim : (names.map nameText).map (Words.trim Gateway.isJsSpace) = names.map nameText :=
        map_trim fun part hpart c hc => (hchars part hpart c hc).2.1
      rw [List.splitOn_intercalate ',' hsep hempty, htrim]
      refine List.filter_congr fun part hpart => ?_
      simp [hne part hpart]
  show ((((List.intercalate [','] (names.map nameText)).splitOn ',').map (Words.trim Gateway.isJsSpace)).filter
    fun user => user ≠ [] ∧ user ≠ s.username).foldl Web.addToSet [] = _
  rw [hfilter, foldl_addToSet (hnodup.filter _)]
  rfl

end

/-! ### The online map -/

theorem nodup_nameText {names : List Bytes} (h : ∀ name ∈ names, isValidName name = true) (hnodup : names.Nodup) :
    (names.map nameText).Nodup := by
  refine hnodup.map_on ?_
  intro x hx y hy heq
  rw [← encode_nameText (h x hx), heq, encode_nameText (h y hy)]

theorem mem_onlineUsers {m : UserManager} {name : Bytes} : name ∈ m.onlineUsers ↔ (m.users[name]?).isSome = true := by
  rw [UserManager.onlineUsers, Std.ExtTreeMap.mem_keys, Std.ExtTreeMap.mem_iff_isSome_getElem?]

/-- The names in the list, told by their texts. -/
theorem mem_nameTexts {m : UserManager} (h : ∀ name ∈ m.onlineUsers, isValidName name = true) {x : List Char} :
    x ∈ m.onlineUsers.map nameText ↔ (m.users[Utf8.encode x]?).isSome = true := by
  rw [← mem_onlineUsers, List.mem_map]
  constructor
  · rintro ⟨name, hname, rfl⟩
    rwa [encode_nameText (h name hname)]
  · intro hx
    refine ⟨Utf8.encode x, hx, ?_⟩
    rw [nameText, Utf8.write_encode]

/-- What each client makes of a list of the online users: the others, each once. -/
theorem handleUsers_onlineUsers {m : UserManager} (hvalid : ∀ name ∈ m.onlineUsers, isValidName name = true)
    (w : Qt.MainWindow) (s : Web.ChatState) :
    ∃ text : List Char,
      Utf8.write [] (joinList m.onlineUsers) = (text, []) ∧
      (w.handleUsers text).Nodup ∧
      (∀ x, x ∈ w.handleUsers text ↔ (m.users[Utf8.encode x]?).isSome = true ∧ x ≠ w.currentUsername) ∧
      (s.handleUsers text).users.Nodup ∧
      ∀ x, x ∈ (s.handleUsers text).users ↔ (m.users[Utf8.encode x]?).isSome = true ∧ x ≠ s.username := by
  have hnodup : (m.onlineUsers.map nameText).Nodup := nodup_nameText hvalid Std.ExtTreeMap.nodup_keys
  have hmem : ∀ me x, x ∈ (m.onlineUsers.map nameText).filter (· ≠ me) ↔
      (m.users[Utf8.encode x]?).isSome = true ∧ x ≠ me := by
    intro me x
    rw [List.mem_filter, mem_nameTexts hvalid, decide_eq_true_eq]
  refine ⟨_, write_joinList hvalid, ?_⟩
  rw [handleUsers_qt hvalid, handleUsers_web hvalid hnodup]
  exact ⟨hnodup.filter _, hmem _, hnodup.filter _, hmem _⟩

/-- **The users response decodes to the online set.**  In every reachable state a `users` request reads the online
users, and whatever the others have done until it goes on, it sends one response, on the connection that has asked; the
list in it is a text, and whatever its own name is, each client makes of the text the other online users, each once. -/
theorem users_response_decodes (storage : ChatStorage) {c : Config Conn Input Op Op.Response ServerState}
    (hrun : Reachable server (fun _ _ => True) (.initial storage) c) (session : Conn) {request : JsonObject}
    (htype : fieldOrEmpty request "type" = ascii "users") (env : Env) (w : Qt.MainWindow) (s : Web.ChatState) :
    ∃ next response, handleRequest session request = .call .onlineUsers next ∧
      (∀ env' later, (next (exec env .onlineUsers c.shared).1).run exec env' later =
        ((), later.send session (.json response))) ∧
      ∃ text : List Char,
        Utf8.write [] (fieldOrEmpty response "users") = (text, []) ∧
        (w.handleUsers text).Nodup ∧
        (∀ x, x ∈ w.handleUsers text ↔
          (c.shared.userManager.users[Utf8.encode x]?).isSome = true ∧ x ≠ w.currentUsername) ∧
        (s.handleUsers text).users.Nodup ∧
        ∀ x, x ∈ (s.handleUsers text).users ↔
          (c.shared.userManager.users[Utf8.encode x]?).isSome = true ∧ x ≠ s.username := by
  obtain ⟨h, -⟩ := identity_of_reachable hrun
  have hvalid : ∀ name ∈ c.shared.userManager.onlineUsers, isValidName name = true := by
    intro name hname
    obtain ⟨k, hk⟩ := Option.isSome_iff_exists.mp (mem_onlineUsers.mp hname)
    exact h.valid hk
  have hfield : fieldOrEmpty (usersResponse c.shared.userManager.onlineUsers) "users" =
      joinList c.shared.userManager.onlineUsers := fieldOrEmpty_insert_self ..
  refine ⟨fun users => sendJson session (usersResponse users), usersResponse c.shared.userManager.onlineUsers,
    handleRequest_users htype, fun _ _ => rfl, ?_⟩
  rw [hfield]
  exact handleUsers_onlineUsers hvalid w s

/-- The request for the list. -/
def usersRequest : JsonObject := (∅ : JsonObject).insert (ascii "type") (ascii "users")

/-- Alice asks, and her clients list bob. -/
theorem alice_sees_bob : ∃ response, ∃ text : List Char,
    ((handleRequest 1 usersRequest).run exec ⟨0, true⟩ aliceAndBob).2.sent =
        aliceAndBob.sent ++ [⟨1, .json response, true⟩] ∧
      Utf8.write [] (fieldOrEmpty response "users") = (text, []) ∧
      "bob".toList ∈ ({ currentUsername := "alice".toList } : Qt.MainWindow).handleUsers text ∧
      "bob".toList ∈ (({ username := "alice".toList } : Web.ChatState).handleUsers text).users := by
  have hrun : Reachable server (fun _ _ => True) (.initial .empty) (.quiet aliceAndBob) :=
    aliceAndBob_reachable.reachable fun _ _ _ => trivial
  have htype : fieldOrEmpty usersRequest "type" = ascii "users" := fieldOrEmpty_insert_self ..
  obtain ⟨next, response, hhandler, hsends, text, htext, -, hqt, -, hweb⟩ := users_response_decodes .empty hrun 1 htype
    ⟨0, true⟩ { currentUsername := "alice".toList } { username := "alice".toList }
  have hbob : (aliceAndBob.userManager.users[Utf8.encode "bob".toList]?).isSome = true := by decide +kernel
  have hconnected : (aliceAndBob.connections 1).tcpState = .kConnected := by decide +kernel
  refine ⟨response, text, ?_, htext, (hqt _).mpr ⟨hbob, by decide⟩, (hweb _).mpr ⟨hbob, by decide⟩⟩
  have hsent := congrArg (fun result => result.2.sent) (hsends ⟨0, true⟩ aliceAndBob)
  rw [hhandler, Prog.run_call]
  refine hsent.trans ?_
  exact congrArg (fun queued => aliceAndBob.sent ++ [⟨1, .json response, queued⟩]) (decide_eq_true hconnected)

end ChatService
