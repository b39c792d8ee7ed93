import ChatService.Server.Delivery
import ChatService.Server.HistoryPages
import ChatService.Server.RoomPresence

/-!
# The contents of messages

A message is in four places: in the event that announces it, in its row, in the history pages, and in the
dump.  The event carries the content that was saved, and so does the row; but `columnText` reads the row as a
C string, so that a page and the dump have the content up to its first NUL.  A request can carry one, since
`\u0000` is a valid escape.

`Backed` says, in the middle of handlers too, that whatever is sent or about to be sent is backed by the
table; all actions of all handlers keep it.
-/

namespace ChatService

open AtomicProgram Byte

/-- Ids grow from row to row, up to the last one that was handed out. -/
structure ChatStorage.Numbered (storage : ChatStorage) : Prop where
  ids : storage.rows.Pairwise fun x y => x.id < y.id
  last : ∀ row ∈ storage.rows, row.id ≤ storage.lastId

/-- The messages were read from the table. -/
def Loaded (storage : ChatStorage) (messages : List Message) : Prop :=
  ∀ m ∈ messages, ∃ row ∈ storage.rows, m = ChatStorage.messageFromStatement row

/-- What the line tells of a message is in the table. -/
def Outgoing.BackedBy (storage : ChatStorage) (payload : Outgoing) : Prop :=
  payload.Plain ∨ (∃ id save, payload = Save.event id save ∧ save.row id ∈ storage.rows) ∨
    ∃ name messages, (payload = .privateHistory name messages ∨ payload = .roomHistory name messages) ∧
      Loaded storage messages

/-- So is what a handler has in hand. -/
def Delivery.BackedBy (storage : ChatStorage) : Delivery → Prop
  | savedRoom id save _ => save.row id ∈ storage.rows
  | sending id save _ => save.row id ∈ storage.rows
  | savedPrivate id save => save.row id ∈ storage.rows
  | loaded messages => Loaded storage messages
  | _ => True

structure Backed (s : ServerState) (P : Conn → Delivery) : Prop where
  numbered : s.storage.Numbered
  sent : ∀ sent ∈ s.sent, sent.payload.BackedBy s.storage
  hand : ∀ c, (P c).BackedBy s.storage

section

variable {storage storage' : ChatStorage}

/-! ### The table grows -/

/-- The next id is free. -/
theorem ChatStorage.Numbered.insert (h : storage.Numbered) (save : Save) :
    ChatStorage.Numbered ⟨storage.rows ++ [save.row storage.nextId], storage.nextId, storage.ids⟩ where
  ids := by
    refine List.pairwise_append.mpr ⟨h.ids, List.pairwise_singleton .., fun x hx y hy => ?_⟩
    rw [List.mem_singleton.mp hy, Save.id_row]
    exact (h.last x hx).trans_lt storage.lastId_lt_nextId
  last := by
    intro row hrow
    show row.id ≤ storage.nextId
    rcases List.mem_append.mp hrow with hrow | hrow
    · exact (h.last row hrow).trans storage.lastId_lt_nextId.le
    · rw [List.mem_singleton.mp hrow, Save.id_row]

theorem ChatStorage.numbered_created (ids : RowIds) : (ChatStorage.created ids).Numbered :=
  ⟨.nil, fun _ hrow => absurd hrow List.not_mem_nil⟩

/-- Rows with one id are one row. -/
theorem ChatStorage.Numbered.eq_of_id (h : storage.Numbered) {x y : Message} (hx : x ∈ storage.rows)
    (hy : y ∈ storage.rows) (hid : x.id = y.id) : x = y := by
  have hids : storage.rows.Pairwise fun x y => x.id ≠ y.id := h.ids.imp fun hlt => ne_of_lt hlt
  exact List.inj_on_of_nodup_map (List.pairwise_map.mpr hids) hx hy hid

theorem Loaded.mono (hrows : ∀ row ∈ storage.rows, row ∈ storage'.rows) {messages : List Message}
    (h : Loaded storage messages) : Loaded storage' messages := by
  intro m hm
  obtain ⟨row, hrow, rfl⟩ := h m hm
  exact ⟨row, hrows row hrow, rfl⟩

theorem Outgoing.BackedBy.mono (hrows : ∀ row ∈ storage.rows, row ∈ storage'.rows) {payload : Outgoing}
    (h : payload.BackedBy storage) : payload.BackedBy storage' := by
  rcases h with hplain | ⟨id, save, heq, hrow⟩ | ⟨name, messages, heq, hloaded⟩
  · exact .inl hplain
  · exact .inr (.inl ⟨id, save, heq, hrows _ hrow⟩)
  · exact .inr (.inr ⟨name, messages, heq, hloaded.mono hrows⟩)

theorem Delivery.BackedBy.mono (hrows : ∀ row ∈ storage.rows, row ∈ storage'.rows) {phase : Delivery}
    (h : phase.BackedBy storage) : phase.BackedBy storage' := by
  cases phase with
  | savedRoom id save members => exact hrows _ h
  | sending id save remaining => exact hrows _ h
  | savedPrivate id save => exact hrows _ h
  | loaded messages => exact Loaded.mono hrows h
  | _ => trivial

/-- What a query returns was read from the table. -/
theorem loaded_loadHistory (storage : ChatStorage) (conversationType conversationId : Bytes)
    (limit before : ℤ) :
    Loaded storage (storage.loadHistory conversationType conversationId limit before) := by
  intro m hm
  rw [ChatStorage.loadHistory, List.mem_reverse, List.mem_map] at hm
  obtain ⟨row, hrow, rfl⟩ := hm
  have hsorted := (List.mem_insertionSort ChatStorage.newerFirst).mp (List.mem_of_mem_take hrow)
  exact ⟨row, List.mem_of_mem_filter hsorted, rfl⟩

/-- What a handler may send is backed by what it has in hand. -/
theorem Delivery.MaySend.backedBy {phase : Delivery} {connection : Conn} {payload : Outgoing}
    (h : phase.MaySend connection payload) (hbacked : phase.BackedBy storage) :
    payload.BackedBy storage := by
  cases phase with
  | idle => exact .inl h
  | named username => exact .inl h
  | listed room username members => exact h.elim
  | savedRoom id save members => exact h.elim
  | sending id save remaining => exact .inr (.inl ⟨id, save, h.2, hbacked⟩)
  | savedPrivate id save =>
    rcases h with heq | hplain
    · exact .inr (.inl ⟨id, save, heq, hbacked⟩)
    · exact .inl hplain
  | loaded messages =>
    obtain ⟨name, heq⟩ := h
    exact .inr (.inr ⟨name, messages, heq, hbacked⟩)

end

/-- No row is taken out. -/
theorem rows_exec (env : Env) (op : Op) (s : ServerState) :
    ∀ row ∈ s.storage.rows, row ∈ (exec env op s).2.storage.rows := by
  intro row hrow
  rcases storage_exec env op s with ⟨hsame, -⟩ | ⟨save, -, hadded⟩
  · rwa [hsame]
  · rw [hadded]
    exact List.mem_append_left _ hrow

/-- A saved message is in the table from then on. -/
theorem row_of_saves {env : Env} {op : Op} {s : ServerState} {id : ℤ} (save : Save)
    (h : Saves id ⟨op, (exec env op s).1⟩ save) : save.row id ∈ (exec env op s).2.storage.rows := by
  rcases storage_exec env op s with ⟨-, hnone⟩ | ⟨save', hsaves, hadded⟩
  · exact absurd h (hnone id save)
  · have heq : save = save' ∧ id = s.storage.nextId := by
      cases save <;> cases save' <;> simp only [Saves] at h hsaves <;> rw [h] at hsaves <;>
        simp_all
    obtain ⟨rfl, rfl⟩ := heq
    rw [hadded]
    exact List.mem_append_right _ (List.mem_singleton_self _)

/-- What a handler has in hand after an action is in the table. -/
theorem backedBy_next {s : ServerState} {phase : Delivery} (hbacked : phase.BackedBy s.storage) (env : Env)
    (op : Op) : (phase.next op (exec env op s).1).BackedBy (exec env op s).2.storage := by
  have hkept := hbacked.mono (rows_exec env op s)
  cases op with
  | username connection =>
    show (if _ then Delivery.idle else _).BackedBy _
    split_ifs <;> trivial
  | membersForMessage room username =>
    cases hmembers : (exec env (.membersForMessage room username) s).1 with
    | error error => trivial
    | ok members => trivial
  | currentTimeSeconds => exact hkept
  | userFind username => exact hkept
  | savePrivateMessage sender receiver content timestamp =>
    cases hsaved : (exec env (.savePrivateMessage sender receiver content timestamp) s).1 with
    | none => trivial
    | some id =>
      exact row_of_saves (.privateMessage sender receiver content timestamp)
        (show _ = _ by rw [hsaved])
  | saveRoomMessage room sender content timestamp =>
    cases hsaved : (exec env (.saveRoomMessage room sender content timestamp) s).1 with
    | none => trivial
    | some id =>
      cases phase with
      | listed room' username members =>
        exact row_of_saves (.roomMessage room sender content timestamp)
          (show _ = _ by rw [hsaved])
      | _ => trivial
  | userFindMany usernames =>
    cases phase with
    | savedRoom id save members => exact hkept
    | _ => trivial
  | loadPrivateHistory a b limit before => exact loaded_loadHistory _ _ _ _ _
  | loadRoomHistory room limit before => exact loaded_loadHistory _ _ _ _ _
  | send connection payload =>
    cases phase with
    | loaded messages => trivial
    | _ => exact hkept
  | _ => trivial

/-- **All actions of all handlers keep to the table.** -/
theorem backed_kept : delivery.Keeps server (fun _ _ _ _ => True) Backed where
  enter := by
    intro s P t input h _ _
    cases input with
    | reaction reaction => exact h
    | connected => exact ⟨h.numbered, h.sent, h.hand⟩
    | disconnected => exact ⟨h.numbered, h.sent, h.hand⟩
  act := by
    intro s P t op env h hallowed _
    have hrows := rows_exec env op s
    refine ⟨?_, fun sent hsent => ?_, fun c => ?_⟩
    · show (exec env op s).2.storage.Numbered
      rcases storage_exec env op s with ⟨hsame, -⟩ | ⟨save, -, hadded⟩
      · rw [hsame]
        exact h.numbered
      · rw [hadded]
        exact h.numbered.insert save
    · change sent ∈ (exec env op s).2.sent at hsent
      rw [sent_exec, List.mem_append] at hsent
      rcases hsent with hsent | hsent
      · exact (h.sent sent hsent).mono hrows
      · cases op with
        | send connection payload =>
          rw [List.mem_singleton.mp hsent]
          exact (Delivery.MaySend.backedBy hallowed (h.hand t)).mono hrows
        | _ => exact absurd hsent (by simp [Op.sends])
    · by_cases hc : c = t
      · subst hc
        rw [Function.update_self]
        exact backedBy_next (h.hand c) env op
      · rw [Function.update_of_ne hc]
        exact (h.hand c).mono hrows
  rest := by
    intro s P t h _
    refine ⟨h.numbered, h.sent, fun c => ?_⟩
    by_cases hc : c = t
    · subst hc
      rw [Function.update_self]
      trivial
    · rw [Function.update_of_ne hc]
      exact h.hand c

theorem backed_of_traced {storage : ChatStorage} (hstorage : storage.Numbered) {history : History}
    {c : Config Conn Input Op Op.Response ServerState}
    (h : Traced server (.initial storage) history c) : Backed c.shared (delivery.phases c) := by
  have hinit : Backed (.initial storage) fun _ => delivery.resting :=
    ⟨hstorage, fun sent hsent => absurd hsent (by simp [ServerState.initial]), fun _ => trivial⟩
  exact (Typestate.invariant_always server_delivers backed_kept hinit h.reachable).1

/-! ### What is read of a message -/

/-- The server has accepted the message under this id. -/
def Accepted (history : History) (id : ℤ) (save : Save) : Prop :=
  ∃ entry ∈ history, ∃ event, entry.move = .act event ∧ Saves id event save

/-- An accepted message is in the table. -/
theorem row_of_accepted {s₀ : ServerState} {history : History}
    {c : Config Conn Input Op Op.Response ServerState} (h : Traced server s₀ history c) {id : ℤ}
    {save : Save} (haccepted : Accepted history id save) : save.row id ∈ c.shared.storage.rows := by
  induction h with
  | init =>
    obtain ⟨entry, hentry, -⟩ := haccepted
    exact absurd hentry (by simp)
  | @step history c t move c' _ hmove ih =>
    obtain ⟨entry, hentry, event, hevent, hsaves⟩ := haccepted
    rcases List.mem_append.mp hentry with hentry | hentry
    · have hrow := ih ⟨entry, hentry, event, hevent, hsaves⟩
      cases hmove with
      | @begin i _ _ => cases i <;> exact hrow
      | act env _ => exact rows_exec env _ _ _ hrow
      | finish _ => exact hrow
    · rw [List.mem_singleton.mp hentry] at hevent
      cases hmove with
      | begin _ _ => exact absurd hevent (by simp)
      | act env _ =>
        obtain rfl := Move.act.inj hevent
        exact row_of_saves save hsaves
      | finish _ => exact absurd hevent (by simp)

theorem Save.content_row (id : ℤ) (save : Save) : (save.row id).content = save.content := by
  cases save <;> rfl

/-- A row is that of one message only. -/
theorem Save.row_injective {id id' : ℤ} {save save' : Save} (h : save.row id = save'.row id') :
    id = id' ∧ save = save' := by
  have hkinds : ascii "private" ≠ ascii "room" := by decide
  cases save with
  | privateMessage sender receiver content timestamp =>
    cases save' with
    | privateMessage sender' receiver' content' timestamp' =>
      simp only [Save.row, Message.mk.injEq] at h
      simp [h]
    | roomMessage room sender' content' timestamp' =>
      exact absurd (congrArg Message.conversationType h) hkinds
  | roomMessage room sender content timestamp =>
    cases save' with
    | privateMessage sender' receiver' content' timestamp' =>
      exact absurd (congrArg Message.conversationType h).symm hkinds
    | roomMessage room' sender' content' timestamp' =>
      simp only [Save.row, Message.mk.injEq] at h
      simp [h]

/-- An event has the id and the content of its message. -/
theorem Save.event_fields {id : ℤ} {save : Save} {object : JsonObject}
    (h : Outgoing.json object = save.event id) :
    fieldOrEmpty object "id" = int64ToString id ∧ fieldOrEmpty object "message" = save.content := by
  cases save with
  | privateMessage sender receiver content timestamp =>
    obtain rfl := Outgoing.json.inj h
    constructor <;>
      simp (disch := decide) only [privateEvent, fieldOrEmpty_insert_self, fieldOrEmpty_insert_of_ne,
        Save.content]
  | roomMessage room sender content timestamp =>
    obtain rfl := Outgoing.json.inj h
    constructor <;>
      simp (disch := decide) only [roomEvent, fieldOrEmpty_insert_self, fieldOrEmpty_insert_of_ne,
        Save.content]

/-- A text is read back as it is exactly when it has no NUL. -/
theorem columnText_eq_iff (text : Bytes) : ChatStorage.columnText text = text ↔ (0 : UInt8) ∉ text := by
  constructor
  · intro h hzero
    rw [ChatStorage.columnText, cString, List.takeWhile_eq_self_iff] at h
    exact absurd (h 0 hzero) (by simp)
  · exact columnText_eq_self

section

variable {storage : ChatStorage} {id : ℤ} {save : Save}

/-- A row with the written id of the message is its row. -/
theorem ChatStorage.Numbered.row_eq (h : storage.Numbered) (hsave : save.row id ∈ storage.rows)
    {row : Message} (hrow : row ∈ storage.rows) (hid : int64ToString row.id = int64ToString id) :
    row = save.row id :=
  h.eq_of_id hrow hsave (by rw [int64ToString_injective hid, Save.id_row])

/-- **What an item of a page or of a dump says about the message.** -/
theorem item_content_iff (hnumbered : storage.Numbered) (hsave : save.row id ∈ storage.rows)
    {fields : Message → List JsonGrammar.Field}
    (hfields : ∀ m, fieldOrEmpty (itemOf (fields m)) "id" = int64ToString m.id ∧
      fieldOrEmpty (itemOf (fields m)) "content" = m.content) {messages : List Message}
    (hloaded : Loaded storage messages) {item : JsonObject}
    (hitem : item ∈ messages.map fun m => itemOf (fields m))
    (hid : fieldOrEmpty item "id" = int64ToString id) :
    fieldOrEmpty item "content" = save.content ↔ (0 : UInt8) ∉ save.content := by
  obtain ⟨m, hm, rfl⟩ := List.mem_map.mp hitem
  obtain ⟨row, hrow, rfl⟩ := hloaded m hm
  rw [(hfields _).1] at hid
  rw [(hfields _).2, hnumbered.row_eq hsave hrow hid]
  show ChatStorage.columnText (save.row id).content = save.content ↔ _
  rw [Save.content_row, columnText_eq_iff]

end

/-- **The contents of accepted messages.**  In every run, the events of an accepted message carry the content
that was saved; the history pages and the dump give the same content if and only if it has no NUL byte, and
the dump does list the message. -/
theorem contents_agree_iff {storage : ChatStorage} (hstorage : storage.Numbered) {history : History}
    {c : Config Conn Input Op Op.Response ServerState} (h : Traced server (.initial storage) history c)
    {id : ℤ} {save : Save} (haccepted : Accepted history id save) :
    (∀ sent ∈ c.shared.sent, ∀ payload, sent.payload = .json payload → ¬ (Outgoing.json payload).Plain →
      ∀ object pos, parseJsonObject sent.payload.line.dropLast = .ok object pos →
        fieldOrEmpty object "id" = int64ToString id → fieldOrEmpty object "message" = save.content) ∧
    (∀ sent ∈ c.shared.sent, ∀ name messages,
      sent.payload = .privateHistory name messages ∨ sent.payload = .roomHistory name messages →
      ∀ items, ReadsPage sent.payload.line.dropLast items →
        ∀ item ∈ items, fieldOrEmpty item "id" = int64ToString id →
          (fieldOrEmpty item "content" = save.content ↔ (0 : UInt8) ∉ save.content)) ∧
    ∃ items, Lists c.shared.storage.dumpAllMessagesJson.dropLast items ∧
      (∃ item ∈ items, fieldOrEmpty item "id" = int64ToString id) ∧
      ∀ item ∈ items, fieldOrEmpty item "id" = int64ToString id →
        (fieldOrEmpty item "content" = save.content ↔ (0 : UInt8) ∉ save.content) := by
  have hbacked := backed_of_traced hstorage h
  have hsave := row_of_accepted h haccepted
  have hnumbered := hbacked.numbered
  refine ⟨?_, ?_, ?_⟩
  · intro sent hsent payload hpayload hevent object pos hparse hid
    have hline : sent.payload.line.dropLast = serializeJsonObject payload := by
      rw [hpayload, Outgoing.line, makeJsonLine, List.dropLast_concat]
    rw [hline, parse_serialize] at hparse
    obtain rfl := (Scan.ok.inj hparse).1
    rcases hbacked.sent sent hsent with hplain | ⟨id', save', heq, hrow⟩ | ⟨name, messages, heq, -⟩
    · exact absurd (hpayload ▸ hplain) hevent
    · obtain ⟨hid', hcontent⟩ := Save.event_fields (hpayload.symm.trans heq)
      rw [hid'] at hid
      have hsame := hnumbered.row_eq hsave hrow (by rwa [Save.id_row])
      rw [hcontent, ← Save.content_row id' save', hsame, Save.content_row]
    · rw [hpayload] at heq
      exact absurd heq (by simp)
  · intro sent hsent name messages hpage items hreads item hitem hid
    have hloaded : Loaded c.shared.storage messages := by
      rcases hbacked.sent sent hsent with hplain | ⟨id', save', heq, -⟩ | ⟨name', messages', heq, hloaded⟩
      · rcases hpage with hpage | hpage <;> rw [hpage] at hplain <;> exact hplain.elim
      · cases save' <;> rcases hpage with hpage | hpage <;> rw [hpage] at heq <;>
          exact absurd heq (by simp [Save.event])
      · rcases hpage with hpage | hpage <;> rw [hpage] at heq <;> simp_all
    rcases hpage with hpage | hpage
    · rw [hpage] at hreads
      rw [(readsPage_private _ _ _).mp hreads] at hitem
      exact item_content_iff hnumbered hsave privateFields_spec hloaded hitem hid
    · rw [hpage] at hreads
      rw [(readsPage_room _ _ _).mp hreads] at hitem
      exact item_content_iff hnumbered hsave roomFields_spec hloaded hitem hid
  · have hrows : ∀ row, row ∈ c.shared.storage.rowsById ↔ row ∈ c.shared.storage.rows :=
      fun row => List.mem_insertionSort _
    have hloaded : Loaded c.shared.storage
        (c.shared.storage.rowsById.map ChatStorage.messageFromStatement) := by
      intro m hm
      obtain ⟨row, hrow, rfl⟩ := List.mem_map.mp hm
      exact ⟨row, (hrows row).mp hrow, rfl⟩
    refine ⟨_, (lists_dump _ _).mpr rfl, ⟨_, List.mem_map_of_mem (List.mem_map_of_mem
      ((hrows _).mpr hsave)), ?_⟩, fun item hitem hid =>
        item_content_iff hnumbered hsave dumpFields_spec hloaded hitem hid⟩
    rw [(dumpFields_spec _).1]
    exact congrArg int64ToString (Save.id_row id save)

/-! ### A message with a NUL -/

def privateRequest (target : String) (message : Bytes) : Input :=
  .request ((((∅ : JsonObject).insert (ascii "type") (ascii "private")).insert (ascii "target")
    (ascii target)).insert (ascii "message") message)

def historyRequest (peer : String) : Input :=
  .request (((∅ : JsonObject).insert (ascii "type") (ascii "history_private")).insert (ascii "peer")
    (ascii peer))

/-- `a`, NUL, `b`: what `"a\u0000b"` stands for. -/
def nulContent : Bytes := [0x61, 0, 0x62]

/-- Alice sends it to bob, who then asks for the history. -/
def nulDelivered : ServerState :=
  serve1 ⟨5, true⟩ 2 (historyRequest "alice")
    (serve1 ⟨5, true⟩ 1 (privateRequest "bob" nulContent) aliceAndBob)

theorem nulDelivered_reachable : Serial server (.initial .empty) nulDelivered :=
  Serial.serve1 (Serial.serve1 aliceAndBob_reachable (admits_request (by decide +kernel) _))
    (admits_request (by decide +kernel) _)

def nulMessage : Save := .privateMessage (ascii "alice") (ascii "bob") nulContent 5

/-- Every row that was not there before is that of an accepted message. -/
theorem accepted_of_row {s₀ : ServerState} {history : History}
    {c : Config Conn Input Op Op.Response ServerState} (h : Traced server s₀ history c) {row : Message}
    (hrow : row ∈ c.shared.storage.rows) :
    row ∈ s₀.storage.rows ∨ ∃ id save, Accepted history id save ∧ row = save.row id := by
  induction h with
  | init => exact .inl hrow
  | @step history c t move c' _ hmove ih =>
    have hbefore : row ∈ c.shared.storage.rows →
        row ∈ s₀.storage.rows ∨
          ∃ id save, Accepted (history ++ [⟨t, c.shared, move⟩]) id save ∧ row = save.row id := by
      intro hrow
      refine (ih hrow).imp_right ?_
      rintro ⟨id, save, ⟨entry, hentry, haccepts⟩, heq⟩
      exact ⟨id, save, ⟨entry, List.mem_append_left _ hentry, haccepts⟩, heq⟩
    cases hmove with
    | @begin i _ _ => cases i <;> exact hbefore hrow
    | finish _ => exact hbefore hrow
    | @act i done op next env _ =>
      rcases storage_exec env op c.shared with ⟨hsame, -⟩ | ⟨save, hsaves, hadded⟩
      · change row ∈ (exec env op c.shared).2.storage.rows at hrow
        rw [hsame] at hrow
        exact hbefore hrow
      · change row ∈ (exec env op c.shared).2.storage.rows at hrow
        rw [hadded, List.mem_append, List.mem_singleton] at hrow
        rcases hrow with hrow | rfl
        · exact hbefore hrow
        · exact .inr ⟨_, save, ⟨_, List.mem_append_right _ (List.mem_singleton_self _), _, rfl, hsaves⟩,
            rfl⟩

theorem nulMessage_accepted :
    ∃ history, Traced server (.initial .empty) history (.quiet nulDelivered) ∧
      Accepted history 1 nulMessage := by
  have hrun : Reachable server (fun _ _ => True) (.initial .empty) (.quiet nulDelivered) :=
    nulDelivered_reachable.reachable fun _ _ _ => trivial
  obtain ⟨history, htraced⟩ := hrun.traced
  have hrow : nulMessage.row 1 ∈ nulDelivered.storage.rows := by decide +kernel
  rcases accepted_of_row htraced hrow with hbefore | ⟨id, save, haccepted, heq⟩
  · exact absurd hbefore (by decide)
  · obtain ⟨rfl, rfl⟩ := Save.row_injective heq
    exact ⟨history, htraced, haccepted⟩

/-- No item of the dump has the content that was saved. -/
theorem nulMessage_not_dumped :
    ∃ items, Lists nulDelivered.storage.dumpAllMessagesJson.dropLast items ∧
      (∃ item ∈ items, fieldOrEmpty item "id" = int64ToString 1) ∧
      ∀ item ∈ items, fieldOrEmpty item "id" = int64ToString 1 →
        fieldOrEmpty item "content" ≠ nulMessage.content := by
  obtain ⟨history, htraced, haccepted⟩ := nulMessage_accepted
  obtain ⟨items, hlists, hlisted, hcontents⟩ :=
    (contents_agree_iff (ChatStorage.numbered_created .counting) htraced haccepted).2.2
  exact ⟨items, hlists, hlisted, fun item hitem hid hcontent =>
    (hcontents item hitem hid).mp hcontent (by decide)⟩

/-- **The content is cut at its NUL.**  Bob's history and the dump both say `a`. -/
theorem nul_cuts_content :
    ∃ history c, Traced server (.initial .empty) history c ∧ Accepted history 1 nulMessage ∧
      (∃ sent ∈ c.shared.sent, sent.connection = 2 ∧ sent.queued = true ∧
        ∃ items, ReadsPage sent.payload.line.dropLast items ∧
          ∃ item ∈ items, fieldOrEmpty item "id" = int64ToString 1 ∧
            fieldOrEmpty item "content" = [0x61] ∧ [0x61] ≠ nulMessage.content) ∧
      ∃ items, Lists c.shared.storage.dumpAllMessagesJson.dropLast items ∧
        ∃ item ∈ items, fieldOrEmpty item "id" = int64ToString 1 ∧
          fieldOrEmpty item "content" = [0x61] ∧ [0x61] ≠ nulMessage.content := by
  obtain ⟨history, htraced, haccepted⟩ := nulMessage_accepted
  have hpage : (⟨2, .privateHistory (ascii "alice") [nulMessage.read 1], true⟩ : Sent) ∈
      nulDelivered.sent := by decide +kernel
  have hdump : (nulDelivered.storage.rowsById.map ChatStorage.messageFromStatement) =
      [nulMessage.read 1] := by decide +kernel
  have hcontent : (nulMessage.read 1).content = [0x61] ∧ [0x61] ≠ nulMessage.content := by decide
  refine ⟨history, .quiet nulDelivered, htraced, haccepted, ⟨_, hpage, rfl, rfl, _,
    (readsPage_private _ _ _).mpr rfl, _, List.mem_singleton_self _, (privateFields_spec _).1,
    (privateFields_spec _).2.trans hcontent.1, hcontent.2⟩, _, (lists_dump _ _).mpr rfl, ?_⟩
  show ∃ item ∈ (nulDelivered.storage.rowsById.map ChatStorage.messageFromStatement).map _, _
  rw [hdump]
  exact ⟨_, List.mem_singleton_self _, (dumpFields_spec _).1,
    (dumpFields_spec _).2.trans hcontent.1, hcontent.2⟩

end ChatService
