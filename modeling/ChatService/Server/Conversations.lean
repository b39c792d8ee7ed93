import ChatService.Foundation.Utf8
import ChatService.Common.Protocol
import ChatService.Server.ChatStorage

/-!
# Conversations and their pages

What `loadPrivateHistory` and `loadRoomHistory` return, in terms of the messages that were saved: the newest
messages of the conversation, at most the sanitized limit of them, oldest first.

The two conversations of a table share one column, so nothing but the conversation id keeps them apart.  It
does (`has_iff`): a valid name has no colon, so the id of a private conversation gives its two users back.
-/

namespace ChatService

/-- A successful call of `savePrivateMessage` or of `saveRoomMessage`. -/
inductive Save where
  | privateMessage (sender receiver content : Bytes) (timestamp : ℤ)
  | roomMessage (room sender content : Bytes) (timestamp : ℤ)
deriving DecidableEq

/-- The messages between two users, or those in a room. -/
inductive Conversation where
  | between (userA userB : Bytes)
  | inRoom (room : Bytes)
deriving DecidableEq

namespace Save

def timestamp : Save → ℤ
  | privateMessage _ _ _ timestamp => timestamp
  | roomMessage _ _ _ timestamp => timestamp

/-- The callers pass valid names. -/
def Valid : Save → Prop
  | privateMessage sender receiver _ _ => isValidName sender = true ∧ isValidName receiver = true
  | roomMessage room sender _ _ => isValidName room = true ∧ isValidName sender = true

instance : DecidablePred Valid
  | privateMessage _ _ _ _ => inferInstanceAs (Decidable (_ ∧ _))
  | roomMessage _ _ _ _ => inferInstanceAs (Decidable (_ ∧ _))

/-- The row that the message with this id is stored in. -/
def row (id : ℤ) : Save → Message
  | privateMessage sender receiver content timestamp =>
    { id, conversationType := ascii "private"
      conversationId := ChatStorage.privateConversationId sender receiver
      sender, receiver, roomId := [], content, createdAt := timestamp }
  | roomMessage room sender content timestamp =>
    { id, conversationType := ascii "room", conversationId := room
      sender, receiver := [], roomId := room, content, createdAt := timestamp }

/-- The message as it is read back: all that was saved, the content up to its first NUL. -/
def read (id : ℤ) (save : Save) : Message :=
  { save.row id with content := ChatStorage.columnText (save.row id).content }

def apply (storage : ChatStorage) : Save → ChatStorage
  | privateMessage sender receiver content timestamp =>
    (storage.savePrivateMessage true sender receiver content timestamp).2
  | roomMessage room sender content timestamp =>
    (storage.saveRoomMessage true room sender content timestamp).2

theorem apply_eq (storage : ChatStorage) (save : Save) :
    save.apply storage =
      ⟨storage.rows ++ [save.row storage.nextId], storage.nextId, storage.ids⟩ := by
  cases save <;> rfl

end Save

namespace Conversation

/-- The message is one of the conversation. -/
def Has : Conversation → Save → Prop
  | between a b, .privateMessage sender receiver _ _ =>
    (sender = a ∧ receiver = b) ∨ (sender = b ∧ receiver = a)
  | inRoom room, .roomMessage room' _ _ _ => room' = room
  | _, _ => False

instance (conversation : Conversation) : DecidablePred conversation.Has := fun save =>
  match conversation, save with
  | between _ _, .privateMessage _ _ _ _ => inferInstanceAs (Decidable ((_ ∧ _) ∨ (_ ∧ _)))
  | inRoom _, .roomMessage _ _ _ _ => inferInstanceAs (Decidable (_ = _))
  | between _ _, .roomMessage _ _ _ _ => inferInstanceAs (Decidable False)
  | inRoom _, .privateMessage _ _ _ _ => inferInstanceAs (Decidable False)

def Valid : Conversation → Prop
  | between a b => isValidName a = true ∧ isValidName b = true
  | inRoom room => isValidName room = true

instance : DecidablePred Valid
  | between _ _ => inferInstanceAs (Decidable (_ ∧ _))
  | inRoom _ => inferInstanceAs (Decidable (_ = _))

/-- What the columns of its messages hold. -/
def conversationType : Conversation → Bytes
  | between _ _ => ascii "private"
  | inRoom _ => ascii "room"

def conversationId : Conversation → Bytes
  | between a b => ChatStorage.privateConversationId a b
  | inRoom room => room

/-- The page that the storage loads. -/
def load (storage : ChatStorage) (limit before : ℤ) : Conversation → List Message
  | between a b => storage.loadPrivateHistory a b limit before
  | inRoom room => storage.loadRoomHistory room limit before

theorem load_eq (storage : ChatStorage) (limit before : ℤ) (conversation : Conversation) :
    conversation.load storage limit before = storage.loadHistory conversation.conversationType
      conversation.conversationId limit before := by
  cases conversation <;> rfl

end Conversation

/-! ### Names and conversation ids -/

/-- A byte that is no name byte is in no name. -/
theorem not_mem_of_isValidName {name : Bytes} (h : isValidName name = true) {ch : UInt8}
    (hch : (isalnum ch || ch == 0x5f || ch == 0x2d || ch == 0x2e) = false) : ch ∉ name := by
  intro hmem
  rw [isValidName, isIdentifier] at h
  split_ifs at h
  rw [List.all_eq_true] at h
  exact absurd (h ch hmem) (by simp [hch])

/-- Names are ASCII. -/
theorem valid_of_isValidName {name : Bytes} (h : isValidName name = true) : Utf8.Valid name := by
  apply Utf8.valid_of_ascii
  intro b hb
  by_contra hbeyond
  have hno : (isalnum b || b == 0x5f || b == 0x2d || b == 0x2e) = false :=
    forall_byte (fun b => ¬ b < 0x80 → (isalnum b || b == 0x5f || b == 0x2d || b == 0x2e) = false)
      (by decide +kernel) b hbeyond
  exact not_mem_of_isValidName h hno hb

theorem colon_not_mem {name : Bytes} (h : isValidName name = true) : Byte.colon ∉ name :=
  not_mem_of_isValidName h (by decide)

theorem zero_not_mem {name : Bytes} (h : isValidName name = true) : (0 : UInt8) ∉ name :=
  not_mem_of_isValidName h (by decide)

/-- A text without a NUL is read back as it is. -/
theorem columnText_eq_self {text : Bytes} (h : (0 : UInt8) ∉ text) :
    ChatStorage.columnText text = text := by
  rw [ChatStorage.columnText, cString, List.takeWhile_eq_self_iff]
  intro ch hch
  simp only [decide_eq_true_eq]
  rintro rfl
  exact h hch

namespace ChatStorage

variable {a b c d : Bytes}

/-- The id does not depend on the order of the users. -/
theorem privateConversationId_comm (a b : Bytes) :
    privateConversationId a b = privateConversationId b a := by
  rw [privateConversationId, privateConversationId]
  cases hab : compare a b with
  | lt =>
    have hba : compare b a = .gt := Std.OrientedCmp.gt_of_lt hab
    rw [if_pos rfl, hba, if_neg (by decide)]
  | eq =>
    obtain rfl : a = b := Std.LawfulEqCmp.eq_of_compare hab
    rw [hab]
  | gt =>
    have hba : compare b a = .lt := Std.OrientedCmp.lt_of_gt hab
    rw [if_neg (by decide), hba, if_pos rfl]

/-- It is one of the two spellings. -/
theorem privateConversationId_eq (a b : Bytes) :
    privateConversationId a b = ascii "private:" ++ (a ++ Byte.colon :: b) ∨
      privateConversationId a b = ascii "private:" ++ (b ++ Byte.colon :: a) := by
  have hcolon : ascii ":" = [Byte.colon] := by decide
  rw [privateConversationId, hcolon]
  split_ifs
  · exact .inl (by simp)
  · exact .inr (by simp)

/-- **A conversation id gives its two users back.** -/
theorem privateConversationId_eq_iff (ha : isValidName a = true) (hb : isValidName b = true)
    (hc : isValidName c = true) (hd : isValidName d = true) :
    privateConversationId a b = privateConversationId c d ↔ (a = c ∧ b = d) ∨ (a = d ∧ b = c) := by
  constructor
  · intro h
    -- the first colon behind the prefix ends the first name
    have split : ∀ {x y z w : Bytes}, isValidName x = true → isValidName y = true →
        isValidName z = true → isValidName w = true →
        ascii "private:" ++ (x ++ Byte.colon :: y) = ascii "private:" ++ (z ++ Byte.colon :: w) →
        x = z ∧ y = w := by
      intro x y z w hx hy hz hw heq
      obtain ⟨hxz, -, hyw⟩ := (List.append_cons_inj_of_notMem (colon_not_mem hx)
        (colon_not_mem hy)).mp (List.append_cancel_left heq)
      exact ⟨hxz, hyw⟩
    rcases privateConversationId_eq a b with hab | hab <;>
      rcases privateConversationId_eq c d with hcd | hcd <;> rw [hab, hcd] at h
    · exact .inl (split ha hb hc hd h)
    · exact .inr (split ha hb hd hc h)
    · exact .inr (split hb ha hc hd h).symm
    · exact .inl (split hb ha hd hc h).symm
  · rintro (⟨rfl, rfl⟩ | ⟨rfl, rfl⟩)
    · rfl
    · exact privateConversationId_comm a b

theorem zero_not_mem_privateConversationId (ha : isValidName a = true) (hb : isValidName b = true) :
    (0 : UInt8) ∉ privateConversationId a b := by
  have hlabel : (0 : UInt8) ∉ ascii "private:" := by decide
  have hne : (0 : UInt8) ≠ Byte.colon := by decide
  rcases privateConversationId_eq a b with h | h
  · rw [h]
    simp [hlabel, zero_not_mem ha, zero_not_mem hb, hne]
  · rw [h]
    simp [hlabel, zero_not_mem ha, zero_not_mem hb, hne]

end ChatStorage

/-- **Type and id of the conversation select exactly its messages.** -/
theorem Conversation.has_iff {conversation : Conversation} (hconversation : conversation.Valid)
    {save : Save} (hsave : save.Valid) (id : ℤ) :
    ((save.row id).conversationType = conversation.conversationType ∧
      (save.row id).conversationId = conversation.conversationId) ↔ conversation.Has save := by
  have hkinds : ascii "private" ≠ ascii "room" := by decide
  cases conversation with
  | between a b =>
    cases save with
    | privateMessage sender receiver content timestamp =>
      exact (and_iff_right rfl).trans (ChatStorage.privateConversationId_eq_iff hsave.1 hsave.2
        hconversation.1 hconversation.2)
    | roomMessage room sender content timestamp =>
      exact iff_of_false (fun h => hkinds h.1.symm) False.elim
  | inRoom room =>
    cases save with
    | privateMessage sender receiver content timestamp =>
      exact iff_of_false (fun h => hkinds h.1) False.elim
    | roomMessage room' sender content timestamp => exact and_iff_right rfl

/-- All columns but the content are read back as they were saved. -/
theorem Save.messageFromStatement_row {save : Save} (hsave : save.Valid) (id : ℤ) :
    ChatStorage.messageFromStatement (save.row id) = save.read id := by
  have hkinds : ChatStorage.columnText (ascii "private") = ascii "private" ∧
      ChatStorage.columnText (ascii "room") = ascii "room" ∧ ChatStorage.columnText [] = [] := by
    decide
  cases save with
  | privateMessage sender receiver content timestamp =>
    have hid := columnText_eq_self
      (ChatStorage.zero_not_mem_privateConversationId hsave.1 hsave.2)
    have hsender := columnText_eq_self (zero_not_mem hsave.1)
    have hreceiver := columnText_eq_self (zero_not_mem hsave.2)
    simp only [ChatStorage.messageFromStatement, Save.row, Save.read, hkinds, hid, hsender,
      hreceiver]
  | roomMessage room sender content timestamp =>
    have hroom := columnText_eq_self (zero_not_mem hsave.1)
    have hsender := columnText_eq_self (zero_not_mem hsave.2)
    simp only [ChatStorage.messageFromStatement, Save.row, Save.read, hkinds, hroom, hsender]

/-! ### What is saved -/

/-- The saves with their ids. -/
def numbered (ids : RowIds) (saves : List Save) : List (ℤ × Save) :=
  saves.zipIdx.map fun entry => (ids.nth (entry.2 + 1), entry.1)

theorem numbered_concat (ids : RowIds) (saves : List Save) (save : Save) :
    numbered ids (saves ++ [save]) = numbered ids saves ++ [(ids.nth (saves.length + 1), save)] := by
  simp [numbered, List.zipIdx_append]

theorem mem_of_mem_numbered {ids : RowIds} {saves : List Save} {p : ℤ × Save}
    (h : p ∈ numbered ids saves) : p.2 ∈ saves := by
  obtain ⟨entry, hentry, rfl⟩ := List.mem_map.mp h
  exact List.fst_mem_of_mem_zipIdx hentry

/-- Ids grow, so no two saves have the same. -/
theorem pairwise_numbered (ids : RowIds) (saves : List Save) :
    (numbered ids saves).Pairwise fun p q => p.1 < q.1 := by
  induction saves using List.reverseRecOn with
  | nil => exact .nil
  | append_singleton saves save ih =>
    rw [numbered_concat]
    refine List.pairwise_append.mpr ⟨ih, List.pairwise_singleton .., fun p hp q hq => ?_⟩
    obtain ⟨entry, hentry, rfl⟩ := List.mem_map.mp hp
    have hlt := List.snd_lt_of_mem_zipIdx hentry
    rw [List.mem_singleton.mp hq]
    exact ids.nth_lt_nth (Nat.succ_lt_succ hlt)

/-- What a sequence of successful saves leaves behind. -/
def ChatStorage.saveAll (storage : ChatStorage) (saves : List Save) : ChatStorage :=
  saves.foldl (fun storage save => save.apply storage) storage

theorem saveAll_created (ids : RowIds) (saves : List Save) :
    (ChatStorage.created ids).saveAll saves =
      ⟨(numbered ids saves).map fun p => p.2.row p.1, ids.nth saves.length, ids⟩ := by
  induction saves using List.reverseRecOn with
  | nil => rfl
  | append_singleton saves save ih =>
    have hlast : (ChatStorage.created ids).saveAll (saves ++ [save]) =
        save.apply ((ChatStorage.created ids).saveAll saves) := by
      rw [ChatStorage.saveAll, List.foldl_append]
      rfl
    rw [hlast, ih, Save.apply_eq, numbered_concat, List.map_append, List.length_append, ChatStorage.nextId,
      List.length_singleton, RowIds.nth_succ]
    rfl

/-! ### Pages -/

/-- The messages of the conversation with their ids; a positive `before` keeps the older ones. -/
def Conversation.saved (conversation : Conversation) (ids : RowIds) (saves : List Save) (before : ℤ) :
    List (ℤ × Save) :=
  (numbered ids saves).filter fun p => conversation.Has p.2 ∧ (before ≤ 0 ∨ p.2.timestamp < before)

/-- In the order of time, and of the ids within a second. -/
def Older (p q : ℤ × Save) : Prop :=
  p.2.timestamp < q.2.timestamp ∨ (p.2.timestamp = q.2.timestamp ∧ p.1 < q.1)

theorem Save.createdAt_row (id : ℤ) (save : Save) : (save.row id).createdAt = save.timestamp := by
  cases save <;> rfl

theorem Save.id_row (id : ℤ) (save : Save) : (save.row id).id = id := by
  cases save <;> rfl

instance : Std.Total ChatStorage.newerFirst where
  total x y := by
    simp only [ChatStorage.newerFirst]
    omega

instance : IsTrans Message ChatStorage.newerFirst where
  trans x y z hxy hyz := by
    simp only [ChatStorage.newerFirst] at hxy hyz ⊢
    omega

/-- The rows that the query selects are those of the conversation. -/
theorem filter_rows {ids : RowIds} {saves : List Save} (hsaves : ∀ save ∈ saves, save.Valid)
    {conversation : Conversation} (hconversation : conversation.Valid) (before : ℤ) :
    ((ChatStorage.created ids).saveAll saves).rows.filter (fun row =>
      row.conversationType = conversation.conversationType ∧
        row.conversationId = conversation.conversationId ∧
        (before ≤ 0 ∨ row.createdAt < before)) =
      (conversation.saved ids saves before).map fun p => p.2.row p.1 := by
  rw [saveAll_created, Conversation.saved, List.filter_map]
  congr 1
  refine List.filter_congr fun p hp => ?_
  have hhas := Conversation.has_iff hconversation (hsaves p.2 (mem_of_mem_numbered hp)) p.1
  simp only [Function.comp, Save.createdAt_row, ← and_assoc, hhas]

/-- `newerFirst`, on saves with their ids. -/
def newer (p q : ℤ × Save) : Prop := ChatStorage.newerFirst (p.2.row p.1) (q.2.row q.1)

instance : DecidableRel newer := fun p q =>
  inferInstanceAs (Decidable (ChatStorage.newerFirst (p.2.row p.1) (q.2.row q.1)))

instance : Std.Total newer where
  total p q := Std.Total.total (r := ChatStorage.newerFirst) (p.2.row p.1) (q.2.row q.1)

instance : IsTrans (ℤ × Save) newer where
  trans p q r hpq hqr :=
    IsTrans.trans (r := ChatStorage.newerFirst) (p.2.row p.1) (q.2.row q.1) (r.2.row r.1) hpq hqr

theorem newer_iff (p q : ℤ × Save) :
    newer p q ↔ q.2.timestamp < p.2.timestamp ∨ (p.2.timestamp = q.2.timestamp ∧ q.1 ≤ p.1) := by
  simp only [newer, ChatStorage.newerFirst, Save.createdAt_row, Save.id_row]

/-- Sorted and reversed, a conversation is in the order of time and id. -/
theorem pairwise_older (selected : List (ℤ × Save)) (hids : selected.Pairwise fun p q => p.1 < q.1) :
    (selected.insertionSort newer).reverse.Pairwise Older := by
  have hne : (selected.insertionSort newer).Pairwise fun p q => p.1 ≠ q.1 := by
    refine (List.Perm.pairwise_iff (fun hpq => Ne.symm hpq) (selected.perm_insertionSort newer)).mpr ?_
    exact hids.imp fun hlt => ne_of_lt hlt
  have hsorted := List.pairwise_insertionSort newer selected
  rw [List.pairwise_reverse]
  refine (hsorted.and hne).imp ?_
  rintro p q ⟨hnewer, hid⟩
  rw [newer_iff] at hnewer
  rw [Older]
  omega

/-- **A page is the newest part of the conversation.**  The storage returns the last messages of the
selected ones, in the order of time and id. -/
theorem load_eq_page {ids : RowIds} {saves : List Save} (hsaves : ∀ save ∈ saves, save.Valid)
    {conversation : Conversation} (hconversation : conversation.Valid) (limit before : ℤ) :
    ∃ sorted : List (ℤ × Save), sorted.Perm (conversation.saved ids saves before) ∧
      sorted.Pairwise Older ∧
      conversation.load ((ChatStorage.created ids).saveAll saves) limit before =
        (sorted.drop (sorted.length - (ChatStorage.sanitizeLimit limit).toNat)).map
          fun p => p.2.read p.1 := by
  have hids : (conversation.saved ids saves before).Pairwise fun p q => p.1 < q.1 :=
    (pairwise_numbered ids saves).sublist List.filter_sublist
  refine ⟨((conversation.saved ids saves before).insertionSort newer).reverse,
    (List.reverse_perm _).trans (List.perm_insertionSort newer _), pairwise_older _ hids, ?_⟩
  rw [Conversation.load_eq, ChatStorage.loadHistory, filter_rows hsaves hconversation,
    ← List.map_insertionSort newer ChatStorage.newerFirst _ _ fun p _ q _ => Iff.rfl, ← List.map_take,
    List.map_map, ← List.map_reverse, List.reverse_take]
  have hread : ∀ p ∈ conversation.saved ids saves before,
      ChatStorage.messageFromStatement (p.2.row p.1) = p.2.read p.1 := by
    intro p hp
    have hp' := List.mem_of_mem_filter hp
    exact Save.messageFromStatement_row (hsaves p.2 (mem_of_mem_numbered hp')) p.1
  rw [List.length_reverse]
  refine List.map_congr_left fun p hp => hread p ?_
  have hp' := List.mem_reverse.mp (List.mem_of_mem_drop hp)
  exact (List.mem_insertionSort newer).mp hp'

/-- Whatever is loaded is a message of the conversation. -/
theorem mem_load {ids : RowIds} {saves : List Save} (hsaves : ∀ save ∈ saves, save.Valid)
    {conversation : Conversation} (hconversation : conversation.Valid) {limit before : ℤ}
    {message : Message}
    (h : message ∈ conversation.load ((ChatStorage.created ids).saveAll saves) limit before) :
    ∃ p ∈ numbered ids saves, conversation.Has p.2 ∧ message = p.2.read p.1 := by
  obtain ⟨sorted, hperm, -, hload⟩ := load_eq_page hsaves hconversation limit before
  rw [hload] at h
  obtain ⟨p, hp, rfl⟩ := List.mem_map.mp h
  have hsaved := hperm.mem_iff.mp (List.mem_of_mem_drop hp)
  obtain ⟨hnumbered, hselected⟩ := List.mem_filter.mp hsaved
  exact ⟨p, hnumbered, (of_decide_eq_true hselected).1, rfl⟩

/-- **Histories are the newest pages of their conversations, and of no other.**  After any sequence of
successful saves under valid names, whatever increasing ids they get, `loadPrivateHistory` returns the last
messages between the two users in the order of time and id, at most the sanitized limit of them, whichever
user is named first, and no message of a room or of another pair; `loadRoomHistory` does the same for its
room. -/
theorem histories_are_pages (ids : RowIds) (saves : List Save) (hsaves : ∀ save ∈ saves, save.Valid)
    {a b room : Bytes} (ha : isValidName a = true) (hb : isValidName b = true)
    (hroom : isValidName room = true) (limit before : ℤ) :
    let storage := (ChatStorage.created ids).saveAll saves
    let n := (ChatStorage.sanitizeLimit limit).toNat
    ((∃ sorted : List (ℤ × Save), sorted.Perm ((Conversation.between a b).saved ids saves before) ∧
        sorted.Pairwise Older ∧ storage.loadPrivateHistory a b limit before =
          (sorted.drop (sorted.length - n)).map fun p => p.2.read p.1) ∧
      storage.loadPrivateHistory a b limit before = storage.loadPrivateHistory b a limit before ∧
      ∀ message ∈ storage.loadPrivateHistory a b limit before,
        message.conversationType = ascii "private" ∧
          ((message.sender = a ∧ message.receiver = b) ∨
            (message.sender = b ∧ message.receiver = a))) ∧
    (∃ sorted : List (ℤ × Save), sorted.Perm ((Conversation.inRoom room).saved ids saves before) ∧
        sorted.Pairwise Older ∧ storage.loadRoomHistory room limit before =
          (sorted.drop (sorted.length - n)).map fun p => p.2.read p.1) ∧
      ∀ message ∈ storage.loadRoomHistory room limit before,
        message.conversationType = ascii "room" ∧ message.roomId = room := by
  intro storage n
  have hab : (Conversation.between a b).Valid := ⟨ha, hb⟩
  have hin : (Conversation.inRoom room).Valid := hroom
  refine ⟨⟨load_eq_page hsaves hab limit before, ?_, fun message hmessage => ?_⟩,
    load_eq_page hsaves hin limit before, fun message hmessage => ?_⟩
  · rw [ChatStorage.loadPrivateHistory, ChatStorage.loadPrivateHistory,
      ChatStorage.privateConversationId_comm]
  · obtain ⟨⟨id, save⟩, -, hhas, rfl⟩ := mem_load hsaves hab hmessage
    cases save with
    | privateMessage sender receiver content timestamp => exact ⟨rfl, hhas⟩
    | roomMessage room' sender content timestamp => exact hhas.elim
  · obtain ⟨⟨id, save⟩, -, hhas, rfl⟩ := mem_load hsaves hin hmessage
    cases save with
    | privateMessage sender receiver content timestamp => exact hhas.elim
    | roomMessage room' sender content timestamp => exact ⟨rfl, hhas⟩

/-- Two users and a room. -/
def threeSaves : List Save :=
  [.privateMessage (ascii "alice") (ascii "bob") (ascii "hello") 10,
    .roomMessage (ascii "lobby") (ascii "alice") (ascii "anyone?") 11,
    .privateMessage (ascii "bob") (ascii "alice") (ascii "hi") 12]

theorem threeSaves_symmetric :
    (ChatStorage.empty.saveAll threeSaves).loadPrivateHistory (ascii "alice") (ascii "bob") 50 0 =
      (ChatStorage.empty.saveAll threeSaves).loadPrivateHistory (ascii "bob") (ascii "alice") 50 0 :=
  (histories_are_pages .counting threeSaves (by decide) (by decide) (by decide)
    (show isValidName (ascii "lobby") = true by decide) 50 0).1.2.1

end ChatService
