import ChatService.Client.ChatState
import ChatService.Foundation.SortedLog
import Mathlib.Data.Char
import Mathlib.Data.Prod.Lex
import Mathlib.Algebra.Order.Ring.Rat

/-!
# A history page in the web client

The server's page lists messages by time and id.  The web client sorts what it has merged by time and then by
key, and a key is `db:` and the decimal text of the id: of one second, message 10 is put in front of message 9.

* `page_in_order_iff` — a page that is merged into an empty conversation is listed as it is exactly if, of any
  two of its messages, the earlier has the smaller time, or the same time and the smaller text as its id.  In a page
  that ascends by time and id these are the pages in which the texts of the ids of one second ascend.
-/

namespace ChatService

namespace Web

open Gateway (JsString)

/-- A message of a history page. -/
structure HistoryItem where
  id : ℤ
  sender : JsString
  receiver : JsString
  room : JsString
  content : JsString
  createdAt : ℤ
deriving DecidableEq

/-- The item of the array `messages`, after `JSON.parse`. -/
def HistoryItem.object (type : ConversationType) (m : HistoryItem) : JsObject :=
  let place : JsString × JsValue := match type with
    | .PRIVATE => ("receiver".toList, .string m.receiver)
    | .ROOM => ("room".toList, .string m.room)
  [("id".toList, .number (Doubles.round m.id)), ("sender".toList, .string m.sender), place,
    ("content".toList, .string m.content), ("created_at".toList, .number (Doubles.round m.createdAt))]

/-- A message of the page as a conversation of the user lists it. -/
def HistoryItem.shown (username : JsString) (m : HistoryItem) : Stored where
  id := .number (Doubles.round m.id)
  sender := if m.sender = username then "Me".toList else m.sender
  content := m.content
  createdAt := .number (Doubles.round m.createdAt)
  kind := if m.sender = username then .MINE else .OTHER
  dedupeKey := "db:".toList ++ Doubles.shortestText (Doubles.round m.id)

/-- A history response; `name` is the peer or the room. -/
def pageMessage (type : ConversationType) (name : JsString) (page : List HistoryItem) : JsObject :=
  match type with
  | .PRIVATE =>
    [("type".toList, .string "history_private_result".toList), ("peer".toList, .string name),
      ("messages".toList, .array (page.map (HistoryItem.object type)))]
  | .ROOM =>
    [("type".toList, .string "history_room_result".toList), ("room".toList, .string name),
      ("messages".toList, .array (page.map (HistoryItem.object type)))]

/-! ### The order of messages -/

/-- The time is a number. -/
def Stored.Numeric (x : Stored) : Prop := ∃ time, x.createdAt = .number time

/-- Time and key. -/
def rank (x : Stored) : ℚ ×ₗ JsString := toLex ((x.createdAt.toNumber).getD 0, x.dedupeKey)

theorem isAfter_eq_false_iff {x y : Stored} (hx : x.Numeric) (hy : y.Numeric) :
    isAfter x y = false ↔ rank x ≤ rank y := by
  obtain ⟨s, hs⟩ := hx
  obtain ⟨t, ht⟩ := hy
  have hrank : rank x ≤ rank y ↔ s < t ∨ s = t ∧ x.dedupeKey ≤ y.dedupeKey := by
    rw [rank, rank, Prod.Lex.toLex_le_toLex, hs, ht]
    exact Iff.rfl
  have hafter : isAfter x y = if s ≠ t then decide (s > t) else decide (y.dedupeKey < x.dedupeKey) := by
    rw [isAfter, hs, ht]
    rfl
  rw [hrank, hafter]
  by_cases heq : s = t
  · simp [heq]
  · simp only [ne_eq, heq, not_false_eq_true, if_true, decide_eq_false_iff_not, not_lt, false_and, or_false]
    exact ⟨fun hle => lt_of_le_of_ne hle heq, le_of_lt⟩

theorem key_eq_of_rank (x y : Stored) (h : rank x = rank y) : x.dedupeKey = y.dedupeKey :=
  congrArg (fun p => (ofLex p).2) h

abbrev IsLog (messages : List Stored) : Prop := SortedLog.IsLog Stored.dedupeKey rank messages

/-- Sorting messages whose times are numbers is sorting by rank. -/
theorem insertionSort_isAfter {messages : List Stored} (h : ∀ x ∈ messages, x.Numeric) :
    (messages.insertionSort fun x y => isAfter x y = false) = messages.insertionSort fun x y => rank x ≤ rank y := by
  have hmap := List.map_insertionSort (r := fun x y => isAfter x y = false) (s := fun x y => rank x ≤ rank y) id
    messages fun x hx y hy => isAfter_eq_false_iff (h x hx) (h y hy)
  rwa [List.map_id, List.map_id] at hmap

/-! ### Merging a page -/

/-- How a message of the page is stored, and what has been used up for it. -/
def storedItem (clock : ℕ → ℤ) (type : ConversationType) (s : ChatState) (m : HistoryItem) : Stored × ChatState :=
  let stamped := s.stampOf clock (.number (Doubles.round m.createdAt))
  let keyed := stamped.2.keyOf (.number (Doubles.round m.id))
  ({ s.historyMessage (m.object type) with createdAt := stamped.1, dedupeKey := keyed.1 }, keyed.2)

/-- The messages of the page as they are stored, in the order of the page. -/
def listed (clock : ℕ → ℤ) (type : ConversationType) (s : ChatState) : List HistoryItem → List Stored
  | [] => []
  | m :: page => (storedItem clock type s m).1 :: listed clock type (storedItem clock type s m).2 page

section

variable {clock : ℕ → ℤ} {type : ConversationType} {name key : JsString} {s s' : ChatState} {m : HistoryItem}
  {page : List HistoryItem} {stored : Stored} {markUnread : Bool}

/-- The messages of a conversation. -/
def ChatState.messages (s : ChatState) (key : JsString) : List Stored := (s.conversations key).messages

/-- What counts as known is what is there, and all times are numbers. -/
structure Sound (conversation : Conversation) : Prop where
  known : ∀ key, key ∈ conversation.messageKeys ↔ key ∈ conversation.messages.map Stored.dedupeKey
  numeric : ∀ x ∈ conversation.messages, x.Numeric

/-- The same user, and the same readings and numbers used up. -/
structure Alike (s s' : ChatState) : Prop where
  username : s.username = s'.username
  readings : s.readings = s'.readings
  sequence : s.localMessageSequence = s'.localMessageSequence

theorem Alike.symm (h : Alike s s') : Alike s' s := ⟨h.username.symm, h.readings.symm, h.sequence.symm⟩

variable (clock type) in
theorem Alike.storedItem (h : Alike s s') (m : HistoryItem) :
    (storedItem clock type s m).1 = (storedItem clock type s' m).1 ∧
      Alike (storedItem clock type s m).2 (storedItem clock type s' m).2 := by
  have hmessage : s.historyMessage (m.object type) = s'.historyMessage (m.object type) := by
    rw [ChatState.historyMessage, ChatState.historyMessage, h.username]
  have hstamp : ∀ value, (s.stampOf clock value).1 = (s'.stampOf clock value).1 ∧
      Alike (s.stampOf clock value).2 (s'.stampOf clock value).2 := by
    intro value
    rw [ChatState.stampOf, ChatState.stampOf]
    split_ifs
    · exact ⟨rfl, h⟩
    · exact ⟨by rw [h.readings], h.username, congrArg (· + 1) h.readings, h.sequence⟩
  have hkey : ∀ {t t' : ChatState} (value : JsValue), Alike t t' → (t.keyOf value).1 = (t'.keyOf value).1 ∧
      Alike (t.keyOf value).2 (t'.keyOf value).2 := by
    intro t t' value halike
    rw [ChatState.keyOf, ChatState.keyOf]
    split_ifs
    · exact ⟨rfl, halike⟩
    · exact ⟨by rw [halike.sequence], halike.username, halike.readings, congrArg (· + 1) halike.sequence⟩
  obtain ⟨htime, halike⟩ := hstamp (.number (Doubles.round m.createdAt))
  obtain ⟨hkey, hnext⟩ := hkey (.number (Doubles.round m.id)) halike
  refine ⟨?_, hnext⟩
  rw [Web.storedItem, Web.storedItem, hmessage, htime, hkey]

theorem Alike.listed (h : Alike s s') (page : List HistoryItem) :
    listed clock type s page = listed clock type s' page := by
  induction page generalizing s s' with
  | nil => rfl
  | cons m page ih =>
    obtain ⟨hstored, hnext⟩ := h.storedItem clock type m
    rw [Web.listed, Web.listed, hstored, ih hnext]

theorem storedItem_numeric : (storedItem clock type s m).1.Numeric := by
  show ∃ time, (s.stampOf clock (.number (Doubles.round m.createdAt))).1 = .number time
  rw [ChatState.stampOf]
  split_ifs
  · exact ⟨_, rfl⟩
  · exact ⟨_, rfl⟩

/-- Stamps and keys leave the conversations alone. -/
theorem storedItem_conversations : (storedItem clock type s m).2.conversations = s.conversations := by
  show ((s.stampOf clock _).2.keyOf _).2.conversations = _
  rw [ChatState.keyOf, ChatState.stampOf]
  split_ifs <;> rfl

theorem storeMessage_alike : Alike (s.storeMessage type name stored markUnread) s := by
  rw [ChatState.storeMessage]
  split_ifs <;> exact ⟨rfl, rfl, rfl⟩

theorem storeMessage_messages (h : Sound (s.conversations (conversationKey type name))) (hstored : stored.Numeric)
    (markUnread : Bool) :
    (s.storeMessage type name stored markUnread).messages (conversationKey type name) =
      SortedLog.add Stored.dedupeKey rank (s.messages (conversationKey type name)) stored := by
  by_cases hknown : stored.dedupeKey ∈ (s.conversations (conversationKey type name)).messageKeys
  · rw [ChatState.storeMessage, if_pos hknown, SortedLog.add]
    exact (if_pos ((h.known _).mp hknown)).symm
  · have hnumeric : ∀ x ∈ s.messages (conversationKey type name) ++ [stored], x.Numeric :=
      List.forall_mem_append.mpr ⟨h.numeric, List.forall_mem_singleton.mpr hstored⟩
    have hpush : (s.storeMessage type name stored markUnread).messages (conversationKey type name) =
        (s.messages (conversationKey type name) ++ [stored]).insertionSort fun x y => isAfter x y = false := by
      rw [ChatState.storeMessage, if_neg hknown, ChatState.messages, ChatState.setConversation]
      simp only [Function.update_self]
      rfl
    rw [hpush, insertionSort_isAfter hnumeric, SortedLog.add]
    exact (if_neg fun hmem => hknown ((h.known _).mpr hmem)).symm

theorem storeMessage_sound (h : Sound (s.conversations (conversationKey type name))) (hstored : stored.Numeric)
    (markUnread : Bool) :
    Sound ((s.storeMessage type name stored markUnread).conversations (conversationKey type name)) := by
  have hmessages := storeMessage_messages h hstored markUnread
  constructor
  · intro key
    have hkeys : key ∈ ((s.storeMessage type name stored markUnread).conversations
        (conversationKey type name)).messageKeys ↔
          key ∈ (s.conversations (conversationKey type name)).messageKeys ∨ key = stored.dedupeKey := by
      rw [ChatState.storeMessage]
      split_ifs with hknown
      · exact ⟨.inl, fun hkey => hkey.elim id fun heq => heq ▸ hknown⟩
      · rw [ChatState.setConversation]
        simp only [Function.update_self]
        exact List.mem_cons.trans or_comm
    have hadd : key ∈ ((s.storeMessage type name stored markUnread).messages (conversationKey type name)).map
        Stored.dedupeKey ↔ _ := hmessages ▸ SortedLog.mem_keys_add
    exact (hkeys.trans (or_congr (h.known key) Iff.rfl)).trans hadd.symm
  · intro x hx
    have hadd : x ∈ (s.storeMessage type name stored markUnread).messages (conversationKey type name) := hx
    rw [hmessages] at hadd
    rcases SortedLog.mem_add.mp hadd with hx | ⟨rfl, -⟩
    · exact h.numeric x hx
    · exact hstored

/-- One item is merged. -/
theorem mergeItem_eq (hsender : m.sender ≠ []) (hcontent : m.content ≠ []) :
    s.mergeItem clock type name (m.object type) =
      (storedItem clock type s m).2.storeMessage type name (storedItem clock type s m).1 false := by
  have hnamed : ¬ (textOf (m.object type) "sender" = [] ∨ textOf (m.object type) "content" = []) := by
    have htexts : textOf (m.object type) "sender" = m.sender ∧ textOf (m.object type) "content" = m.content := by
      cases type <;> exact ⟨rfl, rfl⟩
    rw [htexts.1, htexts.2]
    rintro (h | h)
    · exact hsender h
    · exact hcontent h
  rw [ChatState.mergeItem, if_neg hnamed]
  cases type <;> rfl

variable (clock) in
/-- **A page is collected.** -/
theorem merge_page (h : Sound (s.conversations (conversationKey type name)))
    (hpage : ∀ m ∈ page, m.sender ≠ [] ∧ m.content ≠ []) :
    ((page.map (HistoryItem.object type)).foldl (fun s item => s.mergeItem clock type name item) s).messages
        (conversationKey type name) =
      SortedLog.collect Stored.dedupeKey rank (s.messages (conversationKey type name)) (listed clock type s page) := by
  induction page generalizing s with
  | nil => rfl
  | cons m page ih =>
    obtain ⟨hm, hpage⟩ := List.forall_mem_cons.mp hpage
    have hsound : Sound ((storedItem clock type s m).2.conversations (conversationKey type name)) := by
      rwa [storedItem_conversations]
    have hmessages : (storedItem clock type s m).2.messages (conversationKey type name) =
        s.messages (conversationKey type name) := by
      rw [ChatState.messages, storedItem_conversations]
      rfl
    have hnumeric : (storedItem clock type s m).1.Numeric := storedItem_numeric
    have hnext := ih (storeMessage_sound hsound hnumeric false) hpage
    rw [storeMessage_messages hsound hnumeric false, hmessages, storeMessage_alike.listed page] at hnext
    rw [List.map_cons, List.foldl_cons, mergeItem_eq hm.1 hm.2]
    exact hnext

variable (clock s type page) in
/-- What a history response is handled as. -/
theorem handleServerMessage_page (hname : name ≠ []) :
    ∃ rooms, s.handleServerMessage clock (pageMessage type name page) =
      (page.map (HistoryItem.object type)).foldl (fun s item => s.mergeItem clock type name item)
        { s with rooms := rooms } := by
  cases type with
  | PRIVATE =>
    refine ⟨s.rooms, ?_⟩
    show s.handlePrivateHistory clock (pageMessage .PRIVATE name page) = _
    show (if name = [] then _ else _) = _
    rw [if_neg hname]
    rfl
  | ROOM =>
    refine ⟨addToSet s.rooms name, ?_⟩
    show s.handleRoomHistory clock (pageMessage .ROOM name page) = _
    show (if name = [] then _ else _) = _
    rw [if_neg hname]
    rfl

/-- An id and a time that are not zero are kept. -/
theorem storedItem_eq (hid : m.id ≠ 0) (htime : m.createdAt ≠ 0) :
    storedItem clock type s m = (m.shown s.username, s) := by
  have htruthy : ∀ {n : ℤ}, n ≠ 0 → (JsValue.number (Doubles.round n)).truthy = true := by
    intro n hn
    simp [JsValue.truthy, Doubles.round_ne_zero hn]
  have hstamp : s.stampOf clock (.number (Doubles.round m.createdAt)) = (.number (Doubles.round m.createdAt), s) := by
    rw [ChatState.stampOf, if_pos (htruthy htime)]
  have htext : (JsValue.number (Doubles.round m.id)).toText = Doubles.shortestText (Doubles.round m.id) := by
    show Doubles.shortestText ((Doubles.round m.id : ℤ) : ℚ).num = _
    rw [Rat.num_intCast]
  have hkey : s.keyOf (.number (Doubles.round m.id)) =
      ("db:".toList ++ Doubles.shortestText (Doubles.round m.id), s) := by
    rw [ChatState.keyOf, if_pos (htruthy hid), dbKey, htext]
  rw [storedItem, hstamp, hkey]
  cases type <;> rfl

theorem listed_eq (h : ∀ m ∈ page, m.id ≠ 0 ∧ m.createdAt ≠ 0) :
    listed clock type s page = page.map (HistoryItem.shown s.username) := by
  induction page with
  | nil => rfl
  | cons m page ih =>
    obtain ⟨hm, hpage⟩ := List.forall_mem_cons.mp h
    rw [listed, storedItem_eq hm.1 hm.2, ih hpage, List.map_cons]

end

/-- **A page keeps its order** in an empty conversation exactly if it is a log: keys differ, and ranks ascend. -/
theorem messages_eq_listed_iff (clock : ℕ → ℤ) (s : ChatState) (type : ConversationType) {name : JsString}
    {page : List HistoryItem} (hname : name ≠ [])
    (hempty : (s.conversations (conversationKey type name)).messages = [] ∧
      (s.conversations (conversationKey type name)).messageKeys = [])
    (hpage : ∀ m ∈ page, m.sender ≠ [] ∧ m.content ≠ []) :
    (s.handleServerMessage clock (pageMessage type name page)).messages (conversationKey type name) =
        listed clock type s page ↔
      (listed clock type s page).Pairwise fun x y => x.dedupeKey ≠ y.dedupeKey ∧ rank x < rank y := by
  obtain ⟨rooms, hhandle⟩ := handleServerMessage_page clock type s page hname
  have hsound : Sound (({ s with rooms := rooms } : ChatState).conversations (conversationKey type name)) := by
    refine ⟨fun key => ?_, fun x hx => ?_⟩
    · rw [hempty.1, hempty.2]
      exact Iff.rfl
    · rw [hempty.1] at hx
      exact absurd hx List.not_mem_nil
  have halike : Alike { s with rooms := rooms } s := ⟨rfl, rfl, rfl⟩
  have hmerge := merge_page clock hsound hpage
  have hstart : ({ s with rooms := rooms } : ChatState).messages (conversationKey type name) = [] := hempty.1
  rw [halike.listed page, hstart] at hmerge
  rw [hhandle, hmerge, SortedLog.collect_eq_self_iff key_eq_of_rank]
  constructor
  · intro hlog
    exact (List.pairwise_map.mp hlog.nodup).and (hlog.strict key_eq_of_rank)
  · intro h
    exact ⟨h.imp fun h => h.2.le, List.pairwise_map.mpr (h.imp And.left)⟩

/-- The first of two messages of a page stays in front of the second: another id, and a smaller time, or the same time
and a smaller text as its id.  Times and ids are doubles. -/
def HistoryItem.Precedes (x y : HistoryItem) : Prop :=
  Doubles.shortestText (Doubles.round x.id) ≠ Doubles.shortestText (Doubles.round y.id) ∧
    (Doubles.round x.createdAt < Doubles.round y.createdAt ∨
      Doubles.round x.createdAt = Doubles.round y.createdAt ∧
        Doubles.shortestText (Doubles.round x.id) < Doubles.shortestText (Doubles.round y.id))

instance (x y : HistoryItem) : Decidable (x.Precedes y) := inferInstanceAs (Decidable (_ ∧ _))

theorem precedes_iff (username : JsString) (x y : HistoryItem) :
    (x.shown username).dedupeKey ≠ (y.shown username).dedupeKey ∧ rank (x.shown username) < rank (y.shown username) ↔
      x.Precedes y := by
  have hkeys : ("db:".toList ++ Doubles.shortestText (Doubles.round x.id) <
      "db:".toList ++ Doubles.shortestText (Doubles.round y.id)) ↔
        Doubles.shortestText (Doubles.round x.id) < Doubles.shortestText (Doubles.round y.id) := by
    simp
  have htimes : rank (x.shown username) < rank (y.shown username) ↔
      Doubles.round x.createdAt < Doubles.round y.createdAt ∨
        Doubles.round x.createdAt = Doubles.round y.createdAt ∧
          Doubles.shortestText (Doubles.round x.id) < Doubles.shortestText (Doubles.round y.id) := by
    rw [rank, rank, Prod.Lex.toLex_lt_toLex, ← hkeys]
    exact or_congr Rat.intCast_lt_intCast (and_congr_left' Rat.intCast_inj)
  rw [htimes]
  exact and_congr_left' (not_congr (List.append_right_inj _))

/-- Numbers below `2 ^ 53`, as the server sends them. -/
def HistoryItem.Exact (m : HistoryItem) : Prop := 0 < m.id ∧ m.id < 2 ^ 53 ∧ 0 < m.createdAt ∧ m.createdAt < 2 ^ 53

/-- The order of the server's pages. -/
def HistoryItem.Before (x y : HistoryItem) : Prop := x.createdAt < y.createdAt ∨ x.createdAt = y.createdAt ∧ x.id < y.id

instance (m : HistoryItem) : Decidable m.Exact := inferInstanceAs (Decidable (_ ∧ _))

instance (x y : HistoryItem) : Decidable (x.Before y) := inferInstanceAs (Decidable (_ ∨ _))

/-- Of numbers below `2 ^ 53` nothing is lost: times are compared, and the decimal texts of ids of one second. -/
theorem precedes_iff_of_exact {x y : HistoryItem} (hx : x.Exact) (hy : y.Exact) (h : x.Before y) :
    x.Precedes y ↔ x.id ≠ y.id ∧
      (x.createdAt = y.createdAt → Nat.toDigits 10 x.id.toNat < Nat.toDigits 10 y.id.toNat) := by
  have hround : ∀ n : ℤ, 0 < n → n < 2 ^ 53 → Doubles.round n = n :=
    fun n hpos hlt => Doubles.round_of_lt (by rwa [abs_of_pos hpos])
  have htext : ∀ n : ℤ, 0 < n → n < 2 ^ 53 → Doubles.shortestText (Doubles.round n) = Nat.toDigits 10 n.toNat := by
    intro n hpos hlt
    obtain ⟨k, rfl⟩ := Int.eq_ofNat_of_zero_le hpos.le
    rw [hround _ hpos hlt]
    exact Doubles.shortestText_of_lt (by exact_mod_cast hlt)
  obtain ⟨hxid, hxid', hxtime, hxtime'⟩ := hx
  obtain ⟨hyid, hyid', hytime, hytime'⟩ := hy
  have hdigits : Nat.toDigits 10 x.id.toNat = Nat.toDigits 10 y.id.toNat ↔ x.id = y.id := by
    refine ⟨fun heq => ?_, fun heq => by rw [heq]⟩
    have hvalue := congrArg (fun digits => Nat.ofDigitChars 10 digits 0) heq
    simp only [Nat.ofDigitChars_toDigits (b := 10) (by decide) (by decide)] at hvalue
    omega
  rw [HistoryItem.Precedes, htext _ hxid hxid', htext _ hyid hyid', hround _ hxtime hxtime', hround _ hytime hytime',
    ne_eq, hdigits]
  refine and_congr_right fun _ => ?_
  constructor
  · rintro (hlt | ⟨-, hlt⟩) heq
    · exact absurd heq hlt.ne
    · exact hlt
  · intro hids
    rcases h with hlt | ⟨heq, -⟩
    · exact .inl hlt
    · exact .inr ⟨heq, hids heq⟩

/-- **A page keeps its order** in an empty conversation exactly if each of its messages precedes those that follow it,
by time and by the text of its id.  In a page of numbers below `2 ^ 53` that ascends by time and id, this is so exactly
if no id stands twice and the decimal texts of ids of one second ascend. -/
theorem page_in_order_iff (clock : ℕ → ℤ) (s : ChatState) (type : ConversationType) (name : JsString)
    (page : List HistoryItem) (hname : name ≠ [])
    (hempty : (s.conversations (conversationKey type name)).messages = [] ∧
      (s.conversations (conversationKey type name)).messageKeys = [])
    (hpage : ∀ m ∈ page, m.sender ≠ [] ∧ m.content ≠ []) (hnumbers : ∀ m ∈ page, m.id ≠ 0 ∧ m.createdAt ≠ 0) :
    ((s.handleServerMessage clock (pageMessage type name page)).messages (conversationKey type name) =
        page.map (HistoryItem.shown s.username) ↔ page.Pairwise HistoryItem.Precedes) ∧
      ((∀ m ∈ page, m.Exact) → page.Pairwise HistoryItem.Before →
        ((s.handleServerMessage clock (pageMessage type name page)).messages (conversationKey type name) =
            page.map (HistoryItem.shown s.username) ↔
          page.Pairwise fun x y => x.id ≠ y.id ∧
            (x.createdAt = y.createdAt → Nat.toDigits 10 x.id.toNat < Nat.toDigits 10 y.id.toNat))) := by
  have horder : (s.handleServerMessage clock (pageMessage type name page)).messages (conversationKey type name) =
      page.map (HistoryItem.shown s.username) ↔ page.Pairwise HistoryItem.Precedes := by
    have hlisted : listed clock type s page = page.map (HistoryItem.shown s.username) := listed_eq hnumbers
    rw [← hlisted, messages_eq_listed_iff clock s type hname hempty hpage, hlisted, List.pairwise_map]
    simp only [precedes_iff]
  refine ⟨horder, fun hexact hbefore => ?_⟩
  rw [horder]
  constructor
  · intro h
    exact (hbefore.and h).imp_of_mem fun hx hy hxy =>
      (precedes_iff_of_exact (hexact _ hx) (hexact _ hy) hxy.1).mp hxy.2
  · intro h
    exact (hbefore.and h).imp_of_mem fun hx hy hxy =>
      (precedes_iff_of_exact (hexact _ hx) (hexact _ hy) hxy.1).mpr hxy.2

/-- Two messages of one second. -/
def twoOfOneSecond (first second : ℤ) : List HistoryItem :=
  [⟨first, "bob".toList, "ann".toList, [], "a".toList, 5⟩, ⟨second, "bob".toList, "ann".toList, [], "b".toList, 5⟩]

theorem page_of_7_and_8 :
    (({ username := "ann".toList, loggedIn := true } : ChatState).handleServerMessage (fun _ => 7)
      (pageMessage .PRIVATE "bob".toList (twoOfOneSecond 7 8))).messages (conversationKey .PRIVATE "bob".toList) =
        (twoOfOneSecond 7 8).map (HistoryItem.shown "ann".toList) :=
  ((page_in_order_iff (fun _ => 7) { username := "ann".toList, loggedIn := true } .PRIVATE "bob".toList
    (twoOfOneSecond 7 8) (by decide) ⟨rfl, rfl⟩ (by decide) (by decide)).2 (by decide) (by decide)).mpr (by decide)

/-- Message 10 is put in front of message 9. -/
theorem page_of_9_and_10 :
    ¬ ∀ (clock : ℕ → ℤ) (s : ChatState) (type : ConversationType) (name : JsString) (page : List HistoryItem),
      name ≠ [] → ((s.conversations (conversationKey type name)).messages = [] ∧
        (s.conversations (conversationKey type name)).messageKeys = []) →
      (∀ m ∈ page, m.sender ≠ [] ∧ m.content ≠ []) → (page.map HistoryItem.id).Nodup →
      page.Pairwise HistoryItem.Before →
      (s.handleServerMessage clock (pageMessage type name page)).messages (conversationKey type name) =
        page.map (HistoryItem.shown s.username) := by
  intro h
  have hpage := h (fun _ => 7) { username := "ann".toList, loggedIn := true } .PRIVATE "bob".toList
    (twoOfOneSecond 9 10) (by decide) ⟨rfl, rfl⟩ (by decide) (by decide) (by decide)
  have hkeys := congrArg (List.map Stored.dedupeKey) hpage
  revert hkeys
  decide +kernel

end Web

end ChatService
