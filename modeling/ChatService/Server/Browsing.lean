import ChatService.Common.Numbers
import ChatService.Foundation.Paging
import ChatService.Server.Conversations
import ChatService.Server.Outgoing

/-!
# Browsing a conversation backwards

A client that asks for the page before the oldest message it has, until a page is empty.  The cursor is the
time of a message while pages are cut by time and id, so a page boundary inside a second loses the older
messages of that second; and a time that is not positive is no cursor at all, so that the client is given the
newest page again.  Otherwise every message comes exactly once (`browsing_is_complete_iff`).
-/

namespace ChatService

open Paging

/-- The pages a client receives that begins with `beforeText` and goes on with the `created_at` of the oldest
message of the last page, as it is written in the page. -/
inductive Browses (storage : ChatStorage) (conversation : Conversation) (limitText : Bytes) :
    Bytes → List (List Message) → Prop where
  | stop {beforeText} :
      conversation.load storage (parseHistoryLimit limitText) (parseBeforeTimestamp beforeText) = [] →
      Browses storage conversation limitText beforeText []
  | page {beforeText oldest newer rest} :
      conversation.load storage (parseHistoryLimit limitText) (parseBeforeTimestamp beforeText) =
        oldest :: newer →
      Browses storage conversation limitText (int64ToString oldest.createdAt) rest →
      Browses storage conversation limitText beforeText ((oldest :: newer) :: rest)

/-- The time of a message is an `int64_t`. -/
def Save.Timed (save : Save) : Prop :=
  -9223372036854775808 ≤ save.timestamp ∧ save.timestamp ≤ 9223372036854775807

instance : DecidablePred Save.Timed := fun _ => inferInstanceAs (Decidable (_ ∧ _))

/-- How many messages a page may have. -/
def pageLimit (limitText : Bytes) : ℕ := (ChatStorage.sanitizeLimit (parseHistoryLimit limitText)).toNat

theorem pageLimit_pos (limitText : Bytes) : 0 < pageLimit limitText := by
  simp only [pageLimit, ChatStorage.sanitizeLimit, kDefaultHistoryLimit, kMaxHistoryLimit]
  split_ifs <;> omega

/-- The first request has no cursor. -/
theorem parseBeforeTimestamp_nil : parseBeforeTimestamp [] = 0 := rfl

/-- A time that is written in a page is read back, if it is positive. -/
theorem parseBeforeTimestamp_int64ToString {t : ℤ} (hlow : -9223372036854775808 ≤ t)
    (hhigh : t ≤ 9223372036854775807) :
    parseBeforeTimestamp (int64ToString t) = if t ≤ 0 then 0 else t := by
  have hne : int64ToString t ≠ [] := by
    intro h
    have hstrtoll := strtoll_int64ToString hlow hhigh
    rw [h, show strtoll [] = none by decide] at hstrtoll
    exact absurd hstrtoll (by simp)
  rw [parseBeforeTimestamp, if_neg hne, strtoll_int64ToString hlow hhigh]

/-- The order of time and id is strict. -/
theorem Older.antisymm {p q : ℤ × Save} (hpq : Older p q) (hqp : Older q p) : p = q := by
  simp only [Older] at hpq hqp
  omega

/-- A conversation is in the order of time and id in one way only. -/
theorem sorted_unique {l₁ l₂ : List (ℤ × Save)} (h₁ : l₁.Pairwise Older) (h₂ : l₂.Pairwise Older)
    (hperm : l₁.Perm l₂) : l₁ = l₂ :=
  List.Perm.eq_of_pairwise (fun _ _ _ _ hpq hqp => hpq.antisymm hqp) h₁ h₂ hperm

section Sorted

variable {ids : RowIds} {saves : List Save} {conversation : Conversation} {sorted : List (ℤ × Save)}

/-- The messages of a sorted conversation below a cursor. -/
def beforeCursor (sorted : List (ℤ × Save)) (before : ℤ) : List (ℤ × Save) :=
  sorted.filter fun p => decide (before ≤ 0 ∨ p.2.timestamp < before)

theorem beforeCursor_zero (sorted : List (ℤ × Save)) : beforeCursor sorted 0 = sorted :=
  List.filter_eq_self.mpr fun _ _ => decide_eq_true (.inl le_rfl)

theorem mem_beforeCursor {before : ℤ} {p : ℤ × Save} :
    p ∈ beforeCursor sorted before ↔ p ∈ sorted ∧ (before ≤ 0 ∨ p.2.timestamp < before) := by
  rw [beforeCursor, List.mem_filter, decide_eq_true_eq]

/-- **Every page is the end of what is below its cursor.** -/
theorem load_eq_beforeCursor (hsaves : ∀ save ∈ saves, save.Valid) (hconversation : conversation.Valid)
    (hperm : sorted.Perm (conversation.saved ids saves 0)) (hsorted : sorted.Pairwise Older)
    (limit before : ℤ) :
    conversation.load ((ChatStorage.created ids).saveAll saves) limit before =
      ((beforeCursor sorted before).drop
        ((beforeCursor sorted before).length - (ChatStorage.sanitizeLimit limit).toNat)).map
        fun p => p.2.read p.1 := by
  obtain ⟨page, hpage, hpageSorted, hload⟩ := load_eq_page hsaves hconversation limit before
  have hsaved : conversation.saved ids saves before = beforeCursor (conversation.saved ids saves 0) before := by
    rw [beforeCursor, Conversation.saved, Conversation.saved, List.filter_filter]
    refine List.filter_congr fun p _ => ?_
    simp [Bool.and_comm]
  have hbelow : (beforeCursor sorted before).Perm (conversation.saved ids saves before) := by
    rw [hsaved]
    exact hperm.filter _
  have heq : page = beforeCursor sorted before :=
    sorted_unique hpageSorted (hsorted.sublist List.filter_sublist) (hpage.trans hbelow.symm)
  rw [hload, heq]

/-- Below the oldest message of a page is what is below its time. -/
theorem beforeCursor_filter {before : ℤ} {oldest : ℤ × Save} (hmem : oldest ∈ beforeCursor sorted before)
    (hpositive : 0 < oldest.2.timestamp) :
    (beforeCursor sorted before).filter (fun p => decide (p.2.timestamp < oldest.2.timestamp)) =
      beforeCursor sorted oldest.2.timestamp := by
  have hcursor := (mem_beforeCursor.mp hmem).2
  rw [beforeCursor, beforeCursor, List.filter_filter]
  refine List.filter_congr fun p _ => ?_
  rw [← Bool.decide_and]
  refine decide_eq_decide.mpr ⟨fun h => .inr h.1, fun h => ?_⟩
  rcases h with h | h
  · omega
  · exact ⟨h, by omega⟩

/-- Reading a row back keeps its time. -/
theorem Save.createdAt_read (id : ℤ) (save : Save) : (save.read id).createdAt = save.timestamp := by
  cases save <;> rfl

/-- The pages of saves, as the client gets them. -/
def readPages (pages : List (List (ℤ × Save))) : List (List Message) :=
  pages.map fun page => page.map fun p => p.2.read p.1

theorem flatten_readPages (pages : List (List (ℤ × Save))) :
    (readPages pages).flatten = pages.flatten.map fun p => p.2.read p.1 := by
  rw [readPages, List.map_flatten]

/-- **With a message of no positive time the client never comes to an end.** -/
theorem Browses.false_of_nonpositive (hsaves : ∀ save ∈ saves, save.Valid)
    (hconversation : conversation.Valid) (hperm : sorted.Perm (conversation.saved ids saves 0))
    (hsorted : sorted.Pairwise Older) {limitText beforeText : Bytes} {pages : List (List Message)}
    {p : ℤ × Save} (hp : p ∈ sorted) (hnonpositive : p.2.timestamp ≤ 0)
    (h : Browses ((ChatStorage.created ids).saveAll saves) conversation limitText beforeText pages) : False := by
  induction h with
  | page _ _ ih => exact ih
  | @stop beforeText hload =>
    -- the message is below every cursor, so no page is empty
    have hmem : p ∈ beforeCursor sorted (parseBeforeTimestamp beforeText) :=
      mem_beforeCursor.mpr ⟨hp, by omega⟩
    have hpos := List.length_pos_of_mem hmem
    have hlimit := pageLimit_pos limitText
    rw [load_eq_beforeCursor hsaves hconversation hperm hsorted, List.map_eq_nil_iff,
      List.drop_eq_nil_iff] at hload
    rw [pageLimit] at hlimit
    omega

/-- The cursor behind a page. -/
theorem beforeCursor_createdAt (htimed : ∀ p ∈ sorted, p.2.Timed)
    (hpositive : ∀ p ∈ sorted, 0 < p.2.timestamp) {before : ℤ} {p : ℤ × Save}
    (hp : p ∈ beforeCursor sorted before) :
    beforeCursor sorted (parseBeforeTimestamp (int64ToString (p.2.read p.1).createdAt)) =
      (beforeCursor sorted before).filter fun q => decide (q.2.timestamp < p.2.timestamp) := by
  have hmem := (mem_beforeCursor.mp hp).1
  have hpos := hpositive p hmem
  rw [Save.createdAt_read, parseBeforeTimestamp_int64ToString (htimed p hmem).1 (htimed p hmem).2,
    if_neg (by omega), beforeCursor_filter hp hpos]

variable (hsaves : ∀ save ∈ saves, save.Valid) (hconversation : conversation.Valid)
  (hperm : sorted.Perm (conversation.saved ids saves 0)) (hsorted : sorted.Pairwise Older)

include hsaves hconversation hperm hsorted

/-- A page, by the saves in it. -/
theorem load_eq_cons {limitText : Bytes} {before : ℤ} {oldest : Message} {newer : List Message}
    (hload : conversation.load ((ChatStorage.created ids).saveAll saves) (parseHistoryLimit limitText) before =
      oldest :: newer) :
    ∃ p rest, (beforeCursor sorted before).drop ((beforeCursor sorted before).length - pageLimit limitText) =
      p :: rest ∧ p ∈ beforeCursor sorted before ∧ oldest = p.2.read p.1 ∧
      newer = rest.map fun p => p.2.read p.1 := by
  rw [load_eq_beforeCursor hsaves hconversation hperm hsorted] at hload
  obtain ⟨p, rest, hdrop, holdest, hnewer⟩ := List.map_eq_cons_iff.mp hload
  exact ⟨p, rest, hdrop, List.mem_of_mem_drop (hdrop ▸ List.mem_cons_self), holdest.symm, hnewer.symm⟩

/-- What the client reads are pages of the conversation. -/
theorem Browses.pages (htimed : ∀ p ∈ sorted, p.2.Timed)
    (hpositive : ∀ p ∈ sorted, 0 < p.2.timestamp) {limitText beforeText : Bytes}
    {pages : List (List Message)}
    (h : Browses ((ChatStorage.created ids).saveAll saves) conversation limitText beforeText pages) :
    ∃ read, Pages (fun p : ℤ × Save => p.2.timestamp) (pageLimit limitText)
      (beforeCursor sorted (parseBeforeTimestamp beforeText)) read ∧ pages = readPages read := by
  induction h with
  | @stop beforeText hload =>
    have hlimit := pageLimit_pos limitText
    rw [load_eq_beforeCursor hsaves hconversation hperm hsorted, List.map_eq_nil_iff,
      List.drop_eq_nil_iff] at hload
    rw [pageLimit] at hlimit
    have hnil : beforeCursor sorted (parseBeforeTimestamp beforeText) = [] := by
      rw [← List.length_eq_zero_iff]
      omega
    exact ⟨[], hnil ▸ .stop, rfl⟩
  | @page beforeText oldest newer rest hload _ ih =>
    obtain ⟨p, others, hdrop, hp, rfl, rfl⟩ :=
      load_eq_cons hsaves hconversation hperm hsorted hload
    obtain ⟨read, hread, rfl⟩ := ih
    rw [beforeCursor_createdAt htimed hpositive hp] at hread
    exact ⟨(p :: others) :: read, .page hdrop hread, rfl⟩

/-- The pages of the conversation are what the client reads. -/
theorem browses_of_pages (htimed : ∀ p ∈ sorted, p.2.Timed)
    (hpositive : ∀ p ∈ sorted, 0 < p.2.timestamp) {limitText beforeText : Bytes}
    {read : List (List (ℤ × Save))}
    (h : Pages (fun p : ℤ × Save => p.2.timestamp) (pageLimit limitText)
      (beforeCursor sorted (parseBeforeTimestamp beforeText)) read) :
    Browses ((ChatStorage.created ids).saveAll saves) conversation limitText beforeText (readPages read) := by
  generalize hl : beforeCursor sorted (parseBeforeTimestamp beforeText) = l at h
  induction h generalizing beforeText with
  | stop =>
    refine .stop ?_
    rw [load_eq_beforeCursor hsaves hconversation hperm hsorted, hl, List.drop_nil, List.map_nil]
  | @page l oldest newer rest hpage _ ih =>
    subst hl
    have holdest : oldest ∈ beforeCursor sorted (parseBeforeTimestamp beforeText) :=
      List.mem_of_mem_drop (hpage ▸ List.mem_cons_self)
    refine .page ?_ (ih (beforeCursor_createdAt htimed hpositive holdest))
    rw [load_eq_beforeCursor hsaves hconversation hperm hsorted, ← pageLimit, hpage, List.map_cons]

omit hsaves hconversation hperm in
/-- A sorted conversation is sorted by time. -/
theorem pairwise_timestamp : sorted.Pairwise fun p q => p.2.timestamp ≤ q.2.timestamp :=
  hsorted.imp fun holder => by
    simp only [Older] at holder
    omega

end Sorted

/-- **When a client that browses backwards gets everything.**  A client that asks for the page before the
oldest message it has, until a page is empty, gets every message of the conversation exactly once if and only
if all times are positive and no page ends between two messages of one second; with positive times it always
ends, and gets nothing twice. -/
theorem browsing_is_complete_iff (ids : RowIds) (saves : List Save) (hsaves : ∀ save ∈ saves, save.Valid)
    (htimed : ∀ save ∈ saves, save.Timed) {conversation : Conversation}
    (hconversation : conversation.Valid) (limitText : Bytes) {sorted : List (ℤ × Save)}
    (hperm : sorted.Perm (conversation.saved ids saves 0)) (hsorted : sorted.Pairwise Older) :
    let storage := (ChatStorage.created ids).saveAll saves
    let messages := sorted.map fun p => p.2.read p.1
    ((∃ pages, Browses storage conversation limitText [] pages ∧ pages.flatten.Perm messages) ↔
      (∀ p ∈ sorted, 0 < p.2.timestamp) ∧
        CleanCuts (fun p : ℤ × Save => p.2.timestamp) (pageLimit limitText) sorted) ∧
    ((∀ p ∈ sorted, 0 < p.2.timestamp) →
      ∃ pages, Browses storage conversation limitText [] pages ∧
        pages.reverse.flatten.Sublist messages) := by
  intro storage messages
  have htimed' : ∀ p ∈ sorted, p.2.Timed := by
    intro p hp
    have hsaved := List.mem_of_mem_filter (hperm.mem_iff.mp hp)
    exact htimed p.2 (mem_of_mem_numbered hsaved)
  have htime := pairwise_timestamp hsorted
  have hfirst : beforeCursor sorted (parseBeforeTimestamp []) = sorted := by
    rw [parseBeforeTimestamp_nil, beforeCursor_zero]
  have hexists : ∃ read, Pages (fun p : ℤ × Save => p.2.timestamp) (pageLimit limitText) sorted read :=
    Pages.exists (pageLimit_pos limitText) sorted
  constructor
  · constructor
    · rintro ⟨pages, hbrowses, hall⟩
      have hpositive : ∀ p ∈ sorted, 0 < p.2.timestamp := by
        intro p hp
        by_contra hnonpositive
        exact hbrowses.false_of_nonpositive hsaves hconversation hperm hsorted hp (by omega)
      obtain ⟨read, hread, rfl⟩ :=
        hbrowses.pages hsaves hconversation hperm hsorted htimed' hpositive
      rw [hfirst] at hread
      refine ⟨hpositive, (hread.perm_iff htime).mp ?_⟩
      -- as many saves are read as messages, so none is left out
      have hlength : read.reverse.flatten.length = sorted.length := by
        have hcount := hall.length_eq
        rw [flatten_readPages, List.length_map, List.length_map] at hcount
        rw [← hcount, (read.reverse_perm.flatten).length_eq]
      have heq := (hread.sublist htime).eq_of_length hlength
      have hreverse := read.reverse_perm.flatten
      rw [heq] at hreverse
      exact hreverse.symm
    · rintro ⟨hpositive, hclean⟩
      obtain ⟨read, hread⟩ := hexists
      refine ⟨readPages read, browses_of_pages hsaves hconversation hperm hsorted htimed' hpositive
        (hfirst.symm ▸ hread), ?_⟩
      rw [flatten_readPages]
      exact ((hread.perm_iff htime).mpr hclean).map _
  · intro hpositive
    obtain ⟨read, hread⟩ := hexists
    refine ⟨readPages read, browses_of_pages hsaves hconversation hperm hsorted htimed' hpositive
      (hfirst.symm ▸ hread), ?_⟩
    have hsub := (hread.sublist htime).map fun p => p.2.read p.1
    rwa [readPages, ← List.map_reverse, ← readPages, flatten_readPages]

/-- Two messages of one second. -/
def sameSecond : List Save :=
  [.privateMessage (ascii "alice") (ascii "bob") (ascii "one") 5,
    .privateMessage (ascii "bob") (ascii "alice") (ascii "two") 5]

/-- With one message a page, the client asks for what is older than the second, and never gets the other
one. -/
theorem sameSecond_is_lost :
    ¬ ∃ pages, Browses (ChatStorage.empty.saveAll sameSecond)
        (.between (ascii "alice") (ascii "bob")) (ascii "1") [] pages ∧
      pages.flatten.Perm (((Conversation.between (ascii "alice") (ascii "bob")).saved .counting sameSecond 0).map
        fun p => p.2.read p.1) := by
  rintro ⟨pages, hbrowses, hall⟩
  have hlength := hall.length_eq
  cases hbrowses with
  | stop => exact absurd hlength (by decide)
  | @page _ oldest newer rest hload hrest =>
    have hfirst : (Conversation.between (ascii "alice") (ascii "bob")).load
        (ChatStorage.empty.saveAll sameSecond) (parseHistoryLimit (ascii "1"))
        (parseBeforeTimestamp []) =
        [(Save.privateMessage (ascii "bob") (ascii "alice") (ascii "two") 5).read 2] := by
      decide +kernel
    obtain ⟨rfl, rfl⟩ := List.cons.inj (hload.symm.trans hfirst)
    cases hrest with
    | stop => exact absurd hlength (by decide)
    | page hload' =>
      have hsecond : (Conversation.between (ascii "alice") (ascii "bob")).load
          (ChatStorage.empty.saveAll sameSecond) (parseHistoryLimit (ascii "1"))
          (parseBeforeTimestamp (int64ToString 5)) = [] := by
        decide +kernel
      exact absurd (hsecond.symm.trans hload') (by simp)

/-- Two messages of different seconds. -/
def twoSeconds : List Save :=
  [.roomMessage (ascii "lobby") (ascii "alice") (ascii "one") 5,
    .roomMessage (ascii "lobby") (ascii "bob") (ascii "two") 6]

/-- They are both received. -/
theorem twoSeconds_are_received :
    ∃ pages, Browses (ChatStorage.empty.saveAll twoSeconds) (.inRoom (ascii "lobby")) (ascii "1") [] pages ∧
      pages.flatten.Perm ((numbered .counting twoSeconds).map fun p => p.2.read p.1) := by
  have hroom : (Conversation.inRoom (ascii "lobby")).Valid :=
    show isValidName (ascii "lobby") = true by decide
  have hsorted : (numbered .counting twoSeconds).Pairwise Older := .cons (fun q hq => by
    rw [List.mem_singleton.mp hq]
    exact .inl (by decide)) (List.pairwise_singleton ..)
  have htimes : (numbered .counting twoSeconds).Pairwise fun p q => p.2.timestamp < q.2.timestamp :=
    .cons (fun q hq => by
      rw [List.mem_singleton.mp hq]
      decide) (List.pairwise_singleton ..)
  exact (browsing_is_complete_iff .counting twoSeconds (by decide) (by decide) hroom (ascii "1")
    (by decide +kernel) hsorted).1.mpr ⟨by decide, cleanCuts_of_pairwise htimes⟩

end ChatService
