import ChatService.Foundation.Binary64
import Mathlib.Data.Finset.Max
import Mathlib.Data.Finset.Sort
import Mathlib.Data.Prod.Lex

/-!
# The timer queue

muduo's `TimerQueue`: the timers of an event loop, in one set by the time when they are due and in another by their
addresses, for those who cancel them.  The timerfd is set for the first of them, at least 100 microseconds ahead; when
it fires, `handleRead` takes out all timers that have expired, calls them, and adds those again that repeat.

* `TimerQueue` — the two sets, with the heap that their pointers go into; a function answers `none` where an assertion
  fails or a pointer dangles.
* `Paired` — the two sets hold the same timers.
* `addTimerInLoop_eq`, `cancelInLoop_of_mem`, `startCalling_eq`, … — what the functions do where they do not fail.
-/

namespace ChatService.Muduo

/-- Microseconds since the epoch. -/
abbrev Timestamp := ℤ

def Timestamp.valid (t : Timestamp) : Prop := 0 < t

instance Timestamp.decidableValid (t : Timestamp) : Decidable t.valid := inferInstanceAs (Decidable (0 < t))

def kMicroSecondsPerSecond : ℚ := 1000000

/-- The conversion of a double to an integer. -/
def truncated (x : ℚ) : ℤ := if 0 ≤ x then ⌊x⌋ else ⌈x⌉

/-- `addTime`; the language does not say what a number of seconds comes to that is too large. -/
def addTime (timestamp : Timestamp) (seconds : ℚ) : Timestamp :=
  timestamp + ((Binary64.round (seconds * kMicroSecondsPerSecond)).map truncated).getD 0

theorem truncated_nonneg {x : ℚ} (h : 0 ≤ x) : 0 ≤ truncated x := by
  rw [truncated, if_pos h]
  exact Int.floor_nonneg.mpr h

/-- Time does not run backwards. -/
theorem le_addTime (timestamp : Timestamp) {seconds : ℚ} (h : 0 ≤ seconds) : timestamp ≤ addTime timestamp seconds := by
  rw [addTime]
  cases hround : Binary64.round (seconds * kMicroSecondsPerSecond) with
  | none => simp
  | some x =>
    have hx := Binary64.round_nonneg (mul_nonneg h (by norm_num [kMicroSecondsPerSecond])) hround
    exact le_add_of_nonneg_right (truncated_nonneg hx)

abbrev Address := ℕ

/-- `UINTPTR_MAX`; no timer stands there. -/
def uintptrMax : Address := 2 ^ 64 - 1

structure Timer (Callback : Type) where
  callback : Callback
  expiration : Timestamp
  interval : ℚ
  sequence : ℕ

/-- `repeat_`. -/
def Timer.repeats {Callback : Type} (timer : Timer Callback) : Bool := 0 < timer.interval

def Timer.restart {Callback : Type} (timer : Timer Callback) (now : Timestamp) : Timer Callback :=
  { timer with expiration := if timer.repeats then addTime now timer.interval else 0 }

/-- A `TimerId`, and an `ActiveTimer`: an address and a sequence number. -/
abbrev TimerId := Address × ℕ

/-- Entries are ordered by time, and by address. -/
abbrev TimerQueue.Entry := Timestamp ×ₗ Address

/-- What the timerfd has been set to: a time from `start` on. -/
structure TimerSetting where
  start : Timestamp
  value : ℤ
deriving DecidableEq

/-- The time when the timerfd fires. -/
def TimerSetting.alarm (setting : TimerSetting) : Timestamp := setting.start + setting.value

structure TimerQueue (Callback : Type) where
  heap : Address → Option (Timer Callback)
  /-- `Timer::s_numCreated_`. -/
  numCreated : ℕ
  /-- What the timerfd has been set to since it was last read. -/
  timerfd : Option TimerSetting
  timers : Finset TimerQueue.Entry
  activeTimers : Finset TimerId
  callingExpiredTimers : Bool
  cancelingTimers : Finset TimerId

namespace TimerQueue

variable {Callback : Type} (q : TimerQueue Callback)

/-- `timers_.size() == activeTimers_.size()`. -/
def SameSize : Prop := q.timers.card = q.activeTimers.card

instance decidableSameSize : Decidable q.SameSize := inferInstanceAs (Decidable (_ = _))

/-- What the first iterator of a set points to. -/
def first (entries : Finset Entry) : Option Entry := entries.min

/-- `new Timer`, at an address that is free. -/
def newTimer (timer : Address) (callback : Callback) (when : Timestamp) (interval : ℚ) : TimerQueue Callback :=
  { q with
    heap := Function.update q.heap timer (some ⟨callback, when, interval, q.numCreated + 1⟩)
    numCreated := q.numCreated + 1 }

/-- `delete timer`. -/
def delete (timer : Address) : Option (TimerQueue Callback) := do
  let _ ← q.heap timer
  return { q with heap := Function.update q.heap timer none }

/-- `insert`: whether the timer is due before all others. -/
protected def insert (timer : Address) : Option (Bool × TimerQueue Callback) := do
  guard q.SameSize
  let t ← q.heap timer
  let earliestChanged := (first q.timers).all fun it => t.expiration < (ofLex it).1
  guard (toLex (t.expiration, timer) ∉ q.timers)
  guard ((timer, t.sequence) ∉ q.activeTimers)
  let q := { q with
    timers := insert (toLex (t.expiration, timer)) q.timers
    activeTimers := insert (timer, t.sequence) q.activeTimers }
  guard q.SameSize
  return (earliestChanged, q)

/-- `howMuchTimeFromNow`, in microseconds. -/
def howMuchTimeFromNow (when now : Timestamp) : ℤ := if when - now < 100 then 100 else when - now

/-- `resetTimerfd`, when the clock shows `now`. -/
def resetTimerfd (expiration now : Timestamp) : TimerQueue Callback :=
  { q with timerfd := some ⟨now, howMuchTimeFromNow expiration now⟩ }

def addTimerInLoop (timer : Address) (now : Timestamp) : Option (TimerQueue Callback) := do
  let (earliestChanged, q) ← q.insert timer
  if earliestChanged then
    let t ← q.heap timer
    return q.resetTimerfd t.expiration now
  else return q

def cancelInLoop (timerId : TimerId) : Option (TimerQueue Callback) := do
  guard q.SameSize
  if timerId ∈ q.activeTimers then
    let t ← q.heap timerId.1
    guard (toLex (t.expiration, timerId.1) ∈ q.timers)
    let q ← { q with timers := q.timers.erase (toLex (t.expiration, timerId.1)) }.delete timerId.1
    let q := { q with activeTimers := q.activeTimers.erase timerId }
    guard q.SameSize
    return q
  else if q.callingExpiredTimers then
    let q := { q with cancelingTimers := insert timerId q.cancelingTimers }
    guard q.SameSize
    return q
  else
    guard q.SameSize
    return q

/-- The timer that an entry points to. -/
def timerId? (it : Entry) : Option TimerId := (q.heap (ofLex it).2).map fun t => ((ofLex it).2, t.sequence)

/-- The loop of `getExpired` over what it has taken out. -/
def eraseActive (q : TimerQueue Callback) : List Entry → Option (TimerQueue Callback)
  | [] => some q
  | it :: expired => do
    let t ← q.heap (ofLex it).2
    guard (((ofLex it).2, t.sequence) ∈ q.activeTimers)
    { q with activeTimers := q.activeTimers.erase ((ofLex it).2, t.sequence) }.eraseActive expired

/-- `getExpired`: the entries below the sentry, in order. -/
def getExpired (now : Timestamp) : Option (List Entry × TimerQueue Callback) := do
  guard q.SameSize
  let sentry : Entry := toLex (now, uintptrMax)
  let expired := (q.timers.filter fun it => it < sentry).sort
  let timers := q.timers.filter fun it => ¬ it < sentry
  guard ((first timers).all fun it => now < (ofLex it).1)
  let q ← { q with timers := timers }.eraseActive expired
  guard q.SameSize
  return (expired, q)

/-- `handleRead` up to the first callback. -/
def startCalling (now : Timestamp) : Option (List Entry × TimerQueue Callback) := do
  let (expired, q) ← { q with timerfd := none }.getExpired now
  return (expired, { q with callingExpiredTimers := true, cancelingTimers := ∅ })

/-- `reset`, for one of the timers that were called. -/
def resetTimer (now : Timestamp) (it : Entry) : Option (TimerQueue Callback) := do
  let t ← q.heap (ofLex it).2
  if t.repeats ∧ ((ofLex it).2, t.sequence) ∉ q.cancelingTimers then
    let (_, q) ← { q with heap := Function.update q.heap (ofLex it).2 (some (t.restart now)) }.insert (ofLex it).2
    return q
  else q.delete (ofLex it).2

/-- The end of `reset`. -/
def armNext (now : Timestamp) : Option (TimerQueue Callback) :=
  match first q.timers with
  | none => some q
  | some it => do
    let t ← q.heap (ofLex it).2
    if t.expiration.valid then return q.resetTimerfd t.expiration now
    else return q

/-! ### What the functions do -/

section Effects

variable {q : TimerQueue Callback} {timer : Address} {t : Timer Callback} {now : Timestamp}

theorem first_eq_none {entries : Finset Entry} : first entries = none ↔ entries = ∅ := Finset.min_eq_top

theorem mem_of_first {entries : Finset Entry} {it : Entry} (h : first entries = some it) : it ∈ entries :=
  Finset.mem_of_min h

theorem first_le {entries : Finset Entry} {it it' : Entry} (h : first entries = some it) (hit' : it' ∈ entries) :
    it ≤ it' :=
  Finset.min_le_of_eq hit' h

/-- The first entry is due before all others. -/
theorem first_all {entries : Finset Entry} {when : Timestamp} :
    (first entries).all (fun it => when < (ofLex it).1) ↔ ∀ it ∈ entries, when < (ofLex it).1 := by
  cases hfirst : first entries with
  | none => simp [first_eq_none.mp hfirst]
  | some it =>
    constructor
    · intro h it' hit'
      have hwhen : when < (ofLex it).1 := by simpa using h
      exact hwhen.trans_le (Prod.Lex.monotone_fst _ _ (first_le hfirst hit'))
    · intro h
      simpa using h it (mem_of_first hfirst)

/-- The timerfd fires when it should, but not within 100 microseconds. -/
theorem alarm_resetTimerfd (expiration now : Timestamp) :
    TimerSetting.alarm ⟨now, howMuchTimeFromNow expiration now⟩ = max expiration (now + 100) := by
  rw [TimerSetting.alarm, howMuchTimeFromNow]
  split_ifs with hsoon
  · rw [max_eq_right (sub_le_iff_le_add'.mp hsoon.le)]
  · rw [max_eq_left (le_sub_iff_add_le'.mp (not_lt.mp hsoon))]
    exact add_sub_cancel ..

/-- No timer stands where the sentry does. -/
theorem lt_sentry {it : Entry} (h : (ofLex it).2 < uintptrMax) :
    it < toLex (now, uintptrMax) ↔ (ofLex it).1 ≤ now := by
  rw [Prod.Lex.lt_iff, le_iff_lt_or_eq]
  exact or_congr_right (and_iff_left h)

theorem insert_eq (hsize : q.SameSize) (ht : q.heap timer = some t)
    (htimers : toLex (t.expiration, timer) ∉ q.timers) (hactive : (timer, t.sequence) ∉ q.activeTimers) :
    q.insert timer = some ((first q.timers).all fun it => t.expiration < (ofLex it).1,
      { q with
        timers := insert (toLex (t.expiration, timer)) q.timers
        activeTimers := insert (timer, t.sequence) q.activeTimers }) := by
  have hsize' : TimerQueue.SameSize { q with
      timers := insert (toLex (t.expiration, timer)) q.timers
      activeTimers := insert (timer, t.sequence) q.activeTimers } := by
    simp only [SameSize, Finset.card_insert_of_notMem htimers, Finset.card_insert_of_notMem hactive]
    exact congrArg (· + 1) hsize
  simp [TimerQueue.insert, guard, ht, hsize, htimers, hactive, hsize']

theorem addTimerInLoop_eq (hsize : q.SameSize) (ht : q.heap timer = some t)
    (htimers : toLex (t.expiration, timer) ∉ q.timers) (hactive : (timer, t.sequence) ∉ q.activeTimers) :
    q.addTimerInLoop timer now = some { q with
      timers := insert (toLex (t.expiration, timer)) q.timers
      activeTimers := insert (timer, t.sequence) q.activeTimers
      timerfd := if (first q.timers).all fun it => t.expiration < (ofLex it).1 then
        some ⟨now, howMuchTimeFromNow t.expiration now⟩ else q.timerfd } := by
  rw [addTimerInLoop, insert_eq hsize ht htimers hactive]
  cases (first q.timers).all fun it => t.expiration < (ofLex it).1 with
  | true => simp [ht, resetTimerfd]
  | false => simp

theorem cancelInLoop_of_mem {timerId : TimerId} (hsize : q.SameSize) (hactive : timerId ∈ q.activeTimers)
    (ht : q.heap timerId.1 = some t) (htimers : toLex (t.expiration, timerId.1) ∈ q.timers) :
    q.cancelInLoop timerId = some { q with
      heap := Function.update q.heap timerId.1 none
      timers := q.timers.erase (toLex (t.expiration, timerId.1))
      activeTimers := q.activeTimers.erase timerId } := by
  have hsize' : TimerQueue.SameSize { q with
      heap := Function.update q.heap timerId.1 none
      timers := q.timers.erase (toLex (t.expiration, timerId.1))
      activeTimers := q.activeTimers.erase timerId } := by
    simp only [SameSize, Finset.card_erase_of_mem htimers, Finset.card_erase_of_mem hactive]
    exact congrArg (· - 1) hsize
  simp [cancelInLoop, guard, delete, ht, hsize, htimers, hactive, hsize']

/-- What is not in the queue is marked if callbacks are being called. -/
theorem cancelInLoop_of_notMem {timerId : TimerId} (hsize : q.SameSize) (hactive : timerId ∉ q.activeTimers) :
    q.cancelInLoop timerId = some (if q.callingExpiredTimers then
      { q with cancelingTimers := insert timerId q.cancelingTimers } else q) := by
  have hsize' : q.timers.card = q.activeTimers.card := hsize
  cases hcalling : q.callingExpiredTimers with
  | true => simp [cancelInLoop, guard, hactive, SameSize, hsize', hcalling]
  | false => simp [cancelInLoop, guard, hactive, SameSize, hsize', hcalling]

theorem eraseActive_eq {expired : List Entry} (hnodup : (expired.map fun it => (ofLex it).2).Nodup)
    (hactive : ∀ it ∈ expired, ∃ t, q.heap (ofLex it).2 = some t ∧ ((ofLex it).2, t.sequence) ∈ q.activeTimers) :
    q.eraseActive expired = some { q with
      activeTimers := q.activeTimers.filter fun id => id ∉ expired.filterMap q.timerId? } := by
  induction expired generalizing q with
  | nil => simp [eraseActive]
  | cons it expired ih =>
    obtain ⟨t, ht, hmem⟩ := hactive it List.mem_cons_self
    rw [List.map_cons, List.nodup_cons] at hnodup
    have hid : q.timerId? it = some ((ofLex it).2, t.sequence) := by rw [timerId?, ht, Option.map_some]
    have hrest : ∀ it' ∈ expired, ∃ t', q.heap (ofLex it').2 = some t' ∧
        ((ofLex it').2, t'.sequence) ∈ q.activeTimers.erase ((ofLex it).2, t.sequence) := by
      intro it' hit'
      obtain ⟨t', ht', hmem'⟩ := hactive it' (List.mem_cons_of_mem _ hit')
      refine ⟨t', ht', Finset.mem_erase.mpr ⟨?_, hmem'⟩⟩
      intro heq
      exact hnodup.1 (List.mem_map.mpr ⟨it', hit', congrArg Prod.fst heq⟩)
    have hnext := ih (q := { q with activeTimers := q.activeTimers.erase ((ofLex it).2, t.sequence) }) hnodup.2 hrest
    rw [eraseActive, ht]
    refine Eq.trans (b := TimerQueue.eraseActive _ expired) (by simp [guard, hmem]) (hnext.trans ?_)
    have hsame : ((q.activeTimers.erase ((ofLex it).2, t.sequence)).filter fun id =>
        id ∉ expired.filterMap q.timerId?) =
          q.activeTimers.filter fun id => id ∉ (it :: expired).filterMap q.timerId? := by
      ext id
      simp only [Finset.mem_filter, Finset.mem_erase, List.filterMap_cons_some hid, List.mem_cons]
      tauto
    exact congrArg some (congrArg (fun active => { q with activeTimers := active }) hsame)

/-- The two sets hold the same timers. -/
structure Paired (q : TimerQueue Callback) : Prop where
  active : ∀ it ∈ q.timers, ∃ t, q.heap (ofLex it).2 = some t ∧ t.expiration = (ofLex it).1 ∧
    ((ofLex it).2, t.sequence) ∈ q.activeTimers
  timer : ∀ id ∈ q.activeTimers, ∃ t, q.heap id.1 = some t ∧ t.sequence = id.2 ∧
    toLex (t.expiration, id.1) ∈ q.timers

theorem Paired.sameSize (h : q.Paired) : q.SameSize := by
  refine Finset.card_bij (fun it _ => ((ofLex it).2, ((q.heap (ofLex it).2).map Timer.sequence).getD 0)) ?_ ?_ ?_
  · intro it hit
    obtain ⟨t, ht, -, hmem⟩ := h.active it hit
    simpa [ht] using hmem
  · intro it hit it' hit' heq
    obtain ⟨t, ht, hdue, -⟩ := h.active it hit
    obtain ⟨t', ht', hdue', -⟩ := h.active it' hit'
    have haddress : (ofLex it).2 = (ofLex it').2 := congrArg Prod.fst heq
    obtain rfl : t = t' := Option.some.inj (ht.symm.trans (haddress ▸ ht'))
    exact Prod.ext (hdue.symm.trans hdue') haddress
  · intro id hid
    obtain ⟨t, ht, hsequence, hmem⟩ := h.timer id hid
    exact ⟨_, hmem, Prod.ext rfl (by simp [ht, hsequence])⟩

/-- The entries of different timers are at different addresses. -/
theorem Paired.nodup (h : q.Paired) {expired : List Entry} (hexpired : ∀ it ∈ expired, it ∈ q.timers)
    (hnodup : expired.Nodup) : (expired.map fun it => (ofLex it).2).Nodup := by
  refine hnodup.map_on ?_
  intro it hit it' hit' haddress
  obtain ⟨t, ht, hdue, -⟩ := h.active it (hexpired it hit)
  obtain ⟨t', ht', hdue', -⟩ := h.active it' (hexpired it' hit')
  obtain rfl : t = t' := Option.some.inj (ht.symm.trans (haddress ▸ ht'))
  exact Prod.ext (hdue.symm.trans hdue') haddress

theorem mem_filterMap_timerId? {expired : List Entry} {id : TimerId} :
    id ∈ expired.filterMap q.timerId? ↔ ∃ it ∈ expired, ∃ t, q.heap id.1 = some t ∧ t.sequence = id.2 ∧
      (ofLex it).2 = id.1 := by
  rw [List.mem_filterMap]
  refine exists_congr fun it => and_congr_right fun _ => ?_
  rw [timerId?, Option.map_eq_some_iff]
  constructor
  · rintro ⟨t, ht, rfl⟩
    exact ⟨t, ht, rfl, rfl⟩
  · rintro ⟨t, ht, hsequence, haddress⟩
    exact ⟨t, haddress ▸ ht, Prod.ext haddress hsequence⟩

/-- The entries that `getExpired` takes out. -/
def expiredAt (q : TimerQueue Callback) (now : Timestamp) : List Entry :=
  (q.timers.filter fun it => it < toLex (now, uintptrMax)).sort

theorem mem_expiredAt (haddress : ∀ it ∈ q.timers, (ofLex it).2 < uintptrMax) {it : Entry} :
    it ∈ q.expiredAt now ↔ it ∈ q.timers ∧ (ofLex it).1 ≤ now := by
  rw [expiredAt, Finset.mem_sort, Finset.mem_filter]
  exact and_congr_right fun hit => lt_sentry (haddress it hit)

theorem getExpired_eq (h : q.Paired) (haddress : ∀ it ∈ q.timers, (ofLex it).2 < uintptrMax) :
    q.getExpired now = some (q.expiredAt now, { q with
      timers := q.timers.filter fun it => now < (ofLex it).1
      activeTimers := q.activeTimers.filter fun id => id ∉ (q.expiredAt now).filterMap q.timerId? }) := by
  have hrest : (q.timers.filter fun it => ¬ it < toLex (now, uintptrMax)) =
      q.timers.filter fun it => now < (ofLex it).1 := by
    refine Finset.filter_congr fun it hit => ?_
    rw [lt_sentry (haddress it hit), not_le]
  have hend : (first (q.timers.filter fun it => now < (ofLex it).1)).all fun it => now < (ofLex it).1 := by
    rw [first_all]
    exact fun it hit => (Finset.mem_filter.mp hit).2
  have hmem : ∀ it ∈ q.expiredAt now, it ∈ q.timers := fun it hit => ((mem_expiredAt haddress).mp hit).1
  have herase : eraseActive { q with timers := q.timers.filter fun it => now < (ofLex it).1 } (q.expiredAt now) =
      some { q with
        timers := q.timers.filter fun it => now < (ofLex it).1
        activeTimers := q.activeTimers.filter fun id => id ∉ (q.expiredAt now).filterMap q.timerId? } := by
    refine eraseActive_eq (h.nodup hmem (Finset.sort_nodup _ _)) fun it hit => ?_
    obtain ⟨t, ht, -, hactive⟩ := h.active it (hmem it hit)
    exact ⟨t, ht, hactive⟩
  have hpaired : Paired { q with
      timers := q.timers.filter fun it => now < (ofLex it).1
      activeTimers := q.activeTimers.filter fun id => id ∉ (q.expiredAt now).filterMap q.timerId? } := by
    constructor
    · intro it hit
      obtain ⟨hit, hlater⟩ := Finset.mem_filter.mp hit
      obtain ⟨t, ht, hdue, hactive⟩ := h.active it hit
      refine ⟨t, ht, hdue, Finset.mem_filter.mpr ⟨hactive, ?_⟩⟩
      rw [mem_filterMap_timerId?]
      rintro ⟨it', hit', t', ht', -, hsame⟩
      obtain ⟨hit', hearlier⟩ := (mem_expiredAt haddress).mp hit'
      obtain ⟨t'', ht'', hdue', -⟩ := h.active it' hit'
      have hsame' : (ofLex it').2 = (ofLex it).2 := hsame
      obtain rfl : t = t'' := Option.some.inj (ht.symm.trans (hsame' ▸ ht''))
      have hdues : (ofLex it).1 = (ofLex it').1 := hdue.symm.trans hdue'
      exact absurd hearlier (not_le.mpr (hdues ▸ hlater))
    · intro id hid
      obtain ⟨hid, hnotExpired⟩ := Finset.mem_filter.mp hid
      obtain ⟨t, ht, hsequence, hmem'⟩ := h.timer id hid
      refine ⟨t, ht, hsequence, Finset.mem_filter.mpr ⟨hmem', ?_⟩⟩
      by_contra hdue
      exact hnotExpired (mem_filterMap_timerId?.mpr
        ⟨_, (mem_expiredAt haddress).mpr ⟨hmem', not_lt.mp hdue⟩, t, ht, hsequence, rfl⟩)
  simp only [getExpired, hrest, hend, ← expiredAt.eq_1]
  rw [herase]
  simp [guard, h.sameSize, hpaired.sameSize]

theorem startCalling_eq (h : q.Paired) (haddress : ∀ it ∈ q.timers, (ofLex it).2 < uintptrMax) :
    q.startCalling now = some (q.expiredAt now, { q with
      timerfd := none
      timers := q.timers.filter fun it => now < (ofLex it).1
      activeTimers := q.activeTimers.filter fun id => id ∉ (q.expiredAt now).filterMap q.timerId?
      callingExpiredTimers := true
      cancelingTimers := ∅ }) := by
  have hpaired : Paired { q with timerfd := none } := ⟨h.active, h.timer⟩
  rw [startCalling, getExpired_eq hpaired haddress]
  rfl

theorem resetTimer_of_repeats {it : Entry} (hsize : q.SameSize) (ht : q.heap (ofLex it).2 = some t)
    (hrepeats : t.repeats = true) (hcanceling : ((ofLex it).2, t.sequence) ∉ q.cancelingTimers)
    (htimers : toLex ((t.restart now).expiration, (ofLex it).2) ∉ q.timers)
    (hactive : ((ofLex it).2, t.sequence) ∉ q.activeTimers) :
    q.resetTimer now it = some { q with
      heap := Function.update q.heap (ofLex it).2 (some (t.restart now))
      timers := insert (toLex ((t.restart now).expiration, (ofLex it).2)) q.timers
      activeTimers := insert ((ofLex it).2, t.sequence) q.activeTimers } := by
  have hinsert := insert_eq (q := { q with heap := Function.update q.heap (ofLex it).2 (some (t.restart now)) })
    hsize (Function.update_self ..) htimers hactive
  simp only [resetTimer, ht, Option.bind_eq_bind, Option.bind_some, if_pos (And.intro hrepeats hcanceling)]
  rw [hinsert]
  rfl

theorem resetTimer_of_not {it : Entry} (ht : q.heap (ofLex it).2 = some t)
    (hend : ¬ (t.repeats = true ∧ ((ofLex it).2, t.sequence) ∉ q.cancelingTimers)) :
    q.resetTimer now it = some { q with heap := Function.update q.heap (ofLex it).2 none } := by
  simp only [resetTimer, ht, Option.bind_eq_bind, Option.bind_some, if_neg hend]
  simp [delete, ht]

theorem armNext_of_none (h : first q.timers = none) : q.armNext now = some q := by
  rw [armNext, h]

theorem armNext_of_some {it : Entry} (h : first q.timers = some it) (ht : q.heap (ofLex it).2 = some t) :
    q.armNext now = some (if t.expiration.valid then q.resetTimerfd t.expiration now else q) := by
  simp only [armNext, h, ht, Option.bind_eq_bind, Option.bind_some]
  split <;> rfl

end Effects

end TimerQueue

end ChatService.Muduo
