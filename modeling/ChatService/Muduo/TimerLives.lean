import ChatService.Muduo.TimerQueue

/-!
# The lives of timers

Whatever threads create timers and whatever the callbacks of a loop do with its timer queue, each timer has a life of
its own: it is created, it waits, it expires when it is due, and it waits again if it repeats and nobody has cancelled
it.  Its address may have been another timer's before, and may be another one's afterwards.

* `TimerStep`, `TimerRun` — what the loop and the other threads do, and the events of it, with `handleRead` cut where
  callbacks or other threads come in between.
* `Life` — what becomes of one timer, whatever becomes of the others; `lives` reads it off the events.
* `Good` — the invariant: the queue, the heap and `handleRead` hold what the lives of all timers say.
* `marks_gain`, `Stored.change`, `Queued.gain`, … — what it takes to keep it when one timer changes its life.
-/

namespace ChatService.Muduo

/-! ### Steps -/

/-- How far `handleRead` has come: which entries it holds, and which of them it has not called yet. -/
inductive Reading where
  | idle
  | calling (now : Timestamp) (expired left : List TimerQueue.Entry)
  | resetting (now : Timestamp) (left : List TimerQueue.Entry)

/-- The timers that are neither in the queue nor on the way to it. -/
def Reading.held : Reading → List TimerQueue.Entry
  | .idle => []
  | .calling _ expired _ => expired
  | .resetting _ left => left

/-- Callbacks run, so that timers may be added and cancelled. -/
def Reading.Open : Reading → Prop
  | .idle | .calling .. => True
  | .resetting .. => False

/-- A loop with its timers and the calls of `addTimer`: the timers that these have made and not handed over yet, those
that are queued for `addTimerInLoop`, and those whose number they are still to answer. -/
structure TimerLoop (Callback : Type) where
  queue : TimerQueue Callback
  made : Finset Address
  adding : Finset Address
  answering : Multiset Address
  reading : Reading

inductive TimerEvent where
  | created (id : TimerId) (when : Timestamp) (interval : ℚ)
  | handedOver (timer : Address)
  | answered (id : TimerId)
  | added (id : TimerId)
  | cancelled (id : TimerId)
  | read (now : Timestamp) (expired : List TimerId)
  | ran (id : TimerId)
  | called
  | settled (now : Timestamp) (id : TimerId)
  | armed

section Steps

variable {Callback : Type}

def TimerLoop.initial : TimerLoop Callback := ⟨⟨fun _ => none, 0, none, ∅, ∅, false, ∅⟩, ∅, ∅, 0, .idle⟩

/-- One step of the loop's thread, or of a thread that adds a timer.  `addTimer` takes three: it makes the timer, hands
it over, and reads the number of the timer for its answer, when the loop may have deleted it. -/
inductive TimerStep : TimerLoop Callback → TimerEvent → TimerLoop Callback → Prop where
  | newTimer {s : TimerLoop Callback} {timer : Address} (callback : Callback) (when : Timestamp) (interval : ℚ) :
      s.queue.heap timer = none → timer < uintptrMax →
      TimerStep s (.created (timer, s.queue.numCreated + 1) when interval)
        { s with
          queue := s.queue.newTimer timer callback when interval
          made := insert timer s.made }
  | runInLoop {s : TimerLoop Callback} {timer : Address} :
      timer ∈ s.made →
      TimerStep s (.handedOver timer)
        { s with
          made := s.made.erase timer
          adding := insert timer s.adding
          answering := timer ::ₘ s.answering }
  | answer {s : TimerLoop Callback} {timer : Address} {t : Timer Callback} :
      timer ∈ s.answering → s.queue.heap timer = some t →
      TimerStep s (.answered (timer, t.sequence)) { s with answering := s.answering.erase timer }
  | addTimerInLoop {s : TimerLoop Callback} {timer : Address} {t : Timer Callback} {q : TimerQueue Callback}
      (now : Timestamp) :
      s.reading.Open → timer ∈ s.adding → s.queue.heap timer = some t → s.queue.addTimerInLoop timer now = some q →
      TimerStep s (.added (timer, t.sequence)) { s with queue := q, adding := s.adding.erase timer }
  | cancelInLoop {s : TimerLoop Callback} {timerId : TimerId} {q : TimerQueue Callback} :
      s.reading.Open → s.queue.cancelInLoop timerId = some q →
      TimerStep s (.cancelled timerId) { s with queue := q }
  | handleRead {s : TimerLoop Callback} {now : Timestamp} {expired : List TimerQueue.Entry} {q : TimerQueue Callback} :
      s.reading = .idle → now.valid → s.queue.startCalling now = some (expired, q) →
      TimerStep s (.read now (expired.filterMap s.queue.timerId?))
        { s with queue := q, reading := .calling now expired expired }
  | run {s : TimerLoop Callback} {now : Timestamp} {expired left : List TimerQueue.Entry} {it : TimerQueue.Entry}
      {timerId : TimerId} :
      s.reading = .calling now expired (it :: left) → s.queue.timerId? it = some timerId →
      TimerStep s (.ran timerId) { s with reading := .calling now expired left }
  | called {s : TimerLoop Callback} {now : Timestamp} {expired : List TimerQueue.Entry} :
      s.reading = .calling now expired [] →
      TimerStep s .called
        { s with
          queue := { s.queue with callingExpiredTimers := false }
          reading := .resetting now expired }
  | reset {s : TimerLoop Callback} {now : Timestamp} {left : List TimerQueue.Entry} {it : TimerQueue.Entry}
      {timerId : TimerId} {q : TimerQueue Callback} :
      s.reading = .resetting now (it :: left) → s.queue.timerId? it = some timerId →
      s.queue.resetTimer now it = some q →
      TimerStep s (.settled now timerId) { s with queue := q, reading := .resetting now left }
  | armNext {s : TimerLoop Callback} {now : Timestamp} {q : TimerQueue Callback} (later : Timestamp) :
      s.reading = .resetting now [] → s.queue.armNext later = some q →
      TimerStep s .armed { s with queue := q, reading := .idle }

/-- A run, with its events, latest last. -/
inductive TimerRun : List TimerEvent → TimerLoop Callback → Prop where
  | init : TimerRun [] .initial
  | step {events : List TimerEvent} {s s' : TimerLoop Callback} {event : TimerEvent} :
      TimerRun events s → TimerStep s event s' → TimerRun (events ++ [event]) s'

/-- Whatever the loop's thread may do next can be done: no assertion fails, and no pointer dangles that it follows. -/
structure TimerLoop.Able (s : TimerLoop Callback) : Prop where
  add : s.reading.Open → ∀ timer ∈ s.adding, ∀ now, (s.queue.addTimerInLoop timer now).isSome
  cancel : s.reading.Open → ∀ timerId, (s.queue.cancelInLoop timerId).isSome
  read : s.reading = .idle → ∀ now, (s.queue.startCalling now).isSome
  run : ∀ now expired it left, s.reading = .calling now expired (it :: left) → (s.queue.timerId? it).isSome
  reset : ∀ now it left, s.reading = .resetting now (it :: left) →
    (s.queue.timerId? it).isSome ∧ (s.queue.resetTimer now it).isSome
  arm : ∀ now, s.reading = .resetting now [] → ∀ later, (s.queue.armNext later).isSome

end Steps

/-! ### The life of a timer -/

/-- What has become of a timer.  One that has expired may have been cancelled since, and its callback may have been
called. -/
inductive Life where
  | unmade
  | adding (when : Timestamp) (interval : ℚ)
  | waiting (due : Timestamp) (interval : ℚ)
  | expired (interval : ℚ) (cancelled called : Bool)
  | gone

namespace Life

def add : Life → Life
  | .adding when interval => .waiting when interval
  | life => life

/-- A timer that has not been added yet cannot be cancelled. -/
def cancel : Life → Life
  | .waiting _ _ => .gone
  | .expired interval _ called => .expired interval true called
  | life => life

def expire (now : Timestamp) : Life → Life
  | .waiting due interval => if due ≤ now then .expired interval false false else .waiting due interval
  | life => life

def call : Life → Life
  | .expired interval cancelled _ => .expired interval cancelled true
  | life => life

def settle (now : Timestamp) : Life → Life
  | .expired interval cancelled _ =>
    if 0 < interval ∧ cancelled = false then .waiting (addTime now interval) interval else .gone
  | life => life

/-- What an event means for the timer `id`. -/
def after (id : TimerId) (life : Life) : TimerEvent → Life
  | .created id' when interval => if id' = id then .adding when interval else life
  | .added id' => if id' = id then life.add else life
  | .cancelled id' => if id' = id then life.cancel else life
  | .read now _ => life.expire now
  | .ran id' => if id' = id then life.call else life
  | .settled now id' => if id' = id then life.settle now else life
  | .handedOver _ | .answered _ | .called | .armed => life

end Life

/-- What has become of each timer. -/
def lives (events : List TimerEvent) (id : TimerId) : Life := events.foldl (Life.after id) .unmade

/-! ### The invariant -/

section Invariant

variable {Callback : Type}

namespace Life

/-- The timer `t` is one of this life. -/
def Fits (t : Timer Callback) : Life → Prop
  | .adding when interval => t.expiration = when ∧ t.interval = interval
  | .waiting due interval => t.expiration = due ∧ t.interval = interval
  | .expired interval _ _ => t.interval = interval
  | .unmade | .gone => False

/-- The timer has been allocated. -/
@[simp] def Alive : Life → Prop
  | .adding .. | .waiting .. | .expired .. => True
  | .unmade | .gone => False

@[simp] def IsAdding : Life → Prop
  | .adding .. => True
  | .unmade | .waiting .. | .expired .. | .gone => False

@[simp] def IsWaiting (due : Timestamp) : Life → Prop
  | .waiting due' _ => due' = due
  | .unmade | .adding .. | .expired .. | .gone => False

@[simp] def IsExpired : Life → Prop
  | .expired .. => True
  | .unmade | .adding .. | .waiting .. | .gone => False

theorem Fits.alive {t : Timer Callback} {life : Life} (h : life.Fits t) : life.Alive := by
  cases life <;> trivial

theorem IsAdding.alive {life : Life} (h : life.IsAdding) : life.Alive := by
  cases life <;> trivial

theorem IsWaiting.alive {due : Timestamp} {life : Life} (h : life.IsWaiting due) : life.Alive := by
  cases life <;> trivial

theorem IsExpired.alive {life : Life} (h : life.IsExpired) : life.Alive := by
  cases life <;> trivial

theorem IsAdding.not_isWaiting {due : Timestamp} {life : Life} (h : life.IsAdding) : ¬ life.IsWaiting due := by
  cases life <;> first | exact h.elim | exact id

theorem IsExpired.not_isWaiting {due : Timestamp} {life : Life} (h : life.IsExpired) : ¬ life.IsWaiting due := by
  cases life <;> first | exact h.elim | exact id

theorem IsWaiting.fits {due : Timestamp} {life : Life} {t : Timer Callback} (h : life.IsWaiting due)
    (hfits : life.Fits t) : t.expiration = due := by
  cases life with
  | waiting due' interval => exact hfits.1.trans h
  | _ => exact h.elim

end Life

/-- At this address there is a timer of which `P` holds. -/
def Marks (life : TimerId → Life) (P : Life → Prop) (timer : Address) : Prop :=
  ∃ sequence, P (life (timer, sequence))

/-- The heap holds the timers that are alive. -/
structure Stored (life : TimerId → Life) (q : TimerQueue Callback) : Prop where
  fresh : ∀ id, life id ≠ .unmade → id.2 ≤ q.numCreated
  allocated : ∀ id, (life id).Alive → ∃ t, q.heap id.1 = some t ∧ t.sequence = id.2
  fits : ∀ timer t, q.heap timer = some t → timer < uintptrMax ∧ (life (timer, t.sequence)).Fits t

/-- The two sets hold the timers that wait. -/
structure Queued (life : TimerId → Life) (q : TimerQueue Callback) : Prop where
  timers : ∀ due timer, toLex (due, timer) ∈ q.timers ↔ Marks life (Life.IsWaiting due) timer
  activeTimers : ∀ id, id ∈ q.activeTimers ↔ ∃ due, (life id).IsWaiting due

/-- `handleRead` holds the timers that have expired, and knows which of them have been cancelled, and called. -/
structure Held (life : TimerId → Life) (q : TimerQueue Callback) (reading : Reading) : Prop where
  held : ∀ timer, timer ∈ reading.held.map (fun it => (ofLex it).2) ↔ Marks life Life.IsExpired timer
  nodup : (reading.held.map fun it => (ofLex it).2).Nodup
  canceling : ∀ id interval cancelled called, life id = .expired interval cancelled called →
    (id ∈ q.cancelingTimers ↔ cancelled = true)
  calling : q.callingExpiredTimers = true ↔ ∃ now expired left, reading = .calling now expired left
  left : ∀ now expired left, reading = .calling now expired left → left <:+ expired ∧
    ∀ id interval cancelled called, life id = .expired interval cancelled called →
      (called = false ↔ id.1 ∈ left.map fun it => (ofLex it).2)
  clock : ∀ now left, reading = .resetting now left ∨ (∃ expired, reading = .calling now expired left) → now.valid

/-- The timerfd fires no later than a timer is due, or 100 microseconds after it was set. -/
def TimerSetting.InTime (setting : TimerSetting) (due : Timestamp) : Prop :=
  setting.alarm ≤ max due (setting.start + 100)

theorem TimerSetting.InTime.mono {setting : TimerSetting} {due due' : Timestamp} (h : setting.InTime due)
    (hle : due ≤ due') : setting.InTime due' :=
  le_trans h (max_le_max_right _ hle)

/-- What `resetTimerfd` sets. -/
theorem inTime_resetTimerfd {expiration now due : Timestamp} (h : expiration ≤ due) :
    TimerSetting.InTime ⟨now, TimerQueue.howMuchTimeFromNow expiration now⟩ due := by
  rw [TimerSetting.InTime, TimerQueue.alarm_resetTimerfd]
  exact max_le_max_right _ h

/-- The timerfd is set in time.  While `handleRead` runs it need not be, except for times before the epoch. -/
def Armed (q : TimerQueue Callback) (reading : Reading) : Prop :=
  ∀ it ∈ q.timers, (reading ≠ .idle → ¬ (ofLex it).1.valid) →
    ∃ setting, q.timerfd = some setting ∧ setting.InTime (ofLex it).1

/-- The queue, the heap and `handleRead` hold what the lives of all timers say. -/
structure Good (life : TimerId → Life) (s : TimerLoop Callback) : Prop where
  stored : Stored life s.queue
  queued : Queued life s.queue
  held : Held life s.queue s.reading
  adding : ∀ timer, timer ∈ s.made ∨ timer ∈ s.adding ↔ Marks life Life.IsAdding timer
  apart : Disjoint s.made s.adding
  armed : Armed s.queue s.reading

/-! ### One timer changes its life -/

section Change

variable {life : TimerId → Life} {id : TimerId} {new : Life} {P : Life → Prop} {q q' : TimerQueue Callback}

theorem marks_gain (hnew : P new) {timer : Address} :
    Marks (Function.update life id new) P timer ↔ timer = id.1 ∨ Marks life P timer := by
  constructor
  · rintro ⟨sequence, h⟩
    by_cases hid : (timer, sequence) = id
    · exact .inl (congrArg Prod.fst hid)
    · rw [Function.update_of_ne hid] at h
      exact .inr ⟨sequence, h⟩
  · rintro (rfl | ⟨sequence, h⟩)
    · exact ⟨id.2, by rwa [Prod.mk.eta, Function.update_self]⟩
    · by_cases hid : (timer, sequence) = id
      · exact ⟨sequence, by rwa [hid, Function.update_self]⟩
      · exact ⟨sequence, by rwa [Function.update_of_ne hid]⟩

theorem marks_lose (hnew : ¬ P new) (honly : ∀ sequence, P (life (id.1, sequence)) → sequence = id.2)
    {timer : Address} : Marks (Function.update life id new) P timer ↔ timer ≠ id.1 ∧ Marks life P timer := by
  constructor
  · rintro ⟨sequence, h⟩
    by_cases hid : (timer, sequence) = id
    · rw [hid, Function.update_self] at h
      exact absurd h hnew
    · rw [Function.update_of_ne hid] at h
      refine ⟨?_, sequence, h⟩
      rintro rfl
      exact hid (Prod.ext rfl (honly sequence h))
  · rintro ⟨htimer, sequence, h⟩
    have hid : (timer, sequence) ≠ id := fun hid => htimer (congrArg Prod.fst hid)
    exact ⟨sequence, by rwa [Function.update_of_ne hid]⟩

theorem marks_keep (hkeep : P new ↔ P (life id)) {timer : Address} :
    Marks (Function.update life id new) P timer ↔ Marks life P timer := by
  refine exists_congr fun sequence => ?_
  by_cases hid : (timer, sequence) = id
  · rw [hid, Function.update_self, hkeep]
  · rw [Function.update_of_ne hid]

/-- At one address there is one timer. -/
theorem Stored.sequence_eq (h : Stored life q) {timer : Address} {sequence : ℕ} {t : Timer Callback}
    (ht : q.heap timer = some t) (halive : (life (timer, sequence)).Alive) : sequence = t.sequence := by
  obtain ⟨t', ht', hsequence⟩ := h.allocated _ halive
  obtain rfl : t = t' := Option.some.inj (ht.symm.trans ht')
  exact hsequence.symm

theorem Stored.change (h : Stored life q) (hold : ∀ t, q.heap id.1 = some t → t.sequence = id.2)
    (hother : ∀ timer, timer ≠ id.1 → q'.heap timer = q.heap timer)
    (hcount : q.numCreated ≤ q'.numCreated) (hid : id.2 ≤ q'.numCreated)
    (hnew : (∃ t, q'.heap id.1 = some t ∧ t.sequence = id.2 ∧ id.1 < uintptrMax ∧ new.Fits t) ∨
      q'.heap id.1 = none ∧ ¬ new.Alive) :
    Stored (Function.update life id new) q' := by
  constructor
  · intro id' hmade
    by_cases hsame : id' = id
    · rwa [hsame]
    · rw [Function.update_of_ne hsame] at hmade
      exact (h.fresh id' hmade).trans hcount
  · intro id' halive
    by_cases hsame : id' = id
    · subst hsame
      rw [Function.update_self] at halive
      rcases hnew with ⟨t, ht, hsequence, -⟩ | ⟨-, hdead⟩
      · exact ⟨t, ht, hsequence⟩
      · exact absurd halive hdead
    · rw [Function.update_of_ne hsame] at halive
      obtain ⟨t, ht, hsequence⟩ := h.allocated id' halive
      have haddress : id'.1 ≠ id.1 := by
        intro heq
        exact hsame (Prod.ext heq (hsequence.symm.trans (hold t (heq ▸ ht))))
      exact ⟨t, (hother _ haddress).trans ht, hsequence⟩
  · intro timer t ht
    by_cases haddress : timer = id.1
    · subst haddress
      rcases hnew with ⟨t', ht', hsequence, hlt, hfits⟩ | ⟨hnone, -⟩
      · obtain rfl : t = t' := Option.some.inj (ht.symm.trans ht')
        rw [hsequence, Prod.mk.eta, Function.update_self]
        exact ⟨hlt, hfits⟩
      · exact absurd (hnone.symm.trans ht) (by simp)
    · rw [hother timer haddress] at ht
      rw [Function.update_of_ne fun heq => haddress (congrArg Prod.fst heq)]
      exact h.fits timer t ht

theorem Queued.keep (h : Queued life q) (hnew : ∀ due, new.IsWaiting due ↔ (life id).IsWaiting due)
    (htimers : q'.timers = q.timers) (hactive : q'.activeTimers = q.activeTimers) :
    Queued (Function.update life id new) q' := by
  constructor
  · intro due timer
    rw [htimers, marks_keep (hnew due)]
    exact h.timers due timer
  · intro id'
    rw [hactive, h.activeTimers]
    by_cases hid : id' = id
    · rw [hid, Function.update_self]
      exact exists_congr fun due => (hnew due).symm
    · rw [Function.update_of_ne hid]

theorem Queued.gain (h : Queued life q) {due : Timestamp} {interval : ℚ} (hold : ∀ due, ¬ (life id).IsWaiting due)
    (htimers : q'.timers = insert (toLex (due, id.1)) q.timers) (hactive : q'.activeTimers = insert id q.activeTimers) :
    Queued (Function.update life id (.waiting due interval)) q' := by
  constructor
  · intro due' timer
    rw [htimers, Finset.mem_insert, h.timers]
    by_cases hdue : due = due'
    · rw [marks_gain (show (Life.waiting due interval).IsWaiting due' from hdue), hdue]
      simp
    · rw [marks_keep (iff_of_false (show ¬ (Life.waiting due interval).IsWaiting due' from hdue) (hold due'))]
      simp [Ne.symm hdue]
  · intro id'
    rw [hactive, Finset.mem_insert, h.activeTimers]
    by_cases hid : id' = id
    · rw [hid, Function.update_self]
      exact iff_of_true (.inl rfl) ⟨due, rfl⟩
    · rw [Function.update_of_ne hid]
      exact or_iff_right hid

theorem Queued.lose (h : Queued life q) {due : Timestamp} (hnew : ∀ due, ¬ new.IsWaiting due)
    (hold : (life id).IsWaiting due)
    (honly : ∀ due sequence, (life (id.1, sequence)).IsWaiting due → sequence = id.2)
    (htimers : q'.timers = q.timers.erase (toLex (due, id.1))) (hactive : q'.activeTimers = q.activeTimers.erase id) :
    Queued (Function.update life id new) q' := by
  constructor
  · intro due' timer
    rw [htimers, Finset.mem_erase, h.timers, marks_lose (hnew due') (honly due')]
    by_cases hdue : due' = due
    · simp [hdue]
    · simp only [ne_eq, EmbeddingLike.apply_eq_iff_eq, Prod.mk.injEq, hdue, false_and, not_false_eq_true, true_and]
      refine (and_iff_right_of_imp ?_).symm
      rintro ⟨sequence, hlife⟩ rfl
      -- the timer at this address is due at another time
      obtain rfl := honly due' sequence hlife
      cases hid : life id with
      | waiting due'' interval =>
        rw [Prod.mk.eta, hid] at hlife
        rw [hid] at hold
        exact hdue (hlife.symm.trans hold)
      | _ => exact absurd hold (by simp [hid])
  · intro id'
    rw [hactive, Finset.mem_erase, h.activeTimers]
    by_cases hid : id' = id
    · rw [hid, Function.update_self]
      exact iff_of_false (fun hne => hne.1 rfl) fun ⟨due, hdue⟩ => hnew due hdue
    · rw [Function.update_of_ne hid]
      exact and_iff_right hid

theorem Armed.insert {reading : Reading} (h : Armed q reading) {due now : Timestamp} {timer : Address}
    (htimers : q'.timers = insert (toLex (due, timer)) q.timers)
    (htimerfd : q'.timerfd = if (TimerQueue.first q.timers).all fun it => due < (ofLex it).1 then
      some ⟨now, TimerQueue.howMuchTimeFromNow due now⟩ else q.timerfd) :
    Armed q' reading := by
  intro it hit hinvalid
  rw [htimers, Finset.mem_insert] at hit
  rw [htimerfd]
  by_cases hfirst : (TimerQueue.first q.timers).all fun it => due < (ofLex it).1
  · rw [if_pos hfirst]
    refine ⟨_, rfl, inTime_resetTimerfd ?_⟩
    rcases hit with rfl | hit
    · exact le_rfl
    · exact (TimerQueue.first_all.mp hfirst it hit).le
  · rw [if_neg hfirst]
    rcases hit with rfl | hit
    · -- another timer is due before this one
      rw [TimerQueue.first_all] at hfirst
      push Not at hfirst
      obtain ⟨it', hit', hle⟩ := hfirst
      obtain ⟨setting, hsetting, hintime⟩ := h it' hit' fun hreading hvalid =>
        hinvalid hreading (lt_of_lt_of_le hvalid hle)
      exact ⟨setting, hsetting, hintime.mono hle⟩
    · exact h it hit hinvalid

theorem Held.keep {reading : Reading} (h : Held life q reading) (hnew : ¬ new.IsExpired) (hold : ¬ (life id).IsExpired)
    (hcanceling : ∀ id, (life id).IsExpired → (id ∈ q'.cancelingTimers ↔ id ∈ q.cancelingTimers))
    (hcalling : q'.callingExpiredTimers = q.callingExpiredTimers) :
    Held (Function.update life id new) q' reading := by
  have hother : ∀ id' interval cancelled called,
      Function.update life id new id' = .expired interval cancelled called →
        life id' = .expired interval cancelled called := by
    intro id' interval cancelled called hlife
    by_cases hid : id' = id
    · rw [hid, Function.update_self] at hlife
      rw [hlife] at hnew
      exact absurd trivial hnew
    · rwa [Function.update_of_ne hid] at hlife
  refine ⟨?_, h.nodup, ?_, ?_, ?_, h.clock⟩
  · intro timer
    rw [marks_keep (iff_of_false hnew hold)]
    exact h.held timer
  · intro id' interval cancelled called hlife
    rw [hcanceling id' (by simp [hother _ _ _ _ hlife])]
    exact h.canceling id' interval cancelled called (hother _ _ _ _ hlife)
  · rw [hcalling]
    exact h.calling
  · intro now expired left hreading
    obtain ⟨hsuffix, hleft⟩ := h.left now expired left hreading
    exact ⟨hsuffix, fun id' interval cancelled called hlife => hleft _ _ _ _ (hother _ _ _ _ hlife)⟩

theorem Held.strike {reading : Reading} (h : Held life q reading) {interval : ℚ} {cancelled called : Bool}
    (hold : life id = .expired interval cancelled called)
    (hcanceling : q'.cancelingTimers = insert id q.cancelingTimers)
    (hcalling : q'.callingExpiredTimers = q.callingExpiredTimers) :
    Held (Function.update life id (.expired interval true called)) q' reading := by
  refine ⟨?_, h.nodup, ?_, ?_, ?_, h.clock⟩
  · intro timer
    rw [marks_keep (by simp [hold])]
    exact h.held timer
  · intro id' interval' cancelled' called' hlife
    rw [hcanceling, Finset.mem_insert]
    by_cases hid : id' = id
    · rw [hid, Function.update_self, Life.expired.injEq] at hlife
      exact iff_of_true (.inl hid) hlife.2.1.symm
    · rw [Function.update_of_ne hid] at hlife
      rw [or_iff_right hid]
      exact h.canceling _ _ _ _ hlife
  · rw [hcalling]
    exact h.calling
  · intro now expired left hreading
    obtain ⟨hsuffix, hleft⟩ := h.left now expired left hreading
    refine ⟨hsuffix, fun id' interval' cancelled' called' hlife => ?_⟩
    by_cases hid : id' = id
    · rw [hid, Function.update_self, Life.expired.injEq] at hlife
      obtain ⟨-, -, rfl⟩ := hlife
      exact hid ▸ hleft _ _ _ _ hold
    · rw [Function.update_of_ne hid] at hlife
      exact hleft _ _ _ _ hlife

/-- `handleRead` calls the next timer. -/
theorem Held.call {now : Timestamp} {expired left : List TimerQueue.Entry} {it : TimerQueue.Entry}
    (h : Held life q (.calling now expired (it :: left))) {interval : ℚ} {cancelled called : Bool}
    (hold : life id = .expired interval cancelled called) (haddress : (ofLex it).2 = id.1)
    (honly : ∀ sequence, (life (id.1, sequence)).Alive → sequence = id.2) :
    Held (Function.update life id (.expired interval cancelled true)) q (.calling now expired left) := by
  obtain ⟨hsuffix, hleft⟩ := h.left now expired (it :: left) rfl
  have hnodup : ((it :: left).map fun it => (ofLex it).2).Nodup := h.nodup.sublist (hsuffix.sublist.map _)
  rw [List.map_cons, List.nodup_cons] at hnodup
  refine ⟨?_, h.nodup, ?_, ?_, ?_, ?_⟩
  · intro timer
    rw [marks_keep (by simp [hold])]
    exact h.held timer
  · intro id' interval' cancelled' called' hlife
    by_cases hid : id' = id
    · rw [hid, Function.update_self, Life.expired.injEq] at hlife
      obtain ⟨-, rfl, -⟩ := hlife
      exact hid ▸ h.canceling _ _ _ _ hold
    · rw [Function.update_of_ne hid] at hlife
      exact h.canceling _ _ _ _ hlife
  · exact iff_of_true (h.calling.mpr ⟨_, _, _, rfl⟩) ⟨_, _, _, rfl⟩
  · intro now' expired' left' heq
    cases heq
    refine ⟨(List.suffix_cons it left).trans hsuffix, fun id' interval' cancelled' called' hlife => ?_⟩
    by_cases hid : id' = id
    · rw [hid, Function.update_self, Life.expired.injEq] at hlife
      obtain ⟨-, -, rfl⟩ := hlife
      refine iff_of_false (by simp) fun hmem => hnodup.1 ?_
      rwa [haddress, ← hid]
    · rw [Function.update_of_ne hid] at hlife
      rw [hleft _ _ _ _ hlife, List.map_cons, List.mem_cons]
      refine or_iff_right fun heq => hid ?_
      -- no other timer is at this address
      have hsame : id'.1 = id.1 := heq.trans haddress
      refine Prod.ext hsame (honly id'.2 ?_)
      rw [← hsame, Prod.mk.eta, hlife]
      trivial
  · rintro now' left' (heq | ⟨expired', heq⟩)
    · cases heq
    · cases heq
      exact h.clock now _ (.inr ⟨_, rfl⟩)

/-- `reset` is done with the next timer. -/
theorem Held.settle {now : Timestamp} {left : List TimerQueue.Entry} {it : TimerQueue.Entry}
    (h : Held life q (.resetting now (it :: left))) (haddress : (ofLex it).2 = id.1) (hnew : ¬ new.IsExpired)
    (honly : ∀ sequence, (life (id.1, sequence)).Alive → sequence = id.2)
    (hcanceling : q'.cancelingTimers = q.cancelingTimers)
    (hcalling : q'.callingExpiredTimers = q.callingExpiredTimers) :
    Held (Function.update life id new) q' (.resetting now left) := by
  have hnodup := h.nodup
  simp only [Reading.held, List.map_cons, List.nodup_cons] at hnodup
  refine ⟨?_, hnodup.2, ?_, ?_, ?_, ?_⟩
  · intro timer
    rw [marks_lose hnew fun sequence hexpired => honly sequence hexpired.alive, ← h.held timer]
    simp only [Reading.held, List.map_cons, List.mem_cons, haddress]
    constructor
    · intro hmem
      refine ⟨?_, .inr hmem⟩
      rintro rfl
      exact hnodup.1 (haddress ▸ hmem)
    · rintro ⟨hne, rfl | hmem⟩
      · exact absurd rfl hne
      · exact hmem
  · intro id' interval cancelled called hlife
    by_cases hid : id' = id
    · rw [hid, Function.update_self] at hlife
      exact absurd (by simp [hlife]) hnew
    · rw [Function.update_of_ne hid] at hlife
      rw [hcanceling]
      exact h.canceling _ _ _ _ hlife
  · rw [hcalling, h.calling]
    simp
  · intro now' expired left' heq
    cases heq
  · rintro now' left' (heq | ⟨expired, heq⟩)
    · cases heq
      exact h.clock now _ (.inl rfl)
    · cases heq

end Change

end Invariant

end ChatService.Muduo
