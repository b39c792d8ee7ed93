import ChatService.Muduo.TimerInvariant

/-!
# What timers do in every run

* `expired_timers_run_in_order` — `handleRead` calls the timers that are due, in the order of their times, each once.
* `answer_may_dangle` — the thread that added a timer may find it deleted when it reads its number.
* `cancelled_timers_stay_silent` — a timer that has been cancelled is called by nobody but the `handleRead` that had
  taken it out before, and one that does not repeat is called once.
-/

namespace ChatService.Muduo

variable {Callback : Type} {life : TimerId → Life} {s s' : TimerLoop Callback} {event : TimerEvent} {id : TimerId}
  {before after events : List TimerEvent}

/-! ### Runs, event by event -/

theorem TimerRun.last (h : TimerRun (events ++ [event]) s') :
    ∃ s : TimerLoop Callback, TimerRun events s ∧ TimerStep s event s' := by
  generalize hall : events ++ [event] = all at h
  cases h with
  | init => exact absurd hall (by simp)
  | @step events' s _ event' hrun hstep =>
    obtain ⟨rfl, heq⟩ := List.append_inj' hall rfl
    obtain rfl := List.singleton_inj.mp heq
    exact ⟨s, hrun, hstep⟩

theorem TimerRun.start (h : TimerRun (before ++ after) s') : ∃ s : TimerLoop Callback, TimerRun before s := by
  induction after using List.reverseRecOn generalizing s' with
  | nil => exact ⟨s', by simpa using h⟩
  | append_singleton after event ih =>
    rw [← List.append_assoc] at h
    obtain ⟨s, hrun, -⟩ := h.last
    exact ih hrun

/-- The step that an event stands for. -/
theorem TimerRun.split (h : TimerRun (before ++ event :: after) s') :
    ∃ s₁ s₂ : TimerLoop Callback, TimerRun before s₁ ∧ TimerStep s₁ event s₂ := by
  rw [← List.singleton_append, ← List.append_assoc] at h
  obtain ⟨s₂, hrun⟩ := h.start
  obtain ⟨s₁, hrun, hstep⟩ := hrun.last
  exact ⟨s₁, s₂, hrun, hstep⟩

/-- What is true at the beginning of a stretch and kept by each of its events is true at its end. -/
theorem TimerRun.stretch {K : List TimerEvent → TimerLoop Callback → Prop} (hstart : ∀ s, TimerRun before s → K [] s)
    (hstep : ∀ after s event s', TimerRun (before ++ after) s → K after s → TimerStep s event s' →
      K (after ++ [event]) s') (h : TimerRun (before ++ after) s) : K after s := by
  induction after using List.reverseRecOn generalizing s with
  | nil => exact hstart s (by simpa using h)
  | append_singleton after event ih =>
    rw [← List.append_assoc] at h
    obtain ⟨s₁, hrun, hlast⟩ := h.last
    exact hstep after s₁ event s hrun (ih hrun) hlast

/-- The timers that have been called, in order. -/
def ranTimers (events : List TimerEvent) : List TimerId :=
  events.filterMap fun event =>
    match event with
    | .ran id => some id
    | _ => none

theorem ranTimers_append (events events' : List TimerEvent) :
    ranTimers (events ++ events') = ranTimers events ++ ranTimers events' := List.filterMap_append ..

theorem mem_ranTimers : id ∈ ranTimers events ↔ .ran id ∈ events := by
  rw [ranTimers, List.mem_filterMap]
  constructor
  · rintro ⟨event, hevent, heq⟩
    cases event with
    | ran id' =>
      obtain rfl := Option.some.inj heq
      exact hevent
    | _ => cases heq
  · intro hevent
    exact ⟨_, hevent, rfl⟩

/-! ### Single steps -/

/-- The number of a new timer is a new number. -/
theorem Good.created {when : Timestamp} {interval : ℚ} (h : Good life s)
    (hstep : TimerStep s (.created id when interval) s') : life id = .unmade := by
  cases hstep with
  | newTimer callback _ _ hfree hlt =>
    by_contra hmade
    exact absurd (h.stored.fresh _ hmade) (by simp)

theorem Good.ran (h : Good life s) (hstep : TimerStep s (.ran id) s') :
    ∃ interval cancelled, life id = .expired interval cancelled false := by
  cases hstep with
  | @run now expired left it _ hreading hid =>
    obtain ⟨hsuffix, hleft⟩ := h.held.left now expired _ hreading
    obtain ⟨t, ht, rfl, hexpired, -⟩ := h.next_expired (by rw [hreading]; exact hsuffix.subset List.mem_cons_self) hid
    cases hlife : life ((ofLex it).2, t.sequence) with
    | expired interval cancelled called =>
      have hcalled := (hleft _ _ _ _ hlife).mpr (by simp)
      exact ⟨interval, cancelled, by rw [hcalled]⟩
    | _ => simp [hlife] at hexpired

theorem Good.read {now : Timestamp} {ids : List TimerId} (h : Good life s)
    (hstep : TimerStep s (.read now ids) s') : ¬ (life id).IsExpired := by
  cases hstep with
  | handleRead hreading hnow hq => exact h.idle hreading id

/-! ### The timers that are due -/

theorem isWaiting_unique {life : Life} {due due' : Timestamp} (h : life.IsWaiting due) (h' : life.IsWaiting due') :
    due = due' := by
  cases life with
  | waiting due'' interval => exact h.symm.trans h'
  | _ => exact h.elim

theorem Good.due_of_timerId? (h : Good life s) {it : TimerQueue.Entry} (hit : it ∈ s.queue.timers)
    (hid : s.queue.timerId? it = some id) : id.1 = (ofLex it).2 ∧ (life id).IsWaiting (ofLex it).1 := by
  rw [TimerQueue.timerId?, Option.map_eq_some_iff] at hid
  obtain ⟨t, ht, rfl⟩ := hid
  have hmarks := (h.queued.timers (ofLex it).1 (ofLex it).2).mp hit
  exact ⟨rfl, h.stored.of_marks ht hmarks fun _ => Life.IsWaiting.alive⟩

/-- What `handleRead` takes out. -/
theorem Good.taken (h : Good life s) {now : Timestamp} {ids : List TimerId}
    (hstep : TimerStep s (.read now ids) s') :
    (∀ id, id ∈ ids ↔ ∃ due, (life id).IsWaiting due ∧ due ≤ now) ∧ ids.Nodup ∧
      ids.Pairwise fun id id' => ∀ due due', (life id).IsWaiting due → (life id').IsWaiting due' → due ≤ due' := by
  cases hstep with
  | @handleRead _ expired q hreading hnow hq =>
    rw [TimerQueue.startCalling_eq h.paired h.address_lt, Option.some.injEq, Prod.mk.injEq] at hq
    obtain ⟨rfl, -⟩ := hq
    have hmem : ∀ it ∈ s.queue.expiredAt now, it ∈ s.queue.timers := fun it hit =>
      ((TimerQueue.mem_expiredAt h.address_lt).mp hit).1
    have hsorted : (s.queue.expiredAt now).Pairwise fun it it' => it ≤ it' := Finset.pairwise_sort _ _
    refine ⟨fun id => h.mem_expired, ?_, ?_⟩
    · have hnodup : (s.queue.expiredAt now).Nodup := Finset.sort_nodup _ _
      refine List.pairwise_filterMap.mpr (List.Pairwise.imp_of_mem ?_ hnodup)
      intro it it' hit hit' hne id hid id' hid'
      rintro rfl
      obtain ⟨haddress, hdue⟩ := h.due_of_timerId? (hmem it hit) hid
      obtain ⟨haddress', hdue'⟩ := h.due_of_timerId? (hmem it' hit') hid'
      exact hne (Prod.ext (isWaiting_unique hdue hdue') (haddress.symm.trans haddress'))
    · refine List.pairwise_filterMap.mpr (List.Pairwise.imp_of_mem ?_ hsorted)
      intro it it' hit hit' hle id hid id' hid' due due' hdue hdue'
      rw [isWaiting_unique hdue (h.due_of_timerId? (hmem it hit) hid).2,
        isWaiting_unique hdue' (h.due_of_timerId? (hmem it' hit') hid').2]
      exact Prod.Lex.monotone_fst _ _ hle

/-- What `handleRead` holds is where it was as long as it has not been settled. -/
theorem timerId?_eq {life' : TimerId → Life} (h : Good life s) (h' : Good life' s')
    (hkeep : ∀ id, (life id).IsExpired → (life' id).IsExpired) {it : TimerQueue.Entry} (hit : it ∈ s.reading.held) :
    s'.queue.timerId? it = s.queue.timerId? it := by
  obtain ⟨t, ht, hexpired⟩ := h.stored.of_marked ((h.held.held (ofLex it).2).mp (List.mem_map_of_mem hit))
    fun _ => Life.IsExpired.alive
  obtain ⟨t', ht', hsequence⟩ := h'.stored.allocated _ (hkeep _ hexpired).alive
  simp only at ht' hsequence
  simp [TimerQueue.timerId?, ht, ht', hsequence]

/-- How far `handleRead` has come with the timers `ids`. -/
def CalledSoFar (ids : List TimerId) (after : List TimerEvent) (s : TimerLoop Callback) : Prop :=
  match s.reading with
  | .calling _ _ left => ranTimers after ++ left.filterMap s.queue.timerId? = ids ∧ .called ∉ after
  | .resetting _ _ | .idle => ranTimers after = ids

/-- An event in between. -/
theorem CalledSoFar.between {life' : TimerId → Life} {ids : List TimerId} (h : CalledSoFar ids after s)
    (hgood : Good life s) (hgood' : Good life' s') (hreading : s'.reading = s.reading)
    (hkeep : ∀ id, (life id).IsExpired → (life' id).IsExpired) (hran : ranTimers [event] = [])
    (hcalled : event ≠ .called) : CalledSoFar ids (after ++ [event]) s' := by
  rw [CalledSoFar, hreading, ranTimers_append, hran, List.append_nil]
  rw [CalledSoFar] at h
  cases hs : s.reading with
  | calling now expired left =>
    rw [hs] at h
    refine ⟨?_, by simpa [hcalled.symm] using h.2⟩
    have hsuffix := (hgood.held.left now expired left hs).1
    refine Eq.trans (congrArg _ (List.filterMap_congr fun it hit => ?_)) h.1
    refine timerId?_eq hgood hgood' hkeep ?_
    rw [hs]
    exact hsuffix.subset hit
  | resetting now left => simpa [hs] using h
  | idle => simpa [hs] using h

theorem calledSoFar_read {now : Timestamp} {ids : List TimerId} (hgood : Good life s)
    (hstep : TimerStep s (.read now ids) s') : CalledSoFar ids [] s' := by
  cases hstep with
  | handleRead hreading hnow hq =>
    rw [TimerQueue.startCalling_eq hgood.paired hgood.address_lt, Option.some.injEq, Prod.mk.injEq] at hq
    obtain ⟨rfl, rfl⟩ := hq
    exact ⟨rfl, by simp⟩

theorem CalledSoFar.step {ids : List TimerId} (h : CalledSoFar ids after s) (hgood : Good life s)
    (hnoRead : ∀ now ids, event ≠ .read now ids) (hstep : TimerStep s event s') :
    CalledSoFar ids (after ++ [event]) s' := by
  have hgood' := hgood.step hstep
  cases hstep with
  | @newTimer timer callback when interval hfree hlt =>
    refine h.between hgood hgood' rfl ?_ rfl (by simp)
    intro id hexpired
    have hunmade := hgood.created (.newTimer callback when interval hfree hlt)
    have hid : (timer, s.queue.numCreated + 1) ≠ id := by
      rintro rfl
      simp [hunmade] at hexpired
    rwa [Life.after, if_neg hid]
  | runInLoop hmade => exact h.between hgood hgood' rfl (fun _ => id) rfl (by simp)
  | answer htimer ht => exact h.between hgood hgood' rfl (fun _ => id) rfl (by simp)
  | addTimerInLoop now hopen hadding ht hq =>
    refine h.between hgood hgood' rfl ?_ rfl (by simp)
    intro id hexpired
    rw [Life.after]
    split_ifs
    · cases hlife : life id <;> simp_all [Life.add]
    · exact hexpired
  | cancelInLoop hopen hq =>
    refine h.between hgood hgood' rfl ?_ rfl (by simp)
    intro id hexpired
    rw [Life.after]
    split_ifs
    · cases hlife : life id <;> simp_all [Life.cancel]
    · exact hexpired
  | handleRead hreading hnow hq => exact absurd rfl (hnoRead _ _)
  | run hreading hid =>
    rw [CalledSoFar, hreading] at h
    obtain ⟨hids, hnotCalled⟩ := h
    rw [List.filterMap_cons_some hid] at hids
    refine ⟨?_, by simpa using hnotCalled⟩
    rw [ranTimers_append, List.append_assoc]
    exact hids
  | called hreading =>
    rw [CalledSoFar, hreading] at h
    rw [CalledSoFar, ranTimers_append]
    simpa [ranTimers] using h.1
  | reset hreading hid hq =>
    rw [CalledSoFar, hreading] at h
    rw [CalledSoFar, ranTimers_append]
    exact (List.append_nil _).trans h
  | armNext later hreading hq =>
    rw [CalledSoFar, hreading] at h
    rw [CalledSoFar, ranTimers_append]
    exact (List.append_nil _).trans h

/-- **Timers are called when they are due, in order.**  When the timerfd is read, `handleRead` takes out exactly the
timers that wait and are due, each once and in the order of their times; whatever the callbacks add and cancel and
whatever other threads create meanwhile, it calls these one after another and no others, and has called all of them
before it adds any of them again. -/
theorem expired_timers_run_in_order {now : Timestamp} {ids : List TimerId}
    (hrun : TimerRun (before ++ .read now ids :: after) s) :
    (∀ id, id ∈ ids ↔ ∃ due, (lives before id).IsWaiting due ∧ due ≤ now) ∧ ids.Nodup ∧
      (ids.Pairwise fun id id' => ∀ due due', (lives before id).IsWaiting due → (lives before id').IsWaiting due' →
        due ≤ due') ∧
      ((∀ now' ids', .read now' ids' ∉ after) → ranTimers after <+: ids ∧
        (.called ∈ after → ranTimers after = ids)) := by
  obtain ⟨s₁, s₂, hbefore, hstep⟩ := hrun.split
  obtain ⟨hids, hnodup, hsorted⟩ := (good_of_run hbefore).taken hstep
  refine ⟨hids, hnodup, hsorted, fun hnoRead => ?_⟩
  rw [← List.singleton_append, ← List.append_assoc] at hrun
  have hsofar : (∀ now' ids', .read now' ids' ∉ after) → CalledSoFar ids after s := by
    refine TimerRun.stretch (K := fun after s => (∀ now' ids', .read now' ids' ∉ after) → CalledSoFar ids after s)
      ?_ ?_ hrun
    · intro s hstart _
      obtain ⟨s₀, hrun₀, hread⟩ := hstart.last
      exact calledSoFar_read (good_of_run hrun₀) hread
    · intro after s event s' hrun hsofar hstep hnoRead
      refine (hsofar fun now' ids' hmem => hnoRead now' ids' (List.mem_append_left _ hmem)).step (good_of_run hrun) ?_
        hstep
      rintro now' ids' rfl
      exact hnoRead now' ids' (by simp)
  have hsofar := hsofar hnoRead
  rw [CalledSoFar] at hsofar
  cases hreading : s.reading with
  | calling now expired left =>
    rw [hreading] at hsofar
    exact ⟨⟨_, hsofar.1⟩, fun hcalled => absurd hcalled hsofar.2⟩
  | resetting now left =>
    rw [hreading] at hsofar
    exact ⟨hsofar ▸ List.prefix_rfl, fun _ => hsofar⟩
  | idle =>
    rw [hreading] at hsofar
    exact ⟨hsofar ▸ List.prefix_rfl, fun _ => hsofar⟩

theorem oneTimer_expires : oneTimer.queue.expiredAt 2000 = [toLex (1000, 64)] := by decide +kernel

/-- It is called when it is due. -/
theorem oneTimer_is_called : ∃ s : TimerLoop Unit,
    TimerRun (oneTimerEvents ++ [.read 2000 [(64, 1)], .ran (64, 1), .called]) s ∧
      ranTimers [.ran (64, 1), .called] = [(64, 1)] := by
  have hgood := good_of_run oneTimer_reached
  have hstart : oneTimer.queue.startCalling 2000 = _ := TimerQueue.startCalling_eq hgood.paired hgood.address_lt
  rw [oneTimer_expires] at hstart
  have hread := oneTimer_reached.step (.handleRead rfl (by decide) hstart)
  have hran := hread.step (.run rfl rfl)
  have hcalled := hran.step (.called rfl)
  have hsplit : TimerRun (oneTimerEvents ++ .read 2000 [(64, 1)] :: [.ran (64, 1), .called]) _ := hcalled
  exact ⟨_, hcalled, ((expired_timers_run_in_order hsplit).2.2.2 (by simp)).2 (by simp)⟩

/-- A thread that added a timer may come too late for its answer: the timer has been called and deleted. -/
theorem answer_may_dangle : ∃ s : TimerLoop Unit,
    TimerRun [.created (64, 1) 1000 0, .handedOver 64, .added (64, 1), .read 2000 [(64, 1)], .ran (64, 1), .called,
      .settled 2000 (64, 1)] s ∧ 64 ∈ s.answering ∧ s.queue.heap 64 = none := by
  have hgood := good_of_run oneTimer_added
  have hstart : oneTimer.queue.startCalling 2000 = _ := TimerQueue.startCalling_eq hgood.paired hgood.address_lt
  rw [oneTimer_expires] at hstart
  have hread := oneTimer_added.step (.handleRead rfl (by decide) hstart)
  have hran := hread.step (.run rfl rfl)
  have hcalled := hran.step (.called rfl)
  have hsettled := hcalled.step (.reset rfl rfl rfl)
  exact ⟨_, hsettled, Multiset.mem_cons_self 64 0, rfl⟩

/-! ### The last call -/

namespace Life

/-- The timer will not wait again after its next call. -/
def Last : Life → Prop
  | .unmade => False
  | .adding _ interval | .waiting _ interval => interval ≤ 0
  | .expired interval cancelled _ => interval ≤ 0 ∨ cancelled = true
  | .gone => True

/-- How often a timer may still be called that does not wait again. -/
def callsLeft : Life → ℕ
  | .unmade | .adding .. | .waiting .. | .expired _ _ false => 1
  | .expired _ _ true | .gone => 0

/-- The timer has been cancelled. -/
def Cancelled : Life → Prop
  | .gone => True
  | .expired _ cancelled _ => cancelled = true
  | .unmade | .adding .. | .waiting .. => False

variable {life : Life} {now : Timestamp}

theorem Last.add (h : life.Last) : life.add.Last ∧ life.add.callsLeft ≤ life.callsLeft := by
  cases life with
  | adding when interval => exact ⟨h, le_rfl⟩
  | _ => exact ⟨h, le_rfl⟩

theorem Last.cancel (h : life.Last) : life.cancel.Last ∧ life.cancel.callsLeft ≤ life.callsLeft := by
  cases life with
  | waiting due interval => exact ⟨trivial, Nat.zero_le _⟩
  | expired interval cancelled called =>
    refine ⟨.inr rfl, ?_⟩
    cases called <;> exact le_rfl
  | _ => exact ⟨h, le_rfl⟩

theorem Last.expire (h : life.Last) : (life.expire now).Last ∧ (life.expire now).callsLeft ≤ life.callsLeft := by
  cases life with
  | waiting due interval =>
    rw [Life.expire]
    split_ifs
    · exact ⟨.inl h, le_rfl⟩
    · exact ⟨h, le_rfl⟩
  | _ => exact ⟨h, le_rfl⟩

/-- It is not added again. -/
theorem Last.settle (h : life.Last) : (life.settle now).Last ∧ (life.settle now).callsLeft ≤ life.callsLeft := by
  cases life with
  | expired interval cancelled called =>
    have hend : ¬ (0 < interval ∧ cancelled = false) := by
      rintro ⟨hpos, rfl⟩
      exact h.elim (fun hle => absurd hpos (not_lt.mpr hle)) (by simp)
    rw [Life.settle, if_neg hend]
    exact ⟨trivial, Nat.zero_le _⟩
  | _ => exact ⟨h, le_rfl⟩

theorem Cancelled.last (h : life.Cancelled) : life.Last := by
  cases life with
  | expired interval cancelled called => exact .inr h
  | gone => trivial
  | _ => exact h.elim

theorem Cancelled.callsLeft_eq (h : life.Cancelled) (hexpired : ¬ life.IsExpired) : life.callsLeft = 0 := by
  cases life with
  | expired interval cancelled called => exact absurd trivial hexpired
  | gone => rfl
  | _ => exact h.elim

theorem Cancelled.add (h : life.Cancelled) : life.add.Cancelled := by
  cases life <;> exact h

theorem Cancelled.cancel (h : life.Cancelled) : life.cancel.Cancelled := by
  cases life <;> first | exact h | exact h.elim | exact rfl

theorem Cancelled.expire (h : life.Cancelled) : (life.expire now).Cancelled := by
  cases life <;> first | exact h | exact h.elim

theorem Cancelled.call (h : life.Cancelled) : life.call.Cancelled := by
  cases life <;> exact h

theorem Cancelled.settle (h : life.Cancelled) : (life.settle now).Cancelled := by
  cases life with
  | expired interval cancelled called =>
    obtain rfl : cancelled = true := h
    rw [Life.settle, if_neg (by simp)]
    trivial
  | _ => exact h

theorem callsLeft_le (life : Life) : life.callsLeft ≤ 1 := by
  cases life with
  | expired interval cancelled called => cases called <;> simp [callsLeft]
  | _ => simp [callsLeft]

end Life

/-- What keeps a timer from being called once more is kept. -/
theorem Good.last_step (h : Good life s) (hstep : TimerStep s event s') (hlast : (life id).Last) :
    ((life id).after id event).Last ∧
      (ranTimers [event]).count id + ((life id).after id event).callsLeft ≤ (life id).callsLeft := by
  cases event with
  | created id' when interval =>
    have hid : id' ≠ id := by
      rintro rfl
      rw [h.created hstep] at hlast
      exact hlast
    simpa [Life.after, hid, ranTimers] using hlast
  | added id' =>
    by_cases hid : id' = id
    · simpa [Life.after, hid, ranTimers] using hlast.add
    · simpa [Life.after, hid, ranTimers] using hlast
  | cancelled id' =>
    by_cases hid : id' = id
    · simpa [Life.after, hid, ranTimers] using hlast.cancel
    · simpa [Life.after, hid, ranTimers] using hlast
  | read now ids => simpa [Life.after, ranTimers] using hlast.expire
  | ran id' =>
    by_cases hid : id' = id
    · subst hid
      obtain ⟨interval, cancelled, hlife⟩ := h.ran hstep
      rw [hlife] at hlast ⊢
      have hlast' : (Life.expired interval cancelled true).Last := hlast
      simpa [Life.after, Life.call, Life.callsLeft, ranTimers] using hlast'
    · simpa [Life.after, hid, ranTimers] using hlast
  | settled now id' =>
    by_cases hid : id' = id
    · simpa [Life.after, hid, ranTimers] using hlast.settle
    · simpa [Life.after, hid, ranTimers] using hlast
  | handedOver | answered | called | armed => simpa [Life.after, ranTimers] using hlast

/-- A cancelled timer stays cancelled. -/
theorem Good.cancelled_step (h : Good life s) (hstep : TimerStep s event s') (hcancelled : (life id).Cancelled) :
    ((life id).after id event).Cancelled := by
  cases event with
  | created id' when interval =>
    have hid : id' ≠ id := by
      rintro rfl
      rw [h.created hstep] at hcancelled
      exact hcancelled
    rwa [Life.after, if_neg hid]
  | read now ids => exact hcancelled.expire
  | added id' =>
    rw [Life.after]
    split_ifs
    · exact hcancelled.add
    · exact hcancelled
  | cancelled id' =>
    rw [Life.after]
    split_ifs
    · exact hcancelled.cancel
    · exact hcancelled
  | ran id' =>
    rw [Life.after]
    split_ifs
    · exact hcancelled.call
    · exact hcancelled
  | settled now id' =>
    rw [Life.after]
    split_ifs
    · exact hcancelled.settle
    · exact hcancelled
  | handedOver | answered | called | armed => exact hcancelled

theorem ran_le_callsLeft (hrun : TimerRun (before ++ after) s) (hlast : (lives before id).Last) :
    (lives (before ++ after) id).Last ∧
      (ranTimers after).count id + (lives (before ++ after) id).callsLeft ≤ (lives before id).callsLeft := by
  refine TimerRun.stretch (K := fun after _ => (lives (before ++ after) id).Last ∧
    (ranTimers after).count id + (lives (before ++ after) id).callsLeft ≤ (lives before id).callsLeft) ?_ ?_ hrun
  · intro s _
    rw [List.append_nil]
    exact ⟨hlast, by simp [ranTimers]⟩
  · rintro after s event s' hrun ⟨hlast', hle⟩ hstep
    obtain ⟨hlast'', hle'⟩ := (good_of_run hrun).last_step hstep hlast'
    rw [← List.append_assoc, lives_concat, ranTimers_append, List.count_append]
    refine ⟨hlast'', ?_⟩
    dsimp only
    omega

theorem cancelled_stretch (hrun : TimerRun (before ++ after) s) (hcancelled : (lives before id).Cancelled) :
    (lives (before ++ after) id).Cancelled := by
  refine TimerRun.stretch (K := fun after _ => (lives (before ++ after) id).Cancelled) ?_ ?_ hrun
  · intro s _
    rwa [List.append_nil]
  · intro after s event s' hrun hcancelled hstep
    rw [← List.append_assoc, lives_concat]
    exact (good_of_run hrun).cancelled_step hstep hcancelled

theorem ran_notMem (hrun : TimerRun (before ++ after) s) (hlast : (lives before id).Last)
    (hnone : (lives before id).callsLeft = 0) : .ran id ∉ after := by
  intro hran
  obtain ⟨-, hle⟩ := ran_le_callsLeft hrun hlast
  have hcount := List.count_pos_iff.mpr (mem_ranTimers.mpr hran)
  omega

/-- **A cancelled timer stays silent.**  A timer that waits when the loop cancels it is never called again, whatever
timer comes to stand at its address; one that `handleRead` has taken out already may be called once more, but not
after the timerfd is read the next time.  A timer that does not repeat is called once at most. -/
theorem cancelled_timers_stay_silent (hrun : TimerRun events s) :
    (∀ before id after due, events = before ++ .cancelled id :: after → (lives before id).IsWaiting due →
      .ran id ∉ after) ∧
      (∀ before id after, events = before ++ .cancelled id :: after → (lives before id).IsExpired →
        (ranTimers after).count id ≤ 1 ∧
          ∀ between now ids rest, after = between ++ .read now ids :: rest → .ran id ∉ rest) ∧
      ∀ before id when interval after, events = before ++ .created id when interval :: after → interval ≤ 0 →
        (ranTimers after).count id ≤ 1 := by
  have hassoc : ∀ (before after : List TimerEvent) event, before ++ event :: after = (before ++ [event]) ++ after := by
    simp
  have hcancel : ∀ before id, (lives before id).IsExpired ∨ (∃ due, (lives before id).IsWaiting due) →
      (lives (before ++ [.cancelled id]) id).Cancelled := by
    intro before id halive
    rw [lives_concat]
    simp only [Life.after, if_true]
    cases hlife : lives before id with
    | waiting due interval => trivial
    | expired interval cancelled called => exact rfl
    | _ => simp [hlife] at halive
  refine ⟨?_, ?_, ?_⟩
  · rintro before id after due rfl hwaiting
    rw [hassoc] at hrun
    have hcancelled := hcancel before id (.inr ⟨due, hwaiting⟩)
    refine ran_notMem hrun hcancelled.last (hcancelled.callsLeft_eq ?_)
    rw [lives_concat]
    simp only [Life.after, if_true]
    cases hlife : lives before id with
    | waiting due' interval => simp [Life.cancel]
    | _ => simp [hlife] at hwaiting
  · rintro before id after rfl hexpired
    rw [hassoc] at hrun
    have hcancelled := hcancel before id (.inl hexpired)
    refine ⟨?_, ?_⟩
    · have hle := (ran_le_callsLeft hrun hcancelled.last).2
      have hone := Life.callsLeft_le (lives (before ++ [.cancelled id]) id)
      omega
    · rintro between now ids rest rfl
      rw [← List.append_assoc, hassoc] at hrun
      obtain ⟨s₁, hread⟩ := hrun.start
      obtain ⟨s₀, hrun₀, hstep⟩ := hread.last
      -- the timer has been settled when the timerfd is read again
      have hcancelled₀ := cancelled_stretch hrun₀ hcancelled
      have hgood := good_of_run hrun₀
      have hsettled := hcancelled₀.callsLeft_eq (hgood.read hstep)
      obtain ⟨hlast, hle⟩ := hgood.last_step hstep hcancelled₀.last
      refine ran_notMem hrun ?_ ?_
      · rw [lives_concat]
        exact hlast
      · rw [lives_concat]
        dsimp only
        omega
  · rintro before id when interval after rfl honce
    rw [hassoc] at hrun
    have hlife : lives (before ++ [.created id when interval]) id = .adding when interval := by
      rw [lives_concat]
      exact if_pos rfl
    have hlast : (lives (before ++ [.created id when interval]) id).Last := by
      rw [hlife]
      exact honce
    have hle := (ran_le_callsLeft hrun hlast).2
    have hone := Life.callsLeft_le (lives (before ++ [.created id when interval]) id)
    omega

/-- A timer that is cancelled before `handleRead` comes to it is called nevertheless, once. -/
theorem oneTimer_is_cancelled_too_late : ∃ s : TimerLoop Unit,
    TimerRun (oneTimerEvents ++ [.read 2000 [(64, 1)], .cancelled (64, 1), .ran (64, 1)]) s ∧
      (ranTimers [.ran (64, 1)]).count (64, 1) ≤ 1 := by
  have hgood := good_of_run oneTimer_reached
  have hstart : oneTimer.queue.startCalling 2000 = _ := TimerQueue.startCalling_eq hgood.paired hgood.address_lt
  rw [oneTimer_expires] at hstart
  have hread := oneTimer_reached.step (.handleRead rfl (by decide) hstart)
  have hcancelled : TimerRun (oneTimerEvents ++ [.read 2000 [(64, 1)], .cancelled (64, 1)]) _ :=
    hread.step (.cancelInLoop trivial rfl)
  have hran := hcancelled.step (.run rfl rfl)
  have hsilent := cancelled_timers_stay_silent hran
  have honce := hsilent.2.1 (oneTimerEvents ++ [.read 2000 [(64, 1)]]) (64, 1) [.ran (64, 1)] rfl
  exact ⟨_, hran, (honce trivial).1⟩

end ChatService.Muduo
