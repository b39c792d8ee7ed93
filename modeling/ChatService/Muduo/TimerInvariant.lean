import ChatService.Muduo.TimerLives

/-!
# The invariant of the timer queue

Every step of the loop and of the threads that create timers keeps what the lives of the timers say.

* `Good.step` — one step; `good_of_run`.
* `Good.able` — nothing that the loop may do next fails.
* `timers_keep_their_lives` — what holds in every run.
-/

namespace ChatService.Muduo

variable {Callback : Type} {life : TimerId → Life} {s : TimerLoop Callback}

/-- What is marked at the address of a timer is its life. -/
theorem Stored.of_marks {q : TimerQueue Callback} {P : Life → Prop} (h : Stored life q) {timer : Address}
    {t : Timer Callback} (ht : q.heap timer = some t) (hmarks : Marks life P timer)
    (hP : ∀ life : Life, P life → life.Alive) : P (life (timer, t.sequence)) := by
  obtain ⟨sequence, hlife⟩ := hmarks
  rwa [← h.sequence_eq ht (hP _ hlife)]

theorem Stored.of_marked {q : TimerQueue Callback} {P : Life → Prop} (h : Stored life q) {timer : Address}
    (hmarks : Marks life P timer) (hP : ∀ life : Life, P life → life.Alive) :
    ∃ t, q.heap timer = some t ∧ P (life (timer, t.sequence)) := by
  obtain ⟨sequence, hlife⟩ := hmarks
  obtain ⟨t, ht, rfl⟩ := h.allocated _ (hP _ hlife)
  exact ⟨t, ht, hlife⟩

theorem Good.paired (h : Good life s) : s.queue.Paired := by
  constructor
  · intro it hit
    have hmarks := (h.queued.timers (ofLex it).1 (ofLex it).2).mp hit
    obtain ⟨t, ht, hlife⟩ := h.stored.of_marked hmarks fun _ => Life.IsWaiting.alive
    exact ⟨t, ht, hlife.fits (h.stored.fits _ t ht).2, (h.queued.activeTimers _).mpr ⟨_, hlife⟩⟩
  · intro id hid
    obtain ⟨due, hlife⟩ := (h.queued.activeTimers id).mp hid
    obtain ⟨t, ht, hsequence⟩ := h.stored.allocated id hlife.alive
    have hfits := (h.stored.fits _ t ht).2
    rw [hsequence, Prod.mk.eta] at hfits
    rw [← hlife.fits hfits] at hlife
    exact ⟨t, ht, hsequence, (h.queued.timers _ _).mpr ⟨id.2, hlife⟩⟩

/-- A timer that does not wait is in neither set. -/
theorem Good.notMem_timers (h : Good life s) {timer : Address} {t : Timer Callback}
    (ht : s.queue.heap timer = some t) (hlife : ∀ due, ¬ (life (timer, t.sequence)).IsWaiting due) (due : Timestamp) :
    toLex (due, timer) ∉ s.queue.timers := by
  intro hmem
  exact hlife due (h.stored.of_marks ht ((h.queued.timers _ _).mp hmem) fun _ => Life.IsWaiting.alive)

theorem Good.notMem_activeTimers (h : Good life s) {id : TimerId} (hlife : ∀ due, ¬ (life id).IsWaiting due) :
    id ∉ s.queue.activeTimers := by
  intro hmem
  obtain ⟨due, hwaiting⟩ := (h.queued.activeTimers id).mp hmem
  exact hlife due hwaiting

/-- At a free address there is no timer. -/
theorem Good.notMem_of_free (h : Good life s) {timer : Address} (hfree : s.queue.heap timer = none) :
    timer ∉ s.made ∧ timer ∉ s.adding := by
  rw [← not_or, h.adding]
  intro hmarks
  obtain ⟨t, ht, -⟩ := h.stored.of_marked hmarks fun _ => Life.IsAdding.alive
  exact absurd (hfree.symm.trans ht) (by simp)

theorem Good.newTimer (h : Good life s) {timer : Address} (callback : Callback) (when : Timestamp) (interval : ℚ)
    (hfree : s.queue.heap timer = none) (hlt : timer < uintptrMax) :
    Good (Function.update life (timer, s.queue.numCreated + 1) (.adding when interval))
      { s with
        queue := s.queue.newTimer timer callback when interval
        made := insert timer s.made } := by
  have hunmade : life (timer, s.queue.numCreated + 1) = .unmade := by
    by_contra hmade
    exact absurd (h.stored.fresh _ hmade) (by simp)
  refine ⟨?_, ?_, ?_, ?_, ?_, h.armed⟩
  · refine h.stored.change (by simp [hfree]) ?_ (Nat.le_succ _) le_rfl (.inl ?_)
    · intro timer' hne
      exact Function.update_of_ne hne ..
    · exact ⟨_, Function.update_self .., rfl, hlt, rfl, rfl⟩
  · refine h.queued.keep (fun due => ?_) rfl rfl
    rw [hunmade]
    exact Iff.rfl
  · refine h.held.keep (by simp) ?_ (fun _ _ => Iff.rfl) rfl
    simp [hunmade]
  · intro timer'
    rw [marks_gain (show (Life.adding when interval).IsAdding from trivial), Finset.mem_insert, or_assoc, h.adding]
  · exact Finset.disjoint_insert_left.mpr ⟨(h.notMem_of_free hfree).2, h.apart⟩

/-- A timer is handed over. -/
theorem Good.runInLoop (h : Good life s) {timer : Address} (hmade : timer ∈ s.made) :
    Good life { s with
      made := s.made.erase timer
      adding := insert timer s.adding
      answering := timer ::ₘ s.answering } := by
  refine ⟨h.stored, h.queued, h.held, fun timer' => ?_, ?_, h.armed⟩
  · rw [← h.adding, Finset.mem_erase, Finset.mem_insert]
    by_cases heq : timer' = timer
    · simp [heq, hmade]
    · simp [heq]
  · refine Finset.disjoint_insert_right.mpr ⟨Finset.notMem_erase timer s.made, ?_⟩
    exact h.apart.mono_left (Finset.erase_subset timer s.made)

theorem Good.addTimerInLoop (h : Good life s) {timer : Address} {t : Timer Callback} {q : TimerQueue Callback}
    {now : Timestamp} (hadding : timer ∈ s.adding) (ht : s.queue.heap timer = some t)
    (hq : s.queue.addTimerInLoop timer now = some q) :
    Good (Function.update life (timer, t.sequence) (life (timer, t.sequence)).add)
      { s with queue := q, adding := s.adding.erase timer } := by
  have hadding' := h.stored.of_marks ht ((h.adding timer).mp (.inr hadding)) fun _ => Life.IsAdding.alive
  obtain ⟨hlt, hfits⟩ := h.stored.fits timer t ht
  cases hlife : life (timer, t.sequence) with
  | adding when interval =>
    rw [hlife] at hfits
    obtain ⟨rfl, hinterval⟩ := hfits
    have hnotWaiting : ∀ due, ¬ (life (timer, t.sequence)).IsWaiting due := by simp [hlife]
    rw [TimerQueue.addTimerInLoop_eq h.paired.sameSize ht (h.notMem_timers ht hnotWaiting _)
      (h.notMem_activeTimers hnotWaiting), Option.some.injEq] at hq
    subst hq
    refine ⟨?_, ?_, ?_, ?_, ?_, h.armed.insert rfl rfl⟩
    · refine h.stored.change ?_ (fun _ _ => rfl) le_rfl (h.stored.fresh _ (by simp [hlife])) (.inl ?_)
      · intro t' ht'
        exact congrArg Timer.sequence (Option.some.inj (ht'.symm.trans ht))
      · exact ⟨t, ht, rfl, hlt, rfl, hinterval⟩
    · exact h.queued.gain hnotWaiting rfl rfl
    · exact h.held.keep (by simp [Life.add]) (by simp [hlife]) (fun _ _ => Iff.rfl) rfl
    · intro timer'
      have honly : ∀ sequence, (life (timer, sequence)).IsAdding → sequence = t.sequence := fun _ hmarked =>
        h.stored.sequence_eq ht hmarked.alive
      rw [Finset.mem_erase, marks_lose (by simp [Life.add]) honly, ← h.adding]
      by_cases heq : timer' = timer
      · simp [heq, Finset.disjoint_right.mp h.apart hadding]
      · simp [heq]
    · exact h.apart.mono_right (Finset.erase_subset timer s.adding)
  | _ => exact absurd hadding' (by simp [hlife])

/-- Whoever waits is taken out, … -/
theorem Good.cancel_waiting (h : Good life s) {id : TimerId} {q : TimerQueue Callback}
    (hactive : id ∈ s.queue.activeTimers) (hq : s.queue.cancelInLoop id = some q) :
    Good (Function.update life id .gone) { s with queue := q } := by
  obtain ⟨t, ht, hsequence, htimers⟩ := h.paired.timer id hactive
  have hwaiting : (life id).IsWaiting t.expiration := by
    have hmarked := h.stored.of_marks ht ((h.queued.timers _ _).mp htimers) fun _ => Life.IsWaiting.alive
    rwa [hsequence] at hmarked
  have honly : ∀ sequence, (life (id.1, sequence)).Alive → sequence = id.2 := fun sequence halive =>
    (h.stored.sequence_eq ht halive).trans hsequence
  rw [TimerQueue.cancelInLoop_of_mem h.paired.sameSize hactive ht htimers, Option.some.injEq] at hq
  subst hq
  refine ⟨?_, ?_, ?_, ?_, h.apart, ?_⟩
  · refine h.stored.change ?_ (fun timer hne => Function.update_of_ne hne ..) le_rfl ?_ (.inr ?_)
    · intro t' ht'
      obtain rfl := Option.some.inj (ht.symm.trans ht')
      exact hsequence
    · refine h.stored.fresh id fun hunmade => ?_
      rw [hunmade] at hwaiting
      exact hwaiting
    · exact ⟨Function.update_self .., by simp⟩
  · refine h.queued.lose (by simp) hwaiting ?_ rfl rfl
    exact fun due sequence hmarked => honly sequence hmarked.alive
  · refine h.held.keep (by simp) ?_ (fun _ _ => Iff.rfl) rfl
    intro hexpired
    cases hlife : life id with
    | expired interval cancelled called => simp [hlife] at hwaiting
    | _ => simp [hlife] at hexpired
  · intro timer
    rw [h.adding]
    refine (marks_keep (iff_of_false (by simp) ?_)).symm
    intro hadding
    cases hlife : life id with
    | adding when interval => simp [hlife] at hwaiting
    | _ => simp [hlife] at hadding
  · intro it hit
    exact h.armed it (Finset.mem_of_mem_erase hit)

/-- … whoever is being called is marked, and nothing is done about others. -/
theorem Good.cancel_other (h : Good life s) {id : TimerId} {q : TimerQueue Callback} (hopen : s.reading.Open)
    (hactive : id ∉ s.queue.activeTimers) (hq : s.queue.cancelInLoop id = some q) :
    Good (Function.update life id (life id).cancel) { s with queue := q } := by
  rw [TimerQueue.cancelInLoop_of_notMem h.paired.sameSize hactive, Option.some.injEq] at hq
  by_cases hexpired : (life id).IsExpired
  · cases hlife : life id with
    | expired interval cancelled called =>
      have hcalling : s.queue.callingExpiredTimers = true := by
        have hmem := (h.held.held id.1).mpr ⟨id.2, hexpired⟩
        cases hreading : s.reading with
        | idle => simp [hreading, Reading.held] at hmem
        | calling now expired left => exact h.held.calling.mpr ⟨_, _, _, hreading⟩
        | resetting now left => simp [hreading, Reading.Open] at hopen
      rw [if_pos hcalling] at hq
      subst hq
      refine ⟨?_, ?_, h.held.strike hlife rfl rfl, ?_, h.apart, h.armed⟩
      · obtain ⟨t, ht, hsequence⟩ := h.stored.allocated id (by simp [hlife])
        obtain ⟨hlt, hfits⟩ := h.stored.fits _ t ht
        rw [hsequence, Prod.mk.eta, hlife] at hfits
        refine h.stored.change ?_ (fun _ _ => rfl) le_rfl (h.stored.fresh id (by simp [hlife])) (.inl ?_)
        · intro t' ht'
          obtain rfl := Option.some.inj (ht.symm.trans ht')
          exact hsequence
        · exact ⟨t, ht, hsequence, hlt, hfits⟩
      · exact h.queued.keep (by simp [hlife, Life.cancel]) rfl rfl
      · intro timer
        rw [h.adding, marks_keep (by simp [hlife, Life.cancel])]
    | _ => simp [hlife] at hexpired
  · have hsame : (life id).cancel = life id := by
      cases hlife : life id with
      | waiting due interval => exact absurd ((h.queued.activeTimers id).mpr ⟨due, by simp [hlife]⟩) hactive
      | expired interval cancelled called => simp [hlife] at hexpired
      | _ => rfl
    rw [hsame]
    by_cases hcalling : s.queue.callingExpiredTimers = true
    · rw [if_pos hcalling] at hq
      subst hq
      have hheld : Held (Function.update life id (life id))
          { s.queue with cancelingTimers := insert id s.queue.cancelingTimers } s.reading := by
        refine h.held.keep hexpired hexpired ?_ rfl
        intro id' hid'
        have hne : id' ≠ id := fun heq => hexpired (heq ▸ hid')
        exact Finset.mem_insert.trans (or_iff_right hne)
      rw [Function.update_eq_self] at hheld ⊢
      exact ⟨⟨h.stored.fresh, h.stored.allocated, h.stored.fits⟩, ⟨h.queued.timers, h.queued.activeTimers⟩, hheld,
        h.adding, h.apart, h.armed⟩
    · rw [if_neg hcalling] at hq
      subst hq
      rwa [Function.update_eq_self]

section Expire

variable {now : Timestamp}

theorem expire_eq_unmade {life : Life} : life.expire now = .unmade ↔ life = .unmade := by
  cases life with
  | waiting due interval => by_cases hdue : due ≤ now <;> simp [Life.expire, hdue]
  | _ => simp [Life.expire]

theorem expire_alive {life : Life} : (life.expire now).Alive ↔ life.Alive := by
  cases life with
  | waiting due interval => by_cases hdue : due ≤ now <;> simp [Life.expire, hdue]
  | _ => simp [Life.expire]

theorem expire_isAdding {life : Life} : (life.expire now).IsAdding ↔ life.IsAdding := by
  cases life with
  | waiting due interval => by_cases hdue : due ≤ now <;> simp [Life.expire, hdue]
  | _ => simp [Life.expire]

theorem expire_isWaiting {life : Life} {due : Timestamp} :
    (life.expire now).IsWaiting due ↔ life.IsWaiting due ∧ now < due := by
  cases life with
  | waiting due' interval =>
    by_cases hdue : due' ≤ now
    · simp only [Life.expire, hdue, if_true, Life.IsWaiting, false_iff, not_and, not_lt]
      rintro rfl
      exact hdue
    · simp only [Life.expire, hdue, if_false, Life.IsWaiting, iff_self_and]
      rintro rfl
      exact not_le.mp hdue
  | _ => simp [Life.expire]

theorem expire_isExpired {life : Life} :
    (life.expire now).IsExpired ↔ life.IsExpired ∨ ∃ due, life.IsWaiting due ∧ due ≤ now := by
  cases life with
  | waiting due interval => by_cases hdue : due ≤ now <;> simp [Life.expire, hdue]
  | _ => simp [Life.expire]

theorem expire_fits {life : Life} {t : Timer Callback} (h : life.Fits t) : (life.expire now).Fits t := by
  cases life with
  | waiting due interval =>
    by_cases hdue : due ≤ now
    · simpa [Life.expire, hdue, Life.Fits] using h.2
    · simpa [Life.expire, hdue] using h
  | _ => exact h

end Expire

theorem Good.address_lt (h : Good life s) : ∀ it ∈ s.queue.timers, (ofLex it).2 < uintptrMax := by
  intro it hit
  obtain ⟨t, ht, -⟩ := h.paired.active it hit
  exact (h.stored.fits _ t ht).1

/-- An entry is among those that have expired if its timer is due. -/
theorem Good.mem_expired (h : Good life s) {now : Timestamp} {id : TimerId} :
    id ∈ (s.queue.expiredAt now).filterMap s.queue.timerId? ↔ ∃ due, (life id).IsWaiting due ∧ due ≤ now := by
  rw [TimerQueue.mem_filterMap_timerId?]
  constructor
  · rintro ⟨it, hit, t, ht, hsequence, haddress⟩
    obtain ⟨hmem, hdue⟩ := (TimerQueue.mem_expiredAt h.address_lt).mp hit
    have hmarks := (h.queued.timers (ofLex it).1 (ofLex it).2).mp hmem
    rw [haddress] at hmarks
    have hwaiting := h.stored.of_marks ht hmarks fun _ => Life.IsWaiting.alive
    rw [hsequence] at hwaiting
    exact ⟨_, hwaiting, hdue⟩
  · rintro ⟨due, hwaiting, hdue⟩
    obtain ⟨t, ht, hsequence⟩ := h.stored.allocated id hwaiting.alive
    exact ⟨toLex (due, id.1), (TimerQueue.mem_expiredAt h.address_lt).mpr
      ⟨(h.queued.timers _ _).mpr ⟨id.2, hwaiting⟩, hdue⟩, t, ht, hsequence, rfl⟩

theorem Good.idle (h : Good life s) (hreading : s.reading = .idle) (id : TimerId) : ¬ (life id).IsExpired := by
  intro hexpired
  have hmem := (h.held.held id.1).mpr ⟨id.2, hexpired⟩
  simp [hreading, Reading.held] at hmem

theorem Good.handleRead (h : Good life s) {now : Timestamp} {expired : List TimerQueue.Entry}
    {q : TimerQueue Callback} (hreading : s.reading = .idle) (hnow : now.valid)
    (hq : s.queue.startCalling now = some (expired, q)) :
    Good (fun id => (life id).expire now) { s with queue := q, reading := .calling now expired expired } := by
  rw [TimerQueue.startCalling_eq h.paired h.address_lt, Option.some.injEq, Prod.mk.injEq] at hq
  obtain ⟨rfl, rfl⟩ := hq
  have hmem : ∀ it ∈ s.queue.expiredAt now, it ∈ s.queue.timers := fun it hit =>
    ((TimerQueue.mem_expiredAt h.address_lt).mp hit).1
  have hheld : ∀ timer, timer ∈ (s.queue.expiredAt now).map (fun it => (ofLex it).2) ↔
      Marks (fun id => (life id).expire now) Life.IsExpired timer := by
    intro timer
    rw [List.mem_map]
    constructor
    · rintro ⟨it, hit, rfl⟩
      obtain ⟨hit, hdue⟩ := (TimerQueue.mem_expiredAt h.address_lt).mp hit
      obtain ⟨sequence, hwaiting⟩ := (h.queued.timers (ofLex it).1 (ofLex it).2).mp hit
      exact ⟨sequence, expire_isExpired.mpr (.inr ⟨_, hwaiting, hdue⟩)⟩
    · rintro ⟨sequence, hexpired⟩
      rcases expire_isExpired.mp hexpired with hexpired | ⟨due, hwaiting, hdue⟩
      · exact absurd hexpired (h.idle hreading _)
      · exact ⟨toLex (due, timer), (TimerQueue.mem_expiredAt h.address_lt).mpr
          ⟨(h.queued.timers _ _).mpr ⟨sequence, hwaiting⟩, hdue⟩, rfl⟩
  have hflags : ∀ id interval cancelled called, (life id).expire now = .expired interval cancelled called →
      cancelled = false ∧ called = false := by
    intro id interval cancelled called hlife
    cases hold : life id with
    | waiting due interval' =>
      rw [hold, Life.expire] at hlife
      split_ifs at hlife
      cases hlife
      exact ⟨rfl, rfl⟩
    | expired interval' cancelled' called' => exact absurd (by simp [hold]) (h.idle hreading id)
    | _ => simp [hold, Life.expire] at hlife
  refine ⟨?_, ?_, ?_, ?_, h.apart, ?_⟩
  · constructor
    · intro id hmade
      exact h.stored.fresh id fun hunmade => hmade (expire_eq_unmade.mpr hunmade)
    · intro id halive
      exact h.stored.allocated id (expire_alive.mp halive)
    · intro timer t ht
      obtain ⟨hlt, hfits⟩ := h.stored.fits timer t ht
      exact ⟨hlt, expire_fits hfits⟩
  · constructor
    · intro due timer
      rw [Finset.mem_filter, h.queued.timers]
      refine Iff.trans ?_ (exists_congr fun sequence => expire_isWaiting.symm)
      exact exists_and_right.symm
    · intro id
      rw [Finset.mem_filter, h.queued.activeTimers, h.mem_expired]
      refine Iff.trans ?_ (exists_congr fun due => expire_isWaiting.symm)
      constructor
      · rintro ⟨⟨due, hwaiting⟩, hlater⟩
        exact ⟨due, hwaiting, not_le.mp fun hdue => hlater ⟨due, hwaiting, hdue⟩⟩
      · rintro ⟨due, hwaiting, hlater⟩
        refine ⟨⟨due, hwaiting⟩, ?_⟩
        rintro ⟨due', hwaiting', hdue⟩
        cases hlife : life id with
        | waiting due'' interval =>
          rw [hlife] at hwaiting hwaiting'
          obtain rfl : due'' = due := hwaiting
          obtain rfl : due'' = due' := hwaiting'
          exact absurd hdue (not_le.mpr hlater)
        | _ => simp [hlife] at hwaiting
  · refine ⟨hheld, h.paired.nodup hmem (Finset.sort_nodup _ _), ?_, ?_, ?_, ?_⟩
    · intro id interval cancelled called hlife
      rw [(hflags id interval cancelled called hlife).1]
      exact iff_of_false (Finset.notMem_empty id) (by simp)
    · exact iff_of_true rfl ⟨now, _, _, rfl⟩
    · intro now' expired left heq
      cases heq
      refine ⟨List.suffix_rfl, fun id interval cancelled called hlife => ?_⟩
      refine iff_of_true (hflags id interval cancelled called hlife).2 ?_
      exact (hheld id.1).mpr ⟨id.2, by simp [hlife]⟩
    · rintro now' left (heq | ⟨expired, heq⟩)
      · cases heq
      · cases heq
        exact hnow
  · intro timer
    rw [h.adding]
    exact exists_congr fun sequence => expire_isAdding.symm
  · intro it hit hinvalid
    have hlater := (Finset.mem_filter.mp hit).2
    exact absurd (lt_trans hnow hlater) (hinvalid (by simp))

/-- The timer that `handleRead` comes to next has expired. -/
theorem Good.next_expired (h : Good life s) {it : TimerQueue.Entry} (hit : it ∈ s.reading.held) {id : TimerId}
    (hid : s.queue.timerId? it = some id) :
    ∃ t, s.queue.heap (ofLex it).2 = some t ∧ id = ((ofLex it).2, t.sequence) ∧ (life id).IsExpired ∧
      ∀ sequence, (life (id.1, sequence)).Alive → sequence = id.2 := by
  rw [TimerQueue.timerId?, Option.map_eq_some_iff] at hid
  obtain ⟨t, ht, rfl⟩ := hid
  have hmarks := (h.held.held (ofLex it).2).mp (List.mem_map_of_mem hit)
  exact ⟨t, ht, rfl, h.stored.of_marks ht hmarks fun _ => Life.IsExpired.alive,
    fun sequence halive => h.stored.sequence_eq ht halive⟩

theorem Good.run (h : Good life s) {now : Timestamp} {expired left : List TimerQueue.Entry} {it : TimerQueue.Entry}
    {id : TimerId} (hreading : s.reading = .calling now expired (it :: left)) (hid : s.queue.timerId? it = some id) :
    Good (Function.update life id (life id).call) { s with reading := .calling now expired left } := by
  have hheld := h.held
  rw [hreading] at hheld
  have hmem : it ∈ s.reading.held := by
    rw [hreading]
    exact (hheld.left now expired _ rfl).1.subset List.mem_cons_self
  obtain ⟨t, ht, rfl, hexpired, honly⟩ := h.next_expired hmem hid
  cases hlife : life ((ofLex it).2, t.sequence) with
  | expired interval cancelled called =>
    refine ⟨?_, ?_, hheld.call hlife rfl honly, ?_, h.apart, ?_⟩
    · obtain ⟨hlt, hfits⟩ := h.stored.fits _ t ht
      rw [hlife] at hfits
      refine h.stored.change ?_ (fun _ _ => rfl) le_rfl (h.stored.fresh _ (by simp [hlife])) (.inl ?_)
      · intro t' ht'
        exact congrArg Timer.sequence (Option.some.inj (ht'.symm.trans ht))
      · exact ⟨t, ht, rfl, hlt, hfits⟩
    · exact h.queued.keep (by simp [hlife, Life.call]) rfl rfl
    · intro timer
      rw [h.adding, marks_keep (by simp [hlife, Life.call])]
    · intro it' hit' hinvalid
      exact h.armed it' hit' fun _ => hinvalid (by simp)
  | _ => simp [hlife] at hexpired

theorem Good.called (h : Good life s) {now : Timestamp} {expired : List TimerQueue.Entry}
    (hreading : s.reading = .calling now expired []) :
    Good life { s with
      queue := { s.queue with callingExpiredTimers := false }
      reading := .resetting now expired } := by
  have hheld := h.held
  rw [hreading] at hheld
  refine ⟨⟨h.stored.fresh, h.stored.allocated, h.stored.fits⟩, ⟨h.queued.timers, h.queued.activeTimers⟩,
    ⟨hheld.held, hheld.nodup, hheld.canceling, ?_, ?_, ?_⟩, h.adding, h.apart, ?_⟩
  · exact iff_of_false (by simp) (by simp)
  · intro now' expired' left heq
    cases heq
  · rintro now' left (heq | ⟨expired', heq⟩)
    · cases heq
      exact hheld.clock now _ (.inr ⟨_, rfl⟩)
    · cases heq
  · intro it hit hinvalid
    exact h.armed it hit fun _ => hinvalid (by simp)

theorem Good.reset (h : Good life s) {now : Timestamp} {left : List TimerQueue.Entry} {it : TimerQueue.Entry}
    {id : TimerId} {q : TimerQueue Callback} (hreading : s.reading = .resetting now (it :: left))
    (hid : s.queue.timerId? it = some id) (hq : s.queue.resetTimer now it = some q) :
    Good (Function.update life id ((life id).settle now)) { s with queue := q, reading := .resetting now left } := by
  have hheld := h.held
  rw [hreading] at hheld
  have hmem : it ∈ s.reading.held := by simp [hreading, Reading.held]
  obtain ⟨t, ht, rfl, hexpired, honly⟩ := h.next_expired hmem hid
  have hnow : now.valid := hheld.clock now _ (.inl rfl)
  cases hlife : life ((ofLex it).2, t.sequence) with
  | expired interval cancelled called =>
    obtain ⟨hlt, hfits⟩ := h.stored.fits _ t ht
    rw [hlife] at hfits
    have hinterval : t.interval = interval := hfits
    have hcanceling := h.held.canceling _ _ _ _ hlife
    have hnotWaiting : ∀ due, ¬ (life ((ofLex it).2, t.sequence)).IsWaiting due := by simp [hlife]
    have hfresh : t.sequence ≤ s.queue.numCreated := h.stored.fresh _ (by rw [hlife]; simp)
    have hold : ∀ t', s.queue.heap (ofLex it).2 = some t' → t'.sequence = t.sequence := by
      intro t' ht'
      exact congrArg Timer.sequence (Option.some.inj (ht'.symm.trans ht))
    by_cases hagain : t.repeats = true ∧ ((ofLex it).2, t.sequence) ∉ s.queue.cancelingTimers
    · -- it repeats
      obtain ⟨hrepeats, hnotCanceling⟩ := hagain
      have hpos : 0 < interval := by simpa [Timer.repeats, hinterval] using hrepeats
      obtain rfl : cancelled = false := by
        rw [← Bool.not_eq_true, ← hcanceling]
        exact hnotCanceling
      have hdue : (t.restart now).expiration = addTime now interval := by
        simp [Timer.restart, hrepeats, hinterval]
      have hsettle : (Life.expired interval false called).settle now = .waiting (addTime now interval) interval := by
        simp [Life.settle, hpos]
      rw [TimerQueue.resetTimer_of_repeats h.paired.sameSize ht hrepeats hnotCanceling
        (h.notMem_timers ht hnotWaiting _) (h.notMem_activeTimers hnotWaiting), Option.some.injEq] at hq
      subst hq
      rw [hsettle]
      refine ⟨?_, ?_, hheld.settle rfl (by simp) honly rfl rfl, ?_, h.apart, ?_⟩
      · refine h.stored.change hold (fun timer hne => Function.update_of_ne hne ..) le_rfl hfresh (.inl ?_)
        exact ⟨_, Function.update_self .., rfl, hlt, hdue, hinterval⟩
      · exact h.queued.gain hnotWaiting (by rw [hdue]) rfl
      · intro timer
        rw [h.adding, marks_keep (by simp [hlife])]
      · intro it' hit' hinvalid
        rcases Finset.mem_insert.mp hit' with rfl | hit'
        · -- it is due after the epoch
          refine absurd ?_ (hinvalid (by simp))
          rw [ofLex_toLex, hdue]
          exact lt_of_lt_of_le hnow (le_addTime now hpos.le)
        · exact h.armed it' hit' fun _ => hinvalid (by simp)
    · -- it is deleted
      have hsettle : (Life.expired interval cancelled called).settle now = .gone := by
        refine if_neg fun hsettle => hagain ⟨?_, ?_⟩
        · simpa [Timer.repeats, hinterval] using hsettle.1
        · rw [hcanceling, hsettle.2]
          simp
      rw [TimerQueue.resetTimer_of_not ht hagain, Option.some.injEq] at hq
      subst hq
      rw [hsettle]
      refine ⟨?_, ?_, hheld.settle rfl (by simp) honly rfl rfl, ?_, h.apart, ?_⟩
      · refine h.stored.change hold (fun timer hne => Function.update_of_ne hne ..) le_rfl hfresh (.inr ?_)
        exact ⟨Function.update_self .., by simp⟩
      · exact h.queued.keep (by simp [hlife]) rfl rfl
      · intro timer
        rw [h.adding, marks_keep (by simp [hlife])]
      · intro it' hit' hinvalid
        exact h.armed it' hit' fun _ => hinvalid (by simp)
  | _ => simp [hlife] at hexpired

theorem Good.armNext (h : Good life s) {now later : Timestamp} {q : TimerQueue Callback}
    (hreading : s.reading = .resetting now []) (hq : s.queue.armNext later = some q) :
    Good life { s with queue := q, reading := .idle } := by
  have hheld := h.held
  rw [hreading] at hheld
  have hcalling : s.queue.callingExpiredTimers = false := by
    rw [← Bool.not_eq_true, hheld.calling]
    simp
  have hidle : Held life s.queue .idle := by
    refine ⟨hheld.held, hheld.nodup, hheld.canceling, ?_, ?_, ?_⟩
    · exact iff_of_false (by simp [hcalling]) (by simp)
    · intro now' expired left heq
      cases heq
    · rintro now' left (heq | ⟨expired, heq⟩)
      · cases heq
      · cases heq
  cases hfirst : TimerQueue.first s.queue.timers with
  | none =>
    rw [TimerQueue.armNext_of_none hfirst, Option.some.injEq] at hq
    subst hq
    refine ⟨h.stored, h.queued, hidle, h.adding, h.apart, ?_⟩
    intro it hit
    rw [TimerQueue.first_eq_none.mp hfirst] at hit
    exact absurd hit (Finset.notMem_empty it)
  | some it =>
    obtain ⟨t, ht, hdue, -⟩ := h.paired.active it (TimerQueue.mem_of_first hfirst)
    have hle : ∀ it' ∈ s.queue.timers, (ofLex it).1 ≤ (ofLex it').1 := fun it' hit' =>
      Prod.Lex.monotone_fst _ _ (TimerQueue.first_le hfirst hit')
    rw [TimerQueue.armNext_of_some hfirst ht, Option.some.injEq] at hq
    by_cases hvalid : t.expiration.valid
    · rw [if_pos hvalid] at hq
      subst hq
      refine ⟨⟨h.stored.fresh, h.stored.allocated, h.stored.fits⟩, ⟨h.queued.timers, h.queued.activeTimers⟩,
        ⟨hidle.held, hidle.nodup, hidle.canceling, hidle.calling, hidle.left, hidle.clock⟩, h.adding, h.apart, ?_⟩
      intro it' hit' _
      exact ⟨_, rfl, inTime_resetTimerfd (hdue ▸ hle it' hit')⟩
    · rw [if_neg hvalid] at hq
      subst hq
      refine ⟨h.stored, h.queued, hidle, h.adding, h.apart, ?_⟩
      intro it' hit' _
      -- the timerfd has been set for the first timer when it was added
      obtain ⟨setting, hsetting, hintime⟩ := h.armed it (TimerQueue.mem_of_first hfirst) fun _ => hdue ▸ hvalid
      exact ⟨setting, hsetting, hintime.mono (hle it' hit')⟩

/-- An event of one timer. -/
theorem after_eq_update {f : Life → Life} {id : TimerId} {event : TimerEvent}
    (hevent : ∀ id' life, Life.after id' life event = if id = id' then f life else life) :
    (fun id' => (life id').after id' event) = Function.update life id (f (life id)) := by
  funext id'
  rw [hevent, Function.update_apply]
  by_cases hid : id = id'
  · rw [if_pos hid, if_pos hid.symm, hid]
  · rw [if_neg hid, if_neg (Ne.symm hid)]

theorem Good.step (h : Good life s) {event : TimerEvent} {s' : TimerLoop Callback} (hstep : TimerStep s event s') :
    Good (fun id => (life id).after id event) s' := by
  cases hstep with
  | newTimer callback when interval hfree hlt =>
    rw [after_eq_update (f := fun _ => .adding when interval) fun _ _ => rfl]
    exact h.newTimer callback when interval hfree hlt
  | runInLoop hmade => exact h.runInLoop hmade
  | answer => exact ⟨h.stored, h.queued, h.held, h.adding, h.apart, h.armed⟩
  | addTimerInLoop now hopen hadding ht hq =>
    rw [after_eq_update fun _ _ => rfl]
    exact h.addTimerInLoop hadding ht hq
  | @cancelInLoop timerId q hopen hq =>
    rw [after_eq_update fun _ _ => rfl]
    by_cases hactive : timerId ∈ s.queue.activeTimers
    · obtain ⟨due, hwaiting⟩ := (h.queued.activeTimers timerId).mp hactive
      have hover : (life timerId).cancel = .gone := by
        cases hlife : life timerId with
        | waiting due interval => rfl
        | _ => simp [hlife] at hwaiting
      rw [hover]
      exact h.cancel_waiting hactive hq
    · exact h.cancel_other hopen hactive hq
  | handleRead hreading hnow hq => exact h.handleRead hreading hnow hq
  | run hreading hid =>
    rw [after_eq_update fun _ _ => rfl]
    exact h.run hreading hid
  | called hreading => exact h.called hreading
  | reset hreading hid hq =>
    rw [after_eq_update fun _ _ => rfl]
    exact h.reset hreading hid hq
  | armNext later hreading hq => exact h.armNext hreading hq

theorem Good.able (h : Good life s) : s.Able := by
  have hheldTimer : ∀ it ∈ s.reading.held, ∃ t, s.queue.heap (ofLex it).2 = some t ∧
      (life ((ofLex it).2, t.sequence)).IsExpired := by
    intro it hit
    exact h.stored.of_marked ((h.held.held (ofLex it).2).mp (List.mem_map_of_mem hit)) fun _ => Life.IsExpired.alive
  refine ⟨?_, ?_, ?_, ?_, ?_, ?_⟩
  · intro hopen timer hadding now
    obtain ⟨t, ht, hlife⟩ := h.stored.of_marked ((h.adding timer).mp (.inr hadding)) fun _ => Life.IsAdding.alive
    have hnotWaiting : ∀ due, ¬ (life (timer, t.sequence)).IsWaiting due := fun due hwaiting =>
      hlife.not_isWaiting hwaiting
    rw [TimerQueue.addTimerInLoop_eq h.paired.sameSize ht (h.notMem_timers ht hnotWaiting _)
      (h.notMem_activeTimers hnotWaiting)]
    rfl
  · intro hopen id
    by_cases hactive : id ∈ s.queue.activeTimers
    · obtain ⟨t, ht, -, htimers⟩ := h.paired.timer id hactive
      rw [TimerQueue.cancelInLoop_of_mem h.paired.sameSize hactive ht htimers]
      rfl
    · rw [TimerQueue.cancelInLoop_of_notMem h.paired.sameSize hactive]
      rfl
  · intro hreading now
    rw [TimerQueue.startCalling_eq h.paired h.address_lt]
    rfl
  · intro now expired it left hreading
    obtain ⟨hsuffix, -⟩ := h.held.left now expired _ hreading
    obtain ⟨t, ht, -⟩ := hheldTimer it (by rw [hreading]; exact hsuffix.subset List.mem_cons_self)
    simp [TimerQueue.timerId?, ht]
  · intro now it left hreading
    obtain ⟨t, ht, hlife⟩ := hheldTimer it (by simp [hreading, Reading.held])
    have hnotWaiting : ∀ due, ¬ (life ((ofLex it).2, t.sequence)).IsWaiting due := fun due hwaiting =>
      hlife.not_isWaiting hwaiting
    refine ⟨by simp [TimerQueue.timerId?, ht], ?_⟩
    by_cases hagain : t.repeats = true ∧ ((ofLex it).2, t.sequence) ∉ s.queue.cancelingTimers
    · rw [TimerQueue.resetTimer_of_repeats h.paired.sameSize ht hagain.1 hagain.2 (h.notMem_timers ht hnotWaiting _)
        (h.notMem_activeTimers hnotWaiting)]
      rfl
    · rw [TimerQueue.resetTimer_of_not ht hagain]
      rfl
  · intro now hreading later
    cases hfirst : TimerQueue.first s.queue.timers with
    | none =>
      rw [TimerQueue.armNext_of_none hfirst]
      rfl
    | some it =>
      obtain ⟨t, ht, -⟩ := h.paired.active it (TimerQueue.mem_of_first hfirst)
      rw [TimerQueue.armNext_of_some hfirst ht]
      rfl

theorem good_initial : Good (fun _ => .unmade) (.initial : TimerLoop Callback) := by
  have hnone : ∀ {P : Life → Prop} {timer : Address}, ¬ P .unmade → ¬ Marks (fun _ => .unmade) P timer := by
    rintro P timer hP ⟨_, h⟩
    exact hP h
  refine ⟨?_, ?_, ?_, ?_, Finset.disjoint_empty_left _, ?_⟩
  · refine ⟨fun _ hmade => absurd rfl hmade, fun _ halive => halive.elim, ?_⟩
    intro timer t ht
    simp [TimerLoop.initial] at ht
  · refine ⟨fun due timer => iff_of_false (Finset.notMem_empty _) (hnone (by simp)), fun id => ?_⟩
    exact iff_of_false (Finset.notMem_empty _) (by simp)
  · refine ⟨?_, List.nodup_nil, ?_, ?_, ?_, ?_⟩
    · exact fun timer => iff_of_false (by simp [TimerLoop.initial, Reading.held]) (hnone (by simp))
    · intro id interval cancelled called hlife
      cases hlife
    · exact iff_of_false (by simp [TimerLoop.initial]) (by simp [TimerLoop.initial])
    · intro now expired left hreading
      cases hreading
    · rintro now left (hreading | ⟨expired, hreading⟩)
      · cases hreading
      · cases hreading
  · exact fun timer => iff_of_false (by simp [TimerLoop.initial]) (hnone (by simp))
  · exact fun it hit => absurd hit (Finset.notMem_empty it)

theorem lives_concat (events : List TimerEvent) (event : TimerEvent) :
    lives (events ++ [event]) = fun id => (lives events id).after id event := by
  funext id
  rw [lives, List.foldl_append]
  rfl

theorem good_of_run {events : List TimerEvent} (h : TimerRun events s) : Good (lives events) s := by
  induction h with
  | init => exact good_initial
  | step _ hstep ih =>
    rw [lives_concat]
    exact ih.step hstep

/-- **Timers keep their lives.**  In every run, whatever other threads add and whatever the callbacks add and cancel: no
assertion of the queue can fail next and no pointer dangles that the loop's thread follows; its two sets hold exactly
the timers that wait, each under the time when it is due; a timer is allocated as long as it is alive; and unless
`handleRead` is under way, the timerfd fires no later than any timer that waits is due, or 100 microseconds after it
was set. -/
theorem timers_keep_their_lives {events : List TimerEvent} (hrun : TimerRun events s) :
    s.Able ∧
      (∀ due timer, toLex (due, timer) ∈ s.queue.timers ↔ Marks (lives events) (Life.IsWaiting due) timer) ∧
      (∀ id, id ∈ s.queue.activeTimers ↔ ∃ due, (lives events id).IsWaiting due) ∧
      (∀ timer, s.queue.heap timer ≠ none ↔ Marks (lives events) Life.Alive timer) ∧
      (s.reading = .idle → ∀ id due, (lives events id).IsWaiting due →
        ∃ setting, s.queue.timerfd = some setting ∧ setting.alarm ≤ max due (setting.start + 100)) := by
  have hgood := good_of_run hrun
  refine ⟨hgood.able, hgood.queued.timers, hgood.queued.activeTimers, ?_, ?_⟩
  · intro timer
    rw [Option.ne_none_iff_exists']
    constructor
    · rintro ⟨t, ht⟩
      exact ⟨t.sequence, (hgood.stored.fits timer t ht).2.alive⟩
    · intro hmarks
      obtain ⟨t, ht, -⟩ := hgood.stored.of_marked hmarks fun _ => id
      exact ⟨t, ht⟩
  · intro hreading id due hwaiting
    exact hgood.armed _ ((hgood.queued.timers due id.1).mpr ⟨id.2, hwaiting⟩) fun hbusy => absurd hreading hbusy

/-- A timer that waits for the time 1000, at the address 64; it was added at the time 400. -/
def oneTimer : TimerLoop Unit where
  queue :=
    { heap := Function.update (fun _ => none) 64 (some ⟨(), 1000, 0, 1⟩)
      numCreated := 1
      timerfd := some ⟨400, 600⟩
      timers := {toLex (1000, 64)}
      activeTimers := {(64, 1)}
      callingExpiredTimers := false
      cancelingTimers := ∅ }
  made := ∅
  adding := ∅
  answering := 0
  reading := .idle

/-- How the timer has come there. -/
def oneTimerEvents : List TimerEvent :=
  [.created (64, 1) 1000 0, .handedOver 64, .added (64, 1), .answered (64, 1)]

/-- The loop has it before `addTimer` answers. -/
theorem oneTimer_added : TimerRun [.created (64, 1) 1000 0, .handedOver 64, .added (64, 1)]
    { oneTimer with answering := 64 ::ₘ 0 } := by
  have hcreated : TimerRun [.created (64, 1) 1000 0] _ :=
    TimerRun.init.step (.newTimer (s := (.initial : TimerLoop Unit)) () 1000 0 rfl (show 64 < uintptrMax by decide))
  have hhanded := hcreated.step (.runInLoop (Finset.mem_insert_self 64 ∅))
  have hadded := hhanded.step (.addTimerInLoop 400 trivial (Finset.mem_insert_self 64 ∅) rfl rfl)
  exact hadded

theorem oneTimer_reached : TimerRun oneTimerEvents oneTimer := by
  have hanswered := oneTimer_added.step (.answer (Multiset.mem_cons_self 64 0) rfl)
  exact hanswered

/-- Its timerfd has been set. -/
theorem oneTimer_is_awaited :
    oneTimer.Able ∧ ∃ setting, oneTimer.queue.timerfd = some setting ∧
      setting.alarm ≤ max 1000 (setting.start + 100) := by
  have hlives := timers_keep_their_lives oneTimer_reached
  exact ⟨hlives.1, hlives.2.2.2.2 rfl (64, 1) 1000 (show (1000 : Timestamp) = 1000 from rfl)⟩

end ChatService.Muduo
