import ChatService.Server.ServerMetrics
import Mathlib.Algebra.BigOperators.Ring.List
import Mathlib.Algebra.Order.BigOperators.Group.List
import Mathlib.Data.Int.Cast.Lemmas
import Mathlib.Data.List.Induction
import Mathlib.Tactic.NormNum

/-!
# The average that a snapshot reports

A recorder adds a latency to the sum and then counts it; a snapshot takes the sum and then the number of samples.
`Books` keep the same accounts latency by latency: in every interleaved run a snapshot reports the sum of the latencies
that it took, divided by the number of samples that it took (`reports_books`).  These need not be the same latencies.
Where they are as many, and a `double` holds their sum, the average lies between latencies that were recorded
(`average_is_between`).
-/

namespace ChatService

namespace ServerMetrics

open AtomicProgram

variable {Tid : Type} [DecidableEq Tid]

/-- An entry of a history. -/
abbrev MetricsEntry (Tid : Type) := Entry Tid MetricsCall CounterOp CounterOp.Response ServerMetrics

abbrev MetricsConfig (Tid : Type) := Config Tid MetricsCall CounterOp CounterOp.Response ServerMetrics

/-! ### The books of a run -/

/-- The latencies that have been added to the sum since it was taken last, how many samples have been counted since
their number was taken last, and what each thread took last. -/
structure Books (Tid : Type) where
  added : List ℤ
  counted : ℕ
  taken : Tid → List ℤ
  samples : Tid → ℕ

namespace Books

omit [DecidableEq Tid] in
def empty : Books Tid := ⟨[], 0, fun _ => [], fun _ => 0⟩

/-- The books after a move of thread `t`. -/
def next (books : Books Tid) (t : Tid) : Move MetricsCall CounterOp CounterOp.Response → Books Tid
  | .act ⟨.add .intervalLatencyMicros x, _⟩ => { books with added := books.added ++ [x] }
  | .act ⟨.increment .intervalLatencySamples, _⟩ => { books with counted := books.counted + 1 }
  | .act ⟨.getAndSet .intervalLatencyMicros _, _⟩ =>
    { books with added := [], taken := Function.update books.taken t books.added }
  | .act ⟨.getAndSet .intervalLatencySamples _, _⟩ =>
    { books with counted := 0, samples := Function.update books.samples t books.counted }
  | _ => books

/-- The books of a history. -/
def of (history : List (MetricsEntry Tid)) : Books Tid :=
  history.foldl (fun books entry => books.next entry.thread entry.move) empty

theorem of_concat (history : List (MetricsEntry Tid)) (entry : MetricsEntry Tid) :
    of (history ++ [entry]) = (of history).next entry.thread entry.move := by
  rw [of, List.foldl_append]
  rfl

end Books

/-! ### The discipline of the methods -/

/-- What a thread holds of the latencies. -/
inductive Holding where
  | nothing
  | sum (latencyMicros : ℤ)
  | both (latencyMicros latencySamples : ℤ)

/-- A snapshot takes the sum, then the number of samples, and reports their quotient. -/
def snapshots (Tid : Type) : Typestate Tid CounterOp CounterOp.Response Holding where
  resting := .nothing
  next _ holding
    | .getAndSet .intervalLatencyMicros _, r => .sum r
    | .getAndSet .intervalLatencySamples _, r =>
      match holding with
      | .sum latencyMicros => .both latencyMicros r
      | _ => .nothing
    | _, _ => holding
  allowed _ holding
    | .getAndSet .intervalLatencyMicros value => value = 0
    | .getAndSet .intervalLatencySamples value => value = 0 ∧ ∃ latencyMicros, holding = .sum latencyMicros
    | .add counter _ => counter = .intervalLatencyMicros
    | .increment counter => counter ≠ .intervalLatencyMicros
    | .report snapshot => ∃ latencyMicros latencySamples, holding = .both latencyMicros latencySamples ∧
        snapshot.averageLatencyMicros = averageOf latencyMicros latencySamples
    | _ => True
  mayRest _ := True

omit [DecidableEq Tid] in
theorem follows_onCall (t : Tid) (call : MetricsCall) :
    (snapshots Tid).Follows t (snapshots Tid).resting (onCall call)
      fun holding _ => (snapshots Tid).mayRest holding := by
  cases call with
  | opened => exact ⟨nofun, fun _ => trivial⟩
  | dropped => exact ⟨nofun, fun _ => trivial⟩
  | message latencyMicros =>
    exact ⟨nofun, fun _ => ⟨nofun, fun _ => ⟨rfl, fun _ => ⟨nofun, fun _ => trivial⟩⟩⟩⟩
  | snapshot onlineUsers activeRooms intervalSeconds =>
    exact ⟨trivial, fun _ => ⟨trivial, fun _ => ⟨trivial, fun _ => ⟨trivial, fun _ => ⟨rfl, fun latencyMicros =>
      ⟨⟨rfl, latencyMicros, rfl⟩, fun latencySamples =>
        ⟨⟨latencyMicros, latencySamples, rfl, rfl⟩, fun _ => trivial⟩⟩⟩⟩⟩⟩⟩

/-! ### Counters and books agree -/

/-- What a thread holds is what its books say. -/
def Holding.Agrees (taken : List ℤ) (samples : ℕ) : Holding → Prop
  | .nothing => True
  | .sum latencyMicros => latencyMicros = taken.sum
  | .both latencyMicros latencySamples => latencyMicros = taken.sum ∧ latencySamples = samples

/-- The counters hold what has been added and counted, and every thread holds what it took. -/
structure Booked (books : Books Tid) (s : ServerMetrics) (P : Tid → Holding) : Prop where
  sum : s .intervalLatencyMicros = books.added.sum
  samples : s .intervalLatencySamples = books.counted
  holds : ∀ t, (P t).Agrees (books.taken t) (books.samples t)

theorem holds_update {P : Tid → Holding} {taken : Tid → List ℤ} {samples : Tid → ℕ} {t : Tid} {holding : Holding}
    (hself : holding.Agrees (taken t) (samples t)) (hothers : ∀ t' ≠ t, (P t').Agrees (taken t') (samples t'))
    (t' : Tid) : (Function.update P t holding t').Agrees (taken t') (samples t') := by
  by_cases ht : t' = t
  · subst ht
    rw [Function.update_self]
    exact hself
  · rw [Function.update_of_ne ht]
    exact hothers t' ht

/-- The other counters are not in the books. -/
theorem Booked.of_eq {books : Books Tid} {s s' : ServerMetrics} {P : Tid → Holding} {t : Tid} (h : Booked books s P)
    (hsum : s' .intervalLatencyMicros = s .intervalLatencyMicros)
    (hsamples : s' .intervalLatencySamples = s .intervalLatencySamples) :
    Booked books s' (Function.update P t (P t)) := by
  rw [Function.update_eq_self]
  exact ⟨hsum.trans h.sum, hsamples.trans h.samples, h.holds⟩

/-- **Counters without end agree with the books**, whatever the interleaving. -/
theorem booked_next {books : Books Tid} {s s' : ServerMetrics} {P P' : Tid → Holding} {t : Tid}
    {move : Move MetricsCall CounterOp CounterOp.Response} (h : Booked books s P)
    (hmove : (snapshots Tid).Advances (machine Tid id) s P t move s' P') : Booked (books.next t move) s' P' := by
  cases move with
  | begin call =>
    obtain ⟨-, -, rfl, rfl⟩ := hmove
    exact h
  | finish =>
    obtain ⟨-, rfl, rfl⟩ := hmove
    exact ⟨h.sum, h.samples, holds_update trivial fun t' _ => h.holds t'⟩
  | act event =>
    obtain ⟨hallowed, ⟨env, hresponse, rfl⟩, rfl⟩ := hmove
    obtain ⟨op, r⟩ := event
    cases op with
    | get counter => exact h.of_eq rfl rfl
    | report snapshot => exact h.of_eq rfl rfl
    | add counter x =>
      obtain rfl : counter = .intervalLatencyMicros := hallowed
      refine ⟨?_, h.samples, holds_update (h.holds t) fun t' _ => h.holds t'⟩
      show s .intervalLatencyMicros + x = (books.added ++ [x]).sum
      rw [h.sum, List.sum_append, List.sum_singleton]
    | increment counter =>
      cases counter with
      | intervalLatencySamples =>
        refine ⟨h.sum, ?_, holds_update (h.holds t) fun t' _ => h.holds t'⟩
        show s .intervalLatencySamples + 1 = ((books.counted + 1 : ℕ) : ℤ)
        rw [h.samples]
        rfl
      | intervalLatencyMicros => exact absurd rfl hallowed
      | _ => exact h.of_eq rfl rfl
    | getAndSet counter value =>
      cases counter with
      | intervalLatencyMicros =>
        obtain rfl : value = 0 := hallowed
        obtain rfl : r = s .intervalLatencyMicros := hresponse
        refine ⟨rfl, h.samples, holds_update ?_ fun t' ht => ?_⟩
        · show s .intervalLatencyMicros = (Function.update books.taken t books.added t).sum
          rw [Function.update_self, h.sum]
        · show (P t').Agrees (Function.update books.taken t books.added t') (books.samples t')
          rw [Function.update_of_ne ht]
          exact h.holds t'
      | intervalLatencySamples =>
        obtain ⟨rfl, latencyMicros, hholding⟩ := hallowed
        obtain rfl : r = s .intervalLatencySamples := hresponse
        have hheld := h.holds t
        rw [hholding] at hheld
        refine ⟨h.sum, rfl, holds_update ?_ fun t' ht => ?_⟩
        · rw [hholding]
          show latencyMicros = (books.taken t).sum ∧
            s .intervalLatencySamples = (Function.update books.samples t books.counted t : ℕ)
          rw [Function.update_self]
          exact ⟨hheld, h.samples⟩
        · show (P t').Agrees (books.taken t') (Function.update books.samples t books.counted t')
          rw [Function.update_of_ne ht]
          exact h.holds t'
      | _ => exact h.of_eq rfl rfl

section

variable {history before after : List (MetricsEntry Tid)} {c : MetricsConfig Tid}

theorem booked_of_traced (h : Traced (machine Tid id) initial history c) :
    Booked (Books.of history) c.shared ((snapshots Tid).phases c) ∧ (snapshots Tid).Following c := by
  refine Typestate.history_invariant (H := fun history => Booked (Books.of history)) follows_onCall
    ⟨rfl, rfl, fun _ => show Holding.Agrees _ _ .nothing from trivial⟩ ?_ h
  intro history s P t move s' P' hbooked hmove
  rw [Books.of_concat]
  exact booked_next hbooked hmove

/-- **What a snapshot reports**: the latencies that it took out of the sum, divided by the number of samples that it
took. -/
theorem reports_books {t : Tid} {s : ServerMetrics} {snapshot : MetricsSnapshot}
    {r : CounterOp.Response (.report snapshot)} (h : Traced (machine Tid id) initial history c)
    (hreport : history = before ++ ⟨t, s, .act ⟨.report snapshot, r⟩⟩ :: after) :
    snapshot.averageLatencyMicros = averageOf ((Books.of before).taken t).sum ((Books.of before).samples t) := by
  obtain ⟨c₁, c₂, hbefore, -, hmove⟩ := h.split hreport
  obtain ⟨hbooked, hfollowing⟩ := booked_of_traced hbefore
  obtain ⟨latencyMicros, latencySamples, hholding, haverage⟩ := (hfollowing.moves follows_onCall hmove).2.1
  have hholds := hbooked.holds t
  rw [hholding] at hholds
  obtain ⟨rfl, rfl⟩ := hholds
  exact haverage

end

/-! ### Where the latencies come from -/

/-- The latencies with which calls of `recordMessage` have begun. -/
def begun (history : List (MetricsEntry Tid)) : List ℤ :=
  history.filterMap fun entry =>
    match entry.move with
    | .begin (.message latencyMicros) => some latencyMicros
    | _ => none

omit [DecidableEq Tid] in
theorem mem_begun {history : List (MetricsEntry Tid)} {t : Tid} {s : ServerMetrics} {latencyMicros : ℤ}
    (h : ⟨t, s, .begin (.message latencyMicros)⟩ ∈ history) : latencyMicros ∈ begun history :=
  List.mem_filterMap.mpr ⟨_, h, rfl⟩

/-- This much was added to the sum. -/
def Added (history : List (MetricsEntry Tid)) (x : ℤ) : Prop :=
  ∃ before t s r after, history = before ++ ⟨t, s, .act ⟨.add .intervalLatencyMicros x, r⟩⟩ :: after

/-- What is in the books. -/
def Books.Contains (books : Books Tid) (x : ℤ) : Prop := x ∈ books.added ∨ ∃ t, x ∈ books.taken t

/-- Into the books comes what is added to the sum. -/
theorem Books.contains_next {books : Books Tid} {t : Tid} {move : Move MetricsCall CounterOp CounterOp.Response} {x : ℤ}
    (h : (books.next t move).Contains x) :
    books.Contains x ∨ ∃ r, move = .act ⟨.add .intervalLatencyMicros x, r⟩ := by
  cases move with
  | begin call => exact .inl h
  | finish => exact .inl h
  | act event =>
    obtain ⟨op, r⟩ := event
    cases op with
    | get counter => exact .inl h
    | report snapshot => exact .inl h
    | increment counter => cases counter <;> exact .inl h
    | add counter y =>
      cases counter with
      | intervalLatencyMicros =>
        rcases h with hadded | htaken
        · rcases List.mem_append.mp hadded with hadded | hnew
          · exact .inl (.inl hadded)
          · obtain rfl := List.mem_singleton.mp hnew
            exact .inr ⟨r, rfl⟩
        · exact .inl (.inr htaken)
      | _ => exact .inl h
    | getAndSet counter value =>
      cases counter with
      | intervalLatencyMicros =>
        rcases h with hadded | ⟨t', htaken⟩
        · exact absurd hadded List.not_mem_nil
        · change x ∈ Function.update books.taken t books.added t' at htaken
          by_cases ht : t' = t
          · subst ht
            rw [Function.update_self] at htaken
            exact .inl (.inl htaken)
          · rw [Function.update_of_ne ht] at htaken
            exact .inl (.inr ⟨t', htaken⟩)
      | _ => exact .inl h

theorem Books.added_of_contains {history : List (MetricsEntry Tid)} {x : ℤ} (h : (of history).Contains x) :
    Added history x := by
  induction history using List.reverseRecOn with
  | nil =>
    rcases h with h | ⟨t, h⟩ <;> exact absurd h List.not_mem_nil
  | append_singleton history entry ih =>
    rw [of_concat] at h
    rcases contains_next h with h | ⟨r, hmove⟩
    · obtain ⟨before, t, s, r, after, heq⟩ := ih h
      exact ⟨before, t, s, r, after ++ [entry], by rw [heq, List.append_assoc, List.cons_append]⟩
    · obtain ⟨t, s, move⟩ := entry
      obtain rfl := hmove
      exact ⟨history, t, s, r, [], rfl⟩

/-- Only `recordMessage` adds to the sum, and what it adds is its argument, or zero for a negative one. -/
theorem only_onCall (call : MetricsCall) :
    (onCall call).Only fun op => ∀ x, op = .add .intervalLatencyMicros x → ∃ l, call = .message l ∧ x = clamped l := by
  cases call with
  | opened => exact ⟨nofun, fun _ => trivial⟩
  | dropped => exact ⟨nofun, fun _ => trivial⟩
  | message latencyMicros =>
    refine ⟨nofun, fun _ => ⟨nofun, fun _ => ⟨fun x hx => ?_, fun _ => ⟨nofun, fun _ => trivial⟩⟩⟩⟩
    injection hx with _ hx
    exact ⟨latencyMicros, rfl, hx.symm⟩
  | snapshot onlineUsers activeRooms intervalSeconds =>
    exact ⟨nofun, fun _ => ⟨nofun, fun _ => ⟨nofun, fun _ => ⟨nofun, fun _ => ⟨nofun, fun _ => ⟨nofun, fun _ =>
      ⟨nofun, fun _ => trivial⟩⟩⟩⟩⟩⟩⟩

theorem begun_of_added {history : List (MetricsEntry Tid)} {c : MetricsConfig Tid}
    {wrap : ℤ → ℤ} (h : Traced (machine Tid wrap) initial history c) {x : ℤ} (hx : Added history x) :
    ∃ l ∈ begun history, x = clamped l := by
  obtain ⟨before, t, s, r, after, heq⟩ := hx
  obtain ⟨call, s', hbegun, honly⟩ := h.origin (fun _ => only_onCall) heq
  obtain ⟨l, rfl, hl⟩ := honly x rfl
  refine ⟨l, mem_begun (t := t) (s := s') ?_, hl⟩
  rw [heq]
  exact List.mem_append_left _ hbegun

/-! ### Averages -/

omit [DecidableEq Tid] in
/-- The mean of numbers lies between two of them. -/
theorem exists_mean_between {l : List ℤ} (h : l ≠ []) :
    (∃ x ∈ l, (x : ℚ) ≤ l.sum / l.length) ∧ ∃ y ∈ l, (l.sum : ℚ) / l.length ≤ y := by
  have hlength : (l.length : ℚ) ≠ 0 := by exact_mod_cast fun hzero => h (List.eq_nil_of_length_eq_zero hzero)
  have hsum : (l.map fun x : ℤ => (x : ℚ)).sum = (l.map fun _ => (l.sum : ℚ) / l.length).sum := by
    rw [List.map_const', List.sum_replicate, nsmul_eq_mul, mul_div_cancel₀ _ hlength]
    exact (map_list_sum (Int.castAddHom ℚ) l).symm
  exact ⟨List.exists_le_of_sum_le h _ _ hsum.le, List.exists_le_of_sum_le h _ _ hsum.ge⟩

omit [DecidableEq Tid] in
/-- A sum below `2 ^ 53` is divided as it is. -/
theorem averageOf_eq {sum : ℤ} (hsum : |sum| < 2 ^ 53) {samples : ℤ} (hsamples : samples ≠ 0) :
    averageOf sum samples = Binary64.nearest (sum / Binary64.nearest samples) := by
  rw [averageOf, if_neg hsamples, Binary64.nearest_intCast hsum]

omit [DecidableEq Tid] in
/-- A quotient whose sum is below `2 ^ 53` lies between two of the numbers, however many they are: with more numbers
than the sum one of them is zero. -/
theorem exists_quotient_between {l : List ℤ} (h : l ≠ []) (hnonneg : ∀ x ∈ l, 0 ≤ x) (hsum : l.sum < 2 ^ 53) :
    (∃ x ∈ l, (x : ℚ) ≤ l.sum / Binary64.nearest l.length) ∧
      ∃ y ∈ l, (l.sum : ℚ) / Binary64.nearest l.length ≤ y := by
  obtain ⟨⟨x, hx, hlow⟩, y, hy, hhigh⟩ := exists_mean_between h
  rcases lt_or_ge l.length (2 ^ 53) with hlt | hge
  · have hlength : Binary64.nearest l.length = l.length :=
      Binary64.nearest_intCast (n := l.length) (by rw [Nat.abs_cast]; exact_mod_cast hlt)
    rw [hlength]
    exact ⟨⟨x, hx, hlow⟩, y, hy, hhigh⟩
  · have hsumNonneg : 0 ≤ l.sum := List.sum_nonneg hnonneg
    have hlength : (2 : ℚ) ^ 53 ≤ l.length := by exact_mod_cast hge
    have hpos : (0 : ℚ) < l.length := lt_of_lt_of_le (by norm_num) hlength
    have hmany : ((2 ^ 53 : ℤ) : ℚ) ≤ Binary64.nearest l.length :=
      Binary64.intCast_le_nearest hpos.le le_rfl (by exact_mod_cast hge)
    have hsum' : (l.sum : ℚ) < 2 ^ 53 := by exact_mod_cast hsum
    have hsumNonneg' : (0 : ℚ) ≤ l.sum := by exact_mod_cast hsumNonneg
    push_cast at hmany
    refine ⟨⟨x, hx, ?_⟩, y, hy, ?_⟩
    · -- the mean is less than one
      have hsmall : (x : ℚ) < 1 := hlow.trans_lt ((div_lt_one hpos).mpr (hsum'.trans_le hlength))
      have hzero : x ≤ 0 := Int.lt_add_one_iff.mp (by exact_mod_cast hsmall)
      exact (Int.cast_nonpos.mpr hzero).trans (div_nonneg hsumNonneg' (by linarith))
    · rcases (hnonneg y hy).eq_or_lt with rfl | hone
      · -- nothing but zeros
        have hnone : (l.sum : ℚ) ≤ 0 := by
          rw [div_le_iff₀ hpos] at hhigh
          simpa using hhigh
        rw [le_antisymm hnone hsumNonneg']
        simp
      · have hquotient : (l.sum : ℚ) / Binary64.nearest l.length ≤ 1 := (div_le_one (by linarith)).mpr (by linarith)
        exact hquotient.trans (by exact_mod_cast hone)

omit [DecidableEq Tid] in
/-- **The average of doubles** of numbers whose sum is below `2 ^ 53` lies between two of the numbers: integers are not
crossed by rounding. -/
theorem exists_average_between {l : List ℤ} (h : l ≠ []) (hnonneg : ∀ x ∈ l, 0 ≤ x) (hsum : l.sum < 2 ^ 53) :
    (∃ x ∈ l, (x : ℚ) ≤ averageOf l.sum l.length) ∧ ∃ y ∈ l, averageOf l.sum l.length ≤ y := by
  have hsumNonneg : 0 ≤ l.sum := List.sum_nonneg hnonneg
  have hlength : (l.length : ℤ) ≠ 0 := by exact_mod_cast fun hzero => h (List.eq_nil_of_length_eq_zero hzero)
  obtain ⟨⟨x, hx, hlow⟩, y, hy, hhigh⟩ := exists_quotient_between h hnonneg hsum
  rw [averageOf_eq (by rwa [abs_of_nonneg hsumNonneg]) hlength, Int.cast_natCast]
  have hlarge : ∀ z ∈ l, z < 2 ^ 53 := fun z hz => (List.single_le_sum hnonneg z hz).trans_lt hsum
  have hquotient : 0 ≤ (l.sum : ℚ) / Binary64.nearest l.length :=
    le_trans (by exact_mod_cast hnonneg x hx) hlow
  have hy' : (y : ℚ) < 2 ^ 53 := by exact_mod_cast hlarge y hy
  exact ⟨⟨x, hx, Binary64.intCast_le_nearest hquotient (hlarge x hx).le hlow⟩, y, hy,
    Binary64.nearest_le_intCast (by rw [abs_of_nonneg hquotient]; exact hhigh.trans_lt hy') hhigh⟩

omit [DecidableEq Tid] in
/-- **The average tells the number of samples**: the sum of `k` times the same number, divided by `n` samples, is that
number only if `k` is `n`.  By one sample more or less the quotient changes by more than it is rounded. -/
theorem eq_of_averageOf_eq {m : ℤ} {k n : ℕ} (hm : 0 < m) (hsum : k * m < 2 ^ 53) (hn : n ≠ 0) (hcount : n < 2 ^ 53)
    (h : averageOf (k * m) n = m) : k = n := by
  have hpos : (0 : ℚ) < n := by exact_mod_cast Nat.pos_of_ne_zero hn
  have hmpos : (0 : ℚ) < m := by exact_mod_cast hm
  have hcount' : (n : ℚ) < 2 ^ 53 := by exact_mod_cast hcount
  have hsum' : (k : ℚ) * m < 2 ^ 53 := by exact_mod_cast hsum
  have hlength : Binary64.nearest n = n :=
    Binary64.nearest_intCast (n := n) (by rw [Nat.abs_cast]; exact_mod_cast hcount)
  have hkm : 0 ≤ k * m := by positivity
  rw [averageOf_eq (by rwa [abs_of_nonneg hkm]) (by exact_mod_cast hn), Int.cast_natCast, hlength] at h
  push_cast at h
  rcases Nat.eq_zero_or_pos k with rfl | hk
  · -- a sum of nothing is zero
    simp only [Nat.cast_zero, zero_mul, zero_div, Binary64.nearest_zero] at h
    exact absurd h hmpos.ne
  · have hone : (1 : ℚ) ≤ k * m := by
      exact_mod_cast one_le_mul_of_one_le_of_one_le (Nat.one_le_cast.mpr hk) hm
    have hquotient : 0 < (k : ℚ) * m / n := by positivity
    have hlarge : (2 : ℚ) ^ (-1022 : ℤ) ≤ (k : ℚ) * m / n := by
      rw [le_div_iff₀ hpos]
      calc (2 : ℚ) ^ (-1022 : ℤ) * n ≤ 2 ^ (-53 : ℤ) * 2 ^ 53 :=
            mul_le_mul (zpow_le_zpow_right₀ (by norm_num) (by norm_num)) hcount'.le hpos.le (by positivity)
        _ = 1 := by norm_num
        _ ≤ k * m := hone
    -- the distance of `m` from the quotient, times `n`, is an integer below one
    have herror := Binary64.abs_nearest_sub_le (hlarge.trans (le_abs_self _))
    rw [h, abs_of_pos hquotient] at herror
    have hscaled : |(m : ℚ) * n - k * m| < 1 := by
      have hfactor : (m : ℚ) * n - k * m = (m - k * m / n) * n := by rw [sub_mul, div_mul_cancel₀ _ hpos.ne']
      calc |(m : ℚ) * n - k * m| = |(m : ℚ) - k * m / n| * n := by rw [hfactor, abs_mul, abs_of_pos hpos]
        _ ≤ (k : ℚ) * m / n / 2 ^ 53 * n := mul_le_mul_of_nonneg_right herror hpos.le
        _ = (k : ℚ) * m / 2 ^ 53 := by rw [div_right_comm, div_mul_cancel₀ _ hpos.ne']
        _ < 1 := (div_lt_one (by norm_num)).mpr hsum'
    have hzero : m * n - k * m = 0 := Int.abs_lt_one_iff.mp (by exact_mod_cast hscaled)
    have heq : (k : ℤ) * m = n * m := by rw [← sub_eq_zero.mp hzero, mul_comm]
    exact_mod_cast mul_right_cancel₀ hm.ne' heq

/-- A value between the smallest and the largest latency with which a call of `recordMessage` has begun, a negative
one counting as zero. -/
def Between (history : List (MetricsEntry Tid)) (average : ℚ) : Prop :=
  ∃ low ∈ begun history, ∃ high ∈ begun history, (clamped low : ℚ) ≤ average ∧ average ≤ clamped high

/-- The snapshot of thread `t` took no sample, or as many samples as latencies, whose sum is below `2 ^ 53`. -/
def Balanced (books : Books Tid) (t : Tid) : Prop :=
  books.samples t = 0 ∨ (books.taken t).length = books.samples t ∧ (books.taken t).sum < 2 ^ 53

section

variable {history before after : List (MetricsEntry Tid)} {c : MetricsConfig Tid}
  {t : Tid} {s : ServerMetrics} {snapshot : MetricsSnapshot} {r : CounterOp.Response (.report snapshot)}

/-- What was taken was added by calls that have begun. -/
theorem begun_of_taken (h : Traced (machine Tid id) initial history c) {x : ℤ} (hx : x ∈ (Books.of history).taken t) :
    ∃ l ∈ begun history, x = clamped l :=
  begun_of_added h (Books.added_of_contains (.inr ⟨t, hx⟩))

/-- What was taken is not negative. -/
theorem taken_nonneg (h : Traced (machine Tid id) initial history c) {x : ℤ} (hx : x ∈ (Books.of history).taken t) :
    0 ≤ x := by
  obtain ⟨l, -, rfl⟩ := begun_of_taken h hx
  exact clamped_nonneg l

/-- As many latencies as samples: the quotient lies between the latencies. -/
theorem between_of_balanced (h : Traced (machine Tid id) initial history c)
    (hreport : history = before ++ ⟨t, s, .act ⟨.report snapshot, r⟩⟩ :: after)
    (hbalanced : Balanced (Books.of before) t) :
    ((Books.of before).samples t = 0 ∧ snapshot.averageLatencyMicros = 0) ∨
      Between before snapshot.averageLatencyMicros := by
  have haverage := reports_books h hreport
  obtain ⟨c₁, -, hbefore, -⟩ := h.split hreport
  by_cases hnone : (Books.of before).samples t = 0
  · refine .inl ⟨hnone, ?_⟩
    rw [haverage, hnone]
    rfl
  · obtain ⟨hmany, hsum⟩ := hbalanced.resolve_left hnone
    have hne : (Books.of before).taken t ≠ [] := by
      intro hnil
      rw [hnil] at hmany
      exact hnone hmany.symm
    obtain ⟨⟨x, hx, hlow⟩, y, hy, hhigh⟩ := exists_average_between hne (fun x hx => taken_nonneg hbefore hx) hsum
    obtain ⟨low, hlowBegun, rfl⟩ := begun_of_taken hbefore hx
    obtain ⟨high, hhighBegun, rfl⟩ := begun_of_taken hbefore hy
    rw [haverage, ← hmany]
    exact .inr ⟨low, hlowBegun, high, hhighBegun, hlow, hhigh⟩

/-- Another number of latencies than of samples: if all the latencies are the same, the quotient is another one. -/
theorem balanced_of_between {latencyMicros : ℤ} (hpos : 0 < latencyMicros)
    (hsame : ∀ l ∈ begun before, clamped l = latencyMicros) (h : Traced (machine Tid id) initial history c)
    (hreport : history = before ++ ⟨t, s, .act ⟨.report snapshot, r⟩⟩ :: after)
    (hsum : ((Books.of before).taken t).sum < 2 ^ 53) (hcount : (Books.of before).samples t < 2 ^ 53)
    (hbetween : Between before snapshot.averageLatencyMicros) : Balanced (Books.of before) t := by
  have haverage := reports_books h hreport
  obtain ⟨c₁, -, hbefore, -⟩ := h.split hreport
  by_cases hnone : (Books.of before).samples t = 0
  · exact .inl hnone
  obtain ⟨low, hlow, high, hhigh, hle, hge⟩ := hbetween
  rw [hsame low hlow] at hle
  rw [hsame high hhigh] at hge
  have htaken : ((Books.of before).taken t).sum = ((Books.of before).taken t).length * latencyMicros := by
    have hall : ∀ x ∈ (Books.of before).taken t, x = latencyMicros := by
      intro x hx
      obtain ⟨l, hl, rfl⟩ := begun_of_taken hbefore hx
      exact hsame l hl
    rw [List.eq_replicate_of_mem hall, List.sum_replicate, List.length_replicate, nsmul_eq_mul]
  have hequal : averageOf (((Books.of before).taken t).length * latencyMicros) ((Books.of before).samples t) =
      latencyMicros := by
    rw [← htaken, ← haverage]
    exact le_antisymm hge hle
  exact .inr ⟨eq_of_averageOf_eq hpos (htaken ▸ hsum) hnone hcount hequal, hsum⟩

/-- **Only the order of the steps decides**, as long as the sum and the number of samples are below `2 ^ 53`: if all
the latencies are the same, the average lies between them exactly if the snapshot is balanced. -/
theorem between_iff_balanced {latencyMicros : ℤ} (hpos : 0 < latencyMicros)
    (hsame : ∀ l ∈ begun before, clamped l = latencyMicros) (h : Traced (machine Tid id) initial history c)
    (hreport : history = before ++ ⟨t, s, .act ⟨.report snapshot, r⟩⟩ :: after)
    (hsum : ((Books.of before).taken t).sum < 2 ^ 53) (hcount : (Books.of before).samples t < 2 ^ 53) :
    ((Books.of before).samples t = 0 ∧ snapshot.averageLatencyMicros = 0) ∨
        Between before snapshot.averageLatencyMicros ↔ Balanced (Books.of before) t := by
  constructor
  · rintro (⟨hnone, -⟩ | hbetween)
    · exact .inl hnone
    · exact balanced_of_between hpos hsame h hreport hsum hcount hbetween
  · exact between_of_balanced h hreport

end

/-! ### Two runs -/

end ServerMetrics

end ChatService
