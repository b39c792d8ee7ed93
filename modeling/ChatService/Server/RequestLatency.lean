import ChatService.Common.Protocol
import ChatService.Server.ServerMetrics
import Mathlib.Tactic.Linarith
import Mathlib.Tactic.Positivity

/-!
# The sum of the latencies (`ChatServer::requestLatencyMicros`)

A request counts from the time that it says it was sent at.  Every latency is a number of 64 bits, but the sum of the
latencies between two snapshots is kept in 64 bits as well, and a client that claims to have sent its requests long
ago fills it: then the sum wraps around and the average is negative (`latency_accounting_iff`).
-/

namespace ChatService

open AtomicProgram

/-- The latency of a request, from the clock when it was received and when it is handled. -/
def requestLatencyMicros (request : JsonObject) (receiveTime nowMicros : ℤ) : ℤ :=
  match request[ascii "sent_at_us"]? with
  | some value =>
    match strtoll value with
    | some sentMicros =>
      if 0 < sentMicros ∧ sentMicros ≤ nowMicros then nowMicros - sentMicros else nowMicros - receiveTime
    | none => nowMicros - receiveTime
  | none => nowMicros - receiveTime

/-- A request with the readings of the clock. -/
structure TimedRequest where
  request : JsonObject
  receiveTime : ℤ
  now : ℤ

namespace TimedRequest

variable (r : TimedRequest)

def latencyMicros : ℤ := requestLatencyMicros r.request r.receiveTime r.now

/-- The time that the request counts from: the one in `sent_at_us`, if this is positive and not in the future, and the
time of its arrival otherwise. -/
def startMicros : ℤ :=
  match r.request[ascii "sent_at_us"]?.bind strtoll with
  | some sentMicros => if 0 < sentMicros ∧ sentMicros ≤ r.now then sentMicros else r.receiveTime
  | none => r.receiveTime

/-- The clock does not go back and fits into 64 bits. -/
def Clocked : Prop := 0 ≤ r.receiveTime ∧ r.receiveTime ≤ r.now ∧ r.now < 2 ^ 63

theorem latencyMicros_eq : r.latencyMicros = r.now - r.startMicros := by
  rw [latencyMicros, requestLatencyMicros, startMicros]
  cases r.request[ascii "sent_at_us"]? with
  | none => rfl
  | some value =>
    dsimp only [Option.bind_some]
    cases strtoll value with
    | none => rfl
    | some sentMicros =>
      dsimp only
      split_ifs <;> rfl

variable {r}

theorem startMicros_bounds (h : r.Clocked) : 0 ≤ r.startMicros ∧ r.startMicros ≤ r.now := by
  obtain ⟨hreceived, hhandled, -⟩ := h
  rw [startMicros]
  split
  · split_ifs with hsent
    · exact ⟨hsent.1.le, hsent.2⟩
    · exact ⟨hreceived, hhandled⟩
  · exact ⟨hreceived, hhandled⟩

/-- **Every latency is between zero and the time of the day.** -/
theorem latencyMicros_bounds (h : r.Clocked) : 0 ≤ r.latencyMicros ∧ r.latencyMicros < 2 ^ 63 := by
  have hstart := startMicros_bounds h
  have hnow := h.2.2
  rw [latencyMicros_eq]
  constructor <;> omega

end TimedRequest

namespace ServerMetrics

/-! ### 64 bits -/

def InInt64 (n : ℤ) : Prop := -2 ^ 63 ≤ n ∧ n < 2 ^ 63

instance : DecidablePred InInt64 := fun _ => inferInstanceAs (Decidable (_ ∧ _))

theorem wrap64_of_inInt64 {n : ℤ} (h : InInt64 n) : wrap64 n = n := by
  obtain ⟨hlow, hhigh⟩ := h
  exact Int.bmod_eq_of_le (by omega) (by omega)

theorem wrap64_add (a b : ℤ) : wrap64 (wrap64 a + b) = wrap64 (a + b) :=
  Int.bmod_add_bmod

theorem neg_le_wrap64 (n : ℤ) : -2 ^ 63 ≤ wrap64 n := by
  rw [wrap64, Int.bmod_def]
  split_ifs <;> omega

/-- A number of samples is negative in the upper half of the 64 bits. -/
theorem wrap64_natCast_nonneg_iff (n : ℕ) : 0 ≤ wrap64 n ↔ n % 2 ^ 64 < 2 ^ 63 := by
  rw [wrap64, Int.bmod_def]
  split_ifs <;> omega

/-! ### The requests between two snapshots -/

/-- The counters when the requests have been recorded one after another. -/
def recordAll (s : ServerMetrics) (requests : List TimedRequest) : ServerMetrics :=
  requests.foldl (fun s r => ((recordMessage r.latencyMicros).run (exec wrap64) () s).2) s

/-- The counters after a snapshot. -/
def afterSnapshot (onlineUsers activeRooms : ℤ) (intervalSeconds : ℚ) (s : ServerMetrics) : ServerMetrics :=
  ((snapshotAndReset onlineUsers activeRooms intervalSeconds).run (exec wrap64) () s).2

/-- What the next snapshot reports. -/
def reported (onlineUsers activeRooms : ℤ) (intervalSeconds : ℚ) (s : ServerMetrics) : MetricsSnapshot :=
  ((snapshotAndReset onlineUsers activeRooms intervalSeconds).run (exec wrap64) () s).1

/-- How long the requests took all together. -/
def totalMicros (requests : List TimedRequest) : ℤ := (requests.map TimedRequest.latencyMicros).sum

theorem totalMicros_append (front back : List TimedRequest) :
    totalMicros (front ++ back) = totalMicros front + totalMicros back := by
  rw [totalMicros, List.map_append, List.sum_append]
  rfl

theorem totalMicros_singleton (r : TimedRequest) : totalMicros [r] = r.latencyMicros := by simp [totalMicros]

theorem totalMicros_nonneg {requests : List TimedRequest} (h : ∀ r ∈ requests, r.Clocked) :
    0 ≤ totalMicros requests := by
  refine List.sum_nonneg fun latency hlatency => ?_
  obtain ⟨r, hr, rfl⟩ := List.mem_map.mp hlatency
  exact (TimedRequest.latencyMicros_bounds (h r hr)).1

/-- The requests took as long as the times at their ends and at their beginnings say. -/
theorem totalMicros_eq (requests : List TimedRequest) :
    totalMicros requests =
      (requests.map TimedRequest.now).sum - (requests.map TimedRequest.startMicros).sum := by
  induction requests with
  | nil => rfl
  | cons r requests ih =>
    have hcons : totalMicros (r :: requests) = r.latencyMicros + totalMicros requests := rfl
    rw [hcons, ih, r.latencyMicros_eq, List.map_cons, List.map_cons, List.sum_cons, List.sum_cons]
    omega

/-- **The counters hold 64 bits of the total time and of the number of the requests.** -/
theorem recordAll_counters {s : ServerMetrics} (hsum : s .intervalLatencyMicros = 0)
    (hsamples : s .intervalLatencySamples = 0) {requests : List TimedRequest} (h : ∀ r ∈ requests, r.Clocked) :
    recordAll s requests .intervalLatencyMicros = wrap64 (totalMicros requests) ∧
      recordAll s requests .intervalLatencySamples = wrap64 requests.length := by
  induction requests using List.reverseRecOn with
  | nil => exact ⟨hsum, hsamples⟩
  | append_singleton front r ih =>
    obtain ⟨hfront, hcount⟩ := ih fun r' hr' => h r' (List.mem_append_left _ hr')
    have hlatency := (TimedRequest.latencyMicros_bounds (h r (by simp))).1
    have hlast : recordAll s (front ++ [r]) =
        ((recordMessage r.latencyMicros).run (exec wrap64) () (recordAll s front)).2 := by
      rw [recordAll, List.foldl_append]
      rfl
    obtain ⟨hadded, hcounted⟩ := run_recordMessage wrap64 (recordAll s front) r.latencyMicros
    constructor
    · rw [hlast, hadded, hfront, clamped_of_nonneg hlatency, wrap64_add, totalMicros_append, totalMicros_singleton]
    · rw [hlast, hcounted, hcount, wrap64_add, List.length_append]
      rfl

/-- **The latency accounting is right** for the requests between two snapshots: every latency has 64 bits, no addition
to the sum leaves them, and the average is not negative. -/
structure Accounts (s : ServerMetrics) (requests : List TimedRequest) (snapshot : MetricsSnapshot) : Prop where
  latency : ∀ r ∈ requests, InInt64 r.latencyMicros
  sum : ∀ front r back, requests = front ++ r :: back →
    InInt64 (recordAll s front .intervalLatencyMicros + clamped r.latencyMicros)
  average : 0 ≤ snapshot.averageLatencyMicros

section

variable {s : ServerMetrics} {requests : List TimedRequest}

/-- While the total fits, the sum is the total. -/
theorem recordAll_sum_of_fits (hsum : s .intervalLatencyMicros = 0) (hsamples : s .intervalLatencySamples = 0)
    (h : ∀ r ∈ requests, r.Clocked) (hfits : totalMicros requests < 2 ^ 63) :
    recordAll s requests .intervalLatencyMicros = totalMicros requests := by
  rw [(recordAll_counters hsum hsamples h).1]
  have hnonneg := totalMicros_nonneg h
  exact wrap64_of_inInt64 ⟨by omega, hfits⟩

/-- If no addition leaves the 64 bits, the total fits. -/
theorem totalMicros_fits (hsum : s .intervalLatencyMicros = 0) (hsamples : s .intervalLatencySamples = 0)
    (h : ∀ r ∈ requests, r.Clocked)
    (hadds : ∀ front r back, requests = front ++ r :: back →
      InInt64 (recordAll s front .intervalLatencyMicros + clamped r.latencyMicros)) :
    totalMicros requests < 2 ^ 63 := by
  induction requests using List.reverseRecOn with
  | nil => exact Int.pow_pos (by decide)
  | append_singleton front r ih =>
    have hclocked : ∀ r' ∈ front, r'.Clocked := fun r' hr' => h r' (List.mem_append_left _ hr')
    have hfront := ih hclocked fun front' r' back' heq =>
      hadds front' r' (back' ++ [r]) (by rw [heq, List.append_assoc, List.cons_append])
    have hadd := (hadds front r [] rfl).2
    rw [recordAll_sum_of_fits hsum hsamples hclocked hfront,
      clamped_of_nonneg (TimedRequest.latencyMicros_bounds (h r (by simp))).1] at hadd
    rw [totalMicros_append, totalMicros_singleton]
    exact hadd

/-- An average is not negative exactly if there is nothing to divide, or the number of samples is not negative: numbers
of 64 bits are far from what a `double` rounds to zero. -/
theorem averageOf_nonneg_iff {total samples : ℤ} (htotal : 0 ≤ total) (hsamples : -2 ^ 63 ≤ samples) :
    0 ≤ averageOf total samples ↔ total = 0 ∨ 0 ≤ samples := by
  rw [averageOf]
  split_ifs with hzero
  · simp [hzero]
  have hrounded : 0 ≤ Binary64.nearest total := Binary64.nearest_nonneg (by exact_mod_cast htotal)
  rcases lt_or_ge samples 0 with hneg | hpos
  · rcases htotal.eq_or_lt with rfl | htotal
    · simp
    · -- a positive sum and a negative number
      have hsum : 1 ≤ Binary64.nearest total := by
        exact_mod_cast Binary64.intCast_le_nearest (x := total) (n := 1) (by exact_mod_cast htotal.le) (by norm_num)
          (by exact_mod_cast htotal)
      have hsign : (samples : ℚ) ≤ -1 := by exact_mod_cast (by omega : samples ≤ -1)
      have hsize : (-2 ^ 63 : ℚ) ≤ samples := by exact_mod_cast hsamples
      have hlarge : (2 : ℚ) ^ (-1022 : ℤ) ≤ 1 := zpow_le_one_of_nonpos₀ (by norm_num) (by norm_num)
      have hcount : Binary64.nearest samples < 0 := Binary64.nearest_neg (by linarith)
      have habs : |(samples : ℚ)| = -samples := abs_of_neg (by linarith)
      have herror := Binary64.abs_nearest_sub_le (x := samples) (by rw [habs]; linarith)
      rw [habs, abs_le] at herror
      have hbound : -Binary64.nearest samples ≤ 2 ^ 64 := by linarith [herror.1]
      have hquotient : (2 : ℚ) ^ (-1022 : ℤ) ≤ -(Binary64.nearest total / Binary64.nearest samples) := by
        rw [← div_neg, le_div_iff₀ (neg_pos.mpr hcount)]
        calc (2 : ℚ) ^ (-1022 : ℤ) * -Binary64.nearest samples ≤ 2 ^ (-1022 : ℤ) * 2 ^ 64 :=
              mul_le_mul_of_nonneg_left hbound (zpow_pos (by norm_num) _).le
          _ = 2 ^ (-958 : ℤ) := by rw [← zpow_ofNat, ← zpow_add₀ (by norm_num)]; norm_num
          _ ≤ 1 := zpow_le_one_of_nonpos₀ (by norm_num) (by norm_num)
          _ ≤ Binary64.nearest total := hsum
      exact iff_of_false (not_le.mpr (Binary64.nearest_neg hquotient)) (by omega)
  · have hcount : 0 ≤ Binary64.nearest samples := Binary64.nearest_nonneg (by exact_mod_cast hpos)
    exact iff_of_true (Binary64.nearest_nonneg (div_nonneg hrounded hcount)) (.inr hpos)

end

/-- **When the latency accounting is right**: exactly if the times at which the requests of an interval are handled add
up to less than `2^63` more than the times from which they count, and, unless these are the same, the number of the
requests does not come out negative in 64 bits. -/
theorem latency_accounting_iff (onlineUsers activeRooms : ℤ) (intervalSeconds : ℚ) (s : ServerMetrics)
    {requests : List TimedRequest} (hclocks : ∀ r ∈ requests, r.Clocked) :
    Accounts (afterSnapshot onlineUsers activeRooms intervalSeconds s) requests
        (reported onlineUsers activeRooms intervalSeconds
          (recordAll (afterSnapshot onlineUsers activeRooms intervalSeconds s) requests)) ↔
      (requests.map TimedRequest.now).sum < (requests.map TimedRequest.startMicros).sum + 2 ^ 63 ∧
        ((requests.map TimedRequest.now).sum = (requests.map TimedRequest.startMicros).sum ∨
          requests.length % 2 ^ 64 < 2 ^ 63) := by
  obtain ⟨-, hsum, hsamples⟩ := run_snapshotAndReset wrap64 s onlineUsers activeRooms intervalSeconds
  change afterSnapshot onlineUsers activeRooms intervalSeconds s .intervalLatencyMicros = 0 at hsum
  change afterSnapshot onlineUsers activeRooms intervalSeconds s .intervalLatencySamples = 0 at hsamples
  generalize afterSnapshot onlineUsers activeRooms intervalSeconds s = s' at hsum hsamples ⊢
  have htotal := totalMicros_eq requests
  have hnonneg := totalMicros_nonneg hclocks
  -- what is reported, as long as the total fits
  have haverage : totalMicros requests < 2 ^ 63 →
      (0 ≤ (reported onlineUsers activeRooms intervalSeconds (recordAll s' requests)).averageLatencyMicros ↔
        totalMicros requests = 0 ∨ requests.length % 2 ^ 64 < 2 ^ 63) := by
    intro hfits
    rw [reported, (run_snapshotAndReset wrap64 _ _ _ _).1, recordAll_sum_of_fits hsum hsamples hclocks hfits,
      (recordAll_counters hsum hsamples hclocks).2, averageOf_nonneg_iff hnonneg (neg_le_wrap64 _),
      wrap64_natCast_nonneg_iff]
  constructor
  · intro haccounts
    have hfits := totalMicros_fits hsum hsamples hclocks haccounts.sum
    have hcount := (haverage hfits).mp haccounts.average
    constructor
    · omega
    · rcases hcount with hzero | hcount
      · exact .inl (by omega)
      · exact .inr hcount
  · rintro ⟨hfits, hcount⟩
    have hfits' : totalMicros requests < 2 ^ 63 := by omega
    refine ⟨fun r hr => ?_, fun front r back heq => ?_, (haverage hfits').mpr ?_⟩
    · obtain ⟨hlow, hhigh⟩ := TimedRequest.latencyMicros_bounds (hclocks r hr)
      exact ⟨by omega, hhigh⟩
    · subst heq
      have hfront : ∀ r' ∈ front, r'.Clocked := fun r' hr' => hclocks r' (List.mem_append_left _ hr')
      have hback : ∀ r' ∈ back, r'.Clocked := fun r' hr' => hclocks r' (by simp [hr'])
      have hlatency := TimedRequest.latencyMicros_bounds (hclocks r (by simp))
      have hsplit : totalMicros (front ++ r :: back) = totalMicros front + (r.latencyMicros + totalMicros back) :=
        totalMicros_append front (r :: back)
      have hfrontNonneg := totalMicros_nonneg hfront
      have hbackNonneg := totalMicros_nonneg hback
      rw [recordAll_sum_of_fits hsum hsamples hfront (by omega), clamped_of_nonneg hlatency.1]
      exact ⟨by omega, by omega⟩
    · rcases hcount with hsame | hcount
      · exact .inl (by omega)
      · exact .inr hcount

theorem startMicros_sentAt {value : Bytes} {receiveTime now sentMicros : ℤ} (hvalue : strtoll value = some sentMicros)
    (hsent : 0 < sentMicros ∧ sentMicros ≤ now) :
    TimedRequest.startMicros ⟨(∅ : JsonObject).insert (ascii "sent_at_us") value, receiveTime, now⟩ = sentMicros := by
  rw [TimedRequest.startMicros, Tables.getElem?_insert_self, Option.bind_some, hvalue]
  exact if_pos hsent

/-- A request that says when it was sent. -/
def sentAtThousand : TimedRequest := ⟨(∅ : JsonObject).insert (ascii "sent_at_us") (ascii "1000"), 1200, 1500⟩

theorem latency_accounting_one :
    Accounts (afterSnapshot 0 0 5 initial) [sentAtThousand]
      (reported 0 0 5 (recordAll (afterSnapshot 0 0 5 initial) [sentAtThousand])) := by
  have hclocked : sentAtThousand.Clocked := ⟨by decide, by decide, by decide⟩
  have hstart : sentAtThousand.startMicros = 1000 := startMicros_sentAt (by decide) (by decide)
  refine (latency_accounting_iff 0 0 5 initial (List.forall_mem_singleton.mpr hclocked)).mpr ?_
  rw [List.map_singleton, List.map_singleton, List.sum_singleton, List.sum_singleton, hstart]
  exact ⟨by decide, .inr (by decide)⟩

/-- A request that claims to be as old as the clock, which stands in 2023. -/
def backdated : TimedRequest :=
  ⟨(∅ : JsonObject).insert (ascii "sent_at_us") (ascii "1"), 1700000000000000, 1700000000000000⟩

/-- **The sum runs over.**  Within one interval a client may send 5426 requests that claim to be fifty years old; the
last of them takes the sum out of its 64 bits, and the average that is reported is negative. -/
theorem latency_sum_runs_over :
    (∀ r ∈ List.replicate 5426 backdated, r.Clocked) ∧
      ¬ InInt64 (recordAll (afterSnapshot 0 0 5 initial) (List.replicate 5425 backdated) .intervalLatencyMicros +
        clamped backdated.latencyMicros) ∧
      (reported 0 0 5 (recordAll (afterSnapshot 0 0 5 initial)
        (List.replicate 5426 backdated))).averageLatencyMicros < 0 := by
  have hclocked : backdated.Clocked := ⟨by decide, by decide, by decide⟩
  have hall : ∀ n, ∀ r ∈ List.replicate n backdated, r.Clocked := by
    intro n r hr
    rw [List.eq_of_mem_replicate hr]
    exact hclocked
  have hstart : backdated.startMicros = 1 := startMicros_sentAt (by decide) (by decide)
  have hlatency : backdated.latencyMicros = 1699999999999999 := by
    rw [backdated.latencyMicros_eq, hstart]
    rfl
  have htotal : ∀ n : ℕ, totalMicros (List.replicate n backdated) = n * 1699999999999999 := by
    intro n
    rw [totalMicros, List.map_replicate, List.sum_replicate, hlatency, nsmul_eq_mul]
  have hcounters : ∀ n : ℕ,
      recordAll (afterSnapshot 0 0 5 initial) (List.replicate n backdated) .intervalLatencyMicros =
        wrap64 (n * 1699999999999999) ∧
      recordAll (afterSnapshot 0 0 5 initial) (List.replicate n backdated) .intervalLatencySamples = wrap64 n := by
    intro n
    have hrecorded := recordAll_counters (s := afterSnapshot 0 0 5 initial) rfl rfl (hall n)
    rwa [htotal, List.length_replicate] at hrecorded
  refine ⟨hall 5426, ?_, ?_⟩
  · rw [(hcounters 5425).1, hlatency]
    decide +kernel
  · rw [reported, (run_snapshotAndReset wrap64 _ _ _ _).1, (hcounters 5426).1, (hcounters 5426).2]
    decide +kernel

end ServerMetrics

end ChatService
