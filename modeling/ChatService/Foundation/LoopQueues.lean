import Mathlib.Data.List.Basic
import Mathlib.Data.List.Induction
import Mathlib.Logic.Function.Basic

/-!
# Messages to receivers that are served by loops

Every receiver belongs to a loop, and every message comes out of one.  A message that comes out of the receiver's own
loop is taken at once; any other is queued for that loop, which takes what is queued for it one by one, in this order.

* `Carried` — what has been taken and what is still queued, when these messages have been sent.
* `Carried.pairwise` — a message is overtaken only by one that comes out of the receiver's own loop.
* `Carried.perm` — nothing is lost, and nothing is taken twice.
* `exists_late` — the queue may be as late as can be.
-/

namespace LoopQueues

variable {Message Receiver Loop : Type*}

/-- What the receivers have taken, and what is queued for the loops, each in this order. -/
structure Wires (Message Receiver Loop : Type*) where
  taken : Receiver → List Message
  pending : Loop → List Message

namespace Wires

def empty : Wires Message Receiver Loop := ⟨fun _ => [], fun _ => []⟩

/-- Receiver `k` takes a message. -/
def take [DecidableEq Receiver] (w : Wires Message Receiver Loop) (k : Receiver) (m : Message) :
    Wires Message Receiver Loop :=
  { w with taken := Function.update w.taken k (w.taken k ++ [m]) }

def setPending [DecidableEq Loop] (w : Wires Message Receiver Loop) (l : Loop) (messages : List Message) :
    Wires Message Receiver Loop :=
  { w with pending := Function.update w.pending l messages }

section

variable {w : Wires Message Receiver Loop} {k k' : Receiver} {l l' : Loop} {m m' : Message} {messages : List Message}

section

variable [DecidableEq Receiver]

@[simp] theorem taken_take_self : (w.take k m).taken k = w.taken k ++ [m] := Function.update_self ..

theorem taken_take_of_ne (h : k' ≠ k) : (w.take k m).taken k' = w.taken k' := Function.update_of_ne h ..

@[simp] theorem pending_take : (w.take k m).pending = w.pending := rfl

theorem mem_taken_take (h : m' ∈ (w.take k m).taken k') : m' ∈ w.taken k' ∨ k' = k ∧ m' = m := by
  by_cases hk : k' = k
  · subst hk
    rw [taken_take_self, List.mem_append, List.mem_singleton] at h
    exact h.imp_right fun hm => ⟨rfl, hm⟩
  · rw [taken_take_of_ne hk] at h
    exact .inl h

theorem pairwise_taken_take {Q : Receiver → Message → Message → Prop} (h : ∀ k, (w.taken k).Pairwise (Q k))
    (hlast : ∀ m' ∈ w.taken k, Q k m' m) (k' : Receiver) : ((w.take k m).taken k').Pairwise (Q k') := by
  by_cases hk : k' = k
  · subst hk
    rw [taken_take_self]
    refine List.pairwise_append.mpr ⟨h _, List.pairwise_singleton _ _, fun m' hm' m'' hm'' => ?_⟩
    rw [List.mem_singleton.mp hm'']
    exact hlast m' hm'
  · rw [taken_take_of_ne hk]
    exact h k'

end

variable [DecidableEq Loop]

@[simp] theorem taken_setPending : (w.setPending l messages).taken = w.taken := rfl

@[simp] theorem pending_setPending_self : (w.setPending l messages).pending l = messages := Function.update_self ..

theorem pending_setPending_of_ne (h : l' ≠ l) : (w.setPending l messages).pending l' = w.pending l' :=
  Function.update_of_ne h ..

theorem mem_pending_setPending (h : m' ∈ (w.setPending l messages).pending l') :
    m' ∈ w.pending l' ∨ l' = l ∧ m' ∈ messages := by
  by_cases hl : l' = l
  · subst hl
    rw [pending_setPending_self] at h
    exact .inr ⟨rfl, h⟩
  · rw [pending_setPending_of_ne hl] at h
    exact .inl h

theorem pairwise_pending_setPending {R : Message → Message → Prop} (h : ∀ l, (w.pending l).Pairwise R)
    (hmessages : messages.Pairwise R) (l' : Loop) : ((w.setPending l messages).pending l').Pairwise R := by
  by_cases hl : l' = l
  · subst hl
    rwa [pending_setPending_self]
  · rw [pending_setPending_of_ne hl]
    exact h l'

end

end Wires

open Wires

variable [DecidableEq Receiver] [DecidableEq Loop] (receiver : Message → Receiver) (source : Message → Loop)
  (home : Receiver → Loop)

/-- These messages have been sent in this order. -/
inductive Carried : List Message → Wires Message Receiver Loop → Prop where
  | init : Carried [] .empty
  /-- from the receiver's own loop -/
  | direct {messages w m} : Carried messages w → source m = home (receiver m) →
      Carried (messages ++ [m]) (w.take (receiver m) m)
  /-- from another loop -/
  | queue {messages w m} : Carried messages w → source m ≠ home (receiver m) →
      Carried (messages ++ [m]) (w.setPending (home (receiver m)) (w.pending (home (receiver m)) ++ [m]))
  /-- the loop runs the next functor of its queue -/
  | drain {messages w l m rest} : Carried messages w → w.pending l = m :: rest →
      Carried messages ((w.setPending l rest).take (receiver m) m)

section

variable {receiver source home} {messages : List Message} {w : Wires Message Receiver Loop} {k : Receiver} {l : Loop}
  {m : Message}

/-! ### Order -/

/-- Where the messages are. -/
structure Placed (receiver : Message → Receiver) (source : Message → Loop) (home : Receiver → Loop)
    (messages : List Message) (w : Wires Message Receiver Loop) : Prop where
  taken : ∀ k, ∀ m ∈ w.taken k, receiver m = k ∧ m ∈ messages
  pending : ∀ l, ∀ m ∈ w.pending l, home (receiver m) = l ∧ source m ≠ l ∧ m ∈ messages

theorem Carried.placed (h : Carried receiver source home messages w) : Placed receiver source home messages w := by
  induction h with
  | init => exact ⟨fun _ _ hm => absurd hm List.not_mem_nil, fun _ _ hm => absurd hm List.not_mem_nil⟩
  | @direct messages w m _ _ ih =>
    refine ⟨fun k' m' hm' => ?_, fun l m' hm' => ?_⟩
    · rcases mem_taken_take hm' with hm' | ⟨rfl, rfl⟩
      · exact ⟨(ih.taken k' m' hm').1, List.mem_append_left _ (ih.taken k' m' hm').2⟩
      · exact ⟨rfl, by simp⟩
    · obtain ⟨hhome, hsource, hmem⟩ := ih.pending l m' hm'
      exact ⟨hhome, hsource, List.mem_append_left _ hmem⟩
  | @queue messages w m _ hother ih =>
    refine ⟨fun k' m' hm' => ⟨(ih.taken k' m' hm').1, List.mem_append_left _ (ih.taken k' m' hm').2⟩,
      fun l m' hm' => ?_⟩
    have hold : ∀ {l}, m' ∈ w.pending l → home (receiver m') = l ∧ source m' ≠ l ∧ m' ∈ messages ++ [m] := by
      intro l hm'
      obtain ⟨hhome, hsource, hmem⟩ := ih.pending l m' hm'
      exact ⟨hhome, hsource, List.mem_append_left _ hmem⟩
    rcases mem_pending_setPending hm' with hqueued | ⟨rfl, hqueued⟩
    · exact hold hqueued
    · rcases List.mem_append.mp hqueued with hqueued | hnew
      · exact hold hqueued
      · obtain rfl := List.mem_singleton.mp hnew
        exact ⟨rfl, hother, by simp⟩
  | @drain messages w l m rest _ hpending ih =>
    have hhead := ih.pending l m (by simp [hpending])
    refine ⟨fun k' m' hm' => ?_, fun l' m' hm' => ?_⟩
    · rcases mem_taken_take hm' with hm' | ⟨rfl, rfl⟩
      · exact ih.taken k' m' hm'
      · exact ⟨rfl, hhead.2.2⟩
    · rcases mem_pending_setPending hm' with hqueued | ⟨rfl, hqueued⟩
      · exact ih.pending l' m' hqueued
      · exact ih.pending l' m' (by simp [hpending, hqueued])

/-- The order in which the messages are taken and queued, if `R` holds of each of them and those that follow it. -/
structure Ordered (R : Message → Message → Prop) (source : Message → Loop) (home : Receiver → Loop)
    (w : Wires Message Receiver Loop) : Prop where
  taken : ∀ k, (w.taken k).Pairwise fun m m' => R m m' ∨ source m = home k ∧ source m' ≠ home k
  pending : ∀ l, (w.pending l).Pairwise R
  ahead : ∀ k, ∀ m ∈ w.taken k, ∀ m' ∈ w.pending (home k), R m m' ∨ source m = home k

section

variable {R : Message → Message → Prop}

omit [DecidableEq Loop] in
theorem Ordered.direct (h : Ordered R source home w) (hplaced : Placed receiver source home messages w)
    (hnew : ∀ m' ∈ messages, R m' m) (hown : source m = home (receiver m)) :
    Ordered R source home (w.take (receiver m) m) := by
  refine ⟨pairwise_taken_take h.taken fun m' hm' => .inl (hnew m' (hplaced.taken _ m' hm').2), h.pending,
    fun k m' hm' m'' hm'' => ?_⟩
  rcases mem_taken_take hm' with hm' | ⟨rfl, rfl⟩
  · exact h.ahead k m' hm' m'' hm''
  · exact .inr hown

omit [DecidableEq Receiver] in
theorem Ordered.queue (h : Ordered R source home w) (hplaced : Placed receiver source home messages w)
    (hnew : ∀ m' ∈ messages, R m' m) :
    Ordered R source home (w.setPending (home (receiver m)) (w.pending (home (receiver m)) ++ [m])) := by
  have hlast : (w.pending (home (receiver m)) ++ [m]).Pairwise R := by
    refine List.pairwise_append.mpr ⟨h.pending _, List.pairwise_singleton _ _, fun m' hm' m'' hm'' => ?_⟩
    rw [List.mem_singleton.mp hm'']
    exact hnew m' (hplaced.pending _ m' hm').2.2
  refine ⟨h.taken, pairwise_pending_setPending h.pending hlast, fun k m' hm' m'' hm'' => ?_⟩
  rcases mem_pending_setPending hm'' with hqueued | ⟨hl, hqueued⟩
  · exact h.ahead k m' hm' m'' hqueued
  · rcases List.mem_append.mp hqueued with hqueued | hlast
    · exact h.ahead k m' hm' m'' (hl ▸ hqueued)
    · rw [List.mem_singleton.mp hlast]
      exact .inl (hnew m' (hplaced.taken k m' hm').2)

theorem Ordered.drain (h : Ordered R source home w) (hplaced : Placed receiver source home messages w)
    {rest : List Message} (hpending : w.pending l = m :: rest) :
    Ordered R source home ((w.setPending l rest).take (receiver m) m) := by
  obtain ⟨rfl, hother, -⟩ := hplaced.pending l m (by simp [hpending])
  have hqueued := h.pending (home (receiver m))
  rw [hpending, List.pairwise_cons] at hqueued
  refine ⟨pairwise_taken_take h.taken fun m' hm' => ?_, pairwise_pending_setPending h.pending hqueued.2,
    fun k m' hm' m'' hm'' => ?_⟩
  · exact (h.ahead _ m' hm' m (by simp [hpending])).imp_right fun hown => ⟨hown, hother⟩
  · -- what is still queued was queued behind `m`, or for another loop
    have hrest : m'' ∈ w.pending (home k) := by
      rcases mem_pending_setPending hm'' with hold | ⟨hl, hold⟩
      · exact hold
      · rw [hl, hpending]
        exact List.mem_cons_of_mem _ hold
    rcases mem_taken_take hm' with hm' | ⟨rfl, rfl⟩
    · exact h.ahead k m' hm' m'' hrest
    · rw [pending_take, pending_setPending_self] at hm''
      exact .inl (hqueued.1 m'' hm'')

theorem Carried.ordered (h : Carried receiver source home messages w) (hR : messages.Pairwise R) :
    Ordered R source home w := by
  induction h with
  | init => exact ⟨fun _ => .nil, fun _ => .nil, fun _ _ hm => absurd hm List.not_mem_nil⟩
  | direct hcarried hown ih =>
    obtain ⟨hold, -, hnew⟩ := List.pairwise_append.mp hR
    exact (ih hold).direct hcarried.placed (fun m' hm' => hnew m' hm' _ (List.mem_singleton_self _)) hown
  | queue hcarried _ ih =>
    obtain ⟨hold, -, hnew⟩ := List.pairwise_append.mp hR
    exact (ih hold).queue hcarried.placed fun m' hm' => hnew m' hm' _ (List.mem_singleton_self _)
  | drain hcarried hpending ih => exact (ih hR).drain hcarried.placed hpending

end

/-- **Messages are taken in the order in which they were sent**, but that one which comes out of the receiver's own loop
may overtake one that does not. -/
theorem Carried.pairwise {R : Message → Message → Prop} (h : Carried receiver source home messages w)
    (hR : messages.Pairwise R) (k : Receiver) :
    (w.taken k).Pairwise fun m m' => R m m' ∨ source m = home k ∧ source m' ≠ home k :=
  (h.ordered hR).taken k

/-! ### Nothing is lost -/

/-- **What was sent to a receiver** has been taken, once, or is queued. -/
theorem Carried.perm (h : Carried receiver source home messages w) (k : Receiver) :
    (w.taken k ++ (w.pending (home k)).filter fun m => receiver m = k).Perm
      (messages.filter fun m => receiver m = k) := by
  induction h with
  | init => exact .nil
  | @direct messages w m _ _ ih =>
    rw [List.filter_append]
    by_cases hk : receiver m = k
    · subst hk
      rw [taken_take_self, pending_take, List.append_assoc]
      simp only [decide_true, List.filter_cons_of_pos, List.filter_nil]
      exact (List.Perm.append_left _ List.perm_append_comm).trans (by rw [← List.append_assoc]; exact ih.append_right _)
    · rw [taken_take_of_ne (Ne.symm hk), pending_take]
      simpa [hk] using ih
  | @queue messages w m _ _ ih =>
    rw [taken_setPending, List.filter_append]
    by_cases hl : home k = home (receiver m)
    · rw [hl, pending_setPending_self, ← hl, List.filter_append, ← List.append_assoc]
      exact ih.append_right _
    · have hk : receiver m ≠ k := fun hk => hl (by rw [hk])
      rw [pending_setPending_of_ne hl]
      simpa [hk] using ih
  | @drain messages w l m rest hcarried hpending ih =>
    obtain ⟨rfl, -, -⟩ := hcarried.placed.pending l m (by simp [hpending])
    by_cases hk : receiver m = k
    · subst hk
      rw [taken_take_self, pending_take, pending_setPending_self, List.append_assoc]
      rwa [hpending, List.filter_cons_of_pos (by simp)] at ih
    · rw [taken_take_of_ne (Ne.symm hk), pending_take, taken_setPending]
      by_cases hl : home k = home (receiver m)
      · rw [hl, pending_setPending_self]
        rwa [hl, hpending, List.filter_cons_of_neg (by simpa using hk)] at ih
      · rwa [pending_setPending_of_ne hl]

/-! ### Late loops -/

/-- A loop may run all that is queued for it. -/
theorem Carried.drain_all (h : Carried receiver source home messages w) (l : Loop) :
    ∃ w', Carried receiver source home messages w' ∧
      ∀ k, home k = l → w'.taken k = w.taken k ++ (w.pending l).filter fun m => receiver m = k := by
  generalize hqueued : w.pending l = queued
  induction queued generalizing w with
  | nil => exact ⟨w, h, fun k _ => (List.append_nil _).symm⟩
  | cons m rest ih =>
    obtain ⟨w', hcarried, htaken⟩ := ih (h.drain hqueued) pending_setPending_self
    refine ⟨w', hcarried, fun k hk => ?_⟩
    rw [htaken k hk]
    by_cases hm : receiver m = k
    · subst hm
      rw [taken_take_self, List.filter_cons_of_pos (by simp), List.append_assoc]
      rfl
    · rw [taken_take_of_ne (Ne.symm hm), List.filter_cons_of_neg (by simpa using hm)]
      rfl

/-- Until the end, nothing that is queued is run. -/
theorem exists_waiting (receiver : Message → Receiver) (source : Message → Loop) (home : Receiver → Loop)
    (messages : List Message) :
    ∃ w, Carried receiver source home messages w ∧
      (∀ k, w.taken k = messages.filter fun m => receiver m = k ∧ source m = home k) ∧
      ∀ l, w.pending l = messages.filter fun m => home (receiver m) = l ∧ source m ≠ l := by
  induction messages using List.reverseRecOn with
  | nil => exact ⟨.empty, .init, fun _ => rfl, fun _ => rfl⟩
  | append_singleton messages m ih =>
    obtain ⟨w, hcarried, htaken, hpending⟩ := ih
    by_cases hown : source m = home (receiver m)
    · refine ⟨_, hcarried.direct hown, fun k => ?_, fun l => ?_⟩
      · rw [List.filter_append]
        by_cases hk : receiver m = k
        · subst hk
          rw [taken_take_self, htaken, List.filter_cons_of_pos (by simpa using hown), List.filter_nil]
        · rw [taken_take_of_ne (Ne.symm hk), htaken, List.filter_cons_of_neg (by simp [hk]), List.filter_nil,
            List.append_nil]
      · have hnot : ¬ (home (receiver m) = l ∧ source m ≠ l) := fun h => h.2 (hown.trans h.1)
        rw [pending_take, hpending, List.filter_append, List.filter_cons_of_neg (by simpa using hnot),
          List.filter_nil, List.append_nil]
    · refine ⟨_, hcarried.queue hown, fun k => ?_, fun l => ?_⟩
      · have hnot : ¬ (receiver m = k ∧ source m = home k) := fun h => hown (by rw [h.1, h.2])
        rw [taken_setPending, htaken, List.filter_append, List.filter_cons_of_neg (by simpa using hnot),
          List.filter_nil, List.append_nil]
      · rw [List.filter_append]
        by_cases hl : home (receiver m) = l
        · subst hl
          rw [pending_setPending_self, hpending, List.filter_cons_of_pos (by simpa using hown), List.filter_nil]
        · rw [pending_setPending_of_ne (Ne.symm hl), hpending, List.filter_cons_of_neg (by simp [hl]),
            List.filter_nil, List.append_nil]

/-- **A loop may be late**: it takes what comes out of itself, and what is queued for it only at the end. -/
theorem exists_late (receiver : Message → Receiver) (source : Message → Loop) (home : Receiver → Loop)
    (messages : List Message) (l : Loop) :
    ∃ w, Carried receiver source home messages w ∧ ∀ k, home k = l →
      w.taken k = (messages.filter fun m => receiver m = k ∧ source m = l) ++
        messages.filter fun m => receiver m = k ∧ source m ≠ l := by
  obtain ⟨w, hcarried, htaken, hpending⟩ := exists_waiting receiver source home messages
  obtain ⟨w', hcarried', htaken'⟩ := hcarried.drain_all l
  refine ⟨w', hcarried', fun k hk => ?_⟩
  subst hk
  rw [htaken' k rfl, htaken, hpending, List.filter_filter]
  congr 1
  refine List.filter_congr fun m _ => ?_
  by_cases hm : receiver m = k
  · subst hm
    simp
  · simp [hm]

end

end LoopQueues
