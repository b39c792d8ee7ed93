import ChatService.Foundation.LabelledRuns
import ChatService.Server.CallEvents

/-!
# The life of a call, as the server announces it

Call ids may be used again after a call has ended, so what is sent under one id is a sequence of lives.

* `LifeStep` — the calls under one id: one begins, goes on, and ends before the next one begins.
* `Life` — the life of one call from its start: an invite, at most one accept, signaling after it, and one
  ending, which goes to the other participant.
* `call_traces_are_lives` — in the log of every run, each successful start is followed by the marks of one
  life, and the stage that this life has reached is the one in the call map.
-/

namespace ChatService

open AtomicProgram LabelledRuns

/-- The marks of a run are those of one step about the calls after the other. -/
theorem marks_run {storage : ChatStorage} {log : List (ServerState × Event Op Op.Response)}
    {s : ServerState} (h : Recorded server (.initial storage) log s) :
    Run CallStep CallManager.empty (marks log) s.callManager := by
  induction h with
  | init => exact .refl _
  | @run log s t i env hrecorded hadmits ih =>
    have hinOrder : InOrder (enter t i s) fun _ => .quiet :=
      server_keeps.enter (Serial.inOrder hrecorded.serial) rfl hadmits
    have hcalls : (enter t i s).callManager = s.callManager := by cases i <;> rfl
    have hstep : Does env (onInput t i) (enter t i s) := does_onInput hinOrder t i
    rw [Does, hcalls] at hstep
    rw [marks_append]
    exact ih.trans (.single hstep)

/-- The marks that concern the calls under one id. -/
def marksOf (id : Bytes) (log : List (ServerState × Event Op Op.Response)) : List CallMark :=
  (marks log).filter fun m => m.callId = id

theorem marksOf_append (id : Bytes) (log log' : List (ServerState × Event Op Op.Response)) :
    marksOf id (log ++ log') = marksOf id log ++ marksOf id log' := by
  rw [marksOf, marks_append, List.filter_append]
  rfl

/-- The calls under one id: one begins, goes on, and ends before the next one begins. -/
inductive LifeStep (id : Bytes) : Option CallRecord → List CallMark → Option CallRecord → Prop where
  | start {a b : Bytes} : LifeStep id none
    [.started a b id, .sent ⟨ascii "call_invite", a, b, id⟩] (some ⟨a, b, false⟩)
  | accept {a b : Bytes} : LifeStep id (some ⟨a, b, false⟩)
    [.sent ⟨ascii "call_accept", b, a, id⟩] (some ⟨a, b, true⟩)
  | signal {call : CallRecord} {x y type : Bytes} : call.between x y → call.Signals x type →
    LifeStep id (some call) [.sent ⟨type, x, y, id⟩] (some call)
  | finish {call : CallRecord} {x y type : Bytes} : call.between x y → call.EndsBy x type →
    LifeStep id (some call) [.removed x type id, .sent ⟨type, x, y, id⟩] none

/-- A step about the calls is one step in the life under its own id and none under another. -/
theorem CallStep.life {m m' : CallManager} {l : List CallMark} (h : CallStep m l m') (id : Bytes) :
    Run (LifeStep id) m.calls[id]? (l.filter fun k => k.callId = id) m'.calls[id]? := by
  cases h with
  | nothing => exact .refl _
  | @invite a b k hfree =>
    by_cases hk : k = id
    · subst hk
      have hnew : (m.withCall a b k).calls[k]? = some ⟨a, b, false⟩ := Tables.getElem?_insert_self ..
      rw [hfree, hnew]
      simpa [CallMark.callId] using Run.single (@LifeStep.start k a b)
    · have hold : (m.withCall a b k).calls[id]? = m.calls[id]? := Tables.getElem?_insert_of_ne hk
      rw [hold]
      simpa [CallMark.callId, hk] using Run.refl _
  | @accept a b k hpending =>
    by_cases hk : k = id
    · subst hk
      have hnew : (m.withAccepted a b k).calls[k]? = some ⟨a, b, true⟩ :=
        Tables.getElem?_insert_self ..
      rw [hpending, hnew]
      simpa [CallMark.callId] using Run.single (@LifeStep.accept k a b)
    · have hold : (m.withAccepted a b k).calls[id]? = m.calls[id]? :=
        Tables.getElem?_insert_of_ne hk
      rw [hold]
      simpa [CallMark.callId, hk] using Run.refl _
  | @signal call x y k type hcall hbetween hsignals =>
    by_cases hk : k = id
    · subst hk
      rw [hcall]
      simpa [CallMark.callId] using Run.single (@LifeStep.signal k _ _ _ _ hbetween hsignals)
    · simpa [CallMark.callId, hk] using Run.refl _
  | @finish call x y k type hcall hbetween hends =>
    by_cases hk : k = id
    · subst hk
      have hgone : (m.without k call).calls[k]? = none := Tables.getElem?_erase_self ..
      rw [hcall, hgone]
      simpa [CallMark.callId] using Run.single (@LifeStep.finish k _ _ _ _ hbetween hends)
    · have hold : (m.without k call).calls[id]? = m.calls[id]? := Tables.getElem?_erase_of_ne hk
      rw [hold]
      simpa [CallMark.callId, hk] using Run.refl _

/-- How far a call has come. -/
inductive Stage where
  | ringing
  | talking
  | ended
deriving DecidableEq, Repr

/-- What the call map holds at a stage. -/
def Stage.record (a b : Bytes) : Stage → Option CallRecord
  | ringing => some ⟨a, b, false⟩
  | talking => some ⟨a, b, true⟩
  | ended => none

/-- The life of a call from `a` to `b` from one stage to another. -/
inductive Life (a b id : Bytes) : Stage → List CallMark → Stage → Prop where
  | nil (stage : Stage) : Life a b id stage [] stage
  | accept {l : List CallMark} {stage : Stage} : Life a b id .talking l stage →
    Life a b id .ringing (.sent ⟨ascii "call_accept", b, a, id⟩ :: l) stage
  | offer {l : List CallMark} {stage : Stage} : Life a b id .talking l stage →
    Life a b id .talking (.sent ⟨ascii "webrtc_offer", a, b, id⟩ :: l) stage
  | answer {l : List CallMark} {stage : Stage} : Life a b id .talking l stage →
    Life a b id .talking (.sent ⟨ascii "webrtc_answer", b, a, id⟩ :: l) stage
  | candidate {x y : Bytes} {l : List CallMark} {stage : Stage} :
    (x = a ∧ y = b) ∨ (x = b ∧ y = a) → Life a b id .talking l stage →
    Life a b id .talking (.sent ⟨ascii "ice_candidate", x, y, id⟩ :: l) stage
  | cancel : Life a b id .ringing
    [.removed a (ascii "call_cancel") id, .sent ⟨ascii "call_cancel", a, b, id⟩] .ended
  | timeout : Life a b id .ringing
    [.removed a (ascii "call_timeout") id, .sent ⟨ascii "call_timeout", a, b, id⟩] .ended
  | reject : Life a b id .ringing
    [.removed b (ascii "call_reject") id, .sent ⟨ascii "call_reject", b, a, id⟩] .ended
  | hangup {x y : Bytes} : (x = a ∧ y = b) ∨ (x = b ∧ y = a) → Life a b id .talking
    [.removed x (ascii "call_hangup") id, .sent ⟨ascii "call_hangup", x, y, id⟩] .ended

/-- What an accepted call emits next is signaling. -/
theorem Life.signal {a b id x y type : Bytes} {l : List CallMark} {stage : Stage}
    (hbetween : (⟨a, b, true⟩ : CallRecord).between x y)
    (hsignals : (⟨a, b, true⟩ : CallRecord).Signals x type) (h : Life a b id .talking l stage) :
    Life a b id .talking (.sent ⟨type, x, y, id⟩ :: l) stage := by
  obtain ⟨-, htype, hoffer, hanswer⟩ := hsignals
  have hpartners : (x = a ∧ y = b) ∨ (x = b ∧ y = a) :=
    hbetween.imp (fun h => ⟨h.1.symm, h.2.symm⟩) fun h => ⟨h.2.symm, h.1.symm⟩
  have htypes : type = ascii "webrtc_offer" ∨ type = ascii "webrtc_answer" ∨
      type = ascii "ice_candidate" := by simpa [isSignalingType] using htype
  rcases htypes with rfl | rfl | rfl
  · obtain rfl : x = a := hoffer rfl
    obtain rfl : y = b := hbetween.eq_callee
    exact .offer h
  · obtain rfl : x = b := hanswer rfl
    obtain rfl : y = a := hbetween.eq_caller
    exact .answer h
  · exact .candidate hpartners h

/-- The end of a call is the last of its life. -/
theorem Life.finish {a b id x y type : Bytes} {stage : Stage} {call : CallRecord}
    (hrecord : some call = stage.record a b) (hbetween : call.between x y)
    (hends : call.EndsBy x type) :
    Life a b id stage [.removed x type id, .sent ⟨type, x, y, id⟩] .ended := by
  have hpartners : (x = call.caller ∧ y = call.callee) ∨ (x = call.callee ∧ y = call.caller) :=
    hbetween.imp (fun h => ⟨h.1.symm, h.2.symm⟩) fun h => ⟨h.2.symm, h.1.symm⟩
  cases stage with
  | ended => exact absurd hrecord (by simp [Stage.record])
  | talking =>
    obtain rfl : call = ⟨a, b, true⟩ := Option.some.inj hrecord
    obtain rfl : type = ascii "call_hangup" := hends
    exact .hangup hpartners
  | ringing =>
    obtain rfl : call = ⟨a, b, false⟩ := Option.some.inj hrecord
    have hends' : (x = a ∧ (type = ascii "call_cancel" ∨ type = ascii "call_timeout")) ∨
        (x = b ∧ type = ascii "call_reject") := hends
    rcases hends' with ⟨rfl, htype⟩ | ⟨rfl, rfl⟩
    · obtain rfl : y = b := hbetween.eq_callee
      rcases htype with rfl | rfl
      · exact .cancel
      · exact .timeout
    · obtain rfl : y = a := hbetween.eq_caller
      exact .reject

/-- The first life in a run of lives: it is all of the run, or it is over before the next one starts. -/
theorem exists_life {a b id : Bytes} {st st' : Option CallRecord} {l : List CallMark}
    (h : Run (LifeStep id) st l st') :
    ∀ {stage : Stage}, st = stage.record a b →
      ∃ life rest stage', l = life ++ rest ∧ Life a b id stage life stage' ∧
        ((rest = [] ∧ st' = stage'.record a b) ∨
          (stage' = .ended ∧ ∃ a' b' rest', rest = .started a' b' id :: rest')) := by
  induction h with
  | refl st =>
    intro stage hst
    exact ⟨[], [], stage, rfl, .nil stage, .inl ⟨rfl, hst⟩⟩
  | @step st₁ st₂ st₃ l₁ l₂ hstep hrest ih =>
    intro stage hst
    cases hstep with
    | @start a' b' =>
      -- the next call begins, so this one is over
      have hover : stage = .ended := by
        cases stage with
        | ended => rfl
        | ringing => exact absurd hst (by simp [Stage.record])
        | talking => exact absurd hst (by simp [Stage.record])
      subst hover
      exact ⟨[], _, .ended, rfl, .nil .ended, .inr ⟨rfl, a', b', _, rfl⟩⟩
    | @accept a' b' =>
      have hringing : stage = .ringing ∧ a' = a ∧ b' = b := by
        cases stage <;> simp [Stage.record] at hst
        exact ⟨rfl, hst⟩
      obtain ⟨rfl, rfl, rfl⟩ := hringing
      obtain ⟨life, rest, stage', hl, hlife, hend⟩ := ih (show _ = Stage.talking.record _ _ from rfl)
      exact ⟨_, rest, stage', by rw [hl]; rfl, hlife.accept, hend⟩
    | @signal call x y type hbetween hsignals =>
      have htalking : stage = .talking ∧ call = ⟨a, b, true⟩ := by
        cases stage with
        | ended => exact absurd hst (by simp [Stage.record])
        | talking => exact ⟨rfl, Option.some.inj hst⟩
        | ringing =>
          obtain rfl : call = ⟨a, b, false⟩ := Option.some.inj hst
          exact absurd hsignals.1 (by simp)
      obtain ⟨rfl, rfl⟩ := htalking
      obtain ⟨life, rest, stage', hl, hlife, hend⟩ := ih (show _ = Stage.talking.record _ _ from rfl)
      exact ⟨_, rest, stage', by rw [hl]; rfl, hlife.signal hbetween hsignals, hend⟩
    | @finish call x y type hbetween hends =>
      obtain ⟨life, rest, stage', hl, hlife, hend⟩ := ih (show _ = Stage.ended.record _ _ from rfl)
      -- nothing follows the end
      cases hlife with
      | nil =>
        exact ⟨_, rest, .ended, by rw [hl, List.nil_append], Life.finish hst hbetween hends, hend⟩

/-- What follows a start: the invite, and the life of the new call. -/
theorem run_of_started {a b id : Bytes} {st st' : Option CallRecord} {l after : List CallMark}
    (h : Run (LifeStep id) st l st') (hl : l = .started a b id :: after) :
    ∃ after', after = .sent ⟨ascii "call_invite", a, b, id⟩ :: after' ∧
      Run (LifeStep id) (some ⟨a, b, false⟩) after' st' := by
  cases h with
  | refl => exact absurd hl (by simp)
  | @step _ m _ l₁ l₂ hstep hrest =>
    cases hstep with
    | @start a' b' =>
      obtain ⟨⟨rfl, rfl⟩, rfl⟩ : (a' = a ∧ b' = b) ∧
          .sent ⟨ascii "call_invite", a', b', id⟩ :: l₂ = after := by simpa using hl
      exact ⟨l₂, rfl, hrest⟩
    | accept => exact absurd hl (by simp)
    | signal => exact absurd hl (by simp)
    | finish => exact absurd hl (by simp)

/-- **Every call lives by the rules.**  In the log of a run of whole handlers, a successful `startCall`
from `a` to `b` is followed, among the marks of its id, by one `call_invite` to `b` and then the rest of
one life, up to the next successful `startCall` with this id, if there is one: then the life is over.
Otherwise the stage it has reached is what the call map holds. -/
theorem call_traces_are_lives (storage : ChatStorage)
    {log : List (ServerState × Event Op Op.Response)} {s : ServerState}
    (hrun : Recorded server (.initial storage) log s) {a b id : Bytes}
    {before after : List CallMark} (hstart : marksOf id log = before ++ .started a b id :: after) :
    ∃ life rest stage,
      after = .sent ⟨ascii "call_invite", a, b, id⟩ :: (life ++ rest) ∧
      Life a b id .ringing life stage ∧
      ((rest = [] ∧ s.callManager.calls[id]? = stage.record a b) ∨
        (stage = .ended ∧ ∃ a' b' rest', rest = .started a' b' id :: rest')) := by
  have hlives : Run (LifeStep id) none (marksOf id log) s.callManager.calls[id]? :=
    Run.project (fun m : CallManager => m.calls[id]?) _ (fun m l m' hstep => hstep.life id)
      (marks_run hrun)
  have hfirst : ∀ st l st', LifeStep id st l st' → ∀ before after,
      l = before ++ .started a b id :: after → before = [] := by
    intro st l st' hstep before after hl
    cases before with
    | nil => rfl
    | cons k before => cases hstep <;> simp [List.cons_eq_append_iff] at hl
  obtain ⟨st, -, hrest⟩ := Run.split hfirst hlives hstart
  obtain ⟨after', rfl, hlife⟩ := run_of_started hrest rfl
  obtain ⟨life, rest, stage, rfl, hlife', hend⟩ := exists_life (a := a) (b := b) hlife
    (show _ = Stage.ringing.record a b from rfl)
  exact ⟨life, rest, stage, rfl, hlife', hend⟩

/-- The other call requests. -/
def callRequest (type target callId : String) : Input :=
  .request ((((∅ : JsonObject).insert (ascii "type") (ascii type)).insert (ascii "to")
    (ascii target)).insert (ascii "call_id") (ascii callId))

/-- Alice calls bob, … -/
def ringing : ServerState := serve1 ⟨0, true⟩ 1 (inviteRequest "bob" "c1") aliceAndBob

/-- … and bob accepts. -/
def talking : ServerState := serve1 ⟨0, true⟩ 2 (callRequest "call_accept" "alice" "c1") ringing

/-- What the server announces when alice calls bob and bob accepts. -/
theorem accepted_call_lives :
    ∃ life rest stage,
      [CallMark.sent ⟨ascii "call_invite", ascii "alice", ascii "bob", ascii "c1"⟩,
        CallMark.sent ⟨ascii "call_accept", ascii "bob", ascii "alice", ascii "c1"⟩] =
        .sent ⟨ascii "call_invite", ascii "alice", ascii "bob", ascii "c1"⟩ :: (life ++ rest) ∧
      Life (ascii "alice") (ascii "bob") (ascii "c1") .ringing life stage ∧
      ((rest = [] ∧
          talking.callManager.calls[ascii "c1"]? = stage.record (ascii "alice") (ascii "bob")) ∨
        (stage = .ended ∧ ∃ a' b' rest', rest = .started a' b' (ascii "c1") :: rest')) := by
  obtain ⟨log, hlog⟩ := aliceAndBob_reachable.recorded
  have hringing : Recorded server _ _ ringing :=
    Recorded.serve1 hlog (admits_request (by decide +kernel) _)
  have htalking : Recorded server _ _ talking :=
    Recorded.serve1 hringing (admits_request (by decide +kernel) _)
  have hmarks : marksOf (ascii "c1")
        (actions ⟨0, true⟩ 1 (inviteRequest "bob" "c1") aliceAndBob) ++
      marksOf (ascii "c1") (actions ⟨0, true⟩ 2 (callRequest "call_accept" "alice" "c1") ringing) =
      [.started (ascii "alice") (ascii "bob") (ascii "c1"),
        .sent ⟨ascii "call_invite", ascii "alice", ascii "bob", ascii "c1"⟩,
        .sent ⟨ascii "call_accept", ascii "bob", ascii "alice", ascii "c1"⟩] := by
    decide +kernel
  have hstart : marksOf (ascii "c1") (log ++
        actions ⟨0, true⟩ 1 (inviteRequest "bob" "c1") aliceAndBob ++
        actions ⟨0, true⟩ 2 (callRequest "call_accept" "alice" "c1") ringing) =
      marksOf (ascii "c1") log ++ .started (ascii "alice") (ascii "bob") (ascii "c1") ::
        [.sent ⟨ascii "call_invite", ascii "alice", ascii "bob", ascii "c1"⟩,
          .sent ⟨ascii "call_accept", ascii "bob", ascii "alice", ascii "c1"⟩] := by
    rw [← hmarks, marksOf_append, marksOf_append, List.append_assoc]
  exact call_traces_are_lives .empty htalking hstart

end ChatService
