import ChatService.Client.CallContract
import Mathlib.Logic.Relation

/-!
# One call, between its caller, its callee and the server

Seen from one call, the web clients and the server are two sides and a record, joined by four queues.
`OneCall.Step` lists what can happen, and `OneCall.Inv` what always holds: the right to answer the call is a
token that is handed on, an ending announces that the record is gone, and whoever has left has said so.
-/

namespace ChatService

/-- What a side tells the server about the call. -/
inductive Up where
  | invite
  | accept
  | reject
  | cancel
  | hangup
  | signal
deriving DecidableEq, Repr

/-- What the server tells a side about the call. -/
inductive Down where
  | invite
  | accept
  | ending
  | signal
deriving DecidableEq, Repr

/-- One call: the two sides, what is under way between them and the server, and the server's record of it,
which says whether it has been accepted. -/
structure OneCall where
  caller : CallView
  callee : CallView
  callerUp : List Up
  calleeUp : List Up
  callerDown : List Down
  calleeDown : List Down
  record : Option Bool
deriving DecidableEq

namespace OneCall

/-- The caller has just called. -/
def start : OneCall := ⟨.outgoing, .inactive, [.invite], [], [], [], none⟩

/-! ### Steps -/

/-- The caller acts. -/
inductive CallerActs (k : OneCall) : OneCall → Prop where
  | cancel : k.caller = .outgoing →
    CallerActs k { k with caller := .inactive, callerUp := k.callerUp ++ [.cancel] }
  | hangup : k.caller = .talking →
    CallerActs k { k with caller := .inactive, callerUp := k.callerUp ++ [.hangup] }
  | signal : k.caller = .talking → CallerActs k { k with callerUp := k.callerUp ++ [.signal] }

/-- The callee acts. -/
inductive CalleeActs (k : OneCall) : OneCall → Prop where
  | reject : k.callee = .incoming →
    CalleeActs k { k with callee := .inactive, calleeUp := k.calleeUp ++ [.reject] }
  | accept : k.callee = .incoming →
    CalleeActs k { k with callee := .talking, calleeUp := k.calleeUp ++ [.accept] }
  | hangup : k.callee = .talking →
    CalleeActs k { k with callee := .inactive, calleeUp := k.calleeUp ++ [.hangup] }
  | signal : k.callee = .talking → CalleeActs k { k with calleeUp := k.calleeUp ++ [.signal] }

/-- The server reads what the caller has sent.  It may refuse an invitation for reasons that lie elsewhere.
A cancellation that comes too late, after the call has been accepted, is left out. -/
inductive ServesCaller (k : OneCall) : OneCall → Prop where
  | invited {rest : List Up} : k.callerUp = .invite :: rest → k.record = none →
    ServesCaller k
      { k with callerUp := rest, record := some false, calleeDown := k.calleeDown ++ [.invite] }
  | cancelled {rest : List Up} : k.callerUp = .cancel :: rest → k.record = some false →
    ServesCaller k { k with callerUp := rest, record := none, calleeDown := k.calleeDown ++ [.ending] }
  | hungUp {rest : List Up} : k.callerUp = .hangup :: rest → k.record = some true →
    ServesCaller k { k with callerUp := rest, record := none, calleeDown := k.calleeDown ++ [.ending] }
  | forwarded {rest : List Up} : k.callerUp = .signal :: rest → k.record = some true →
    ServesCaller k { k with callerUp := rest, calleeDown := k.calleeDown ++ [.signal] }
  | refused {up : Up} {rest : List Up} : k.callerUp = up :: rest → up ≠ .accept → up ≠ .reject →
    (up = .cancel → k.record = none) → (up = .hangup ∨ up = .signal → k.record ≠ some true) →
    ServesCaller k { k with callerUp := rest, callerDown := k.callerDown ++ [.ending] }

/-- The server reads what the callee has sent. -/
inductive ServesCallee (k : OneCall) : OneCall → Prop where
  | accepted {rest : List Up} : k.calleeUp = .accept :: rest → k.record = some false →
    ServesCallee k
      { k with calleeUp := rest, record := some true, callerDown := k.callerDown ++ [.accept] }
  | rejected {rest : List Up} : k.calleeUp = .reject :: rest → k.record = some false →
    ServesCallee k { k with calleeUp := rest, record := none, callerDown := k.callerDown ++ [.ending] }
  | hungUp {rest : List Up} : k.calleeUp = .hangup :: rest → k.record = some true →
    ServesCallee k { k with calleeUp := rest, record := none, callerDown := k.callerDown ++ [.ending] }
  | forwarded {rest : List Up} : k.calleeUp = .signal :: rest → k.record = some true →
    ServesCallee k { k with calleeUp := rest, callerDown := k.callerDown ++ [.signal] }
  | refused {up : Up} {rest : List Up} : k.calleeUp = up :: rest → up ≠ .invite → up ≠ .cancel →
    (up = .accept ∨ up = .reject → k.record ≠ some false) →
    (up = .hangup ∨ up = .signal → k.record ≠ some true) →
    ServesCallee k { k with calleeUp := rest, calleeDown := k.calleeDown ++ [.ending] }

/-- The caller reads what the server has sent. -/
inductive CallerReads (k : OneCall) : OneCall → Prop where
  | connected {rest : List Down} : k.callerDown = .accept :: rest → k.caller = .outgoing →
    CallerReads k { k with callerDown := rest, caller := .talking }
  | ended {rest : List Down} : k.callerDown = .ending :: rest →
    CallerReads k { k with callerDown := rest, caller := .inactive }
  | ignored {down : Down} {rest : List Down} : k.callerDown = down :: rest → down ≠ .ending →
    (down = .accept → k.caller ≠ .outgoing) → CallerReads k { k with callerDown := rest }

/-- The callee reads what the server has sent; if it is busy with another call, it declines. -/
inductive CalleeReads (k : OneCall) : OneCall → Prop where
  | rings {rest : List Down} : k.calleeDown = .invite :: rest → k.callee = .inactive →
    CalleeReads k { k with calleeDown := rest, callee := .incoming }
  | declines {rest : List Down} : k.calleeDown = .invite :: rest →
    CalleeReads k { k with calleeDown := rest, calleeUp := k.calleeUp ++ [.reject] }
  | ended {rest : List Down} : k.calleeDown = .ending :: rest →
    CalleeReads k { k with calleeDown := rest, callee := .inactive }
  | ignored {down : Down} {rest : List Down} : k.calleeDown = down :: rest → down ≠ .ending →
    down ≠ .invite → CalleeReads k { k with calleeDown := rest }

/-- What can happen to a call. -/
inductive Step (k k' : OneCall) : Prop where
  | callerActs : CallerActs k k' → Step k k'
  | calleeActs : CalleeActs k k' → Step k k'
  | servesCaller : ServesCaller k k' → Step k k'
  | servesCallee : ServesCallee k k' → Step k k'
  | callerReads : CallerReads k k' → Step k k'
  | calleeReads : CalleeReads k k' → Step k k'

/-! ### The invariant -/

/-- Where the right to answer the call is: with the invitation, the ringing callee, or the answer. -/
def tokens (k : OneCall) : ℕ :=
  k.callerUp.count .invite + k.calleeDown.count .invite + (if k.callee = .incoming then 1 else 0) +
    k.calleeUp.count .accept + k.calleeUp.count .reject

/-- The call has been answered, or it is over. -/
def Answered (k : OneCall) : Prop := k.record ≠ some false ∧ .invite ∉ k.callerUp

/-- What always holds of a call. -/
structure Inv (k : OneCall) : Prop where
  callerRole : k.caller ≠ .incoming
  calleeRole : k.callee ≠ .outgoing
  token : k.tokens ≤ 1
  spent : k.record = some true → k.tokens = 0
  inviteFirst : .invite ∈ k.callerUp → k.callerUp.head? = some .invite
  ringFirst : .invite ∈ k.calleeDown → k.calleeDown.head? = some .invite
  acceptFirst : .accept ∈ k.calleeUp → k.calleeUp.head? = some .accept
  unseen : .invite ∈ k.callerUp → k.record = none ∧ k.callerDown = [] ∧ k.calleeDown = [] ∧
    k.calleeUp = [] ∧ k.callee = .inactive ∧ k.caller ≠ .talking ∧
      (k.caller = .outgoing ∨ .cancel ∈ k.callerUp) ∧ .hangup ∉ k.callerUp ∧ .signal ∉ k.callerUp
  silent : k.callee = .incoming → k.calleeUp = []
  unheard : .invite ∈ k.calleeDown → k.calleeUp = [] ∧ k.callee = .inactive
  waiting : k.caller = .outgoing → .signal ∉ k.callerUp
  callerKnown : k.caller ≠ .inactive →
    .invite ∈ k.callerUp ∨ k.record ≠ none ∨ .ending ∈ k.callerDown
  calleeKnown : k.callee ≠ .inactive ∨ .invite ∈ k.calleeDown →
    k.record ≠ none ∨ .ending ∈ k.calleeDown
  callerThere : k.record ≠ none → k.caller ≠ .inactive ∨ .cancel ∈ k.callerUp ∨ .hangup ∈ k.callerUp
  calleeThere : k.record ≠ none → k.callee ≠ .inactive ∨ .invite ∈ k.calleeDown ∨
    .reject ∈ k.calleeUp ∨ .hangup ∈ k.calleeUp
  callerEnding : .ending ∈ k.callerDown → k.caller ≠ .inactive → k.record = none
  calleeEnding : .ending ∈ k.calleeDown → k.callee ≠ .inactive ∨ .invite ∈ k.calleeDown →
    k.record = none
  callerStays : k.caller ≠ .inactive → .cancel ∉ k.callerUp ∧ .hangup ∉ k.callerUp
  calleeStays : k.callee ≠ .inactive → .reject ∉ k.calleeUp ∧ .hangup ∉ k.calleeUp
  callerAnswered : k.caller = .talking ∨ .accept ∈ k.callerDown ∨ .hangup ∈ k.callerUp ∨
    .signal ∈ k.callerUp → k.Answered
  calleeAnswered : k.callee = .talking ∨ .hangup ∈ k.calleeUp ∨ .signal ∈ k.calleeUp →
    .accept ∈ k.calleeUp ∨ k.Answered

attribute [grind cases] Inv
attribute [grind] tokens Answered

theorem inv_start : start.Inv := by
  constructor <;> simp [start, tokens, Answered]

variable {k k' : OneCall}

theorem CallerActs.inv (hs : CallerActs k k') (h : k.Inv) : k'.Inv := by
  cases hs with
  | cancel houtgoing => constructor <;> grind
  | hangup htalking => constructor <;> grind
  | signal htalking => constructor <;> grind

theorem CalleeActs.inv (hs : CalleeActs k k') (h : k.Inv) : k'.Inv := by
  cases hs with
  | reject hincoming => constructor <;> grind
  | accept hincoming => constructor <;> grind
  | hangup htalking => constructor <;> grind
  | signal htalking => constructor <;> grind

theorem Answered.record_eq_none (h : k.Answered) (hrecord : k.record ≠ some true) :
    k.record = none := by
  cases hr : k.record with
  | none => rfl
  | some accepted =>
    cases accepted with
    | true => exact absurd hr hrecord
    | false => exact absurd hr h.1

/-- What the server refuses the caller concerns a call that is not there. -/
theorem Inv.callerRefused (h : k.Inv) {up : Up} {rest : List Up} (hup : k.callerUp = up :: rest)
    (haccept : up ≠ .accept) (hreject : up ≠ .reject) (hcancel : up = .cancel → k.record = none)
    (htalking : up = .hangup ∨ up = .signal → k.record ≠ some true) : k.record = none := by
  have hmem : up ∈ k.callerUp := by
    rw [hup]
    exact List.mem_cons_self
  cases up with
  | invite => exact (h.unseen hmem).1
  | accept => exact absurd rfl haccept
  | reject => exact absurd rfl hreject
  | cancel => exact hcancel rfl
  | hangup =>
    have hanswered : k.Answered := h.callerAnswered (.inr (.inr (.inl hmem)))
    exact hanswered.record_eq_none (htalking (.inl rfl))
  | signal =>
    have hanswered : k.Answered := h.callerAnswered (.inr (.inr (.inr hmem)))
    exact hanswered.record_eq_none (htalking (.inr rfl))

/-- What the server refuses the callee concerns a call that is gone. -/
theorem Inv.calleeRefused (h : k.Inv) {up : Up} {rest : List Up} (hup : k.calleeUp = up :: rest)
    (hinvite : up ≠ .invite) (hcancel : up ≠ .cancel)
    (hanswer : up = .accept ∨ up = .reject → k.record ≠ some false)
    (htalking : up = .hangup ∨ up = .signal → k.record ≠ some true) : k.record = none := by
  -- who answers holds the token, so the call has not been accepted
  have htoken : up = .accept ∨ up = .reject → k.record ≠ some true := by
    intro hup' htrue
    have hspent := h.spent htrue
    rcases hup' with rfl | rfl <;> simp [tokens, hup] at hspent
  -- an acceptance comes before everything else
  have hlate : up = .hangup ∨ up = .signal → k.Answered := by
    intro hup'
    have haccept : .accept ∉ k.calleeUp := by
      intro haccept
      have hfirst := h.acceptFirst haccept
      rw [hup] at hfirst
      obtain rfl := Option.some.inj hfirst
      exact absurd hup' (by decide)
    have hmem : up ∈ k.calleeUp := by
      rw [hup]
      exact List.mem_cons_self
    refine (h.calleeAnswered ?_).resolve_left haccept
    rcases hup' with rfl | rfl
    · exact .inr (.inl hmem)
    · exact .inr (.inr hmem)
  have hboth : up = .accept ∨ up = .reject → k.record = none := by
    intro hup'
    cases hr : k.record with
    | none => rfl
    | some accepted =>
      cases accepted with
      | true => exact absurd hr (htoken hup')
      | false => exact absurd hr (hanswer hup')
  cases up with
  | invite => exact absurd rfl hinvite
  | cancel => exact absurd rfl hcancel
  | accept => exact hboth (.inl rfl)
  | reject => exact hboth (.inr rfl)
  | hangup => exact (hlate (.inl rfl)).record_eq_none (htalking (.inl rfl))
  | signal => exact (hlate (.inr rfl)).record_eq_none (htalking (.inr rfl))

theorem ServesCaller.inv (hs : ServesCaller k k') (h : k.Inv) : k'.Inv := by
  cases hs with
  | invited hup hrecord => constructor <;> grind
  | cancelled hup hrecord => constructor <;> grind
  | hungUp hup hrecord => constructor <;> grind
  | forwarded hup hrecord => constructor <;> grind
  | @refused up rest hup haccept hreject hcancel htalking =>
    have hgone : k.record = none := h.callerRefused hup haccept hreject hcancel htalking
    constructor <;> grind

theorem ServesCallee.inv (hs : ServesCallee k k') (h : k.Inv) : k'.Inv := by
  cases hs with
  | accepted hup hrecord => constructor <;> grind
  | rejected hup hrecord => constructor <;> grind
  | hungUp hup hrecord => constructor <;> grind
  | forwarded hup hrecord => constructor <;> grind
  | @refused up rest hup hinvite hcancel hanswer htalking =>
    have hgone : k.record = none := h.calleeRefused hup hinvite hcancel hanswer htalking
    constructor <;> grind

theorem CallerReads.inv (hs : CallerReads k k') (h : k.Inv) : k'.Inv := by
  cases hs with
  | connected hdown houtgoing => constructor <;> grind
  | ended hdown => constructor <;> grind
  | ignored hdown hending haccept => constructor <;> grind

theorem CalleeReads.inv (hs : CalleeReads k k') (h : k.Inv) : k'.Inv := by
  cases hs with
  | rings hdown hinactive => constructor <;> grind
  | declines hdown => constructor <;> grind
  | ended hdown => constructor <;> grind
  | ignored hdown hending hinvite => constructor <;> grind

theorem Step.inv (hs : Step k k') (h : k.Inv) : k'.Inv := by
  cases hs with
  | callerActs hs => exact hs.inv h
  | calleeActs hs => exact hs.inv h
  | servesCaller hs => exact hs.inv h
  | servesCallee hs => exact hs.inv h
  | callerReads hs => exact hs.inv h
  | calleeReads hs => exact hs.inv h

/-- **With nothing under way, both sides are in the call exactly when the server has a record of it.** -/
theorem Inv.agree (h : k.Inv) (hcallerUp : k.callerUp = []) (hcalleeUp : k.calleeUp = [])
    (hcallerDown : k.callerDown = []) (hcalleeDown : k.calleeDown = []) :
    (k.caller ≠ .inactive ↔ k.record ≠ none) ∧ (k.callee ≠ .inactive ↔ k.record ≠ none) := by
  refine ⟨⟨fun hactive => ?_, fun hrecord => ?_⟩, fun hactive => ?_, fun hrecord => ?_⟩
  · have hknown := h.callerKnown hactive
    rw [hcallerUp, hcallerDown] at hknown
    simpa using hknown
  · have hthere := h.callerThere hrecord
    rw [hcallerUp] at hthere
    simpa using hthere
  · have hknown := h.calleeKnown (.inl hactive)
    rw [hcalleeDown] at hknown
    simpa using hknown
  · have hthere := h.calleeThere hrecord
    rw [hcalleeUp, hcalleeDown] at hthere
    simpa using hthere

/-! ### One side -/

/-- What a side does on its own, and what it tells the server. -/
inductive SideActs : CallView → List Up → CallView → Prop where
  | stay (view : CallView) : SideActs view [] view
  | cancel : SideActs .outgoing [.cancel] .inactive
  | reject : SideActs .incoming [.reject] .inactive
  | accept : SideActs .incoming [.accept] .talking
  | hangup : SideActs .talking [.hangup] .inactive
  | signal : SideActs .talking [.signal] .talking

/-- What a side does when it is told something, and what it tells the server then.  What it reads may be
about another call. -/
inductive SideReads : CallView → List Down → List Up → CallView → Prop where
  | elsewhere (view : CallView) : SideReads view [] [] view
  | ring : SideReads .inactive [.invite] [] .incoming
  | decline (view : CallView) : SideReads view [.invite] [.reject] view
  | connect : SideReads .outgoing [.accept] [] .talking
  | ended (view : CallView) : SideReads view [.ending] [] .inactive
  | ignored {view : CallView} {down : Down} : down ≠ .ending → down ≠ .invite →
    (down = .accept → view ≠ .outgoing) → SideReads view [down] [] view
  | hangup : SideReads .talking [.signal] [.hangup] .inactive

variable {view : CallView} {ups : List Up} {downs rest : List Down}

theorem SideActs.caller (hs : SideActs k.caller ups view) (h : k.Inv) :
    Relation.ReflTransGen Step k { k with caller := view, callerUp := k.callerUp ++ ups } := by
  obtain ⟨caller, callee, callerUp, calleeUp, callerDown, calleeDown, record⟩ := k
  cases hs with
  | stay =>
    rw [List.append_nil]
  | cancel => exact .single (.callerActs (.cancel rfl))
  | reject => exact absurd rfl h.callerRole
  | accept => exact absurd rfl h.callerRole
  | hangup => exact .single (.callerActs (.hangup rfl))
  | signal => exact .single (.callerActs (.signal rfl))

theorem SideActs.callee (hs : SideActs k.callee ups view) (h : k.Inv) :
    Relation.ReflTransGen Step k { k with callee := view, calleeUp := k.calleeUp ++ ups } := by
  obtain ⟨caller, callee, callerUp, calleeUp, callerDown, calleeDown, record⟩ := k
  cases hs with
  | stay =>
    rw [List.append_nil]
  | cancel => exact absurd rfl h.calleeRole
  | reject => exact .single (.calleeActs (.reject rfl))
  | accept => exact .single (.calleeActs (.accept rfl))
  | hangup => exact .single (.calleeActs (.hangup rfl))
  | signal => exact .single (.calleeActs (.signal rfl))

/-- The caller is not told that it is called. -/
theorem SideReads.caller (hs : SideReads k.caller downs ups view) (hdown : k.callerDown = downs ++ rest)
    (hinvite : .invite ∉ downs) : Relation.ReflTransGen Step k
      { k with caller := view, callerUp := k.callerUp ++ ups, callerDown := rest } := by
  obtain ⟨caller, callee, callerUp, calleeUp, callerDown, calleeDown, record⟩ := k
  obtain rfl : callerDown = downs ++ rest := hdown
  cases hs with
  | elsewhere =>
    rw [List.append_nil]
    exact .refl
  | ring => exact absurd List.mem_cons_self hinvite
  | decline => exact absurd List.mem_cons_self hinvite
  | connect =>
    rw [List.append_nil]
    exact .single (.callerReads (.connected rfl rfl))
  | ended =>
    rw [List.append_nil]
    exact .single (.callerReads (.ended rfl))
  | ignored hending _ haccept =>
    rw [List.append_nil]
    exact .single (.callerReads (.ignored rfl hending haccept))
  | hangup =>
    -- it takes the signaling, and hangs up
    refine .tail (.single (.callerReads (.ignored rfl nofun nofun))) (.callerActs (.hangup rfl))

theorem SideReads.callee (hs : SideReads k.callee downs ups view) (hdown : k.calleeDown = downs ++ rest)
    (h : k.Inv) : Relation.ReflTransGen Step k
      { k with callee := view, calleeUp := k.calleeUp ++ ups, calleeDown := rest } := by
  obtain ⟨caller, callee, callerUp, calleeUp, callerDown, calleeDown, record⟩ := k
  obtain rfl : calleeDown = downs ++ rest := hdown
  cases hs with
  | elsewhere =>
    rw [List.append_nil]
    exact .refl
  | ring =>
    rw [List.append_nil]
    exact .single (.calleeReads (.rings rfl rfl))
  | decline => exact .single (.calleeReads (.declines rfl))
  | connect => exact absurd rfl h.calleeRole
  | ended =>
    rw [List.append_nil]
    exact .single (.calleeReads (.ended rfl))
  | ignored hending hinvite _ =>
    rw [List.append_nil]
    exact .single (.calleeReads (.ignored rfl hending hinvite))
  | hangup =>
    refine .tail (.single (.calleeReads (.ignored rfl nofun nofun))) (.calleeActs (.hangup rfl))

theorem inv_of_steps (hs : Relation.ReflTransGen Step k k') (h : k.Inv) : k'.Inv := by
  induction hs with
  | refl => exact h
  | tail _ hstep ih => exact hstep.inv ih

end OneCall

end ChatService
