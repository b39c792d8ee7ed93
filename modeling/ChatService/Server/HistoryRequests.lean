import ChatService.Common.NumberTokens
import ChatService.Server.ChatServer

/-!
# The numbers of a history request

`limit` and `before` may be numbers.  The server reads the front of the token with `strtoll`, so that a number is taken
for what it is worth if its exponent is zero, and for something else if its exponent moves the dot
(`number_forms_served_iff`).
-/

namespace ChatService

open AtomicProgram Byte

/-- How a `SELECT` of the history is cut: what `LIMIT` is bound to, and what `created_at` has to stay below. -/
structure HistoryCut where
  limit : ℤ
  cutOff : Option ℤ
deriving DecidableEq

/-- The cut of an action that reads the history. -/
def historyCut : Op → Option HistoryCut
  | .loadPrivateHistory _ _ limit before =>
    some ⟨ChatStorage.sanitizeLimit limit, if before ≤ 0 then none else some before⟩
  | .loadRoomHistory _ limit before =>
    some ⟨ChatStorage.sanitizeLimit limit, if before ≤ 0 then none else some before⟩
  | _ => none

/-- The reads of the history in the course of a request. -/
def historyCuts (env : Env) (session : Conn) (request : JsonObject) (s : ServerState) : List HistoryCut :=
  ((handleRequest session request).log exec env s).filterMap fun entry => historyCut entry.2.op

/-- A request for a history by a user who is logged in, with a valid name. -/
def AsksHistory (s : ServerState) (session : Conn) (request : JsonObject) : Prop :=
  (s.connections session).username ≠ [] ∧
    (fieldOrEmpty request "type" = ascii "history_private" ∧ isValidName (fieldOrEmpty request "peer") = true ∨
      fieldOrEmpty request "type" = ascii "history_room" ∧ isValidName (fieldOrEmpty request "room") = true)

/-- The cut that the fields of a request ask for. -/
def cutOf (limitText beforeText : Bytes) : HistoryCut :=
  ⟨ChatStorage.sanitizeLimit (parseHistoryLimit limitText),
    if parseBeforeTimestamp beforeText ≤ 0 then none else some (parseBeforeTimestamp beforeText)⟩

/-- A user who is logged in goes on. -/
theorem log_requireLoggedIn {s : ServerState} {session : Conn} (huser : (s.connections session).username ≠ [])
    (f : Option Bytes → Handler Unit) (env : Env) :
    (requireLoggedIn session >>= f).log exec env s =
      (s, ⟨.username session, (s.connections session).username⟩) ::
        (f (some (s.connections session).username)).log exec env s := by
  show _ :: Prog.log exec env ((if (s.connections session).username = [] then _ else _ : Handler _) >>= f) s = _
  rw [if_neg huser]
  rfl

/-- **A history request reads the table once**, under the limit and the cut-off that its fields are read as. -/
theorem historyCuts_eq {s : ServerState} {session : Conn} {request : JsonObject} (env : Env)
    (h : AsksHistory s session request) :
    historyCuts env session request s = [cutOf (fieldOrEmpty request "limit") (beforeText request)] := by
  obtain ⟨huser, ⟨htype, hname⟩ | ⟨htype, hname⟩⟩ := h
  · rw [historyCuts, handleRequest_historyPrivate htype, sendPrivateHistory, log_requireLoggedIn huser, hname]
    rfl
  · rw [historyCuts, handleRequest_historyRoom htype, sendRoomHistory, log_requireLoggedIn huser, hname]
    rfl

/-- A number in `before` is what is read. -/
theorem beforeText_of_before {request : JsonObject} {text : Bytes} (h : fieldOrEmpty request "before" = text)
    (hne : text ≠ []) : beforeText request = text := by
  rw [beforeText, h, if_pos hne]

variable (number : NumberToken)

theorem parseHistoryLimit_text :
    ChatStorage.sanitizeLimit (parseHistoryLimit number.text) =
      if saturate number.integerPart ≤ 0 then 50 else min (saturate number.integerPart) 500 := by
  rw [parseHistoryLimit, if_neg number.text_ne_nil, number.strtoll_text]
  simp only [ChatStorage.sanitizeLimit, kDefaultHistoryLimit, kMaxHistoryLimit]
  split_ifs <;> omega

theorem parseBeforeTimestamp_text :
    parseBeforeTimestamp number.text = max 0 (saturate number.integerPart) := by
  rw [parseBeforeTimestamp, if_neg number.text_ne_nil, number.strtoll_text]
  dsimp only
  split_ifs <;> omega

/-- The cut of a request for bob's messages. -/
def askBob (fieldName : String) (text : Bytes) : JsonObject :=
  (((∅ : JsonObject).insert (ascii "type") (ascii "history_private")).insert (ascii "peer") (ascii "bob")).insert
    (ascii fieldName) text

/-- Alice is logged in on connection 0. -/
def aliceAlone : ServerState := (ServerState.initial .empty).withUsername 0 (ascii "alice")

theorem asksHistory_askBob {fieldName : String} (text : Bytes)
    (h : ascii fieldName ≠ ascii "type" ∧ ascii fieldName ≠ ascii "peer") :
    AsksHistory aliceAlone 0 (askBob fieldName text) := by
  have hkeys : ascii "peer" ≠ ascii "type" := by decide
  refine ⟨by decide +kernel, .inl ⟨?_, ?_⟩⟩
  · rw [askBob, fieldOrEmpty_insert_of_ne _ _ h.1, fieldOrEmpty_insert_of_ne _ _ hkeys, fieldOrEmpty_insert_self]
  · rw [askBob, fieldOrEmpty_insert_of_ne _ _ h.2, fieldOrEmpty_insert_self]
    decide

/-- **When a number is taken for what it is worth.**  A token that the parser accepts has one reading as a number.
Where this is an integer `v` of the range of `int64_t`, every request that carries it as `limit` is served with
the limit that `v` says, and every request that carries it as `before` with the cut-off that `v` says, exactly if `v`
is not positive, or the exponent is zero, or `v` is the largest `int64_t` and the exponent is negative. -/
theorem number_forms_served_iff {text token : Bytes} {pos pos' : ℕ}
    (haccepted : parseJsonNumberAsString text pos = .ok token pos') :
    ∃ number : NumberToken, number.text = token ∧ (∀ other : NumberToken, other.text = token → other = number) ∧
      ∀ v : ℤ, number.value = v → |v| < 2 ^ 63 →
        ((∀ env s session request, AsksHistory s session request →
            (fieldOrEmpty request "limit" = token → ∃ cutOff, historyCuts env session request s =
              [⟨if v ≤ 0 then 50 else min v 500, cutOff⟩]) ∧
            (fieldOrEmpty request "before" = token → ∃ limit, historyCuts env session request s =
              [⟨limit, if 0 < v then some v else none⟩])) ↔
          v ≤ 0 ∨ number.power = 0 ∨ (v = 9223372036854775807 ∧ number.power < 0)) := by
  obtain ⟨number, rfl⟩ := NumberToken.exists_of_accepted haccepted
  refine ⟨number, rfl, fun other hother => NumberToken.text_injective hother, fun v hvalue hrange => ?_⟩
  have hhigh : v < 2 ^ 63 := (abs_lt.mp hrange).2
  constructor
  · intro hserved
    by_cases hpos : 0 < v
    · -- a request with this cut-off shows what was read
      have hasks : AsksHistory aliceAlone 0 (askBob "before" number.text) := asksHistory_askBob _ (by decide)
      have hcarried : fieldOrEmpty (askBob "before" number.text) "before" = number.text := fieldOrEmpty_insert_self ..
      obtain ⟨limit, hcut⟩ := (hserved ⟨0, true⟩ _ _ _ hasks).2 hcarried
      rw [historyCuts_eq _ hasks, beforeText_of_before hcarried number.text_ne_nil, if_pos hpos,
        List.singleton_inj] at hcut
      have hcutOff := congrArg HistoryCut.cutOff hcut
      rw [cutOf, parseBeforeTimestamp_text] at hcutOff
      dsimp only at hcutOff
      split_ifs at hcutOff with hread
      have hsame : saturate number.integerPart = v := by
        have := Option.some.inj hcutOff
        omega
      exact .inr ((number.saturate_integerPart_eq_iff hvalue hpos hhigh).mp hsame)
    · exact .inl (not_lt.mp hpos)
  · intro hform env s session request hasks
    rw [historyCuts_eq env hasks]
    -- what is read has the limit and the cut-off of the value
    have hread : saturate number.integerPart = v ∨ (v ≤ 0 ∧ saturate number.integerPart ≤ 0) := by
      by_cases hpos : 0 < v
      · exact .inl ((number.saturate_integerPart_eq_iff hvalue hpos hhigh).mpr (hform.resolve_left (by omega)))
      · exact .inr ⟨not_lt.mp hpos, number.saturate_nonpos hvalue (not_lt.mp hpos)⟩
    constructor
    · intro hlimit
      refine ⟨_, congrArg (fun limit => [HistoryCut.mk limit _]) ?_⟩
      rw [hlimit, parseHistoryLimit_text]
      split_ifs <;> omega
    · intro hbefore
      refine ⟨_, congrArg (fun cutOff => [HistoryCut.mk _ cutOff]) ?_⟩
      rw [beforeText_of_before hbefore number.text_ne_nil, parseBeforeTimestamp_text]
      split_ifs <;> first | rfl | exact congrArg some (by omega) | omega

/-- `25.0` is twenty-five. -/
theorem number_forms_served_fraction :
    ∃ cutOff, historyCuts ⟨0, true⟩ 0 (askBob "limit" (ascii "25.0")) aliceAlone = [⟨25, cutOff⟩] := by
  have haccepted : parseJsonNumberAsString (ascii "25.0") 0 = .ok (ascii "25.0") 4 := by decide
  obtain ⟨number, -, hunique, hserved⟩ := number_forms_served_iff haccepted
  obtain rfl := hunique ⟨[], ascii "25", ascii ".0", [], .inl rfl, ⟨by decide, by decide +kernel⟩,
    .inr ⟨ascii "0", by decide, by decide, by decide +kernel⟩, .inl rfl⟩ (by decide)
  have hforms := (hserved 25 (by decide +kernel) (by decide)).mpr (.inr (.inl (by decide)))
  exact (hforms ⟨0, true⟩ _ _ _ (asksHistory_askBob _ (by decide))).1 (fieldOrEmpty_insert_self ..)

/-- **The exponent is not read.**  `1e2` is one hundred, and a request with this limit gets one message. -/
theorem exponent_is_not_read :
    ∃ number : NumberToken, parseJsonNumberAsString number.text 0 = .ok number.text number.text.length ∧
      number.text = ascii "1e2" ∧ number.value = 100 ∧
      AsksHistory aliceAlone 0 (askBob "limit" number.text) ∧
      historyCuts ⟨0, true⟩ 0 (askBob "limit" number.text) aliceAlone = [⟨1, none⟩] := by
  let number : NumberToken := ⟨[], ascii "1", [], ascii "e2", .inl rfl, ⟨by decide, by decide +kernel⟩, .inl rfl,
    .inr ⟨0x65, [], ascii "2", by decide, .inl rfl, .inl rfl, by decide, by decide +kernel⟩⟩
  have hasks : AsksHistory aliceAlone 0 (askBob "limit" number.text) := asksHistory_askBob _ (by decide)
  refine ⟨number, by decide, by decide, by decide +kernel, hasks, ?_⟩
  have hlimit : fieldOrEmpty (askBob "limit" number.text) "limit" = ascii "1e2" := fieldOrEmpty_insert_self ..
  have hbefore : beforeText (askBob "limit" number.text) = [] := by
    simp (disch := decide) only [beforeText, askBob, fieldOrEmpty_insert_of_ne, fieldOrEmpty_empty, ne_eq,
      not_true_eq_false, if_false]
  rw [historyCuts_eq _ hasks, hlimit, hbefore]
  decide

end ChatService
