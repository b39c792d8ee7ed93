import ChatService.Foundation.Binary64
import ChatService.Foundation.Utf16
import ChatService.Gateway.HandleTcpText
import Mathlib.Data.List.Sort

/-!
# `JSON.parse` and `JSON.stringify` (ECMA-262)

A string of JavaScript is a list of code units; the texts that are read and written here are lists of
characters, because the message comes from UTF-8 and the writer escapes every surrogate that stands alone.

* `parse_total` — `parse` finishes within its fuel, on every text.
* `keys_nodup_of_parse` — an object has every key once.
-/

namespace ChatService

namespace Gateway

namespace JSON

/-! ### Values -/

/-- What `parse` returns: a number is a finite double, or `none` for an infinity. -/
inductive Value where
  | null
  | boolean (value : Bool)
  | number (value : Option ℚ)
  | string (units : List UInt16)
  | array (elements : List Value)
  | object (properties : List (List UInt16 × Value))

/-- `CreateDataProperty`: a new property comes last, an old one stays in its place. -/
def createDataProperty (properties : List (List UInt16 × Value)) (key : List UInt16) (value : Value) :
    List (List UInt16 × Value) :=
  if key ∈ properties.map Prod.fst then
    properties.map fun property => if property.1 = key then (key, value) else property
  else properties ++ [(key, value)]

/-! ### Reading -/

/-- What a part of the reader comes to, with the rest of the text. -/
inductive Read (α : Type) where
  | done (value : α) (rest : List Char)
  | syntaxError
  | outOfFuel

namespace Read

variable {α β : Type}

def bind : Read α → (α → List Char → Read β) → Read β
  | done value rest, next => next value rest
  | syntaxError, _ => syntaxError
  | outOfFuel, _ => outOfFuel

def map (f : α → β) (read : Read α) : Read β := read.bind fun value rest => done (f value) rest

end Read

def isWhiteSpace (c : Char) : Bool := c = ' ' || c = '\t' || c = '\n' || c = '\r'

def skipWhiteSpace (text : List Char) : List Char := text.dropWhile isWhiteSpace

def hexDigit? (c : Char) : Option ℕ :=
  if '0' ≤ c ∧ c ≤ '9' then some (c.toNat - '0'.toNat)
  else if 'a' ≤ c ∧ c ≤ 'f' then some (c.toNat - 'a'.toNat + 10)
  else if 'A' ≤ c ∧ c ≤ 'F' then some (c.toNat - 'A'.toNat + 10)
  else none

/-- The four digits behind `\u`. -/
def unicodeEscape? (a b c d : Char) : Option UInt16 := do
  let a ← hexDigit? a
  let b ← hexDigit? b
  let c ← hexDigit? c
  let d ← hexDigit? d
  return UInt16.ofNat (((a * 16 + b) * 16 + c) * 16 + d)

def simpleEscape? (c : Char) : Option UInt16 :=
  match c with
  | '"' => some 0x22
  | '\\' => some 0x5c
  | '/' => some 0x2f
  | 'b' => some 0x08
  | 'f' => some 0x0c
  | 'n' => some 0x0a
  | 'r' => some 0x0d
  | 't' => some 0x09
  | _ => none

/-- A string, behind its opening quote. -/
def stringTail : List Char → Read (List UInt16)
  | [] => .syntaxError
  | '"' :: rest => .done [] rest
  | '\\' :: 'u' :: a :: b :: c :: d :: rest =>
    match unicodeEscape? a b c d with
    | some unit => (stringTail rest).map (unit :: ·)
    | none => .syntaxError
  | '\\' :: c :: rest =>
    match simpleEscape? c with
    | some unit => (stringTail rest).map (unit :: ·)
    | none => .syntaxError
  | c :: rest => if c.toNat < 0x20 then .syntaxError else (stringTail rest).map (Utf16.units c ++ ·)

/-- The digits that the text begins with. -/
def digits (text : List Char) : List Char × List Char := text.span Char.isDigit

/-- The fraction of a number, if there is one. -/
def fraction (text : List Char) : Read (List Char) :=
  if text.head? = some '.' then
    if (digits text.tail).1 = [] then .syntaxError else .done (digits text.tail).1 (digits text.tail).2
  else .done [] text

/-- A sign, if there is one, and whether it is a minus sign. -/
def skipSign (signs : List Char) (text : List Char) : Bool × List Char :=
  if text.head?.any signs.contains then (text.head? = some '-', text.tail) else (false, text)

/-- The exponent of a number; it is 0 if there is none. -/
def exponent (text : List Char) : Read ℤ :=
  if text.head? = some 'e' ∨ text.head? = some 'E' then
    let (negative, text) := skipSign ['+', '-'] text.tail
    if (digits text).1 = [] then .syntaxError
    else
      let magnitude : ℕ := Nat.ofDigitChars 10 (digits text).1 0
      .done (if negative then -magnitude else magnitude) (digits text).2
  else .done 0 text

/-- A number: its integer part is `0` or does not begin with `0`. -/
def number (text : List Char) : Read (Option ℚ) :=
  let (negative, text) := skipSign ['-'] text
  let integer := (digits text).1
  if integer = [] ∨ integer.head? = some '0' ∧ integer ≠ ['0'] then .syntaxError
  else
    (fraction (digits text).2).bind fun fraction rest =>
      (exponent rest).bind fun exponent rest =>
        let mantissa : ℕ := Nat.ofDigitChars 10 (integer ++ fraction) 0
        let magnitude : ℚ := mantissa * 10 ^ (exponent - fraction.length)
        .done (Binary64.round (if negative then -magnitude else magnitude)) rest

def literal (word : String) (value : Value) (text : List Char) : Read Value :=
  if word.toList <+: text then .done value (text.drop word.length) else .syntaxError

mutual

def value : ℕ → List Char → Read Value
  | 0, _ => .outOfFuel
  | fuel + 1, text =>
    match skipWhiteSpace text with
    | [] => .syntaxError
    | c :: rest =>
      if c = '"' then (stringTail rest).map .string
      else if c = '\x7b' then
        match skipWhiteSpace rest with
        | '\x7d' :: rest => .done (.object []) rest
        | _ => (members fuel rest []).map .object
      else if c = '[' then
        match skipWhiteSpace rest with
        | ']' :: rest => .done (.array []) rest
        | _ => (elements fuel rest).map .array
      else if c = 't' then literal "true" (.boolean true) (c :: rest)
      else if c = 'f' then literal "false" (.boolean false) (c :: rest)
      else if c = 'n' then literal "null" .null (c :: rest)
      else (number (c :: rest)).map .number

/-- The elements of an array, up to its end. -/
def elements : ℕ → List Char → Read (List Value)
  | 0, _ => .outOfFuel
  | fuel + 1, text =>
    (value fuel text).bind fun element rest =>
      match skipWhiteSpace rest with
      | ',' :: rest => (elements fuel rest).map (element :: ·)
      | ']' :: rest => .done [element] rest
      | _ => .syntaxError

/-- The members of an object, up to its end. -/
def members : ℕ → List Char → List (List UInt16 × Value) → Read (List (List UInt16 × Value))
  | 0, _, _ => .outOfFuel
  | fuel + 1, text, properties =>
    match skipWhiteSpace text with
    | '"' :: rest =>
      (stringTail rest).bind fun key rest =>
        match skipWhiteSpace rest with
        | ':' :: rest =>
          (value fuel rest).bind fun value rest =>
            match skipWhiteSpace rest with
            | ',' :: rest => members fuel rest (createDataProperty properties key value)
            | '\x7d' :: rest => .done (createDataProperty properties key value) rest
            | _ => .syntaxError
        | _ => .syntaxError
    | _ => .syntaxError

end

/-- `JSON.parse`; `none` is a `SyntaxError`. -/
def parse (text : List Char) : Option Value :=
  match value (2 * text.length + 1) text with
  | .done value rest => if skipWhiteSpace rest = [] then some value else none
  | _ => none

/-! ### Writing -/

/-- A code unit as `\uXXXX`, in small letters. -/
def unicodeEscape (unit : UInt16) : List Char :=
  '\\' :: 'u' :: [unit.toNat / 0x1000, unit.toNat / 0x100 % 16, unit.toNat / 0x10 % 16, unit.toNat % 16].map
    Nat.digitChar

def quoteCodePoint : Utf16.CodePoint → List Char
  | .char c =>
    if c = '\x08' then ['\\', 'b']
    else if c = '\t' then ['\\', 't']
    else if c = '\n' then ['\\', 'n']
    else if c = '\x0c' then ['\\', 'f']
    else if c = '\r' then ['\\', 'r']
    else if c = '"' then ['\\', '"']
    else if c = '\\' then ['\\', '\\']
    else if c.toNat < 0x20 then unicodeEscape (UInt16.ofNat c.toNat)
    else [c]
  | .surrogate unit => unicodeEscape unit

/-- `QuoteJSONString`. -/
def quote (units : List UInt16) : List Char := '"' :: (Utf16.codePoints units).flatMap quoteCodePoint ++ ['"']

/-- `Number::toString` of a positive double with these digits, and the decimal point behind the first `n`. -/
def decimalText (digits : List Char) (n : ℤ) : List Char :=
  let k : ℤ := digits.length
  if k ≤ n ∧ n ≤ 21 then digits ++ List.replicate (n - k).toNat '0'
  else if 0 < n ∧ n ≤ 21 then digits.take n.toNat ++ '.' :: digits.drop n.toNat
  else if -6 < n ∧ n ≤ 0 then '0' :: '.' :: List.replicate (-n).toNat '0' ++ digits
  else
    let exponent := 'e' :: (if n < 0 then '-' else '+') :: Nat.toDigits 10 (n - 1).natAbs
    if digits.length = 1 then digits ++ exponent else digits.take 1 ++ '.' :: digits.drop 1 ++ exponent

/-- `Number::toString` of a finite double. -/
def numberText (x : ℚ) : List Char :=
  if x = 0 then ['0']
  else
    let (s, n) := Binary64.shortest |x|
    let text := decimalText (Nat.toDigits 10 s) n
    if x < 0 then '-' :: text else text

/-- The number that a key stands for, if it is an array index. -/
def arrayIndex? (key : List UInt16) : Option ℕ :=
  (Utf16.decode key).bind fun text =>
    let n := Nat.ofDigitChars 10 text 0
    if text = Nat.toDigits 10 n ∧ n < 2 ^ 32 - 1 then some n else none

/-- The keys in the order of `OrdinaryOwnPropertyKeys`: array indices by size, then the others as they were
created. -/
def ordered {α : Type} (properties : List (List UInt16 × α)) : List (List UInt16 × α) :=
  ((properties.filter fun property => (arrayIndex? property.1).isSome).insertionSort fun property property' =>
      (arrayIndex? property.1).getD 0 ≤ (arrayIndex? property'.1).getD 0) ++
    properties.filter fun property => (arrayIndex? property.1).isNone

/-- The members or elements in their brackets. -/
def enclose (left right : Char) (texts : List (List Char)) : List Char :=
  left :: List.intercalate [','] texts ++ [right]

mutual

/-- `JSON.stringify` of a parsed value; a property `toJSON` is no function there. -/
def stringify : Value → List Char
  | .null => "null".toList
  | .boolean value => if value then "true".toList else "false".toList
  | .number (some x) => numberText x
  | .number none => "null".toList
  | .string units => quote units
  | .array elements => enclose '[' ']' (stringifyElements elements)
  | .object properties =>
    enclose '\x7b' '\x7d' ((ordered (stringifyProperties properties)).map fun (key, text) => quote key ++ ':' :: text)

def stringifyElements : List Value → List (List Char)
  | [] => []
  | element :: elements => stringify element :: stringifyElements elements

/-- The values of the properties. -/
def stringifyProperties : List (List UInt16 × Value) → List (List UInt16 × List Char)
  | [] => []
  | (key, value) :: properties => (key, stringify value) :: stringifyProperties properties

end

/-- Values by their parts. -/
theorem Value.induct {P : Value → Prop} (null : P .null) (boolean : ∀ value, P (.boolean value))
    (number : ∀ value, P (.number value)) (string : ∀ units, P (.string units))
    (array : ∀ elements, (∀ element ∈ elements, P element) → P (.array elements))
    (object : ∀ properties, (∀ property ∈ properties, P property.2) → P (.object properties)) (value : Value) :
    P value :=
  @Value.rec P (fun elements => ∀ element ∈ elements, P element)
    (fun properties => ∀ property ∈ properties, P property.2) (fun property => P property.2)
    null boolean number string array object
    (fun _ h => absurd h List.not_mem_nil) (fun _ _ hhead htail => List.forall_mem_cons.mpr ⟨hhead, htail⟩)
    (fun _ h => absurd h List.not_mem_nil) (fun _ _ hhead htail => List.forall_mem_cons.mpr ⟨hhead, htail⟩)
    (fun _ _ h => h) value

theorem stringifyElements_eq (elements : List Value) : stringifyElements elements = elements.map stringify := by
  induction elements with
  | nil => rfl
  | cons element elements ih => rw [stringifyElements, ih, List.map_cons]

theorem stringifyProperties_eq (properties : List (List UInt16 × Value)) :
    stringifyProperties properties = properties.map fun property => (property.1, stringify property.2) := by
  induction properties with
  | nil => rfl
  | cons property properties ih => rw [stringifyProperties, ih, List.map_cons]

/-- The order of the keys drops no property. -/
theorem ordered_perm {α : Type} (properties : List (List UInt16 × α)) : (ordered properties).Perm properties := by
  have hnone : (properties.filter fun property => (arrayIndex? property.1).isNone) =
      properties.filter fun property => !(arrayIndex? property.1).isSome := by
    simp only [Option.not_isSome]
  rw [ordered, hnone]
  exact ((List.perm_insertionSort _ _).append_right _).trans (List.filter_append_perm ..)

example : (parse "\x7b\"b\":[1e20, -0, 1.50,\"\\ud800\"], \"1\":1e-7,\"b\":0.1\x7d".toList).map stringify =
    some "\x7b\"1\":1e-7,\"b\":0.1\x7d".toList := by decide +kernel

/-! ### The fuel is enough -/

/-- The reader has not run out of fuel, and has left fewer than `n` characters. -/
def Read.Leaves {α : Type} (n : ℕ) : Read α → Prop
  | .done _ rest => rest.length < n
  | .syntaxError => True
  | .outOfFuel => False

section Leaves

variable {α β : Type} {m n : ℕ} {read : Read α} {text : List Char}

theorem Read.Leaves.bind {next : α → List Char → Read β} (h : read.Leaves n)
    (hnext : ∀ value rest, rest.length < n → (next value rest).Leaves m) : (read.bind next).Leaves m := by
  cases read with
  | done value rest => exact hnext value rest h
  | syntaxError => trivial
  | outOfFuel => exact h.elim

theorem Read.Leaves.map (h : read.Leaves n) (f : α → β) : (read.map f).Leaves n := h.bind fun _ _ hrest => hrest

theorem Read.Leaves.mono (h : read.Leaves n) (hle : n ≤ m) : read.Leaves m := by
  cases read with
  | done value rest => exact lt_of_lt_of_le h hle
  | syntaxError => trivial
  | outOfFuel => exact h.elim

theorem skipWhiteSpace_le (text : List Char) : (skipWhiteSpace text).length ≤ text.length :=
  (List.dropWhile_sublist _).length_le

theorem length_of_skipWhiteSpace {c : Char} {rest : List Char} (h : skipWhiteSpace text = c :: rest) :
    rest.length < text.length := by
  have hle := skipWhiteSpace_le text
  rw [h] at hle
  exact hle

theorem digits_le (text : List Char) : (digits text).2.length ≤ text.length := by
  rw [digits, List.span_eq_takeWhile_dropWhile]
  exact (List.dropWhile_sublist _).length_le

theorem digits_lt (h : (digits text).1 ≠ []) : (digits text).2.length < text.length := by
  rw [digits, List.span_eq_takeWhile_dropWhile] at h ⊢
  have hlength := congrArg List.length (List.takeWhile_append_dropWhile (p := Char.isDigit) (l := text))
  have hpos : 0 < (text.takeWhile Char.isDigit).length := List.length_pos_iff.mpr h
  rw [List.length_append] at hlength
  show (text.dropWhile Char.isDigit).length < text.length
  omega

theorem tail_le (text : List Char) : text.tail.length ≤ text.length := by
  rw [List.length_tail]
  omega

theorem skipSign_le (signs text : List Char) : (skipSign signs text).2.length ≤ text.length := by
  rw [skipSign]
  split_ifs
  · exact tail_le text
  · exact le_rfl

theorem fraction_leaves (text : List Char) : (fraction text).Leaves (text.length + 1) := by
  have hdigits := digits_le text.tail
  have htail := tail_le text
  rw [fraction]
  split_ifs
  · trivial
  · show (digits text.tail).2.length < text.length + 1
    omega
  · exact Nat.lt_succ_self _

theorem exponent_leaves (text : List Char) : (exponent text).Leaves (text.length + 1) := by
  have hsign := skipSign_le ['+', '-'] text.tail
  have htail := tail_le text
  rw [exponent]
  generalize skipSign ['+', '-'] text.tail = signed at hsign ⊢
  obtain ⟨negative, rest⟩ := signed
  by_cases he : text.head? = some 'e' ∨ text.head? = some 'E'
  · rw [if_pos he]
    by_cases hnone : (digits rest).1 = []
    · simp only [if_pos hnone]
      trivial
    · simp only [if_neg hnone]
      have hdigits := digits_le rest
      have hrest : rest.length ≤ text.tail.length := hsign
      show (digits rest).2.length < text.length + 1
      omega
  · rw [if_neg he]
    exact Nat.lt_succ_self _

theorem number_leaves (text : List Char) : (number text).Leaves text.length := by
  have hsign := skipSign_le ['-'] text
  rw [number]
  generalize skipSign ['-'] text = signed at hsign ⊢
  obtain ⟨negative, rest⟩ := signed
  by_cases hinteger : (digits rest).1 = [] ∨ (digits rest).1.head? = some '0' ∧ (digits rest).1 ≠ ['0']
  · simp only [if_pos hinteger]
    trivial
  · simp only [if_neg hinteger]
    have hdigits := digits_lt (not_or.mp hinteger).1
    have hrest : rest.length ≤ text.length := hsign
    refine (fraction_leaves _).bind fun fraction rest' hrest' => ?_
    refine (exponent_leaves _).bind fun exponent rest'' hrest'' => ?_
    show rest''.length < text.length
    omega

theorem literal_leaves (word : String) (result : Value) (hword : 0 < word.length) :
    (literal word result text).Leaves text.length := by
  rw [literal]
  split_ifs with hstarts
  · have hlength := hstarts.length_le
    show (text.drop word.length).length < text.length
    rw [String.length_toList] at hlength
    rw [List.length_drop]
    omega
  · trivial

theorem stringTail_leaves (text : List Char) : (stringTail text).Leaves text.length := by
  fun_induction stringTail text with
  | case1 => trivial
  | case2 rest => exact Nat.lt_succ_self _
  | case3 a b c d rest unit hunit ih => exact (ih.map _).mono (by simp only [List.length_cons]; omega)
  | case4 => trivial
  | case5 c rest _ unit hunit ih => exact (ih.map _).mono (by simp only [List.length_cons]; omega)
  | case6 => trivial
  | case7 => trivial
  | case8 c rest _ _ _ hvisible ih => exact (ih.map _).mono (Nat.le_succ _)

/-- What the three readers leave, and how much fuel they need for it. -/
structure Total (fuel : ℕ) : Prop where
  value : ∀ text : List Char, 2 * text.length < fuel → (JSON.value fuel text).Leaves text.length
  elements : ∀ text : List Char, 2 * text.length + 1 < fuel → (JSON.elements fuel text).Leaves text.length
  members : ∀ (text : List Char) (properties : List (List UInt16 × Value)), 2 * text.length + 1 < fuel →
    (JSON.members fuel text properties).Leaves text.length

variable {fuel : ℕ}

theorem value_leaves (h : Total fuel) (hfuel : 2 * text.length < fuel + 1) :
    (JSON.value (fuel + 1) text).Leaves text.length := by
  rw [JSON.value]
  split
  · trivial
  · next c rest hskip =>
    have hrest := length_of_skipWhiteSpace hskip
    have hskip' := skipWhiteSpace_le text
    rw [hskip] at hskip'
    have hclosed : ∀ {c' : Char} {rest' : List Char}, skipWhiteSpace rest = c' :: rest' →
        rest'.length < text.length := by
      intro c' rest' hclose
      have := length_of_skipWhiteSpace hclose
      omega
    split_ifs
    · exact ((stringTail_leaves rest).map _).mono hrest.le
    · split
      · next rest' hclose => exact hclosed hclose
      · exact ((h.members rest [] (by omega)).map _).mono hrest.le
    · split
      · next rest' hclose => exact hclosed hclose
      · exact ((h.elements rest (by omega)).map _).mono hrest.le
    · exact (literal_leaves _ _ (by decide)).mono hskip'
    · exact (literal_leaves _ _ (by decide)).mono hskip'
    · exact (literal_leaves _ _ (by decide)).mono hskip'
    · exact ((number_leaves _).map _).mono hskip'

theorem elements_leaves (h : Total fuel) (hfuel : 2 * text.length + 1 < fuel + 1) :
    (JSON.elements (fuel + 1) text).Leaves text.length := by
  rw [JSON.elements]
  refine (h.value text (by omega)).bind fun element rest hrest => ?_
  split
  · next rest' hcomma =>
    have hlength := length_of_skipWhiteSpace hcomma
    exact ((h.elements rest' (by omega)).map _).mono (by omega)
  · next rest' hclose =>
    have hlength := length_of_skipWhiteSpace hclose
    show rest'.length < text.length
    omega
  · trivial

theorem members_leaves (h : Total fuel) (properties : List (List UInt16 × Value))
    (hfuel : 2 * text.length + 1 < fuel + 1) : (JSON.members (fuel + 1) text properties).Leaves text.length := by
  rw [JSON.members]
  split
  · next rest hquote =>
    have hrest := length_of_skipWhiteSpace hquote
    refine (stringTail_leaves rest).bind fun key rest₁ hkey => ?_
    split
    · next rest₂ hcolon =>
      have hcolon' := length_of_skipWhiteSpace hcolon
      refine (h.value rest₂ (by omega)).bind fun value rest₃ hvalue => ?_
      split
      · next rest₄ hcomma =>
        have hlength := length_of_skipWhiteSpace hcomma
        exact (h.members rest₄ _ (by omega)).mono (by omega)
      · next rest₄ hclose =>
        have hlength := length_of_skipWhiteSpace hclose
        show rest₄.length < text.length
        omega
      · trivial
    · trivial
  · trivial

theorem total (fuel : ℕ) : Total fuel := by
  induction fuel with
  | zero => exact ⟨fun _ h => absurd h (Nat.not_lt_zero _), fun _ h => absurd h (Nat.not_lt_zero _),
      fun _ _ h => absurd h (Nat.not_lt_zero _)⟩
  | succ fuel ih =>
    exact ⟨fun _ => value_leaves ih, fun _ => elements_leaves ih, fun _ properties => members_leaves ih properties⟩

end Leaves

/-- **`parse` finishes**, whatever the text is: its fuel is enough for the value. -/
theorem parse_total (text : List Char) : value (2 * text.length + 1) text ≠ .outOfFuel := by
  intro hout
  have hleaves := (total _).value text (Nat.lt_succ_self _)
  rw [hout] at hleaves
  exact hleaves

/-! ### Keys -/

theorem keys_createDataProperty {properties : List (List UInt16 × Value)} (h : (properties.map Prod.fst).Nodup)
    (key : List UInt16) (value : Value) : ((createDataProperty properties key value).map Prod.fst).Nodup := by
  rw [createDataProperty]
  split_ifs with hkey
  · have hsame : (properties.map fun property => if property.1 = key then (key, value) else property).map Prod.fst =
        properties.map Prod.fst := by
      rw [List.map_map]
      refine List.map_congr_left fun property _ => ?_
      show (if property.1 = key then (key, value) else property).1 = property.1
      split_ifs with hproperty
      · exact hproperty.symm
      · rfl
    rw [hsame]
    exact h
  · rw [List.map_append]
    exact h.append (List.nodup_singleton key) (List.disjoint_singleton.mpr hkey)

theorem Read.exists_of_bind {α β : Type} {read : Read α} {next : α → List Char → Read β} {result : β}
    {rest : List Char} (h : read.bind next = .done result rest) :
    ∃ value rest', read = .done value rest' ∧ next value rest' = .done result rest := by
  cases read with
  | done value rest' => exact ⟨value, rest', rfl, h⟩
  | syntaxError => exact absurd h nofun
  | outOfFuel => exact absurd h nofun

theorem keys_members {fuel : ℕ} {text rest : List Char} {properties properties' : List (List UInt16 × Value)}
    (hnodup : (properties.map Prod.fst).Nodup) (h : members fuel text properties = .done properties' rest) :
    (properties'.map Prod.fst).Nodup := by
  induction fuel generalizing text properties with
  | zero => exact absurd h nofun
  | succ fuel ih =>
    rw [members] at h
    split at h
    · obtain ⟨key, rest₁, -, h⟩ := Read.exists_of_bind h
      split at h
      · obtain ⟨value, rest₂, -, h⟩ := Read.exists_of_bind h
        have hmore := keys_createDataProperty hnodup key value
        split at h
        · exact ih hmore h
        · cases h
          exact hmore
        · exact absurd h nofun
      · exact absurd h nofun
    · exact absurd h nofun

theorem eq_of_literal {word : String} {result result' : Value} {text rest : List Char}
    (h : literal word result text = .done result' rest) : result' = result := by
  rw [literal] at h
  split_ifs at h
  cases h
  rfl

/-- An object has every key once. -/
theorem keys_nodup_of_parse {text : List Char} {properties : List (List UInt16 × Value)}
    (h : parse text = some (.object properties)) : (properties.map Prod.fst).Nodup := by
  have hvalue : ∃ fuel rest, value (fuel + 1) text = .done (.object properties) rest := by
    rw [parse] at h
    split at h
    · next result rest hresult =>
      split_ifs at h
      rw [Option.some.inj h] at hresult
      exact ⟨_, rest, hresult⟩
    · exact absurd h nofun
  obtain ⟨fuel, rest, hvalue⟩ := hvalue
  rw [value] at hvalue
  split at hvalue
  · exact absurd hvalue nofun
  · split_ifs at hvalue
    · obtain ⟨_, _, -, hdone⟩ := Read.exists_of_bind hvalue
      exact absurd hdone nofun
    · split at hvalue
      · cases hvalue
        exact List.nodup_nil
      · obtain ⟨properties', rest', hmembers, hdone⟩ := Read.exists_of_bind hvalue
        cases hdone
        have hnil : (([] : List (List UInt16 × Value)).map Prod.fst).Nodup := List.nodup_nil
        exact keys_members hnil hmembers
    · split at hvalue
      · exact absurd hvalue nofun
      · obtain ⟨_, _, -, hdone⟩ := Read.exists_of_bind hvalue
        exact absurd hdone nofun
    · exact absurd (eq_of_literal hvalue) nofun
    · exact absurd (eq_of_literal hvalue) nofun
    · exact absurd (eq_of_literal hvalue) nofun
    · obtain ⟨_, _, -, hdone⟩ := Read.exists_of_bind hvalue
      exact absurd hdone nofun

end JSON

end Gateway

end ChatService
