import ChatService.Foundation.Scanner
import Std.Data.ExtTreeMap.Lemmas

/-!
# The JSON reader and writer (`common/Json.cc`)

`JsonObject` is the source's `std::map<std::string, std::string>`: a finite map ordered by the
bytes of its keys.  The reader walks the text by position, exactly as the source does; every
function returns a `Scan`, so the text of each error, the position it leaves behind and any read
past the end are part of what is modelled.

A condition such as `*pos < text.size() && text[*pos] == c` is the single test `text[pos]? = some c`;
a read that relies on an earlier size check is a `readByte`, which faults past the end.

The three `consumeJson…` functions call each other; `fuel` bounds the number of nested calls and
loop rounds, and `consumeFuel` is proved to be enough for every text
(`ChatService.Common.JsonSafety`).
The call stack is taken as unbounded: the source nests as deeply as the text does.
-/

namespace ChatService

open Byte

/-- `typedef std::map<std::string, std::string> JsonObject`. -/
abbrev JsonObject := Std.ExtTreeMap Bytes Bytes compare

/-! ### The leaves: white space, strings, numbers, literals -/

def skipWhitespace (text : Bytes) (pos : ℕ) : ℕ := advanceWhile isspace text pos

/-- The loop of `parseUnicodeEscape`: four hexadecimal digits, most significant first. -/
def unicodeDigits (text : Bytes) (pos : ℕ) : List ℕ → ℕ → Scan ℕ
  | [], code => .ok code pos
  | i :: rest, code =>
    readByte text (pos + i) fun ch =>
      match hexValue ch with
      | none => .error (ascii "invalid unicode escape") pos
      | some digit => unicodeDigits text pos rest (code * 16 + digit)

def parseUnicodeEscape (text : Bytes) (pos : ℕ) (output : Bytes) : Scan Bytes :=
  if pos + 4 > text.length then .error (ascii "incomplete unicode escape") pos
  else
    (unicodeDigits text pos [0, 1, 2, 3] 0).bind fun code pos =>
      let pos := pos + 4
      if code > 0x7f then .error (ascii "unicode escapes above ASCII are not supported") pos
      else .ok (output ++ [UInt8.ofNat code]) pos

/-- What a one-letter escape stands for; `\u` is not one of them. -/
def simpleEscape (escaped : UInt8) : Option UInt8 :=
  if escaped = quote ∨ escaped = backslash ∨ escaped = slash then some escaped
  else if escaped = 0x62 then some 0x08
  else if escaped = 0x66 then some 0x0c
  else if escaped = 0x6e then some newline
  else if escaped = 0x72 then some carriageReturn
  else if escaped = 0x74 then some tab
  else none

/-- The loop of `parseJsonString`, behind the opening quote. -/
def parseJsonStringLoop (text : Bytes) : ℕ → ℕ → Bytes → Scan Bytes
  | 0, pos, _ =>
    if pos < text.length then .outOfFuel else .error (ascii "unterminated string") pos
  | fuel + 1, pos, output =>
    if pos < text.length then
      readByte text pos fun ch =>
        let pos := pos + 1
        if ch = quote then .ok output pos
        else if ch = backslash then
          if text.length ≤ pos then .error (ascii "incomplete escape sequence") pos
          else
            readByte text pos fun escaped =>
              let pos := pos + 1
              match simpleEscape escaped with
              | some decoded => parseJsonStringLoop text fuel pos (output ++ [decoded])
              | none =>
                if escaped = 0x75 then
                  (parseUnicodeEscape text pos output).bind fun output pos =>
                    parseJsonStringLoop text fuel pos output
                else .error (ascii "invalid escape sequence") pos
        else if ch < 0x20 then .error (ascii "control character in string") pos
        else parseJsonStringLoop text fuel pos (output ++ [ch])
    else .error (ascii "unterminated string") pos

def parseJsonString (text : Bytes) (pos : ℕ) : Scan Bytes :=
  if text[pos]? = some quote then parseJsonStringLoop text (text.length - pos) (pos + 1) []
  else .error (ascii "expected string") pos

/-- Step over one byte if it is one of `signs`. -/
def skipSign (signs : List UInt8) (text : Bytes) (pos : ℕ) : ℕ :=
  if (text[pos]?).any signs.contains then pos + 1 else pos

/-- The fraction of `parseJsonNumberAsString`, if there is one. -/
def numberFraction (text : Bytes) (pos : ℕ) : Scan Unit :=
  if text[pos]? = some dot then
    let fractionStart := pos + 1
    let pos := advanceWhile isdigit text fractionStart
    if pos = fractionStart then .error (ascii "invalid number") pos else .ok () pos
  else .ok () pos

/-- The exponent of `parseJsonNumberAsString`, if there is one. -/
def numberExponent (text : Bytes) (pos : ℕ) : Scan Unit :=
  if text[pos]? = some 0x65 ∨ text[pos]? = some 0x45 then
    let exponentStart := skipSign [plus, minus] text (pos + 1)
    let pos := advanceWhile isdigit text exponentStart
    if pos = exponentStart then .error (ascii "invalid number") pos else .ok () pos
  else .ok () pos

def parseJsonNumberAsString (text : Bytes) (pos : ℕ) : Scan Bytes :=
  let start := pos
  let digitsStart := skipSign [minus] text pos
  let pos := advanceWhile isdigit text digitsStart
  if pos = digitsStart then .error (ascii "expected string or number") pos
  else
    (numberFraction text pos).bind fun _ pos =>
      (numberExponent text pos).bind fun _ pos =>
        .ok (substr text start (pos - start)) pos

/-- `text.compare(pos, literal.size(), literal)` throws when `pos` is past the end. -/
def consumeJsonLiteral (text : Bytes) (pos : ℕ) (literal : Bytes) : Scan Unit :=
  if text.length < pos then .outOfRange
  else if substr text pos literal.length ≠ literal then .error (ascii "invalid json literal") pos
  else .ok () (pos + literal.length)

/-! ### Nested values: consumed, not decoded -/

mutual

def consumeJsonValue (text : Bytes) : ℕ → ℕ → Scan Unit
  | 0, _ => .outOfFuel
  | fuel + 1, pos =>
    let pos := skipWhitespace text pos
    if text.length ≤ pos then .error (ascii "expected json value") pos
    else
      readByte text pos fun ch =>
        if ch = quote then (parseJsonString text pos).bind fun _ pos => .ok () pos
        else if ch = lbrace then consumeJsonObject text fuel pos
        else if ch = lbracket then consumeJsonArray text fuel pos
        else if ch = 0x74 then consumeJsonLiteral text pos (ascii "true")
        else if ch = 0x66 then consumeJsonLiteral text pos (ascii "false")
        else if ch = 0x6e then consumeJsonLiteral text pos (ascii "null")
        else (parseJsonNumberAsString text pos).bind fun _ pos => .ok () pos

def consumeJsonArray (text : Bytes) : ℕ → ℕ → Scan Unit
  | 0, _ => .outOfFuel
  | fuel + 1, pos =>
    let pos := skipWhitespace text (pos + 1)
    if text[pos]? = some rbracket then .ok () (pos + 1)
    else consumeArrayLoop text fuel pos

/-- The loop of `consumeJsonArray`, at the start of an element. -/
def consumeArrayLoop (text : Bytes) : ℕ → ℕ → Scan Unit
  | 0, _ => .outOfFuel
  | fuel + 1, pos =>
    if pos < text.length then
      (consumeJsonValue text fuel pos).bind fun _ pos =>
        let pos := skipWhitespace text pos
        if text.length ≤ pos then .error (ascii "unterminated array") pos
        else
          readByte text pos fun ch =>
            if ch = rbracket then .ok () (pos + 1)
            else if ch ≠ comma then .error (ascii "expected comma in array") pos
            else consumeArrayLoop text fuel (skipWhitespace text (pos + 1))
    else .error (ascii "unterminated array") pos

def consumeJsonObject (text : Bytes) : ℕ → ℕ → Scan Unit
  | 0, _ => .outOfFuel
  | fuel + 1, pos =>
    let pos := skipWhitespace text (pos + 1)
    if text[pos]? = some rbrace then .ok () (pos + 1)
    else consumeObjectLoop text fuel pos

/-- The loop of `consumeJsonObject`, at the start of a member. -/
def consumeObjectLoop (text : Bytes) : ℕ → ℕ → Scan Unit
  | 0, _ => .outOfFuel
  | fuel + 1, pos =>
    if pos < text.length then
      (parseJsonString text pos).bind fun _ pos =>
        let pos := skipWhitespace text pos
        if text[pos]? ≠ some colon then .error (ascii "expected colon in object") pos
        else
          (consumeJsonValue text fuel (skipWhitespace text (pos + 1))).bind fun _ pos =>
            let pos := skipWhitespace text pos
            if text.length ≤ pos then .error (ascii "unterminated object") pos
            else
              readByte text pos fun ch =>
                if ch = rbrace then .ok () (pos + 1)
                else if ch ≠ comma then .error (ascii "expected comma in object") pos
                else consumeObjectLoop text fuel (skipWhitespace text (pos + 1))
    else .error (ascii "unterminated object") pos

end

/-- Rounds and calls enough for any value of `text`: three for each byte, and a few more. -/
def consumeFuel (text : Bytes) : ℕ := 3 * text.length + 3

/-! ### The top-level object -/

def parseJsonValueAsString (text : Bytes) (pos : ℕ) : Scan Bytes :=
  if text[pos]? = some quote then parseJsonString text pos
  else if text[pos]? = some lbrace ∨ text[pos]? = some lbracket ∨ text[pos]? = some 0x74 ∨
      text[pos]? = some 0x66 ∨ text[pos]? = some 0x6e then
    let start := pos
    (consumeJsonValue text (consumeFuel text) pos).bind fun _ pos =>
      .ok (substr text start (pos - start)) pos
  else parseJsonNumberAsString text pos

/-- Behind the closing brace only white space may follow. -/
def finishTopLevel (text : Bytes) (pos : ℕ) (object : JsonObject) : Scan JsonObject :=
  let pos := skipWhitespace text pos
  if pos ≠ text.length then .error (ascii "unexpected content after object") pos
  else .ok object pos

/-- The loop of `parseJsonObject`, at the start of a member. -/
def parseObjectLoop (text : Bytes) : ℕ → ℕ → JsonObject → Scan JsonObject
  | 0, pos, _ =>
    if pos < text.length then .outOfFuel else .error (ascii "unterminated object") pos
  | fuel + 1, pos, object =>
    if pos < text.length then
      (parseJsonString text pos).bind fun key pos =>
        let pos := skipWhitespace text pos
        if text[pos]? ≠ some colon then .error (ascii "expected colon") pos
        else
          (parseJsonValueAsString text (skipWhitespace text (pos + 1))).bind fun value pos =>
            let object := object.insert key value
            let pos := skipWhitespace text pos
            if text.length ≤ pos then .error (ascii "unterminated object") pos
            else
              readByte text pos fun ch =>
                if ch = rbrace then finishTopLevel text (pos + 1) object
                else if ch ≠ comma then .error (ascii "expected comma") pos
                else parseObjectLoop text fuel (skipWhitespace text (pos + 1)) object
    else .error (ascii "unterminated object") pos

def parseJsonObject (text : Bytes) : Scan JsonObject :=
  let pos := skipWhitespace text 0
  if text[pos]? ≠ some lbrace then .error (ascii "expected object") pos
  else
    let pos := skipWhitespace text (pos + 1)
    if text[pos]? = some rbrace then finishTopLevel text (pos + 1) ∅
    else parseObjectLoop text text.length pos ∅

/-! ### The writer -/

/-- The escape of one byte in `escapeJsonString`. -/
def escapeByte (ch : UInt8) : Bytes :=
  if ch = quote then [backslash, quote]
  else if ch = backslash then [backslash, backslash]
  else if ch = 0x08 then [backslash, 0x62]
  else if ch = 0x0c then [backslash, 0x66]
  else if ch = newline then [backslash, 0x6e]
  else if ch = carriageReturn then [backslash, 0x72]
  else if ch = tab then [backslash, 0x74]
  else if ch < 0x20 then
    ascii "\\u00" ++ [hexDigit (ch.toNat / 16), hexDigit (ch.toNat % 16)]
  else [ch]

def escapeJsonString (value : Bytes) : Bytes := value.flatMap escapeByte

/-- `"key":"value"`, both escaped. -/
def jsonStringField (key value : Bytes) : Bytes :=
  quote :: escapeJsonString key ++ [quote, colon, quote] ++ escapeJsonString value ++ [quote]

/-- The members of `serializeJsonObject`, with a comma before all but the first. -/
def serializeMembers : Bool → List (Bytes × Bytes) → Bytes
  | _, [] => []
  | first, (key, value) :: rest =>
    (if first then [] else [comma]) ++ jsonStringField key value ++ serializeMembers false rest

def serializeJsonObject (object : JsonObject) : Bytes :=
  lbrace :: serializeMembers true object.toList ++ [rbrace]

def makeJsonLine (object : JsonObject) : Bytes := serializeJsonObject object ++ [newline]

end ChatService
