import CrosPlatform.Json.Value
import CrosPlatform.Text.Decimal

/-!
# `json.loads`

The C scanner of CPython's `json` module (`scan_once_unicode`, `scanstring_unicode`,
`_parse_array_unicode`, `_parse_object_unicode`, `_match_number_unicode`) on a list of
characters, followed by `JSONDecoder.decode`'s check that only whitespace is left. Errors carry
the scanner's messages without positions.

The scanner recurses into arrays and objects; here it is given `fuel`, and `loads` gives it
twice the length of the text, which no text uses up. A `\uXXXX` escape of an unpaired surrogate,
which Python keeps in the `str`, cannot be a Lean `Char` and is rejected.
-/

namespace CrosPlatform.Json

open CrosPlatform.Text

/-- `IS_WHITESPACE`, and the decoder's `WHITESPACE` pattern `[ \t\n\r]*`. -/
def isJsonWhitespace (c : Char) : Bool :=
  c == ' ' || c == '\t' || c == '\n' || c == '\r'

/-- The scanner's `while (idx <= end_idx && IS_WHITESPACE(...)) idx++`. -/
def skipWhitespace (cs : List Char) : List Char :=
  cs.dropWhile isJsonWhitespace

/-! ## Strings -/

/-- A hex digit of a `\uXXXX` escape, in either case. -/
def hexValue (c : Char) : Option Nat :=
  if '0' ≤ c ∧ c ≤ '9' then some (c.toNat - 48)
  else if 'a' ≤ c ∧ c ≤ 'f' then some (c.toNat - 87)
  else if 'A' ≤ c ∧ c ≤ 'F' then some (c.toNat - 55)
  else none

/-- The four hex digits of a `\uXXXX` escape, most significant first. -/
def hexQuad (a b c d : Char) : Option Nat :=
  (hexValue a).bind fun a => (hexValue b).bind fun b => (hexValue c).bind fun c =>
    (hexValue d).map fun d => ((a * 16 + b) * 16 + c) * 16 + d

/-- `Py_UNICODE_IS_HIGH_SURROGATE`. -/
def isHighSurrogate (n : Nat) : Bool :=
  0xd800 ≤ n && n ≤ 0xdbff

/-- `Py_UNICODE_IS_LOW_SURROGATE`. -/
def isLowSurrogate (n : Nat) : Bool :=
  0xdc00 ≤ n && n ≤ 0xdfff

/-- `Py_UNICODE_JOIN_SURROGATES` on a high and a low surrogate. -/
def joinSurrogates (high low : Nat) : Nat :=
  0x10000 + (high - 0xd800) * 0x400 + (low - 0xdc00)

/-- The escapes of `scanstring_unicode` other than `\u`. -/
def simpleEscape : Char → Option Char
  | '"' => some '"'
  | '\\' => some '\\'
  | '/' => some '/'
  | 'b' => some '\x08'
  | 'f' => some '\x0c'
  | 'n' => some '\n'
  | 'r' => some '\r'
  | 't' => some '\t'
  | _ => none

/-- For a `\u` escape of a surrogate that is not half of a pair: Python keeps it in the `str`,
a Lean `Char` cannot hold it. -/
def unpairedSurrogate : PyError :=
  .jsonDecode "unpaired surrogate"

/-- After a high surrogate: a `\\u` escape of a low surrogate, joined with it. -/
def scanLowSurrogate (high : Nat) : List Char → Except PyError (Char × List Char)
  | x :: y :: e :: f :: g :: h :: z :: tail =>
    if x = '\\' ∧ y = 'u' then
      match hexQuad e f g h with
      | none => .error (.jsonDecode "Invalid \\uXXXX escape")
      | some low =>
        if isLowSurrogate low then .ok (Char.ofNat (joinSurrogates high low), z :: tail)
        else .error unpairedSurrogate
    else .error unpairedSurrogate
  | _ => .error unpairedSurrogate

/-- The four hex digits after `\\u`, which must not end the text. -/
def scanUnicodeEscape : List Char → Except PyError (Char × List Char)
  | a :: b :: c :: d :: x :: tail =>
    match hexQuad a b c d with
    | none => .error (.jsonDecode "Invalid \\uXXXX escape")
    | some n =>
      if isHighSurrogate n then scanLowSurrogate n (x :: tail)
      else if isLowSurrogate n then .error unpairedSurrogate
      else .ok (Char.ofNat n, x :: tail)
  | _ => .error (.jsonDecode "Invalid \\uXXXX escape")

/-- The escape after a backslash: the character it stands for, and what follows it. -/
def scanEscape : List Char → Except PyError (Char × List Char)
  | [] => .error (.jsonDecode "Unterminated string starting at")
  | e :: tail =>
    if e = 'u' then scanUnicodeEscape tail
    else
      match simpleEscape e with
      | some c => .ok (c, tail)
      | none => .error (.jsonDecode "Invalid \\escape")

/-- One step of the loop of `scanstring_unicode`: the closing quote and what follows it
(`inl`), or the next character of the string and what follows that (`inr`). -/
def scanStringStep : List Char → Except PyError (List Char ⊕ (Char × List Char))
  | [] => .error (.jsonDecode "Unterminated string starting at")
  | c :: rest =>
    if c = '"' then .ok (.inl rest)
    else if c = '\\' then Sum.inr <$> scanEscape rest
    else if c.toNat ≤ 0x1f then .error (.jsonDecode "Invalid control character at")
    else .ok (.inr (c, rest))

/-- The loop of `scanstring_unicode`, for at most `fuel` characters. -/
def scanChars : Nat → List Char → Except PyError (List Char × List Char)
  | 0, _ => .error .fuelExhausted
  | fuel + 1, cs =>
    match scanStringStep cs with
    | .error e => .error e
    | .ok (.inl rest) => .ok ([], rest)
    | .ok (.inr (c, rest)) => (fun r => (c :: r.1, r.2)) <$> scanChars fuel rest

/-- `scanstring_unicode` after the opening quote: the characters of the string, and what
follows its closing quote. Every step reads a character, so the text's length is fuel
enough. -/
def scanString (cs : List Char) : Except PyError (List Char × List Char) :=
  scanChars (cs.length + 1) cs

/-! ## Numbers and constants -/

/-- The integer part of `_match_number_unicode`: `0`, or a nonzero digit and the digits after
it. -/
def matchIntPart : List Char → Option (List Char × List Char)
  | [] => none
  | c :: rest =>
    if c = '0' then some (['0'], rest)
    else if c.isDigit then some (c :: rest.takeWhile Char.isDigit, rest.dropWhile Char.isDigit)
    else none

/-- A `.` followed by digits, or nothing. -/
def matchFraction : List Char → List Char × List Char
  | c :: d :: rest =>
    if c = '.' ∧ d.isDigit then ('.' :: d :: rest.takeWhile Char.isDigit, rest.dropWhile Char.isDigit)
    else ([], c :: d :: rest)
  | cs => ([], cs)

/-- An `e` or `E`, an optional sign and digits; nothing (backtracking) when no digit follows. -/
def matchExponent : List Char → List Char × List Char
  | [] => ([], [])
  | e :: rest =>
    if e = 'e' ∨ e = 'E' then
      let (sign, digitsAndRest) := match rest with
        | s :: tail => if s = '-' ∨ s = '+' then ([s], tail) else ([], rest)
        | [] => ([], [])
      match digitsAndRest.takeWhile Char.isDigit with
      | [] => ([], e :: rest)
      | digits => (e :: sign ++ digits, digitsAndRest.dropWhile Char.isDigit)
    else ([], e :: rest)

/-- `_match_number_unicode`: an `int` when the number has neither a fraction nor an exponent,
else a `float`, kept as its text. -/
def matchNumber (cs : List Char) : Option (JsonValue × List Char) :=
  let negative := cs.head? == some '-'
  (matchIntPart (if negative then cs.drop 1 else cs)).map fun (intPart, rest) =>
    let (fraction, rest) := matchFraction rest
    let (exponent, rest) := matchExponent rest
    if fraction = [] ∧ exponent = [] then
      let n : Int := readDigits digitValue intPart
      (.int (if negative then -n else n), rest)
    else
      (.float (String.mk ((if negative then ['-'] else []) ++ intPart ++ fraction ++ exponent)),
        rest)

/-- The named constants of `scan_once_unicode` and the values `parse_constant` gives them. -/
def constants : List (String × JsonValue) :=
  [("null", .null), ("true", .bool true), ("false", .bool false), ("NaN", .float "NaN"),
    ("Infinity", .float "Infinity"), ("-Infinity", .float "-Infinity")]

/-- A named constant at the front of the text. -/
def matchConstant (cs : List Char) : Option (JsonValue × List Char) :=
  constants.findSome? fun (text, v) =>
    if text.toList.isPrefixOf cs then some (v, cs.drop text.length) else none

/-! ## Values -/

/-- What `raw_decode` reports for a `StopIteration` of the scanner. -/
def expectingValue : PyError :=
  .jsonDecode "Expecting value"

/-- A named constant or a number, where `scan_once_unicode` finds no string, array or object. -/
def scanScalar (cs : List Char) : Except PyError (JsonValue × List Char) :=
  match matchConstant cs <|> matchNumber cs with
  | some r => .ok r
  | none => .error expectingValue

mutual
/-- `scan_once_unicode`: one value at the front of the text, and what follows it. -/
def scanOnce : Nat → List Char → Except PyError (JsonValue × List Char)
  | 0, _ => .error .fuelExhausted
  | _ + 1, [] => .error expectingValue
  | fuel + 1, c :: rest =>
    if c = '"' then (fun r => (.str (String.mk r.1), r.2)) <$> scanString rest
    else if c = '{' then
      let cs := skipWhitespace rest
      if cs.head? = some '}' then .ok (.obj [], cs.drop 1) else parseObject fuel cs []
    else if c = '[' then
      let cs := skipWhitespace rest
      if cs.head? = some ']' then .ok (.arr [], cs.drop 1) else parseArray fuel cs []
    else scanScalar (c :: rest)

/-- The loop of `_parse_array_unicode`, at the start of an item. -/
def parseArray : Nat → List Char → List JsonValue → Except PyError (JsonValue × List Char)
  | 0, _, _ => .error .fuelExhausted
  | fuel + 1, cs, items =>
    match scanOnce fuel cs with
    | .error e => .error e
    | .ok (v, rest) =>
      let rest := skipWhitespace rest
      if rest.head? = some ']' then .ok (.arr (items ++ [v]), rest.drop 1)
      else if rest.head? = some ',' then parseArray fuel (skipWhitespace (rest.drop 1)) (items ++ [v])
      else .error (.jsonDecode "Expecting ',' delimiter")

/-- The loop of `_parse_object_unicode`, at the start of a member: each member is stored with
`PyDict_SetItem`. -/
def parseObject : Nat → List Char → List (String × JsonValue) →
    Except PyError (JsonValue × List Char)
  | 0, _, _ => .error .fuelExhausted
  | fuel + 1, cs, members =>
    if cs.head? ≠ some '"' then
      .error (.jsonDecode "Expecting property name enclosed in double quotes")
    else
      match scanString (cs.drop 1) with
      | .error e => .error e
      | .ok (key, rest) =>
        let rest := skipWhitespace rest
        if rest.head? ≠ some ':' then .error (.jsonDecode "Expecting ':' delimiter")
        else
          match scanOnce fuel (skipWhitespace (rest.drop 1)) with
          | .error e => .error e
          | .ok (v, rest) =>
            let members := dictSet members (String.mk key) v
            let rest := skipWhitespace rest
            if rest.head? = some '}' then .ok (.obj members, rest.drop 1)
            else if rest.head? = some ',' then
              parseObject fuel (skipWhitespace (rest.drop 1)) members
            else .error (.jsonDecode "Expecting ',' delimiter")
end

/-- `json.loads(s)`: a leading byte order mark is refused, then one value surrounded by
whitespace. -/
def loads (s : String) : Except PyError JsonValue :=
  if s.toList.head? = some '\uFEFF' then
    .error (.jsonDecode "Unexpected UTF-8 BOM (decode using utf-8-sig)")
  else
    match scanOnce (2 * s.length + 1) (skipWhitespace s.toList) with
    | .error e => .error e
    | .ok (v, rest) => if skipWhitespace rest = [] then .ok v else .error (.jsonDecode "Extra data")

example : loads "[1, -0.5e3, \x7b\"a\": null, \"a\": \"\\u00e9\\ud83d\\ude00\"\x7d]" =
    .ok (.arr [.int 1, .float "-0.5e3", .obj [("a", .str "é😀")]]) := by rfl

example : loads "[1,]" = .error expectingValue := by rfl

end CrosPlatform.Json
