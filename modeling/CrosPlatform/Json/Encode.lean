import CrosPlatform.Json.Value

/-!
# `json.dumps(value, indent=2)`

Python's pure-Python encoder (`_make_iterencode`, used whenever `indent` is set) with the default
`ensure_ascii=True`: strings go through `py_encode_basestring_ascii`, every item of a non-empty
list or dict stands on its own line indented by two spaces per level, items are separated by
`","` and keys by `": "`.
-/

namespace CrosPlatform.Json

/-- A lower-case hexadecimal digit, as in `'\\u{0:04x}'.format(n)`. -/
def hexDigit (d : Nat) : Char :=
  if d < 10 then Char.ofNat (48 + d) else Char.ofNat (87 + d)

/-- `'\\u{0:04x}'.format(n)`: a backslash, `u` and four lower-case hex digits. -/
def unicodeEscape (n : Nat) : List Char :=
  ['\\', 'u', hexDigit (n / 4096 % 16), hexDigit (n / 256 % 16), hexDigit (n / 16 % 16),
    hexDigit (n % 16)]

/-- The high surrogate of a code point above the basic plane. -/
def highSurrogate (n : Nat) : Nat := 0xd800 + (n - 0x10000) / 0x400

/-- The low surrogate of a code point above the basic plane. -/
def lowSurrogate (n : Nat) : Nat := 0xdc00 + (n - 0x10000) % 0x400

/-- `replace` in `py_encode_basestring_ascii`: `ESCAPE_DCT` for the two-character escapes and the
other control characters, a `\u` escape below `0x10000`, a surrogate pair above. -/
def escapeChar (c : Char) : List Char :=
  match c with
  | '\\' => ['\\', '\\']
  | '"' => ['\\', '"']
  | '\x08' => ['\\', 'b']
  | '\x0c' => ['\\', 'f']
  | '\n' => ['\\', 'n']
  | '\r' => ['\\', 'r']
  | '\t' => ['\\', 't']
  | c =>
    if 0x20 ≤ c.toNat ∧ c.toNat ≤ 0x7e then [c]
    else if c.toNat < 0x10000 then unicodeEscape c.toNat
    else unicodeEscape (highSurrogate c.toNat) ++ unicodeEscape (lowSurrogate c.toNat)

/-- `py_encode_basestring_ascii(s)`: the string quoted, with `ESCAPE_ASCII` matches replaced. -/
def encodeString (s : String) : List Char :=
  '"' :: s.toList.flatMap escapeChar ++ ['"']

/-- `'\n' + _indent * _current_indent_level` with `_indent = '  '`. -/
def newlineIndent (level : Nat) : List Char :=
  '\n' :: List.replicate (2 * level) ' '

mutual
/-- `_iterencode(o, level)` joined into one text. -/
def encodeValue (level : Nat) : JsonValue → List Char
  | .null => "null".toList
  | .bool true => "true".toList
  | .bool false => "false".toList
  | .int n => (toString n).toList
  | .float literal => literal.toList
  | .str s => encodeString s
  | .arr [] => ['[', ']']
  | .arr (v :: items) =>
    '[' :: newlineIndent (level + 1) ++ encodeValue (level + 1) v ++
      encodeItems (level + 1) items ++ newlineIndent level ++ [']']
  | .obj [] => ['{', '}']
  | .obj ((k, v) :: members) =>
    '{' :: newlineIndent (level + 1) ++ encodeString k ++ [':', ' '] ++
      encodeValue (level + 1) v ++ encodeMembers (level + 1) members ++ newlineIndent level ++ ['}']

/-- The items after the first of `_iterencode_list`, each behind `separator`. -/
def encodeItems (level : Nat) : List JsonValue → List Char
  | [] => []
  | v :: items => ',' :: newlineIndent level ++ encodeValue level v ++ encodeItems level items

/-- The members after the first of `_iterencode_dict`, each behind `item_separator`. -/
def encodeMembers (level : Nat) : List (String × JsonValue) → List Char
  | [] => []
  | (k, v) :: members =>
    ',' :: newlineIndent level ++ encodeString k ++ [':', ' '] ++ encodeValue level v ++
      encodeMembers level members
end

/-- `json.dumps(value, indent=2)`. -/
def dumps (value : JsonValue) : String :=
  String.mk (encodeValue 0 value)

example : dumps (.obj [("cameras", .arr [.int 1, .str "é\n"])]) =
    "\x7b\n  \"cameras\": [\n    1,\n    \"\\u00e9\\n\"\n  ]\n\x7d" := by decide

end CrosPlatform.Json
