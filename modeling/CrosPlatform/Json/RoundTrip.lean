import CrosPlatform.Json.Lexical

/-!
# `json.loads(json.dumps(v, indent=2))`

The scanner reads back every value the indenting encoder writes, with every object rebuilt as a
`dict` (`normalize`): the round trip is exact on values whose objects have distinct keys. The
only condition is on floats, which are kept as their text: each must be a text the scanner
reads as one float (`Loadable`).

The proof is by induction on the scanner's fuel, one statement for values, one for the rest of
an array and one for the rest of an object; the fuel needed is the length of the text.
-/

namespace CrosPlatform.Json

open CrosPlatform.Text

/-- Every float of the value is the text of one float. -/
def JsonValue.Loadable : JsonValue → Prop :=
  JsonValue.Everywhere fun
    | .float literal => FloatLiteral literal
    | _ => True

@[simp]
theorem loadable_arr {items : List JsonValue} :
    (JsonValue.arr items).Loadable ↔ ∀ v ∈ items, v.Loadable := by
  simp [JsonValue.Loadable]

@[simp]
theorem loadable_obj {members : List (String × JsonValue)} :
    (JsonValue.obj members).Loadable ↔ ∀ m ∈ members, m.2.Loadable := by
  simp [JsonValue.Loadable]

/-! ## The first character of a value -/

/-- A character a value can start with. -/
def StartsValue (c : Char) : Prop :=
  c ∈ ['"', '[', '{', 'n', 't', 'f', 'N', 'I', '-'] ∨ c.isDigit = true

theorem StartsValue.not_delimiter {c : Char} (start : StartsValue c) :
    isJsonWhitespace c = false ∧ c ≠ ']' ∧ c ≠ '}' ∧ c ≠ ',' ∧ c ≠ '\uFEFF' := by
  rcases start with mem | digit
  · simp only [List.mem_cons, List.not_mem_nil, or_false] at mem
    rcases mem with rfl | rfl | rfl | rfl | rfl | rfl | rfl | rfl | rfl <;> decide
  · have ne : ∀ d : Char, d.isDigit = false → c ≠ d := by rintro d nd rfl; simp_all
    simp [isJsonWhitespace, ne ' ' rfl, ne '\t' rfl, ne '\n' rfl, ne '\r' rfl, ne ']' rfl,
      ne '}' rfl, ne ',' rfl, ne '\uFEFF' rfl]

theorem FloatLiteral.head {literal : String} (float : FloatLiteral literal) :
    ∃ c tail, literal.toList = c :: tail ∧ StartsValue c ∧
      (c = '-' → ∃ d rest, tail = d :: rest ∧ (d = 'I' ∨ d.isDigit = true)) := by
  rcases float with rfl | rfl | rfl | ⟨sign, intPart, fraction, exponent, eq, signs, int, -⟩
  · exact ⟨'N', _, rfl, by simp [StartsValue], by simp⟩
  · exact ⟨'I', _, rfl, by simp [StartsValue], by simp⟩
  · exact ⟨'-', _, rfl, by simp [StartsValue], fun _ => ⟨'I', _, rfl, .inl rfl⟩⟩
  · obtain ⟨d, ds, rfl⟩ := List.exists_cons_of_ne_nil int.ne_nil
    have digit := int.isDigit d (by simp)
    rcases signs with rfl | rfl
    · refine ⟨d, _, eq, .inr digit, ?_⟩
      rintro rfl
      simp at digit
    · exact ⟨'-', _, eq, by simp [StartsValue], fun _ => ⟨d, _, rfl, .inr digit⟩⟩

theorem toList_toString_int_head (n : Int) :
    ∃ c tail, (toString n).toList = c :: tail ∧ StartsValue c ∧
      (c = '-' → ∃ d rest, tail = d :: rest ∧ d.isDigit = true) := by
  obtain ⟨d, ds, digits⟩ := List.exists_cons_of_ne_nil (toDigits_ne_nil n.natAbs)
  have digit := isDigit_of_mem_toDigits n.natAbs d (by simp [digits])
  rw [toList_toString_int, digits]
  split_ifs
  · exact ⟨'-', _, rfl, by simp [StartsValue], fun _ => ⟨d, ds, rfl, digit⟩⟩
  · refine ⟨d, ds, rfl, .inr digit, ?_⟩
    rintro rfl
    simp at digit

theorem encodeValue_head (level : Nat) {v : JsonValue} (loadable : v.Loadable) :
    ∃ c tail, encodeValue level v = c :: tail ∧ StartsValue c := by
  match v with
  | .null => exact ⟨_, _, rfl, by simp [StartsValue]⟩
  | .bool true => exact ⟨_, _, rfl, by simp [StartsValue]⟩
  | .bool false => exact ⟨_, _, rfl, by simp [StartsValue]⟩
  | .int n =>
    obtain ⟨c, tail, eq, start, -⟩ := toList_toString_int_head n
    exact ⟨c, tail, eq, start⟩
  | .float literal =>
    obtain ⟨c, tail, eq, start, -⟩ := FloatLiteral.head loadable
    exact ⟨c, tail, eq, start⟩
  | .str s => exact ⟨_, _, rfl, by simp [StartsValue]⟩
  | .arr [] => exact ⟨_, _, rfl, by simp [StartsValue]⟩
  | .arr (_ :: _) => exact ⟨_, _, rfl, by simp [StartsValue]⟩
  | .obj [] => exact ⟨_, _, rfl, by simp [StartsValue]⟩
  | .obj (_ :: _) => exact ⟨_, _, rfl, by simp [StartsValue]⟩

/-! ## Whitespace -/

theorem skipWhitespace_newlineIndent (level : Nat) (cs : List Char) :
    skipWhitespace (newlineIndent level ++ cs) = skipWhitespace cs := by
  apply List.dropWhile_append_of_pos
  simp [newlineIndent, isJsonWhitespace]

theorem skipWhitespace_cons {c : Char} (notSpace : isJsonWhitespace c = false)
    (rest : List Char) : skipWhitespace (c :: rest) = c :: rest := by
  simp [skipWhitespace, notSpace]

@[simp]
theorem skipWhitespace_comma (rest : List Char) : skipWhitespace (',' :: rest) = ',' :: rest :=
  skipWhitespace_cons (by decide) rest

@[simp]
theorem skipWhitespace_colon (rest : List Char) : skipWhitespace (':' :: rest) = ':' :: rest :=
  skipWhitespace_cons (by decide) rest

theorem skipWhitespace_encodeString (s : String) (rest : List Char) :
    skipWhitespace (encodeString s ++ rest) = encodeString s ++ rest :=
  skipWhitespace_cons (by decide) _

theorem skipWhitespace_encodeValue (level : Nat) {v : JsonValue} (loadable : v.Loadable)
    (rest : List Char) : skipWhitespace (encodeValue level v ++ rest) = encodeValue level v ++ rest := by
  obtain ⟨c, tail, eq, start⟩ := encodeValue_head level loadable
  rw [eq, List.cons_append, skipWhitespace_cons start.not_delimiter.1]

/-! ## Scalars -/

theorem scanOnce_other {c : Char} (notQuote : c ≠ '"') (notBrace : c ≠ '{')
    (notBracket : c ≠ '[') (fuel : Nat) (rest : List Char) :
    scanOnce (fuel + 1) (c :: rest) = scanScalar (c :: rest) := by
  rw [scanOnce.eq_3, if_neg notQuote, if_neg notBrace, if_neg notBracket]

theorem scanOnce_constant {text : String} {v : JsonValue} (constant : (text, v) ∈ constants)
    (fuel : Nat) (rest : List Char) : scanOnce (fuel + 1) (text.toList ++ rest) = .ok (v, rest) := by
  simp only [constants, List.mem_cons, Prod.mk.injEq, List.not_mem_nil, or_false] at constant
  rcases constant with ⟨rfl, rfl⟩ | ⟨rfl, rfl⟩ | ⟨rfl, rfl⟩ | ⟨rfl, rfl⟩ | ⟨rfl, rfl⟩ | ⟨rfl, rfl⟩ <;>
    simp only [scanOnce, String.toList, ↓Char.isValue, List.cons_append, List.singleton_append,
      Char.reduceEq, ↓reduceIte, scanScalar, matchConstant, List.isPrefixOf_iff_prefix, String.length,
      constants, List.cons_prefix_cons, List.nil_prefix, and_true, and_false, false_and, and_self,
      Option.isNone_none, List.findSome?_cons_of_isNone, List.length_cons, List.length_singleton,
      Nat.reduceAdd, List.drop_succ_cons, List.drop_zero, Option.isSome_some,
      List.findSome?_cons_of_isSome, Option.some_orElse, List.length_nil, List.nil_append]

/-- A number the constants do not claim is read by `_match_number_unicode`. -/
theorem scanOnce_number {c : Char} {tail rest : List Char} {r : JsonValue × List Char}
    (start : c.isDigit = true ∨ (c = '-' ∧ ∃ d more, tail = d :: more ∧ d.isDigit = true))
    (read : matchNumber (c :: tail ++ rest) = some r) (fuel : Nat) :
    scanOnce (fuel + 1) (c :: tail ++ rest) = .ok r := by
  have notConstant : matchConstant (c :: tail ++ rest) = none := by
    rcases start with digit | ⟨rfl, d, more, rfl, digit⟩
    · exact matchConstant_digit digit _
    · exact matchConstant_minus_digit digit _
  have other : c ≠ '"' ∧ c ≠ '{' ∧ c ≠ '[' := by
    rcases start with digit | ⟨rfl, -⟩
    · refine ⟨?_, ?_, ?_⟩ <;> (rintro rfl; simp at digit)
    · decide
  rw [List.cons_append, scanOnce_other other.1 other.2.1 other.2.2, ← List.cons_append,
    scanScalar, notConstant, read]
  rfl

theorem scanOnce_int (n : Int) {rest : List Char} (ends : EndsNumber rest) (fuel : Nat) :
    scanOnce (fuel + 1) ((toString n).toList ++ rest) = .ok (.int n, rest) := by
  obtain ⟨d, ds, digits⟩ := List.exists_cons_of_ne_nil (toDigits_ne_nil n.natAbs)
  have digit := isDigit_of_mem_toDigits n.natAbs d (by simp [digits])
  have read := matchNumber_toString n ends
  rw [toList_toString_int, digits] at read ⊢
  split_ifs at read ⊢
  · exact scanOnce_number (.inr ⟨rfl, d, ds, rfl, digit⟩) read fuel
  · exact scanOnce_number (.inl digit) read fuel

theorem scanOnce_float {literal : String} (float : FloatLiteral literal) {rest : List Char}
    (ends : EndsNumber rest) (fuel : Nat) :
    scanOnce (fuel + 1) (literal.toList ++ rest) = .ok (.float literal, rest) := by
  rcases float with rfl | rfl | rfl | ⟨sign, intPart, fraction, exponent, eq, signs, int, frac,
    exp, notInt⟩
  · exact scanOnce_constant (by simp [constants]) fuel rest
  · exact scanOnce_constant (by simp [constants]) fuel rest
  · exact scanOnce_constant (by simp [constants]) fuel rest
  · have read := matchNumber_append signs int frac exp ends
    have text : String.mk literal.toList = literal := rfl
    rw [if_neg (by tauto), ← eq, text] at read
    obtain ⟨d, ds, rfl⟩ := List.exists_cons_of_ne_nil int.ne_nil
    have digit := int.isDigit d (by simp)
    rw [eq] at read ⊢
    rcases signs with rfl | rfl
    · exact scanOnce_number (.inl digit) read fuel
    · exact scanOnce_number (.inr ⟨rfl, d, _, rfl, digit⟩) read fuel

theorem scanOnce_string (s : String) (fuel : Nat) (rest : List Char) :
    scanOnce (fuel + 1) (encodeString s ++ rest) = .ok (.str s, rest) := by
  simp [encodeString, scanOnce, scanString_escapes]

/-! ## Values, arrays and objects -/

/-- With `fuel`, `scan_once_unicode` reads back every value that `fuel` characters encode. -/
def ScansValues (fuel : Nat) : Prop :=
  ∀ (v : JsonValue) (level : Nat) (rest : List Char), v.Loadable →
    (encodeValue level v).length ≤ fuel → EndsNumber rest →
    scanOnce fuel (encodeValue level v ++ rest) = .ok (v.normalize, rest)

/-- With `fuel`, `_parse_array_unicode` reads back the items of a list from its first item on. -/
def ScansItems (fuel : Nat) : Prop :=
  ∀ (v : JsonValue) (items acc : List JsonValue) (level : Nat) (rest : List Char),
    (∀ w ∈ v :: items, w.Loadable) →
    (encodeValue (level + 1) v).length + (encodeItems (level + 1) items).length < fuel →
    parseArray fuel (encodeValue (level + 1) v ++ encodeItems (level + 1) items ++
      newlineIndent level ++ ']' :: rest) acc =
      .ok (.arr (acc ++ normalizeItems (v :: items)), rest)

/-- With `fuel`, `_parse_object_unicode` reads back the members of a dict from its first member
on, storing each with `PyDict_SetItem`. -/
def ScansMembers (fuel : Nat) : Prop :=
  ∀ (key : String) (v : JsonValue) (members acc : List (String × JsonValue)) (level : Nat)
    (rest : List Char), (∀ m ∈ (key, v) :: members, m.2.Loadable) →
    (encodeValue (level + 1) v).length + (encodeMembers (level + 1) members).length < fuel →
    parseObject fuel (encodeString key ++ [':', ' '] ++ encodeValue (level + 1) v ++
      encodeMembers (level + 1) members ++ newlineIndent level ++ '}' :: rest) acc =
      .ok (.obj ((normalizeMembers ((key, v) :: members)).foldl
        (fun acc m => dictSet acc m.1 m.2) acc), rest)

theorem endsNumber_newlineIndent (level : Nat) (rest : List Char) :
    EndsNumber (newlineIndent level ++ rest) := by
  simp [EndsNumber, newlineIndent]

theorem endsNumber_comma (rest : List Char) : EndsNumber (',' :: rest) := by
  simp [EndsNumber]

theorem endsNumber_encodeItems (level indent : Nat) (items : List JsonValue) (rest : List Char) :
    EndsNumber (encodeItems level items ++ (newlineIndent indent ++ rest)) := by
  cases items with
  | nil => simpa using endsNumber_newlineIndent _ rest
  | cons v items => simpa [encodeItems] using endsNumber_comma _

theorem endsNumber_encodeMembers (level indent : Nat) (members : List (String × JsonValue))
    (rest : List Char) :
    EndsNumber (encodeMembers level members ++ (newlineIndent indent ++ rest)) := by
  cases members with
  | nil => simpa using endsNumber_newlineIndent _ rest
  | cons m members => simpa [encodeMembers] using endsNumber_comma _

theorem scansItems_succ {fuel : Nat} (values : ScansValues fuel) (items : ScansItems fuel) :
    ScansItems (fuel + 1) := by
  intro v rest' acc level rest loadable short
  have first := values v (level + 1) (encodeItems (level + 1) rest' ++ (newlineIndent level ++
    ']' :: rest)) (loadable v (by simp)) (by omega)
    (endsNumber_encodeItems (level + 1) level rest' (']' :: rest))
  rw [parseArray]
  simp only [List.append_assoc] at first ⊢
  rw [first]
  cases rest' with
  | nil =>
    have close : skipWhitespace (newlineIndent level ++ ']' :: rest) = ']' :: rest := by
      rw [skipWhitespace_newlineIndent, skipWhitespace_cons (by decide)]
    simp [encodeItems, close, normalizeItems]
  | cons w rest' =>
    have more := items w rest' (acc ++ [v.normalize]) level rest
      (fun u mem => loadable u (List.mem_cons_of_mem _ mem))
      (by simp only [encodeItems, List.length_cons, List.length_append] at short; omega)
    simp only [List.append_assoc] at more
    have next : skipWhitespace (newlineIndent (level + 1) ++ (encodeValue (level + 1) w ++
        (encodeItems (level + 1) rest' ++ (newlineIndent level ++ ']' :: rest)))) =
        encodeValue (level + 1) w ++ encodeItems (level + 1) rest' ++ newlineIndent level ++
          ']' :: rest := by
      rw [skipWhitespace_newlineIndent, skipWhitespace_encodeValue (level + 1) (loadable w (by simp))]
      simp
    simp [encodeItems, skipWhitespace_cons, isJsonWhitespace, next, more, normalizeItems]

theorem scansMembers_succ {fuel : Nat} (values : ScansValues fuel) (members : ScansMembers fuel) :
    ScansMembers (fuel + 1) := by
  intro key v rest' acc level rest loadable short
  have first := values v (level + 1) (encodeMembers (level + 1) rest' ++ (newlineIndent level ++
    '}' :: rest)) (loadable (key, v) (by simp)) (by omega)
    (endsNumber_encodeMembers (level + 1) level rest' ('}' :: rest))
  have keyText : String.mk key.data = key := rfl
  have value : skipWhitespace (' ' :: (encodeValue (level + 1) v ++ (encodeMembers (level + 1) rest' ++
      (newlineIndent level ++ '}' :: rest)))) = encodeValue (level + 1) v ++
      (encodeMembers (level + 1) rest' ++ (newlineIndent level ++ '}' :: rest)) := by
    rw [skipWhitespace, List.dropWhile_cons_of_pos (by decide), ← skipWhitespace,
      skipWhitespace_encodeValue (level + 1) (loadable (key, v) (by simp))]
  rw [parseObject]
  simp only [encodeString, List.cons_append, List.append_assoc, List.singleton_append] at first ⊢
  simp [scanString_escapes, skipWhitespace_cons, isJsonWhitespace, value, first, keyText]
  cases rest' with
  | nil =>
    have close : skipWhitespace (newlineIndent level ++ '}' :: rest) = '}' :: rest := by
      rw [skipWhitespace_newlineIndent, skipWhitespace_cons (by decide)]
    simp [encodeMembers, close, normalizeMembers]
  | cons m rest' =>
    obtain ⟨k, w⟩ := m
    have more := members k w rest' (dictSet acc key v.normalize) level rest
      (fun u mem => loadable u (List.mem_cons_of_mem _ mem))
      (by simp only [encodeMembers, List.length_cons, List.length_append] at short; omega)
    simp only [List.append_assoc] at more
    have next : skipWhitespace (newlineIndent (level + 1) ++ (encodeString k ++ ([':', ' '] ++
        (encodeValue (level + 1) w ++ (encodeMembers (level + 1) rest' ++
        (newlineIndent level ++ '}' :: rest)))))) = encodeString k ++ ([':', ' '] ++
        (encodeValue (level + 1) w ++ (encodeMembers (level + 1) rest' ++
        (newlineIndent level ++ '}' :: rest)))) := by
      rw [skipWhitespace_newlineIndent, skipWhitespace_encodeString]
    simp only [encodeMembers, List.cons_append, List.nil_append, List.append_assoc] at next more ⊢
    simp [next, more, normalizeMembers, keyText]

theorem encodeValue_append_head (level : Nat) {v : JsonValue} (loadable : v.Loadable)
    (rest : List Char) {close : Char} (closing : close = ']' ∨ close = '}') :
    (encodeValue level v ++ rest).head? ≠ some close := by
  obtain ⟨c, tail, eq, start⟩ := encodeValue_head level loadable
  have := start.not_delimiter
  rcases closing with rfl | rfl <;> simp [eq, this.2.1, this.2.2.1]

theorem scansValues_succ {fuel : Nat} (items : ScansItems fuel) (members : ScansMembers fuel) :
    ScansValues (fuel + 1) := by
  intro v level rest loadable short ends
  match v with
  | .null =>
    show scanOnce (fuel + 1) ("null".toList ++ rest) = .ok (.null, rest)
    exact scanOnce_constant (by simp [constants]) fuel rest
  | .bool true =>
    show scanOnce (fuel + 1) ("true".toList ++ rest) = .ok (.bool true, rest)
    exact scanOnce_constant (by simp [constants]) fuel rest
  | .bool false =>
    show scanOnce (fuel + 1) ("false".toList ++ rest) = .ok (.bool false, rest)
    exact scanOnce_constant (by simp [constants]) fuel rest
  | .int n => exact scanOnce_int n ends fuel
  | .float literal => exact scanOnce_float loadable ends fuel
  | .str s => exact scanOnce_string s fuel rest
  | .arr [] => simp [encodeValue, scanOnce, skipWhitespace, isJsonWhitespace, JsonValue.normalize,
      normalizeItems]
  | .arr (w :: ws) =>
    rw [loadable_arr] at loadable
    have read := items w ws [] level rest loadable
      (by simp only [encodeValue, List.length_cons, List.length_append] at short; omega)
    have first := encodeValue_append_head (level + 1) (loadable w (by simp))
      (encodeItems (level + 1) ws ++ (newlineIndent level ++ ']' :: rest)) (.inl rfl)
    have skip := skipWhitespace_encodeValue (level + 1) (loadable w (by simp))
      (encodeItems (level + 1) ws ++ (newlineIndent level ++ ']' :: rest))
    simp only [List.append_assoc] at read
    simp only [encodeValue, List.cons_append, List.append_assoc, List.nil_append]
    rw [scanOnce.eq_3, if_neg (by decide), if_neg (by decide), if_pos rfl]
    simp only [skipWhitespace_newlineIndent, skip, if_neg first, read]
    simp [JsonValue.normalize]
  | .obj [] => simp [encodeValue, scanOnce, skipWhitespace, isJsonWhitespace, JsonValue.normalize,
      normalizeMembers, dictOfPairs]
  | .obj ((k, w) :: ms) =>
    rw [loadable_obj] at loadable
    have read := members k w ms [] level rest loadable
      (by simp only [encodeValue, List.length_cons, List.length_append] at short; omega)
    have first : (encodeString k ++ ':' :: ' ' :: (encodeValue (level + 1) w ++
        (encodeMembers (level + 1) ms ++ (newlineIndent level ++ '}' :: rest)))).head? ≠
        some '}' := by
      simp [encodeString]
    simp only [List.append_assoc, List.cons_append, List.singleton_append, List.nil_append] at read
    simp only [encodeValue, List.cons_append, List.append_assoc, List.nil_append]
    rw [scanOnce.eq_3, if_neg (by decide), if_pos rfl]
    simp only [skipWhitespace_newlineIndent, skipWhitespace_encodeString, if_neg first, read]
    simp [JsonValue.normalize, dictOfPairs]

theorem scans (fuel : Nat) : ScansValues fuel ∧ ScansItems fuel ∧ ScansMembers fuel := by
  induction fuel with
  | zero =>
    refine ⟨fun v level _ loadable short _ => ?_, fun _ _ _ _ _ _ short => by omega,
      fun _ _ _ _ _ _ _ short => by omega⟩
    obtain ⟨c, tail, eq, -⟩ := encodeValue_head level loadable
    simp [eq] at short
  | succ fuel ih =>
    exact ⟨scansValues_succ ih.2.1 ih.2.2, scansItems_succ ih.1 ih.2.1,
      scansMembers_succ ih.1 ih.2.2⟩

/-- `json.loads(json.dumps(v, indent=2))` is `v` with every object rebuilt as a `dict`. -/
theorem loads_dumps {v : JsonValue} (loadable : v.Loadable) : loads (dumps v) = .ok v.normalize := by
  obtain ⟨c, tail, eq, start⟩ := encodeValue_head 0 loadable
  have read := (scans (2 * (dumps v).length + 1)).1 v 0 [] loadable
    (by simp [dumps, String.length]; omega) (by simp [EndsNumber])
  have text : (dumps v).data = encodeValue 0 v := rfl
  have noMark : (encodeValue 0 v).head? ≠ some '\uFEFF' := by
    simp [eq, start.not_delimiter.2.2.2.2]
  have skip : skipWhitespace (encodeValue 0 v) = encodeValue 0 v := by
    simpa using skipWhitespace_encodeValue 0 loadable []
  rw [List.append_nil] at read
  simp only [loads, String.toList, text, if_neg noMark, skip, read]
  rfl

end CrosPlatform.Json
