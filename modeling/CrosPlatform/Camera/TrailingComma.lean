import CrosPlatform.Json.RoundTrip

/-!
# `_load_json`: trailing commas

`fake_hal._load_json` removes trailing commas with `re.sub(_TRAILING_COMMA, r"\1", s)` before
`json.loads`. The pattern is a comma, any run of `[ \t\r\n]` and a closing bracket, and the
substitution scans the whole text, string literals included.

On a text that `json.dumps` wrote, a comma outside a string is always followed by a newline,
indentation and the start of a value, so the rewrite only changes string literals: inside one
it removes every comma that is followed by spaces and a closing bracket, together with the
spaces. Reading back what `_save_config` wrote therefore gives the config with that rewrite
applied to each of its strings and keys.
-/

namespace CrosPlatform.Camera

open CrosPlatform.Json

theorem length_tail_dropWhile_lt (p : Char → Bool) (c : Char) (l : List Char) :
    ((l.dropWhile p).tail).length < (c :: l).length := by
  have suffix : (l.dropWhile p).length ≤ l.length := (List.dropWhile_suffix p).length_le
  simp only [List.length_tail, List.length_cons]
  omega

/-- `re.sub` of a comma, a run of `isSpace` characters and a closing bracket by the bracket,
scanning from the left: a comma whose first character after the spaces is `]` or `}` goes, with
the spaces, and the scan goes on after the bracket. -/
def stripTrailingCommas (isSpace : Char → Bool) : List Char → List Char
  | [] => []
  | c :: rest =>
    let after := rest.dropWhile isSpace
    if c = ',' ∧ (after.head? = some ']' ∨ after.head? = some '}') then
      after.take 1 ++ stripTrailingCommas isSpace after.tail
    else c :: stripTrailingCommas isSpace rest
termination_by cs => cs.length
decreasing_by
  all_goals first
    | exact length_tail_dropWhile_lt isSpace _ _
    | exact Nat.lt_succ_self _

/-- `_TRAILING_COMMA`: its space class `[ \t\r\n]` is the JSON whitespace. -/
def trailingCommaSub (s : List Char) : List Char :=
  stripTrailingCommas isJsonWhitespace s

/-- `_load_json(s)`. -/
def loadJson (s : String) : Except PyError JsonValue :=
  loads (String.mk (trailingCommaSub s.toList))

/-- The substitution inside one string literal, where the only spaces are blanks. -/
def stripInString (s : String) : String :=
  String.mk (stripTrailingCommas (· == ' ') s.toList)

/-! ## The substitution, step by step -/

section Strip

variable {isSpace : Char → Bool}

@[simp]
theorem stripTrailingCommas_nil : stripTrailingCommas isSpace [] = [] := by
  rw [stripTrailingCommas]

theorem stripTrailingCommas_cons {c : Char} (notComma : c ≠ ',') (rest : List Char) :
    stripTrailingCommas isSpace (c :: rest) = c :: stripTrailingCommas isSpace rest := by
  rw [stripTrailingCommas, if_neg (fun h => notComma h.1)]

theorem stripTrailingCommas_append_of_comma_free {a : List Char} (free : ',' ∉ a)
    (b : List Char) :
    stripTrailingCommas isSpace (a ++ b) = a ++ stripTrailingCommas isSpace b := by
  induction a with
  | nil => rfl
  | cons c a ih =>
    simp only [List.mem_cons, not_or] at free
    rw [List.cons_append, stripTrailingCommas_cons (Ne.symm free.1), ih free.2, List.cons_append]

/-- A comma that spaces and a closing bracket do not follow stays. -/
theorem stripTrailingCommas_comma_of_open {rest : List Char}
    (notClosing : ∀ b ∈ (rest.dropWhile isSpace).head?, b ≠ ']' ∧ b ≠ '}') :
    stripTrailingCommas isSpace (',' :: rest) = ',' :: stripTrailingCommas isSpace rest := by
  rw [stripTrailingCommas, if_neg]
  rintro ⟨-, closing | closing⟩ <;> simp [closing] at notClosing

/-- A comma followed by spaces and a closing bracket is replaced by the bracket. -/
theorem stripTrailingCommas_comma_of_closing {rest after : List Char} {b : Char}
    (dropped : rest.dropWhile isSpace = b :: after) (closing : b = ']' ∨ b = '}') :
    stripTrailingCommas isSpace (',' :: rest) = b :: stripTrailingCommas isSpace after := by
  rw [stripTrailingCommas, if_pos (by simpa [dropped] using closing)]
  simp [dropped]

end Strip

/-! ## Inside a string literal -/

theorem hexDigit_mem (d : Nat) : hexDigit (d % 16) ∈ "0123456789abcdef".toList := by
  have all : ∀ e < 16, hexDigit e ∈ "0123456789abcdef".toList := by decide
  exact all _ (Nat.mod_lt _ (by norm_num))

theorem mem_unicodeEscape {n : Nat} {x : Char} (mem : x ∈ unicodeEscape n) :
    x ∈ "\\u0123456789abcdef".toList := by
  have hex : ∀ d, hexDigit (d % 16) ∈ "\\u0123456789abcdef".toList := fun d =>
    List.mem_cons_of_mem _ (List.mem_cons_of_mem _ (hexDigit_mem d))
  simp only [unicodeEscape, List.mem_cons, List.not_mem_nil, or_false] at mem
  rcases mem with rfl | rfl | rfl | rfl | rfl | rfl
  · decide
  · decide
  all_goals exact hex _

/-- The escape of a character starts with a backslash, or is the printable character itself. -/
theorem escapeChar_head (c : Char) :
    (escapeChar c).head? = some '\\' ∨ (escapeChar c = [c] ∧ 0x20 ≤ c.toNat ∧ c.toNat ≤ 0x7e) := by
  unfold escapeChar
  split
  all_goals try exact .inl rfl
  split_ifs with printable basic
  · exact .inr ⟨rfl, printable⟩
  · exact .inl rfl
  · exact .inl rfl

theorem comma_not_mem_escapeChar {c : Char} (notComma : c ≠ ',') : ',' ∉ escapeChar c := by
  unfold escapeChar
  split
  all_goals try decide
  split_ifs
  · simpa using Ne.symm notComma
  · exact fun mem => absurd (mem_unicodeEscape mem) (by decide)
  · intro mem
    rcases List.mem_append.mp mem with mem | mem <;>
      exact absurd (mem_unicodeEscape mem) (by decide)

theorem escapeChar_head_not_space {c : Char} (notSpace : c ≠ ' ') :
    ∀ x ∈ (escapeChar c).head?, isJsonWhitespace x = false := by
  intro x head
  rcases escapeChar_head c with backslash | ⟨single, low, high⟩
  · rw [backslash] at head
    cases head
    rfl
  · rw [single] at head
    cases head
    have ne : ∀ d : Char, d.toNat < 0x20 → c ≠ d := by rintro d small rfl; omega
    simp [isJsonWhitespace, notSpace, ne '\t' (by decide), ne '\n' (by decide),
      ne '\r' (by decide)]

theorem escapeChar_head_not_closing {c : Char} (notClosing : c ≠ ']' ∧ c ≠ '}') :
    ∀ x ∈ (escapeChar c).head?, x ≠ ']' ∧ x ≠ '}' := by
  intro x head
  rcases escapeChar_head c with backslash | ⟨single, -⟩
  · rw [backslash] at head
    cases head
    decide
  · rw [single] at head
    cases head
    exact notClosing

/-- Escaped blanks are blanks, and every other escape starts with something that is not JSON
whitespace. -/
theorem dropWhile_escapes (s : List Char) {rest : List Char}
    (stop : ∀ x ∈ rest.head?, isJsonWhitespace x = false) :
    (s.flatMap escapeChar ++ rest).dropWhile isJsonWhitespace =
      (s.dropWhile (· == ' ')).flatMap escapeChar ++ rest := by
  induction s with
  | nil =>
    cases rest with
    | nil => rfl
    | cons x rest => simp [stop x rfl]
  | cons c s ih =>
    by_cases space : c = ' '
    · subst space
      simpa [escapeChar, isJsonWhitespace] using ih
    · obtain ⟨e, tail, escaped⟩ := List.exists_cons_of_ne_nil (escapeChar_ne_nil c)
      have notSpace := escapeChar_head_not_space space e (by simp [escaped])
      simp [escaped, notSpace, space]

/-- Inside a string literal the substitution acts on the escaped text, where the only spaces are
blanks: on the string itself it is the same pattern with the space class `[ ]`. -/
theorem trailingCommaSub_escapes (s rest : List Char) :
    trailingCommaSub (s.flatMap escapeChar ++ '"' :: rest) =
      (stripTrailingCommas (· == ' ') s).flatMap escapeChar ++ '"' :: trailingCommaSub rest := by
  unfold trailingCommaSub
  match s with
  | [] =>
    rw [List.flatMap_nil, List.nil_append, stripTrailingCommas_cons (show '"' ≠ ',' by decide),
      stripTrailingCommas_nil, List.flatMap_nil, List.nil_append]
  | c :: s =>
    have ih := trailingCommaSub_escapes s rest
    unfold trailingCommaSub at ih
    by_cases comma : c = ','
    · subst comma
      have dropped : (s.flatMap escapeChar ++ '"' :: rest).dropWhile isJsonWhitespace =
          (s.dropWhile (· == ' ')).flatMap escapeChar ++ '"' :: rest :=
        dropWhile_escapes s (by simp [isJsonWhitespace])
      cases tail : s.dropWhile (· == ' ') with
      | nil =>
        rw [tail, List.flatMap_nil, List.nil_append] at dropped
        have text : stripTrailingCommas isJsonWhitespace (',' :: (s.flatMap escapeChar ++ '"' :: rest)) =
            ',' :: stripTrailingCommas isJsonWhitespace (s.flatMap escapeChar ++ '"' :: rest) :=
          stripTrailingCommas_comma_of_open (by simp [dropped])
        have raw : stripTrailingCommas (· == ' ') (',' :: s) =
            ',' :: stripTrailingCommas (· == ' ') s :=
          stripTrailingCommas_comma_of_open (by simp [tail])
        rw [List.flatMap_cons, List.append_assoc, show escapeChar ',' = [','] from rfl,
          List.singleton_append, text, ih, raw, List.flatMap_cons, List.append_assoc]
        rfl
      | cons d after =>
        rw [tail] at dropped
        by_cases closing : d = ']' ∨ d = '}'
        · have single : escapeChar d = [d] := by rcases closing with rfl | rfl <;> rfl
          have short : after.length < s.length := by
            have suffix : (s.dropWhile (· == ' ')).length ≤ s.length :=
              (List.dropWhile_suffix _).length_le
            rw [tail, List.length_cons] at suffix
            exact suffix
          have next := trailingCommaSub_escapes after rest
          unfold trailingCommaSub at next
          rw [List.flatMap_cons, single, List.singleton_append, List.cons_append] at dropped
          rw [List.flatMap_cons, List.append_assoc, show escapeChar ',' = [','] from rfl,
            List.singleton_append, stripTrailingCommas_comma_of_closing dropped closing, next,
            stripTrailingCommas_comma_of_closing tail closing, List.flatMap_cons, single,
            List.singleton_append, List.cons_append]
        · have notClosing : d ≠ ']' ∧ d ≠ '}' := not_or.mp closing
          obtain ⟨e, escaped, first⟩ := List.exists_cons_of_ne_nil (escapeChar_ne_nil d)
          have head := escapeChar_head_not_closing notClosing e (by simp [first])
          have text : stripTrailingCommas isJsonWhitespace (',' :: (s.flatMap escapeChar ++ '"' :: rest)) =
              ',' :: stripTrailingCommas isJsonWhitespace (s.flatMap escapeChar ++ '"' :: rest) :=
            stripTrailingCommas_comma_of_open (by simp [dropped, first, head])
          have raw : stripTrailingCommas (· == ' ') (',' :: s) =
              ',' :: stripTrailingCommas (· == ' ') s :=
            stripTrailingCommas_comma_of_open (by simp [tail, notClosing])
          rw [List.flatMap_cons, List.append_assoc, show escapeChar ',' = [','] from rfl,
            List.singleton_append, text, ih, raw, List.flatMap_cons, List.append_assoc]
          rfl
    · rw [List.flatMap_cons, List.append_assoc,
        stripTrailingCommas_append_of_comma_free (comma_not_mem_escapeChar comma), ih,
        stripTrailingCommas_cons comma, List.flatMap_cons, List.append_assoc]
termination_by s.length

/-! ## A whole document -/

@[simp]
theorem trailingCommaSub_nil : trailingCommaSub [] = [] :=
  stripTrailingCommas_nil

theorem trailingCommaSub_cons {c : Char} (notComma : c ≠ ',') (rest : List Char) :
    trailingCommaSub (c :: rest) = c :: trailingCommaSub rest :=
  stripTrailingCommas_cons notComma rest

theorem trailingCommaSub_append_of_comma_free {a : List Char} (free : ',' ∉ a) (b : List Char) :
    trailingCommaSub (a ++ b) = a ++ trailingCommaSub b :=
  stripTrailingCommas_append_of_comma_free free b

theorem comma_not_mem_newlineIndent (level : Nat) : ',' ∉ newlineIndent level := by
  simp [newlineIndent, List.mem_replicate]

theorem comma_not_mem_toString_int (n : Int) : ',' ∉ (toString n).toList := by
  rw [toList_toString_int]
  intro mem
  rcases List.mem_append.mp mem with sign | digits
  · split_ifs at sign <;> simp at sign
  · simpa using Text.isDigit_of_mem_toDigits _ _ digits

theorem comma_not_mem_floatLiteral {literal : String} (float : FloatLiteral literal) :
    ',' ∉ literal.toList := by
  have noDigit : ∀ l : List Char, (∀ c ∈ l, c.isDigit = true) → ',' ∉ l :=
    fun l digits mem => by simpa using digits _ mem
  rcases float with rfl | rfl | rfl | ⟨sign, intPart, fraction, exponent, eq, signs, int, frac,
    exp, -⟩
  · decide
  · decide
  · decide
  rw [eq]
  simp only [List.mem_append, not_or]
  refine ⟨⟨⟨?_, noDigit _ int.isDigit⟩, ?_⟩, ?_⟩
  · rcases signs with rfl | rfl <;> decide
  · rcases frac with rfl | ⟨digits, rfl, -, all⟩
    · simp
    · simpa using noDigit _ all
  · rcases exp with rfl | ⟨e, sign, digits, rfl, marker, signs, -, all⟩
    · simp
    · simp only [List.mem_cons, List.mem_append, not_or]
      refine ⟨⟨by rcases marker with rfl | rfl <;> decide, ?_⟩, noDigit _ all⟩
      rcases signs with rfl | rfl | rfl <;> decide

/-- A separator comma is followed by a newline, indentation and the start of a value or key,
never by a closing bracket. -/
theorem trailingCommaSub_separator (level : Nat) {x : Char} (notSpace : isJsonWhitespace x = false)
    (notClosing : x ≠ ']' ∧ x ≠ '}') (rest : List Char) :
    trailingCommaSub (',' :: (newlineIndent level ++ x :: rest)) =
      ',' :: trailingCommaSub (newlineIndent level ++ x :: rest) := by
  have skipped : skipWhitespace (newlineIndent level ++ x :: rest) = x :: rest := by
    rw [skipWhitespace_newlineIndent, skipWhitespace_cons notSpace]
  exact stripTrailingCommas_comma_of_open (by
    simp only [skipWhitespace] at skipped
    simp [skipped, notClosing])

theorem trailingCommaSub_colon (rest : List Char) :
    trailingCommaSub (':' :: ' ' :: rest) = ':' :: ' ' :: trailingCommaSub rest := by
  rw [trailingCommaSub_cons (by decide), trailingCommaSub_cons (by decide)]

theorem trailingCommaSub_encodeString (s : String) (rest : List Char) :
    trailingCommaSub (encodeString s ++ rest) =
      encodeString (stripInString s) ++ trailingCommaSub rest := by
  have body := trailingCommaSub_escapes s.toList rest
  simp only [encodeString, List.cons_append, List.append_assoc, List.nil_append]
  rw [trailingCommaSub_cons (by decide), body]
  rfl

theorem trailingCommaSub_item (level : Nat) {v : JsonValue} (loadable : v.Loadable)
    (rest : List Char) :
    trailingCommaSub (',' :: (newlineIndent level ++ (encodeValue level v ++ rest))) =
      ',' :: (newlineIndent level ++ trailingCommaSub (encodeValue level v ++ rest)) := by
  obtain ⟨x, tail, eq, start⟩ := encodeValue_head level loadable
  have := start.not_delimiter
  rw [eq, List.cons_append, trailingCommaSub_separator level this.1 ⟨this.2.1, this.2.2.1⟩,
    trailingCommaSub_append_of_comma_free (comma_not_mem_newlineIndent level)]

theorem trailingCommaSub_member (level : Nat) (key : String) (rest : List Char) :
    trailingCommaSub (',' :: (newlineIndent level ++ (encodeString key ++ rest))) =
      ',' :: (newlineIndent level ++ trailingCommaSub (encodeString key ++ rest)) := by
  rw [encodeString, List.cons_append, List.cons_append,
    trailingCommaSub_separator level (by decide) (by decide),
    trailingCommaSub_append_of_comma_free (comma_not_mem_newlineIndent level)]

mutual
/-- On the text of a value the substitution acts inside its strings only. -/
theorem trailingCommaSub_encodeValue : ∀ (v : JsonValue) (level : Nat) (rest : List Char),
    v.Loadable → trailingCommaSub (encodeValue level v ++ rest) =
      encodeValue level (v.mapStrings stripInString) ++ trailingCommaSub rest
  | .null, _, rest, _ =>
    trailingCommaSub_append_of_comma_free (show ',' ∉ "null".toList by decide) rest
  | .bool true, _, rest, _ =>
    trailingCommaSub_append_of_comma_free (show ',' ∉ "true".toList by decide) rest
  | .bool false, _, rest, _ =>
    trailingCommaSub_append_of_comma_free (show ',' ∉ "false".toList by decide) rest
  | .int n, _, rest, _ => trailingCommaSub_append_of_comma_free (comma_not_mem_toString_int n) rest
  | .float _, _, rest, loadable =>
    trailingCommaSub_append_of_comma_free (comma_not_mem_floatLiteral loadable) rest
  | .str s, _, rest, _ => trailingCommaSub_encodeString s rest
  | .arr [], _, rest, _ => trailingCommaSub_append_of_comma_free (show ',' ∉ ['[', ']'] by decide) rest
  | .arr (v :: items), level, rest, loadable => by
    rw [loadable_arr] at loadable
    have first := trailingCommaSub_encodeValue v (level + 1)
      (encodeItems (level + 1) items ++ (newlineIndent level ++ ']' :: rest)) (loadable v (by simp))
    have others := trailingCommaSub_encodeItems items (level + 1)
      (newlineIndent level ++ ']' :: rest) (fun w mem => loadable w (List.mem_cons_of_mem _ mem))
    have close : trailingCommaSub (newlineIndent level ++ ']' :: rest) =
        newlineIndent level ++ ']' :: trailingCommaSub rest := by
      rw [trailingCommaSub_append_of_comma_free (comma_not_mem_newlineIndent level),
        trailingCommaSub_cons (by decide)]
    simp only [encodeValue, JsonValue.mapStrings, mapStringsItems, List.cons_append,
      List.append_assoc, List.nil_append]
    rw [trailingCommaSub_cons (by decide),
      trailingCommaSub_append_of_comma_free (comma_not_mem_newlineIndent (level + 1)), first, others,
      close]
  | .obj [], _, rest, _ => trailingCommaSub_append_of_comma_free (show ',' ∉ ['{', '}'] by decide) rest
  | .obj ((key, v) :: members), level, rest, loadable => by
    rw [loadable_obj] at loadable
    have first := trailingCommaSub_encodeValue v (level + 1)
      (encodeMembers (level + 1) members ++ (newlineIndent level ++ '}' :: rest))
      (loadable (key, v) (by simp))
    have others := trailingCommaSub_encodeMembers members (level + 1)
      (newlineIndent level ++ '}' :: rest) (fun m mem => loadable m (List.mem_cons_of_mem _ mem))
    have close : trailingCommaSub (newlineIndent level ++ '}' :: rest) =
        newlineIndent level ++ '}' :: trailingCommaSub rest := by
      rw [trailingCommaSub_append_of_comma_free (comma_not_mem_newlineIndent level),
        trailingCommaSub_cons (by decide)]
    simp only [encodeValue, JsonValue.mapStrings, mapStringsMembers, List.cons_append,
      List.append_assoc, List.nil_append]
    rw [trailingCommaSub_cons (by decide),
      trailingCommaSub_append_of_comma_free (comma_not_mem_newlineIndent (level + 1)),
      trailingCommaSub_encodeString, trailingCommaSub_colon, first, others, close]

theorem trailingCommaSub_encodeItems : ∀ (items : List JsonValue) (level : Nat)
    (rest : List Char), (∀ v ∈ items, v.Loadable) →
    trailingCommaSub (encodeItems level items ++ rest) =
      encodeItems level (mapStringsItems stripInString items) ++ trailingCommaSub rest
  | [], _, _, _ => rfl
  | v :: items, level, rest, loadable => by
    have first := trailingCommaSub_encodeValue v level (encodeItems level items ++ rest)
      (loadable v (by simp))
    have others := trailingCommaSub_encodeItems items level rest
      (fun w mem => loadable w (List.mem_cons_of_mem _ mem))
    simp only [encodeItems, mapStringsItems, List.cons_append, List.append_assoc]
    rw [trailingCommaSub_item level (loadable v (by simp)), first, others]

theorem trailingCommaSub_encodeMembers : ∀ (members : List (String × JsonValue)) (level : Nat)
    (rest : List Char), (∀ m ∈ members, m.2.Loadable) →
    trailingCommaSub (encodeMembers level members ++ rest) =
      encodeMembers level (mapStringsMembers stripInString members) ++ trailingCommaSub rest
  | [], _, _, _ => rfl
  | (key, v) :: members, level, rest, loadable => by
    have first := trailingCommaSub_encodeValue v level (encodeMembers level members ++ rest)
      (loadable (key, v) (by simp))
    have others := trailingCommaSub_encodeMembers members level rest
      (fun m mem => loadable m (List.mem_cons_of_mem _ mem))
    simp only [encodeMembers, mapStringsMembers, List.cons_append, List.append_assoc,
      List.nil_append]
    rw [trailingCommaSub_member, trailingCommaSub_encodeString, trailingCommaSub_colon, first,
      others]
end

/-! ## Reading back what `_save_config` wrote -/

mutual
theorem loadable_mapStrings (f : String → String) :
    ∀ (v : JsonValue), v.Loadable → (v.mapStrings f).Loadable
  | .null, _ => trivial
  | .bool _, _ => trivial
  | .int _, _ => trivial
  | .float _, loadable => loadable
  | .str _, _ => trivial
  | .arr items, loadable => by
    rw [loadable_arr] at loadable
    rw [JsonValue.mapStrings, loadable_arr]
    exact loadable_mapStringsItems f items loadable
  | .obj members, loadable => by
    rw [loadable_obj] at loadable
    rw [JsonValue.mapStrings, loadable_obj]
    exact loadable_mapStringsMembers f members loadable

theorem loadable_mapStringsItems (f : String → String) : ∀ (items : List JsonValue),
    (∀ v ∈ items, v.Loadable) → ∀ v ∈ mapStringsItems f items, v.Loadable
  | [], _ => by simp [mapStringsItems]
  | v :: items, loadable => by
    simp only [mapStringsItems, List.mem_cons, forall_eq_or_imp]
    exact ⟨loadable_mapStrings f v (loadable v (by simp)),
      loadable_mapStringsItems f items fun w mem => loadable w (List.mem_cons_of_mem _ mem)⟩

theorem loadable_mapStringsMembers (f : String → String) :
    ∀ (members : List (String × JsonValue)),
    (∀ m ∈ members, m.2.Loadable) → ∀ m ∈ mapStringsMembers f members, m.2.Loadable
  | [], _ => by simp [mapStringsMembers]
  | (key, v) :: members, loadable => by
    simp only [mapStringsMembers, List.mem_cons, forall_eq_or_imp]
    exact ⟨loadable_mapStrings f v (loadable (key, v) (by simp)),
      loadable_mapStringsMembers f members fun m mem => loadable m (List.mem_cons_of_mem _ mem)⟩
end

/-- `_load_json` on what `json.dumps(v, indent=2)` wrote: every string and key of `v` with
the substitution applied, every object rebuilt as a `dict`. -/
theorem loadJson_dumps {v : JsonValue} (loadable : v.Loadable) :
    loadJson (dumps v) = .ok (v.mapStrings stripInString).normalize := by
  have sub := trailingCommaSub_encodeValue v 0 [] loadable
  rw [List.append_nil, trailingCommaSub_nil, List.append_nil] at sub
  rw [loadJson, show (dumps v).toList = encodeValue 0 v from rfl, sub]
  exact loads_dumps (loadable_mapStrings stripInString v loadable)

theorem stripInString_of_comma_free {s : String} (free : ',' ∉ s.toList) : stripInString s = s := by
  have keep : stripTrailingCommas (· == ' ') (s.toList ++ []) = s.toList ++ stripTrailingCommas (· == ' ') [] :=
    stripTrailingCommas_append_of_comma_free free []
  rw [List.append_nil, stripTrailingCommas_nil, List.append_nil] at keep
  rw [stripInString, keep]
  rfl

/-- The substitution changes a text only by leaving a closing bracket where a comma stood. -/
theorem closing_mem_of_stripTrailingCommas_ne {isSpace : Char → Bool} {l : List Char}
    (changed : stripTrailingCommas isSpace l ≠ l) :
    ']' ∈ stripTrailingCommas isSpace l ∨ '}' ∈ stripTrailingCommas isSpace l := by
  induction l using stripTrailingCommas.induct isSpace with
  | case1 => simp at changed
  | case2 c rest after closing _ =>
    rw [stripTrailingCommas, if_pos closing]
    cases dropped : rest.dropWhile isSpace with
    | nil => simp [after, dropped] at closing
    | cons b tail =>
      simp only [after, dropped, List.head?_cons, Option.some.injEq] at closing
      rcases closing.2 with rfl | rfl <;> simp
  | case3 c rest after open_ ih =>
    rw [stripTrailingCommas, if_neg open_] at changed ⊢
    have restChanged : stripTrailingCommas isSpace rest ≠ rest := fun same => changed (by rw [same])
    exact (ih restChanged).imp (List.mem_cons_of_mem c) (List.mem_cons_of_mem c)

/-- Keys without commas and brackets are the only keys the substitution turns into them. -/
theorem stripInString_eq_iff {s key : String}
    (plain : ',' ∉ key.toList ∧ ']' ∉ key.toList ∧ '}' ∉ key.toList) :
    stripInString s = key ↔ s = key := by
  refine ⟨fun stripped => ?_, by rintro rfl; exact stripInString_of_comma_free plain.1⟩
  have kept : stripTrailingCommas (· == ' ') s.toList = s.toList := by
    by_contra changed
    have text : stripTrailingCommas (· == ' ') s.toList = key.toList := by
      rw [← stripped]; rfl
    rcases closing_mem_of_stripTrailingCommas_ne changed with mem | mem <;> rw [text] at mem
    exacts [plain.2.1 mem, plain.2.2 mem]
  rw [← stripped, stripInString, kept]
  rfl

end CrosPlatform.Camera
