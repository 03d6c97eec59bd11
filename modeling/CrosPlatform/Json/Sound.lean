import CrosPlatform.Json.RoundTrip

/-!
# What `json.loads` returns

Every value `loads` gives is one Python's `json.loads` can give: each object is a `dict`, with
no key twice, and each float is the text of a float (`loads_wellFormed`). Each step of the
scanner reads some of the text, so the fuel `loads` gives it is never used up
(`loads_ne_fuelExhausted`): the bound changes no result.
-/

namespace CrosPlatform.Json

/-- A value `json.loads` can return: its objects are dicts and its floats are float texts. -/
def JsonValue.WellFormed (v : JsonValue) : Prop :=
  v.Loadable ∧ v.KeysDistinct

section WellFormed

variable {items : List JsonValue} {members : List (String × JsonValue)}

@[simp]
theorem wellFormed_arr : (JsonValue.arr items).WellFormed ↔ ∀ v ∈ items, v.WellFormed := by
  simp only [JsonValue.WellFormed, loadable_arr, keysDistinct_arr, imp_and, forall_and]

@[simp]
theorem wellFormed_obj :
    (JsonValue.obj members).WellFormed ↔
      (members.map (·.1)).Nodup ∧ ∀ m ∈ members, m.2.WellFormed := by
  simp only [JsonValue.WellFormed, loadable_obj, keysDistinct_obj, imp_and, forall_and]
  tauto

@[simp]
theorem wellFormed_int (n : Int) : (JsonValue.int n).WellFormed := by
  simp [JsonValue.WellFormed, JsonValue.Loadable, JsonValue.KeysDistinct, JsonValue.Everywhere]

@[simp]
theorem wellFormed_str (s : String) : (JsonValue.str s).WellFormed := by
  simp [JsonValue.WellFormed, JsonValue.Loadable, JsonValue.KeysDistinct, JsonValue.Everywhere]

@[simp]
theorem wellFormed_float {literal : String} :
    (JsonValue.float literal).WellFormed ↔ FloatLiteral literal := by
  simp [JsonValue.WellFormed, JsonValue.Loadable, JsonValue.KeysDistinct, JsonValue.Everywhere]

theorem wellFormed_dictSet {key : String} {value : JsonValue}
    (dict : (JsonValue.obj members).WellFormed) (valid : value.WellFormed) :
    (JsonValue.obj (dictSet members key value)).WellFormed := by
  rw [wellFormed_obj] at dict ⊢
  refine ⟨nodup_keys_dictSet dict.1, fun m mem => ?_⟩
  rcases mem_dictSet mem with old | rfl
  · exact dict.2 m old
  · exact valid

end WellFormed

theorem length_skipWhitespace_le (cs : List Char) : (skipWhitespace cs).length ≤ cs.length :=
  (List.dropWhile_suffix _).length_le

/-! ## Scalars -/

theorem matchIntPart_eq_some {cs intPart rest : List Char}
    (matched : matchIntPart cs = some (intPart, rest)) : IntPart intPart ∧ cs = intPart ++ rest := by
  match cs, matched with
  | c :: tail, matched =>
    simp only [matchIntPart] at matched
    split_ifs at matched with zero digit
    · cases matched
      exact ⟨.inl rfl, by simp [zero]⟩
    · cases matched
      refine ⟨.inr ⟨by simpa using zero, by simp, ?_⟩, by simp [List.takeWhile_append_dropWhile]⟩
      intro d mem
      rcases List.mem_cons.mp mem with rfl | later
      · exact digit
      · exact List.mem_takeWhile_imp later

theorem matchFraction_spec (cs : List Char) :
    FractionPart (matchFraction cs).1 ∧ cs = (matchFraction cs).1 ++ (matchFraction cs).2 := by
  match cs with
  | [] | [_] => exact ⟨.inl rfl, rfl⟩
  | c :: d :: tail =>
    simp only [matchFraction]
    split_ifs with dot
    · refine ⟨.inr ⟨_, rfl, by simp, fun x mem => ?_⟩, by simp [dot.1, List.takeWhile_append_dropWhile]⟩
      rcases List.mem_cons.mp mem with rfl | later
      · exact dot.2
      · exact List.mem_takeWhile_imp later
    · exact ⟨.inl rfl, rfl⟩

/-- The part of `matchExponent` after the sign: the exponent when digits follow, else nothing. -/
theorem exponentPart_of_digits {e : Char} (isE : e = 'e' ∨ e = 'E') {sign : List Char}
    (signed : sign = [] ∨ sign = ['-'] ∨ sign = ['+']) (digitsAndRest : List Char) :
    ExponentPart (match digitsAndRest.takeWhile Char.isDigit with
      | [] => ([], e :: (sign ++ digitsAndRest))
      | digits => (e :: sign ++ digits, digitsAndRest.dropWhile Char.isDigit)).1 ∧
    e :: (sign ++ digitsAndRest) = (match digitsAndRest.takeWhile Char.isDigit with
      | [] => ([], e :: (sign ++ digitsAndRest))
      | digits => (e :: sign ++ digits, digitsAndRest.dropWhile Char.isDigit)).1 ++
      (match digitsAndRest.takeWhile Char.isDigit with
      | [] => ([], e :: (sign ++ digitsAndRest))
      | digits => (e :: sign ++ digits, digitsAndRest.dropWhile Char.isDigit)).2 := by
  split
  · exact ⟨.inl rfl, rfl⟩
  · rename_i _ nonempty
    refine ⟨.inr ⟨e, sign, _, rfl, isE, signed, nonempty, fun c => List.mem_takeWhile_imp⟩, ?_⟩
    simp [List.takeWhile_append_dropWhile]

theorem matchExponent_spec (cs : List Char) :
    ExponentPart (matchExponent cs).1 ∧ cs = (matchExponent cs).1 ++ (matchExponent cs).2 := by
  match cs with
  | [] => exact ⟨.inl rfl, rfl⟩
  | e :: rest =>
    by_cases isE : e = 'e' ∨ e = 'E'
    · match rest with
      | [] =>
        simp only [matchExponent, isE, if_true, List.takeWhile_nil]
        exact ⟨.inl rfl, rfl⟩
      | s :: tail =>
        by_cases signed : s = '-' ∨ s = '+'
        · simp only [matchExponent, isE, signed, if_true]
          exact exponentPart_of_digits isE
            (show [s] = [] ∨ [s] = ['-'] ∨ [s] = ['+'] by rcases signed with rfl | rfl <;> simp) tail
        · simp only [matchExponent, isE, signed, if_true, if_false]
          exact exponentPart_of_digits isE (.inl rfl) (s :: tail)
    · simp only [matchExponent, isE, if_false]
      exact ⟨.inl rfl, rfl⟩

theorem matchNumber_wellFormed {cs rest : List Char} {v : JsonValue}
    (matched : matchNumber cs = some (v, rest)) : v.WellFormed ∧ rest.length < cs.length := by
  unfold matchNumber at matched
  obtain ⟨⟨intPart, afterInt⟩, intMatched, built⟩ := Option.map_eq_some'.mp matched
  obtain ⟨int, intEq⟩ := matchIntPart_eq_some intMatched
  obtain ⟨fraction, fractionEq⟩ := matchFraction_spec afterInt
  obtain ⟨exponent, exponentEq⟩ := matchExponent_spec (matchFraction afterInt).2
  have inputLe : (if (cs.head? == some '-') = true then cs.drop 1 else cs).length ≤ cs.length := by
    split <;> simp
  have lengths := congrArg List.length intEq
  have lengths' := congrArg List.length fractionEq
  have lengths'' := congrArg List.length exponentEq
  have intLength := List.length_pos.mpr int.ne_nil
  simp only [List.length_append] at lengths lengths' lengths''
  dsimp only at built
  by_cases plain : (matchFraction afterInt).1 = [] ∧ (matchExponent (matchFraction afterInt).2).1 = []
  · rw [if_pos plain] at built
    cases built
    exact ⟨wellFormed_int _, by omega⟩
  · rw [if_neg plain] at built
    cases built
    refine ⟨wellFormed_float.mpr (.inr (.inr (.inr ⟨_, _, _, _, rfl, ?_, int, fraction, exponent,
      not_and_or.mp plain⟩))), by omega⟩
    split <;> simp

@[simp]
theorem wellFormed_null : JsonValue.null.WellFormed := by
  simp [JsonValue.WellFormed, JsonValue.Loadable, JsonValue.KeysDistinct, JsonValue.Everywhere]

@[simp]
theorem wellFormed_bool (b : Bool) : (JsonValue.bool b).WellFormed := by
  simp [JsonValue.WellFormed, JsonValue.Loadable, JsonValue.KeysDistinct, JsonValue.Everywhere]

theorem constants_wellFormed : ∀ c ∈ constants, c.2.WellFormed ∧ 0 < c.1.length := by
  intro c mem
  simp only [constants, List.mem_cons, List.not_mem_nil, or_false] at mem
  rcases mem with rfl | rfl | rfl | rfl | rfl | rfl <;> exact ⟨by simp [FloatLiteral], by decide⟩

theorem matchConstant_wellFormed {cs rest : List Char} {v : JsonValue}
    (matched : matchConstant cs = some (v, rest)) : v.WellFormed ∧ rest.length < cs.length := by
  obtain ⟨⟨text, w⟩, mem, found⟩ := List.exists_of_findSome?_eq_some matched
  obtain ⟨valid, nonempty⟩ : JsonValue.WellFormed w ∧ 0 < text.length := constants_wellFormed _ mem
  dsimp only at found
  split_ifs at found with isPrefix
  cases found
  have fits := (List.isPrefixOf_iff_prefix.mp isPrefix).length_le
  refine ⟨valid, ?_⟩
  simp only [List.length_drop]
  have : text.toList.length = text.length := rfl
  omega

theorem scanScalar_wellFormed {cs rest : List Char} {v : JsonValue}
    (scanned : scanScalar cs = .ok (v, rest)) : v.WellFormed ∧ rest.length < cs.length := by
  unfold scanScalar at scanned
  cases constant : matchConstant cs with
  | some r =>
    simp only [constant, Option.some_orElse, Except.ok.injEq] at scanned
    exact matchConstant_wellFormed (scanned ▸ constant)
  | none =>
    cases number : matchNumber cs with
    | some r =>
      simp only [constant, number, Option.none_orElse, Except.ok.injEq] at scanned
      exact matchNumber_wellFormed (scanned ▸ number)
    | none => simp [constant, number] at scanned

/-! ## Strings -/

theorem scanLowSurrogate_length {high : Nat} {cs rest : List Char} {c : Char}
    (scanned : scanLowSurrogate high cs = .ok (c, rest)) : rest.length < cs.length := by
  match cs, scanned with
  | x :: y :: e :: f :: g :: h :: z :: tail, scanned =>
    simp only [scanLowSurrogate] at scanned
    split_ifs at scanned
    split at scanned
    · cases scanned
    · split_ifs at scanned
      rw [← (Prod.mk.inj (Except.ok.inj scanned)).2]
      simp

theorem scanUnicodeEscape_length {cs rest : List Char} {c : Char}
    (scanned : scanUnicodeEscape cs = .ok (c, rest)) : rest.length < cs.length := by
  match cs, scanned with
  | a :: b :: c :: d :: x :: tail, scanned =>
    simp only [scanUnicodeEscape] at scanned
    split at scanned
    · cases scanned
    · split_ifs at scanned
      · have := scanLowSurrogate_length scanned
        simp at this ⊢
        omega
      · rw [← (Prod.mk.inj (Except.ok.inj scanned)).2]
        simp

theorem scanEscape_length {cs rest : List Char} {c : Char}
    (scanned : scanEscape cs = .ok (c, rest)) : rest.length < cs.length := by
  match cs, scanned with
  | e :: tail, scanned =>
    simp only [scanEscape] at scanned
    split_ifs at scanned
    · have := scanUnicodeEscape_length scanned
      simp
      omega
    · split at scanned
      · cases scanned
        simp
      · cases scanned

/-- Each step of the string loop reads at least one character. -/
theorem scanStringStep_length {cs : List Char} {r : List Char ⊕ (Char × List Char)}
    (scanned : scanStringStep cs = .ok r) : (r.elim id Prod.snd).length < cs.length := by
  match cs, scanned with
  | c :: tail, scanned =>
    simp only [scanStringStep] at scanned
    split_ifs at scanned
    · cases scanned
      simp
    · cases escaped : scanEscape tail with
      | error e => simp [escaped, Except.map_error] at scanned
      | ok p =>
        simp only [escaped, Except.map_ok, Except.ok.injEq] at scanned
        subst scanned
        have := scanEscape_length escaped
        simp
        omega
    · cases scanned
      simp

theorem scanChars_length : ∀ {fuel : Nat} {cs s rest : List Char},
    scanChars fuel cs = .ok (s, rest) → rest.length < cs.length
  | fuel + 1, cs, s, rest, scanned => by
    simp only [scanChars] at scanned
    split at scanned
    · cases scanned
    · rename_i tail stepped
      cases scanned
      simpa using scanStringStep_length stepped
    · rename_i c tail stepped
      cases more : scanChars fuel tail with
      | error e => simp [more, Except.map_error] at scanned
      | ok p =>
        simp only [more, Except.map_ok, Except.ok.injEq, Prod.mk.injEq] at scanned
        obtain ⟨-, rfl⟩ := scanned
        have := scanChars_length more
        have := scanStringStep_length stepped
        simp at this
        omega

theorem scanString_length {cs s rest : List Char} (scanned : scanString cs = .ok (s, rest)) :
    rest.length < cs.length :=
  scanChars_length scanned

/-! ## Values -/

section Reads

/-- What `scanOnce` gives with `fuel`: a well-formed value, and less of the text. -/
def ReadsValues (fuel : Nat) : Prop :=
  ∀ {cs rest : List Char} {v : JsonValue},
    scanOnce fuel cs = .ok (v, rest) → v.WellFormed ∧ rest.length < cs.length

/-- What `parseArray` gives with `fuel`, after well-formed items. -/
def ReadsItems (fuel : Nat) : Prop :=
  ∀ {cs rest : List Char} {items : List JsonValue} {v : JsonValue}, (∀ w ∈ items, w.WellFormed) →
    parseArray fuel cs items = .ok (v, rest) → v.WellFormed ∧ rest.length < cs.length

/-- What `parseObject` gives with `fuel`, after the members of a well-formed dict. -/
def ReadsMembers (fuel : Nat) : Prop :=
  ∀ {cs rest : List Char} {members : List (String × JsonValue)} {v : JsonValue},
    (JsonValue.obj members).WellFormed →
    parseObject fuel cs members = .ok (v, rest) → v.WellFormed ∧ rest.length < cs.length

variable {fuel : Nat}

theorem readsItems_succ (values : ReadsValues fuel) (items : ReadsItems fuel) :
    ReadsItems (fuel + 1) := by
  intro cs rest acc v valid parsed
  simp only [parseArray] at parsed
  split at parsed
  · cases parsed
  · rename_i w after scanned
    obtain ⟨wValid, shorter⟩ := values scanned
    have skipped := length_skipWhitespace_le after
    have allValid : ∀ x ∈ acc ++ [w], x.WellFormed := fun x mem =>
      (List.mem_append.mp mem).elim (valid x) fun single => List.mem_singleton.mp single ▸ wValid
    split_ifs at parsed
    · cases parsed
      exact ⟨wellFormed_arr.mpr allValid, by simp; omega⟩
    · obtain ⟨vValid, shorter'⟩ := items allValid parsed
      have := length_skipWhitespace_le ((skipWhitespace after).drop 1)
      simp only [List.length_drop] at this
      exact ⟨vValid, by omega⟩

theorem readsMembers_succ (values : ReadsValues fuel) (members : ReadsMembers fuel) :
    ReadsMembers (fuel + 1) := by
  intro cs rest acc v valid parsed
  simp only [parseObject] at parsed
  split_ifs at parsed with quote
  split at parsed
  · cases parsed
  · rename_i key after keyScanned
    have keyShorter := scanString_length keyScanned
    have skipped := length_skipWhitespace_le after
    split_ifs at parsed with colon
    split at parsed
    · cases parsed
    · rename_i w after' scanned
      obtain ⟨wValid, shorter⟩ := values scanned
      have skipped' := length_skipWhitespace_le ((skipWhitespace after).drop 1)
      have skipped'' := length_skipWhitespace_le after'
      have dict : (JsonValue.obj (dictSet acc (String.mk key) w)).WellFormed :=
        wellFormed_dictSet valid wValid
      simp only [List.length_drop] at keyShorter skipped'
      split_ifs at parsed
      · cases parsed
        exact ⟨dict, by simp; omega⟩
      · obtain ⟨vValid, shorter'⟩ := members dict parsed
        have := length_skipWhitespace_le ((skipWhitespace after').drop 1)
        simp only [List.length_drop] at this
        exact ⟨vValid, by omega⟩

theorem readsValues_succ (items : ReadsItems fuel) (members : ReadsMembers fuel) :
    ReadsValues (fuel + 1) := by
  intro cs rest v scanned
  match cs, scanned with
  | c :: tail, scanned =>
    simp only [scanOnce] at scanned
    have skipped := length_skipWhitespace_le tail
    split_ifs at scanned with quote brace bracket
    · cases str : scanString tail with
      | error e => simp [str, Except.map_error] at scanned
      | ok p =>
        simp only [str, Except.map_ok, Except.ok.injEq, Prod.mk.injEq] at scanned
        obtain ⟨rfl, rfl⟩ := scanned
        have := scanString_length str
        exact ⟨wellFormed_str _, by simp; omega⟩
    · cases scanned
      exact ⟨by simp, by simp; omega⟩
    · obtain ⟨valid, shorter⟩ := members (by simp) scanned
      exact ⟨valid, by simp; omega⟩
    · cases scanned
      exact ⟨by simp, by simp; omega⟩
    · obtain ⟨valid, shorter⟩ := items (by simp) scanned
      exact ⟨valid, by simp; omega⟩
    · exact scanScalar_wellFormed scanned

end Reads

theorem reads : ∀ fuel, ReadsValues fuel ∧ ReadsItems fuel ∧ ReadsMembers fuel
  | 0 => ⟨fun scanned => by simp [scanOnce] at scanned, fun _ parsed => by simp [parseArray] at parsed,
      fun _ parsed => by simp [parseObject] at parsed⟩
  | fuel + 1 =>
    let ⟨values, items, members⟩ := reads fuel
    ⟨readsValues_succ items members, readsItems_succ values items, readsMembers_succ values members⟩

/-- Whatever the text, a value `loads` returns is one `json.loads` can return. -/
theorem loads_wellFormed {s : String} {v : JsonValue} (loaded : loads s = .ok v) : v.WellFormed := by
  unfold loads at loaded
  split_ifs at loaded
  split at loaded
  · cases loaded
  · rename_i w rest scanned
    split_ifs at loaded
    cases loaded
    exact ((reads _).1 scanned).1

/-- Every value `json.loads` returns comes back unchanged through `json.dumps(v, indent=2)` and
`json.loads`, a float as the literal text it was read from: Python instead keeps a `float64` and
writes its `repr`, so this says nothing about float values. A text with an unpaired surrogate
escape is not among those `loads` accepts here. -/
theorem loads_dumps_of_loads {s : String} {v : JsonValue} (loaded : loads s = .ok v) :
    loads (dumps v) = .ok v := by
  obtain ⟨loadable, distinct⟩ := loads_wellFormed loaded
  rw [loads_dumps loadable, normalize_of_keysDistinct distinct]

theorem loads_dumps_of_loads_object :
    loads (dumps (.obj [("a", .arr [.int 1, .float "2.5e3"]), ("b", .null)])) =
      .ok (.obj [("a", .arr [.int 1, .float "2.5e3"]), ("b", .null)]) :=
  @loads_dumps_of_loads "\x7b\"a\": [1, 2.5e3], \"b\": null\x7d" _ rfl

theorem error_of_map {α β : Type} {f : α → β} {x : Except PyError α} {e : PyError}
    (mapped : f <$> x = .error e) : x = .error e := by
  cases x
  · simpa [Except.map_error] using mapped
  · simp [Except.map_ok] at mapped

/-! ## Fuel -/

theorem scanLowSurrogate_ne_fuelExhausted (high : Nat) (cs : List Char) :
    scanLowSurrogate high cs ≠ .error .fuelExhausted := by
  intro failed
  simp only [scanLowSurrogate] at failed
  repeat' split at failed
  all_goals cases failed

theorem scanUnicodeEscape_ne_fuelExhausted (cs : List Char) :
    scanUnicodeEscape cs ≠ .error .fuelExhausted := by
  intro failed
  simp only [scanUnicodeEscape] at failed
  repeat' split at failed
  all_goals first
    | exact scanLowSurrogate_ne_fuelExhausted _ _ failed
    | cases failed

theorem scanEscape_ne_fuelExhausted (cs : List Char) : scanEscape cs ≠ .error .fuelExhausted := by
  intro failed
  simp only [scanEscape] at failed
  repeat' split at failed
  all_goals first
    | exact scanUnicodeEscape_ne_fuelExhausted _ failed
    | cases failed

theorem scanStringStep_ne_fuelExhausted (cs : List Char) :
    scanStringStep cs ≠ .error .fuelExhausted := by
  intro failed
  simp only [scanStringStep] at failed
  repeat' split at failed
  all_goals first
    | exact scanEscape_ne_fuelExhausted _ (error_of_map failed)
    | cases failed

theorem scanChars_ne_fuelExhausted : ∀ {fuel : Nat} {cs : List Char}, cs.length < fuel →
    scanChars fuel cs ≠ .error .fuelExhausted
  | fuel + 1, cs, enough, failed => by
    simp only [scanChars] at failed
    split at failed
    · rename_i stepped
      cases failed
      exact scanStringStep_ne_fuelExhausted cs stepped
    · cases failed
    · rename_i tail stepped
      have := scanStringStep_length stepped
      simp only [Sum.elim_inr] at this
      exact scanChars_ne_fuelExhausted (by omega) (error_of_map failed)

theorem scanString_ne_fuelExhausted (cs : List Char) : scanString cs ≠ .error .fuelExhausted :=
  scanChars_ne_fuelExhausted (by omega)

theorem scanScalar_ne_fuelExhausted (cs : List Char) : scanScalar cs ≠ .error .fuelExhausted := by
  intro failed
  simp only [scanScalar] at failed
  split at failed <;> cases failed

section Fuel

/-- `scanOnce` does not run out of `fuel` on a text of less than half its length. -/
def FuelSufficesValues (fuel : Nat) : Prop :=
  ∀ {cs : List Char}, 2 * cs.length < fuel → scanOnce fuel cs ≠ .error .fuelExhausted

/-- `parseArray` needs one more step than `scanOnce`, for the item it starts with. -/
def FuelSufficesItems (fuel : Nat) : Prop :=
  ∀ {cs : List Char} {items : List JsonValue}, 2 * cs.length + 1 < fuel →
    parseArray fuel cs items ≠ .error .fuelExhausted

def FuelSufficesMembers (fuel : Nat) : Prop :=
  ∀ {cs : List Char} {members : List (String × JsonValue)}, 2 * cs.length < fuel →
    parseObject fuel cs members ≠ .error .fuelExhausted

variable {fuel : Nat}

theorem fuelSufficesItems_succ (values : FuelSufficesValues fuel) (items : FuelSufficesItems fuel) :
    FuelSufficesItems (fuel + 1) := by
  intro cs acc enough failed
  simp only [parseArray] at failed
  split at failed
  · rename_i scanned
    cases failed
    exact values (by omega) scanned
  · rename_i w after scanned
    have shorter := ((reads fuel).1 scanned).2
    have := length_skipWhitespace_le after
    have := length_skipWhitespace_le ((skipWhitespace after).drop 1)
    simp only [List.length_drop] at this
    split_ifs at failed
    all_goals first
      | cases failed
      | exact items (by omega) failed

theorem fuelSufficesMembers_succ (values : FuelSufficesValues fuel)
    (members : FuelSufficesMembers fuel) : FuelSufficesMembers (fuel + 1) := by
  intro cs acc enough failed
  simp only [parseObject] at failed
  split_ifs at failed with quote
  · cases failed
  split at failed
  · rename_i keyScanned
    cases failed
    exact scanString_ne_fuelExhausted _ keyScanned
  · rename_i key after keyScanned
    have keyShorter := scanString_length keyScanned
    have := length_skipWhitespace_le after
    have := length_skipWhitespace_le ((skipWhitespace after).drop 1)
    simp only [List.length_drop] at this keyShorter
    split_ifs at failed with colon
    · cases failed
    split at failed
    · rename_i scanned
      cases failed
      exact values (by omega) scanned
    · rename_i w after' scanned
      have shorter := ((reads fuel).1 scanned).2
      have := length_skipWhitespace_le after'
      have := length_skipWhitespace_le ((skipWhitespace after').drop 1)
      simp only [List.length_drop] at this
      split_ifs at failed
      all_goals first
        | cases failed
        | exact members (by omega) failed

theorem fuelSufficesValues_succ (items : FuelSufficesItems fuel)
    (members : FuelSufficesMembers fuel) : FuelSufficesValues (fuel + 1) := by
  intro cs enough failed
  match cs, failed with
  | [], failed => cases failed
  | c :: tail, failed =>
    simp only [scanOnce] at failed
    have := length_skipWhitespace_le tail
    simp only [List.length_cons] at enough
    split_ifs at failed
    all_goals first
      | cases failed
      | exact scanString_ne_fuelExhausted tail (error_of_map failed)
      | exact members (by omega) failed
      | exact items (by omega) failed
      | exact scanScalar_ne_fuelExhausted _ failed

end Fuel

theorem fuelSuffices :
    ∀ fuel, FuelSufficesValues fuel ∧ FuelSufficesItems fuel ∧ FuelSufficesMembers fuel
  | 0 => ⟨fun enough => by omega, fun enough => by omega, fun enough => by omega⟩
  | fuel + 1 =>
    let ⟨values, items, members⟩ := fuelSuffices fuel
    ⟨fuelSufficesValues_succ items members, fuelSufficesItems_succ values items,
      fuelSufficesMembers_succ values members⟩

/-- `loads` never fails for want of fuel, so what it returns is what the scanner without a
bound returns. -/
theorem loads_ne_fuelExhausted (s : String) : loads s ≠ .error .fuelExhausted := by
  unfold loads
  split_ifs
  · simp
  split
  · rename_i scanned
    intro failed
    cases failed
    have := length_skipWhitespace_le s.toList
    have : s.toList.length = s.length := rfl
    exact (fuelSuffices _).1 (by omega) scanned
  · split_ifs <;> simp

end CrosPlatform.Json
