import CrosPlatform.Json.Encode
import CrosPlatform.Json.Decode

/-!
# Strings and numbers read back

The leaves of the `json` round trip. The scanner reads every character back from the escape
that `py_encode_basestring_ascii` writes for it, and every integer back from its `repr`. A
float is kept as its text, and `FloatLiteral` says which texts the scanner reads as one float.
-/

namespace CrosPlatform.Json

open CrosPlatform.Text

/-! ## Escapes -/

theorem hexValue_hexDigit : ∀ d < 16, hexValue (hexDigit d) = some d := by
  decide

theorem hexQuad_hexDigits {n : Nat} (small : n < 0x10000) :
    hexQuad (hexDigit (n / 4096 % 16)) (hexDigit (n / 256 % 16)) (hexDigit (n / 16 % 16))
      (hexDigit (n % 16)) = some n := by
  simp only [hexQuad, hexValue_hexDigit _ (Nat.mod_lt _ (by norm_num : 0 < 16)),
    Option.some_bind, Option.map_some']
  congr 1
  omega

/-- A `Char` is a Unicode scalar value: no surrogate, nothing above `0x10ffff`. -/
theorem toNat_scalar (c : Char) :
    c.toNat < 0xd800 ∨ (0xdfff < c.toNat ∧ c.toNat < 0x110000) := by
  simpa [UInt32.isValidChar, Nat.isValidChar, Char.toNat] using c.valid

theorem scanStringStep_backslash (rest : List Char) :
    scanStringStep ('\\' :: rest) = Sum.inr <$> scanEscape rest := by
  simp [scanStringStep]

theorem scanUnicodeEscape_hexDigits {n : Nat} (small : n < 0x10000) (x : Char)
    (tail : List Char) :
    scanUnicodeEscape (hexDigit (n / 4096 % 16) :: hexDigit (n / 256 % 16) ::
        hexDigit (n / 16 % 16) :: hexDigit (n % 16) :: x :: tail) =
      if isHighSurrogate n then scanLowSurrogate n (x :: tail)
      else if isLowSurrogate n then .error unpairedSurrogate
      else .ok (Char.ofNat n, x :: tail) := by
  rw [scanUnicodeEscape.eq_1, hexQuad_hexDigits small]

theorem scanLowSurrogate_hexDigits {high n : Nat} (small : n < 0x10000)
    (low : isLowSurrogate n = true) (x : Char) (tail : List Char) :
    scanLowSurrogate high (unicodeEscape n ++ x :: tail) =
      .ok (Char.ofNat (joinSurrogates high n), x :: tail) := by
  simp only [unicodeEscape, List.cons_append, List.nil_append]
  rw [scanLowSurrogate.eq_1, hexQuad_hexDigits small]
  simp [low]

/-- A `\\uXXXX` escape of a character of the basic plane. -/
theorem scanStringStep_unicodeEscape {c : Char} (small : c.toNat < 0x10000) (x : Char)
    (tail : List Char) :
    scanStringStep (unicodeEscape c.toNat ++ x :: tail) = .ok (.inr (c, x :: tail)) := by
  have scalar := toNat_scalar c
  have notHigh : isHighSurrogate c.toNat = false := by simp [isHighSurrogate]; omega
  have notLow : isLowSurrogate c.toNat = false := by simp [isLowSurrogate]; omega
  simp only [unicodeEscape, List.cons_append, List.nil_append]
  rw [scanStringStep_backslash, scanEscape, if_pos rfl, scanUnicodeEscape_hexDigits small,
    notHigh, notLow]
  simp

/-- The surrogate pair of a character above the basic plane. -/
theorem scanStringStep_surrogatePair {c : Char} (large : 0x10000 ≤ c.toNat) (x : Char)
    (tail : List Char) :
    scanStringStep (unicodeEscape (highSurrogate c.toNat) ++ unicodeEscape (lowSurrogate c.toNat) ++
      x :: tail) = .ok (.inr (c, x :: tail)) := by
  have scalar := toNat_scalar c
  have high : highSurrogate c.toNat < 0x10000 := by simp only [highSurrogate]; omega
  have low : lowSurrogate c.toNat < 0x10000 := by simp only [lowSurrogate]; omega
  have isHigh : isHighSurrogate (highSurrogate c.toNat) = true := by
    simp only [isHighSurrogate, highSurrogate]; simp; omega
  have isLow : isLowSurrogate (lowSurrogate c.toNat) = true := by
    simp only [isLowSurrogate, lowSurrogate]; simp; omega
  have join : joinSurrogates (highSurrogate c.toNat) (lowSurrogate c.toNat) = c.toNat := by
    simp only [joinSurrogates, highSurrogate, lowSurrogate]; omega
  obtain ⟨y, rest, split⟩ : ∃ y rest, unicodeEscape (lowSurrogate c.toNat) ++ x :: tail =
      y :: rest := ⟨_, _, rfl⟩
  rw [List.append_assoc, split]
  simp only [unicodeEscape, List.cons_append, List.nil_append]
  rw [scanStringStep_backslash, scanEscape, if_pos rfl, scanUnicodeEscape_hexDigits high,
    if_pos isHigh, ← split, scanLowSurrogate_hexDigits low isLow, join, Char.ofNat_toNat]
  rfl

/-- The scanner reads back the character of each escape the encoder writes. -/
theorem scanStringStep_escapeChar (c : Char) {tail : List Char} (nonempty : tail ≠ []) :
    scanStringStep (escapeChar c ++ tail) = .ok (.inr (c, tail)) := by
  obtain ⟨x, tail, rfl⟩ := List.exists_cons_of_ne_nil nonempty
  unfold escapeChar
  split
  next => simp [scanStringStep, scanEscape, simpleEscape]
  next => simp [scanStringStep, scanEscape, simpleEscape]
  next => simp [scanStringStep, scanEscape, simpleEscape]
  next => simp [scanStringStep, scanEscape, simpleEscape]
  next => simp [scanStringStep, scanEscape, simpleEscape]
  next => simp [scanStringStep, scanEscape, simpleEscape]
  next => simp [scanStringStep, scanEscape, simpleEscape]
  next backslash quote _ _ _ _ _ =>
    split_ifs with printable basic
    · have notControl : ¬c.toNat ≤ 0x1f := by omega
      rw [List.singleton_append, scanStringStep, if_neg quote, if_neg backslash, if_neg notControl]
    · exact scanStringStep_unicodeEscape basic x tail
    · exact scanStringStep_surrogatePair (by omega) x tail

theorem escapeChar_ne_nil (c : Char) : escapeChar c ≠ [] := by
  unfold escapeChar
  split <;> try simp
  split_ifs <;> simp [unicodeEscape]

theorem length_le_length_flatMap_escapeChar (s : List Char) :
    s.length ≤ (s.flatMap escapeChar).length := by
  induction s with
  | nil => simp
  | cons c s ih =>
    have := List.length_pos.mpr (escapeChar_ne_nil c)
    simp only [List.flatMap_cons, List.length_append, List.length_cons]
    omega

theorem scanChars_escapes (s rest : List Char) {fuel : Nat} (enough : s.length < fuel) :
    scanChars fuel (s.flatMap escapeChar ++ '"' :: rest) = .ok (s, rest) := by
  induction s generalizing fuel with
  | nil =>
    obtain ⟨fuel, rfl⟩ : ∃ f, fuel = f + 1 := ⟨fuel - 1, by omega⟩
    simp [scanChars, scanStringStep]
  | cons c s ih =>
    obtain ⟨fuel, rfl⟩ : ∃ f, fuel = f + 1 := ⟨fuel - 1, by omega⟩
    rw [List.flatMap_cons, List.append_assoc, scanChars, scanStringStep_escapeChar c (by simp)]
    simp only [ih (by simpa using enough)]
    rfl

/-- The scanner reads back the body of every string `py_encode_basestring_ascii` writes. -/
theorem scanString_escapes (s rest : List Char) :
    scanString (s.flatMap escapeChar ++ '"' :: rest) = .ok (s, rest) :=
  scanChars_escapes s rest (by
    have := length_le_length_flatMap_escapeChar s
    simp only [List.length_append, List.length_cons]
    omega)

/-! ## Numbers -/

/-- The integer part of a number: `0`, or digits that do not start with `0`. -/
def IntPart (digits : List Char) : Prop :=
  digits = ['0'] ∨ (digits.head? ≠ some '0' ∧ digits ≠ [] ∧ ∀ c ∈ digits, c.isDigit = true)

/-- The fraction of a number: nothing, or `.` and digits. -/
def FractionPart (fraction : List Char) : Prop :=
  fraction = [] ∨ ∃ digits, fraction = '.' :: digits ∧ digits ≠ [] ∧ ∀ c ∈ digits, c.isDigit = true

/-- The exponent of a number: nothing, or `e` or `E`, an optional sign and digits. -/
def ExponentPart (exponent : List Char) : Prop :=
  exponent = [] ∨ ∃ e sign digits, exponent = e :: sign ++ digits ∧ (e = 'e' ∨ e = 'E') ∧
    (sign = [] ∨ sign = ['-'] ∨ sign = ['+']) ∧ digits ≠ [] ∧ ∀ c ∈ digits, c.isDigit = true

/-- The text of a `float` as the scanner reads it: a named constant, or a number with a fraction
or an exponent. -/
def FloatLiteral (literal : String) : Prop :=
  literal = "NaN" ∨ literal = "Infinity" ∨ literal = "-Infinity" ∨
    ∃ sign intPart fraction exponent,
      literal.toList = sign ++ intPart ++ fraction ++ exponent ∧ (sign = [] ∨ sign = ['-']) ∧
      IntPart intPart ∧ FractionPart fraction ∧ ExponentPart exponent ∧
      (fraction ≠ [] ∨ exponent ≠ [])

/-- What may follow a number: nothing that would continue it. -/
def EndsNumber (rest : List Char) : Prop :=
  ∀ c ∈ rest.head?, c.isDigit = false ∧ c ≠ '.' ∧ c ≠ 'e' ∧ c ≠ 'E'

theorem takeWhile_isDigit_of_head {rest : List Char}
    (stop : ∀ c ∈ rest.head?, c.isDigit = false) : rest.takeWhile Char.isDigit = [] := by
  cases rest with
  | nil => rfl
  | cons c rest => simp [stop c rfl]

theorem dropWhile_isDigit_of_head {rest : List Char}
    (stop : ∀ c ∈ rest.head?, c.isDigit = false) : rest.dropWhile Char.isDigit = rest := by
  cases rest with
  | nil => rfl
  | cons c rest => simp [stop c rfl]

theorem matchIntPart_append {intPart more : List Char} (valid : IntPart intPart)
    (stop : ∀ c ∈ more.head?, c.isDigit = false) :
    matchIntPart (intPart ++ more) = some (intPart, more) := by
  rcases valid with rfl | ⟨notZero, nonempty, digits⟩
  · simp [matchIntPart]
  · obtain ⟨d, ds, rfl⟩ := List.exists_cons_of_ne_nil nonempty
    have tailDigits : ∀ c ∈ ds, c.isDigit = true := fun c mem => digits c (by simp [mem])
    simp only [List.head?_cons, ne_eq, Option.some.injEq] at notZero
    simp [matchIntPart, notZero, digits d (by simp), List.takeWhile_append_of_pos tailDigits,
      List.dropWhile_append_of_pos tailDigits, takeWhile_isDigit_of_head stop,
      dropWhile_isDigit_of_head stop]

theorem matchFraction_append {fraction more : List Char} (valid : FractionPart fraction)
    (stop : ∀ c ∈ more.head?, c.isDigit = false ∧ (fraction = [] → c ≠ '.')) :
    matchFraction (fraction ++ more) = (fraction, more) := by
  rcases valid with rfl | ⟨digits, rfl, nonempty, allDigits⟩
  · match more, stop with
    | [], _ => rfl
    | [_], _ => rfl
    | c :: d :: more, stop => simp [matchFraction, (stop c rfl).2 rfl]
  · obtain ⟨d, ds, rfl⟩ := List.exists_cons_of_ne_nil nonempty
    have tailDigits : ∀ c ∈ ds, c.isDigit = true := fun c mem => allDigits c (by simp [mem])
    have headStop : ∀ c ∈ more.head?, c.isDigit = false := fun c mem => (stop c mem).1
    simp [matchFraction, allDigits d (by simp), List.takeWhile_append_of_pos tailDigits,
      List.dropWhile_append_of_pos tailDigits, takeWhile_isDigit_of_head headStop,
      dropWhile_isDigit_of_head headStop]

theorem matchExponent_append {exponent more : List Char} (valid : ExponentPart exponent)
    (stop : ∀ c ∈ more.head?, c.isDigit = false ∧ (exponent = [] → c ≠ 'e' ∧ c ≠ 'E')) :
    matchExponent (exponent ++ more) = (exponent, more) := by
  have headStop : ∀ c ∈ more.head?, c.isDigit = false := fun c mem => (stop c mem).1
  rcases valid with rfl | ⟨e, sign, digits, rfl, marker, signs, nonempty, allDigits⟩
  · cases more with
    | nil => rfl
    | cons c more => simp [matchExponent, (stop c rfl).2 rfl]
  · obtain ⟨d, ds, rfl⟩ := List.exists_cons_of_ne_nil nonempty
    have run : ((d :: ds) ++ more).takeWhile Char.isDigit = d :: ds := by
      rw [List.takeWhile_append_of_pos allDigits, takeWhile_isDigit_of_head headStop,
        List.append_nil]
    have rest : ((d :: ds) ++ more).dropWhile Char.isDigit = more := by
      rw [List.dropWhile_append_of_pos allDigits, dropWhile_isDigit_of_head headStop]
    have dDigit := allDigits d (by simp)
    have notSign : ¬(d = '-' ∨ d = '+') := by
      rintro (rfl | rfl) <;> simp at dDigit
    rcases signs with rfl | rfl | rfl <;>
      simp only [matchExponent, List.cons_append, List.nil_append, marker, if_true] <;>
      simp_all

theorem IntPart.ne_nil {intPart : List Char} (valid : IntPart intPart) : intPart ≠ [] := by
  rcases valid with rfl | ⟨-, nonempty, -⟩
  · simp
  · exact nonempty

theorem IntPart.isDigit {intPart : List Char} (valid : IntPart intPart) :
    ∀ c ∈ intPart, c.isDigit = true := by
  rcases valid with rfl | ⟨-, -, digits⟩
  · simp
  · exact digits

/-- The first character of each part of a number. -/
theorem head_append_of_head {a b : List Char} {P : Char → Prop} (first : ∀ c ∈ a.head?, P c)
    (next : a = [] → ∀ c ∈ b.head?, P c) : ∀ c ∈ (a ++ b).head?, P c := by
  cases a with
  | nil => exact next rfl
  | cons x a => simpa using first

theorem FractionPart.head {fraction : List Char} (valid : FractionPart fraction) :
    ∀ c ∈ fraction.head?, c = '.' := by
  rcases valid with rfl | ⟨_, rfl, -, -⟩ <;> simp

theorem ExponentPart.head {exponent : List Char} (valid : ExponentPart exponent) :
    ∀ c ∈ exponent.head?, c = 'e' ∨ c = 'E' := by
  rcases valid with rfl | ⟨_, _, _, rfl, marker, -⟩ <;> simp [*]

/-- `_match_number_unicode` reads a number made of a sign, an integer part, a fraction and an
exponent up to what ends it. -/
theorem matchNumber_append {sign intPart fraction exponent rest : List Char}
    (signs : sign = [] ∨ sign = ['-']) (int : IntPart intPart) (frac : FractionPart fraction)
    (exp : ExponentPart exponent) (ends : EndsNumber rest) :
    matchNumber (sign ++ intPart ++ fraction ++ exponent ++ rest) = some (
      if fraction = [] ∧ exponent = [] then
        .int (if sign = [] then (readDigits digitValue intPart : Int)
          else -(readDigits digitValue intPart : Int))
      else .float (String.mk (sign ++ intPart ++ fraction ++ exponent)), rest) := by
  have expStop : ∀ c ∈ rest.head?, c.isDigit = false ∧ (exponent = [] → c ≠ 'e' ∧ c ≠ 'E') :=
    fun c mem => ⟨(ends c mem).1, fun _ => (ends c mem).2.2⟩
  have fracStop : ∀ c ∈ (exponent ++ rest).head?,
      c.isDigit = false ∧ (fraction = [] → c ≠ '.') :=
    head_append_of_head
      (fun c mem => by rcases exp.head c mem with rfl | rfl <;> simp)
      (fun _ c mem => ⟨(ends c mem).1, fun _ => (ends c mem).2.1⟩)
  have intStop : ∀ c ∈ (fraction ++ (exponent ++ rest)).head?, c.isDigit = false :=
    head_append_of_head (fun c mem => by rw [frac.head c mem]; rfl)
      (fun _ c mem => (fracStop c mem).1)
  obtain ⟨d, ds, intEq⟩ := List.exists_cons_of_ne_nil int.ne_nil
  have notMinus : d ≠ '-' := by
    rintro rfl
    simpa using int.isDigit '-' (by simp [intEq])
  have negative : ((sign ++ intPart ++ fraction ++ exponent ++ rest).head? == some '-') =
      decide (sign ≠ []) := by
    rcases signs with rfl | rfl <;> simp [intEq, notMinus]
  have unsigned : (if decide (sign ≠ []) = true then
      (sign ++ intPart ++ fraction ++ exponent ++ rest).drop 1
      else sign ++ intPart ++ fraction ++ exponent ++ rest) =
      intPart ++ (fraction ++ (exponent ++ rest)) := by
    rcases signs with rfl | rfl <;> simp
  simp only [matchNumber, negative, unsigned, matchIntPart_append int intStop, Option.map_some']
  rw [matchFraction_append frac fracStop, matchExponent_append exp expStop]
  rcases signs with rfl | rfl <;> simp only [List.nil_append, ne_eq, not_true_eq_false, decide_False,
    Bool.false_eq_true, if_false, if_true, List.cons_ne_nil, not_false_eq_true, decide_True,
    reduceCtorEq] <;> split_ifs <;> rfl

theorem toList_toString_int (n : Int) :
    (toString n).toList = (if n < 0 then ['-'] else []) ++ Nat.toDigits 10 n.natAbs := by
  cases n with
  | ofNat m => rfl
  | negSucc m =>
    simp only [Int.negSucc_lt_zero, if_true]
    rfl

theorem intPart_toDigits (m : Nat) : IntPart (Nat.toDigits 10 m) := by
  obtain ⟨nonempty, digits, leading⟩ := canonicalDecimal_toDigits m
  by_cases zero : (Nat.toDigits 10 m).head? = some '0'
  · exact .inl (leading zero)
  · exact .inr ⟨zero, nonempty, digits⟩

/-- The scanner reads every `int` back from its `repr`. -/
theorem matchNumber_toString (n : Int) {rest : List Char} (ends : EndsNumber rest) :
    matchNumber ((toString n).toList ++ rest) = some (.int n, rest) := by
  have signs : (if n < 0 then ['-'] else []) = [] ∨ (if n < 0 then ['-'] else []) = ['-'] := by
    split_ifs <;> simp
  have read := matchNumber_append signs (intPart_toDigits n.natAbs) (Or.inl rfl) (Or.inl rfl) ends
  simp only [List.append_nil] at read
  rw [toList_toString_int, read]
  by_cases negative : n < 0
  · simp [negative, Int.ofNat_natAbs_of_nonpos (le_of_lt negative)]
  · simp [negative, Int.natAbs_of_nonneg (not_lt.mp negative)]

/-- No named constant starts with a digit. -/
theorem matchConstant_digit {d : Char} (digit : d.isDigit = true) (rest : List Char) :
    matchConstant (d :: rest) = none := by
  have ne : d ≠ 'n' ∧ d ≠ 't' ∧ d ≠ 'f' ∧ d ≠ 'N' ∧ d ≠ 'I' ∧ d ≠ '-' := by
    refine ⟨?_, ?_, ?_, ?_, ?_, ?_⟩ <;> (rintro rfl; simp at digit)
  simp [matchConstant, constants, List.isPrefixOf, ne.1, ne.2.1, ne.2.2.1, ne.2.2.2.1,
    ne.2.2.2.2.1, ne.2.2.2.2.2, Ne.symm ne.1, Ne.symm ne.2.1, Ne.symm ne.2.2.1,
    Ne.symm ne.2.2.2.1, Ne.symm ne.2.2.2.2.1, Ne.symm ne.2.2.2.2.2]

/-- Nor does `-` followed by a digit. -/
theorem matchConstant_minus_digit {d : Char} (digit : d.isDigit = true) (rest : List Char) :
    matchConstant ('-' :: d :: rest) = none := by
  have ne : d ≠ 'I' := by rintro rfl; simp at digit
  simp [matchConstant, constants, List.isPrefixOf, ne, Ne.symm ne]

end CrosPlatform.Json
