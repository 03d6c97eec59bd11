import Mathlib.Data.Nat.Digits

/-!
# Decimal digit strings

Python prints an `int` with `str` (an f-string field) and reads one back with `int`. Both
directions are modelled on lists of characters: `Nat.toDigits 10` is Lean's own decimal
printer, the one behind `toString`, and `readDigits` reads a digit string most significant
digit first with a given value for each digit character.

The two are inverse on canonical strings of ASCII digits, those without a leading zero.
-/

namespace CrosPlatform.Text

/-- Value of an ASCII decimal digit character, counted from `'0'`. -/
def digitValue (c : Char) : Nat := c.toNat - '0'.toNat

/-- Python's `int` on a run of digit characters: the digits read most significant first,
each worth `value c`. -/
def readDigits (value : Char → Nat) (digits : List Char) : Nat :=
  digits.foldl (fun acc c => 10 * acc + value c) 0

/-- A decimal string as `str` writes a non-negative `int`: ASCII digits, not empty, and no
leading zero unless the number is zero. -/
def CanonicalDecimal (digits : List Char) : Prop :=
  digits ≠ [] ∧ (∀ c ∈ digits, c.isDigit = true) ∧ (digits.head? = some '0' → digits = ['0'])

instance : DecidablePred CanonicalDecimal := fun _ =>
  inferInstanceAs (Decidable (_ ∧ _ ∧ _))

@[simp]
theorem toList_append (s t : String) : (s ++ t).toList = s.toList ++ t.toList :=
  rfl

/-! ## Reading digits -/

theorem foldl_digits_append (value : Char → Nat) (acc : Nat) (digits : List Char) (c : Char) :
    (digits ++ [c]).foldl (fun acc c => 10 * acc + value c) acc =
      10 * digits.foldl (fun acc c => 10 * acc + value c) acc + value c := by
  simp

@[simp]
theorem readDigits_nil (value : Char → Nat) : readDigits value [] = 0 :=
  rfl

theorem readDigits_append_singleton (value : Char → Nat) (digits : List Char) (c : Char) :
    readDigits value (digits ++ [c]) = 10 * readDigits value digits + value c :=
  foldl_digits_append value 0 digits c

theorem le_foldl_digits (value : Char → Nat) (acc : Nat) (digits : List Char) :
    acc ≤ digits.foldl (fun acc c => 10 * acc + value c) acc := by
  induction digits generalizing acc with
  | nil => exact le_rfl
  | cons c rest ih => exact le_trans (by omega) (ih (10 * acc + value c))

/-- A digit string whose first digit is worth something reads as a positive number. -/
theorem readDigits_pos (value : Char → Nat) {c : Char} {rest : List Char}
    (first : 0 < value c) : 0 < readDigits value (c :: rest) :=
  lt_of_lt_of_le (by simpa using first) (le_foldl_digits value (10 * 0 + value c) rest)

/-! ## Lean's decimal printer -/

theorem toDigitsCore_ten (n fuel : Nat) (ds : List Char) (enough : n < fuel) :
    Nat.toDigitsCore 10 fuel n ds = Nat.toDigits 10 n ++ ds := by
  induction n using Nat.strong_induction_on generalizing fuel ds with
  | _ n ih =>
    obtain ⟨fuel, rfl⟩ : ∃ f, fuel = f + 1 := ⟨fuel - 1, by omega⟩
    simp only [Nat.toDigits, Nat.toDigitsCore]
    split
    · rfl
    · have small : n / 10 < n := Nat.div_lt_self (by omega) (by omega)
      rw [ih _ small _ _ (by omega), ih _ small _ _ (by omega)]
      simp

/-- `str(n)`: the last digit is `n % 10`, written after the digits of `n / 10`. -/
theorem toDigits_ten (n : Nat) :
    Nat.toDigits 10 n =
      if n < 10 then [Nat.digitChar n]
      else Nat.toDigits 10 (n / 10) ++ [Nat.digitChar (n % 10)] := by
  rw [Nat.toDigits, Nat.toDigitsCore]
  by_cases small : n < 10
  · simp [small, Nat.div_eq_of_lt small, Nat.mod_eq_of_lt small]
  · have big : n / 10 ≠ 0 := by omega
    simp only [big, small, if_false]
    exact toDigitsCore_ten _ _ _ (Nat.div_lt_self (by omega) (by omega))

theorem digitValue_digitChar : ∀ d < 10, digitValue (Nat.digitChar d) = d := by
  decide

theorem isDigit_digitChar : ∀ d < 10, (Nat.digitChar d).isDigit = true := by
  decide

theorem digitChar_ne_zero : ∀ d < 10, 0 < d → Nat.digitChar d ≠ '0' := by
  decide

theorem digitChar_eq_ofNat : ∀ d < 10, Nat.digitChar d = Char.ofNat (48 + d) := by
  decide

theorem isDigit_iff {c : Char} : c.isDigit = true ↔ 48 ≤ c.toNat ∧ c.toNat ≤ 57 := by
  simp only [Char.isDigit, Bool.and_eq_true, decide_eq_true_eq]
  exact Iff.rfl

theorem digitValue_lt_ten {c : Char} (digit : c.isDigit = true) : digitValue c < 10 := by
  rw [isDigit_iff] at digit
  simp only [digitValue]
  exact (by simp; omega)

theorem digitChar_digitValue {c : Char} (digit : c.isDigit = true) :
    Nat.digitChar (digitValue c) = c := by
  have bounds := isDigit_iff.mp digit
  rw [digitChar_eq_ofNat _ (digitValue_lt_ten digit)]
  conv_rhs => rw [← Char.ofNat_toNat c]
  congr 1
  simp only [digitValue]
  exact (by simp; omega)

@[simp]
theorem readDigits_toDigits (n : Nat) : readDigits digitValue (Nat.toDigits 10 n) = n := by
  induction n using Nat.strong_induction_on with
  | _ n ih =>
    rw [toDigits_ten]
    split_ifs with small
    · simpa [readDigits] using digitValue_digitChar n small
    · rw [readDigits_append_singleton, ih _ (Nat.div_lt_self (by omega) (by omega)),
        digitValue_digitChar _ (Nat.mod_lt _ (by omega))]
      omega

theorem isDigit_of_mem_toDigits (n : Nat) : ∀ c ∈ Nat.toDigits 10 n, c.isDigit = true := by
  induction n using Nat.strong_induction_on with
  | _ n ih =>
    rw [toDigits_ten]
    split_ifs with small
    · simpa using isDigit_digitChar n small
    · intro c mem
      rcases List.mem_append.mp mem with inner | last
      · exact ih _ (Nat.div_lt_self (by omega) (by omega)) c inner
      · rw [List.mem_singleton.mp last]
        exact isDigit_digitChar _ (Nat.mod_lt _ (by omega))

theorem toDigits_ne_nil (n : Nat) : Nat.toDigits 10 n ≠ [] := by
  rw [toDigits_ten]
  split_ifs <;> simp

theorem toDigits_head_ne_zero {n : Nat} (positive : 0 < n) :
    (Nat.toDigits 10 n).head? ≠ some '0' := by
  induction n using Nat.strong_induction_on with
  | _ n ih =>
    rw [toDigits_ten]
    split_ifs with small
    · simpa using digitChar_ne_zero n small positive
    · have head := ih (n / 10) (Nat.div_lt_self (by omega) (by omega)) (by omega)
      cases tail : Nat.toDigits 10 (n / 10) with
      | nil => exact absurd tail (toDigits_ne_nil _)
      | cons d ds => simpa [tail] using head

/-- `str` writes every natural number canonically. -/
theorem canonicalDecimal_toDigits (n : Nat) : CanonicalDecimal (Nat.toDigits 10 n) := by
  refine ⟨toDigits_ne_nil n, isDigit_of_mem_toDigits n, fun head => ?_⟩
  rcases Nat.eq_zero_or_pos n with rfl | positive
  · rfl
  · exact absurd head (toDigits_head_ne_zero positive)

theorem digitValue_pos {c : Char} (digit : c.isDigit = true) (nonzero : c ≠ '0') :
    0 < digitValue c := by
  have bounds := isDigit_iff.mp digit
  refine Nat.pos_of_ne_zero fun zero => nonzero ?_
  rw [← Char.ofNat_toNat c]
  simp only [digitValue] at zero
  exact congrArg Char.ofNat (by simp at zero ⊢; omega)

/-- `str(int(s)) == s` for a canonical decimal string `s`. -/
theorem toDigits_readDigits {digits : List Char} (canonical : CanonicalDecimal digits) :
    Nat.toDigits 10 (readDigits digitValue digits) = digits := by
  induction digits using List.reverseRecOn with
  | nil => exact absurd rfl canonical.1
  | append_singleton init c ih =>
    obtain ⟨-, allDigits, leading⟩ := canonical
    have lastDigit : c.isDigit = true := allDigits c (by simp)
    rw [readDigits_append_singleton]
    cases init with
    | nil =>
      simpa [readDigits, toDigits_ten, digitValue_lt_ten lastDigit] using
        digitChar_digitValue lastDigit
    | cons first rest =>
      have firstDigit : first.isDigit = true := allDigits first (by simp)
      have firstNonzero : first ≠ '0' := fun zero => by simp [zero] at leading
      have positive : 0 < readDigits digitValue (first :: rest) :=
        readDigits_pos digitValue (digitValue_pos firstDigit firstNonzero)
      have initCanonical : CanonicalDecimal (first :: rest) :=
        ⟨by simp, fun d mem => allDigits d (List.mem_append_left _ mem), by simp [firstNonzero]⟩
      have small := digitValue_lt_ten lastDigit
      rw [toDigits_ten, if_neg (by omega)]
      have quotient : (10 * readDigits digitValue (first :: rest) + digitValue c) / 10 =
          readDigits digitValue (first :: rest) := by omega
      have remainder : (10 * readDigits digitValue (first :: rest) + digitValue c) % 10 =
          digitValue c := by omega
      rw [quotient, remainder, ih initCanonical, digitChar_digitValue lastDigit]

end CrosPlatform.Text
