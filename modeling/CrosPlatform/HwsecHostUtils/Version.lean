import CrosPlatform.Text.Decimal
import Mathlib.Data.String.Basic

/-!
# ChromiumOS versions of the cross-version login script

`prepare_cross_version_login_data.py` names every image by a `Version`. `Version.__str__`
prints it as `R<milestone>-<major>.<minor>.<patch><custombuild>`, and `parse_version` reads it
back with `re.fullmatch(r"R(\d+)-(\d+)\.(\d+)\.(\d+)(-custombuild\d{8}|)", version)`.

Python's `\d` matches every Unicode decimal digit and `int` reads each at its own value, so
the character class is a parameter, `DigitClass`, holding only what the pattern relies on.
The round trip holds for every such class, Python's among them.
-/

namespace CrosPlatform.HwsecHostUtils

open CrosPlatform.Text

/-- What `parse_version` relies on of Python's `\d` and `int`: the characters `\d` matches and
the value `int` reads from each, agreeing with ASCII on the ASCII digits, and matching neither
separator of the pattern. -/
structure DigitClass where
  isDigit : Char → Bool
  value : Char → Nat
  ascii_isDigit : ∀ c, c.isDigit = true → isDigit c = true
  ascii_value : ∀ c, c.isDigit = true → value c = digitValue c
  dash_not_digit : isDigit '-' = false
  dot_not_digit : isDigit '.' = false

/-- The class of `\d` under `re.ASCII`. -/
def DigitClass.ascii : DigitClass where
  isDigit := Char.isDigit
  value := digitValue
  ascii_isDigit _ digit := digit
  ascii_value _ _ := rfl
  dash_not_digit := rfl
  dot_not_digit := rfl

/-- A parsed ChromiumOS version. -/
structure Version where
  milestone : Int
  major : Int
  minor : Int
  patch : Int
  /-- An optional suffix in the `-custombuildYYYYMMDD` format. -/
  custombuild : String
  deriving DecidableEq, Repr

/-- `Version.__str__`. -/
instance : ToString Version where
  toString v := "R" ++ toString v.milestone ++ "-" ++ toString v.major ++ "." ++
    toString v.minor ++ "." ++ toString v.patch ++ v.custombuild

/-! ## Matching the version pattern -/

/-- A `(\d+)` group: the longest run of `\d` at the front, which must not be empty. Every
group of the pattern is followed by `-`, `.` or the end, none of which `\d` matches, so the
longest run is the only one a match can take. -/
def digitRun (d : DigitClass) (cs : List Char) : Option (List Char × List Char) :=
  match cs.span d.isDigit with
  | ([], _) => none
  | run => some run

/-- One literal character of the pattern. -/
def literal (c : Char) : List Char → Option (List Char)
  | x :: rest => if x = c then some rest else none
  | [] => none

/-- The last group `(-custombuild\d{8}|)`, against all that is left of the string. -/
def customSuffix (d : DigitClass) (rest : List Char) : Bool :=
  rest.isEmpty || ("-custombuild".toList.isPrefixOf rest &&
    (rest.drop 12).length == 8 && (rest.drop 12).all d.isDigit)

/-- The five groups of a match of the version pattern. -/
structure VersionMatch where
  milestone : List Char
  major : List Char
  minor : List Char
  patch : List Char
  custombuild : List Char
  deriving DecidableEq, Repr

/-- `re.fullmatch(r"R(\d+)-(\d+)\.(\d+)\.(\d+)(-custombuild\d{8}|)", version)`. -/
def matchVersion (d : DigitClass) (cs : List Char) : Option VersionMatch := do
  let rest ← literal 'R' cs
  let (milestone, rest) ← digitRun d rest
  let rest ← literal '-' rest
  let (major, rest) ← digitRun d rest
  let rest ← literal '.' rest
  let (minor, rest) ← digitRun d rest
  let rest ← literal '.' rest
  let (patch, rest) ← digitRun d rest
  if customSuffix d rest then some ⟨milestone, major, minor, patch, rest⟩ else none

/-- `parse_version`: the `RuntimeError` is the `error` branch. -/
def parseVersion (d : DigitClass) (version : String) : Except String Version :=
  match matchVersion d version.toList with
  | none => .error ("Failed to parse version " ++ version)
  | some m => .ok
      { milestone := readDigits d.value m.milestone
        major := readDigits d.value m.major
        minor := readDigits d.value m.minor
        patch := readDigits d.value m.patch
        custombuild := String.mk m.custombuild }

/-- A `custombuild` suffix that prints back through the pattern: empty, or `-custombuild`
followed by eight ASCII digits. -/
def ValidCustombuild (custombuild : String) : Prop :=
  custombuild = "" ∨ ∃ digits : List Char, custombuild.toList = "-custombuild".toList ++ digits ∧
    digits.length = 8 ∧ ∀ c ∈ digits, c.isDigit = true

/-! ## Pieces of the match -/

section

variable (d : DigitClass)

theorem literal_eq_some {c : Char} {cs rest : List Char} :
    literal c cs = some rest ↔ cs = c :: rest := by
  cases cs with
  | nil => simp [literal]
  | cons x xs =>
    by_cases same : x = c
    · simp [literal, same, eq_comm]
    · simp [literal, same, Ne.symm same]

@[simp]
theorem literal_cons_self (c : Char) (rest : List Char) : literal c (c :: rest) = some rest := by
  simp [literal]

/-- A nonempty run of digits stops at the first character `\d` does not match. -/
theorem digitRun_append {run rest : List Char} (nonempty : run ≠ [])
    (digits : ∀ c ∈ run, d.isDigit c = true) (stop : ∀ c ∈ rest.head?, d.isDigit c = false) :
    digitRun d (run ++ rest) = some (run, rest) := by
  have split : (run ++ rest).span d.isDigit = (run, rest) := by
    rw [List.span_eq_take_drop, List.takeWhile_append_of_pos digits,
      List.dropWhile_append_of_pos digits]
    cases rest with
    | nil => simp
    | cons c rest => simp [stop c (by simp)]
  unfold digitRun
  rw [split]
  cases run with
  | nil => exact absurd rfl nonempty
  | cons c run => rfl

theorem digitRun_eq_some {cs run rest : List Char} (matched : digitRun d cs = some (run, rest)) :
    cs = run ++ rest := by
  unfold digitRun at matched
  split at matched
  · cases matched
  · have split := Option.some.inj matched
    rw [List.span_eq_take_drop, Prod.mk.injEq] at split
    rw [← split.1, ← split.2, List.takeWhile_append_dropWhile]

theorem customSuffix_head {rest : List Char} (suffix : customSuffix d rest = true) :
    ∀ c ∈ rest.head?, d.isDigit c = false := by
  intro c head
  cases rest with
  | nil => simp at head
  | cons x xs =>
    simp only [customSuffix, List.isEmpty_cons, Bool.false_or, Bool.and_eq_true,
      List.isPrefixOf_iff_prefix] at suffix
    obtain ⟨⟨isPrefix, -⟩, -⟩ := suffix
    have dash : x = '-' := (List.cons_prefix_cons.mp isPrefix).1.symm
    simp only [List.head?_cons, Option.mem_def, Option.some.injEq] at head
    rw [← head, dash, d.dash_not_digit]

theorem customSuffix_of_valid {custombuild : String} (valid : ValidCustombuild custombuild) :
    customSuffix d custombuild.toList = true := by
  rcases valid with rfl | ⟨digits, chars, eight, ascii⟩
  · rfl
  · rw [chars]
    simp only [customSuffix, Bool.or_eq_true, Bool.and_eq_true, List.isPrefixOf_iff_prefix,
      beq_iff_eq, List.all_eq_true]
    refine .inr ⟨⟨List.prefix_append _ _, ?_⟩, fun c mem => d.ascii_isDigit c (ascii c ?_)⟩
    · simpa using eight
    · simpa using mem

/-- Every successful match reads the whole string as its five groups. -/
theorem matchVersion_eq_some {cs : List Char} {m : VersionMatch}
    (matched : matchVersion d cs = some m) :
    cs = 'R' :: m.milestone ++ '-' :: m.major ++ '.' :: m.minor ++ '.' :: m.patch ++
      m.custombuild := by
  simp only [matchVersion, Option.bind_eq_bind, Option.bind_eq_some] at matched
  obtain ⟨r1, l1, ⟨g1, r2⟩, run1, r3, l2, ⟨g2, r4⟩, run2, r5, l3, ⟨g3, r6⟩, run3, r7, l4,
    ⟨g4, r8⟩, run4, done⟩ := matched
  simp only at l2 l3 l4 done
  split at done
  · cases done
    simp [literal_eq_some.mp l1, digitRun_eq_some d run1, literal_eq_some.mp l2,
      digitRun_eq_some d run2, literal_eq_some.mp l3, digitRun_eq_some d run3,
      literal_eq_some.mp l4, digitRun_eq_some d run4]
  · cases done

/-- The pattern matches a string built from four digit runs and an accepted suffix, with
exactly those groups. -/
theorem matchVersion_build {g1 g2 g3 g4 suffix : List Char}
    (runs : ∀ g ∈ [g1, g2, g3, g4], g ≠ [] ∧ ∀ c ∈ g, d.isDigit c = true)
    (accepted : customSuffix d suffix = true) :
    matchVersion d ('R' :: g1 ++ '-' :: g2 ++ '.' :: g3 ++ '.' :: g4 ++ suffix) =
      some ⟨g1, g2, g3, g4, suffix⟩ := by
  simp only [List.mem_cons, List.mem_singleton, forall_eq_or_imp, forall_eq,
    List.not_mem_nil, or_false] at runs
  obtain ⟨⟨n1, d1⟩, ⟨n2, d2⟩, ⟨n3, d3⟩, ⟨n4, d4⟩⟩ := runs
  have dash (rest : List Char) : ∀ c ∈ ('-' :: rest).head?, d.isDigit c = false := by
    simp [d.dash_not_digit]
  have dot (rest : List Char) : ∀ c ∈ ('.' :: rest).head?, d.isDigit c = false := by
    simp [d.dot_not_digit]
  simp only [matchVersion, literal_cons_self, List.cons_append, List.append_assoc,
    Option.bind_eq_bind, Option.some_bind, digitRun_append d n1 d1 (dash _),
    digitRun_append d n2 d2 (dot _), digitRun_append d n3 d3 (dot _),
    digitRun_append d n4 d4 (customSuffix_head d accepted), accepted, if_true]

/-- Reading an ASCII digit string with `\d`'s values is reading it as ASCII. -/
theorem readDigits_ascii {digits : List Char} (ascii : ∀ c ∈ digits, c.isDigit = true) :
    readDigits d.value digits = readDigits digitValue digits := by
  unfold readDigits
  exact List.foldl_ext _ _ _ fun acc c mem => by rw [d.ascii_value c (ascii c mem)]

end

/-! ## The round trip -/

theorem toString_int_toList {n : Int} (nonneg : 0 ≤ n) :
    (toString n).toList = Nat.toDigits 10 n.toNat := by
  lift n to Nat using nonneg
  rfl

theorem toString_version_toList (v : Version) (m0 : 0 ≤ v.milestone) (m1 : 0 ≤ v.major)
    (m2 : 0 ≤ v.minor) (m3 : 0 ≤ v.patch) :
    (toString v).toList = 'R' :: Nat.toDigits 10 v.milestone.toNat ++
      '-' :: Nat.toDigits 10 v.major.toNat ++ '.' :: Nat.toDigits 10 v.minor.toNat ++
      '.' :: Nat.toDigits 10 v.patch.toNat ++ v.custombuild.toList := by
  show ("R" ++ toString v.milestone ++ "-" ++ toString v.major ++ "." ++ toString v.minor ++ "." ++
    toString v.patch ++ v.custombuild : String).toList = _
  simp only [toList_append, toString_int_toList m0, toString_int_toList m1,
    toString_int_toList m2, toString_int_toList m3]
  simp

section

variable (d : DigitClass)

/-- `parse_version(str(v)) == v` for natural-number fields and an accepted suffix. -/
theorem parseVersion_toString (v : Version) (m0 : 0 ≤ v.milestone) (m1 : 0 ≤ v.major)
    (m2 : 0 ≤ v.minor) (m3 : 0 ≤ v.patch) (suffix : ValidCustombuild v.custombuild) :
    parseVersion d (toString v) = .ok v := by
  have run (n : Int) : Nat.toDigits 10 n.toNat ≠ [] ∧
      ∀ c ∈ Nat.toDigits 10 n.toNat, d.isDigit c = true :=
    ⟨toDigits_ne_nil _, fun c mem => d.ascii_isDigit c (isDigit_of_mem_toDigits _ c mem)⟩
  have value {n : Int} (nonneg : 0 ≤ n) :
      (readDigits d.value (Nat.toDigits 10 n.toNat) : Int) = n := by
    rw [readDigits_ascii d (isDigit_of_mem_toDigits _), readDigits_toDigits]
    omega
  unfold parseVersion
  rw [toString_version_toList v m0 m1 m2 m3,
    matchVersion_build d (fun g mem => by
      simp only [List.mem_cons, List.mem_singleton, List.not_mem_nil, or_false] at mem
      rcases mem with rfl | rfl | rfl | rfl <;> exact run _) (customSuffix_of_valid d suffix)]
  simp only [value m0, value m1, value m2, value m3]
  rfl

/-- `str(parse_version(s)) == s` when the four numeric groups of the match are canonical
ASCII decimals. -/
theorem toString_parseVersion {s : String} {m : VersionMatch}
    (matched : matchVersion d s.toList = some m) (c0 : CanonicalDecimal m.milestone)
    (c1 : CanonicalDecimal m.major) (c2 : CanonicalDecimal m.minor)
    (c3 : CanonicalDecimal m.patch) :
    (parseVersion d s).map toString = .ok s := by
  have back {g : List Char} (canonical : CanonicalDecimal g) :
      Nat.toDigits 10 (readDigits d.value g : Int).toNat = g := by
    rw [Int.toNat_natCast, readDigits_ascii d canonical.2.1, toDigits_readDigits canonical]
  unfold parseVersion
  rw [matched]
  show Except.ok (toString _) = Except.ok s
  congr 1
  rw [← String.toList_inj, toString_version_toList _ (Int.natCast_nonneg _) (Int.natCast_nonneg _)
    (Int.natCast_nonneg _) (Int.natCast_nonneg _)]
  simp only [back c0, back c1, back c2, back c3]
  exact (matchVersion_eq_some d matched).symm

end

/-- The version string round trip in both directions: printing a version with natural-number
fields and an accepted suffix parses back to it, and a parsed string whose numeric groups are
canonical ASCII decimals prints back to itself. -/
theorem version_string_round_trip (d : DigitClass) :
    (∀ v : Version, 0 ≤ v.milestone → 0 ≤ v.major → 0 ≤ v.minor → 0 ≤ v.patch →
      ValidCustombuild v.custombuild → parseVersion d (toString v) = .ok v) ∧
    (∀ (s : String) (m : VersionMatch), matchVersion d s.toList = some m →
      CanonicalDecimal m.milestone → CanonicalDecimal m.major → CanonicalDecimal m.minor →
      CanonicalDecimal m.patch → (parseVersion d s).map toString = .ok s) :=
  ⟨parseVersion_toString d, fun _ _ => toString_parseVersion d⟩

theorem version_string_round_trip_help_examples :
    parseVersion DigitClass.ascii (toString (⟨100, 14526, 89, 0, "-custombuild20220130"⟩ : Version)) =
        .ok ⟨100, 14526, 89, 0, "-custombuild20220130"⟩ ∧
      (parseVersion DigitClass.ascii "R100-14526.89.0").map toString = .ok "R100-14526.89.0" :=
  ⟨(version_string_round_trip DigitClass.ascii).1 _ (by decide) (by decide) (by decide)
      (by decide) (.inr ⟨"20220130".toList, rfl, rfl, by decide⟩),
    (version_string_round_trip DigitClass.ascii).2 _ ⟨"100".toList, "14526".toList, "89".toList,
      "0".toList, []⟩ rfl (by decide) (by decide) (by decide) (by decide)⟩

end CrosPlatform.HwsecHostUtils
