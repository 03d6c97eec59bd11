import CrosPlatform.Secagentd.GenerateEbpf

/-!
# Finding `linux_banner` in the kernel image

Before it matches the version, `do_gen_vmlinux` finds the text of the kernel's `linux_banner`
through two listings of `readelf`. The first row of `readelf --symbols --wide` with eight fields,
the last `linux_banner`, gives the symbol's address, size and section index. The first row of
`readelf --sections --wide` that opens with that index, padded as `f"[{sec:>2}]"`, gives the
section's address and file offset. The banner is then the `size` bytes of the image at
`section_off + linux_banner_addr - section_addr`, decoded as UTF-8.

The listings are inputs, as lists of lines as `splitlines` gives them, and so is the image, as
its bytes. Python's `str.split`, `str.lstrip`, `int`, `seek`, `read` and `bytes.decode` are
modelled as CPython computes them on a 64-bit system. None of the exceptions they raise is
caught by `main`, and the model says only that one was raised.

Main results: the padded index of a section opens the row of that section and of no other
(`section_pattern_matches_only_its_row`); and on the listings `readelf` prints for an image whose
`linux_banner` lies in its section, `gen_vmlinux` reads exactly the bytes of that symbol and does
what `doGenVmlinux` does on their text (`gen_vmlinux_reads_linux_banner`).
-/

namespace CrosPlatform.Secagentd

open CrosPlatform.Text CrosPlatform.HwsecHostUtils

/-! ## Python's text built-ins -/

/-- The whitespace of `str.split()` and `str.lstrip()` (CPython's `Py_UNICODE_ISSPACE`). -/
def pyIsSpace (c : Char) : Bool :=
  let n := c.toNat
  9 ≤ n && n ≤ 13 || 28 ≤ n && n ≤ 32 || n == 0x85 || n == 0xA0 || n == 0x1680 ||
    0x2000 ≤ n && n ≤ 0x200A || n == 0x2028 || n == 0x2029 || n == 0x202F || n == 0x205F ||
    n == 0x3000

/-- `s.split()`: the runs of characters between whitespace, none of them empty. -/
def pySplit (s : String) : List String :=
  ((s.toList.splitOnP pyIsSpace).filter (· ≠ [])).map String.mk

/-- `s.lstrip()`. -/
def lstrip (s : List Char) : List Char :=
  s.dropWhile pyIsSpace

/-- `f"{s:>width}"`: `s` after as many spaces as it is shorter than `width`. -/
def alignRight (width : Nat) (s : String) : String :=
  String.mk (List.replicate (width - s.length) ' ' ++ s.toList)

/-- The whitespace that `int` strips from around a number (`Py_ISSPACE`), once every other
whitespace character has become a space. -/
def isAsciiSpace (c : Char) : Bool :=
  9 ≤ c.toNat && c.toNat ≤ 13 || c == ' '

/-- What `int` reads of a character (CPython's `_PyUnicode_TransformDecimalAndSpaceToASCII`): an
ASCII character as it is, other whitespace as a space, another decimal digit as the ASCII digit
of its value, and anything else as `?`, which no number contains. -/
def transformDecimal (d : DigitClass) (c : Char) : Char :=
  if c.toNat < 127 then c
  else if pyIsSpace c then ' '
  else if d.isDigit c then Char.ofNat (48 + d.value c)
  else '?'

/-- `s.strip()` of the whitespace `int` strips. -/
def asciiStrip (cs : List Char) : List Char :=
  ((cs.dropWhile isAsciiSpace).reverse.dropWhile isAsciiSpace).reverse

/-- The value of an ASCII character as a digit (CPython's `_PyLong_DigitValue`): `0` to `9`,
then the letters of either case from 10 on, and 37 for any other character. -/
def asciiDigitValue (c : Char) : Nat :=
  if '0' ≤ c ∧ c ≤ '9' then c.toNat - 48
  else if 'a' ≤ c ∧ c ≤ 'z' then c.toNat - 87
  else if 'A' ≤ c ∧ c ≤ 'Z' then c.toNat - 55
  else 37

/-- Digits read most significant first in base `base`, each worth `value c`. -/
def readRadix (base : Nat) (value : Char → Nat) (digits : List Char) : Nat :=
  digits.foldl (fun acc c => base * acc + value c) 0

/-- The sign in front of a number: `true` for `-`. -/
def takeSign : List Char → Bool × List Char
  | '+' :: rest => (false, rest)
  | '-' :: rest => (true, rest)
  | cs => (false, cs)

/-- The letter of the prefix `int` allows in base 16, 8 or 2. -/
def isPrefixLetter (base : Nat) (c : Char) : Bool :=
  base == 16 && (c == 'x' || c == 'X') || base == 8 && (c == 'o' || c == 'O') ||
    base == 2 && (c == 'b' || c == 'B')

/-- The prefix `0x`, `0o` or `0b` that the base allows, and one underscore after it. -/
def dropBasePrefix (base : Nat) : List Char → List Char
  | '0' :: c :: rest =>
    if isPrefixLetter base c then
      match rest with
      | '_' :: rest => rest
      | rest => rest
    else '0' :: c :: rest
  | cs => cs

/-- The digits of a number with single underscores between them: `none` on an empty group (a
leading, trailing or doubled underscore, or no digit at all) and on a character that is no
digit of the base. -/
def underscoredDigits (base : Nat) (cs : List Char) : Option Nat :=
  let groups := cs.splitOn '_'
  if groups.all fun group => !group.isEmpty && group.all (asciiDigitValue · < base) then
    some (readRadix base asciiDigitValue groups.flatten)
  else none

/-- `int(x, base)` for a base from 2 to 36, `none` where it raises `ValueError`. The limit
Python 3.11 puts on the number of digits in base 10 is left out. -/
def pyInt (d : DigitClass) (base : Nat) (x : String) : Option Int :=
  let (negative, cs) := takeSign (asciiStrip (x.toList.map (transformDecimal d)))
  (underscoredDigits base (dropBasePrefix base cs)).map fun n => if negative then -(n : Int) else n

/-- A UTF-8 sequence being read: the continuation bytes still due, the range the next one must
lie in, and the bits of the code point so far. -/
structure Utf8Pending where
  due : Nat
  low : Nat
  high : Nat
  code : Nat

/-- What a byte from `0x80` on allows as the first of a sequence. The range of the first
continuation byte rules out overlong forms, surrogates and code points past `U+10FFFF`. -/
def utf8Lead (b : Nat) : Option Utf8Pending :=
  if 0xC2 ≤ b ∧ b ≤ 0xDF then some ⟨1, 0x80, 0xBF, b - 0xC0⟩
  else if b = 0xE0 then some ⟨2, 0xA0, 0xBF, 0⟩
  else if 0xE1 ≤ b ∧ b ≤ 0xEC ∨ 0xEE ≤ b ∧ b ≤ 0xEF then
    some ⟨2, 0x80, 0xBF, b - 0xE0⟩
  else if b = 0xED then some ⟨2, 0x80, 0x9F, 0xD⟩
  else if b = 0xF0 then some ⟨3, 0x90, 0xBF, 0⟩
  else if 0xF1 ≤ b ∧ b ≤ 0xF3 then some ⟨3, 0x80, 0xBF, b - 0xF0⟩
  else if b = 0xF4 then some ⟨3, 0x80, 0x8F, 4⟩
  else none

/-- The strict UTF-8 decoder, one byte after the other, in the sequence `pending` if one is
being read: `none` where it raises `UnicodeDecodeError`. -/
def decodeUtf8From : Option Utf8Pending → List UInt8 → Option (List Char)
  | none, [] => some []
  | some _, [] => none
  | none, b :: bytes =>
    if b.toNat < 0x80 then (Char.ofNat b.toNat :: ·) <$> decodeUtf8From none bytes
    else (utf8Lead b.toNat).bind fun lead => decodeUtf8From (some lead) bytes
  | some p, b :: bytes =>
    if p.low ≤ b.toNat ∧ b.toNat ≤ p.high then
      let code := p.code * 64 + (b.toNat - 0x80)
      if p.due = 1 then (Char.ofNat code :: ·) <$> decodeUtf8From none bytes
      else decodeUtf8From (some ⟨p.due - 1, 0x80, 0xBF, code⟩) bytes
    else none

/-- `bytes.decode("utf-8")`. -/
def decodeUtf8 (bytes : List UInt8) : Option (List Char) :=
  decodeUtf8From none bytes

/-- A two-byte and a three-byte sequence decode; a surrogate and a truncated sequence raise. -/
example : decodeUtf8 [0x41, 0xC3, 0xA9, 0xE2, 0x82, 0xAC] = some ['A', 'é', '€'] ∧
    decodeUtf8 [0xED, 0xA0, 0x80] = none ∧ decodeUtf8 [0xE2, 0x82] = none := by
  decide

/-! ## Reading the banner -/

/-- `f"{sysroot}/usr/lib/debug/boot/vmlinux"`. -/
def vmlinuxIn (sysroot : String) : String :=
  sysroot ++ "/usr/lib/debug/boot/vmlinux"

/-- `d[1]`, `d[2]` and `d[-2]` of the fields `d` of a row of `readelf --symbols --wide`, when it
has eight fields and the last is `linux_banner`. -/
def bannerRow : List String → Option (String × String × String)
  | [_, value, size, _, _, _, ndx, name] =>
    if name = "linux_banner" then some (value, size, ndx) else none
  | _ => none

/-- The loop over the rows of `readelf --symbols --wide`. -/
def linuxBannerFields (symbolLines : List String) : Option (String × String × String) :=
  symbolLines.findSome? fun line => bannerRow (pySplit line)

/-- `f"[{linux_banner_sec:>2}]"`. -/
def sectionPattern (sec : String) : String :=
  "[" ++ alignRight 2 sec ++ "]"

/-- The loop over the rows of `readelf --sections --wide`: the first whose text after leading
whitespace starts with `pattern`. -/
def sectionRow (pattern : String) (sectionLines : List String) : Option String :=
  sectionLines.find? fun line => pattern.toList.isPrefixOf (lstrip line.toList)

/-- `line.split("]", 1)[1]`: what follows the first `]`, `none` (an `IndexError`) without one. -/
def afterBracket (line : List Char) : Option (List Char) :=
  (line.dropWhile (· ≠ ']')).tail?

/-- `d[2]` and `d[3]` of `d = line.split("]", 1)[1].split()`. -/
def sectionFields (line : String) : Option (String × String) :=
  (afterBracket line.toList).bind fun rest =>
    match pySplit (String.mk rest) with
    | _ :: _ :: addr :: off :: _ => some (addr, off)
    | _ => none

/-- `fp.seek(offset)` then `fp.read(size)` on a file opened with `"rb"`: an offset outside
`off_t` raises, and so does a size below -1 or past `Py_ssize_t`; -1 reads to the end. -/
def readAt (image : List UInt8) (offset size : Int) : Option (List UInt8) :=
  if offset < 0 ∨ 2 ^ 63 ≤ offset ∨ size < -1 ∨ 2 ^ 63 ≤ size then none
  else if size = -1 then some (image.drop offset.toNat)
  else some ((image.drop offset.toNat).take size.toNat)

/-- How `do_gen_vmlinux` goes on after the two listings: with the text of the banner, by
returning what it printed and 1, or by raising. -/
inductive BannerRead
  | banner (text : String)
  | returned (result : GenVmlinuxResult)
  | raised
  deriving DecidableEq, Repr

/-- `do_gen_vmlinux` from the run of `readelf --symbols` to the decoded `linux_banner`. -/
def readLinuxBanner (d : DigitClass) (vmlinuxIn : String) (symbolLines sectionLines : List String)
    (image : List UInt8) : BannerRead :=
  match linuxBannerFields symbolLines with
  | none => .returned ⟨none, some ("Failed to find linux_banner from " ++ vmlinuxIn), 1⟩
  | some (addr, len, sec) =>
    match pyInt d 16 addr, pyInt d 10 len with
    | some linuxBannerAddr, some linuxBannerLen =>
      match sectionRow (sectionPattern sec) sectionLines with
      | none => .returned ⟨none, some ("Failed to find section \x27" ++ sectionPattern sec ++
          "\x27 from " ++ vmlinuxIn), 1⟩
      | some line =>
        let text : Option String := do
          let (addrField, offField) ← sectionFields line
          let sectionAddr ← pyInt d 16 addrField
          let sectionOff ← pyInt d 16 offField
          let bytes ← readAt image (sectionOff + linuxBannerAddr - sectionAddr) linuxBannerLen
          String.mk <$> decodeUtf8 bytes
        match text with
        | some text => .banner text
        | none => .raised
    | _, _ => .raised

/-- What `do_gen_vmlinux` reads: the lines of `readelf --symbols --wide` and of
`readelf --sections --wide` on the image, its bytes, and the lines of `bpftool btf dump`. -/
structure KernelBuild where
  symbolLines : List String
  sectionLines : List String
  image : List UInt8
  dumpLines : List String

/-- `do_gen_vmlinux(args)`, the subcommand `gen_vmlinux`, when the commands it runs succeed:
what it writes, prints and returns, or `none` when it raises. -/
def genVmlinux (d : DigitClass) (sysroot : String) (build : KernelBuild) :
    Option GenVmlinuxResult :=
  match readLinuxBanner d (vmlinuxIn sysroot) build.symbolLines build.sectionLines build.image with
  | .banner text => some (doGenVmlinux d text build.dumpLines)
  | .returned result => some result
  | .raised => none

/-! ## Python reads back what `readelf` prints -/

/-- `%0*lx`: the lowercase hexadecimal digits of `n`, zero-padded to at least `width`. -/
def printfHex (width n : Nat) : String :=
  String.mk (List.replicate (width - (Nat.toDigits 16 n).length) '0' ++ Nat.toDigits 16 n)

section Radix

variable {base : Nat}

theorem toDigitsCore_radix (big : 1 < base) (n fuel : Nat) (ds : List Char) (enough : n < fuel) :
    Nat.toDigitsCore base fuel n ds = Nat.toDigits base n ++ ds := by
  induction n using Nat.strong_induction_on generalizing fuel ds with
  | _ n ih =>
    obtain ⟨fuel, rfl⟩ : ∃ f, fuel = f + 1 := ⟨fuel - 1, by omega⟩
    simp only [Nat.toDigits, Nat.toDigitsCore]
    split
    · rfl
    · rename_i nonzero
      have smaller : n / base < n :=
        Nat.div_lt_self (Nat.pos_of_ne_zero fun zero => nonzero (by simp [zero])) big
      rw [ih _ smaller _ _ (by omega), ih _ smaller _ _ (by omega)]
      simp

/-- Lean's printer in base `base`: the last digit is `n % base`, after the digits of
`n / base`. -/
theorem toDigits_radix (big : 1 < base) (n : Nat) :
    Nat.toDigits base n =
      if n < base then [Nat.digitChar n]
      else Nat.toDigits base (n / base) ++ [Nat.digitChar (n % base)] := by
  rw [Nat.toDigits, Nat.toDigitsCore]
  by_cases small : n < base
  · simp [small, Nat.div_eq_of_lt small, Nat.mod_eq_of_lt small]
  · have nonzero : n / base ≠ 0 := (Nat.div_pos (by omega) (by omega)).ne'
    simp only [nonzero, small, if_false]
    exact toDigitsCore_radix big _ _ _ (Nat.div_lt_self (by omega) big)

/-- Every character Lean prints in base `base` is the digit of a value below `base`. -/
theorem digit_of_mem_toDigits (big : 1 < base) (n : Nat) :
    ∀ c ∈ Nat.toDigits base n, ∃ k < base, Nat.digitChar k = c := by
  induction n using Nat.strong_induction_on with
  | _ n ih =>
    rw [toDigits_radix big]
    split_ifs with small
    · simpa using ⟨n, small, rfl⟩
    · simp only [List.mem_append, List.mem_singleton]
      rintro c (mem | rfl)
      · exact ih _ (Nat.div_lt_self (by omega) big) c mem
      · exact ⟨_, Nat.mod_lt _ (by omega), rfl⟩

theorem readRadix_append_singleton (value : Char → Nat) (digits : List Char) (c : Char) :
    readRadix base value (digits ++ [c]) = base * readRadix base value digits + value c := by
  simp [readRadix]

theorem readRadix_replicate_zero_append (digits : List Char) (k : Nat) :
    readRadix base asciiDigitValue (List.replicate k '0' ++ digits) =
      readRadix base asciiDigitValue digits := by
  have zeros : ∀ k, (List.replicate k '0').foldl
      (fun acc c => base * acc + asciiDigitValue c) 0 = 0 := by
    intro k
    induction k with
    | zero => rfl
    | succ k ih => simpa [List.replicate_succ, asciiDigitValue] using ih
  simp only [readRadix, List.foldl_append, zeros]

/-- The value of every digit Lean prints up to base 16. -/
theorem asciiDigitValue_digitChar : ∀ k < 16, asciiDigitValue (Nat.digitChar k) = k := by
  decide

/-- `int` reads back Lean's printer in every base up to 16. -/
theorem readRadix_toDigits (big : 1 < base) (small : base ≤ 16) (n : Nat) :
    readRadix base asciiDigitValue (Nat.toDigits base n) = n := by
  induction n using Nat.strong_induction_on with
  | _ n ih =>
    rw [toDigits_radix big]
    split_ifs with below
    · simpa [readRadix] using asciiDigitValue_digitChar n (by omega)
    · rw [readRadix_append_singleton, ih _ (Nat.div_lt_self (by omega) big),
        asciiDigitValue_digitChar _ (Nat.lt_of_lt_of_le (Nat.mod_lt n (by omega)) small)]
      exact Nat.div_add_mod n base

end Radix

/-- The characters Lean prints as digits up to base 16 are plain ASCII: no whitespace, no sign
and no underscore. -/
theorem digitChar_plain : ∀ k < 16, (Nat.digitChar k).toNat < 127 ∧
    isAsciiSpace (Nat.digitChar k) = false ∧ Nat.digitChar k ≠ '+' ∧
    Nat.digitChar k ≠ '-' ∧ Nat.digitChar k ≠ '_' := by
  decide

/-- No digit of a base is the letter of that base's prefix. -/
theorem isPrefixLetter_digitChar : ∀ base < 17, ∀ k < base,
    isPrefixLetter base (Nat.digitChar k) = false := by
  decide

section Digits

variable (d : DigitClass) {base : Nat} {cs : List Char}

theorem asciiStrip_of_plain (plain : ∀ c ∈ cs, isAsciiSpace c = false) :
    asciiStrip cs = cs := by
  have keep : ∀ cs : List Char, (∀ c ∈ cs, isAsciiSpace c = false) →
      cs.dropWhile isAsciiSpace = cs := by
    rintro (_ | ⟨c, cs⟩) plain
    · rfl
    · simp [plain c (List.mem_cons_self _ _)]
  rw [asciiStrip, keep cs plain, keep _ (by simpa using plain), List.reverse_reverse]

theorem dropBasePrefix_digits (small : base ≤ 16)
    (digits : ∀ c ∈ cs, ∃ k < base, Nat.digitChar k = c) : dropBasePrefix base cs = cs := by
  unfold dropBasePrefix
  split
  · rename_i c _
    obtain ⟨k, below, rfl⟩ := digits c (by simp)
    simp [isPrefixLetter_digitChar base (by omega) k below]
  · rfl

theorem takeSign_of_unsigned (unsigned : ∀ c ∈ cs.head?, c ≠ '+' ∧ c ≠ '-') :
    takeSign cs = (false, cs) := by
  unfold takeSign
  split <;> simp_all

theorem underscoredDigits_of_digits (small : base ≤ 16) (nonempty : cs ≠ [])
    (digits : ∀ c ∈ cs, ∃ k < base, Nat.digitChar k = c) :
    underscoredDigits base cs = some (readRadix base asciiDigitValue cs) := by
  have single : cs.splitOn '_' = [cs] := List.splitOnP_eq_single _ _ fun c mem => by
    obtain ⟨k, below, rfl⟩ := digits c mem
    simpa using (digitChar_plain k (by omega)).2.2.2.2
  have values : ∀ c ∈ cs, asciiDigitValue c < base := fun c mem => by
    obtain ⟨k, below, rfl⟩ := digits c mem
    rwa [asciiDigitValue_digitChar k (by omega)]
  simpa [underscoredDigits, single, nonempty] using values

/-- `int` reads a run of digits Lean prints as its value. -/
theorem pyInt_of_digits (small : base ≤ 16) (nonempty : cs ≠ [])
    (digits : ∀ c ∈ cs, ∃ k < base, Nat.digitChar k = c) :
    pyInt d base (String.mk cs) = some (readRadix base asciiDigitValue cs : Int) := by
  have plain : ∀ c ∈ cs,
      c.toNat < 127 ∧ isAsciiSpace c = false ∧ c ≠ '+' ∧ c ≠ '-' ∧ c ≠ '_' := by
    intro c mem
    obtain ⟨k, below, rfl⟩ := digits c mem
    exact digitChar_plain k (by omega)
  have ascii : cs.map (transformDecimal d) = cs :=
    (List.map_congr_left fun c mem => if_pos (plain c mem).1).trans (List.map_id _)
  have unsigned : takeSign cs = (false, cs) :=
    takeSign_of_unsigned fun c mem =>
      have plain := plain c (List.mem_of_mem_head? mem)
      ⟨plain.2.2.1, plain.2.2.2.1⟩
  simp only [pyInt, String.toList, ascii, asciiStrip_of_plain fun c mem => (plain c mem).2.1,
    unsigned, dropBasePrefix_digits small digits, underscoredDigits_of_digits small nonempty digits]
  rfl

theorem toDigits_ne_nil_radix (big : 1 < base) (n : Nat) : Nat.toDigits base n ≠ [] := by
  rw [toDigits_radix big]
  split_ifs <;> simp

/-- `int(field, 16)` reads back a field `readelf` prints with `%0*lx`. -/
theorem pyInt_printfHex (width n : Nat) : pyInt d 16 (printfHex width n) = some (n : Int) := by
  have digits : ∀ c ∈ List.replicate (width - (Nat.toDigits 16 n).length) '0' ++
      Nat.toDigits 16 n, ∃ k < 16, Nat.digitChar k = c := by
    simp only [List.mem_append, List.mem_replicate]
    rintro c (⟨-, rfl⟩ | mem)
    · exact ⟨0, by decide, rfl⟩
    · exact digit_of_mem_toDigits (by decide) n c mem
  rw [printfHex, pyInt_of_digits d le_rfl
    (List.append_ne_nil_of_right_ne_nil _ (toDigits_ne_nil_radix (by decide) n)) digits,
    readRadix_replicate_zero_append, readRadix_toDigits (by decide) le_rfl]

/-- `int(field)` reads back a field `readelf` prints in decimal. -/
theorem pyInt_toString (n : Nat) : pyInt d 10 (toString n) = some (n : Int) := by
  have digits := digit_of_mem_toDigits (by decide : 1 < 10) n
  rw [show toString n = String.mk (Nat.toDigits 10 n) from rfl,
    pyInt_of_digits d (by decide) (toDigits_ne_nil_radix (by decide) n) digits,
    readRadix_toDigits (by decide) (by decide)]

end Digits

/-! ## The row of a section -/

theorem sectionPattern_toList (sec : String) :
    (sectionPattern sec).toList = '[' :: (alignRight 2 sec).toList ++ [']'] := by
  rw [sectionPattern, toList_append, toList_append]
  rfl

/-- The padded index of a section holds spaces and digits, and no bracket. -/
theorem bracket_not_mem_alignRight (n : Nat) : ']' ∉ (alignRight 2 (toString n)).toList := by
  show ']' ∉ List.replicate _ ' ' ++ Nat.toDigits 10 n
  simp only [List.mem_append, List.mem_replicate, not_or]
  exact ⟨fun space => absurd space.2 (by decide),
    fun mem => absurd (isDigit_of_mem_toDigits n _ mem) (by decide)⟩

theorem takeWhile_bracket {inner : List Char} (noBracket : ']' ∉ inner) (rest : List Char) :
    (inner ++ ']' :: rest).takeWhile (· ≠ ']') = inner := by
  rw [List.takeWhile_append_of_pos fun c mem => by simpa using ne_of_mem_of_not_mem mem noBracket]
  simp

/-- The padding of `:>2` keeps the index: dropping the spaces in front gives its digits. -/
theorem alignRight_toString_inj {n m : Nat}
    (same : (alignRight 2 (toString n)).toList = (alignRight 2 (toString m)).toList) : n = m := by
  have strip : ∀ n : Nat,
      (alignRight 2 (toString n)).toList.dropWhile (· == ' ') = Nat.toDigits 10 n := by
    intro n
    obtain ⟨c, cs, digits⟩ := List.exists_cons_of_ne_nil (toDigits_ne_nil n)
    have notSpace : c ≠ ' ' := fun space => by
      simpa [space] using isDigit_of_mem_toDigits n c (by simp [digits])
    show (List.replicate _ ' ' ++ Nat.toDigits 10 n).dropWhile _ = _
    rw [List.dropWhile_append_of_pos (by simp [List.mem_replicate]), digits,
      List.dropWhile_cons_of_neg (by simpa using notSpace)]
  have digits := congrArg (List.dropWhile (· == ' ')) same
  rw [strip, strip] at digits
  simpa using congrArg (readDigits digitValue) digits

/-- The pattern `f"[{sec:>2}]"` that `do_gen_vmlinux` builds from the section index `n` of
`linux_banner` opens the row `readelf` prints for section `m`, which starts with `[%2u]`, exactly
when `m` is `n`: the closing bracket makes the padded indices prefix-free. -/
theorem section_pattern_matches_only_its_row (n m : Nat) (rest : List Char) :
    (sectionPattern (toString n)).toList.isPrefixOf
      ((sectionPattern (toString m)).toList ++ rest) = true ↔ n = m := by
  constructor
  · rw [List.isPrefixOf_iff_prefix]
    rintro ⟨more, opens⟩
    have inner := congrArg (fun cs : List Char => cs.tail.takeWhile (· ≠ ']')) opens
    simp only [sectionPattern_toList, List.append_assoc, List.singleton_append, List.cons_append,
      List.tail_cons, takeWhile_bracket (bracket_not_mem_alignRight n),
      takeWhile_bracket (bracket_not_mem_alignRight m)] at inner
    exact alignRight_toString_inj inner
  · rintro rfl
    simp [List.isPrefixOf_iff_prefix]

/-! ## The listings `readelf` prints of a kernel image -/

/-- A section of the kernel image, as its header gives it. -/
structure ElfSection where
  index : Nat
  addr : Nat
  offset : Nat
  size : Nat

/-- A symbol of the kernel image, as the symbol table gives it. -/
structure ElfSymbol where
  value : Nat
  size : Nat
  shndx : Nat

/-- The bytes of a section: `size` bytes of the image from its offset on. -/
def ElfSection.contents (sec : ElfSection) (image : List UInt8) : List UInt8 :=
  (image.drop sec.offset).take sec.size

/-- The object a symbol of the section `sec` names: `size` bytes of the section from the
symbol's address on. -/
def symbolBytes (image : List UInt8) (sec : ElfSection) (sym : ElfSymbol) : List UInt8 :=
  ((sec.contents image).drop (sym.value - sec.addr)).take sym.size

/-- A row of `readelf --symbols --wide` for `linux_banner`: eight fields, the symbol's value
zero-padded in hexadecimal, its size and its section's index in decimal, and its name last. -/
def SymbolRow (sym : ElfSymbol) (row : String) : Prop :=
  ∃ num width type bind vis, pySplit row = [num, printfHex width sym.value, toString sym.size,
    type, bind, vis, toString sym.shndx, "linux_banner"]

/-- A row of `readelf --sections --wide` for the section `sec`: after leading whitespace, its
index as `[%2u]`, then its name, type, address and file offset, zero-padded in hexadecimal. -/
def SectionRow (sec : ElfSection) (row : String) : Prop :=
  ∃ rest name type width width' more,
    lstrip row.toList = (sectionPattern (toString sec.index)).toList ++ rest ∧
    pySplit (String.mk rest) =
      name :: type :: printfHex width sec.addr :: printfHex width' sec.offset :: more

/-- The listings of `readelf` on a kernel image whose `linux_banner` is `sym`, in the section
`sec`. No row before the symbol's names `linux_banner`, and no line before the section's row
opens with its index, as `readelf` lists each symbol and each section once. The symbol lies in
its section, within the first `2 ^ 63` bytes of the file. -/
structure Listed (build : KernelBuild) (sym : ElfSymbol) (sec : ElfSection) : Prop where
  symbols : ∃ before row after, build.symbolLines = before ++ row :: after ∧
    (∀ line ∈ before, (pySplit line).getLast? ≠ some "linux_banner") ∧ SymbolRow sym row
  sections : ∃ before row after, build.sectionLines = before ++ row :: after ∧
    (∀ line ∈ before,
      (sectionPattern (toString sec.index)).toList.isPrefixOf (lstrip line.toList) = false) ∧
    SectionRow sec row
  inSection : sym.shndx = sec.index
  inside : sec.addr ≤ sym.value ∧ sym.value + sym.size ≤ sec.addr + sec.size
  small : sec.offset + (sym.value - sec.addr) < 2 ^ 63 ∧ sym.size < 2 ^ 63

theorem bannerRow_eq_none {fields : List String}
    (unnamed : fields.getLast? ≠ some "linux_banner") : bannerRow fields = none := by
  unfold bannerRow
  split <;> simp_all

/-- The symbol loop stops at the row of `linux_banner`. -/
theorem linuxBannerFields_of_row {before after : List String} {row : String} {sym : ElfSymbol}
    (first : ∀ line ∈ before, (pySplit line).getLast? ≠ some "linux_banner")
    (listed : SymbolRow sym row) :
    ∃ width, linuxBannerFields (before ++ row :: after) =
      some (printfHex width sym.value, toString sym.size, toString sym.shndx) := by
  obtain ⟨num, width, type, bind, vis, fields⟩ := listed
  refine ⟨width, ?_⟩
  rw [linuxBannerFields, List.findSome?_append,
    List.findSome?_eq_none_iff.mpr fun line mem => bannerRow_eq_none (first line mem)]
  simp [fields, bannerRow]

/-- The section loop stops at the first row `pattern` opens. -/
theorem sectionRow_of_row {pattern : String} {before after : List String} {row : String}
    (first : ∀ line ∈ before, pattern.toList.isPrefixOf (lstrip line.toList) = false)
    (opens : pattern.toList.isPrefixOf (lstrip row.toList) = true) :
    sectionRow pattern (before ++ row :: after) = some row := by
  rw [sectionRow, List.find?_append,
    List.find?_eq_none.mpr fun line mem => by rw [first line mem]; exact Bool.false_ne_true,
    Option.none_or]
  exact List.find?_cons_of_pos _ opens

/-- The first `]` of a row is the one closing its index: the whitespace in front holds none. -/
theorem afterBracket_of_lstrip {row inner rest : List Char}
    (opens : lstrip row = '[' :: (inner ++ ']' :: rest)) (noBracket : ']' ∉ inner) :
    afterBracket row = some rest := by
  have front : ∀ c ∈ row.takeWhile pyIsSpace ++ '[' :: inner, decide (c ≠ ']') = true := by
    simp only [List.mem_append, List.mem_cons, decide_eq_true_eq]
    rintro c (space | rfl | mem)
    · rintro rfl
      simpa [pyIsSpace] using List.mem_takeWhile_imp space
    · decide
    · exact ne_of_mem_of_not_mem mem noBracket
  rw [afterBracket, ← List.takeWhile_append_dropWhile pyIsSpace row]
  rw [lstrip] at opens
  rw [opens, ← List.cons_append, ← List.append_assoc, List.dropWhile_append_of_pos front]
  simp

theorem sectionFields_of_row {sec : ElfSection} {row : String} (listed : SectionRow sec row) :
    ∃ width width', sectionFields row =
      some (printfHex width sec.addr, printfHex width' sec.offset) := by
  obtain ⟨rest, name, type, width, width', more, opens, fields⟩ := listed
  simp only [sectionPattern_toList, List.cons_append, List.append_assoc, List.singleton_append,
    List.nil_append] at opens
  refine ⟨width, width', ?_⟩
  rw [sectionFields, afterBracket_of_lstrip opens (bracket_not_mem_alignRight _), Option.some_bind,
    fields]

/-- The offset `do_gen_vmlinux` seeks to is where the symbol's bytes are in the file. -/
theorem readAt_symbolBytes (image : List UInt8) {sec : ElfSection} {sym : ElfSymbol}
    (inside : sec.addr ≤ sym.value ∧ sym.value + sym.size ≤ sec.addr + sec.size)
    (small : sec.offset + (sym.value - sec.addr) < 2 ^ 63 ∧ sym.size < 2 ^ 63) :
    readAt image (sec.offset + sym.value - sec.addr) sym.size =
      some (symbolBytes image sec sym) := by
  have offset : (sec.offset + sym.value - sec.addr : Int) =
      (sec.offset + (sym.value - sec.addr) : Nat) := by
    omega
  rw [readAt, offset, if_neg (by omega), if_neg (by omega)]
  simp only [Int.toNat_ofNat, symbolBytes, ElfSection.contents, List.drop_take, List.take_take,
    List.drop_drop]
  congr 2
  omega

/-- On the listings `readelf` prints of a kernel image whose `linux_banner` lies in its section,
`gen_vmlinux` reads exactly the bytes of that symbol: it goes on as `doGenVmlinux` on their text
when they are UTF-8, and raises when they are not. -/
theorem gen_vmlinux_reads_linux_banner (d : DigitClass) (sysroot : String) {build : KernelBuild}
    {sym : ElfSymbol} {sec : ElfSection} (listed : Listed build sym sec) :
    genVmlinux d sysroot build = (decodeUtf8 (symbolBytes build.image sec sym)).map
      fun text => doGenVmlinux d (String.mk text) build.dumpLines := by
  obtain ⟨⟨_, row, after, symbols, first, symbolRow⟩,
    ⟨_, row', _, sections, first', sectionRow'⟩, inSection, inside, small⟩ := listed
  obtain ⟨width, fields⟩ := @linuxBannerFields_of_row _ after _ _ first symbolRow
  obtain ⟨w, w', addrOff⟩ := sectionFields_of_row sectionRow'
  have opens : (sectionPattern (toString sec.index)).toList.isPrefixOf (lstrip row'.toList) := by
    obtain ⟨rest, -, -, -, -, -, lstripped, -⟩ := sectionRow'
    rw [lstripped]
    exact List.isPrefixOf_iff_prefix.mpr (List.prefix_append _ _)
  simp only [genVmlinux, readLinuxBanner, symbols, fields, pyInt_printfHex, pyInt_toString,
    inSection, sections, sectionRow_of_row first' opens, addrOff, Option.bind_eq_bind,
    Option.some_bind, readAt_symbolBytes _ inside small, Option.map_eq_map]
  cases decodeUtf8 (symbolBytes build.image sec sym) <;> rfl

/-- A kernel image of 112 bytes whose `.rodata`, section 1 at offset `0x40`, holds
`Linux version 6.1.0` eight bytes in, with the listings `readelf` prints of it. -/
theorem gen_vmlinux_reads_linux_banner_of_small_image :
    genVmlinux DigitClass.ascii "/build"
      ⟨["Symbol table .symtab contains 2 entries:",
        "   Num:    Value          Size Type    Bind   Vis      Ndx Name",
        "     0: 0000000000000000     0 NOTYPE  LOCAL  DEFAULT  UND ",
        "     1: 0000000000001008    19 OBJECT  GLOBAL DEFAULT    1 linux_banner"],
       ["Section Headers:",
        "  [Nr] Name              Type            Address          Off    Size   ES Flg Lk Inf Al",
        "  [ 0]                   NULL            0000000000000000 000000 000000 00      0   0  0",
        "  [ 1] .rodata           PROGBITS        0000000000001000 000040 000030 00   A  0   0  8"],
       List.replicate 72 0 ++ "Linux version 6.1.0".toList.map (·.toNat.toUInt8) ++
         List.replicate 21 0,
       ["#define __VMLINUX_H__"]⟩ =
      some (doGenVmlinux DigitClass.ascii "Linux version 6.1.0" ["#define __VMLINUX_H__"]) :=
  Eq.trans (@gen_vmlinux_reads_linux_banner DigitClass.ascii "/build" _ ⟨0x1008, 19, 1⟩
    ⟨1, 0x1000, 0x40, 0x30⟩
    ⟨⟨["Symbol table .symtab contains 2 entries:",
        "   Num:    Value          Size Type    Bind   Vis      Ndx Name",
        "     0: 0000000000000000     0 NOTYPE  LOCAL  DEFAULT  UND "], _, [], rfl, by decide,
        "1:", 16, "OBJECT", "GLOBAL", "DEFAULT", by decide⟩,
      ⟨["Section Headers:",
        "  [Nr] Name              Type            Address          Off    Size   ES Flg Lk Inf Al",
        "  [ 0]                   NULL            0000000000000000 000000 000000 00      0   0  0"],
        _, [], rfl, by decide, _, ".rodata", "PROGBITS", 16, 6,
        ["000030", "00", "A", "0", "0", "8"], rfl, by decide⟩,
      rfl, by decide, by decide⟩) (by decide)

end CrosPlatform.Secagentd
