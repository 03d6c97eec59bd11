import CrosPlatform.HwsecHostUtils.Version

/-!
# The `vmlinux.h` that `generate-ebpf.py gen_vmlinux` writes

`do_gen_vmlinux` finds the kernel's `linux_banner` through `readelf`, reads the kernel version
from it with `re.match(r"Linux version (\d+).(\d+).(\d+)", linux_banner)`, computes
`LINUX_VERSION_CODE` as the kernel's `KERNEL_VERSION` macro does, and copies the lines of
`bpftool btf dump file <btf> format c` into `vmlinux.h`, writing the define once, right after
the first line `#define __VMLINUX_H__`.

This module starts at the decoded banner; `LinuxBanner` models how `do_gen_vmlinux` finds it in
the kernel image. The lines of `bpftool`'s output are an input, as `splitlines` gives them. The
dots of the pattern are not escaped, so each matches any character but a newline, and `re`
backtracks into the digit groups to find one; the model keeps both. Python's `\d` and `int` are the `DigitClass` of the version parser.

Main results: on a banner `Linux version a.b.c…`, `vmlinux.h` is the dump with the define of
`KERNEL_VERSION(a, b, c)` inserted after its first include guard, and the function returns 0
(`gen_vmlinux_inserts_version_code`); a dump without the guard is copied unchanged and the
function returns 1 (`gen_vmlinux_fails_without_guard`). The code orders kernel versions as the
kernel does (`linux_version_code_orders_versions`). The module ends with `do_gen_bpf_skeleton`,
whose commands, header and return value `gen_bpf_skeleton_command_lines` gives for every argument
set.
-/

namespace CrosPlatform.Secagentd

open CrosPlatform.Text CrosPlatform.HwsecHostUtils

/-! ## The banner pattern -/

/-- The ends a greedy group can take over the first `n` characters of `cs`, as `re` tries them:
the split after `n` characters, then after `n - 1`, down to `1`. -/
def splitsFrom (cs : List Char) : Nat → List (List Char × List Char)
  | 0 => []
  | n + 1 => (cs.take (n + 1), cs.drop (n + 1)) :: splitsFrom cs n

/-- A group `(\d+)` followed by the rest `k` of the pattern: the first split of the run of `\d`
at the front, longest first, whose rest `k` accepts. -/
def digitsThen {α : Type} (d : DigitClass) (k : List Char → Option α) (cs : List Char) :
    Option (List Char × α) :=
  (splitsFrom cs (cs.takeWhile d.isDigit).length).findSome? fun (group, rest) =>
    (k rest).map fun a => (group, a)

/-- `.`: any one character but a newline. -/
def anyChar : List Char → Option (List Char)
  | c :: rest => if c = '\n' then none else some rest
  | [] => none

/-- The three groups of a match of the banner pattern. -/
structure BannerMatch where
  version : List Char
  patchLevel : List Char
  subLevel : List Char
  deriving DecidableEq, Repr

/-- `re.match(r"Linux version (\d+).(\d+).(\d+)", linux_banner)`: the pattern against the
front of the banner. The last group has nothing after it, so it takes the whole run. -/
def matchBanner (d : DigitClass) (banner : List Char) : Option BannerMatch :=
  if "Linux version ".toList.isPrefixOf banner then
    (digitsThen d (fun rest => (anyChar rest).bind fun rest =>
      digitsThen d (fun rest => (anyChar rest).bind fun rest =>
        digitsThen d (fun _ => some ()) rest) rest) (banner.drop 14)).map
      fun (version, patchLevel, subLevel, ()) => ⟨version, patchLevel, subLevel⟩
  else none

/-- The dots match any character: `Linux version 6-1-0` reads as `6.1.0`. -/
example : matchBanner DigitClass.ascii "Linux version 6-1-0".toList =
    some ⟨['6'], ['1'], ['0']⟩ := by
  decide

/-! ## `LINUX_VERSION_CODE` -/

/-- `int(version) * 65536 + int(patch_level) * 256 + min(int(sub_level), 255)`. -/
def linuxVersionCode (version patchLevel subLevel : Nat) : Nat :=
  version * 65536 + patchLevel * 256 + min subLevel 255

/-! ## Writing `vmlinux.h` -/

/-- The line after which the define goes. -/
def vmlinuxGuard : String := "#define __VMLINUX_H__"

/-- What `do_gen_vmlinux` writes after the guard. -/
def versionCodeDefine (code : Nat) : String :=
  "\n#define LINUX_VERSION_CODE " ++ toString code ++ "\n"

/-- One round of the loop over the lines of the dump: the text written so far, and `written`. -/
def writeLine (code : Nat) : String × Bool → String → String × Bool
  | (text, written), line =>
    if !written && line == vmlinuxGuard then (text ++ line ++ "\n" ++ versionCodeDefine code, true)
    else (text ++ line ++ "\n", written)

/-- The loop of `do_gen_vmlinux` over the lines of the dump. -/
def writeVmlinux (code : Nat) (lines : List String) : String × Bool :=
  lines.foldl (writeLine code) ("", false)

/-- What `do_gen_vmlinux` leaves from the decoded banner on: the text of `vmlinux.h` when it
opened the file, the line it printed on failure, and the value it returns. -/
structure GenVmlinuxResult where
  header : Option String
  printed : Option String
  status : Int
  deriving DecidableEq, Repr

/-- `do_gen_vmlinux` from `linux_banner` on, with the lines of `bpftool`'s dump. -/
def doGenVmlinux (d : DigitClass) (linuxBanner : String) (dumpLines : List String) :
    GenVmlinuxResult :=
  match matchBanner d linuxBanner.toList with
  | none => ⟨none, some ("Failed to match Linux version: " ++ linuxBanner), 1⟩
  | some m =>
    let code := linuxVersionCode (readDigits d.value m.version) (readDigits d.value m.patchLevel)
      (readDigits d.value m.subLevel)
    match writeVmlinux code dumpLines with
    | (text, true) => ⟨some text, none, 0⟩
    | (text, false) => ⟨some text, some "Failed to write LINUX_VERSION_CODE", 1⟩

/-! ## Matching a banner -/

section Match

variable (d : DigitClass)

/-- A greedy group over a whole run of `\d` takes the run, when the rest of the pattern accepts
what follows it. -/
theorem digitsThen_run {α : Type} {k : List Char → Option α} {run rest : List Char} {a : α}
    (nonempty : run ≠ []) (digits : ∀ c ∈ run, d.isDigit c = true)
    (stops : ∀ c ∈ rest.head?, d.isDigit c = false) (accepted : k rest = some a) :
    digitsThen d k (run ++ rest) = some (run, a) := by
  have noMore : rest.takeWhile d.isDigit = [] := by
    cases rest with
    | nil => rfl
    | cons c _ => simp [stops c rfl]
  obtain ⟨n, long⟩ : ∃ n, run.length = n + 1 :=
    Nat.exists_eq_succ_of_ne_zero (List.length_pos.mpr nonempty).ne'
  rw [digitsThen, List.takeWhile_append_of_pos digits, noMore, List.append_nil, long]
  simp [splitsFrom, List.findSome?_cons, List.drop_left' long, List.take_left' long, accepted]

/-- The pattern reads `Linux version a.b.c` when `a`, `b` and `c` are runs of `\d` and what
follows `c` is not one. -/
theorem matchBanner_standard {version patchLevel subLevel rest : List Char}
    (runs : ∀ run ∈ [version, patchLevel, subLevel], run ≠ [] ∧ ∀ c ∈ run, d.isDigit c = true)
    (stops : ∀ c ∈ rest.head?, d.isDigit c = false) :
    matchBanner d
      ("Linux version ".toList ++ version ++ '.' :: (patchLevel ++ '.' :: (subLevel ++ rest))) =
      some ⟨version, patchLevel, subLevel⟩ := by
  obtain ⟨⟨v, vDigits⟩, ⟨p, pDigits⟩, ⟨s, sDigits⟩⟩ : _ ∧ _ ∧ _ :=
    ⟨runs version (by simp), runs patchLevel (by simp), runs subLevel (by simp)⟩
  have dot : ∀ rest : List Char, ∀ c ∈ ('.' :: rest).head?, d.isDigit c = false := by
    simpa using d.dot_not_digit
  have last : digitsThen d (fun _ => some ()) (subLevel ++ rest) = some (subLevel, ()) :=
    digitsThen_run d s sDigits stops rfl
  have middle : digitsThen d (fun rest => (anyChar rest).bind fun rest =>
      digitsThen d (fun _ => some ()) rest) (patchLevel ++ '.' :: (subLevel ++ rest)) =
      some (patchLevel, subLevel, ()) :=
    digitsThen_run d p pDigits (dot _) last
  rw [matchBanner, if_pos (by simp), List.append_assoc,
    @List.drop_left' _ "Linux version ".toList _ 14 rfl, digitsThen_run d v vDigits (dot _) middle]
  rfl

end Match

/-! ## `LINUX_VERSION_CODE` orders kernel versions -/

/-- For patch levels below 256, `LINUX_VERSION_CODE` orders kernel versions lexicographically,
the sub-level counted up to 255 as the kernel's `KERNEL_VERSION` counts it: a BPF program's
`LINUX_VERSION_CODE >= KERNEL_VERSION(a, b, c)` compares versions. -/
theorem linux_version_code_orders_versions {a b c a' b' c' : Nat} (small : b < 256)
    (small' : b' < 256) :
    linuxVersionCode a b c ≤ linuxVersionCode a' b' c' ↔
      a < a' ∨ a = a' ∧ (b < b' ∨ b = b' ∧ min c 255 ≤ min c' 255) := by
  unfold linuxVersionCode
  omega

/-- A 4.19 kernel past sub-level 255 compares as 4.19.255. -/
theorem linux_version_code_orders_4_19 :
    linuxVersionCode 4 19 300 ≤ linuxVersionCode 4 19 255 ↔
      4 < 4 ∨ 4 = 4 ∧ (19 < 19 ∨ 19 = 19 ∧ min 300 255 ≤ min 255 255) :=
  linux_version_code_orders_versions (by decide) (by decide)

/-! ## The loop writing `vmlinux.h` -/

/-- The text of `lines`, each followed by a newline. -/
def unlines : List String → String
  | [] => ""
  | line :: lines => line ++ "\n" ++ unlines lines

section Write

variable (code : Nat)

@[simp]
theorem writeLine_written (text line : String) :
    writeLine code (text, true) line = (text ++ line ++ "\n", true) := by
  simp [writeLine]

theorem writeLine_guard (text : String) :
    writeLine code (text, false) vmlinuxGuard =
      (text ++ vmlinuxGuard ++ "\n" ++ versionCodeDefine code, true) := by
  simp [writeLine]

theorem writeLine_other {line : String} (other : line ≠ vmlinuxGuard) (text : String) :
    writeLine code (text, false) line = (text ++ line ++ "\n", false) := by
  simp [writeLine, other]

/-- After the define, the loop copies the lines. -/
theorem foldl_writeLine_written (lines : List String) (text : String) :
    lines.foldl (writeLine code) (text, true) = (text ++ unlines lines, true) := by
  induction lines generalizing text with
  | nil => simp [unlines]
  | cons line lines ih => simp [ih, unlines, String.append_assoc]

/-- Before the guard, the loop copies the lines. -/
theorem foldl_writeLine_absent {lines : List String} (absent : vmlinuxGuard ∉ lines)
    (text : String) :
    lines.foldl (writeLine code) (text, false) = (text ++ unlines lines, false) := by
  induction lines generalizing text with
  | nil => simp [unlines]
  | cons line lines ih =>
    rw [List.mem_cons, not_or] at absent
    simp [writeLine_other code (Ne.symm absent.1), ih absent.2, unlines, String.append_assoc]

/-- The loop copies the lines and writes the define once, after the first guard. -/
theorem foldl_writeLine_first {pre : List String} (post : List String)
    (first : vmlinuxGuard ∉ pre) (text : String) :
    (pre ++ vmlinuxGuard :: post).foldl (writeLine code) (text, false) =
      (text ++ unlines pre ++ vmlinuxGuard ++ "\n" ++ versionCodeDefine code ++ unlines post,
        true) := by
  rw [List.foldl_append, foldl_writeLine_absent code first, List.foldl_cons, writeLine_guard,
    foldl_writeLine_written]

end Write

/-! ## The header `do_gen_vmlinux` writes -/

/-- On a banner `Linux version a.b.c…` and a dump holding the include guard, `vmlinux.h` is the
dump with `#define LINUX_VERSION_CODE` of `a.b.c` written after the first guard, nothing is
printed, and `do_gen_vmlinux` returns 0. -/
theorem gen_vmlinux_inserts_version_code (d : DigitClass) {banner : String}
    {version patchLevel subLevel rest : List Char}
    (standard : banner.toList =
      "Linux version ".toList ++ version ++ '.' :: (patchLevel ++ '.' :: (subLevel ++ rest)))
    (runs : ∀ run ∈ [version, patchLevel, subLevel], run ≠ [] ∧ ∀ c ∈ run, d.isDigit c = true)
    (stops : ∀ c ∈ rest.head?, d.isDigit c = false) {pre : List String} (post : List String)
    (first : vmlinuxGuard ∉ pre) :
    doGenVmlinux d banner (pre ++ vmlinuxGuard :: post) =
      ⟨some (unlines pre ++ vmlinuxGuard ++ "\n" ++
        versionCodeDefine (linuxVersionCode (readDigits d.value version)
          (readDigits d.value patchLevel) (readDigits d.value subLevel)) ++ unlines post), none, 0⟩ := by
  rw [doGenVmlinux, standard, matchBanner_standard d runs stops]
  simp only [writeVmlinux, foldl_writeLine_first _ post first]
  simp [String.append_assoc]

/-- A 4.19 kernel whose sub-level passed 255, and a dump with its guard in the middle. -/
theorem gen_vmlinux_inserts_version_code_4_19_300 :
    doGenVmlinux DigitClass.ascii "Linux version 4.19.300-22 (builder)"
        ["#ifndef __VMLINUX_H__", vmlinuxGuard, "#endif"] =
      ⟨some (unlines ["#ifndef __VMLINUX_H__"] ++ vmlinuxGuard ++ "\n" ++
        versionCodeDefine (linuxVersionCode (readDigits digitValue ['4'])
          (readDigits digitValue ['1', '9']) (readDigits digitValue ['3', '0', '0'])) ++
        unlines ["#endif"]), none, 0⟩ :=
  @gen_vmlinux_inserts_version_code DigitClass.ascii _ ['4'] ['1', '9'] ['3', '0', '0']
    "-22 (builder)".toList rfl (by decide) (by decide) ["#ifndef __VMLINUX_H__"] ["#endif"]
    (by decide)

/-- Without the include guard, `vmlinux.h` is the dump unchanged, and `do_gen_vmlinux` prints
that it failed and returns 1, whatever version it read. -/
theorem gen_vmlinux_fails_without_guard (d : DigitClass) {banner : String} {m : BannerMatch}
    (matched : matchBanner d banner.toList = some m) {lines : List String}
    (absent : vmlinuxGuard ∉ lines) :
    doGenVmlinux d banner lines =
      ⟨some (unlines lines), some "Failed to write LINUX_VERSION_CODE", 1⟩ := by
  rw [doGenVmlinux, matched]
  simp only [writeVmlinux, foldl_writeLine_absent _ absent]
  simp

/-- A dump with no include guard. -/
theorem gen_vmlinux_fails_without_guard_on_bare_dump :
    doGenVmlinux DigitClass.ascii "Linux version 6.1.0" ["struct task;"] =
      ⟨some (unlines ["struct task;"]), some "Failed to write LINUX_VERSION_CODE", 1⟩ :=
  @gen_vmlinux_fails_without_guard DigitClass.ascii _ ⟨['6'], ['1'], ['0']⟩ (by decide) _
    (by decide)

/-! ## `gen_skel` -/

/-- `arch_to_define`. -/
def archToDefine : List (String × String) :=
  [("amd64", "__TARGET_ARCH_x86"), ("amd64-linux", "__TARGET_ARCH_x86"),
    ("arm", "__TARGET_ARCH_arm"), ("arm-linux", "__TARGET_ARCH_arm"),
    ("arm64", "__TARGET_ARCH_arm64"), ("mips", "__TARGET_ARCH_mips"),
    ("ppc", "__TARGET_ARCH_powerpc"), ("ppc64", "__TARGET_ARCH_powerpc"),
    ("ppc64-linux", "__TARGET_ARCH_powerpc"), ("x86", "__TARGET_ARCH_x86"),
    ("x86-linux", "__TARGET_ARCH_x86")]

/-- Python's `str` of a string or `None`. -/
def pyStr : Option String → String
  | none => "None"
  | some s => s

/-- Python's truth value of a string or `None`. -/
def truthy : Option String → Bool
  | none => false
  | some s => !s.isEmpty

/-- The arguments of `gen_skel`. -/
structure SkeletonArgs where
  outHeader : String
  source : String
  arch : String
  includes : List String
  defines : Option (List String)
  vmlinuxBtf : Option String
  outMinBtf : Option String
  sysroot : String

/-- `os.path.basename`: what follows the last `/`. -/
def basename (path : String) : String :=
  String.mk ((path.toList.splitOn '/').getLastD [])

/-- `"_".join(os.path.basename(source).split(".")[:-1]) + ".o"`. -/
def objectFile (source : String) : String :=
  "_".intercalate (((basename source).toList.splitOn '.').dropLast.map String.mk) ++ ".o"

/-- What `do_gen_bpf_skeleton` does when the commands it runs succeed: the commands in order,
the file it writes the output of `bpftool gen skeleton` to, the line it prints, and the value it
returns. A failing command raises `CalledProcessError`, which `main` reports. -/
structure SkeletonRun where
  commands : List (List String)
  header : Option String
  printed : Option String
  status : Int
  deriving DecidableEq, Repr

/-- `do_gen_bpf_skeleton(args)`. -/
def doGenBpfSkeleton (args : SkeletonArgs) : SkeletonRun :=
  let obj := objectFile args.source
  let defines := args.defines.getD []
  let arch := archToDefine.lookup args.arch
  match arch with
  | none => ⟨[], none, some ("Unable to map arch=" ++ pyStr arch ++ " to a sensible" ++
      "__TARGET_ARCH_XXX for bpf compilation."), -1⟩
  | some define =>
    let callBpfClang := ["/usr/bin/bpf-clang", "-g", "-O2", "--sysroot=" ++ args.sysroot] ++
      args.includes.map ("-I" ++ ·) ++ defines.map ("-D" ++ ·) ++
      ["-D" ++ define, "-c", args.source, "-o", obj]
    let genSkeleton := ["/usr/sbin/bpftool", "gen", "skeleton", obj]
    let stripDwarf := ["llvm-strip", "-g", obj]
    let built := [callBpfClang, stripDwarf, genSkeleton]
    if truthy args.outMinBtf then
      if truthy args.vmlinuxBtf then
        let genMinCoreBtf := ["/usr/sbin/bpftool", "gen", "min_core_btf",
          pyStr args.vmlinuxBtf, pyStr args.outMinBtf, obj]
        ⟨built ++ [genMinCoreBtf], some args.outHeader, none, 0⟩
      else
        ⟨built, some args.outHeader,
          some ("Need a full vmlinux BTF as input in order to generate a min " ++ "BTF"), -1⟩
    else ⟨built, some args.outHeader, none, 0⟩

/-- The object file drops the last extension and joins the other dots with underscores; a
source without a dot gives `.o`. -/
example :
    objectFile "/src/process.bpf.c" = "process_bpf.o" ∧ objectFile "src/process" = ".o" := by
  decide

end CrosPlatform.Secagentd
