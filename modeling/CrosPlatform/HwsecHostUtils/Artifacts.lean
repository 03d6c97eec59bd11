import CrosPlatform.HwsecHostUtils.Version

/-!
# Where the cross-version login script reads images and writes its data

For each board and version it is given, `prepare_cross_version_login_data.py` downloads the VM
image at `ImageInfo.gs_url()` and, at the end of `run`, `upload_data` copies the data snapshot to
`gs://chromiumos-test-assets-public/.../<version>_<board>_<date>_data.tar.gz`, a public bucket
shared by every run. Both names are f-strings of `str(version)` and the board name.

A version prints with no `_` and no `/`, and prints back to itself through `parse_version`, so
the first `_` of a name ends the version and, the date having eight digits, the rest splits
into board and date: no two runs on distinct boards, versions or days write the same object, and
distinct images are read from distinct URLs.

The commands that copy, list and upload, the temporary directory and the local paths are left
out.
-/

namespace CrosPlatform.HwsecHostUtils

open CrosPlatform.Text

/-- `Board`: a board name, and the hardware security module `--hsms` picked it for. -/
structure Board where
  hsm : Option String
  name : String
  deriving DecidableEq, Repr

/-- `ImageInfo`: one board at one version. -/
structure ImageInfo where
  board : Board
  version : Version
  deriving DecidableEq, Repr

/-- `board_gs_dir(board)`. -/
def boardGsDir (board : String) : String :=
  if board.endsWith "-generic" then "gs://chromiumos-image-archive/" ++ board ++ "-vm-public"
  else "gs://chromeos-image-archive/" ++ board ++ "-release"

/-- `ImageInfo.gs_url()`: a custom build comes from the folder developers fill by hand, the
others from the board's build folder. -/
def ImageInfo.gsUrl (info : ImageInfo) : String :=
  if !info.version.custombuild.isEmpty then
    "gs://chromeos-test-assets-private/tast/cros/hwsec/" ++ "cross_version_login/custombuilds/" ++
      toString info.version ++ "_" ++ info.board.name ++ ".tar.xz"
  else
    boardGsDir info.board.name ++ "/" ++ toString info.version ++ "/chromiumos_test_image.tar.xz"

/-- The `prefix` of `upload_data` on `date`, `time.strftime("%Y%m%d")`. -/
def uploadPrefix (board : String) (version : Version) (date : String) : String :=
  toString version ++ "_" ++ board ++ "_" ++ date

/-- The `gs_url` `upload_data` copies the data snapshot to. -/
def dataGsUrl (board : String) (version : Version) (date : String) : String :=
  "gs://chromiumos-test-assets-public/tast/cros/hwsec/" ++ "cross_version_login/" ++
    (uploadPrefix board version date ++ "_data.tar.gz")

/-! ## Printed versions -/

/-- A version that `Version.__str__` prints in the form of the version pattern: natural-number
fields and an accepted suffix, as every version `parse_version` reads with ASCII digits. -/
structure Version.Printable (v : Version) : Prop where
  milestone : 0 ≤ v.milestone
  major : 0 ≤ v.major
  minor : 0 ≤ v.minor
  patch : 0 ≤ v.patch
  custombuild : ValidCustombuild v.custombuild

/-- Printed versions are told apart by their strings, `parse_version` reading each back. -/
theorem Version.Printable.toString_inj {v₁ v₂ : Version} (printable₁ : v₁.Printable)
    (printable₂ : v₂.Printable) (same : toString v₁ = toString v₂) : v₁ = v₂ := by
  have back (v : Version) (printable : v.Printable) :=
    parseVersion_toString DigitClass.ascii v printable.milestone printable.major printable.minor
      printable.patch printable.custombuild
  exact Except.ok.inj ((back v₁ printable₁).symm.trans (same ▸ back v₂ printable₂))

/-- A printed version holds only digits, the separators of the pattern and the letters of
`-custombuild`. -/
theorem Version.Printable.not_mem_toString {v : Version} (printable : v.Printable) {c : Char}
    (notDigit : c.isDigit = false) (notSeparator : c ∉ ['R', '-', '.'])
    (notSuffix : c ∉ "-custombuild".toList) : c ∉ (toString v).toList := by
  have digits (n : Nat) : c ∉ Nat.toDigits 10 n := fun mem => by
    simp [isDigit_of_mem_toDigits n c mem] at notDigit
  have suffix : c ∉ v.custombuild.toList := by
    rcases printable.custombuild with empty | ⟨ascii, spelled, -, isDigit⟩
    · simp [empty]
    · rw [spelled, List.mem_append, not_or]
      exact ⟨notSuffix, fun mem => by simp [isDigit c mem] at notDigit⟩
  simp only [List.mem_cons, List.mem_singleton, List.not_mem_nil, or_false, not_or] at notSeparator
  rw [toString_version_toList v printable.milestone printable.major printable.minor
    printable.patch]
  simpa [digits, notSeparator] using suffix

theorem Version.Printable.underscore_not_mem {v : Version} (printable : v.Printable) :
    '_' ∉ (toString v).toList :=
  printable.not_mem_toString (by decide) (by decide) (by decide)

theorem Version.Printable.slash_not_mem {v : Version} (printable : v.Printable) :
    '/' ∉ (toString v).toList :=
  printable.not_mem_toString (by decide) (by decide) (by decide)

/-! ## Splitting names -/

section Split

variable {α : Type}

/-- Two lists split at their first `c` agree when their splits do. -/
theorem append_cons_inj_of_not_mem_left {c : α} :
    ∀ {x₁ x₂ z₁ z₂ : List α}, c ∉ x₁ → c ∉ x₂ → x₁ ++ c :: z₁ = x₂ ++ c :: z₂ →
      x₁ = x₂ ∧ z₁ = z₂
  | [], [], _, _, _, _, same => ⟨rfl, List.cons.inj same |>.2⟩
  | [], a :: _, _, _, _, notIn₂, same => absurd (List.cons.inj same).1.symm fun h =>
      notIn₂ (h ▸ List.mem_cons_self _ _)
  | a :: _, [], _, _, notIn₁, _, same => absurd (List.cons.inj same).1 fun h =>
      notIn₁ (h ▸ List.mem_cons_self _ _)
  | a :: x₁, b :: x₂, _, _, notIn₁, notIn₂, same => by
    obtain ⟨rfl, rest⟩ := List.cons.inj same
    obtain ⟨rfl, rfl⟩ := append_cons_inj_of_not_mem_left (fun mem => notIn₁ (.tail _ mem))
      (fun mem => notIn₂ (.tail _ mem)) rest
    exact ⟨rfl, rfl⟩

/-- Two lists split at their last `c` agree when their splits do. -/
theorem append_singleton_inj_of_not_mem {c : α} {x₁ x₂ z₁ z₂ : List α} (notIn₁ : c ∉ z₁)
    (notIn₂ : c ∉ z₂) (same : x₁ ++ [c] ++ z₁ = x₂ ++ [c] ++ z₂) :
    x₁ = x₂ ∧ z₁ = z₂ := by
  have reversed := congrArg List.reverse same
  simp only [List.reverse_append, List.reverse_cons, List.reverse_nil, List.nil_append,
    List.append_assoc, List.singleton_append] at reversed
  obtain ⟨zs, xs⟩ := append_cons_inj_of_not_mem_left (by simpa using notIn₁)
    (by simpa using notIn₂) reversed
  exact ⟨List.reverse_injective xs, List.reverse_injective zs⟩

/-- Lists whose fronts differ within `n` differ. -/
theorem append_ne_of_take_ne {p₁ p₂ x₁ x₂ : List α} (n : Nat) (long₁ : n ≤ p₁.length)
    (long₂ : n ≤ p₂.length) (differ : p₁.take n ≠ p₂.take n) :
    p₁ ++ x₁ ≠ p₂ ++ x₂ := by
  intro same
  have fronts := congrArg (List.take n) same
  rw [List.take_append_of_le_length long₁, List.take_append_of_le_length long₂] at fronts
  exact differ fronts

end Split

/-! ## Upload names -/

/-- Two uploads on distinct boards, versions or days of printed versions and eight-digit dates go
to distinct objects of the shared bucket: no run overwrites another's data. -/
theorem upload_urls_distinct {board₁ board₂ date₁ date₂ : String}
    {version₁ version₂ : Version}
    (printable₁ : version₁.Printable) (printable₂ : version₂.Printable)
    (eight₁ : date₁.length = 8) (eight₂ : date₂.length = 8)
    (differ : (board₁, version₁, date₁) ≠ (board₂, version₂, date₂)) :
    dataGsUrl board₁ version₁ date₁ ≠ dataGsUrl board₂ version₂ date₂ := by
  intro same
  apply differ
  have chars := congrArg String.toList same
  simp only [dataGsUrl, uploadPrefix, toList_append, List.append_assoc, List.append_cancel_left_eq,
    show ("_" : String).toList = ['_'] from rfl, List.singleton_append] at chars
  obtain ⟨versions, rest⟩ := append_cons_inj_of_not_mem_left printable₁.underscore_not_mem
    printable₂.underscore_not_mem chars
  obtain ⟨boards, dates⟩ := List.append_inj' rest (by simp [eight₁, eight₂])
  rw [String.toList_inj] at versions boards
  rw [printable₁.toString_inj printable₂ versions, boards,
    String.toList_inj.mp (List.append_cancel_right (List.cons.inj dates).2)]

/-- Two runs on distinct boards. -/
theorem upload_urls_distinct_on_two_boards :
    dataGsUrl "betty" ⟨100, 14526, 89, 0, ""⟩ "20240130" ≠
      dataGsUrl "betty_arc" ⟨100, 14526, 89, 0, ""⟩ "20240130" :=
  upload_urls_distinct ⟨by decide, by decide, by decide, by decide, .inl rfl⟩
    ⟨by decide, by decide, by decide, by decide, .inl rfl⟩ rfl rfl (by decide)

/-! ## Image URLs -/

/-- The folders `gs_url` reads an image from: custom builds, or the build folder of a
`-generic` board or of another board. -/
inductive ImageFolder where
  | custombuilds
  | generic
  | release
  deriving DecidableEq, Repr

/-- The folder an image is read from. -/
def ImageInfo.folder (info : ImageInfo) : ImageFolder :=
  if !info.version.custombuild.isEmpty then .custombuilds
  else if info.board.name.endsWith "-generic" then .generic else .release

/-- The front of a URL, which only names the folder. -/
def ImageFolder.front : ImageFolder → String
  | custombuilds => "gs://chromeos-test-assets-private/tast/cros/hwsec/" ++
      "cross_version_login/custombuilds/"
  | generic => "gs://chromiumos-image-archive/"
  | release => "gs://chromeos-image-archive/"

/-- The rest of a URL, from the board name and the version string. -/
def ImageFolder.rest : ImageFolder → String → String → String
  | custombuilds, board, version => version ++ "_" ++ board ++ ".tar.xz"
  | generic, board, version =>
    board ++ "-vm-public" ++ "/" ++ version ++ "/chromiumos_test_image.tar.xz"
  | release, board, version =>
    board ++ "-release" ++ "/" ++ version ++ "/chromiumos_test_image.tar.xz"

theorem gsUrl_eq (info : ImageInfo) :
    info.gsUrl = info.folder.front ++ info.folder.rest info.board.name (toString info.version) := by
  unfold ImageInfo.gsUrl ImageInfo.folder boardGsDir
  split_ifs <;> simp only [ImageFolder.front, ImageFolder.rest, String.append_assoc]

/-- The fronts of two folders differ within their first sixteen characters. -/
theorem front_append_ne {folder₁ folder₂ : ImageFolder} (differ : folder₁ ≠ folder₂)
    (rest₁ rest₂ : String) : folder₁.front ++ rest₁ ≠ folder₂.front ++ rest₂ := by
  intro same
  have chars := congrArg String.toList same
  rw [toList_append, toList_append] at chars
  cases folder₁ <;> cases folder₂ <;>
    first
    | exact differ rfl
    | exact append_ne_of_take_ne 16 (by decide) (by decide) (by decide) chars

/-- In each folder, the rest of a URL gives back the board and a version with no `_` and no
`/`. -/
theorem rest_inj (folder : ImageFolder) {board₁ board₂ version₁ version₂ : String}
    (clean₁ : '_' ∉ version₁.toList ∧ '/' ∉ version₁.toList)
    (clean₂ : '_' ∉ version₂.toList ∧ '/' ∉ version₂.toList)
    (same : folder.rest board₁ version₁ = folder.rest board₂ version₂) :
    board₁ = board₂ ∧ version₁ = version₂ := by
  have chars := congrArg String.toList same
  simp only [← String.toList_inj]
  cases folder with
  | custombuilds =>
    simp only [ImageFolder.rest, toList_append, List.append_assoc,
      show ("_" : String).toList = ['_'] from rfl, List.singleton_append] at chars
    obtain ⟨versions, rest⟩ := append_cons_inj_of_not_mem_left clean₁.1 clean₂.1 chars
    exact ⟨List.append_cancel_right rest, versions⟩
  | generic | release =>
    simp only [ImageFolder.rest, toList_append] at chars
    obtain ⟨boards, versions⟩ :=
      append_singleton_inj_of_not_mem clean₁.2 clean₂.2 (List.append_cancel_right chars)
    exact ⟨List.append_cancel_right boards, versions⟩

/-- Distinct images of printed versions are read from distinct URLs: each board and version
downloads its own image. -/
theorem image_urls_distinct {info₁ info₂ : ImageInfo} (printable₁ : info₁.version.Printable)
    (printable₂ : info₂.version.Printable)
    (differ : (info₁.board.name, info₁.version) ≠ (info₂.board.name, info₂.version)) :
    info₁.gsUrl ≠ info₂.gsUrl := by
  rw [gsUrl_eq, gsUrl_eq]
  intro same
  by_cases folders : info₁.folder = info₂.folder
  · have chars := congrArg String.toList same
    rw [folders, toList_append, toList_append] at chars
    obtain ⟨boards, versions⟩ := rest_inj info₂.folder
      ⟨printable₁.underscore_not_mem, printable₁.slash_not_mem⟩
      ⟨printable₂.underscore_not_mem, printable₂.slash_not_mem⟩
      (String.toList_inj.mp (List.append_cancel_left chars))
    exact differ (by rw [boards, printable₁.toString_inj printable₂ versions])
  · exact front_append_ne folders _ _ same

/-- The same version on a board and on its `-generic` variant. -/
theorem image_urls_distinct_generic :
    ImageInfo.gsUrl ⟨⟨none, "betty"⟩, ⟨100, 14526, 89, 0, ""⟩⟩ ≠
      ImageInfo.gsUrl ⟨⟨none, "betty-generic"⟩, ⟨100, 14526, 89, 0, ""⟩⟩ :=
  image_urls_distinct ⟨by decide, by decide, by decide, by decide, .inl rfl⟩
    ⟨by decide, by decide, by decide, by decide, .inl rfl⟩ (by decide)

end CrosPlatform.HwsecHostUtils
