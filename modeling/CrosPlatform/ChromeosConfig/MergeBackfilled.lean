import Mathlib.Data.List.Nodup
import Mathlib.Data.String.Basic

/-!
# Merging a backfilled ConfigBundle

`cros_config_merge_backfilled_config.py` merges a ConfigBundle generated from external data
sources (the "backfilled" bundle) into one generated from Starlark. For each of seven repeated
fields, `_merge_sequences_by_key` appends to the original sequence every backfilled element
whose key is not a key of the original.

The keys of the original are collected once, before anything is appended. The merged field
is the original followed by the backfilled elements with new keys, in their order; it keeps
its keys distinct exactly when those new elements do not repeat a key among themselves.
Merging the same backfilled bundle again changes nothing, and merging two backfilled bundles in
turn is merging in their merge.
-/

namespace CrosPlatform.ChromeosConfig

universe u

variable {M : Type u}

/-- `_merge_sequences_by_key`: the contents of `seq1` once the merge has appended to it. -/
def mergeSequencesByKey (seq1 seq2 : List M) (keyFn : M → String) : List M :=
  let seq1Keys := seq1.foldl (fun keys elem => keys.insert (keyFn elem)) []
  seq2.foldl (fun acc elem => if keyFn elem ∉ seq1Keys then acc ++ [elem] else acc) seq1

/-! ## The merge in closed form -/

theorem mem_foldl_insert (keyFn : M → String) (seq : List M) (keys : List String)
    (k : String) :
    k ∈ seq.foldl (fun keys elem => keys.insert (keyFn elem)) keys ↔
      k ∈ keys ∨ k ∈ seq.map keyFn := by
  induction seq generalizing keys with
  | nil => simp
  | cons elem rest ih =>
    simp only [List.foldl_cons, ih, List.mem_insert_iff, List.map_cons, List.mem_cons]
    tauto

theorem foldl_append_if (p : M → Prop) [DecidablePred p] (seq acc : List M) :
    seq.foldl (fun acc elem => if p elem then acc ++ [elem] else acc) acc =
      acc ++ seq.filter p := by
  induction seq generalizing acc with
  | nil => simp
  | cons elem rest ih =>
    by_cases keep : p elem <;> simp [ih, keep]

/-- The merged sequence is the original followed by the backfilled elements whose key the
original does not have. -/
theorem mergeSequencesByKey_eq (seq1 seq2 : List M) (keyFn : M → String) :
    mergeSequencesByKey seq1 seq2 keyFn =
      seq1 ++ seq2.filter fun elem => keyFn elem ∉ seq1.map keyFn := by
  unfold mergeSequencesByKey
  simp only [mem_foldl_insert, List.not_mem_nil, false_or]
  exact foldl_append_if _ seq2 seq1

/-! ## Keys of the merged sequence -/

section

variable (seq1 seq2 : List M) (keyFn : M → String)

theorem mem_keys_mergeSequencesByKey (k : String) :
    k ∈ (mergeSequencesByKey seq1 seq2 keyFn).map keyFn ↔
      k ∈ seq1.map keyFn ∨ k ∈ seq2.map keyFn := by
  rw [mergeSequencesByKey_eq]
  simp only [List.map_append, List.mem_append, List.mem_map, List.mem_filter,
    decide_eq_true_eq]
  constructor
  · rintro (old | ⟨elem, ⟨mem, -⟩, rfl⟩)
    · exact .inl old
    · exact .inr ⟨elem, mem, rfl⟩
  · rintro (old | ⟨elem, mem, rfl⟩)
    · exact .inl old
    · by_cases known : ∃ a ∈ seq1, keyFn a = keyFn elem
      · exact .inl known
      · exact .inr ⟨elem, ⟨mem, known⟩, rfl⟩

/-- The keys stay distinct when the original's keys and the backfilled keys are each
distinct. -/
theorem nodup_keys_mergeSequencesByKey (nodup1 : (seq1.map keyFn).Nodup)
    (nodup2 : (seq2.map keyFn).Nodup) :
    ((mergeSequencesByKey seq1 seq2 keyFn).map keyFn).Nodup := by
  rw [mergeSequencesByKey_eq, List.map_append, List.nodup_append]
  refine ⟨nodup1, ?_, ?_⟩
  · exact nodup2.sublist ((List.filter_sublist _).map keyFn)
  · intro k old new
    obtain ⟨elem, mem, rfl⟩ := List.mem_map.mp new
    exact (of_decide_eq_true (List.mem_filter.mp mem).2) old

end

/-! ## ConfigBundle -/

/-- An id message of the bundle (`PartnerId`, `ComponentId`, `DesignId`, ...): one `value`. -/
structure ProtoId where
  value : String
  deriving DecidableEq, Repr

/-- The element messages of the seven merged fields, each with the id field the merge reads.
Their other fields are carried along unread. -/
structure Partner where
  id : ProtoId
  deriving DecidableEq, Repr

structure Component where
  id : ProtoId
  deriving DecidableEq, Repr

structure Program where
  id : ProtoId
  deriving DecidableEq, Repr

structure Design where
  id : ProtoId
  deriving DecidableEq, Repr

structure DeviceBrand where
  id : ProtoId
  deriving DecidableEq, Repr

structure SoftwareConfig where
  designConfigId : ProtoId
  deriving DecidableEq, Repr

structure BrandConfig where
  brandId : ProtoId
  deriving DecidableEq, Repr

/-- The seven repeated fields of `ConfigBundle` that `merge_config_bundles` merges. -/
structure ConfigBundle where
  partnerList : List Partner
  components : List Component
  programList : List Program
  designList : List Design
  deviceBrandList : List DeviceBrand
  softwareConfigs : List SoftwareConfig
  brandConfigs : List BrandConfig
  deriving DecidableEq, Repr

/-- The key of each field, as the lambdas of `merge_config_bundles` compute it; `lower` is
Python's `str.lower`. -/
def Partner.key (p : Partner) : String := p.id.value
def Component.key (c : Component) : String := c.id.value
def Program.key (p : Program) : String := p.id.value
def Design.key (lower : String → String) (d : Design) : String := lower d.id.value
def DeviceBrand.key (db : DeviceBrand) : String := db.id.value
def SoftwareConfig.key (s : SoftwareConfig) : String := s.designConfigId.value
def BrandConfig.key (b : BrandConfig) : String := b.brandId.value

/-- `merge_config_bundles`: the original bundle once every field has been merged into. -/
def mergeConfigBundles (lower : String → String)
    (configBundle backfilledConfigBundle : ConfigBundle) : ConfigBundle where
  partnerList := mergeSequencesByKey configBundle.partnerList
    backfilledConfigBundle.partnerList Partner.key
  components := mergeSequencesByKey configBundle.components
    backfilledConfigBundle.components Component.key
  programList := mergeSequencesByKey configBundle.programList
    backfilledConfigBundle.programList Program.key
  designList := mergeSequencesByKey configBundle.designList
    backfilledConfigBundle.designList (Design.key lower)
  deviceBrandList := mergeSequencesByKey configBundle.deviceBrandList
    backfilledConfigBundle.deviceBrandList DeviceBrand.key
  softwareConfigs := mergeSequencesByKey configBundle.softwareConfigs
    backfilledConfigBundle.softwareConfigs SoftwareConfig.key
  brandConfigs := mergeSequencesByKey configBundle.brandConfigs
    backfilledConfigBundle.brandConfigs BrandConfig.key

/-- No merged field of the bundle repeats a key. -/
structure ConfigBundle.KeysDistinct (lower : String → String) (cb : ConfigBundle) : Prop where
  partnerList : (cb.partnerList.map Partner.key).Nodup
  components : (cb.components.map Component.key).Nodup
  programList : (cb.programList.map Program.key).Nodup
  designList : (cb.designList.map (Design.key lower)).Nodup
  deviceBrandList : (cb.deviceBrandList.map DeviceBrand.key).Nodup
  softwareConfigs : (cb.softwareConfigs.map SoftwareConfig.key).Nodup
  brandConfigs : (cb.brandConfigs.map BrandConfig.key).Nodup

/-- What the merge does: each merged sequence is the original followed by the backfilled
elements with new keys, its keys are the union of both key sets, and they are distinct when
both inputs' keys are; so each field that `merge_config_bundles` merges is free of repeated keys
when that field is in both bundles. -/
theorem merge_appends_elements_with_new_keys :
    (∀ (seq1 seq2 : List M) (keyFn : M → String),
      mergeSequencesByKey seq1 seq2 keyFn =
          seq1 ++ seq2.filter (fun elem => keyFn elem ∉ seq1.map keyFn) ∧
        (∀ k, k ∈ (mergeSequencesByKey seq1 seq2 keyFn).map keyFn ↔
          k ∈ seq1.map keyFn ∨ k ∈ seq2.map keyFn) ∧
        ((seq1.map keyFn).Nodup → (seq2.map keyFn).Nodup →
          ((mergeSequencesByKey seq1 seq2 keyFn).map keyFn).Nodup)) ∧
    ∀ (lower : String → String) (cb bf : ConfigBundle),
      ((cb.partnerList.map Partner.key).Nodup → (bf.partnerList.map Partner.key).Nodup →
        ((mergeConfigBundles lower cb bf).partnerList.map Partner.key).Nodup) ∧
      ((cb.components.map Component.key).Nodup → (bf.components.map Component.key).Nodup →
        ((mergeConfigBundles lower cb bf).components.map Component.key).Nodup) ∧
      ((cb.programList.map Program.key).Nodup → (bf.programList.map Program.key).Nodup →
        ((mergeConfigBundles lower cb bf).programList.map Program.key).Nodup) ∧
      ((cb.designList.map (Design.key lower)).Nodup →
        (bf.designList.map (Design.key lower)).Nodup →
        ((mergeConfigBundles lower cb bf).designList.map (Design.key lower)).Nodup) ∧
      ((cb.deviceBrandList.map DeviceBrand.key).Nodup →
        (bf.deviceBrandList.map DeviceBrand.key).Nodup →
        ((mergeConfigBundles lower cb bf).deviceBrandList.map DeviceBrand.key).Nodup) ∧
      ((cb.softwareConfigs.map SoftwareConfig.key).Nodup →
        (bf.softwareConfigs.map SoftwareConfig.key).Nodup →
        ((mergeConfigBundles lower cb bf).softwareConfigs.map SoftwareConfig.key).Nodup) ∧
      ((cb.brandConfigs.map BrandConfig.key).Nodup → (bf.brandConfigs.map BrandConfig.key).Nodup →
        ((mergeConfigBundles lower cb bf).brandConfigs.map BrandConfig.key).Nodup) :=
  ⟨fun seq1 seq2 keyFn => ⟨mergeSequencesByKey_eq seq1 seq2 keyFn,
      mem_keys_mergeSequencesByKey seq1 seq2 keyFn, nodup_keys_mergeSequencesByKey seq1 seq2 keyFn⟩,
    fun _ _ _ => ⟨nodup_keys_mergeSequencesByKey _ _ _, nodup_keys_mergeSequencesByKey _ _ _,
      nodup_keys_mergeSequencesByKey _ _ _, nodup_keys_mergeSequencesByKey _ _ _,
      nodup_keys_mergeSequencesByKey _ _ _, nodup_keys_mergeSequencesByKey _ _ _,
      nodup_keys_mergeSequencesByKey _ _ _⟩⟩

/-- Two backfilled designs whose ids differ only in case, neither of them in the original:
the original's keys are distinct, the backfilled ids are distinct, and the merged design list
still repeats a lower-cased key. -/
theorem merge_repeats_design_key_differing_in_case :
    let original : ConfigBundle := ⟨[], [], [], [], [], [], []⟩
    let backfilled : ConfigBundle := ⟨[], [], [], [⟨⟨"Foo"⟩⟩, ⟨⟨"foo"⟩⟩], [], [], []⟩
    original.KeysDistinct String.toLower ∧
      (backfilled.designList.map fun d => d.id.value).Nodup ∧
      ¬ ((mergeConfigBundles String.toLower original backfilled).designList.map
          (Design.key String.toLower)).Nodup := by
  refine ⟨⟨List.nodup_nil, List.nodup_nil, List.nodup_nil, List.nodup_nil, List.nodup_nil,
    List.nodup_nil, List.nodup_nil⟩, by decide, ?_⟩
  simp [mergeConfigBundles, mergeSequencesByKey_eq, Design.key, String.toLower, String.map_eq]

/-! ## Merging again -/

section Again

variable (keyFn : M → String)

/-- The keys of a merged sequence are those of either sequence. -/
theorem not_mem_keys_mergeSequencesByKey (seq1 seq2 : List M) (elem : M) :
    keyFn elem ∉ (mergeSequencesByKey seq1 seq2 keyFn).map keyFn ↔
      keyFn elem ∉ seq2.map keyFn ∧ keyFn elem ∉ seq1.map keyFn := by
  rw [mem_keys_mergeSequencesByKey, or_comm, not_or]

/-- Merging the same backfilled sequence again appends nothing. -/
theorem mergeSequencesByKey_idem (seq1 seq2 : List M) :
    mergeSequencesByKey (mergeSequencesByKey seq1 seq2 keyFn) seq2 keyFn =
      mergeSequencesByKey seq1 seq2 keyFn := by
  rw [mergeSequencesByKey_eq (mergeSequencesByKey seq1 seq2 keyFn), List.filter_eq_nil_iff.mpr,
    List.append_nil]
  intro elem mem
  simpa using (mem_keys_mergeSequencesByKey seq1 seq2 keyFn (keyFn elem)).mpr
    (.inr (List.mem_map_of_mem keyFn mem))

/-- Merging two backfilled sequences one after the other is merging in their merge. -/
theorem mergeSequencesByKey_assoc (seq1 seq2 seq3 : List M) :
    mergeSequencesByKey (mergeSequencesByKey seq1 seq2 keyFn) seq3 keyFn =
      mergeSequencesByKey seq1 (mergeSequencesByKey seq2 seq3 keyFn) keyFn := by
  rw [mergeSequencesByKey_eq (mergeSequencesByKey seq1 seq2 keyFn)]
  simp only [not_mem_keys_mergeSequencesByKey]
  rw [mergeSequencesByKey_eq seq1, mergeSequencesByKey_eq seq2, mergeSequencesByKey_eq seq1,
    List.filter_append, List.filter_filter, List.append_assoc]
  congr 3
  funext elem
  rw [Bool.decide_and, Bool.and_comm]

end Again

/-- Running the merge again on its own output with the same backfilled bundle changes
nothing. -/
theorem merge_again_changes_nothing (lower : String → String) (cb bf : ConfigBundle) :
    mergeConfigBundles lower (mergeConfigBundles lower cb bf) bf =
      mergeConfigBundles lower cb bf := by
  simp only [mergeConfigBundles, mergeSequencesByKey_idem]

/-- Merging two backfilled bundles one after the other is merging in the merge of the second
into the first. -/
theorem merge_backfills_in_turn (lower : String → String) (cb bf₁ bf₂ : ConfigBundle) :
    mergeConfigBundles lower (mergeConfigBundles lower cb bf₁) bf₂ =
      mergeConfigBundles lower cb (mergeConfigBundles lower bf₁ bf₂) := by
  simp only [mergeConfigBundles, mergeSequencesByKey_assoc]

end CrosPlatform.ChromeosConfig
