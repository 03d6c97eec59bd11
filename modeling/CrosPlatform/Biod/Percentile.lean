import Mathlib.Data.Rat.Floor
import Mathlib.Data.List.MinMax
import Mathlib.Tactic.Linarith

/-!
# Percentile confidence intervals of bootstrap results

`BootstrapResults.confidence_interval` in `bootstrap.py` returns
`np.percentile(samples, [(100 - c) / 2, 100 - (100 - c) / 2])`. NumPy's default `linear`
method sorts the values, places the percentile at the virtual index `(n - 1) * q`, and
interpolates between the order statistics on either side (`_get_indexes`, `_get_gamma` and
`_lerp` in NumPy's `_quantile`).

The model computes exactly in `ℚ`; NumPy computes in binary floating point. The interval is
monotone in the confidence level and brackets the median, which is the 50th percentile.
-/

namespace CrosPlatform.Biod

/-- NumPy's `_lerp`: `a + (b - a) * t`. -/
def lerp (a b t : ℚ) : ℚ := a + (b - a) * t

/-- `_get_indexes` and `_lerp` at a virtual index of the sorted values `arr`: below zero the
first value, at or past `n - 1` the last one (index `-1`), and otherwise the interpolation
between the floor of the index and the next one, with `gamma` the fractional part. -/
def interpolateAt (arr : List ℚ) (virtualIndex : ℚ) : ℚ :=
  if virtualIndex < 0 then arr.getD 0 0
  else if (arr.length : ℚ) - 1 ≤ virtualIndex then arr.getD (arr.length - 1) 0
  else
    lerp (arr.getD ⌊virtualIndex⌋₊ 0) (arr.getD (⌊virtualIndex⌋₊ + 1) 0)
      (virtualIndex - ⌊virtualIndex⌋₊)

/-- The replicate counts in ascending order, as `np.percentile` partitions them. -/
def sortedSamples (samples : List Int) : List ℚ :=
  (samples.mergeSort fun a b => decide (a ≤ b)).map fun x : Int => (x : ℚ)

/-- `np.percentile(samples, q)` with the default `linear` method, `q` in percent. NumPy
rejects a `q` outside `[0, 100]` and an empty sample; neither reaches this model from
`confidence_interval` at a confidence level in `[0, 100]`. The model computes the virtual index
and the interpolation in exact rationals, where NumPy computes them in `float64` and rounds
each: the results below are about the exact percentiles, which NumPy's agree with up to that
rounding only. Counts of `2^53` and more are not even held exactly, and there NumPy's lower
bound can fall below the smallest count. -/
def percentile (samples : List Int) (q : ℚ) : ℚ :=
  let arr := sortedSamples samples
  interpolateAt arr (((arr.length : ℚ) - 1) * (q / 100))

/-- `np.median`: the middle sorted value, or the mean of the two middle ones. -/
def median (samples : List Int) : ℚ :=
  let arr := sortedSamples samples
  if arr.length % 2 = 1 then arr.getD (arr.length / 2) 0
  else (arr.getD (arr.length / 2 - 1) 0 + arr.getD (arr.length / 2) 0) / 2

/-- The replicate counts of a bootstrap run. -/
structure BootstrapResults where
  samples : List Int

/-- `BootstrapResults.confidence_interval`: the two-sided percentile interval. -/
def BootstrapResults.confidenceInterval (results : BootstrapResults)
    (confidencePercent : ℚ) : ℚ × ℚ :=
  let ciPercentLower := (100 - confidencePercent) / 2
  let ciPercentUpper := 100 - ciPercentLower
  (percentile results.samples ciPercentLower, percentile results.samples ciPercentUpper)

/-! ## Interpolating sorted values -/

theorem lerp_mem_Icc {a b t : ℚ} (le : a ≤ b) (t0 : 0 ≤ t) (t1 : t ≤ 1) :
    a ≤ lerp a b t ∧ lerp a b t ≤ b := by
  unfold lerp
  constructor <;> nlinarith


section

variable {arr : List ℚ} (sorted : arr.Pairwise (· ≤ ·))
include sorted

theorem getD_mono {i j : Nat} (le : i ≤ j) (bound : j < arr.length) :
    arr.getD i 0 ≤ arr.getD j 0 := by
  rw [List.getD_eq_getElem _ _ (by omega), List.getD_eq_getElem _ _ bound]
  rcases Nat.eq_or_lt_of_le le with rfl | lt
  · exact le_rfl
  · exact List.pairwise_iff_getElem.mp sorted i j (by omega) bound lt

/-- Strictly inside the range of indices, the interpolation lies between the two order
statistics around the virtual index. -/
theorem interpolateAt_segment {h : ℚ} (nonneg : 0 ≤ h) (below : h < (arr.length : ℚ) - 1) :
    arr.getD ⌊h⌋₊ 0 ≤ interpolateAt arr h ∧ interpolateAt arr h ≤ arr.getD (⌊h⌋₊ + 1) 0 := by
  have floor_le : (⌊h⌋₊ : ℚ) ≤ h := Nat.floor_le nonneg
  have lt_floor : h < ⌊h⌋₊ + 1 := Nat.lt_floor_add_one h
  have next : ⌊h⌋₊ + 1 < arr.length := by
    have : (⌊h⌋₊ : ℚ) + 1 < arr.length := by linarith
    exact_mod_cast this
  rw [interpolateAt, if_neg (not_lt.mpr nonneg), if_neg (not_le.mpr below)]
  exact lerp_mem_Icc (getD_mono sorted (Nat.le_succ _) next) (by linarith) (by linarith)

theorem interpolateAt_le_last {h : ℚ} (nonneg : 0 ≤ h) :
    interpolateAt arr h ≤ arr.getD (arr.length - 1) 0 := by
  by_cases below : h < (arr.length : ℚ) - 1
  · have next : ⌊h⌋₊ + 1 < arr.length := by
      have : (⌊h⌋₊ : ℚ) + 1 < arr.length := by linarith [Nat.floor_le nonneg, Nat.lt_floor_add_one h]
      exact_mod_cast this
    exact (interpolateAt_segment sorted nonneg below).2.trans (getD_mono sorted (by omega) (by omega))
  · rw [interpolateAt, if_neg (not_lt.mpr nonneg), if_pos (not_lt.mp below)]

theorem first_le_interpolateAt {h : ℚ} (nonneg : 0 ≤ h) (nonempty : arr ≠ []) :
    arr.getD 0 0 ≤ interpolateAt arr h := by
  have positive : 0 < arr.length := List.length_pos.mpr nonempty
  by_cases below : h < (arr.length : ℚ) - 1
  · exact (getD_mono sorted (Nat.zero_le _) (by
      have : (⌊h⌋₊ : ℚ) < arr.length := by linarith [Nat.floor_le nonneg]
      exact_mod_cast this)).trans (interpolateAt_segment sorted nonneg below).1
  · rw [interpolateAt, if_neg (not_lt.mpr nonneg), if_pos (not_lt.mp below)]
    exact getD_mono sorted (Nat.zero_le _) (by omega)

/-- Interpolating sorted values is monotone in the virtual index. -/
theorem interpolateAt_mono {h₁ h₂ : ℚ} (nonneg : 0 ≤ h₁) (le : h₁ ≤ h₂) :
    interpolateAt arr h₁ ≤ interpolateAt arr h₂ := by
  by_cases below₂ : h₂ < (arr.length : ℚ) - 1
  · have below₁ : h₁ < (arr.length : ℚ) - 1 := lt_of_le_of_lt le below₂
    have floors : ⌊h₁⌋₊ ≤ ⌊h₂⌋₊ := Nat.floor_le_floor le
    rcases Nat.eq_or_lt_of_le floors with same | lt
    · have next : ⌊h₁⌋₊ + 1 < arr.length := by
        have : (⌊h₁⌋₊ : ℚ) + 1 < arr.length := by
          linarith [Nat.floor_le nonneg, Nat.lt_floor_add_one h₁]
        exact_mod_cast this
      rw [interpolateAt, if_neg (not_lt.mpr nonneg), if_neg (not_le.mpr below₁), interpolateAt,
        if_neg (not_lt.mpr (nonneg.trans le)), if_neg (not_le.mpr below₂), ← same]
      unfold lerp
      have rising := sub_nonneg.mpr (getD_mono sorted (Nat.le_succ ⌊h₁⌋₊) next)
      nlinarith
    · calc interpolateAt arr h₁ ≤ arr.getD (⌊h₁⌋₊ + 1) 0 := (interpolateAt_segment sorted nonneg below₁).2
        _ ≤ arr.getD ⌊h₂⌋₊ 0 := getD_mono sorted lt (by
            have : (⌊h₂⌋₊ : ℚ) < arr.length := by linarith [Nat.floor_le (nonneg.trans le)]
            exact_mod_cast this)
        _ ≤ interpolateAt arr h₂ := (interpolateAt_segment sorted (nonneg.trans le) below₂).1
  · calc interpolateAt arr h₁ ≤ arr.getD (arr.length - 1) 0 := interpolateAt_le_last sorted nonneg
      _ = interpolateAt arr h₂ := by
        rw [interpolateAt, if_neg (not_lt.mpr (nonneg.trans le)), if_pos (not_lt.mp below₂)]

end

/-! ## Percentiles of the replicate counts -/

theorem sortedSamples_sorted (samples : List Int) : (sortedSamples samples).Pairwise (· ≤ ·) := by
  unfold sortedSamples
  rw [List.pairwise_map]
  refine (List.sorted_mergeSort (fun a b c ab bc => ?_) (fun a b => ?_) samples).imp ?_
  · simp only [decide_eq_true_eq] at *
    exact le_trans ab bc
  · simpa using le_total a b
  · simp

@[simp]
theorem length_sortedSamples (samples : List Int) :
    (sortedSamples samples).length = samples.length := by
  simp [sortedSamples]

theorem exists_sample_eq_getD (samples : List Int) (i : Nat) (bound : i < samples.length) :
    ∃ x ∈ samples, (x : ℚ) = (sortedSamples samples).getD i 0 := by
  have mem := List.getElem_mem (l := sortedSamples samples) (by simpa using bound)
  rw [← List.getD_eq_getElem _ 0] at mem
  obtain ⟨x, sorted, eq⟩ := List.mem_map.mp mem
  exact ⟨x, List.mem_mergeSort.mp sorted, eq⟩

/-- `np.percentile` is monotone in the percentile. -/
theorem percentile_mono {samples : List Int} (nonempty : samples ≠ []) {q₁ q₂ : ℚ}
    (nonneg : 0 ≤ q₁) (le : q₁ ≤ q₂) : percentile samples q₁ ≤ percentile samples q₂ := by
  have positive : (1 : ℚ) ≤ samples.length := by
    exact_mod_cast List.length_pos.mpr nonempty
  unfold percentile
  simp only [length_sortedSamples]
  exact interpolateAt_mono (sortedSamples_sorted samples)
    (mul_nonneg (by linarith) (div_nonneg nonneg (by norm_num)))
    (mul_le_mul_of_nonneg_left (div_le_div_of_nonneg_right le (by norm_num)) (by linarith))

/-- Every percentile lies between the smallest and the largest count. -/
theorem percentile_mem_range {samples : List Int} (nonempty : samples ≠ []) {q : ℚ}
    (nonneg : 0 ≤ q) :
    ((samples.minimum_of_length_pos (List.length_pos.mpr nonempty) : Int) : ℚ) ≤
        percentile samples q ∧
      percentile samples q ≤ (samples.maximum_of_length_pos (List.length_pos.mpr nonempty) : Int) := by
  have positive := List.length_pos.mpr nonempty
  have index : (0 : ℚ) ≤ ((sortedSamples samples).length - 1) * (q / 100) := by
    simp only [length_sortedSamples]
    have : (1 : ℚ) ≤ samples.length := by exact_mod_cast positive
    exact mul_nonneg (by linarith) (div_nonneg nonneg (by norm_num))
  obtain ⟨first, firstMem, firstEq⟩ := exists_sample_eq_getD samples 0 positive
  obtain ⟨last, lastMem, lastEq⟩ := exists_sample_eq_getD samples (samples.length - 1) (by omega)
  constructor
  · calc ((samples.minimum_of_length_pos positive : Int) : ℚ) ≤ (first : ℚ) := by
          exact_mod_cast List.minimum_of_length_pos_le_of_mem firstMem positive
      _ ≤ percentile samples q := firstEq ▸ first_le_interpolateAt (sortedSamples_sorted samples)
          index (List.ne_nil_of_length_pos (by simpa using positive))
  · calc percentile samples q ≤ (last : ℚ) := by
          rw [lastEq, ← length_sortedSamples]
          exact interpolateAt_le_last (sortedSamples_sorted samples) index
      _ ≤ _ := by exact_mod_cast List.le_maximum_of_length_pos_of_mem lastMem positive

/-- `np.median` is the 50th percentile of the linear method. -/
theorem median_eq_percentile_fifty (samples : List Int) :
    median samples = percentile samples 50 := by
  unfold median percentile
  dsimp only
  generalize sortedSamples samples = arr
  rcases Nat.even_or_odd' arr.length with ⟨k, even | odd⟩
  · rcases Nat.eq_zero_or_pos k with rfl | positive
    · simp [List.length_eq_zero.mp even, interpolateAt]
    · have index : ((arr.length : ℚ) - 1) * (50 / 100) = ((k - 1 : Nat) : ℚ) + 1 / 2 := by
        rw [even, Nat.cast_sub positive]
        push_cast
        ring
      have floor : ⌊((k - 1 : Nat) : ℚ) + 1 / 2⌋₊ = k - 1 := by
        rw [Nat.floor_eq_iff (by positivity)]
        constructor <;> linarith
      have inside : ¬ (arr.length : ℚ) - 1 ≤ ((k - 1 : Nat) : ℚ) + 1 / 2 := by
        rw [even, Nat.cast_sub positive]
        push_cast
        have : (1 : ℚ) ≤ k := by exact_mod_cast positive
        linarith
      rw [index, interpolateAt, if_neg (not_lt.mpr (by positivity)), if_neg inside, floor,
        show k - 1 + 1 = k by omega, even]
      simp only [Nat.mul_mod_right, Nat.zero_ne_one, if_false, lerp,
        show 2 * k / 2 = k by omega, show 2 * k / 2 - 1 = k - 1 by omega]
      push_cast [Nat.cast_sub positive]
      ring
  · have index : ((arr.length : ℚ) - 1) * (50 / 100) = (k : ℚ) := by
      rw [odd]
      push_cast
      ring
    have middle : (2 * k + 1) / 2 = k := by omega
    rw [index, odd, if_pos (by omega), middle, interpolateAt, if_neg (not_lt.mpr (by positivity))]
    split_ifs with last
    · congr 1
      have : (k : ℚ) ≤ 0 := by push_cast at last; linarith
      have : k = 0 := by exact_mod_cast le_antisymm this (Nat.cast_nonneg k)
      omega
    · simp [lerp]

/-- The percentile interval at confidence `c` (in percent). -/
theorem confidenceInterval_eq (results : BootstrapResults) (c : ℚ) :
    results.confidenceInterval c =
      (percentile results.samples ((100 - c) / 2),
        percentile results.samples (100 - (100 - c) / 2)) :=
  rfl

/-- For nonempty counts and confidence levels `0 ≤ c₁ ≤ c₂ ≤ 100`, the two percentile
intervals are ordered, nested, and bracket the median:
`min ≤ lo c₂ ≤ lo c₁ ≤ median ≤ hi c₁ ≤ hi c₂ ≤ max`. -/
theorem confidenceInterval_nested (results : BootstrapResults) (nonempty : results.samples ≠ [])
    {c₁ c₂ : ℚ} (low : 0 ≤ c₁) (le : c₁ ≤ c₂) (high : c₂ ≤ 100) :
    let positive := List.length_pos.mpr nonempty
    ((results.samples.minimum_of_length_pos positive : Int) : ℚ) ≤
        (results.confidenceInterval c₂).1 ∧
      (results.confidenceInterval c₂).1 ≤ (results.confidenceInterval c₁).1 ∧
      (results.confidenceInterval c₁).1 ≤ median results.samples ∧
      median results.samples ≤ (results.confidenceInterval c₁).2 ∧
      (results.confidenceInterval c₁).2 ≤ (results.confidenceInterval c₂).2 ∧
      (results.confidenceInterval c₂).2 ≤
        ((results.samples.maximum_of_length_pos positive : Int) : ℚ) := by
  simp only [confidenceInterval_eq, median_eq_percentile_fifty]
  have mono := @percentile_mono results.samples nonempty
  refine ⟨(percentile_mem_range nonempty (by linarith)).1, mono (by linarith) (by linarith),
    mono (by linarith) (by linarith), mono (by norm_num) (by linarith),
    mono (by linarith) (by linarith), (percentile_mem_range nonempty (by linarith)).2⟩

theorem confidenceInterval_nested_fifty_ninety_five :
    let results : BootstrapResults := ⟨[3, 1, 2]⟩
    let positive := List.length_pos.mpr (show results.samples ≠ [] by decide)
    ((results.samples.minimum_of_length_pos positive : Int) : ℚ) ≤
        (results.confidenceInterval 95).1 ∧
      (results.confidenceInterval 95).1 ≤ (results.confidenceInterval 50).1 ∧
      (results.confidenceInterval 50).1 ≤ median results.samples ∧
      median results.samples ≤ (results.confidenceInterval 50).2 ∧
      (results.confidenceInterval 50).2 ≤ (results.confidenceInterval 95).2 ∧
      (results.confidenceInterval 95).2 ≤
        ((results.samples.maximum_of_length_pos positive : Int) : ℚ) :=
  confidenceInterval_nested ⟨[3, 1, 2]⟩ (by decide) (by norm_num) (by norm_num) (by norm_num)

end CrosPlatform.Biod
