import CrosPlatform.Biod.Sampler
import Mathlib.Algebra.BigOperators.Ring
import Mathlib.Algebra.Order.Field.Rat
import Mathlib.Tactic.Ring
import Mathlib.Tactic.LinearCombination
import Mathlib.Tactic.FieldSimp
import Mathlib.Data.Finset.Card

/-!
# Expected replicate counts

Each `boot_sample(axis, rng)` call draws `len(axis)` values of `axis` independently and
uniformly with replacement. Over a finite set of draws this is the uniform choice among
equally likely outcomes: every sequence of `len(axis)` positions of `axis` for one call, and
for nested loops every draw tree built from such sequences, with independent subtrees below
each draw. Expectations are means over those outcomes, computed in `ℚ`.

By linearity over the leaf paths, the expected hierarchical count is the number of accepted
tuples in the box of the axis lists, and the expected flat count is the number of accepted
rows.
-/

namespace CrosPlatform.Biod

universe u

variable {α : Type u}

/-- The equally likely outcomes of `k` independent uniform draws from `opts`. -/
def drawSequences (opts : List α) : Nat → List (List α)
  | 0 => [[]]
  | k + 1 => opts.flatMap fun x => (drawSequences opts k).map (x :: ·)

/-- Modelled from the spec: `fpsutils.boot_sample(axis, rng)` draws `len(axis)` values of `axis`
independently and uniformly with replacement; these are its equally likely outcomes. -/
def bootSample (axis : List α) : List (List α) :=
  drawSequences axis axis.length

/-- The mean of `f` over equally likely outcomes. -/
def expectation (outcomes : List α) (f : α → ℚ) : ℚ :=
  (outcomes.map f).sum / outcomes.length

@[simp]
theorem length_drawSequences (opts : List α) (k : Nat) :
    (drawSequences opts k).length = opts.length ^ k := by
  induction k with
  | zero => rfl
  | succ k ih =>
    simp only [drawSequences, List.length_flatMap, Function.comp_def, List.length_map, ih,
      List.map_const',
      List.sum_replicate, smul_eq_mul, pow_succ, mul_comm]

/-- Linearity over independent draws: summed over all outcomes, each of the `k` draws takes
every value of `opts` equally often. -/
theorem sum_drawSequences (opts : List α) (g : α → ℚ) (k : Nat) :
    ((drawSequences opts k).map fun seq => (seq.map g).sum).sum * opts.length =
      k * (drawSequences opts k).length * (opts.map g).sum := by
  induction k with
  | zero => simp [drawSequences]
  | succ k ih =>
    have step : ((drawSequences opts (k + 1)).map fun seq => (seq.map g).sum).sum =
        (drawSequences opts k).length * (opts.map g).sum +
          opts.length * ((drawSequences opts k).map fun seq => (seq.map g).sum).sum := by
      simp only [drawSequences, List.flatMap, List.map_flatten, List.sum_flatten, List.map_map,
        Function.comp_def, List.map_cons, List.sum_cons, List.sum_map_add, List.map_const',
        List.sum_replicate, nsmul_eq_mul, List.sum_map_mul_left]
    rw [step, length_drawSequences, length_drawSequences] at *
    push_cast at ih ⊢
    linear_combination (opts.length : ℚ) * ih

/-- The mean of a sum over `k` independent uniform draws is `k` times the mean of one draw. -/
theorem expectation_drawSequences (opts : List α) (g : α → ℚ) (k : Nat) :
    expectation (drawSequences opts k) (fun seq => (seq.map g).sum) =
      k * (opts.map g).sum / opts.length := by
  rcases eq_or_ne opts [] with rfl | nonempty
  · cases k <;> simp [expectation, drawSequences]
  · have positive : (0 : ℚ) < opts.length := by exact_mod_cast List.length_pos.mpr nonempty
    have outcomes : (0 : ℚ) < (drawSequences opts k).length := by
      rw [length_drawSequences]
      push_cast
      exact pow_pos positive k
    unfold expectation
    rw [div_eq_div_iff outcomes.ne' positive.ne', sum_drawSequences]
    ring

theorem sum_map_product {β : Type u} (axis : List Int) (subs : List β) (h : Int → β → ℚ) :
    ((axis ×ˢ subs).map fun draw => h draw.1 draw.2).sum =
      (axis.map fun x => (subs.map (h x)).sum).sum := by
  induction axis with
  | nil => rfl
  | cons x rest ih => simp [List.product_cons, ih, Function.comp_def]

/-- One level of nested loops: drawing `len(axis)` values of `axis`, each with an independent
subtree among `subs`, the mean of a sum over the draws is the sum over the axis of the mean
over the subtrees. -/
theorem expectation_level {β : Type u} (axis : List Int) (subs : List β) (h : Int → β → ℚ) :
    expectation (drawSequences (axis ×ˢ subs) axis.length)
        (fun seq => (seq.map fun draw => h draw.1 draw.2).sum) =
      (axis.map fun x => expectation subs (h x)).sum := by
  rw [expectation_drawSequences, List.length_product, sum_map_product]
  rcases eq_or_ne axis [] with rfl | nonempty
  · simp
  · have axisLength : (axis.length : ℚ) ≠ 0 := by exact_mod_cast (List.length_pos.mpr nonempty).ne'
    have divided : (axis.map fun x => expectation subs (h x)).sum =
        (axis.map fun x => (subs.map (h x)).sum).sum / subs.length := by
      simp only [expectation, div_eq_mul_inv, List.sum_map_mul_right]
    rw [divided, Nat.cast_mul]
    exact mul_div_mul_left _ _ axisLength

/-! ## Nested loops -/

/-- The equally likely draw trees of `n` nested `boot_sample` loops over the axis lists `axes`,
outermost first: the outer loop draws `len(axis)` values of its axis, each with an independent
draw tree of the loops inside. -/
def treeOutcomes : (n : Nat) → List (List Int) → List (DrawTree n)
  | 0, _ => [()]
  | n + 1, axes =>
    drawSequences ((axes.headD []) ×ˢ treeOutcomes n axes.tail) (axes.headD []).length

/-- Every tuple taking one value from each axis in turn: `axes[0] × axes[1] × ⋯`. -/
def boxTuples : List (List Int) → List (List Int)
  | [] => [[]]
  | axis :: rest => axis.flatMap fun x => (boxTuples rest).map (x :: ·)

theorem countP_boxTuples_cons (axis : List Int) (rest : List (List Int)) (p : List Int → Bool) :
    (((boxTuples (axis :: rest)).countP p : Nat) : ℚ) =
      (axis.map fun x => (((boxTuples rest).countP fun tuple => p (x :: tuple) : Nat) : ℚ)).sum := by
  simp [boxTuples, List.countP_flatMap, Nat.cast_list_sum, List.countP_map, Function.comp_def]

theorem count_fullLoop_zero (setIsin : List Int → Bool) (key : List Int) (draws : DrawTree 1) :
    (((fullLoop setIsin 0 key draws).count true : Nat) : ℚ) =
      (draws.map fun draw => if setIsin (key ++ [draw.1]) then (1 : ℚ) else 0).sum := by
  show (((List.map _ draws).count true : Nat) : ℚ) = _
  induction draws with
  | nil => rfl
  | cons draw rest ih => by_cases accepted : setIsin (key ++ [draw.1]) <;> simp_all [add_comm]

theorem count_fullLoop_succ (setIsin : List Int → Bool) (n : Nat) (key : List Int)
    (draws : DrawTree (n + 2)) :
    (((fullLoop setIsin (n + 1) key draws).count true : Nat) : ℚ) =
      (draws.map fun draw =>
        (((fullLoop setIsin n (key ++ [draw.1]) draw.2).count true : Nat) : ℚ)).sum := by
  simp [fullLoop, List.count_flatMap, Nat.cast_list_sum, Function.comp_def]

/-- The expected count of nested loops without early abort is the number of tuples of the
box of the axis lists that the set accepts (counted with the multiplicity of repeated axis
entries). -/
theorem expectation_fullLoop (setIsin : List Int → Bool) :
    ∀ (n : Nat) (axes : List (List Int)) (key : List Int), axes.length = n + 1 →
      expectation (treeOutcomes (n + 1) axes)
          (fun draws => (((fullLoop setIsin n key draws).count true : Nat) : ℚ)) =
        (boxTuples axes).countP fun tuple => setIsin (key ++ tuple)
  | 0, [axis], key, _ => by
    have level := expectation_level axis [()] fun x _ => if setIsin (key ++ [x]) then (1 : ℚ) else 0
    simp only [expectation, List.map_cons, List.map_nil, List.sum_cons, List.sum_nil, add_zero,
      List.length_singleton, Nat.cast_one, div_one] at level
    rw [countP_boxTuples_cons]
    simp only [treeOutcomes, List.headD_cons, List.tail_cons, boxTuples, List.countP_singleton,
      Nat.cast_ite, Nat.cast_one, Nat.cast_zero]
    simp only [expectation] at level ⊢
    rw [← level]
    congr 3
    funext draws
    exact count_fullLoop_zero setIsin key draws
  | n + 1, axis :: rest, key, length => by
    have inner := fun x => expectation_fullLoop setIsin n rest (key ++ [x]) (by simpa using length)
    rw [countP_boxTuples_cons]
    simp only [treeOutcomes, List.headD_cons, List.tail_cons]
    have level := expectation_level axis (treeOutcomes (n + 1) rest) fun x sub =>
      (((fullLoop setIsin n (key ++ [x]) sub).count true : Nat) : ℚ)
    simp only [inner, List.append_assoc, List.singleton_append] at level
    rw [← level]
    congr 1
    funext draws
    exact count_fullLoop_succ setIsin n key draws

/-! ## Counting the accepted tuples of the box -/

theorem nodup_boxTuples :
    ∀ axes : List (List Int), (∀ axis ∈ axes, axis.Nodup) → (boxTuples axes).Nodup
  | [], _ => List.nodup_singleton _
  | axis :: rest, nodup => by
    rw [boxTuples, List.nodup_flatMap]
    refine ⟨fun x _ => (nodup_boxTuples rest fun a mem => nodup a (by simp [mem])).map
      List.cons_injective, (nodup axis (by simp)).imp fun different => ?_⟩
    simp only [List.disjoint_left, List.mem_map]
    rintro _ ⟨tuple, -, rfl⟩ ⟨other, -, same⟩
    exact different (List.cons_eq_cons.mp same).1.symm

/-- Over a box without repeated tuples, counting the box's tuples that a set holds is counting
the set's tuples that lie in the box. -/
theorem countP_isin_eq_card {box : List (List Int)} (nodup : box.Nodup)
    (tuples : List (List Int)) :
    box.countP (SetAccess.isin ⟨tuples⟩) = (tuples.toFinset.filter (· ∈ box)).card := by
  rw [List.countP_eq_length_filter, ← List.toFinset_card_of_nodup (nodup.filter _)]
  congr 1
  ext tuple
  simp [SetAccess.isin, and_comm]

theorem count_true_eq_sum (draws : List Bool) :
    ((draws.count true : Nat) : ℚ) = (draws.map fun b => if b then (1 : ℚ) else 0).sum := by
  induction draws with
  | nil => rfl
  | cons b rest ih => cases b <;> simp [ih, add_comm]

/-! ## The samplers of `bootstrap.py` in expectation -/

/-- The expected flat count is the number of accepted FAR rows. -/
theorem expectation_flat_sample (exp : Experiment) :
    expectation (bootSample (BootstrapFARFlat.init exp))
        (fun draws => (BootstrapFARFlat.sample draws : ℚ)) =
      (BootstrapFARFlat.init exp).count true := by
  simp only [BootstrapFARFlat.sample, count_true_eq_sum, bootSample, expectation_drawSequences]
  rcases eq_or_ne (BootstrapFARFlat.init exp) [] with empty | nonempty
  · simp [empty]
  · have positive : ((BootstrapFARFlat.init exp).length : ℚ) ≠ 0 := by
      exact_mod_cast (List.length_pos.mpr nonempty).ne'
    field_simp

theorem expectation_hierarchy_sample {n : Nat} (table : List DecisionRow)
    (key : DecisionRow → List Int) (exp : Experiment) (axes : List (List Int))
    (length : axes.length = n + 1) :
    let cache := HierarchyCache.ofTable table key exp
    expectation (treeOutcomes (n + 1) axes)
        (fun draws => (((sampleLoop cache.faTrie.isin cache.faSet.isin n [] draws).count true :
          Nat) : ℚ)) =
      (boxTuples axes).countP cache.faSet.isin := by
  intro cache
  have pointwise := fun draws : DrawTree (n + 1) => (ofTable_sample_eq table key exp draws).1
  simp only [pointwise]
  simpa using expectation_fullLoop cache.faSet.isin n axes [] length

@[simp]
theorem mem_boxTuples_nil (tuple : List Int) : tuple ∈ boxTuples [] ↔ tuple = [] :=
  List.mem_singleton

@[simp]
theorem cons_mem_boxTuples_cons (x : Int) (tuple axis : List Int) (rest : List (List Int)) :
    x :: tuple ∈ boxTuples (axis :: rest) ↔ x ∈ axis ∧ tuple ∈ boxTuples rest := by
  simp [boxTuples]

theorem farKey_mem_boxTuples (row : DecisionRow) (users fingers samples : List Int) :
    row.farKey ∈ boxTuples [users, users, fingers, fingers, samples] ↔
      row.verifyUser ∈ users ∧ row.enrollUser ∈ users ∧ row.verifyFinger ∈ fingers ∧
        row.enrollFinger ∈ fingers ∧ row.verifySample ∈ samples := by
  simp [DecisionRow.farKey]

theorem count_flat_init (exp : Experiment) :
    (BootstrapFARFlat.init exp).count true =
      (exp.farDecisions.filter fun row => row.decision = .accept).length := by
  unfold BootstrapFARFlat.init
  induction exp.farDecisions with
  | nil => rfl
  | cons row rest ih => cases accepted : row.decision <;> simp [List.filter_cons, accepted, ih]

/-- Expected replicate counts when every `boot_sample` draws uniformly and independently and
the axis lists repeat no entry: the hierarchical FAR count expects the number of accepted
tuples inside `users × users × fingers × fingers × samples`, the hierarchical FRR count the
number inside `users × fingers × samples`, the flat count the number of accepted FAR rows; and
the FAR expectations agree when the false-accept table is the accepted FAR rows, distinct on
the five key columns, with every value on its axis. -/
theorem expected_replicate_counts (exp : Experiment) (users : exp.userList.Nodup)
    (fingers : exp.fingerList.Nodup) (samples : exp.sampleList.Nodup) :
    let farAxes := [exp.userList, exp.userList, exp.fingerList, exp.fingerList, exp.sampleList]
    let frrAxes := [exp.userList, exp.fingerList, exp.sampleList]
    let farExpectation := expectation (treeOutcomes 5 farAxes)
      fun draws => (BootstrapFullFARHierarchy.sample (BootstrapFullFARHierarchy.init exp) draws : ℚ)
    let flatExpectation := expectation (bootSample (BootstrapFARFlat.init exp))
      fun draws => (BootstrapFARFlat.sample draws : ℚ)
    farExpectation =
      ((exp.faTable.map DecisionRow.farKey).toFinset.filter (· ∈ boxTuples farAxes)).card ∧
    expectation (treeOutcomes 3 frrAxes)
        (fun draws =>
          (BootstrapFullFRRHierarchy.sample (BootstrapFullFRRHierarchy.init exp) draws : ℚ)) =
      ((exp.frTable.map DecisionRow.frrKey).toFinset.filter (· ∈ boxTuples frrAxes)).card ∧
    flatExpectation = (exp.farDecisions.filter fun row => row.decision = .accept).length ∧
    (exp.faTable = exp.farDecisions.filter (fun row => row.decision = .accept) →
      (exp.faTable.map DecisionRow.farKey).Nodup →
      (∀ row ∈ exp.faTable, row.verifyUser ∈ exp.userList ∧ row.enrollUser ∈ exp.userList ∧
        row.verifyFinger ∈ exp.fingerList ∧ row.enrollFinger ∈ exp.fingerList ∧
        row.verifySample ∈ exp.sampleList) →
      farExpectation = flatExpectation) := by
  intro farAxes frrAxes farExpectation flatExpectation
  have farNodup : (boxTuples farAxes).Nodup :=
    nodup_boxTuples _ (by simp [farAxes, users, fingers, samples])
  have frrNodup : (boxTuples frrAxes).Nodup :=
    nodup_boxTuples _ (by simp [frrAxes, users, fingers, samples])
  have farValue : farExpectation =
      ((exp.faTable.map DecisionRow.farKey).toFinset.filter (· ∈ boxTuples farAxes)).card := by
    rw [← countP_isin_eq_card farNodup]
    exact expectation_hierarchy_sample exp.faTable DecisionRow.farKey exp _ rfl
  have flatValue : flatExpectation =
      (exp.farDecisions.filter fun row => row.decision = .accept).length := by
    simp only [flatExpectation, expectation_flat_sample, count_flat_init]
  refine ⟨farValue, ?_, flatValue, fun table distinct onAxes => ?_⟩
  · rw [← countP_isin_eq_card frrNodup]
    exact expectation_hierarchy_sample exp.frTable DecisionRow.frrKey exp _ rfl
  · have inBox : ∀ tuple ∈ (exp.faTable.map DecisionRow.farKey).toFinset,
        tuple ∈ boxTuples farAxes := by
      intro tuple mem
      obtain ⟨row, rowMem, rfl⟩ := List.mem_map.mp (List.mem_toFinset.mp mem)
      exact (farKey_mem_boxTuples row _ _ _).mpr (onAxes row rowMem)
    rw [farValue, flatValue, ← table, Finset.filter_true_of_mem inBox,
      List.toFinset_card_of_nodup distinct, List.length_map]

theorem expected_replicate_counts_single_accept :
    let exp : Experiment :=
      { farDecisions :=
          [⟨10001, 1, 10002, 1, 0, .reject⟩, ⟨10001, 1, 10002, 1, 1, .reject⟩,
            ⟨10001, 1, 10002, 1, 2, .accept⟩, ⟨10002, 1, 10001, 1, 0, .reject⟩,
            ⟨10002, 1, 10001, 1, 1, .reject⟩, ⟨10002, 1, 10001, 1, 2, .reject⟩]
        faTable := [⟨10001, 1, 10002, 1, 2, .accept⟩]
        frTable := [⟨10001, 1, 10001, 1, 0, .reject⟩]
        userList := [10001, 10002]
        fingerList := [1]
        sampleList := [0, 1, 2] }
    let farAxes := [exp.userList, exp.userList, exp.fingerList, exp.fingerList, exp.sampleList]
    let frrAxes := [exp.userList, exp.fingerList, exp.sampleList]
    let farExpectation := expectation (treeOutcomes 5 farAxes)
      fun draws => (BootstrapFullFARHierarchy.sample (BootstrapFullFARHierarchy.init exp) draws : ℚ)
    let flatExpectation := expectation (bootSample (BootstrapFARFlat.init exp))
      fun draws => (BootstrapFARFlat.sample draws : ℚ)
    farExpectation =
      ((exp.faTable.map DecisionRow.farKey).toFinset.filter (· ∈ boxTuples farAxes)).card ∧
    expectation (treeOutcomes 3 frrAxes)
        (fun draws =>
          (BootstrapFullFRRHierarchy.sample (BootstrapFullFRRHierarchy.init exp) draws : ℚ)) =
      ((exp.frTable.map DecisionRow.frrKey).toFinset.filter (· ∈ boxTuples frrAxes)).card ∧
    flatExpectation = (exp.farDecisions.filter fun row => row.decision = .accept).length ∧
    (exp.faTable = exp.farDecisions.filter (fun row => row.decision = .accept) →
      (exp.faTable.map DecisionRow.farKey).Nodup →
      (∀ row ∈ exp.faTable, row.verifyUser ∈ exp.userList ∧ row.enrollUser ∈ exp.userList ∧
        row.verifyFinger ∈ exp.fingerList ∧ row.enrollFinger ∈ exp.fingerList ∧
        row.verifySample ∈ exp.sampleList) →
      farExpectation = flatExpectation) :=
  expected_replicate_counts _ (by decide) (by decide) (by decide)

/-- The early abort keeps the replicate count. For every set of accepted tuples and every
prefix test true on each proper nonempty prefix of its tuples, on every draw tree the loops with
the early-abort checks count what the loops without them count: the number of leaf tuples the
set holds. Both samplers of `bootstrap.py` build such a prefix test from their own table, so
over the equally likely draw trees their replicate counts have the same distribution with the
checks and without them. -/
theorem early_abort_keeps_replicate_count :
    (∀ (trieIsin setIsin : List Int → Bool) (n : Nat), PrefixSound trieIsin setIsin n →
      ∀ draws : DrawTree (n + 1),
        (sampleLoop trieIsin setIsin n [] draws).count true =
            (fullLoop setIsin n [] draws).count true ∧
          (fullLoop setIsin n [] draws).count true = (leafTuples n draws).countP setIsin) ∧
    (∀ (exp : Experiment) (draws : DrawTree 5),
      let far := BootstrapFullFARHierarchy.init exp
      BootstrapFullFARHierarchy.sample far draws = (fullLoop far.faSet.isin 4 [] draws).count true ∧
        (fullLoop far.faSet.isin 4 [] draws).count true = (leafTuples 4 draws).countP far.faSet.isin) ∧
    (∀ (exp : Experiment) (draws : DrawTree 3),
      let frr := BootstrapFullFRRHierarchy.init exp
      BootstrapFullFRRHierarchy.sample frr draws = (fullLoop frr.faSet.isin 2 [] draws).count true ∧
        (fullLoop frr.faSet.isin 2 [] draws).count true = (leafTuples 2 draws).countP frr.faSet.isin) ∧
    (∀ (exp : Experiment) (axes : List (List Int)) (c : Nat),
      let far := BootstrapFullFARHierarchy.init exp
      (treeOutcomes 5 axes).countP (fun draws => BootstrapFullFARHierarchy.sample far draws = c) =
        (treeOutcomes 5 axes).countP
          (fun draws => (fullLoop far.faSet.isin 4 [] draws).count true = c)) ∧
    (∀ (exp : Experiment) (axes : List (List Int)) (c : Nat),
      let frr := BootstrapFullFRRHierarchy.init exp
      (treeOutcomes 3 axes).countP (fun draws => BootstrapFullFRRHierarchy.sample frr draws = c) =
        (treeOutcomes 3 axes).countP
          (fun draws => (fullLoop frr.faSet.isin 2 [] draws).count true = c)) := by
  refine ⟨fun trieIsin setIsin n sound draws =>
      ⟨count_sampleLoop sound n [] draws (by simp), by simpa using count_fullLoop setIsin n [] draws⟩,
    fun exp draws => ofTable_sample_eq _ _ exp draws,
    fun exp draws => ofTable_sample_eq _ _ exp draws, fun exp axes c => ?_, fun exp axes c => ?_⟩
  · exact List.countP_congr fun draws _ => by
      simp [BootstrapFullFARHierarchy.sample, BootstrapFullFARHierarchy.init,
        (ofTable_sample_eq exp.faTable DecisionRow.farKey exp draws).1]
  · exact List.countP_congr fun draws _ => by
      simp [BootstrapFullFRRHierarchy.sample, BootstrapFullFRRHierarchy.init,
        (ofTable_sample_eq exp.frTable DecisionRow.frrKey exp draws).1]

/-- One false-accept row; the early abort prunes the subtrees under verify user `10002` with
enroll user `10002` and under verify user `10001`, and both hold leaves. -/
theorem early_abort_keeps_replicate_count_one_row :
    let rows : List (List Int) := [[10002, 10001, 1, 1, 2]]
    let draws : DrawTree 5 :=
      [(10002, [(10001, [(1, [(1, [(0, ()), (2, ()), (2, ())])])]),
          (10002, [(1, [(1, [(2, ())])])])]),
        (10001, [(10002, [(1, [(1, [(2, ())])])])])]
    (sampleLoop (CountTrieAccess.isin ⟨rows⟩) (SetAccess.isin ⟨rows⟩) 4 [] draws).count true =
        (fullLoop (SetAccess.isin ⟨rows⟩) 4 [] draws).count true ∧
      (fullLoop (SetAccess.isin ⟨rows⟩) 4 [] draws).count true =
        (leafTuples 4 draws).countP (SetAccess.isin ⟨rows⟩) :=
  early_abort_keeps_replicate_count.1 _ _ 4 (prefixSound_countTrie _ 4) _

end CrosPlatform.Biod
