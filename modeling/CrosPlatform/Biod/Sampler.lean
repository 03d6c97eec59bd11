import Mathlib.Data.List.Basic

/-!
# Hierarchical bootstrap samplers

`BootstrapFullFARHierarchy._sample` in `bootstrap.py` draws one bootstrap replicate through
five nested loops: verify users, template users, verify fingers, template fingers and verify
samples, each level a `boot_sample` of its axis list. Every level but the innermost skips a
draw whose tuple so far is not a prefix of an accepted tuple (`fa_trie.isin`), and the
innermost level appends `fa_set.isin` of the whole tuple to `sample`, whose sum is the count.
`BootstrapFullFRRHierarchy._sample` is the same three levels deep.

The randomness is a `DrawTree`: for every loop that runs, the values its `boot_sample`
returned, each with the draws of the loops inside it. The early abort reads less of the tree
than the loops without it, and counts the same whenever the prefix test holds on every prefix
of every accepted tuple.

`experiment.py` and `fpsutils.py` are not among the sources: `Experiment` keeps only what the
samplers read of it, and the two accessors of `fpsutils` are modelled from the spec.
-/

namespace CrosPlatform.Biod

/-- `Experiment.Decision`. -/
inductive Decision where
  | accept
  | reject
  deriving DecidableEq, Repr

/-- One row of a decision table: a verification attempt and its decision. -/
structure DecisionRow where
  enrollUser : Int
  enrollFinger : Int
  verifyUser : Int
  verifyFinger : Int
  verifySample : Int
  decision : Decision
  deriving DecidableEq, Repr

/-- What the samplers read of an `Experiment`: its FAR decisions, the false-accept and
false-reject tables, and the axis lists. -/
structure Experiment where
  farDecisions : List DecisionRow
  faTable : List DecisionRow
  frTable : List DecisionRow
  userList : List Int
  fingerList : List Int
  sampleList : List Int

/-- The columns `[Verify_User, Enroll_User, Verify_Finger, Enroll_Finger, Verify_Sample]` of
`fa_set_tuple`. -/
def DecisionRow.farKey (row : DecisionRow) : List Int :=
  [row.verifyUser, row.enrollUser, row.verifyFinger, row.enrollFinger, row.verifySample]

/-- The columns `[Enroll_User, Enroll_Finger, Verify_Sample]` of `fr_set_tuple`. -/
def DecisionRow.frrKey (row : DecisionRow) : List Int :=
  [row.enrollUser, row.enrollFinger, row.verifySample]

/-! ## Membership and prefix indices -/

/-- Modelled from the spec: `fpsutils.DataFrameSetAccess`, a table projected on an ordered list
of columns; `isin` holds of exactly the tuples that appear as a row. -/
structure SetAccess where
  tuples : List (List Int)

def SetAccess.isin (set : SetAccess) (query : List Int) : Bool :=
  decide (query ∈ set.tuples)

/-- Modelled from the spec: `fpsutils.DataFrameCountTrieAccess`, over the same projection; a
tuple of any length is in the trie when the count of rows starting with it is nonzero. -/
structure CountTrieAccess where
  tuples : List (List Int)

/-- How many rows begin with `leading`. -/
def CountTrieAccess.count (trie : CountTrieAccess) (leading : List Int) : Nat :=
  trie.tuples.countP fun row => decide (leading <+: row)

def CountTrieAccess.isin (trie : CountTrieAccess) (leading : List Int) : Bool :=
  trie.count leading != 0

/-- The prefix test `trieIsin` is true on every prefix of length `1` to `depth` of every
`depth + 1`-tuple that `setIsin` accepts: the property of `fa_trie` the early abort needs. -/
def PrefixSound (trieIsin setIsin : List Int → Bool) (depth : Nat) : Prop :=
  ∀ tuple, setIsin tuple = true → tuple.length = depth + 1 →
    ∀ k, 0 < k → k ≤ depth → trieIsin (tuple.take k) = true

/-- A trie built from the same rows as the set is sound for it, at every depth. -/
theorem prefixSound_countTrie (tuples : List (List Int)) (depth : Nat) :
    PrefixSound (CountTrieAccess.isin ⟨tuples⟩) (SetAccess.isin ⟨tuples⟩) depth := by
  intro tuple accepted _ k _ _
  simp only [SetAccess.isin, decide_eq_true_eq] at accepted
  simp only [CountTrieAccess.isin, CountTrieAccess.count, bne_iff_ne, ne_eq,
    List.countP_eq_zero, decide_eq_true_eq, not_forall, not_not]
  exact ⟨tuple, accepted, List.take_prefix k tuple⟩

/-! ## Draw trees and the nested loops -/

/-- The draws of `n` nested `boot_sample` loops: each value the outer loop drew, with the
draws of the loops inside it for that value. -/
def DrawTree : Nat → Type
  | 0 => Unit
  | n + 1 => List (Int × DrawTree n)

/-- The `sample` list that `n + 1` nested loops append to below the tuple `key` drawn so far.
Each outer level skips (`continue`) a draw whose extended tuple `trieIsin` rejects; the
innermost level appends `setIsin` of the full tuple. -/
def sampleLoop (trieIsin setIsin : List Int → Bool) :
    (n : Nat) → List Int → DrawTree (n + 1) → List Bool
  | 0, key, draws => draws.map fun draw => setIsin (key ++ [draw.1])
  | n + 1, key, draws => draws.flatMap fun draw =>
      if trieIsin (key ++ [draw.1]) then sampleLoop trieIsin setIsin n (key ++ [draw.1]) draw.2
      else []

/-- The same nested loops with the early-abort checks removed. -/
def fullLoop (setIsin : List Int → Bool) : (n : Nat) → List Int → DrawTree (n + 1) → List Bool
  | 0, key, draws => draws.map fun draw => setIsin (key ++ [draw.1])
  | n + 1, key, draws => draws.flatMap fun draw => fullLoop setIsin n (key ++ [draw.1]) draw.2

/-- The tuples along the root-to-leaf paths of a draw tree. -/
def leafTuples : (n : Nat) → DrawTree (n + 1) → List (List Int)
  | 0, draws => draws.map fun draw => [draw.1]
  | n + 1, draws => draws.flatMap fun draw => (leafTuples n draw.2).map (draw.1 :: ·)

theorem fullLoop_eq_map_leafTuples (setIsin : List Int → Bool) :
    ∀ (n : Nat) (key : List Int) (draws : DrawTree (n + 1)),
      fullLoop setIsin n key draws = (leafTuples n draws).map fun tuple => setIsin (key ++ tuple)
  | 0, key, draws => by simp [fullLoop, leafTuples]
  | n + 1, key, draws => by
    simp only [fullLoop, leafTuples, List.map_flatMap, List.map_map]
    congr 1
    funext draw
    rw [fullLoop_eq_map_leafTuples setIsin n]
    simp [Function.comp_def]

theorem length_of_mem_leafTuples :
    ∀ (n : Nat) (draws : DrawTree (n + 1)) (tuple : List Int),
      tuple ∈ leafTuples n draws → tuple.length = n + 1
  | 0, draws, tuple, mem => by
    obtain ⟨draw, -, rfl⟩ := List.mem_map.mp mem
    rfl
  | n + 1, draws, tuple, mem => by
    obtain ⟨draw, -, inner⟩ := List.mem_flatMap.mp mem
    obtain ⟨rest, restMem, rfl⟩ := List.mem_map.mp inner
    simp [length_of_mem_leafTuples n draw.2 rest restMem]

/-! ## The early abort -/

section

variable {trieIsin setIsin : List Int → Bool} {depth : Nat}

/-- Below a tuple that a sound prefix test rejects, no leaf tuple is accepted. -/
theorem count_fullLoop_eq_zero (sound : PrefixSound trieIsin setIsin depth) {n : Nat}
    {key : List Int} (draws : DrawTree (n + 1)) (depthEq : key.length + n = depth)
    (pruned : trieIsin key = false) (nonempty : key ≠ []) :
    (fullLoop setIsin n key draws).count true = 0 := by
  rw [fullLoop_eq_map_leafTuples, List.count_eq_zero]
  intro accepted
  obtain ⟨tuple, mem, accepts⟩ := List.mem_map.mp accepted
  have length := length_of_mem_leafTuples n draws tuple mem
  have keyLength : 0 < key.length := List.length_pos.mpr nonempty
  have kept := sound (key ++ tuple) accepts (by simp; omega) key.length keyLength (by omega)
  rw [List.take_left] at kept
  exact absurd kept (by simp [pruned])

/-- The early abort does not change the count: with a sound prefix test, the pruned loops
append as many `True`s as the loops that visit every draw. -/
theorem count_sampleLoop (sound : PrefixSound trieIsin setIsin depth) :
    ∀ (n : Nat) (key : List Int) (draws : DrawTree (n + 1)), key.length + n = depth →
      (sampleLoop trieIsin setIsin n key draws).count true =
        (fullLoop setIsin n key draws).count true
  | 0, _, _, _ => rfl
  | n + 1, key, draws, depthEq => by
    simp only [sampleLoop, fullLoop, List.flatMap, List.count_flatten, List.map_map]
    congr 1
    refine List.map_congr_left fun draw _ => ?_
    simp only [Function.comp_apply]
    have below : (key ++ [draw.1]).length + n = depth := by simp; omega
    split_ifs with kept
    · exact count_sampleLoop sound n _ draw.2 below
    · rw [List.count_nil, count_fullLoop_eq_zero sound draw.2 below (by simpa using kept)
        (by simp)]

end

/-- The count of the loops without early abort is the number of leaf tuples accepted. -/
theorem count_fullLoop (setIsin : List Int → Bool) (n : Nat) (key : List Int)
    (draws : DrawTree (n + 1)) :
    (fullLoop setIsin n key draws).count true =
      (leafTuples n draws).countP fun tuple => setIsin (key ++ tuple) := by
  rw [fullLoop_eq_map_leafTuples, List.count_eq_countP, List.countP_map]
  exact List.countP_congr fun tuple _ => by simp

/-! ## The samplers of `bootstrap.py` -/

/-- The caches `_init` leaves for the hierarchical samplers. -/
structure HierarchyCache where
  faSet : SetAccess
  faTrie : CountTrieAccess
  usersList : List Int
  fingersList : List Int
  samplesList : List Int

/-- The common shape of both `_init`s: set and trie over the rows of `table` projected by
`key`, and the experiment's axis lists. -/
def HierarchyCache.ofTable (table : List DecisionRow) (key : DecisionRow → List Int)
    (exp : Experiment) : HierarchyCache :=
  let setTuples := table.map key
  { faSet := ⟨setTuples⟩
    faTrie := ⟨setTuples⟩
    usersList := exp.userList
    fingersList := exp.fingerList
    samplesList := exp.sampleList }

/-- `BootstrapFullFARHierarchy._init`. -/
def BootstrapFullFARHierarchy.init (exp : Experiment) : HierarchyCache :=
  HierarchyCache.ofTable exp.faTable DecisionRow.farKey exp

/-- The axis lists of the five loops of `BootstrapFullFARHierarchy._sample`, outermost
first. -/
def BootstrapFullFARHierarchy.axes (cache : HierarchyCache) : List (List Int) :=
  [cache.usersList, cache.usersList, cache.fingersList, cache.fingersList, cache.samplesList]

/-- `BootstrapFullFARHierarchy._sample` on the draws of its five loops: `np.sum(sample)`. -/
def BootstrapFullFARHierarchy.sample (cache : HierarchyCache) (draws : DrawTree 5) : Nat :=
  (sampleLoop cache.faTrie.isin cache.faSet.isin 4 [] draws).count true

/-- `BootstrapFullFRRHierarchy._init`. -/
def BootstrapFullFRRHierarchy.init (exp : Experiment) : HierarchyCache :=
  HierarchyCache.ofTable exp.frTable DecisionRow.frrKey exp

/-- The axis lists of the three loops of `BootstrapFullFRRHierarchy._sample`. -/
def BootstrapFullFRRHierarchy.axes (cache : HierarchyCache) : List (List Int) :=
  [cache.usersList, cache.fingersList, cache.samplesList]

/-- `BootstrapFullFRRHierarchy._sample` on the draws of its three loops. -/
def BootstrapFullFRRHierarchy.sample (cache : HierarchyCache) (draws : DrawTree 3) : Nat :=
  (sampleLoop cache.faTrie.isin cache.faSet.isin 2 [] draws).count true

/-- `BootstrapFARFlat._init`: whether each FAR decision was an accept. -/
def BootstrapFARFlat.init (exp : Experiment) : List Bool :=
  exp.farDecisions.map fun row => row.decision == .accept

/-- `BootstrapFARFlat._sample` on the values its one `boot_sample` call drew. -/
def BootstrapFARFlat.sample (draws : List Bool) : Nat :=
  draws.count true

/-- A hierarchical sampler built by `ofTable` counts, on any draw tree, the leaf tuples that
its set holds. -/
theorem ofTable_sample_eq {n : Nat} (table : List DecisionRow) (key : DecisionRow → List Int)
    (exp : Experiment) (draws : DrawTree (n + 1)) :
    let cache := HierarchyCache.ofTable table key exp
    (sampleLoop cache.faTrie.isin cache.faSet.isin n [] draws).count true =
      (fullLoop cache.faSet.isin n [] draws).count true ∧
    (fullLoop cache.faSet.isin n [] draws).count true =
      (leafTuples n draws).countP cache.faSet.isin :=
  ⟨count_sampleLoop (prefixSound_countTrie _ n) n [] draws (by simp),
    by simpa using count_fullLoop _ n [] draws⟩

end CrosPlatform.Biod
