import Mathlib.Logic.Relation
import Mathlib.Algebra.BigOperators.Group.Finset
import Mathlib.Data.Multiset.OrderedMonoid

/-!
# The parallel runner of `bootstrap.py`

`Bootstrap.run` draws `num_samples` replicates in one of three ways. With `num_proc=None`
`__run_single_process` samples them one after another with one generator. Otherwise
`__run_multi_process` starts a `multiprocessing.Pool` of `num_proc` workers (`mp.cpu_count()`
for 0) and calls `pool.map`. Without `USE_GLOBAL_SHARING` the tasks are the generators
`np.random.default_rng(i)`, one per replicate. With it, each worker's initializer
`_process_global_init` gives the worker a generator of its own, and the tasks are only the
replicate ids that `_process_global_sample` ignores.

A pool here runs its tasks in any order and interleaving: any idle worker takes any pending task,
which covers every way the task queue and the chunking of `pool.map` may hand them out. What
`pool.map` returns is read off when no task is left, the result of each task at its index.

The runner takes its generators as inputs: `defaultRng i` is `np.random.default_rng(i)`, and
`entropy j` is what the `j`-th unseeded `np.random.default_rng()` call returned. `_sample` returns
a count and leaves the generator it was given advanced. The `progress` callback is taken to
yield its iterable unchanged, and the timings and `print_timing` are left out.

Main results: every run returns `num_samples` counts, and no schedule of the pool runs forever;
the per-replicate strategy returns the same counts whatever the number of processes and the
schedule; and under global sharing, the counts are the first few draws of each worker's own
generator, the workers' shares adding up to `num_samples`.
-/

namespace CrosPlatform.Biod

/-- A `Bootstrap` subclass as `run` sees it: `_sample` returns a replicate's count and the
generator it advanced, and `USE_GLOBAL_SHARING` picks the pool strategy. -/
structure Bootstrap (G : Type) where
  sample : G → Nat × G
  useGlobalSharing : Bool

section Stream

variable {G : Type} (sample : G → Nat × G)

/-- The counts of `n` replicates sampled one after another with one generator. -/
def sampleStream : Nat → G → List Nat
  | 0, _ => []
  | n + 1, rng => (sample rng).1 :: sampleStream n (sample rng).2

/-- The generator after one replicate. -/
def advance (rng : G) : G := (sample rng).2

@[simp]
theorem length_sampleStream (n : Nat) (rng : G) : (sampleStream sample n rng).length = n := by
  induction n generalizing rng with
  | zero => rfl
  | succ n ih => simp [sampleStream, ih]

/-- The `n + 1`-st replicate is sampled with the generator advanced `n` times. -/
theorem sampleStream_succ_right (n : Nat) (rng : G) :
    sampleStream sample (n + 1) rng =
      sampleStream sample n rng ++ [(sample ((advance sample)^[n] rng)).1] := by
  induction n generalizing rng with
  | zero => rfl
  | succ n ih =>
    rw [sampleStream, ih, sampleStream, List.cons_append, Function.iterate_succ_apply]
    rfl

end Stream

/-! ## One process -/

section SingleProcess

variable {G : Type} (b : Bootstrap G)

/-- One round of the loop of `__run_single_process`:
`boot_counts.append(self._sample(rng))`. -/
def singleProcessRound (state : List Nat × G) (_ : Nat) : List Nat × G :=
  (state.1 ++ [(b.sample state.2).1], (b.sample state.2).2)

/-- `Bootstrap.__run_single_process` with the generator `rng`. -/
def runSingleProcess (numSamples : Nat) (rng : G) : List Nat :=
  ((List.range numSamples).foldl (singleProcessRound b) ([], rng)).1

theorem foldl_singleProcessRound (rounds : List Nat) (counts : List Nat) (rng : G) :
    rounds.foldl (singleProcessRound b) (counts, rng) =
      (counts ++ sampleStream b.sample rounds.length rng,
        (advance b.sample)^[rounds.length] rng) := by
  induction rounds generalizing counts rng with
  | nil => simp [sampleStream]
  | cons _ rounds ih =>
    rw [List.foldl_cons, singleProcessRound, ih]
    simp [sampleStream, advance, Function.iterate_succ_apply]

/-- The loop samples `num_samples` replicates one after another with its one generator. -/
theorem runSingleProcess_eq (numSamples : Nat) (rng : G) :
    runSingleProcess b numSamples rng = sampleStream b.sample numSamples rng := by
  simp [runSingleProcess, foldl_singleProcessRound]

end SingleProcess

/-! ## The pool -/

/-- A `multiprocessing.Pool` of `k` workers in the middle of a `pool.map`: the tasks no worker has
taken, each with its index; the tasks being run, each with its worker; each worker's
process-local state; and the results returned so far, each with its task's index. -/
structure Pool (k : Nat) (L A : Type) where
  pending : List (Nat × A)
  running : List (Fin k × Nat × A)
  locals : Fin k → L
  done : List (Nat × Nat)

namespace Pool

variable {k : Nat} {L A : Type}

/-- `pool.map(func, tasks)` as it starts: every task pending, every worker idle in the state its
start-up left. -/
def start (tasks : List A) (locals : Fin k → L) : Pool k L A :=
  { pending := tasks.enum, running := [], locals, done := [] }

/-- One step of the pool running `work` in its workers. An idle worker takes any pending task; a
worker finishes its task by applying `work` to its own state and the task's argument, and the
result is filed under the task's index. -/
inductive Step (work : L → A → Nat × L) : Pool k L A → Pool k L A → Prop
  | take {p : Pool k L A} (w : Fin k) (before after : List (Nat × A)) (task : Nat × A)
      (idle : w ∉ p.running.map (·.1)) (taken : p.pending = before ++ task :: after) :
      Step work p { p with pending := before ++ after, running := (w, task) :: p.running }
  | finish {p : Pool k L A} (w : Fin k) (before after : List (Fin k × Nat × A)) (i : Nat) (a : A)
      (ran : p.running = before ++ (w, i, a) :: after) :
      Step work p
        { p with
          running := before ++ after
          locals := Function.update p.locals w (work (p.locals w) a).2
          done := p.done ++ [(i, (work (p.locals w) a).1)] }

/-- No task is left: `pool.map` returns. -/
def Final (p : Pool k L A) : Prop := p.pending = [] ∧ p.running = []

/-- What `pool.map` returns: the result filed under each task index, in index order. -/
def mapResult (p : Pool k L A) (numTasks : Nat) : Option (List Nat) :=
  (List.range numTasks).mapM fun i => p.done.lookup i

example : (start [7, 8, 9] fun _ : Fin 2 => ()).mapResult 3 = none := rfl

/-! ### Every schedule ends -/

/-- Twice the pending tasks plus the running ones: each step takes one away. -/
def load (p : Pool k L A) : Nat := 2 * p.pending.length + p.running.length

variable {work : L → A → Nat × L}

theorem Step.load_lt {p q : Pool k L A} (step : Step work p q) : q.load < p.load := by
  cases step with
  | take w before after task _ taken =>
    simp only [load, taken, List.length_append, List.length_cons]
    omega
  | finish w before after i a ran =>
    simp only [load, ran, List.length_append, List.length_cons]
    omega

/-- No schedule of the pool runs forever. -/
theorem wellFounded_step : WellFounded fun q p : Pool k L A => Step work p q :=
  Subrelation.wf (fun step => step.load_lt) (measure Pool.load).wf

/-- No schedule of the pool steps forever: a least state of the schedule has no successor in it. -/
theorem not_steps_forever (schedule : Nat → Pool k L A) :
    ¬ ∀ i, Step work (schedule i) (schedule (i + 1)) := fun steps => by
  obtain ⟨_, ⟨i, rfl⟩, least⟩ :=
    (@wellFounded_step k L A work).has_min (Set.range schedule) ⟨_, 0, rfl⟩
  exact least _ ⟨i + 1, rfl⟩ (steps i)

/-- A pool with a worker and a task left can always take a step. -/
theorem exists_step (workers : 0 < k) {p : Pool k L A} (busy : ¬ p.Final) :
    ∃ q, Step work p q :=
  match running : p.running, pending : p.pending with
  | (w, i, a) :: _, _ => ⟨_, .finish w [] _ i a running⟩
  | [], task :: _ => ⟨_, .take ⟨0, workers⟩ [] _ task (by simp [running]) pending⟩
  | [], [] => absurd ⟨pending, running⟩ busy

/-- From every state, some schedule runs the pool until no task is left. -/
theorem reaches_final (workers : 0 < k) (p : Pool k L A) :
    ∃ q, Relation.ReflTransGen (Step work) p q ∧ q.Final := by
  induction p using (@wellFounded_step k L A work).induction with
  | _ p next =>
  by_cases final : p.Final
  · exact ⟨p, .refl, final⟩
  · obtain ⟨q, step⟩ := exists_step workers final
    obtain ⟨r, reached, rFinal⟩ := next q step
    exact ⟨r, .head step reached, rFinal⟩

/-- A property that every step keeps holds on every state a run reaches. -/
theorem invariant_of_reaches (Inv : Pool k L A → Prop)
    (preserved : ∀ {p q}, Inv p → Step work p q → Inv q) {p q : Pool k L A}
    (reached : Relation.ReflTransGen (Step work) p q) (initial : Inv p) : Inv q := by
  induction reached with
  | refl => exact initial
  | tail _ step ih => exact preserved ih step

/-! ### No task is lost or run twice -/

/-- What every state of a `pool.map` over `tasks` keeps: each task index is pending, running or
done exactly once, and each pending or running task still carries its own argument. -/
structure Accounted (tasks : List A) (p : Pool k L A) : Prop where
  indices : (p.pending.map (·.1) ++ p.running.map (·.2.1) ++ p.done.map (·.1)).Perm
    (List.range tasks.length)
  args : ∀ t ∈ p.pending ++ p.running.map (·.2), t ∈ tasks.enum

theorem accounted_start (tasks : List A) (locals : Fin k → L) :
    (start tasks locals).Accounted tasks where
  indices := by simp [start, List.enum_map_fst]
  args := by simp [start]

theorem Step.accounted {tasks : List A} {p q : Pool k L A} (acc : p.Accounted tasks)
    (step : Step work p q) : q.Accounted tasks := by
  obtain ⟨indices, args⟩ := acc
  cases step with
  | take w before after task _ taken =>
    rw [taken] at indices args
    refine ⟨List.Perm.trans (List.perm_iff_count.mpr fun x => ?_) indices,
      fun t mem => args t ?_⟩
    · simp only [List.map_append, List.map_cons, List.count_append, List.count_cons]
      omega
    · simp only [List.mem_append, List.mem_cons, List.map_cons] at mem ⊢
      tauto
  | finish w before after i a ran =>
    rw [ran] at indices args
    refine ⟨List.Perm.trans (List.perm_iff_count.mpr fun x => ?_) indices,
      fun t mem => args t ?_⟩
    · simp only [List.map_append, List.map_cons, List.map_nil, List.count_append,
        List.count_cons, List.count_nil]
      omega
    · simp only [List.mem_append, List.map_append, List.map_cons, List.mem_cons] at mem ⊢
      tauto

theorem accounted_of_reaches {tasks : List A} {locals : Fin k → L} {p : Pool k L A}
    (reached : Relation.ReflTransGen (Step work) (start tasks locals) p) : p.Accounted tasks :=
  invariant_of_reaches _ Step.accounted reached (accounted_start tasks locals)

/-- Once no task is left, the done indices are the task indices. -/
theorem Accounted.done_perm {tasks : List A} {p : Pool k L A} (acc : p.Accounted tasks)
    (final : p.Final) : (p.done.map (·.1)).Perm (List.range tasks.length) := by
  simpa [final.1, final.2] using acc.indices

/-! ### What `pool.map` returns -/

theorem lookup_eq_of_values {v : Nat → Nat} {i : Nat} :
    ∀ {results : List (Nat × Nat)}, (∀ d ∈ results, d.2 = v d.1) →
      i ∈ results.map (·.1) → results.lookup i = some (v i)
  | [], _, mem => absurd mem (List.not_mem_nil i)
  | (j, c) :: results, values, mem => by
    by_cases same : i = j
    · subst same
      rw [List.lookup_cons, beq_self_eq_true]
      exact congrArg some (values _ (List.mem_cons_self _ _))
    · have rest : i ∈ results.map (·.1) := by simpa [same] using mem
      rw [List.lookup_cons, beq_false_of_ne same]
      exact lookup_eq_of_values (fun d mem => values d (List.mem_cons_of_mem _ mem)) rest

theorem lookup_eq_of_nodup {d : Nat × Nat} :
    ∀ {results : List (Nat × Nat)}, (results.map (·.1)).Nodup → d ∈ results →
      results.lookup d.1 = some d.2
  | [], _, mem => absurd mem (List.not_mem_nil d)
  | (j, c) :: results, nodup, mem => by
    rw [List.map_cons, List.nodup_cons] at nodup
    rcases List.mem_cons.mp mem with rfl | mem
    · simp [List.lookup_cons]
    · have other : d.1 ≠ j := fun same => nodup.1 (same ▸ List.mem_map.mpr ⟨d, mem, rfl⟩)
      rw [List.lookup_cons, beq_false_of_ne other]
      exact lookup_eq_of_nodup nodup.2 mem

theorem mapM_eq_some_map {f : Nat → Option Nat} {v : Nat → Nat} :
    ∀ {indices : List Nat}, (∀ i ∈ indices, f i = some (v i)) →
      indices.mapM f = some (indices.map v)
  | [], _ => rfl
  | i :: indices, found => by
    rw [List.mapM_cons, found i (List.mem_cons_self _ _),
      mapM_eq_some_map fun j mem => found j (List.mem_cons_of_mem _ mem)]
    rfl

/-- When every result is the value `v` of its index, `pool.map` returns the values in order. -/
theorem Accounted.mapResult_eq_map {tasks : List A} {p : Pool k L A} (acc : p.Accounted tasks)
    (final : p.Final) (v : Nat → Nat) (values : ∀ d ∈ p.done, d.2 = v d.1) :
    p.mapResult tasks.length = some ((List.range tasks.length).map v) :=
  mapM_eq_some_map fun _ mem =>
    lookup_eq_of_values values ((acc.done_perm final).mem_iff.mpr mem)

/-- `pool.map` returns every result once, in some order. -/
theorem Accounted.mapResult_perm {tasks : List A} {p : Pool k L A} (acc : p.Accounted tasks)
    (final : p.Final) :
    ∃ counts, p.mapResult tasks.length = some counts ∧ counts.Perm (p.done.map (·.2)) := by
  have nodup := (acc.done_perm final).nodup_iff.mpr (List.nodup_range _)
  let v i := (p.done.lookup i).getD 0
  have values : ∀ d ∈ p.done, d.2 = v d.1 := fun d mem => by
    simp [v, lookup_eq_of_nodup nodup mem]
  refine ⟨_, acc.mapResult_eq_map final v values, ?_⟩
  have seconds : p.done.map (·.2) = (p.done.map (·.1)).map v := by
    rw [List.map_map]
    exact List.map_congr_left values
  rw [seconds]
  exact ((acc.done_perm final).map v).symm

theorem Accounted.length_done {tasks : List A} {p : Pool k L A} (acc : p.Accounted tasks)
    (final : p.Final) : p.done.length = tasks.length := by
  simpa using (acc.done_perm final).length_eq

/-- `pool.map` returns one result per task. -/
theorem Accounted.length_of_mapResult {tasks : List A} {p : Pool k L A} {counts : List Nat}
    (acc : p.Accounted tasks) (final : p.Final) (result : p.mapResult tasks.length = some counts) :
    counts.length = tasks.length := by
  obtain ⟨returned, mapped, perm⟩ := acc.mapResult_perm final
  obtain rfl := Option.some.inj (result.symm.trans mapped)
  rw [perm.length_eq, List.length_map, acc.length_done final]

/-- Every `pool.map` returns: some schedule ends, with a result filed for every task. -/
theorem map_returns (workers : 0 < k) (tasks : List A) (locals : Fin k → L) :
    ∃ p counts, Relation.ReflTransGen (Step work) (start tasks locals) p ∧ p.Final ∧
      p.mapResult tasks.length = some counts := by
  obtain ⟨p, reached, final⟩ := reaches_final workers (start tasks locals)
  obtain ⟨counts, mapped, -⟩ := (accounted_of_reaches reached).mapResult_perm final
  exact ⟨p, counts, reached, final, mapped⟩

end Pool

/-! ## The two pool strategies -/

section Strategies

variable {G : Type} (b : Bootstrap G)

/-- A task of the per-replicate strategy: `self._sample` on the generator the task carries; the
worker keeps nothing between tasks. -/
def perReplicateWork (_ : Unit) (rng : G) : Nat × Unit := ((b.sample rng).1, ())

/-- `Bootstrap._process_global_sample`: the task is a replicate id, which it ignores, and the
worker samples with its own `__rng`. -/
def processGlobalSample (rng : G) (_ : Nat) : Nat × G := b.sample rng

end Strategies

namespace Pool

variable {k : Nat} {L A : Type} {work : L → A → Nat × L}

/-- A worker whose result depends on the task's argument alone files, under each task index, the
result for that task's argument. -/
theorem results_of_reaches (f : A → Nat) (stateless : ∀ l a, (work l a).1 = f a)
    {tasks : List A} {locals : Fin k → L} {p : Pool k L A}
    (reached : Relation.ReflTransGen (Step work) (start tasks locals) p) :
    ∀ d ∈ p.done, ∃ a, (d.1, a) ∈ tasks.enum ∧ d.2 = f a := by
  refine (invariant_of_reaches (fun p => p.Accounted tasks ∧
    ∀ d ∈ p.done, ∃ a, (d.1, a) ∈ tasks.enum ∧ d.2 = f a) ?_ reached
    ⟨accounted_start tasks locals, by simp [start]⟩).2
  rintro p q ⟨acc, results⟩ step
  refine ⟨Step.accounted acc step, ?_⟩
  cases step with
  | take => exact results
  | finish w before after i a ran =>
    intro d mem
    rcases List.mem_append.mp mem with old | new
    · exact results d old
    · obtain rfl := List.mem_singleton.mp new
      exact ⟨a, acc.args _ (by simp [ran]), stateless _ _⟩

end Pool

section OwnStreams

variable {G A : Type} {k : Nat} (sample : G → Nat × G)

theorem sum_update_eq {M : Type} [AddCommMonoid M] (ks : Fin k → Nat) (w : Fin k) (j : Nat)
    (F : Fin k → Nat → M) :
    ∑ x, F x (Function.update ks w j x) = F w j + ∑ x ∈ Finset.univ.erase w, F x (ks x) := by
  rw [← Finset.add_sum_erase _ _ (Finset.mem_univ w), Function.update_same]
  congr 1
  exact Finset.sum_congr rfl fun x mem => by rw [Function.update_noteq (Finset.ne_of_mem_erase mem)]

/-- Under global sharing each worker samples with its own generator only: worker `w` has run
`ks w` replicates, its generator is its start-up generator advanced `ks w` times, and the results
so far are the first `ks w` draws of each worker's generator. -/
def OwnStreams (rngs : Fin k → G) (p : Pool k G A) : Prop :=
  ∃ ks : Fin k → Nat, (∀ w, p.locals w = (advance sample)^[ks w] (rngs w)) ∧
    ∑ w, ks w = p.done.length ∧
    (p.done.map (·.2) : Multiset Nat) = ∑ w, (sampleStream sample (ks w) (rngs w) : Multiset Nat)

theorem ownStreams_start (tasks : List A) (rngs : Fin k → G) :
    OwnStreams sample rngs (Pool.start tasks rngs) :=
  ⟨fun _ => 0, fun _ => rfl, by simp [Pool.start], by simp [Pool.start, sampleStream]⟩

theorem Pool.Step.ownStreams {rngs : Fin k → G} {p q : Pool k G A}
    (own : OwnStreams sample rngs p) (step : Pool.Step (fun rng _ => sample rng) p q) :
    OwnStreams sample rngs q := by
  obtain ⟨ks, locals, total, counts⟩ := own
  cases step with
  | take => exact ⟨ks, locals, total, counts⟩
  | finish w before after i a ran =>
    refine ⟨Function.update ks w (ks w + 1), fun x => ?_, ?_, ?_⟩
    · by_cases same : x = w
      · subst same
        simp [locals, advance, Function.iterate_succ_apply']
      · simp [same, locals]
    · have old := sum_update_eq ks w (ks w) fun _ n => n
      rw [Function.update_eq_self] at old
      rw [sum_update_eq ks w (ks w + 1) fun _ n => n, List.length_append, ← total, old]
      simp only [List.length_singleton]
      omega
    · have old := sum_update_eq ks w (ks w) fun x n =>
        (sampleStream sample n (rngs x) : Multiset Nat)
      rw [Function.update_eq_self] at old
      rw [sum_update_eq ks w (ks w + 1) fun x n => (sampleStream sample n (rngs x) : Multiset Nat),
        List.map_append, ← Multiset.coe_add, counts, old, sampleStream_succ_right, ← locals w,
        ← Multiset.coe_add, add_right_comm]
      rfl

theorem ownStreams_of_reaches {tasks : List A} {rngs : Fin k → G} {p : Pool k G A}
    (reached :
      Relation.ReflTransGen (Pool.Step fun rng _ => sample rng) (Pool.start tasks rngs) p) :
    OwnStreams sample rngs p :=
  Pool.invariant_of_reaches _ (Pool.Step.ownStreams sample) reached
    (ownStreams_start sample tasks rngs)

end OwnStreams

/-! ## `Bootstrap.run` -/

/-- The number of workers `__run_multi_process` starts: `mp.cpu_count()` for `num_proc=0`. -/
def resolveNumProc (cpuCount numProc : Nat) : Nat := if numProc = 0 then cpuCount else numProc

/-- `Bootstrap.run(num_samples, num_proc)`: the `boot_counts` a run may wrap in its
`BootstrapResults`. `multiprocessing.Pool` refuses fewer than one process. -/
inductive Bootstrap.Runs {G : Type} (b : Bootstrap G) (defaultRng entropy : Nat → G)
    (cpuCount numSamples : Nat) : Option Nat → List Nat → Prop
  | singleProcess :
      Runs b defaultRng entropy cpuCount numSamples none
        (runSingleProcess b numSamples (entropy 0))
  | perReplicate {numProc : Nat} {counts : List Nat}
      {p : Pool (resolveNumProc cpuCount numProc) Unit G}
      (notSharing : b.useGlobalSharing = false) (atLeastOne : 0 < resolveNumProc cpuCount numProc)
      (reached : Relation.ReflTransGen (Pool.Step (perReplicateWork b))
        (Pool.start ((List.range numSamples).map defaultRng) fun _ => ()) p)
      (final : p.Final) (result : p.mapResult numSamples = some counts) :
      Runs b defaultRng entropy cpuCount numSamples (some numProc) counts
  | globalSharing {numProc : Nat} {counts : List Nat}
      {p : Pool (resolveNumProc cpuCount numProc) G Nat}
      (sharing : b.useGlobalSharing = true) (atLeastOne : 0 < resolveNumProc cpuCount numProc)
      (reached : Relation.ReflTransGen (Pool.Step (processGlobalSample b))
        (Pool.start (List.range numSamples) fun w => entropy w) p)
      (final : p.Final) (result : p.mapResult numSamples = some counts) :
      Runs b defaultRng entropy cpuCount numSamples (some numProc) counts

section Run

variable {G : Type} {b : Bootstrap G} {defaultRng entropy : Nat → G} {cpuCount numSamples : Nat}

theorem mem_enum_map_range {f : Nat → G} {i : Nat} {a : G}
    (mem : (i, a) ∈ ((List.range numSamples).map f).enum) : a = f i := by
  rw [(List.mem_enum mem).2]
  simp

/-- Without global sharing, replicate `i` is `_sample` on `np.random.default_rng(i)`, whatever
the number of processes and the order the pool runs the tasks in. -/
theorem per_replicate_counts_reproducible {numProc : Nat} {counts : List Nat}
    (ran : b.Runs defaultRng entropy cpuCount numSamples (some numProc) counts)
    (notSharing : b.useGlobalSharing = false) :
    counts = (List.range numSamples).map fun i => (b.sample (defaultRng i)).1 := by
  cases ran with
  | globalSharing sharing => simp [sharing] at notSharing
  | perReplicate _ _ reached final result =>
    have values := @Pool.results_of_reaches _ _ _ (perReplicateWork b) (fun rng => (b.sample rng).1)
      (fun _ _ => rfl) _ _ _ reached
    have returned := (Pool.accounted_of_reaches reached).mapResult_eq_map final
      (fun i => (b.sample (defaultRng i)).1) fun d mem => by
        obtain ⟨a, arg, count⟩ := values d mem
        rw [count, mem_enum_map_range arg]
    simp only [List.length_map, List.length_range] at returned
    exact Option.some.inj (result.symm.trans returned)

/-- Two workers finish the two replicates in the other order than they took them. -/
theorem per_replicate_counts_reproducible_two_workers :
    [0, 10] = (List.range 2).map fun i =>
      ((⟨fun rng => (10 * rng, rng), false⟩ : Bootstrap Nat).sample (id i)).1 :=
  @per_replicate_counts_reproducible Nat ⟨fun rng => (10 * rng, rng), false⟩ id id 4 2 2 _
    (.perReplicate rfl (by decide)
      (.tail (.tail (.tail (.tail .refl
        (.take ⟨0, Nat.zero_lt_two⟩ [] _ (0, 0) (by decide) rfl))
        (.take ⟨1, Nat.one_lt_two⟩ [] _ (1, 1) (by decide) rfl))
        (.finish ⟨1, Nat.one_lt_two⟩ [] _ 1 1 rfl))
        (.finish ⟨0, Nat.zero_lt_two⟩ [] _ 0 0 rfl))
      ⟨rfl, rfl⟩ rfl)
    rfl

/-- Under global sharing, the counts are the first `ks w` draws of worker `w`'s own generator,
the shares `ks` of the workers adding up to `num_samples`. -/
theorem global_sharing_counts_own_streams {numProc : Nat} {counts : List Nat}
    (ran : b.Runs defaultRng entropy cpuCount numSamples (some numProc) counts)
    (sharing : b.useGlobalSharing = true) :
    ∃ ks : Fin (resolveNumProc cpuCount numProc) → Nat, ∑ w, ks w = numSamples ∧
      (counts : Multiset Nat) =
        ∑ w, (sampleStream b.sample (ks w) (entropy w) : Multiset Nat) := by
  cases ran with
  | perReplicate notSharing => simp [sharing] at notSharing
  | globalSharing _ _ reached final result =>
    have acc := Pool.accounted_of_reaches reached
    obtain ⟨ks, -, total, streams⟩ := ownStreams_of_reaches b.sample reached
    obtain ⟨returned, mapped, perm⟩ := acc.mapResult_perm final
    simp only [List.length_range] at mapped
    obtain rfl := Option.some.inj (result.symm.trans mapped)
    refine ⟨ks, ?_, ?_⟩
    · rw [total, acc.length_done final, List.length_range]
    · rw [← streams]
      exact Multiset.coe_eq_coe.mpr perm

/-- `num_proc=0` on two CPUs: worker 0 runs replicates 0 and 2 while worker 1 runs replicate 1. -/
theorem global_sharing_counts_own_streams_two_workers :
    ∃ ks : Fin (resolveNumProc 2 0) → Nat, ∑ w, ks w = 3 ∧
      (([0, 100, 1] : List Nat) : Multiset Nat) =
        ∑ w, (sampleStream (⟨fun rng => (rng, rng + 1), true⟩ : Bootstrap Nat).sample (ks w)
          (100 * (w : Nat)) : Multiset Nat) :=
  @global_sharing_counts_own_streams Nat ⟨fun rng => (rng, rng + 1), true⟩ id (fun j => 100 * j)
    2 3 0 _
    (.globalSharing rfl (by decide)
      (.tail (.tail (.tail (.tail (.tail (.tail .refl
        (.take ⟨0, Nat.zero_lt_two⟩ [] _ (0, 0) (by decide) rfl))
        (.take ⟨1, Nat.one_lt_two⟩ [] _ (1, 1) (by decide) rfl))
        (.finish ⟨0, Nat.zero_lt_two⟩ [_] [] 0 0 rfl))
        (.take ⟨0, Nat.zero_lt_two⟩ [] [] (2, 2) (by decide) rfl))
        (.finish ⟨0, Nat.zero_lt_two⟩ [] [_] 2 2 rfl))
        (.finish ⟨1, Nat.one_lt_two⟩ [] [] 1 1 rfl))
      ⟨rfl, rfl⟩ rfl)
    rfl

/-- Every run returns, whatever the strategy and the number of processes, and it returns one count
per replicate; no schedule of either strategy's pool runs forever. -/
theorem run_returns_every_replicate (b : Bootstrap G) (defaultRng entropy : Nat → G)
    (cpus : 0 < cpuCount) (numSamples : Nat) (numProc : Option Nat) :
    (∃ counts, b.Runs defaultRng entropy cpuCount numSamples numProc counts) ∧
    (∀ counts, b.Runs defaultRng entropy cpuCount numSamples numProc counts →
      counts.length = numSamples) ∧
    (∀ k (schedule : Nat → Pool k Unit G),
      ¬ ∀ i, Pool.Step (perReplicateWork b) (schedule i) (schedule (i + 1))) ∧
    ∀ k (schedule : Nat → Pool k G Nat),
      ¬ ∀ i, Pool.Step (processGlobalSample b) (schedule i) (schedule (i + 1)) := by
  refine ⟨?_, ?_, fun _ => Pool.not_steps_forever, fun _ => Pool.not_steps_forever⟩
  · cases numProc with
    | none => exact ⟨_, .singleProcess⟩
    | some numProc =>
      have atLeastOne : 0 < resolveNumProc cpuCount numProc := by
        unfold resolveNumProc
        split <;> omega
      cases sharing : b.useGlobalSharing with
      | false =>
        obtain ⟨p, counts, reached, final, mapped⟩ := @Pool.map_returns _ _ _
          (perReplicateWork b) atLeastOne ((List.range numSamples).map defaultRng) fun _ => ()
        exact ⟨counts, .perReplicate sharing atLeastOne reached final (by simpa using mapped)⟩
      | true =>
        obtain ⟨p, counts, reached, final, mapped⟩ := @Pool.map_returns _ _ _
          (processGlobalSample b) atLeastOne (List.range numSamples) fun w => entropy w
        exact ⟨counts, .globalSharing sharing atLeastOne reached final (by simpa using mapped)⟩
  · intro counts ran
    cases ran with
    | singleProcess => simp [runSingleProcess_eq]
    | perReplicate _ _ reached final result | globalSharing _ _ reached final result =>
      simpa using (Pool.accounted_of_reaches reached).length_of_mapResult final
        (by simpa using result)

/-- `num_proc=0` on two CPUs, under global sharing. -/
theorem run_returns_every_replicate_on_all_cpus :
    (∃ counts, Bootstrap.Runs ⟨fun rng : Nat => (rng, rng + 1), true⟩ id id 2 3 (some 0) counts) ∧
    (∀ counts, Bootstrap.Runs ⟨fun rng : Nat => (rng, rng + 1), true⟩ id id 2 3 (some 0) counts →
      counts.length = 3) ∧
    (∀ k (schedule : Nat → Pool k Unit Nat),
      ¬ ∀ i, Pool.Step (perReplicateWork ⟨fun rng : Nat => (rng, rng + 1), true⟩)
        (schedule i) (schedule (i + 1))) ∧
    ∀ k (schedule : Nat → Pool k Nat Nat),
      ¬ ∀ i, Pool.Step (processGlobalSample ⟨fun rng : Nat => (rng, rng + 1), true⟩)
        (schedule i) (schedule (i + 1)) :=
  run_returns_every_replicate _ id id (by decide) 3 (some 0)

end Run

end CrosPlatform.Biod
