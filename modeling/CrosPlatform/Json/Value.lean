import Mathlib.Data.List.Basic

/-!
# JSON values as Python holds them

`json.loads` turns a JSON text into `None`, `bool`, `int`, `float`, `str`, `list` and `dict`
values, and `json.dumps` writes them back. A `dict` keeps its keys in insertion order, and
building one from parsed members (`PyDict_SetItem`) replaces the value of a repeated key in the
position of its first occurrence; `normalize` is that construction applied everywhere.

A `float` is kept as the literal text it was read from: no modelled function reads one.
-/

namespace CrosPlatform.Json

/-- A JSON value as Python's `json` module reads and writes it. -/
inductive JsonValue where
  | null
  | bool (b : Bool)
  | int (n : Int)
  | float (literal : String)
  | str (s : String)
  | arr (items : List JsonValue)
  | obj (members : List (String × JsonValue))
  deriving Inhabited, Repr

/-- The exceptions the modelled Python code raises. -/
inductive PyError where
  | jsonDecode (msg : String)
  | keyError (key : String)
  | typeError (msg : String)
  | attributeError (msg : String)
  /-- Never raised: `loads` gives its scanner more fuel than any text can use up. -/
  | fuelExhausted
  deriving DecidableEq, Repr

/-! ## Dictionaries -/

/-- `d[key] = value` on the members of a dict: the value of a present key is replaced in place,
a new key goes last. -/
def dictSet : List (String × JsonValue) → String → JsonValue → List (String × JsonValue)
  | [], key, value => [(key, value)]
  | m :: rest, key, value => if m.1 = key then (key, value) :: rest else m :: dictSet rest key value

/-- `dict(pairs)`: the members inserted one after another. -/
def dictOfPairs (pairs : List (String × JsonValue)) : List (String × JsonValue) :=
  pairs.foldl (fun members m => dictSet members m.1 m.2) []

/-- `List.lookup` on a cons, for a pair that is not written out. -/
@[simp] theorem lookup_cons_eq {key : String} {m : String × JsonValue}
    {rest : List (String × JsonValue)} :
    (m :: rest).lookup key = if key = m.1 then some m.2 else rest.lookup key := by
  obtain ⟨k, v⟩ := m
  rw [List.lookup_cons]
  by_cases same : key = k
  · simp [same]
  · have differ : (key == k) = false := by simpa using same
    simp [same, differ]

section Dict

variable {key : String} {value : JsonValue}

theorem keys_dictSet (members : List (String × JsonValue)) :
    (dictSet members key value).map (·.1) =
      if key ∈ members.map (·.1) then members.map (·.1) else members.map (·.1) ++ [key] := by
  induction members with
  | nil => simp [dictSet]
  | cons m rest ih =>
    by_cases same : m.1 = key
    · simp [dictSet, same]
    · simp only [dictSet, same, if_false, List.map_cons, ih, List.mem_cons, Ne.symm same,
        false_or]
      split_ifs <;> rfl

theorem nodup_keys_dictSet {members : List (String × JsonValue)}
    (nodup : (members.map (·.1)).Nodup) : ((dictSet members key value).map (·.1)).Nodup := by
  rw [keys_dictSet]
  split_ifs with present
  · exact nodup
  · refine List.pairwise_append.mpr ⟨nodup, List.pairwise_singleton _ _, ?_⟩
    rintro k mem _ single rfl
    exact present (by simpa [List.mem_singleton.mp single] using mem)

theorem mem_dictSet {members : List (String × JsonValue)} {m : String × JsonValue}
    (mem : m ∈ dictSet members key value) : m ∈ members ∨ m = (key, value) := by
  induction members with
  | nil => simpa [dictSet] using mem
  | cons m' rest ih =>
    unfold dictSet at mem
    split_ifs at mem
    · rcases List.mem_cons.mp mem with here | later
      · exact .inr here
      · exact .inl (List.mem_cons_of_mem _ later)
    · rcases List.mem_cons.mp mem with here | later
      · exact .inl (here ▸ List.mem_cons_self _ _)
      · exact (ih later).imp_left (List.mem_cons_of_mem _)

@[simp] theorem lookup_dictSet (members : List (String × JsonValue)) (key' : String) :
    (dictSet members key value).lookup key' =
      if key' = key then some value else members.lookup key' := by
  induction members with
  | nil => simp [dictSet]
  | cons m rest ih =>
    by_cases here : m.1 = key
    · by_cases same : key' = key <;> simp [dictSet, here, same]
    · by_cases same : key' = key
      · subst same
        simp [dictSet, here, ih, Ne.symm here]
      · simp [dictSet, here, ih, same]

end Dict

mutual
/-- Every object rebuilt as Python builds a `dict` from its members. -/
def JsonValue.normalize : JsonValue → JsonValue
  | .arr items => .arr (normalizeItems items)
  | .obj members => .obj (dictOfPairs (normalizeMembers members))
  | v => v

def normalizeItems : List JsonValue → List JsonValue
  | [] => []
  | v :: rest => v.normalize :: normalizeItems rest

def normalizeMembers : List (String × JsonValue) → List (String × JsonValue)
  | [] => []
  | (k, v) :: rest => (k, v.normalize) :: normalizeMembers rest
end

mutual
/-- Apply `f` to every string of a value, the keys of its objects included. -/
def JsonValue.mapStrings (f : String → String) : JsonValue → JsonValue
  | .str s => .str (f s)
  | .arr items => .arr (mapStringsItems f items)
  | .obj members => .obj (mapStringsMembers f members)
  | v => v

def mapStringsItems (f : String → String) : List JsonValue → List JsonValue
  | [] => []
  | v :: rest => v.mapStrings f :: mapStringsItems f rest

def mapStringsMembers (f : String → String) : List (String × JsonValue) → List (String × JsonValue)
  | [] => []
  | (k, v) :: rest => (f k, v.mapStrings f) :: mapStringsMembers f rest
end

/-! ## Properties of every nested value -/

mutual
/-- `P` holds of the value and of every value nested in it. -/
def JsonValue.Everywhere (P : JsonValue → Prop) : JsonValue → Prop
  | .arr items => P (.arr items) ∧ EverywhereItems P items
  | .obj members => P (.obj members) ∧ EverywhereMembers P members
  | v => P v

def EverywhereItems (P : JsonValue → Prop) : List JsonValue → Prop
  | [] => True
  | v :: rest => v.Everywhere P ∧ EverywhereItems P rest

def EverywhereMembers (P : JsonValue → Prop) : List (String × JsonValue) → Prop
  | [] => True
  | (_, v) :: rest => v.Everywhere P ∧ EverywhereMembers P rest
end

section Everywhere

variable {P : JsonValue → Prop}

@[simp]
theorem everywhereItems_iff {items : List JsonValue} :
    EverywhereItems P items ↔ ∀ v ∈ items, v.Everywhere P := by
  induction items with
  | nil => simp [EverywhereItems]
  | cons v rest ih => simp [EverywhereItems, ih]

@[simp]
theorem everywhereMembers_iff {members : List (String × JsonValue)} :
    EverywhereMembers P members ↔ ∀ m ∈ members, m.2.Everywhere P := by
  induction members with
  | nil => simp [EverywhereMembers]
  | cons m rest ih => simp [EverywhereMembers, ih]

@[simp]
theorem everywhere_arr {items : List JsonValue} :
    (JsonValue.arr items).Everywhere P ↔ P (.arr items) ∧ ∀ v ∈ items, v.Everywhere P := by
  simp [JsonValue.Everywhere]

@[simp]
theorem everywhere_obj {members : List (String × JsonValue)} :
    (JsonValue.obj members).Everywhere P ↔
      P (.obj members) ∧ ∀ m ∈ members, m.2.Everywhere P := by
  simp [JsonValue.Everywhere]

theorem JsonValue.Everywhere.self {v : JsonValue} (h : v.Everywhere P) : P v := by
  cases v <;> simp_all [JsonValue.Everywhere]

end Everywhere

/-- What a `dict` is: no object of the value repeats a key. -/
def JsonValue.KeysDistinct : JsonValue → Prop :=
  JsonValue.Everywhere fun
    | .obj members => (members.map (·.1)).Nodup
    | _ => True

section KeysDistinct

variable {items : List JsonValue} {members : List (String × JsonValue)}

@[simp]
theorem keysDistinct_arr : (JsonValue.arr items).KeysDistinct ↔ ∀ v ∈ items, v.KeysDistinct := by
  simp [JsonValue.KeysDistinct]

@[simp]
theorem keysDistinct_obj :
    (JsonValue.obj members).KeysDistinct ↔
      (members.map (·.1)).Nodup ∧ ∀ m ∈ members, m.2.KeysDistinct := by
  simp [JsonValue.KeysDistinct]

/-- Inserting into a dict keeps it a dict. -/
theorem keysDistinct_dictSet {key : String} {value : JsonValue}
    (dict : (JsonValue.obj members).KeysDistinct) (distinct : value.KeysDistinct) :
    (JsonValue.obj (dictSet members key value)).KeysDistinct := by
  rw [keysDistinct_obj] at dict ⊢
  refine ⟨nodup_keys_dictSet dict.1, fun m mem => ?_⟩
  rcases mem_dictSet mem with old | rfl
  · exact dict.2 m old
  · exact distinct

theorem keysDistinct_dictOfPairs (pairs : List (String × JsonValue))
    (distinct : ∀ m ∈ pairs, m.2.KeysDistinct) : (JsonValue.obj (dictOfPairs pairs)).KeysDistinct := by
  suffices ∀ acc : List (String × JsonValue), (JsonValue.obj acc).KeysDistinct →
      (JsonValue.obj (pairs.foldl (fun members m => dictSet members m.1 m.2) acc)).KeysDistinct from
    this [] (by simp)
  induction pairs with
  | nil => exact fun _ dict => dict
  | cons m rest ih =>
    intro acc dict
    exact ih (fun m' mem => distinct m' (List.mem_cons_of_mem _ mem)) _
      (keysDistinct_dictSet dict (distinct m (List.mem_cons_self _ _)))

mutual
/-- Whatever it is built from, a normalized value is a dict at every level. -/
theorem keysDistinct_normalize : ∀ v : JsonValue, v.normalize.KeysDistinct
  | .arr items => by
    simpa [JsonValue.normalize] using keysDistinct_normalizeItems items
  | .obj members => by
    simpa [JsonValue.normalize] using
      keysDistinct_dictOfPairs _ (keysDistinct_normalizeMembers members)
  | .null | .bool _ | .int _ | .float _ | .str _ => by
    simp [JsonValue.normalize, JsonValue.KeysDistinct, JsonValue.Everywhere]

theorem keysDistinct_normalizeItems :
    ∀ items : List JsonValue, ∀ v ∈ normalizeItems items, v.KeysDistinct
  | [] => by simp [normalizeItems]
  | v :: rest => by
    simpa [normalizeItems] using ⟨keysDistinct_normalize v, keysDistinct_normalizeItems rest⟩

theorem keysDistinct_normalizeMembers :
    ∀ members : List (String × JsonValue), ∀ m ∈ normalizeMembers members, m.2.KeysDistinct
  | [] => by simp [normalizeMembers]
  | (k, v) :: rest => by
    simpa [normalizeMembers] using
      ⟨keysDistinct_normalize v, fun k w => keysDistinct_normalizeMembers rest (k, w)⟩
end

theorem dictSet_of_not_mem {key : String} {value : JsonValue} :
    ∀ {members : List (String × JsonValue)}, key ∉ members.map (·.1) →
      dictSet members key value = members ++ [(key, value)]
  | [], _ => rfl
  | m :: rest, absent => by
    simp only [List.map_cons, List.mem_cons, not_or] at absent
    simp [dictSet, Ne.symm absent.1, dictSet_of_not_mem absent.2]

/-- A `dict` built from pairs with distinct keys holds them as they are. -/
theorem dictOfPairs_of_nodup {pairs : List (String × JsonValue)} (nodup : (pairs.map (·.1)).Nodup) :
    dictOfPairs pairs = pairs := by
  suffices ∀ acc : List (String × JsonValue), ((acc ++ pairs).map (·.1)).Nodup →
      pairs.foldl (fun members m => dictSet members m.1 m.2) acc = acc ++ pairs from
    this [] (by simpa using nodup)
  clear nodup
  induction pairs with
  | nil => simp
  | cons p rest ih =>
    obtain ⟨key, value⟩ := p
    intro acc distinct
    have absent : key ∉ acc.map (·.1) := fun mem => by
      rw [List.map_append, List.map_cons] at distinct
      exact (List.pairwise_append.mp distinct).2.2 _ mem _ (List.mem_cons_self _ _) rfl
    rw [List.foldl_cons, dictSet_of_not_mem absent, ih (acc ++ [(key, value)]) (by simpa using distinct)]
    simp

mutual
/-- Normalizing changes no value whose objects are dicts already. -/
theorem normalize_of_keysDistinct : ∀ {v : JsonValue}, v.KeysDistinct → v.normalize = v
  | .arr items, distinct => by
    rw [JsonValue.normalize, normalizeItems_of_keysDistinct (keysDistinct_arr.mp distinct)]
  | .obj members, distinct => by
    obtain ⟨nodup, each⟩ := keysDistinct_obj.mp distinct
    have keys : (normalizeMembers members).map (·.1) = members.map (·.1) := by
      rw [normalizeMembers_of_keysDistinct each]
    rw [JsonValue.normalize, dictOfPairs_of_nodup (keys ▸ nodup), normalizeMembers_of_keysDistinct each]
  | .null, _ | .bool _, _ | .int _, _ | .float _, _ | .str _, _ => rfl

theorem normalizeItems_of_keysDistinct :
    ∀ {items : List JsonValue}, (∀ v ∈ items, v.KeysDistinct) → normalizeItems items = items
  | [], _ => rfl
  | v :: rest, distinct => by
    rw [normalizeItems, normalize_of_keysDistinct (distinct v (List.mem_cons_self _ _)),
      normalizeItems_of_keysDistinct fun w mem => distinct w (List.mem_cons_of_mem _ mem)]

theorem normalizeMembers_of_keysDistinct :
    ∀ {members : List (String × JsonValue)}, (∀ m ∈ members, m.2.KeysDistinct) →
      normalizeMembers members = members
  | [], _ => rfl
  | (k, v) :: rest, distinct => by
    rw [normalizeMembers, normalize_of_keysDistinct (distinct (k, v) (List.mem_cons_self _ _)),
      normalizeMembers_of_keysDistinct fun m mem => distinct m (List.mem_cons_of_mem _ mem)]
end

end KeysDistinct

end CrosPlatform.Json
