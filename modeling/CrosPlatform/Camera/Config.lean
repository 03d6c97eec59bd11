import CrosPlatform.Camera.TrailingComma
import CrosPlatform.Json.Sound

/-!
# The Fake HAL config as Python holds it

`fake_hal.py` reads and changes the value `_load_config` returns with subscripts, `dict.get`,
`list.append`, `for` loops and truth tests. Each is a function on `JsonValue` here, raising as
Python does on a value of the wrong kind.

The camera ids of a config are read by `cameraIds`, which is defined when every camera is a
dict with an `int` id. Saving a config and loading it back keeps them (`cameraIds_load_save`),
although the trailing-comma substitution can change its strings: no key the ids are found under
can be produced by that substitution from another key.
-/

namespace CrosPlatform.Camera

open CrosPlatform.Json

/-! ## Python operations -/

/-- `type(value).__name__`. -/
def typeName : JsonValue → String
  | .null => "NoneType"
  | .bool _ => "bool"
  | .int _ => "int"
  | .float _ => "float"
  | .str _ => "str"
  | .arr _ => "list"
  | .obj _ => "dict"

/-- `value[key]` with a `str` key. -/
def getItem (value : JsonValue) (key : String) : Except PyError JsonValue :=
  match value with
  | .obj members =>
    match members.lookup key with
    | some item => .ok item
    | none => .error (.keyError key)
  | .arr _ => .error (.typeError "list indices must be integers or slices, not str")
  | .str _ => .error (.typeError "string indices must be integers, not 'str'")
  | other => .error (.typeError ("'" ++ typeName other ++ "' object is not subscriptable"))

/-- `value.get(key, default)`. -/
def dictGet (value : JsonValue) (key : String) (default : JsonValue) :
    Except PyError JsonValue :=
  match value with
  | .obj members => .ok ((members.lookup key).getD default)
  | other => .error (.attributeError ("'" ++ typeName other ++ "' object has no attribute 'get'"))

/-- `value[key] = item` with a `str` key. -/
def setItem (value : JsonValue) (key : String) (item : JsonValue) : Except PyError JsonValue :=
  match value with
  | .obj members => .ok (.obj (dictSet members key item))
  | .arr _ => .error (.typeError "list indices must be integers or slices, not str")
  | other =>
    .error (.typeError ("'" ++ typeName other ++ "' object does not support item assignment"))

/-- `for item in value`: a list's items, a dict's keys, a string's characters. -/
def iterate : JsonValue → Except PyError (List JsonValue)
  | .arr items => .ok items
  | .obj members => .ok (members.map fun m => .str m.1)
  | .str s => .ok (s.toList.map fun c => .str (String.singleton c))
  | other => .error (.typeError ("'" ++ typeName other ++ "' object is not iterable"))

/-- `value.append(item)`. -/
def append (value item : JsonValue) : Except PyError JsonValue :=
  match value with
  | .arr items => .ok (.arr (items ++ [item]))
  | other =>
    .error (.attributeError ("'" ++ typeName other ++ "' object has no attribute 'append'"))

/-- `bool(value)`. A float is false when the digits before its exponent are all zeros. -/
def truthy : JsonValue → Bool
  | .null => false
  | .bool b => b
  | .int n => n != 0
  | .float literal =>
    !(literal.toList.takeWhile fun c => c != 'e' && c != 'E').all
      fun c => c == '0' || c == '.' || c == '-'
  | .str s => !s.isEmpty
  | .arr items => !items.isEmpty
  | .obj members => !members.isEmpty

/-- The hash `set(...)` takes of each element: lists and dicts have none. -/
def hashable (value : JsonValue) : Except PyError JsonValue :=
  match value with
  | .arr _ | .obj _ => .error (.typeError ("unhashable type: '" ++ typeName value ++ "'"))
  | other => .ok other

/-- `n == value` for an `int` `n`: an `int` or a `bool` compares by value. A float, which is
kept as its text, is taken to differ from every `int`. -/
def intEquals (n : Int) : JsonValue → Bool
  | .int m => n == m
  | .bool b => n == if b then 1 else 0
  | _ => false

/-! ## The config file -/

/-- `_EMPTY_CONFIG`. -/
def emptyConfig : JsonValue :=
  .obj [("cameras", .arr [])]

/-- `_load_config()`, given the text of the config file, `none` when the file does not exist. -/
def loadConfig : Option String → Except PyError JsonValue
  | none => .ok emptyConfig
  | some text => loadJson text

/-- `_save_config(config)`: the text it writes. -/
def saveConfig (config : JsonValue) : String :=
  dumps config

/-! ## Camera ids -/

/-- The value of a dict's key. -/
def field : JsonValue → String → Option JsonValue
  | .obj members, key => members.lookup key
  | _, _ => none

/-- The id of a camera that is a dict with an `int` id. -/
def cameraId (camera : JsonValue) : Option Int :=
  match field camera "id" with
  | some (.int n) => some n
  | _ => none

/-- The ids of the cameras of a config, when its cameras are a list of dicts with `int` ids. -/
def cameraIds (config : JsonValue) : Option (List Int) :=
  match field config "cameras" with
  | some (.arr cameras) => cameras.mapM cameraId
  | _ => none

/-- A config whose cameras have pairwise-distinct `int` ids. -/
def IdsDistinct (config : JsonValue) : Prop :=
  ∃ ids, cameraIds config = some ids ∧ ids.Nodup

/-! ## Reading the operations back -/

theorem bind_eq_ok {α β : Type} {x : Except PyError α} {f : α → Except PyError β} {b : β} :
    x >>= f = .ok b ↔ ∃ a, x = .ok a ∧ f a = .ok b := by
  cases x <;> simp [bind, Except.bind]

theorem getItem_eq_ok {value item : JsonValue} {key : String} :
    getItem value key = .ok item ↔ field value key = some item := by
  cases value with
  | obj members =>
    simp only [getItem, field]
    cases members.lookup key <;> simp
  | _ => simp [getItem, field]

theorem setItem_eq_ok {value item result : JsonValue} {key : String} :
    setItem value key item = .ok result ↔
      ∃ members, value = .obj members ∧ result = .obj (dictSet members key item) := by
  cases value <;> simp [setItem, eq_comm]

theorem cameraId_eq_some {camera : JsonValue} {n : Int} :
    cameraId camera = some n ↔ field camera "id" = some (.int n) := by
  unfold cameraId
  split <;> simp_all

theorem cameras_of_cameraIds {config : JsonValue} {ids : List Int}
    (found : cameraIds config = some ids) :
    ∃ cameras, field config "cameras" = some (.arr cameras) ∧ cameras.mapM cameraId = some ids := by
  unfold cameraIds at found
  split at found
  · exact ⟨_, ‹_›, found⟩
  · cases found

theorem mapM_cons_eq_some {α β : Type} {f : α → Option β} {a : α} {l : List α} {ys : List β} :
    (a :: l).mapM f = some ys ↔ ∃ y ys', f a = some y ∧ l.mapM f = some ys' ∧ ys = y :: ys' := by
  simp only [List.mapM_cons, Option.bind_eq_bind, Option.bind_eq_some, Option.pure_def,
    Option.some.injEq]
  constructor
  · rintro ⟨y, first, ys', later, rfl⟩
    exact ⟨y, ys', first, later, rfl⟩
  · rintro ⟨y, ys', first, later, rfl⟩
    exact ⟨y, first, ys', later, rfl⟩

theorem mem_of_lookup_eq_some {members : List (String × JsonValue)} {key : String}
    {value : JsonValue} (found : members.lookup key = some value) : (key, value) ∈ members := by
  induction members with
  | nil => cases found
  | cons m rest ih =>
    by_cases here : key = m.1
    · simp only [lookup_cons_eq, here, if_true, Option.some.injEq] at found
      subst found
      rw [here]
      exact List.mem_cons_self _ _
    · simp only [lookup_cons_eq, here, if_false] at found
      exact List.mem_cons_of_mem _ (ih found)

theorem lookup_eq_none_of_not_mem {members : List (String × JsonValue)} {key : String}
    (absent : key ∉ members.map (·.1)) : members.lookup key = none := by
  induction members with
  | nil => rfl
  | cons m rest ih =>
    simp only [List.map_cons, List.mem_cons, not_or] at absent
    simp only [lookup_cons_eq, absent.1, if_false, ih absent.2]

theorem field_keysDistinct {v w : JsonValue} {key : String} (distinct : v.KeysDistinct)
    (found : field v key = some w) : w.KeysDistinct := by
  cases v with
  | obj members => exact (keysDistinct_obj.mp distinct).2 _ (mem_of_lookup_eq_some found)
  | _ => cases found

theorem field_wellFormed {v w : JsonValue} {key : String} (wellFormed : v.WellFormed)
    (found : field v key = some w) : w.WellFormed := by
  cases v with
  | obj members => exact (wellFormed_obj.mp wellFormed).2 _ (mem_of_lookup_eq_some found)
  | _ => cases found

/-- Replacing the camera list of a config. -/
theorem setItem_cameras {config config' : JsonValue} {cameras : List JsonValue}
    (set : setItem config "cameras" (.arr cameras) = .ok config') (wellFormed : config.WellFormed)
    (camerasWellFormed : ∀ c ∈ cameras, c.WellFormed) :
    config'.WellFormed ∧ cameraIds config' = cameras.mapM cameraId := by
  obtain ⟨members, rfl, rfl⟩ := setItem_eq_ok.mp set
  exact ⟨wellFormed_dictSet wellFormed (wellFormed_arr.mpr camerasWellFormed),
    by simp [cameraIds, field]⟩

/-! ## Saving and loading keeps the ids -/

section Reload

variable {f : String → String}

theorem normalizeItems_mapStringsItems (items : List JsonValue) :
    normalizeItems (mapStringsItems f items) = items.map fun v => (v.mapStrings f).normalize := by
  induction items with
  | nil => rfl
  | cons v rest ih => simp [mapStringsItems, normalizeItems, ih]

theorem normalizeMembers_mapStringsMembers (members : List (String × JsonValue)) :
    normalizeMembers (mapStringsMembers f members) =
      members.map fun m => (f m.1, (m.2.mapStrings f).normalize) := by
  induction members with
  | nil => rfl
  | cons m rest ih => simp [mapStringsMembers, normalizeMembers, ih]

/-- Building a dict from renamed members: a key that only itself is renamed to keeps its value. -/
theorem lookup_foldl_dictSet_map {g : JsonValue → JsonValue} {key : String}
    (fixes : ∀ k, f k = key ↔ k = key) :
    ∀ (members acc : List (String × JsonValue)), (members.map (·.1)).Nodup →
      ((members.map fun m => (f m.1, g m.2)).foldl (fun acc m => dictSet acc m.1 m.2) acc).lookup
          key =
        if key ∈ members.map (·.1) then (members.lookup key).map g else acc.lookup key
  | [], acc, _ => by simp
  | m :: rest, acc, nodup => by
    rw [List.map_cons, List.nodup_cons] at nodup
    simp only [List.map_cons, List.foldl_cons]
    rw [lookup_foldl_dictSet_map fixes rest _ nodup.2, lookup_dictSet]
    by_cases later : key ∈ rest.map (·.1)
    · have differ : key ≠ m.1 := fun same => nodup.1 (same ▸ later)
      simp [later, differ]
    · by_cases here : m.1 = key
      · subst here
        have renamed : f m.1 = m.1 := (fixes m.1).mpr rfl
        simp [later, renamed]
      · have notRenamed : key ≠ f m.1 := fun same => here ((fixes m.1).mp same.symm)
        simp [later, notRenamed, Ne.symm here]

theorem field_normalize_mapStrings {key : String} (fixes : ∀ k, f k = key ↔ k = key)
    {v : JsonValue} (distinct : v.KeysDistinct) :
    field (v.mapStrings f).normalize key = (field v key).map fun w => (w.mapStrings f).normalize := by
  cases v with
  | obj members =>
    have nodup := (keysDistinct_obj.mp distinct).1
    simp only [JsonValue.mapStrings, JsonValue.normalize, field, normalizeMembers_mapStringsMembers,
      dictOfPairs]
    rw [@lookup_foldl_dictSet_map f (fun w => (w.mapStrings f).normalize) key fixes members [] nodup]
    split_ifs with present
    · rfl
    · simp [lookup_eq_none_of_not_mem present]
  | _ => rfl

theorem cameraId_normalize_mapStrings (fixesId : ∀ k, f k = "id" ↔ k = "id") {camera : JsonValue}
    (distinct : camera.KeysDistinct) :
    cameraId (camera.mapStrings f).normalize = cameraId camera := by
  unfold cameraId
  rw [field_normalize_mapStrings fixesId distinct]
  rcases field camera "id" with _ | ⟨_ | _ | _ | _ | _ | _ | _⟩ <;> rfl

theorem cameraIds_normalize_mapStrings (fixesCameras : ∀ k, f k = "cameras" ↔ k = "cameras")
    (fixesId : ∀ k, f k = "id" ↔ k = "id") {config : JsonValue} (distinct : config.KeysDistinct) :
    cameraIds (config.mapStrings f).normalize = cameraIds config := by
  unfold cameraIds
  rw [field_normalize_mapStrings fixesCameras distinct]
  rcases found : field config "cameras" with _ | ⟨_ | _ | _ | _ | _ | cameras | _⟩
  case some.arr =>
    have each := keysDistinct_arr.mp (field_keysDistinct distinct found)
    simp only [Option.map_some', JsonValue.mapStrings, JsonValue.normalize,
      normalizeItems_mapStringsItems]
    clear found
    induction cameras with
    | nil => rfl
    | cons c rest ih =>
      simp only [List.map_cons, List.mapM_cons,
        cameraId_normalize_mapStrings fixesId (each c (List.mem_cons_self _ _)),
        ih fun c' mem => each c' (List.mem_cons_of_mem _ mem)]
  all_goals rfl

end Reload

theorem stripInString_fixes {key : String}
    (plain : ',' ∉ key.toList ∧ ']' ∉ key.toList ∧ '}' ∉ key.toList) :
    ∀ k, stripInString k = key ↔ k = key :=
  fun _ => stripInString_eq_iff plain

/-- Saving a config and loading it back keeps its camera ids: the trailing-comma substitution
can change strings, but no other key turns into `"cameras"` or `"id"`. -/
theorem cameraIds_load_save {config : JsonValue} (wellFormed : config.WellFormed) :
    ∃ loaded, loadConfig (some (saveConfig config)) = .ok loaded ∧
      cameraIds loaded = cameraIds config :=
  ⟨_, loadJson_dumps wellFormed.1, cameraIds_normalize_mapStrings
    (stripInString_fixes (by decide)) (stripInString_fixes (by decide)) wellFormed.2⟩

/-- `_load_config` gives back what `_save_config` wrote when the trailing-comma substitution
changes none of its strings. -/
theorem load_save_of_unchanged_strings {config : JsonValue} (wellFormed : config.WellFormed)
    (unchanged : config.mapStrings stripInString = config) :
    loadConfig (some (saveConfig config)) = .ok config := by
  rw [loadConfig, saveConfig, loadJson_dumps wellFormed.1, unchanged,
    normalize_of_keysDistinct wellFormed.2]

/-- A camera whose frame path holds a comma that no closing bracket follows: the comma stays. -/
theorem load_save_comma_in_frame_path :
    loadConfig (some (saveConfig (.obj [("cameras", .arr [.obj [("id", .int 1),
        ("connected", .bool true), ("frames", .obj [("path", .str "/a,b")])]])]))) =
      .ok (.obj [("cameras", .arr [.obj [("id", .int 1),
        ("connected", .bool true), ("frames", .obj [("path", .str "/a,b")])]])]) :=
  load_save_of_unchanged_strings (by simp) (by
    have kept : stripInString "/a,b" = "/a,b" := by
      show String.mk (stripTrailingCommas _ ['/', 'a', ',', 'b']) = _
      rw [stripTrailingCommas_cons (by decide), stripTrailingCommas_cons (by decide),
        stripTrailingCommas_comma_of_open (by decide), stripTrailingCommas_cons (by decide),
        stripTrailingCommas_nil]
    simp [JsonValue.mapStrings, mapStringsMembers, mapStringsItems, stripInString_of_comma_free,
      kept])

end CrosPlatform.Camera
