import CrosPlatform.Camera.Config
import Mathlib.Data.Int.Interval

/-!
# Fake HAL config commands

`add_camera`, `remove_cameras`, `connect_cameras` and `disconnect_cameras` each load the config
file, change the config and save it. The file is the state: its text, or `none` while it does
not exist. A command that raises does so before `_save_config`, and leaves the file as it was.
Logging, the smoke checks of `frame_path` (which only log), `persist`,
`edit_config_with_editor` and `dump_config_info` are left out.

`_load_config` returns the module's `_EMPTY_CONFIG` object itself when the file is missing, and
`add_camera` appends to its camera list. It saves the file right after, and no command removes
the file, so no later load returns that object.

Main result: from a file whose cameras have pairwise-distinct `int` ids, every run of commands,
with any filters, keeps them distinct (`camera_ids_stay_distinct`).
-/

namespace CrosPlatform.Camera

open CrosPlatform.Json

/-- `FormatFilter`: `(width, height, fps_range) -> keep_or_not`. -/
abbrev FormatFilter := Int → Int → Int × Int → Bool

/-- `CameraFilter`: `(camera_id) -> bool`, given whatever value the camera's id is. -/
abbrev CameraFilter := JsonValue → Bool

/-- `_RESOLUTIONS`. -/
def resolutions : List (Int × Int) :=
  [(320, 180), (320, 240), (640, 360), (640, 480), (1280, 720), (1280, 960), (1600, 1200),
    (1920, 1080), (2560, 1440), (2592, 1944), (3264, 2448), (3840, 2160)]

/-- `_FPS_RANGES`. -/
def fpsRanges : List (Int × Int) :=
  [(15, 30), (30, 30), (15, 60), (60, 60)]

/-- `_generate_supported_formats(should_keep)`: each resolution with the frame rates kept for it,
when one is. -/
def generateSupportedFormats (shouldKeep : FormatFilter) : JsonValue :=
  .arr (resolutions.filterMap fun (w, h) =>
    let frameRates := (fpsRanges.filter (shouldKeep w h)).map fun (low, high) =>
      JsonValue.arr [.int low, .int high]
    if frameRates.isEmpty then none
    else some (.obj [("width", .int w), ("height", .int h), ("frame_rates", .arr frameRates)]))

/-! ## `_get_next_available_id` -/

/-- `set(c["id"] for c in config.get("cameras", []))`, as a list. -/
def usedIds (config : JsonValue) : Except PyError (List JsonValue) := do
  let cameras ← iterate (← dictGet config "cameras" (.arr []))
  cameras.mapM fun c => do hashable (← getItem c "id")

/-- `while next_id in used_ids: next_id += 1`, for at most `fuel` rounds. -/
def findUnused (used : List JsonValue) : Nat → Int → Int
  | 0, nextId => nextId
  | fuel + 1, nextId =>
    if used.any (intEquals nextId) then findUnused used fuel (nextId + 1) else nextId

/-- `_get_next_available_id(config)`. Each round of the loop passes an id that equals a
different element of `used_ids`, so `len(used_ids) + 1` rounds are enough. -/
def getNextAvailableId (config : JsonValue) : Except PyError Int := do
  let used ← usedIds config
  pure (findUnused used (used.length + 1) 1)

/-! ## The commands -/

/-- The camera `add_camera` appends. -/
def newCamera (newId : Int) (shouldKeep : FormatFilter) (framePath : Option String) :
    JsonValue :=
  .obj ([("id", .int newId), ("connected", .bool true),
      ("supported_formats", generateSupportedFormats shouldKeep)] ++
    match framePath with
    | some path => [("frames", .obj [("path", .str path)])]
    | none => [])

/-- `[c["id"] for c in cameras if c["connected"]]`. -/
def connectedIds (cameras : List JsonValue) : Except PyError (List JsonValue) :=
  cameras.filterMapM fun c => do
    if truthy (← getItem c "connected") then some <$> getItem c "id" else pure none

/-- `add_camera(should_keep=..., frame_path=...)`: the text it saves. `framePath` is
`frame_path.absolute().as_posix()`. -/
def addCamera (shouldKeep : FormatFilter) (framePath : Option String) (file : Option String) :
    Except PyError String := do
  let config ← loadConfig file
  let newId ← getNextAvailableId config
  let cameras ← append (← getItem config "cameras") (newCamera newId shouldKeep framePath)
  let config ← setItem config "cameras" cameras
  let _ ← connectedIds (← iterate (← getItem config "cameras"))
  pure (saveConfig config)

/-- The loop of `remove_cameras`: the cameras `should_remove` does not pick, in order. -/
def keptCameras (shouldRemove : CameraFilter) : List JsonValue → Except PyError (List JsonValue)
  | [] => pure []
  | c :: rest => do
    let id ← getItem c "id"
    let kept ← keptCameras shouldRemove rest
    pure (if shouldRemove id then kept else c :: kept)

/-- `remove_cameras(should_remove)`: the text it saves. -/
def removeCameras (shouldRemove : CameraFilter) (file : Option String) :
    Except PyError String := do
  let config ← loadConfig file
  let kept ← keptCameras shouldRemove (← iterate (← getItem config "cameras"))
  let config ← setItem config "cameras" (.arr kept)
  pure (saveConfig config)

/-- The body of the loop of `connect_cameras` (`connect` is `True`) and of `disconnect_cameras`
(`False`): a camera whose `connected` is not yet `connect`, and that the filter picks, gets it.
The filter is only called, and `cam["id"]` only read, when the first test passes. -/
def setConnected (connect : Bool) (shouldChange : CameraFilter) (cam : JsonValue) :
    Except PyError JsonValue := do
  let connected ← getItem cam "connected"
  if truthy connected == connect then pure cam
  else
    let id ← getItem cam "id"
    if shouldChange id then setItem cam "connected" (.bool connect) else pure cam

/-- `connect_cameras` and `disconnect_cameras`: the loop changes the cameras of the list in
place. A dict or a string has only strings to iterate, on which `cam["connected"]` raises, so
it comes through only when it is empty, and unchanged. -/
def setCamerasConnected (connect : Bool) (shouldChange : CameraFilter) (file : Option String) :
    Except PyError String := do
  let config ← loadConfig file
  let cameras ← getItem config "cameras"
  let updated ← (← iterate cameras).mapM (setConnected connect shouldChange)
  let config ← match cameras with
    | .arr _ => setItem config "cameras" (.arr updated)
    | _ => pure config
  pure (saveConfig config)

/-- `connect_cameras(should_connect)`: the text it saves. -/
def connectCameras (shouldConnect : CameraFilter) : Option String → Except PyError String :=
  setCamerasConnected true shouldConnect

/-- `disconnect_cameras(should_disconnect)`: the text it saves. -/
def disconnectCameras (shouldDisconnect : CameraFilter) : Option String → Except PyError String :=
  setCamerasConnected false shouldDisconnect

/-! ## The config file as a state machine -/

/-- A command of the Fake HAL config tool, with the callbacks it is given. -/
inductive Command where
  | addCamera (shouldKeep : FormatFilter) (framePath : Option String)
  | removeCameras (shouldRemove : CameraFilter)
  | connectCameras (shouldConnect : CameraFilter)
  | disconnectCameras (shouldDisconnect : CameraFilter)

/-- The text a command saves, or what it raises. -/
def Command.run : Command → Option String → Except PyError String
  | .addCamera shouldKeep framePath => Camera.addCamera shouldKeep framePath
  | .removeCameras shouldRemove => Camera.removeCameras shouldRemove
  | .connectCameras shouldConnect => Camera.connectCameras shouldConnect
  | .disconnectCameras shouldDisconnect => Camera.disconnectCameras shouldDisconnect

/-- The config file after a command: what it saved, or the file as it was when it raised. -/
def step (file : Option String) (command : Command) : Option String :=
  match command.run file with
  | .ok text => some text
  | .error _ => file

/-- The config file after commands run one after another. -/
def run (file : Option String) (commands : List Command) : Option String :=
  commands.foldl step file

example : step none (.addCamera (fun _ _ _ => false) none) =
    some "\x7b\n  \"cameras\": [\n    \x7b\n      \"id\": 1,\n      \"connected\": true,\n      \"supported_formats\": []\n    \x7d\n  ]\n\x7d" := by
  rfl

/-- The config file holds no config, or one whose cameras have distinct `int` ids. -/
def FileInvariant : Option String → Prop
  | none => True
  | some text => ∃ config, loadJson text = .ok config ∧ IdsDistinct config

/-! ## The next id -/

/-- The `int` an element of `used_ids` equals, when there is one. -/
def intValue : JsonValue → Option Int
  | .int m => some m
  | .bool b => some (if b then 1 else 0)
  | _ => none

theorem intEquals_iff {n : Int} {v : JsonValue} : intEquals n v = true ↔ intValue v = some n := by
  cases v with
  | int m => simp only [intEquals, intValue, beq_iff_eq, Option.some.injEq]; exact eq_comm
  | bool b => simp only [intEquals, intValue, beq_iff_eq, Option.some.injEq]; exact eq_comm
  | _ => simp [intEquals, intValue]

/-- What the loop passes and where it stops: every id it passes is used, and it stops at an
unused id or when its rounds run out. -/
theorem findUnused_spec (used : List JsonValue) : ∀ fuel nextId,
    nextId ≤ findUnused used fuel nextId ∧
      (∀ m, nextId ≤ m → m < findUnused used fuel nextId → used.any (intEquals m)) ∧
      (used.any (intEquals (findUnused used fuel nextId)) = false ∨
        findUnused used fuel nextId = nextId + fuel)
  | 0, nextId => ⟨le_rfl, fun m low high => absurd high (by simp [findUnused]; omega),
      .inr (by simp [findUnused])⟩
  | fuel + 1, nextId => by
    by_cases taken : used.any (intEquals nextId)
    · obtain ⟨above, below, ends⟩ := findUnused_spec used fuel (nextId + 1)
      rw [findUnused, if_pos taken]
      refine ⟨by omega, fun m low high => ?_,
        ends.imp_right fun atEnd => by rw [atEnd]; push_cast; ring⟩
      rcases (show m = nextId ∨ nextId + 1 ≤ m by omega) with rfl | later
      · exact taken
      · exact below m later high
    · rw [findUnused, if_neg taken]
      exact ⟨le_rfl, fun m low high => absurd high (by omega), .inl (by simpa using taken)⟩

/-- The loop of `_get_next_available_id` stops at an id that no element of `used_ids` equals:
`len(used_ids) + 1` consecutive ids cannot all be used. -/
theorem findUnused_unused (used : List JsonValue) :
    used.any (intEquals (findUnused used (used.length + 1) 1)) = false := by
  obtain ⟨-, below, ends⟩ := findUnused_spec used (used.length + 1) 1
  refine ends.resolve_right fun atEnd => ?_
  have covered : Finset.Ico 1 (1 + ((used.length + 1 : Nat) : Int)) ⊆
      (used.filterMap intValue).toFinset := by
    intro m mem
    rw [Finset.mem_Ico] at mem
    obtain ⟨v, mem', equal⟩ := List.any_eq_true.mp (below m mem.1 (atEnd ▸ mem.2))
    exact List.mem_toFinset.mpr (List.mem_filterMap.mpr ⟨v, mem', intEquals_iff.mp equal⟩)
  have counted := Finset.card_le_card covered
  have distinct := List.toFinset_card_le (used.filterMap intValue)
  have fewer := List.length_filterMap_le intValue used
  rw [Int.card_Ico] at counted
  omega

theorem mapM_hashable_id {cameras : List JsonValue} {ids : List Int}
    (found : cameras.mapM cameraId = some ids) :
    cameras.mapM (fun c => do hashable (← getItem c "id")) = .ok (ids.map .int) := by
  induction cameras generalizing ids with
  | nil => cases found; rfl
  | cons c rest ih =>
    obtain ⟨i, is, first, later, rfl⟩ := mapM_cons_eq_some.mp found
    simp only [List.mapM_cons, getItem_eq_ok.mpr (cameraId_eq_some.mp first), ih later]
    rfl

theorem usedIds_of_cameraIds {config : JsonValue} {ids : List Int}
    (found : cameraIds config = some ids) : usedIds config = .ok (ids.map .int) := by
  obtain ⟨cameras, camerasFound, camerasIds⟩ := cameras_of_cameraIds found
  cases config with
  | obj members =>
    simp only [field] at camerasFound
    calc usedIds (.obj members) = cameras.mapM (fun c => do hashable (← getItem c "id")) := by
          simp only [usedIds, dictGet, camerasFound, Option.getD_some]
          rfl
      _ = .ok (ids.map .int) := mapM_hashable_id camerasIds
  | _ => cases camerasFound

/-- With every camera id an `int`, `_get_next_available_id` runs its loop over those ids. -/
theorem getNextAvailableId_of_cameraIds {config : JsonValue} {ids : List Int}
    (found : cameraIds config = some ids) :
    getNextAvailableId config =
      .ok (findUnused (ids.map .int) ((ids.map JsonValue.int).length + 1) 1) := by
  rw [getNextAvailableId, usedIds_of_cameraIds found]
  rfl

/-- `_get_next_available_id` gives an id no camera has. -/
theorem getNextAvailableId_fresh {config : JsonValue} {ids : List Int} {newId : Int}
    (found : cameraIds config = some ids) (next : getNextAvailableId config = .ok newId) :
    newId ∉ ids := by
  rw [getNextAvailableId_of_cameraIds found, Except.ok.injEq] at next
  have unused := findUnused_unused (ids.map JsonValue.int)
  rw [next, List.any_eq_false] at unused
  intro mem
  exact unused (.int newId) (List.mem_map_of_mem _ mem) (by simp [intEquals])

/-- `_get_next_available_id` gives a positive id below which every id is taken. -/
theorem getNextAvailableId_least {config : JsonValue} {ids : List Int} {newId : Int}
    (found : cameraIds config = some ids) (next : getNextAvailableId config = .ok newId) :
    0 < newId ∧ ∀ m, 0 < m → m < newId → m ∈ ids := by
  rw [getNextAvailableId_of_cameraIds found, Except.ok.injEq] at next
  obtain ⟨above, below, -⟩ := findUnused_spec (ids.map JsonValue.int) _ 1
  rw [next] at above below
  exact ⟨by omega, fun m positive smaller => by
    simpa [List.any_map, intEquals] using below m positive smaller⟩

/-- With every camera id an `int`, `_get_next_available_id` returns, and what it returns is the
least positive id that no camera has. -/
theorem next_available_id_is_least_unused {config : JsonValue} {ids : List Int}
    (found : cameraIds config = some ids) :
    ∃ newId, getNextAvailableId config = .ok newId ∧
      0 < newId ∧ newId ∉ ids ∧ ∀ m, 0 < m → m < newId → m ∈ ids :=
  have next := getNextAvailableId_of_cameraIds found
  ⟨_, next, (getNextAvailableId_least found next).1, getNextAvailableId_fresh found next,
    (getNextAvailableId_least found next).2⟩

/-- Cameras 3 and 1 leave a gap at 2. -/
theorem next_available_id_fills_gap :
    ∃ newId, getNextAvailableId
        (.obj [("cameras", .arr [.obj [("id", .int 3)], .obj [("id", .int 1)]])]) = .ok newId ∧
      0 < newId ∧ newId ∉ [3, 1] ∧ ∀ m, 0 < m → m < newId → m ∈ [3, 1] :=
  next_available_id_is_least_unused rfl

example :
    getNextAvailableId (.obj [("cameras", .arr [.obj [("id", .int 3)], .obj [("id", .int 1)]])]) =
      .ok 2 := rfl

/-! ## What each command does to the cameras -/

theorem generateSupportedFormats_wellFormed (shouldKeep : FormatFilter) :
    (generateSupportedFormats shouldKeep).WellFormed := by
  simp only [generateSupportedFormats, wellFormed_arr, List.mem_filterMap]
  rintro v ⟨⟨w, h⟩, -, built⟩
  split_ifs at built
  cases built
  simp
  rintro _ _ _ - - rfl
  simp

theorem newCamera_wellFormed (newId : Int) (shouldKeep : FormatFilter) (framePath : Option String) :
    (newCamera newId shouldKeep framePath).WellFormed := by
  cases framePath <;> simp [newCamera, generateSupportedFormats_wellFormed]

theorem cameraId_newCamera (newId : Int) (shouldKeep : FormatFilter) (framePath : Option String) :
    cameraId (newCamera newId shouldKeep framePath) = some newId := by
  cases framePath <;> rfl

/-- `remove_cameras` only drops cameras. -/
theorem keptCameras_sublist {shouldRemove : CameraFilter} :
    ∀ {cameras kept : List JsonValue}, keptCameras shouldRemove cameras = .ok kept →
      kept.Sublist cameras
  | [], kept, ran => by cases ran; exact .slnil
  | c :: rest, kept, ran => by
    simp only [keptCameras, bind_eq_ok] at ran
    obtain ⟨id, -, kept', later, done⟩ := ran
    cases done
    split_ifs
    · exact (keptCameras_sublist later).cons c
    · exact (keptCameras_sublist later).cons₂ c

theorem mapM_sublist {α β : Type} {f : α → Option β} {l₁ l₂ : List α} (sublist : l₁.Sublist l₂) :
    ∀ {ys : List β}, l₂.mapM f = some ys → ∃ xs, l₁.mapM f = some xs ∧ xs.Sublist ys := by
  induction sublist with
  | slnil => intro ys mapped; cases mapped; exact ⟨[], rfl, .slnil⟩
  | cons a _ ih =>
    intro ys mapped
    obtain ⟨y, ys', -, later, rfl⟩ := mapM_cons_eq_some.mp mapped
    obtain ⟨xs, mappedXs, sub⟩ := ih later
    exact ⟨xs, mappedXs, sub.cons y⟩
  | cons₂ a _ ih =>
    intro ys mapped
    obtain ⟨y, ys', first, later, rfl⟩ := mapM_cons_eq_some.mp mapped
    obtain ⟨xs, mappedXs, sub⟩ := ih later
    exact ⟨y :: xs, mapM_cons_eq_some.mpr ⟨y, xs, first, mappedXs, rfl⟩, sub.cons₂ y⟩

/-- The loop body of `connect_cameras` and `disconnect_cameras` changes only the `connected`
field of a camera. -/
theorem setConnected_spec {connect : Bool} {shouldChange : CameraFilter} {cam cam' : JsonValue}
    (ran : setConnected connect shouldChange cam = .ok cam') (wellFormed : cam.WellFormed) :
    cam'.WellFormed ∧ ∀ key, key ≠ "connected" → field cam' key = field cam key := by
  simp only [setConnected, bind_eq_ok] at ran
  obtain ⟨connected, -, ran⟩ := ran
  split at ran
  · cases ran
    exact ⟨wellFormed, fun _ _ => rfl⟩
  · obtain ⟨id, -, ran⟩ := bind_eq_ok.mp ran
    split at ran
    · obtain ⟨members, rfl, rfl⟩ := setItem_eq_ok.mp ran
      refine ⟨wellFormed_dictSet wellFormed (wellFormed_bool connect), fun key other => ?_⟩
      simp [field, other]
    · cases ran
      exact ⟨wellFormed, fun _ _ => rfl⟩

theorem mapM_setConnected {connect : Bool} {shouldChange : CameraFilter} :
    ∀ {cameras updated : List JsonValue},
      cameras.mapM (setConnected connect shouldChange) = .ok updated →
      (∀ c ∈ cameras, c.WellFormed) →
      (∀ c ∈ updated, c.WellFormed) ∧ updated.mapM cameraId = cameras.mapM cameraId
  | [], updated, ran, _ => by cases ran; exact ⟨by simp, rfl⟩
  | c :: rest, updated, ran, wellFormed => by
    simp only [List.mapM_cons, bind_eq_ok] at ran
    obtain ⟨c', first, rest', later, done⟩ := ran
    cases done
    obtain ⟨firstWellFormed, fields⟩ := setConnected_spec first (wellFormed c (List.mem_cons_self _ _))
    obtain ⟨restWellFormed, restIds⟩ :=
      mapM_setConnected later fun c mem => wellFormed c (List.mem_cons_of_mem _ mem)
    have sameId : cameraId c' = cameraId c := by
      unfold cameraId
      rw [fields "id" (by decide)]
    refine ⟨?_, by simp only [List.mapM_cons, sameId, restIds]⟩
    simpa using ⟨firstWellFormed, restWellFormed⟩

/-! ## The invariant -/

theorem fileInvariant_saveConfig {config : JsonValue} (wellFormed : config.WellFormed)
    (distinct : IdsDistinct config) : FileInvariant (some (saveConfig config)) := by
  obtain ⟨ids, found, nodup⟩ := distinct
  obtain ⟨loaded, load, same⟩ := cameraIds_load_save wellFormed
  exact ⟨loaded, load, ids, same.trans found, nodup⟩

theorem loadConfig_invariant {file : Option String} {config : JsonValue}
    (invariant : FileInvariant file) (loaded : loadConfig file = .ok config) :
    config.WellFormed ∧ IdsDistinct config := by
  cases file with
  | none =>
    cases loaded
    exact ⟨by simp [emptyConfig], [], rfl, .nil⟩
  | some text =>
    obtain ⟨stored, load, distinct⟩ := invariant
    obtain rfl : stored = config := Except.ok.inj (load.symm.trans loaded)
    exact ⟨loads_wellFormed load, distinct⟩

/-- What a command finds in `config["cameras"]` of the config it loads: a list of cameras with
the config's ids. -/
theorem loaded_cameras {file : Option String} {config cameras : JsonValue}
    (invariant : FileInvariant file) (loaded : loadConfig file = .ok config)
    (got : getItem config "cameras" = .ok cameras) :
    ∃ list ids, cameras = .arr list ∧ cameraIds config = some ids ∧
      list.mapM cameraId = some ids ∧ ids.Nodup ∧ config.WellFormed ∧ ∀ c ∈ list, c.WellFormed := by
  obtain ⟨wellFormed, ids, found, nodup⟩ := loadConfig_invariant invariant loaded
  obtain ⟨list, listFound, listIds⟩ := cameras_of_cameraIds found
  exact ⟨list, ids, Option.some.inj ((getItem_eq_ok.mp got).symm.trans listFound), found, listIds,
    nodup, wellFormed, wellFormed_arr.mp (field_wellFormed wellFormed listFound)⟩

section Commands

variable {file : Option String} {text : String}

theorem addCamera_invariant {shouldKeep : FormatFilter} {framePath : Option String}
    (invariant : FileInvariant file) (ran : addCamera shouldKeep framePath file = .ok text) :
    FileInvariant (some text) := by
  simp only [addCamera, bind_eq_ok] at ran
  obtain ⟨config, loaded, newId, next, cameras, got, appended, append_, config', set, -, -, -, -, -,
    -, saved⟩ := ran
  cases saved
  obtain ⟨list, ids, rfl, found, listIds, nodup, wellFormed, listWellFormed⟩ :=
    loaded_cameras invariant loaded got
  obtain rfl := (Except.ok.inj append_).symm
  obtain ⟨savedWellFormed, savedIds⟩ := setItem_cameras set wellFormed fun c mem =>
    (List.mem_append.mp mem).elim (listWellFormed c) fun single =>
      List.mem_singleton.mp single ▸ newCamera_wellFormed newId shouldKeep framePath
  refine fileInvariant_saveConfig savedWellFormed ⟨ids ++ [newId], ?_, ?_⟩
  · rw [savedIds, List.mapM_append, listIds]
    simp only [List.mapM_cons, List.mapM_nil, cameraId_newCamera]
    rfl
  · exact List.nodup_append.mpr ⟨nodup, List.nodup_singleton _, List.disjoint_singleton.mpr
      (getNextAvailableId_fresh found next)⟩

theorem removeCameras_invariant {shouldRemove : CameraFilter} (invariant : FileInvariant file)
    (ran : removeCameras shouldRemove file = .ok text) : FileInvariant (some text) := by
  simp only [removeCameras, bind_eq_ok] at ran
  obtain ⟨config, loaded, cameras, got, items, iterated, kept, keptRan, config', set, saved⟩ := ran
  cases saved
  obtain ⟨list, ids, rfl, -, listIds, nodup, wellFormed, listWellFormed⟩ :=
    loaded_cameras invariant loaded got
  obtain rfl := (Except.ok.inj iterated).symm
  have sublist := keptCameras_sublist keptRan
  obtain ⟨savedWellFormed, savedIds⟩ :=
    setItem_cameras set wellFormed fun c mem => listWellFormed c (sublist.subset mem)
  obtain ⟨keptIds, mapped, keptSublist⟩ := mapM_sublist sublist listIds
  exact fileInvariant_saveConfig savedWellFormed ⟨keptIds, savedIds.trans mapped,
    nodup.sublist keptSublist⟩

theorem setCamerasConnected_invariant {connect : Bool} {shouldChange : CameraFilter}
    (invariant : FileInvariant file) (ran : setCamerasConnected connect shouldChange file = .ok text) :
    FileInvariant (some text) := by
  simp only [setCamerasConnected, bind_eq_ok] at ran
  obtain ⟨config, loaded, cameras, got, items, iterated, updated, mapped, saved⟩ := ran
  obtain ⟨list, ids, rfl, -, listIds, nodup, wellFormed, listWellFormed⟩ :=
    loaded_cameras invariant loaded got
  obtain rfl := (Except.ok.inj iterated).symm
  obtain ⟨config', set, saved⟩ := bind_eq_ok.mp saved
  cases saved
  obtain ⟨updatedWellFormed, updatedIds⟩ := mapM_setConnected mapped listWellFormed
  obtain ⟨savedWellFormed, savedIds⟩ := setItem_cameras set wellFormed updatedWellFormed
  exact fileInvariant_saveConfig savedWellFormed ⟨ids, by rw [savedIds, updatedIds, listIds],
    nodup⟩

theorem step_invariant (invariant : FileInvariant file) (command : Command) :
    FileInvariant (step file command) := by
  unfold step
  split
  · rename_i ran
    cases command with
    | addCamera shouldKeep framePath => exact addCamera_invariant invariant ran
    | removeCameras shouldRemove => exact removeCameras_invariant invariant ran
    | connectCameras shouldConnect => exact setCamerasConnected_invariant invariant ran
    | disconnectCameras shouldDisconnect => exact setCamerasConnected_invariant invariant ran
  · exact invariant

end Commands

/-- From a config file that is missing, or whose cameras have pairwise-distinct `int` ids, every
run of the four commands, with any filters, leaves a file whose cameras have pairwise-distinct
`int` ids. -/
theorem camera_ids_stay_distinct {file : Option String} (initial : FileInvariant file)
    (commands : List Command) : FileInvariant (run file commands) := by
  induction commands generalizing file with
  | nil => exact initial
  | cons command rest ih => exact ih (step_invariant initial command)

/-- Two cameras, the first removed, a third added in its place, all disconnected. -/
theorem camera_ids_stay_distinct_after_reuse :
    FileInvariant (run none [.addCamera (fun _ _ _ => true) none,
      .addCamera (fun w _ _ => w == 640) (some "/tmp/a.mjpg"), .removeCameras (intEquals 1),
      .addCamera (fun _ _ _ => false) none, .disconnectCameras fun _ => true]) :=
  @camera_ids_stay_distinct none trivial _

/-! ## `_load_json` and string literals -/

/-- The trailing-comma substitution also rewrites string literals. `["a,]"]` is standard JSON,
which `json.loads` reads as a list holding the string `a,]` and `_load_json` as a list holding
`a]`; and after `add_camera` with the frame path `/tmp/a, ]`, `_load_config` reads the path
back as `/tmp/a]`. -/
theorem load_json_rewrites_string_literals :
    loads "[\"a,]\"]" = .ok (.arr [.str "a,]"]) ∧
      loadJson "[\"a,]\"]" = .ok (.arr [.str "a]"]) ∧
      loadConfig (step none (.addCamera (fun _ _ _ => false) (some "/tmp/a, ]"))) =
        .ok (.obj [("cameras", .arr [.obj [("id", .int 1), ("connected", .bool true),
          ("supported_formats", .arr []), ("frames", .obj [("path", .str "/tmp/a]")])]])]) := by
  refine ⟨rfl, ?_, ?_⟩
  · simp [loadJson, trailingCommaSub, stripTrailingCommas, isJsonWhitespace]
    rfl
  · have saved : step none (.addCamera (fun _ _ _ => false) (some "/tmp/a, ]")) =
        some (saveConfig (.obj [("cameras", .arr [newCamera 1 (fun _ _ _ => false) (some "/tmp/a, ]")])])) :=
      rfl
    have path : stripInString "/tmp/a, ]" = "/tmp/a]" := by simp [stripInString, stripTrailingCommas]
    have wellFormed : (JsonValue.obj [("cameras",
        .arr [newCamera 1 (fun _ _ _ => false) (some "/tmp/a, ]")])]).WellFormed := by
      simp [newCamera_wellFormed]
    rw [saved, loadConfig, saveConfig, loadJson_dumps wellFormed.1]
    simp [newCamera, generateSupportedFormats, resolutions, fpsRanges, JsonValue.mapStrings, mapStringsItems, mapStringsMembers, stripInString_of_comma_free, path]
    rfl


end CrosPlatform.Camera
