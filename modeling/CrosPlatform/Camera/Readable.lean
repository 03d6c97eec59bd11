import CrosPlatform.Camera.FakeHal

/-!
# The Fake HAL commands never raise on the files they write

`add_camera`, `remove_cameras`, `connect_cameras` and `disconnect_cameras` read every camera's
`id`, and `add_camera`, `connect_cameras` and `disconnect_cameras` read every camera's
`connected`: a config file written by hand can make them raise `KeyError` or `TypeError`. The
cameras `add_camera` creates have both, as an `int` and a `bool`. The commands keep them so, and
the trailing-comma substitution of `_load_json` does not touch them.

Main result: after any run of the four commands from a missing config file, or from one whose
cameras have an `int` id and a `bool` `connected`, the next command does not raise
(`command_never_raises`).
-/

namespace CrosPlatform.Camera

open CrosPlatform.Json

/-- A camera the commands read without raising: an `int` `id` and a `bool` `connected`. -/
def CameraReadable (camera : JsonValue) : Prop :=
  (∃ id, field camera "id" = some (.int id)) ∧
    ∃ connected, field camera "connected" = some (.bool connected)

/-- A config the commands read without raising: its `cameras` is a list of readable cameras. -/
def ConfigReadable (config : JsonValue) : Prop :=
  ∃ cameras, field config "cameras" = some (.arr cameras) ∧ ∀ c ∈ cameras, CameraReadable c

/-- A config file the commands read without raising: missing, or holding a readable config. -/
def FileReadable : Option String → Prop
  | none => True
  | some text => ∃ config, loadJson text = .ok config ∧ ConfigReadable config

/-! ## Saving and loading back -/

theorem cameraReadable_reload {camera : JsonValue} (readable : CameraReadable camera)
    (distinct : camera.KeysDistinct) :
    CameraReadable (camera.mapStrings stripInString).normalize := by
  obtain ⟨⟨id, hasId⟩, connected, hasConnected⟩ := readable
  refine ⟨⟨id, ?_⟩, connected, ?_⟩
  · rw [field_normalize_mapStrings (stripInString_fixes (by decide)) distinct, hasId]
    rfl
  · rw [field_normalize_mapStrings (stripInString_fixes (by decide)) distinct, hasConnected]
    rfl

/-- What `_save_config` writes of a readable config loads back readable. -/
theorem fileReadable_saveConfig {config : JsonValue} (readable : ConfigReadable config)
    (wellFormed : config.WellFormed) : FileReadable (some (saveConfig config)) := by
  obtain ⟨cameras, found, each⟩ := readable
  have distinct := keysDistinct_arr.mp (field_keysDistinct wellFormed.2 found)
  refine ⟨_, loadJson_dumps wellFormed.1,
    cameras.map fun c => (c.mapStrings stripInString).normalize, ?_, ?_⟩
  · rw [field_normalize_mapStrings (stripInString_fixes (by decide)) wellFormed.2, found]
    simp [JsonValue.mapStrings, JsonValue.normalize, normalizeItems_mapStringsItems]
  · simp only [List.mem_map]
    rintro _ ⟨c, mem, rfl⟩
    exact cameraReadable_reload (each c mem) (distinct c mem)

/-! ## The loops of the commands on readable cameras -/

@[simp] theorem ok_bind {α β : Type} (a : α) (f : α → Except PyError β) :
    Except.ok a >>= f = f a :=
  rfl

theorem mapM_eq_ok {α β : Type} {f : α → Except PyError β} {P : β → Prop} :
    ∀ {l : List α}, (∀ a ∈ l, ∃ b, f a = .ok b ∧ P b) →
      ∃ bs, l.mapM f = .ok bs ∧ ∀ b ∈ bs, P b
  | [], _ => ⟨[], rfl, by simp⟩
  | a :: l, each => by
    obtain ⟨b, first, holds⟩ := each a (List.mem_cons_self _ _)
    obtain ⟨bs, rest, hold⟩ := mapM_eq_ok fun a' mem => each a' (List.mem_cons_of_mem _ mem)
    refine ⟨b :: bs, ?_, by simpa [holds] using hold⟩
    rw [List.mapM_cons, first, rest]
    rfl

theorem filterMapM_loop_ok {α β : Type} {f : α → Except PyError (Option β)} :
    ∀ {l : List α} (acc : List β), (∀ a ∈ l, ∃ b, f a = .ok b) →
      ∃ bs, List.filterMapM.loop f l acc = .ok bs
  | [], acc, _ => ⟨acc.reverse, rfl⟩
  | a :: l, acc, each => by
    obtain ⟨b, first⟩ := each a (List.mem_cons_self _ _)
    rw [List.filterMapM.loop, first]
    cases b <;> exact filterMapM_loop_ok _ fun a' mem => each a' (List.mem_cons_of_mem _ mem)

theorem exists_obj_of_field {value item : JsonValue} {key : String}
    (found : field value key = some item) : ∃ members, value = .obj members := by
  cases value <;> simp_all [field]

/-- `[c["id"] for c in cameras if c["connected"]]` reads readable cameras. -/
theorem connectedIds_ok {cameras : List JsonValue}
    (readable : ∀ c ∈ cameras, CameraReadable c) :
    ∃ ids, connectedIds cameras = .ok ids :=
  filterMapM_loop_ok [] fun c mem => by
    obtain ⟨⟨id, hasId⟩, connected, hasConnected⟩ := readable c mem
    simp only [getItem_eq_ok.mpr hasConnected, getItem_eq_ok.mpr hasId]
    cases connected <;> exact ⟨_, rfl⟩

/-- The loop of `remove_cameras` reads every camera's `id`. -/
theorem keptCameras_ok {shouldRemove : CameraFilter} :
    ∀ {cameras : List JsonValue}, (∀ c ∈ cameras, CameraReadable c) →
      ∃ kept, keptCameras shouldRemove cameras = .ok kept
  | [], _ => ⟨[], rfl⟩
  | c :: rest, readable => by
    obtain ⟨⟨id, hasId⟩, -⟩ := readable c (List.mem_cons_self _ _)
    obtain ⟨kept, later⟩ :=
      @keptCameras_ok shouldRemove _ fun c' mem => readable c' (List.mem_cons_of_mem _ mem)
    simp only [keptCameras, getItem_eq_ok.mpr hasId, later, ok_bind]
    exact ⟨_, rfl⟩

/-- The loop body of `connect_cameras` and `disconnect_cameras` reads a readable camera, and
keeps it readable. -/
theorem setConnected_ok {connect : Bool} {shouldChange : CameraFilter} {cam : JsonValue}
    (readable : CameraReadable cam) :
    ∃ cam', setConnected connect shouldChange cam = .ok cam' ∧ CameraReadable cam' := by
  obtain ⟨⟨id, hasId⟩, connected, hasConnected⟩ := readable
  obtain ⟨members, rfl⟩ := exists_obj_of_field hasId
  simp only [setConnected, getItem_eq_ok.mpr hasConnected, getItem_eq_ok.mpr hasId, ok_bind]
  split_ifs
  · exact ⟨_, rfl, ⟨id, hasId⟩, connected, hasConnected⟩
  · exact ⟨_, rfl, ⟨id, by simpa [field] using hasId⟩, connect, by simp [field]⟩
  · exact ⟨_, rfl, ⟨id, hasId⟩, connected, hasConnected⟩

/-! ## Each command on a readable file -/

section Commands

variable {file : Option String}

theorem loadConfig_readable (readable : FileReadable file) :
    ∃ config, loadConfig file = .ok config ∧ ConfigReadable config ∧ config.WellFormed := by
  cases file with
  | none => exact ⟨emptyConfig, rfl, ⟨[], rfl, by simp⟩, by simp [emptyConfig]⟩
  | some text =>
    obtain ⟨config, loaded, readable⟩ := readable
    exact ⟨config, loaded, readable, loads_wellFormed loaded⟩

/-- Replacing the camera list of a readable config with readable cameras. -/
theorem setItem_cameras_readable {config : JsonValue} {cameras : List JsonValue}
    (readable : ConfigReadable config) (wellFormed : config.WellFormed)
    (camerasReadable : ∀ c ∈ cameras, CameraReadable c)
    (camerasWellFormed : ∀ c ∈ cameras, c.WellFormed) :
    ∃ config', setItem config "cameras" (.arr cameras) = .ok config' ∧
      field config' "cameras" = some (.arr cameras) ∧
        FileReadable (some (saveConfig config')) := by
  obtain ⟨_, found, -⟩ := readable
  obtain ⟨members, rfl⟩ := exists_obj_of_field found
  have found' : field (.obj (dictSet members "cameras" (.arr cameras))) "cameras" =
      some (.arr cameras) := by simp [field]
  exact ⟨_, rfl, found', fileReadable_saveConfig ⟨cameras, found', camerasReadable⟩
    (wellFormed_dictSet wellFormed (wellFormed_arr.mpr camerasWellFormed))⟩

theorem getNextAvailableId_ok {config : JsonValue} (readable : ConfigReadable config) :
    ∃ newId, getNextAvailableId config = .ok newId := by
  obtain ⟨cameras, found, each⟩ := readable
  obtain ⟨members, rfl⟩ := exists_obj_of_field found
  obtain ⟨used, mapped, -⟩ := @mapM_eq_ok _ _ (fun c => do hashable (← getItem c "id"))
    (fun _ => True) cameras fun c mem => by
      obtain ⟨⟨id, hasId⟩, -⟩ := each c mem
      exact ⟨.int id, by simp only [getItem_eq_ok.mpr hasId]; rfl, trivial⟩
  simp only [field] at found
  simp only [getNextAvailableId, usedIds, dictGet, found, Option.getD_some, ok_bind, iterate,
    mapped]
  exact ⟨_, rfl⟩

theorem newCamera_readable (newId : Int) (shouldKeep : FormatFilter) (framePath : Option String) :
    CameraReadable (newCamera newId shouldKeep framePath) :=
  ⟨⟨newId, cameraId_eq_some.mp (cameraId_newCamera newId shouldKeep framePath)⟩, true,
    by cases framePath <;> rfl⟩

theorem addCamera_ok {shouldKeep : FormatFilter} {framePath : Option String}
    (readable : FileReadable file) :
    ∃ text, addCamera shouldKeep framePath file = .ok text ∧ FileReadable (some text) := by
  obtain ⟨config, loaded, configReadable, wellFormed⟩ := loadConfig_readable readable
  obtain ⟨newId, next⟩ := getNextAvailableId_ok configReadable
  obtain ⟨cameras, found, each⟩ := configReadable
  have added : ∀ c ∈ cameras ++ [newCamera newId shouldKeep framePath],
      CameraReadable c ∧ c.WellFormed := by
    simp only [List.mem_append, List.mem_singleton]
    rintro c (mem | rfl)
    · exact ⟨each c mem, wellFormed_arr.mp (field_wellFormed wellFormed found) c mem⟩
    · exact ⟨newCamera_readable newId shouldKeep framePath,
        newCamera_wellFormed newId shouldKeep framePath⟩
  obtain ⟨config', set, found', saved⟩ := setItem_cameras_readable ⟨cameras, found, each⟩
    wellFormed (fun c mem => (added c mem).1) (fun c mem => (added c mem).2)
  obtain ⟨ids, connected⟩ := connectedIds_ok fun c mem => (added c mem).1
  refine ⟨_, ?_, saved⟩
  simp only [addCamera, loaded, next, getItem_eq_ok.mpr found, append, set,
    getItem_eq_ok.mpr found', iterate, connected, ok_bind]
  rfl

theorem removeCameras_ok {shouldRemove : CameraFilter} (readable : FileReadable file) :
    ∃ text, removeCameras shouldRemove file = .ok text ∧ FileReadable (some text) := by
  obtain ⟨config, loaded, ⟨cameras, found, each⟩, wellFormed⟩ :=
    loadConfig_readable readable
  obtain ⟨kept, keptRan⟩ := @keptCameras_ok shouldRemove _ each
  have kept_mem {c} (mem : c ∈ kept) : c ∈ cameras := (keptCameras_sublist keptRan).subset mem
  obtain ⟨config', set, -, saved⟩ := setItem_cameras_readable ⟨cameras, found, each⟩
    wellFormed (fun c mem => each c (kept_mem mem))
    (fun c mem => wellFormed_arr.mp (field_wellFormed wellFormed found) c (kept_mem mem))
  refine ⟨_, ?_, saved⟩
  simp only [removeCameras, loaded, getItem_eq_ok.mpr found, iterate, keptRan, set, ok_bind]
  rfl

theorem setCamerasConnected_ok {connect : Bool} {shouldChange : CameraFilter}
    (readable : FileReadable file) :
    ∃ text, setCamerasConnected connect shouldChange file = .ok text ∧
      FileReadable (some text) := by
  obtain ⟨config, loaded, ⟨cameras, found, each⟩, wellFormed⟩ :=
    loadConfig_readable readable
  obtain ⟨updated, mapped, updatedReadable⟩ :=
    mapM_eq_ok fun c mem => @setConnected_ok connect shouldChange c (each c mem)
  have updatedWellFormed :=
    (mapM_setConnected mapped (wellFormed_arr.mp (field_wellFormed wellFormed found))).1
  obtain ⟨config', set, -, saved⟩ := setItem_cameras_readable ⟨cameras, found, each⟩
    wellFormed updatedReadable updatedWellFormed
  refine ⟨_, ?_, saved⟩
  simp only [setCamerasConnected, loaded, getItem_eq_ok.mpr found, iterate, mapped, set, ok_bind]
  rfl

/-- A command on a readable file saves a readable file. -/
theorem Command.run_ok (readable : FileReadable file) :
    ∀ command : Command, ∃ text, command.run file = .ok text ∧ FileReadable (some text)
  | .addCamera _ _ => addCamera_ok readable
  | .removeCameras _ => removeCameras_ok readable
  | .connectCameras _ => setCamerasConnected_ok readable
  | .disconnectCameras _ => setCamerasConnected_ok readable

theorem step_readable (readable : FileReadable file) (command : Command) :
    FileReadable (step file command) := by
  obtain ⟨text, ran, saved⟩ := Command.run_ok readable command
  rw [step, ran]
  exact saved

theorem run_readable (readable : FileReadable file) (commands : List Command) :
    FileReadable (run file commands) := by
  induction commands generalizing file with
  | nil => exact readable
  | cons command rest ih => exact ih (step_readable readable command)

end Commands

/-- From a missing config file, or one whose cameras have an `int` id and a `bool` `connected`,
after any run of the four commands, with any filters, the next command raises nothing. -/
theorem command_never_raises {file : Option String} (readable : FileReadable file)
    (earlier : List Command) (command : Command) :
    ∃ text, command.run (run file earlier) = .ok text :=
  (Command.run_ok (run_readable readable earlier) command).imp fun _ ran => ran.1

/-- A camera added, one removed by its id, another added and all connected, from no file. -/
theorem command_never_raises_from_missing_file :
    ∃ text, (Command.connectCameras fun _ => true).run
      (run none [.addCamera (fun _ _ _ => true) none, .removeCameras (intEquals 1),
        .addCamera (fun w _ _ => w == 640) (some "/tmp/a.mjpg")]) = .ok text :=
  @command_never_raises none trivial _ _

end CrosPlatform.Camera
