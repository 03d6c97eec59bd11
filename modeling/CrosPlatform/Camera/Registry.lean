import CrosPlatform.Camera.Readable

/-!
# The config file as a camera registry

What the Fake HAL config tool is for, said without JSON: a registry of cameras, each with an id
and a connected flag. `add_camera` registers a connected camera under the least positive id no
camera has, `remove_cameras` drops the cameras the filter picks, and `connect_cameras` and
`disconnect_cameras` set the flag of the cameras the filter picks (`RegistryStep`).

The file refines the registry: the entries read off the file (`fileEntries`) after any command
are the registry's step from the entries before it (`step_refines`), and so after any run
(`commands_refine_registry`). A missing file is the empty registry. The formats and frame paths
of the cameras are carried along and left out of the entries.
-/

namespace CrosPlatform.Camera

open CrosPlatform.Json

/-- A camera of the registry: its id and whether it is connected. -/
structure CameraEntry where
  id : Int
  connected : Bool
  deriving DecidableEq, Repr

/-- What one command does to the registry. -/
inductive RegistryStep : Command → List CameraEntry → List CameraEntry → Prop
  | addCamera (shouldKeep : FormatFilter) (framePath : Option String) {entries : List CameraEntry}
      {newId : Int} (positive : 0 < newId) (fresh : newId ∉ entries.map CameraEntry.id)
      (least : ∀ m, 0 < m → m < newId → m ∈ entries.map CameraEntry.id) :
      RegistryStep (.addCamera shouldKeep framePath) entries (entries ++ [⟨newId, true⟩])
  | removeCameras (shouldRemove : CameraFilter) (entries : List CameraEntry) :
      RegistryStep (.removeCameras shouldRemove) entries
        (entries.filter fun e => !shouldRemove (.int e.id))
  | connectCameras (shouldConnect : CameraFilter) (entries : List CameraEntry) :
      RegistryStep (.connectCameras shouldConnect) entries
        (entries.map fun e => ⟨e.id, e.connected || shouldConnect (.int e.id)⟩)
  | disconnectCameras (shouldDisconnect : CameraFilter) (entries : List CameraEntry) :
      RegistryStep (.disconnectCameras shouldDisconnect) entries
        (entries.map fun e => ⟨e.id, e.connected && !shouldDisconnect (.int e.id)⟩)

/-- Commands run one after another on the registry. -/
inductive RegistryRun : List Command → List CameraEntry → List CameraEntry → Prop
  | nil (entries : List CameraEntry) : RegistryRun [] entries entries
  | cons {command : Command} {commands : List Command} {entries middle final : List CameraEntry} :
      RegistryStep command entries middle → RegistryRun commands middle final →
      RegistryRun (command :: commands) entries final

/-! ## Reading the registry off the file -/

/-- The `connected` of a camera that is a dict with a `bool` there. -/
def cameraConnected (camera : JsonValue) : Option Bool :=
  match field camera "connected" with
  | some (.bool connected) => some connected
  | _ => none

/-- The entry of a camera with an `int` id and a `bool` `connected`. -/
def cameraEntry (camera : JsonValue) : Option CameraEntry :=
  (cameraId camera).bind fun id => (cameraConnected camera).map fun connected => ⟨id, connected⟩

/-- The entries of a config whose cameras all have one. -/
def configEntries (config : JsonValue) : Option (List CameraEntry) :=
  match field config "cameras" with
  | some (.arr cameras) => cameras.mapM cameraEntry
  | _ => none

/-- The entries of the config file: none for a missing file. -/
def fileEntries : Option String → Option (List CameraEntry)
  | none => some []
  | some text => (loadJson text).toOption.bind configEntries

theorem cameraEntry_eq_some {camera : JsonValue} {e : CameraEntry} :
    cameraEntry camera = some e ↔
      field camera "id" = some (.int e.id) ∧
        field camera "connected" = some (.bool e.connected) := by
  obtain ⟨id, connected⟩ := e
  unfold cameraEntry cameraConnected
  rw [← cameraId_eq_some]
  cases cameraId camera with
  | none => simp
  | some n =>
    rcases field camera "connected" with _ | ⟨_ | b | _ | _ | _ | _ | _⟩ <;> simp [eq_comm]

theorem configEntries_eq_some {config : JsonValue} {entries : List CameraEntry} :
    configEntries config = some entries ↔
      ∃ cameras, field config "cameras" = some (.arr cameras) ∧
        cameras.mapM cameraEntry = some entries := by
  unfold configEntries
  split <;> simp_all

theorem mapM_cameraEntry_ids :
    ∀ {cameras : List JsonValue} {entries : List CameraEntry},
      cameras.mapM cameraEntry = some entries → cameras.mapM cameraId = some (entries.map (·.id))
  | [], _, read => by cases read; rfl
  | c :: rest, _, read => by
    obtain ⟨e, es, first, later, rfl⟩ := mapM_cons_eq_some.mp read
    rw [List.mapM_cons, cameraId_eq_some.mpr (cameraEntry_eq_some.mp first).1,
      mapM_cameraEntry_ids later]
    rfl

theorem mapM_cameraEntry_readable :
    ∀ {cameras : List JsonValue} {entries : List CameraEntry},
      cameras.mapM cameraEntry = some entries → ∀ c ∈ cameras, CameraReadable c
  | [], _, _, _, mem => absurd mem (List.not_mem_nil _)
  | c :: rest, _, read, c', mem => by
    obtain ⟨e, es, first, later, rfl⟩ := mapM_cons_eq_some.mp read
    rcases List.mem_cons.mp mem with rfl | mem
    · obtain ⟨hasId, hasConnected⟩ := cameraEntry_eq_some.mp first
      exact ⟨⟨e.id, hasId⟩, e.connected, hasConnected⟩
    · exact mapM_cameraEntry_readable later c' mem

theorem fileReadable_of_fileEntries {file : Option String} {entries : List CameraEntry}
    (read : fileEntries file = some entries) : FileReadable file := by
  cases file with
  | none => trivial
  | some text =>
    simp only [fileEntries, Option.bind_eq_some] at read
    obtain ⟨config, loaded, read⟩ := read
    obtain ⟨cameras, found, mapped⟩ := configEntries_eq_some.mp read
    refine ⟨config, ?_, cameras, found, mapM_cameraEntry_readable mapped⟩
    cases h : loadJson text <;> simp_all [Except.toOption]

theorem loadConfig_entries {file : Option String} {entries : List CameraEntry}
    (read : fileEntries file = some entries) :
    ∃ config, loadConfig file = .ok config ∧ configEntries config = some entries ∧
      config.WellFormed := by
  cases file with
  | none =>
    cases read
    exact ⟨emptyConfig, rfl, rfl, by simp [emptyConfig]⟩
  | some text =>
    simp only [fileEntries, Option.bind_eq_some] at read
    obtain ⟨config, loaded, read⟩ := read
    have load : loadJson text = .ok config := by
      cases h : loadJson text <;> simp_all [Except.toOption]
    exact ⟨config, load, read, loads_wellFormed load⟩

/-! ## Saving keeps the entries -/

theorem cameraConnected_reload {camera : JsonValue} (distinct : camera.KeysDistinct) :
    cameraConnected (camera.mapStrings stripInString).normalize = cameraConnected camera := by
  unfold cameraConnected
  rw [field_normalize_mapStrings (stripInString_fixes (by decide)) distinct]
  rcases field camera "connected" with _ | ⟨_ | _ | _ | _ | _ | _ | _⟩ <;> rfl

theorem cameraEntry_reload {camera : JsonValue} (distinct : camera.KeysDistinct) :
    cameraEntry (camera.mapStrings stripInString).normalize = cameraEntry camera := by
  rw [cameraEntry, cameraEntry, cameraConnected_reload distinct,
    cameraId_normalize_mapStrings (stripInString_fixes (by decide)) distinct]

theorem mapM_cameraEntry_reload :
    ∀ {cameras : List JsonValue}, (∀ c ∈ cameras, c.KeysDistinct) →
      (cameras.map fun c => (c.mapStrings stripInString).normalize).mapM cameraEntry =
        cameras.mapM cameraEntry
  | [], _ => rfl
  | c :: rest, distinct => by
    simp only [List.map_cons, List.mapM_cons,
      cameraEntry_reload (distinct c (List.mem_cons_self _ _)),
      mapM_cameraEntry_reload fun c' mem => distinct c' (List.mem_cons_of_mem _ mem)]

/-- What `_save_config` writes reads back with the config's entries. -/
theorem fileEntries_saveConfig {config : JsonValue} (wellFormed : config.WellFormed) :
    fileEntries (some (saveConfig config)) = configEntries config := by
  simp only [fileEntries, saveConfig, loadJson_dumps wellFormed.1, Except.toOption,
    Option.some_bind, configEntries]
  rw [field_normalize_mapStrings (stripInString_fixes (by decide)) wellFormed.2]
  rcases found : field config "cameras" with _ | ⟨_ | _ | _ | _ | _ | cameras | _⟩
  case some.arr =>
    simp only [Option.map_some', JsonValue.mapStrings, JsonValue.normalize,
      normalizeItems_mapStringsItems]
    exact mapM_cameraEntry_reload (keysDistinct_arr.mp (field_keysDistinct wellFormed.2 found))
  all_goals rfl

/-! ## Each command is a registry step -/

theorem cameraEntry_newCamera (newId : Int) (shouldKeep : FormatFilter)
    (framePath : Option String) :
    cameraEntry (newCamera newId shouldKeep framePath) = some ⟨newId, true⟩ := by
  cases framePath <;> rfl

/-- Replacing the camera list of a well-formed config with well-formed cameras. -/
theorem setItem_cameras_entries {config config' : JsonValue} {cameras : List JsonValue}
    (set : setItem config "cameras" (.arr cameras) = .ok config') (wellFormed : config.WellFormed)
    (camerasWellFormed : ∀ c ∈ cameras, c.WellFormed) :
    fileEntries (some (saveConfig config')) = cameras.mapM cameraEntry := by
  rw [fileEntries_saveConfig (setItem_cameras set wellFormed camerasWellFormed).1]
  obtain ⟨members, rfl, rfl⟩ := setItem_eq_ok.mp set
  simp [configEntries, field]

section Commands

variable {file : Option String} {entries : List CameraEntry} {text : String}

theorem addCamera_refines {shouldKeep : FormatFilter} {framePath : Option String}
    (read : fileEntries file = some entries)
    (ran : addCamera shouldKeep framePath file = .ok text) :
    ∃ entries', fileEntries (some text) = some entries' ∧
      RegistryStep (.addCamera shouldKeep framePath) entries entries' := by
  obtain ⟨config, loaded, read₀, wellFormed⟩ := loadConfig_entries read
  simp only [addCamera, loaded, ok_bind, bind_eq_ok] at ran
  obtain ⟨newId, next, cameras, got, appended, append_, config', set, -, -, -, -, -, -, saved⟩ :=
    ran
  cases saved
  obtain ⟨list, found, mapped⟩ := configEntries_eq_some.mp read₀
  obtain rfl : cameras = .arr list := Option.some.inj ((getItem_eq_ok.mp got).symm.trans found)
  obtain rfl := (Except.ok.inj append_).symm
  have ids : cameraIds config = some (entries.map (·.id)) := by
    rw [cameraIds, found]
    exact mapM_cameraEntry_ids mapped
  obtain ⟨positive, least⟩ := getNextAvailableId_least ids next
  have listWellFormed := wellFormed_arr.mp (field_wellFormed wellFormed found)
  refine ⟨entries ++ [⟨newId, true⟩], ?_, .addCamera shouldKeep framePath positive
    (getNextAvailableId_fresh ids next) least⟩
  rw [setItem_cameras_entries set wellFormed fun c mem => (List.mem_append.mp mem).elim
    (listWellFormed c) fun single => List.mem_singleton.mp single ▸ newCamera_wellFormed _ _ _]
  rw [List.mapM_append, mapped, List.mapM_cons, cameraEntry_newCamera]
  rfl

/-- The loop of `remove_cameras` keeps the entries the filter does not pick. -/
theorem keptCameras_entries {shouldRemove : CameraFilter} :
    ∀ {cameras kept : List JsonValue} {entries : List CameraEntry},
      cameras.mapM cameraEntry = some entries → keptCameras shouldRemove cameras = .ok kept →
      kept.mapM cameraEntry = some (entries.filter fun e => !shouldRemove (.int e.id))
  | [], _, _, read, ran => by cases read; cases ran; rfl
  | c :: rest, _, _, read, ran => by
    obtain ⟨e, es, first, later, rfl⟩ := mapM_cons_eq_some.mp read
    simp only [keptCameras, bind_eq_ok] at ran
    obtain ⟨id, got, kept', keptRan, done⟩ := ran
    cases done
    obtain rfl : id = .int e.id :=
      Option.some.inj ((getItem_eq_ok.mp got).symm.trans (cameraEntry_eq_some.mp first).1)
    have rest' := keptCameras_entries later keptRan
    by_cases picked : shouldRemove (.int e.id)
    · rw [if_pos picked, List.filter_cons_of_neg (by simp [picked])]
      exact rest'
    · rw [if_neg picked, List.filter_cons_of_pos (by simpa using picked), List.mapM_cons, first,
        rest']
      rfl

theorem removeCameras_refines {shouldRemove : CameraFilter} (read : fileEntries file = some entries)
    (ran : removeCameras shouldRemove file = .ok text) :
    fileEntries (some text) = some (entries.filter fun e => !shouldRemove (.int e.id)) := by
  obtain ⟨config, loaded, read₀, wellFormed⟩ := loadConfig_entries read
  simp only [removeCameras, loaded, ok_bind, bind_eq_ok] at ran
  obtain ⟨cameras, got, items, iterated, kept, keptRan, config', set, saved⟩ := ran
  cases saved
  obtain ⟨list, found, mapped⟩ := configEntries_eq_some.mp read₀
  obtain rfl : cameras = .arr list := Option.some.inj ((getItem_eq_ok.mp got).symm.trans found)
  obtain rfl := (Except.ok.inj iterated).symm
  rw [setItem_cameras_entries set wellFormed fun c mem => wellFormed_arr.mp
    (field_wellFormed wellFormed found) c ((keptCameras_sublist keptRan).subset mem)]
  exact keptCameras_entries mapped keptRan

/-- The loop body of `connect_cameras` and `disconnect_cameras` sets the flag of a picked camera
to `connect` and leaves the others. -/
theorem setConnected_entry {connect : Bool} {shouldChange : CameraFilter} {cam cam' : JsonValue}
    {e : CameraEntry} (read : cameraEntry cam = some e)
    (ran : setConnected connect shouldChange cam = .ok cam') :
    cameraEntry cam' =
      some ⟨e.id, if shouldChange (.int e.id) then connect else e.connected⟩ := by
  obtain ⟨hasId, hasConnected⟩ := cameraEntry_eq_some.mp read
  obtain ⟨members, rfl⟩ := exists_obj_of_field hasId
  simp only [setConnected, getItem_eq_ok.mpr hasConnected, getItem_eq_ok.mpr hasId, ok_bind,
    truthy, beq_iff_eq] at ran
  rw [cameraEntry_eq_some]
  simp only [field] at hasId hasConnected ⊢
  split_ifs at ran with same picked
  · obtain rfl := Except.ok.inj ran
    subst same
    simp [hasId, hasConnected]
  · obtain rfl := Except.ok.inj ran
    simp [hasId, picked]
  · obtain rfl := Except.ok.inj ran
    simp [hasId, hasConnected, picked]

theorem mapM_setConnected_entries {connect : Bool} {shouldChange : CameraFilter} :
    ∀ {cameras updated : List JsonValue} {entries : List CameraEntry},
      cameras.mapM cameraEntry = some entries →
      cameras.mapM (setConnected connect shouldChange) = .ok updated →
      updated.mapM cameraEntry = some (entries.map fun e =>
        ⟨e.id, if shouldChange (.int e.id) then connect else e.connected⟩)
  | [], _, _, read, ran => by cases read; cases ran; rfl
  | c :: rest, _, _, read, ran => by
    obtain ⟨e, es, first, later, rfl⟩ := mapM_cons_eq_some.mp read
    simp only [List.mapM_cons, bind_eq_ok] at ran
    obtain ⟨c', changed, rest', restRan, done⟩ := ran
    cases done
    rw [List.mapM_cons, setConnected_entry first changed, mapM_setConnected_entries later restRan]
    rfl

theorem setCamerasConnected_refines {connect : Bool} {shouldChange : CameraFilter}
    (read : fileEntries file = some entries)
    (ran : setCamerasConnected connect shouldChange file = .ok text) :
    fileEntries (some text) = some (entries.map fun e =>
      ⟨e.id, if shouldChange (.int e.id) then connect else e.connected⟩) := by
  obtain ⟨config, loaded, read₀, wellFormed⟩ := loadConfig_entries read
  obtain ⟨list, found, mapped⟩ := configEntries_eq_some.mp read₀
  simp only [setCamerasConnected, loaded, getItem_eq_ok.mpr found, iterate, ok_bind,
    bind_eq_ok] at ran
  obtain ⟨updated, updatedRan, config', set, saved⟩ := ran
  cases saved
  rw [setItem_cameras_entries set wellFormed
    (mapM_setConnected updatedRan (wellFormed_arr.mp (field_wellFormed wellFormed found))).1]
  exact mapM_setConnected_entries mapped updatedRan

/-- Each command moves the entries read off the file by a registry step. -/
theorem step_refines (read : fileEntries file = some entries) (command : Command) :
    ∃ entries', fileEntries (step file command) = some entries' ∧
      RegistryStep command entries entries' := by
  obtain ⟨text, ran, -⟩ := Command.run_ok (fileReadable_of_fileEntries read) command
  rw [step, ran]
  cases command with
  | addCamera shouldKeep framePath => exact addCamera_refines read ran
  | removeCameras shouldRemove =>
    exact ⟨_, removeCameras_refines read ran, .removeCameras shouldRemove entries⟩
  | connectCameras shouldConnect =>
    refine ⟨_, setCamerasConnected_refines read ran, ?_⟩
    convert RegistryStep.connectCameras shouldConnect entries using 3
    rename_i e
    cases shouldConnect (.int e.id) <;> simp
  | disconnectCameras shouldDisconnect =>
    refine ⟨_, setCamerasConnected_refines read ran, ?_⟩
    convert RegistryStep.disconnectCameras shouldDisconnect entries using 3
    rename_i e
    cases shouldDisconnect (.int e.id) <;> simp

end Commands

/-- The config file refines the registry: from a missing file, or one whose cameras have an
`int` id and a `bool` `connected`, every run of the commands changes the ids and flags read off
the file as the same commands change the registry. -/
theorem commands_refine_registry {file : Option String} {entries : List CameraEntry}
    (read : fileEntries file = some entries) (commands : List Command) :
    ∃ final, fileEntries (run file commands) = some final ∧
      RegistryRun commands entries final := by
  induction commands generalizing file entries with
  | nil => exact ⟨entries, read, .nil entries⟩
  | cons command rest ih =>
    obtain ⟨middle, stepped, moved⟩ := step_refines read command
    obtain ⟨final, ran, runs⟩ := ih stepped
    exact ⟨final, ran, .cons moved runs⟩

/-- From no file: two cameras added, the first removed, the second disconnected. -/
theorem commands_refine_registry_from_missing_file :
    ∃ final, fileEntries (run none [.addCamera (fun _ _ _ => true) none,
      .addCamera (fun _ _ _ => false) (some "/tmp/a.mjpg"), .removeCameras (intEquals 1),
      .disconnectCameras fun _ => true]) = some final ∧
      RegistryRun [.addCamera (fun _ _ _ => true) none,
        .addCamera (fun _ _ _ => false) (some "/tmp/a.mjpg"), .removeCameras (intEquals 1),
        .disconnectCameras fun _ => true] [] final :=
  @commands_refine_registry none [] rfl _

end CrosPlatform.Camera
