import BandixPlus.Lib.CrashDisk
import BandixPlus.Persistence.CurrentHour
import BandixPlus.Service.State

/-! # The state files

`persistence.rs`: `devices_state.json` and `current_hour_state.json` are replaced by `write_json_atomic` while
the service runs, by the collector and, for the devices, by requests too. The requests and the collector hold
the runtime for reading, so that saves of one file may overlap.

* `state_files_survive`: in every run with saves that fail, kills and power cuts, a file is loaded as some
  save has written it, and is never quarantined, if no two saves of a file that overlap begin in one
  millisecond and no reading of a file fails.
* `same_millisecond_tears`: the condition is needed. -/

namespace BandixPlus.Persistence.StateFiles

open BandixPlus.Lib BandixPlus.Lib.CrashDisk BandixPlus.Lib.Run
open BandixPlus.Persistence.CurrentHour BandixPlus.Persistence.Paths BandixPlus.Service.State

inductive StateFile where
  | devices
  | currentHour
  deriving DecidableEq

abbrev StateFile.Content : StateFile → Type
  | .devices => PersistedDevicesFile
  | .currentHour => PersistedCurrentHourFile

/-- `devices_path` and `current_hour_path`, in the data directory. -/
def StateFile.path : StateFile → String
  | .devices => "devices_state.json"
  | .currentHour => "current_hour_state.json"

/-- `serde_json` at a type. -/
structure Json (T : Type) where
  toVec : T → Option (List UInt8)
  fromSlice : List UInt8 → Option T

/-- `Path::with_extension`. -/
def withExtension (fileName ext : String) : String :=
  if ext = "" then fileStem fileName else fileStem fileName ++ ("." ++ ext)

def tmpPath (file : StateFile) (millis : UInt64) : String :=
  withExtension file.path ("tmp." ++ toString millis)

def badPath (file : StateFile) (millis : UInt64) : String := file.path ++ ".bad." ++ toString millis

/-- How `write_all` cuts a payload into writes. -/
def written : List ℕ → List UInt8 → List (List UInt8)
  | [], payload => [payload]
  | n :: sizes, payload => payload.take n :: written sizes (payload.drop n)

variable (json : ∀ file : StateFile, Json file.Content)

/-- `write_json_atomic` begins; its calls are steps of their own. -/
def writeJsonAtomic (s : System String) (file : StateFile) (millis : UInt64) (data : file.Content)
    (sizes : List ℕ) : System String :=
  match (json file).toVec data with
  | none => s
  | some payload => CrashDisk.step s (.start (tmpPath file millis) file.path (written sizes payload))

def quarantineBadFile (disk : Disk String) (file : StateFile) (millis : UInt64) : Disk String :=
  disk.rename file.path (badPath file millis)

/-- `fs::read` gives the bytes of the file, or fails with `ioError`. -/
def readJsonOrQuarantine (disk : Disk String) (file : StateFile) (millis : UInt64)
    (ioError : Option String) : Except String (Option file.Content) × Disk String :=
  match disk.read file.path with
  | none => (.ok none, disk)
  | some bytes =>
    match ioError with
    | some e => (.error s!"failed to read {file.path}: {e}", quarantineBadFile disk file millis)
    | none =>
      match (json file).fromSlice bytes with
      | some v => (.ok (some v), disk)
      | none => (.ok none, quarantineBadFile disk file millis)

/-- What happens to the data directory. -/
inductive FileAction where
  | save (file : StateFile) (millis : UInt64) (data : file.Content) (sizes : List ℕ)
  | load (file : StateFile) (millis : UInt64) (ioError : Option String)
  /-- The save at `i` makes its next call. -/
  | call (i : ℕ)
  /-- It fails. -/
  | fail (i : ℕ)
  | commit
  | kill
  | powerCut (k : ℕ) (junk : ℕ → List UInt8)

def step (s : System String) : FileAction → System String
  | .save file millis data sizes => writeJsonAtomic json s file millis data sizes
  | .load file millis ioError =>
    { s with disk := (readJsonOrQuarantine json s.disk file millis ioError).2 }
  | .call i => CrashDisk.step s (.call i)
  | .fail i => CrashDisk.step s (.fail i)
  | .commit => CrashDisk.step s .commit
  | .kill => CrashDisk.step s .kill
  | .powerCut k junk => CrashDisk.step s (.powerCut k junk)

/-- A new data directory. -/
def begin : System String := ⟨.empty, [], []⟩

/-- **The condition on a step**: of the saves that are under way, no other one of this file began in this
millisecond; and what a load finds, it can read. -/
def Apart (s : System String) : FileAction → Prop
  | .save file millis _ _ => ∀ w ∈ s.writers, w.todo ≠ [] → w.tmp ≠ tmpPath file millis
  | .load _ _ ioError => ioError = none
  | _ => True

/-- `from_slice` reads back what `to_vec` has written. -/
def Json.RoundTrips {T : Type} (json : Json T) (v : T) : Prop :=
  ∀ bytes, json.toVec v = some bytes → json.fromSlice bytes = some v

/-- It does for what the run saves. -/
def ReadsBack (acts : List FileAction) : Prop :=
  ∀ file millis data sizes, .save file millis data sizes ∈ acts → (json file).RoundTrips data

/-! ### Names -/

/-- The names that are not those of the files. -/
def IsTemp (name : String) : Prop := ∀ file : StateFile, name ≠ file.path

theorem not_isTemp_path (file : StateFile) : ¬ IsTemp file.path := fun h => h file rfl

theorem path_inj {file file' : StateFile} (h : file.path = file'.path) : file = file' := by
  revert h
  cases file <;> cases file' <;> decide

theorem toList_tmpPath (file : StateFile) (millis : UInt64) :
    (tmpPath file millis).toList =
      (fileStem file.path).toList ++ ".tmp.".toList ++ (toString millis).toList := by
  have hne : "tmp." ++ toString millis ≠ "" := by
    intro h
    have hlist := congrArg String.toList h
    rw [String.toList_append] at hlist
    exact absurd hlist (List.cons_ne_nil _ _)
  unfold tmpPath withExtension
  rw [if_neg hne]
  simp only [String.toList_append, List.append_assoc]
  rfl

theorem isTemp_tmpPath (file : StateFile) (millis : UInt64) : IsTemp (tmpPath file millis) := by
  intro file' h
  have hlist := congrArg String.toList h
  rw [toList_tmpPath] at hlist
  have hprefix := congrArg (List.take ((fileStem file.path).toList ++ ".tmp.".toList).length) hlist
  rw [List.take_left] at hprefix
  revert hprefix
  cases file <;> cases file' <;> decide

theorem flatten_written (sizes : List ℕ) (payload : List UInt8) :
    (written sizes payload).flatten = payload := by
  induction sizes generalizing payload with
  | nil => simp [written]
  | cons n sizes ih => simp [written, ih, List.take_append_drop]

/-! ### Runs -/

variable {json}

theorem inv_step {s : System String} (h : Inv IsTemp s) {a : FileAction} (ha : Apart s a)
    (hload : ∀ file millis, (readJsonOrQuarantine json s.disk file millis none).2 = s.disk) :
    Inv IsTemp (step json s a) := by
  cases a with
  | save file millis data sizes =>
    show Inv IsTemp (writeJsonAtomic json s file millis data sizes)
    unfold writeJsonAtomic
    split
    · exact h
    · exact CrashDisk.inv_step h ⟨isTemp_tmpPath file millis, not_isTemp_path file, ha⟩
  | load file millis ioError =>
    obtain rfl : ioError = none := ha
    show Inv IsTemp { s with disk := _ }
    rw [hload file millis]
    exact h
  | call i => exact CrashDisk.inv_step h (a := .call i) trivial
  | fail i => exact CrashDisk.inv_step h (a := .fail i) trivial
  | commit => exact CrashDisk.inv_step h (a := .commit) trivial
  | kill => exact CrashDisk.inv_step h (a := .kill) trivial
  | powerCut k junk => exact CrashDisk.inv_step h (a := .powerCut k junk) trivial

/-- **What was to be written comes from a save of the run.** -/
def FromSaves (json : ∀ file : StateFile, Json file.Content) (acts : List FileAction)
    (s : System String) : Prop :=
  ∀ p bytes, (p, bytes) ∈ s.saved → ∃ file millis data sizes, p = StateFile.path file ∧
    (json file).toVec data = some bytes ∧ FileAction.save file millis data sizes ∈ acts

theorem fromSaves_step {acts : List FileAction} {s : System String} (h : FromSaves json acts s)
    {a : FileAction}
    (ha : a ∈ acts) : FromSaves json acts (step json s a) := by
  have hcall : ∀ i, (CrashDisk.step s (.call i)).saved = s.saved := by
    intro i
    unfold CrashDisk.step
    dsimp only
    split <;> rfl
  cases a with
  | save file millis data sizes =>
    show FromSaves json acts (writeJsonAtomic json s file millis data sizes)
    unfold writeJsonAtomic
    split
    · exact h
    · next payload hvec =>
      intro p bytes hmem
      rcases List.mem_cons.mp hmem with heq | hmem
      · obtain ⟨rfl, rfl⟩ := Prod.mk.inj heq
        exact ⟨file, millis, data, sizes, rfl, hvec.trans (by rw [flatten_written]), ha⟩
      · exact h p bytes hmem
  | load file millis ioError => exact h
  | call i => exact fun p bytes hmem => h p bytes (hcall i ▸ hmem)
  | fail i => exact h
  | commit => exact h
  | kill => exact h
  | powerCut k junk => exact h

section
variable {acts : List FileAction} {s : System String}

/-- **A load reads what a save has written**, and leaves the disk as it is. -/
theorem load_spec (h : Inv IsTemp s) (hsaves : FromSaves json acts s)
    (hjson : ReadsBack json acts) (file : StateFile) (millis : UInt64) :
    (s.disk.read file.path = none ∧
        readJsonOrQuarantine json s.disk file millis none = (.ok none, s.disk)) ∨
      ∃ data millis' sizes, .save file millis' data sizes ∈ acts ∧
        (json file).toVec data = s.disk.read file.path ∧
        readJsonOrQuarantine json s.disk file millis none = (.ok (some data), s.disk) := by
  cases hread : s.disk.read file.path with
  | none => exact Or.inl ⟨rfl, by unfold readJsonOrQuarantine; rw [hread]⟩
  | some bytes =>
    obtain ⟨file', millis', data, sizes, hpath, hvec, hmem⟩ :=
      hsaves _ _ (mem_saved_of_read h (not_isTemp_path file) hread)
    obtain rfl := path_inj hpath
    refine Or.inr ⟨data, millis', sizes, hmem, hvec, ?_⟩
    unfold readJsonOrQuarantine
    rw [hread]
    dsimp only
    rw [hjson file millis' data sizes hmem bytes hvec]

theorem kept_step (h : Inv IsTemp s) (hsaves : FromSaves json acts s)
    (hjson : ReadsBack json acts) {file : StateFile} (hkept : Kept s.disk file.path) {a : FileAction}
    (ha : Apart s a) :
    Kept (step json s a).disk file.path := by
  have hcall := CrashDisk.kept_step h (not_isTemp_path file) hkept
  cases a with
  | save file' millis data sizes =>
    show Kept (writeJsonAtomic json s file' millis data sizes).disk file.path
    unfold writeJsonAtomic
    split
    · exact hkept
    · exact hcall _
  | load file' millis ioError =>
    obtain rfl : ioError = none := ha
    show Kept (readJsonOrQuarantine json s.disk file' millis none).2 file.path
    rcases load_spec h hsaves hjson file' millis with ⟨-, hload⟩ | ⟨data, millis', sizes, -, -, hload⟩
    all_goals rw [hload]; exact hkept
  | call i => exact hcall (.call i)
  | fail i => exact hcall (.fail i)
  | commit => exact hcall .commit
  | kill => exact hcall .kill
  | powerCut k junk => exact hcall (.powerCut k junk)

theorem run_spec {post : List FileAction} (hsub : post ⊆ acts) (hs : Inv IsTemp s ∧ FromSaves json acts s)
    (h : Along (step json) Apart s post)
    (hjson : ReadsBack json acts) :
    Inv IsTemp (post.foldl (step json) s) ∧ FromSaves json acts (post.foldl (step json) s) ∧
      ∀ file : StateFile, Kept s.disk file.path → Kept (post.foldl (step json) s).disk file.path := by
  induction post generalizing s with
  | nil => exact ⟨hs.1, hs.2, fun _ hkept => hkept⟩
  | cons a post ih =>
    obtain ⟨hmem, hpost⟩ := List.cons_subset.mp hsub
    have hload : ∀ file millis, (readJsonOrQuarantine json s.disk file millis none).2 = s.disk := by
      intro file millis
      rcases load_spec hs.1 hs.2 hjson file millis with ⟨-, hload⟩ | ⟨data, millis', sizes, -, -, hload⟩
      all_goals rw [hload]
    have hnext : Inv IsTemp (step json s a) ∧ FromSaves json acts (step json s a) :=
      ⟨inv_step hs.1 h.1 hload, fromSaves_step hs.2 hmem⟩
    obtain ⟨hinv, hsaves, hkept⟩ := ih hpost hnext h.2
    exact ⟨hinv, hsaves, fun file hfile => hkept file (kept_step hs.1 hs.2 hjson hfile h.1)⟩

theorem load_of_read {disk disk' : Disk String} {file : StateFile} (millis : UInt64)
    (h : disk.read file.path = disk'.read file.path) :
    (readJsonOrQuarantine json disk file millis none).1 =
      (readJsonOrQuarantine json disk' file millis none).1 := by
  unfold readJsonOrQuarantine
  rw [h]
  cases disk'.read file.path with
  | none => rfl
  | some bytes =>
    dsimp only
    cases (json file).fromSlice bytes <;> rfl

/-- **The last call of a save puts its data in place.** -/
theorem load_call (h : Inv IsTemp s) (hsaves : FromSaves json acts s)
    (hjson : ReadsBack json acts) {file : StateFile} {i : ℕ} {w : Writer String}
    (hi : s.writers[i]? = some w) (hpath : w.path = file.path)
    (hlast : w.todo = [.rename w.tmp w.path]) (millis : UInt64) :
    ∃ data, (json file).toVec data = some w.payload ∧
      (readJsonOrQuarantine json (step json s (.call i)).disk file millis none).1 = .ok (some data) := by
  have hread : (step json s (.call i)).disk.read file.path = some w.payload := hpath ▸ read_call h hi hlast
  obtain ⟨file', millis', data, sizes, hpath', hvec, hmem⟩ :=
    hsaves _ _ (h.writers w (List.mem_of_getElem? hi)).mem_saved
  obtain rfl := path_inj (hpath.symm.trans hpath')
  refine ⟨data, hvec, ?_⟩
  unfold readJsonOrQuarantine
  rw [hread]
  dsimp only
  rw [hjson file millis' data sizes hmem _ hvec]

end

/-- What holds of a file on the disk that a run has left. -/
structure Survives (json : ∀ file : StateFile, Json file.Content) (acts : List FileAction) (s : System String)
    (file : StateFile) (millis : UInt64) : Prop where
  /-- No load finds a file that it cannot read. -/
  unharmed : (readJsonOrQuarantine json s.disk file millis none).2 = s.disk
  found : (readJsonOrQuarantine json s.disk file millis none).1 = .ok none → s.disk.read file.path = none
  saved : ∀ data, (readJsonOrQuarantine json s.disk file millis none).1 = .ok (some data) →
    ∃ millis' sizes, .save file millis' data sizes ∈ acts
  /-- With the last call of a save, what it saves is loaded. -/
  finished : ∀ i w, s.writers[i]? = some w → w.path = file.path → w.todo = [.rename w.tmp w.path] →
    ∃ data, (json file).toVec data = some w.payload ∧
      (readJsonOrQuarantine json (step json s (.call i)).disk file millis none).1 = .ok (some data)
  /-- What is committed is loaded after a power cut. -/
  durable : ∀ k junk, (readJsonOrQuarantine json (s.disk.commit.cut k junk) file millis none).1 =
    (readJsonOrQuarantine json s.disk file millis none).1

theorem survives {acts : List FileAction} {s : System String} (h : Inv IsTemp s)
    (hsaves : FromSaves json acts s)
    (hjson : ReadsBack json acts) (file : StateFile) (millis : UInt64) :
    Survives json acts s file millis := by
  have hfinished : ∀ i w, s.writers[i]? = some w → w.path = file.path →
      w.todo = [.rename w.tmp w.path] → ∃ data, (json file).toVec data = some w.payload ∧
        (readJsonOrQuarantine json (step json s (.call i)).disk file millis none).1 = .ok (some data) :=
    fun i w hi hpath hlast => load_call h hsaves hjson hi hpath hlast millis
  have hdurable : ∀ k junk, (readJsonOrQuarantine json (s.disk.commit.cut k junk) file millis none).1 =
      (readJsonOrQuarantine json s.disk file millis none).1 :=
    fun k junk => load_of_read millis (read_cut_commit h.disk (not_isTemp_path file) k junk)
  rcases load_spec h hsaves hjson file millis with ⟨hread, hload⟩ | ⟨data, millis', sizes, hmem, -, hload⟩
  · refine ⟨by rw [hload], fun _ => hread, fun data hdata => ?_, hfinished, hdurable⟩
    rw [hload] at hdata
    cases hdata
  · refine ⟨by rw [hload], fun hnone => ?_, fun data' hdata => ?_, hfinished, hdurable⟩
    · rw [hload] at hnone
      cases hnone
    · rw [hload] at hdata
      obtain rfl := Option.some.inj (Except.ok.inj hdata)
      exact ⟨millis', sizes, hmem⟩

/-- **The state files survive every run** with saves that overlap, failing saves, kills and power cuts, in
which what is there can be read, and one that is committed is there from then on. -/
theorem state_files_survive {acts : List FileAction} (h : Along (step json) Apart begin acts)
    (hjson : ReadsBack json acts) (file : StateFile) (millis : UInt64) :
    Survives json acts (acts.foldl (step json) begin) file millis ∧
      ∀ pre post, acts = pre ++ .commit :: post →
        (∃ data, (readJsonOrQuarantine json (pre.foldl (step json) begin).disk file millis none).1 =
          .ok (some data)) →
        ∃ data, (readJsonOrQuarantine json (acts.foldl (step json) begin).disk file millis none).1 =
          .ok (some data) := by
  have hbegin : Inv IsTemp begin ∧ FromSaves json acts begin :=
    ⟨inv_empty, fun _ _ hmem => absurd hmem List.not_mem_nil⟩
  obtain ⟨hinv, hsaves, -⟩ := run_spec (List.Subset.refl _) hbegin h hjson
  refine ⟨survives hinv hsaves hjson file millis, ?_⟩
  rintro pre post rfl ⟨found, hfile⟩
  obtain ⟨hpre, -, hpost⟩ := along_append.mp h
  obtain ⟨hinvPre, hsavesPre, -⟩ := run_spec (List.subset_append_left _ _) hbegin hpre hjson
  rcases load_spec hinvPre hsavesPre hjson file millis with ⟨-, hload⟩ | ⟨data, -, -, -, hread, hload⟩
  · rw [hload] at hfile
    cases hfile
  -- the file is in the directory that is committed
  obtain ⟨bytes, hbytes⟩ : ∃ bytes, (pre.foldl (step json) begin).disk.read file.path = some bytes := by
    cases hnone : (pre.foldl (step json) begin).disk.read file.path with
    | some bytes => exact ⟨bytes, rfl⟩
    | none =>
      unfold readJsonOrQuarantine at hload
      rw [hnone] at hload
      cases hload
  have hcommit : Inv IsTemp (step json (pre.foldl (step json) begin) .commit) ∧
      FromSaves json (pre ++ .commit :: post) (step json (pre.foldl (step json) begin) .commit) :=
    ⟨CrashDisk.inv_step hinvPre (a := .commit) trivial, hsavesPre⟩
  have hsub : post ⊆ pre ++ .commit :: post := fun a ha =>
    List.mem_append_right _ (List.mem_cons_of_mem _ ha)
  obtain ⟨-, -, hkept⟩ := run_spec hsub hcommit hpost hjson
  have hend := hkept file (kept_commit_of_read hbytes)
  rcases load_spec hinv hsaves hjson file millis with ⟨hread, -⟩ | ⟨data, -, -, -, -, hload⟩
  · rw [List.foldl_append] at hread
    exact absurd hread hend.read
  · exact ⟨data, by rw [hload]⟩

/-- `serde_json` at a current hour without buckets; `toVec` fails on anything else. -/
def sampleJson : ∀ file : StateFile, Json file.Content
  | .devices => ⟨fun _ => none, fun _ => none⟩
  | .currentHour =>
    let text := "\x7b\"schema_version\":2,\"state\":\x7b\"iface\":[],\"device\":[]\x7d\x7d".toUTF8.data.toList
    { toVec := fun data =>
        if data.schemaVersion = 2 ∧ data.state.iface = [] ∧ data.state.device = [] then some text else none
      fromSlice := fun bytes => if bytes = text then some ⟨2, ⟨[], []⟩⟩ else none }

def sampleFile : PersistedCurrentHourFile := ⟨2, ⟨[], []⟩⟩

/-- Two saves overlap, the first one is committed, the power is cut while the second one writes, and the file
is loaded. -/
def sampleRun : List FileAction :=
  [.save .currentHour 1 sampleFile [], .save .currentHour 2 sampleFile [3],
    .call 0, .call 1, .call 1, .call 0,
    .call 0, .call 0] ++ .commit :: [.call 1, .powerCut 0 fun _ => [], .load .currentHour 3 none]

theorem along_sampleRun : Along (step sampleJson) Apart begin sampleRun := by
  have hfirst : Apart begin (.save .currentHour 1 sampleFile []) := fun w hw => absurd hw List.not_mem_nil
  have hsecond : Apart (step sampleJson begin (.save .currentHour 1 sampleFile []))
      (.save .currentHour 2 sampleFile [3]) := by
    intro w hw _
    obtain rfl := List.mem_singleton.mp hw
    decide
  exact ⟨hfirst, hsecond, trivial, trivial, trivial, trivial, trivial, trivial, trivial, trivial, trivial,
    rfl, trivial⟩

theorem readsBack_sampleRun : ReadsBack sampleJson sampleRun := by
  intro file millis data sizes h
  have hsample : ((sampleJson .currentHour).RoundTrips sampleFile) := by
    intro bytes hvec
    obtain rfl := Option.some.inj hvec
    simp [sampleJson, sampleFile]
  simp only [sampleRun, List.cons_append, List.nil_append, List.mem_cons, FileAction.save.injEq, reduceCtorEq,
    List.not_mem_nil, or_false] at h
  rcases h with ⟨rfl, -, hdata, -⟩ | ⟨rfl, -, hdata, -⟩ <;> rw [eq_of_heq hdata] <;> exact hsample

theorem state_files_survive_sample :
    Survives sampleJson sampleRun (sampleRun.foldl (step sampleJson) begin) .currentHour 3 ∧
      ∃ data, (readJsonOrQuarantine sampleJson (sampleRun.foldl (step sampleJson) begin).disk .currentHour
        3 none).1 = .ok (some data) :=
  have h := state_files_survive along_sampleRun readsBack_sampleRun .currentHour 3
  ⟨h.1, h.2 _ _ rfl ⟨sampleFile, rfl⟩⟩

/-! ### Two saves in one millisecond -/

section
variable {d : Disk String} {writers : List (Writer String)} {saved : List (String × List UInt8)}
  {t p t' p' : String} {payload payload' : List UInt8} {handle handle' : Handle} {op : Op String}
  {todo : List (Op String)} {w : Writer String}

theorem step_call_left :
    CrashDisk.step ⟨d, writers ++ [⟨t, p, payload, handle, op :: todo⟩, w], saved⟩ (.call writers.length) =
      ⟨(op.run d handle).1, writers ++ [⟨t, p, payload, (op.run d handle).2, todo⟩, w], saved⟩ := by
  simp [CrashDisk.step]

theorem step_call_right :
    CrashDisk.step ⟨d, writers ++ [w, ⟨t, p, payload, handle, op :: todo⟩], saved⟩
      (.call (writers.length + 1)) =
      ⟨(op.run d handle).1, writers ++ [w, ⟨t, p, payload, (op.run d handle).2, todo⟩], saved⟩ := by
  simp [CrashDisk.step]

end

/-- The second save truncates what the first one renames. -/
def tearing (i : ℕ) (file : StateFile) (millis : UInt64) (data data' : file.Content) : List FileAction :=
  [.save file millis data [], .save file millis data' [],
    .call i, .call i, .call i, .call (i + 1), .call i, .kill]

theorem dir_create (d : Disk String) (t : String) : ∃ i, (d.create t).dir t = some i := by
  unfold Disk.create
  cases hi : d.dir t with
  | some i => exact ⟨i, hi⟩
  | none => exact ⟨d.next, Function.update_self _ _ _⟩

theorem read_torn {d : Disk String} {t p : String} {i : ℕ} (hi : d.dir t = some i) (hne : p ≠ t) :
    ((d.create t).rename t p).read p = some [] := by
  have hcreate : d.create t = { d with node := Function.update d.node i ⟨[], false⟩ } := by
    unfold Disk.create
    rw [hi]
  rw [hcreate]
  unfold Disk.rename Disk.read
  dsimp only
  rw [hi]
  simp [Disk.redirect, hne]

/-- **Two saves of a file in one millisecond can lose it**, with what was saved before: from any state, the
file is left empty, and the next load quarantines it. -/
theorem same_millisecond_tears (json : ∀ file : StateFile, Json file.Content) (s : System String)
    (file : StateFile) (millis millis' : UInt64) {data data' : file.Content}
    (hdata : ((json file).toVec data).isSome) (hdata' : ((json file).toVec data').isSome)
    (hempty : (json file).fromSlice [] = none) :
    let torn := ((tearing s.writers.length file millis data data').foldl (step json) s).disk
    torn.read file.path = some [] ∧ (readJsonOrQuarantine json torn file millis' none).1 = .ok none ∧
      (readJsonOrQuarantine json torn file millis' none).2.read file.path = none := by
  obtain ⟨payload, hpayload⟩ := Option.isSome_iff_exists.mp hdata
  obtain ⟨payload', hpayload'⟩ := Option.isSome_iff_exists.mp hdata'
  have hne : file.path ≠ tmpPath file millis := fun heq => isTemp_tmpPath file millis file heq.symm
  have hdisk : ∃ d : Disk String, ∃ i, d.dir (tmpPath file millis) = some i ∧
      ((tearing s.writers.length file millis data data').foldl (step json) s).disk =
        (d.create (tmpPath file millis)).rename (tmpPath file millis) file.path := by
    obtain ⟨d, writers, saved⟩ := s
    obtain ⟨i, hi⟩ := dir_create d (tmpPath file millis)
    have hstart : ∀ (s : System String) (data : file.Content) payload, (json file).toVec data = some payload →
        step json s (.save file millis data []) = ⟨s.disk, s.writers ++ [⟨tmpPath file millis, file.path,
          payload, ⟨0, 0⟩, replaceOps (tmpPath file millis) file.path [payload]⟩],
          (file.path, payload) :: s.saved⟩ := by
      intro s data payload hvec
      show writeJsonAtomic json s file millis data [] = _
      unfold writeJsonAtomic
      rw [hvec]
      simp [CrashDisk.step, written]
    simp only [tearing, List.foldl_cons, List.foldl_nil]
    rw [hstart _ data payload hpayload, hstart _ data' payload' hpayload']
    simp only [step, List.append_assoc, List.cons_append, List.nil_append,
      replaceOps, List.map_cons, List.map_nil]
    rw [step_call_left, step_call_left, step_call_left, step_call_right, step_call_left]
    let created := (Op.create (tmpPath file millis)).run d ⟨0, 0⟩
    let full := (Op.write payload).run created.1 created.2
    exact ⟨(Op.sync.run full.1 full.2).1, i, hi, rfl⟩
  obtain ⟨d, i, hi, hdisk⟩ := hdisk
  have hread := read_torn hi hne
  intro torn
  have htorn : torn.read file.path = some [] := by rw [show torn = _ from hdisk, hread]
  refine ⟨htorn, ?_⟩
  unfold readJsonOrQuarantine
  rw [htorn]
  dsimp only
  rw [hempty]
  refine ⟨rfl, ?_⟩
  obtain ⟨j, hj, -⟩ := Option.map_eq_some_iff.mp htorn
  unfold quarantineBadFile Disk.rename Disk.read
  rw [hj]
  simp [Disk.redirect]

theorem same_millisecond_tears_sample :
    let torn := ((tearing 0 .currentHour 7 sampleFile sampleFile).foldl (step sampleJson) begin).disk
    torn.read "current_hour_state.json" = some [] ∧
      (readJsonOrQuarantine sampleJson torn .currentHour 8 none).1 = .ok none ∧
      (readJsonOrQuarantine sampleJson torn .currentHour 8 none).2.read "current_hour_state.json" = none :=
  same_millisecond_tears sampleJson begin .currentHour 7 8 rfl rfl rfl

end BandixPlus.Persistence.StateFiles
