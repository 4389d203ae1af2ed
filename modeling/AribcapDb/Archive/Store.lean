import AribcapDb.Crates

/-! # The archive store and its files

The state shared by the recorder and the maintenance loop: the file being recorded for every
stream and the generation of every path written since the search index last read it. Files are
byte lists under path strings. -/

namespace AribcapDb

/-- What stands at a path. -/
inductive Entry where
  | file (content : List UInt8)
  /-- A directory, a link or a special file. -/
  | other
  deriving DecidableEq, Repr

/-- The files of a directory tree by path. -/
abbrev FileSystem := String → Option Entry

namespace FileSystem

/-- `OpenOptions::create_new` where nothing exists. -/
def create (files : FileSystem) (path : String) : FileSystem :=
  Function.update files path (some (.file []))

/-- Write at the end of an open file. -/
def append (files : FileSystem) (path : String) (bytes : List UInt8) : FileSystem :=
  match files path with
  | some (.file content) => Function.update files path (some (.file (content ++ bytes)))
  | _ => files

theorem append_file {files : FileSystem} {path : String} {content : List UInt8}
    (present : files path = some (.file content)) (bytes : List UInt8) :
    files.append path bytes = Function.update files path (some (.file (content ++ bytes))) := by
  simp only [append, present]

theorem append_other (files : FileSystem) {path other : String} (different : other ≠ path)
    (bytes : List UInt8) : files.append path bytes other = files other := by
  rcases found : files path with _ | _ | _
  · simp only [append, found]
  · simp only [append, found, Function.update_of_ne different]
  · simp only [append, found]

theorem create_other (files : FileSystem) {path other : String} (different : other ≠ path) :
    files.create path other = files other :=
  Function.update_of_ne different _ _

/-- A new file holds what was first written to it. -/
theorem create_append (files : FileSystem) (path : String) (bytes : List UInt8) :
    (files.create path).append path bytes =
      Function.update files path (some (.file bytes)) := by
  have present : files.create path path = some (.file []) := Function.update_self ..
  rw [append_file present, create, Function.update_idem, List.nil_append]

/-- Every file keeps its content and may get more. -/
def Grows (before after : FileSystem) : Prop :=
  ∀ path content, before path = some (.file content) →
    ∃ more, after path = some (.file (content ++ more))

theorem Grows.refl (files : FileSystem) : files.Grows files := fun _ _ present =>
  ⟨[], by rw [present, List.append_nil]⟩

theorem Grows.trans {first second third : FileSystem} (early : first.Grows second)
    (late : second.Grows third) : first.Grows third := by
  intro path content present
  obtain ⟨more, middle⟩ := early path content present
  obtain ⟨rest, last⟩ := late path _ middle
  exact ⟨more ++ rest, by rw [last, List.append_assoc]⟩

theorem grows_append (files : FileSystem) (path : String) (bytes : List UInt8) :
    files.Grows (files.append path bytes) := by
  intro other content present
  by_cases own : other = path
  · subst own
    exact ⟨bytes, by rw [append_file present, Function.update_self]⟩
  · exact ⟨[], by rw [append_other _ own, present, List.append_nil]⟩

theorem grows_create {files : FileSystem} {path : String} (free : files path = none) :
    files.Grows (files.create path) := by
  intro other content present
  have different : other ≠ path := by
    rintro rfl
    rw [free] at present
    cases present
  exact ⟨[], by rw [create_other _ different, present, List.append_nil]⟩

end FileSystem

/-- The EIT fields that identify a program. Start times are compared as instants. -/
structure ProgramKey where
  serviceId : Option UInt64
  transportStreamId : Option UInt64
  originalNetworkId : Option UInt64
  eventId : Option UInt64
  startTime : Option Instant
  deriving DecidableEq

structure Program where
  key : ProgramKey
  title : String
  deriving DecidableEq

/-- `program_from_eit`. -/
def programFromEit (chrono : Chrono) (value : Value) : Option Program := do
  let type ← value.strField "type"
  if type ≠ "eit" then none
  else
    let sect ← value.strField "section"
    if sect ≠ "present" then none
    else
      some
        { key :=
            { serviceId := value.u64Field "serviceId"
              transportStreamId := value.u64Field "transportStreamId"
              originalNetworkId := value.u64Field "originalNetworkId"
              eventId := value.u64Field "eventId"
              startTime := value.strField "startTime" >>= chrono.parseFromRfc3339 }
          title := (eventNameFromEit value).getD "no-title" }

/-- The file being recorded for a stream; the open handle is known by its path. -/
structure ActiveArchiveFile where
  program : ProgramKey
  path : String
  deriving DecidableEq

/-- `ArchiveStore`. -/
structure ArchiveStore where
  dataDir : String
  activeArchiveFiles : AList fun _ : String => ActiveArchiveFile
  dirtyPaths : AList fun _ : String => UInt64

def archiveRoot (dataDir : String) : String := join dataDir "archive"

namespace ArchiveStore

def new (dataDir : String) : ArchiveStore := ⟨dataDir, ∅, ∅⟩

/-- The active file of a stream. -/
def active (store : ArchiveStore) (stream : String) : Option ActiveArchiveFile :=
  store.activeArchiveFiles.lookup stream

/-- The generation of a path, when it is dirty. -/
def generation (store : ArchiveStore) (path : String) : Option UInt64 :=
  store.dirtyPaths.lookup path

def snapshotDirtyPaths (store : ArchiveStore) : AList fun _ : String => UInt64 :=
  store.dirtyPaths

/-- `clear_dirty_path_if_unchanged`: whether the mark was cleared, and the store after it. -/
def clearDirtyPathIfUnchanged (store : ArchiveStore) (path : String) (generation : UInt64) :
    Bool × ArchiveStore :=
  if store.dirtyPaths.lookup path ≠ some generation then (false, store)
  else (true, { store with dirtyPaths := store.dirtyPaths.erase path })

/-- `mark_dirty`: a path that is not dirty starts again at generation one. -/
def markDirty (store : ArchiveStore) (path : String) : ArchiveStore :=
  { store with
    dirtyPaths := store.dirtyPaths.insert path ((store.dirtyPaths.lookup path).getD 0 + 1) }

/-- `replace_active`. -/
def replaceActive (store : ArchiveStore) (stream : String) (active : ActiveArchiveFile) :
    ArchiveStore :=
  let marked := store.markDirty active.path
  { marked with activeArchiveFiles := marked.activeArchiveFiles.insert stream active }

/-- `deactivate_stream`. -/
def deactivateStream (store : ArchiveStore) (stream : String) : ArchiveStore :=
  { store with activeArchiveFiles := store.activeArchiveFiles.erase stream }

/-- `active_paths`. -/
def activePaths (store : ArchiveStore) : List String :=
  store.activeArchiveFiles.entries.map fun entry => entry.2.path

section Laws

variable (store : ArchiveStore) (stream path : String)

@[simp] theorem active_new (dataDir : String) : (new dataDir).active stream = none := rfl

@[simp] theorem generation_new (dataDir : String) : (new dataDir).generation path = none := rfl

@[simp] theorem active_markDirty : (store.markDirty path).active stream = store.active stream :=
  rfl

@[simp] theorem dataDir_markDirty : (store.markDirty path).dataDir = store.dataDir := rfl

@[simp] theorem dataDir_replaceActive (active : ActiveArchiveFile) :
    (store.replaceActive stream active).dataDir = store.dataDir := rfl

@[simp] theorem dataDir_deactivateStream :
    (store.deactivateStream stream).dataDir = store.dataDir := rfl

@[simp] theorem generation_deactivateStream :
    (store.deactivateStream stream).generation path = store.generation path := rfl

theorem active_replaceActive (active : ActiveArchiveFile) (other : String) :
    (store.replaceActive stream active).active other =
      if other = stream then some active else store.active other := by
  unfold ArchiveStore.active replaceActive
  split
  · next same => rw [same]; exact AList.lookup_insert _
  · next different => exact AList.lookup_insert_ne different

theorem active_deactivateStream (other : String) :
    (store.deactivateStream stream).active other =
      if other = stream then none else store.active other := by
  unfold ArchiveStore.active deactivateStream
  split
  · next same => rw [same]; exact AList.lookup_erase _ _
  · next different => exact AList.lookup_erase_ne different

theorem generation_markDirty (other : String) :
    (store.markDirty path).generation other =
      if other = path then some ((store.generation path).getD 0 + 1)
      else store.generation other := by
  unfold ArchiveStore.generation markDirty
  split
  · next same => rw [same]; exact AList.lookup_insert _
  · next different => exact AList.lookup_insert_ne different

theorem activePaths_clearDirtyPathIfUnchanged (generation : UInt64) :
    (store.clearDirtyPathIfUnchanged path generation).2.activePaths = store.activePaths := by
  unfold clearDirtyPathIfUnchanged
  split <;> rfl

theorem dataDir_clearDirtyPathIfUnchanged (generation : UInt64) :
    (store.clearDirtyPathIfUnchanged path generation).2.dataDir = store.dataDir := by
  unfold clearDirtyPathIfUnchanged
  split <;> rfl

/-- A mark is cleared only when it is the one that was seen. -/
theorem generation_clearDirtyPathIfUnchanged (generation : UInt64) (other : String) :
    (store.clearDirtyPathIfUnchanged path generation).2.generation other =
      if other = path ∧ store.generation path = some generation then none
      else store.generation other := by
  unfold clearDirtyPathIfUnchanged ArchiveStore.generation
  by_cases unchanged : store.dirtyPaths.lookup path = some generation
  · by_cases same : other = path
    · subst same
      simp [unchanged, AList.lookup_erase]
    · simp [unchanged, same, AList.lookup_erase_ne same]
  · simp [unchanged]

@[simp] theorem generation_replaceActive (active : ActiveArchiveFile) :
    (store.replaceActive stream active).generation path =
      (store.markDirty active.path).generation path := rfl

/-- The entries of a snapshot in any order name every dirty path once, with its mark. -/
theorem snapshot_listed {todo : List (String × UInt64)}
    (listed : todo.Perm (store.snapshotDirtyPaths.entries.map fun entry => (entry.1, entry.2))) :
    (todo.map Prod.fst).Nodup ∧ ∀ entry : String × UInt64,
      entry ∈ todo ↔ store.generation entry.1 = some entry.2 := by
  constructor
  · have names := (listed.map Prod.fst).nodup_iff
    rw [List.map_map] at names
    exact names.mpr store.dirtyPaths.nodupKeys
  · intro entry
    rw [listed.mem_iff, List.mem_map]
    constructor
    · rintro ⟨found, inside, rfl⟩
      exact AList.mem_lookup_iff.mpr inside
    · intro marked
      exact ⟨⟨entry.1, entry.2⟩, AList.mem_lookup_iff.mp marked, rfl⟩

/-- Nothing is dirty when no path has a mark. -/
theorem dirtyPaths_eq_empty_iff :
    store.dirtyPaths = ∅ ↔ ∀ path, store.generation path = none := by
  constructor
  · intro empty path
    rw [ArchiveStore.generation, empty, AList.lookup_empty]
  · intro unmarked
    apply AList.ext
    rw [AList.empty_entries, List.eq_nil_iff_forall_not_mem]
    intro entry inside
    have marked := AList.mem_lookup_iff.mpr inside
    rw [← ArchiveStore.generation, unmarked] at marked
    cases marked

theorem mem_activePaths :
    path ∈ store.activePaths ↔ ∃ stream active, store.active stream = some active ∧
      active.path = path := by
  simp only [activePaths, List.mem_map, ArchiveStore.active]
  constructor
  · rintro ⟨⟨stream, active⟩, member, same⟩
    exact ⟨stream, active, AList.mem_lookup_iff.mpr member, same⟩
  · rintro ⟨stream, active, found, same⟩
    exact ⟨⟨stream, active⟩, AList.mem_lookup_iff.mp found, same⟩

theorem mem_activePaths_replaceActive {active : ActiveArchiveFile}
    (member : path ∈ (store.replaceActive stream active).activePaths) :
    path = active.path ∨ path ∈ store.activePaths := by
  obtain ⟨other, found, registered, same⟩ := (mem_activePaths _ _).mp member
  rw [active_replaceActive] at registered
  split at registered
  · cases registered
    exact .inl same.symm
  · exact .inr ((mem_activePaths _ _).mpr ⟨other, found, registered, same⟩)

theorem mem_activePaths_deactivateStream
    (member : path ∈ (store.deactivateStream stream).activePaths) : path ∈ store.activePaths := by
  obtain ⟨other, found, registered, same⟩ := (mem_activePaths _ _).mp member
  rw [active_deactivateStream] at registered
  split at registered
  · cases registered
  · exact (mem_activePaths _ _).mpr ⟨other, found, registered, same⟩

end Laws

end ArchiveStore

end AribcapDb
