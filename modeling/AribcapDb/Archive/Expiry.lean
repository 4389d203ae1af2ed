import AribcapDb.Archive.Components
import AribcapDb.Archive.Garbage
import AribcapDb.Foundation.FileTree

/-! # Removing expired files

`collect_garbage` over the tree below the archive directory, with the calls it makes and what they
may answer. It removes the expired files and the month directories that are empty then, and
`dry_run_garbage_collection` counts the same files (`collection_removes_expired_files`). Names that
are no text are not expired (`unreadable_name_is_kept`). -/

namespace AribcapDb

open FileTree

/-- The bytes of a name. -/
abbrev FileName := List UInt8

/-- The names on the way from the archive directory. -/
abbrev ArchivePath := List FileName

/-- What is below the archive directory. -/
abbrev ArchiveTree := FileTree FileName (List UInt8)

/-- What a collection fails with; an operation has failed on a path. -/
inductive CollectionError where
  | retention (message : String)
  | failedTo (operation : String) (path : ArchivePath) (error : Failure)
  deriving DecidableEq, Repr

inductive ArchiveWalkTarget where
  | files
  | monthDirectories
  deriving DecidableEq, Repr

/-- An item of the stream of paths. -/
abbrev WalkItem := Except CollectionError ArchivePath

/-- `archive_walk_error`. -/
def archiveWalkError (error : Failure) (operation : String) (path : ArchivePath) : WalkItem :=
  .error (.failedTo operation path error)

/-- The loop over the entries of a directory, which ends at the first entry that cannot be read. -/
def walkEntries (path : ArchivePath) (inner : ArchivePath → Kind → List WalkItem) :
    List (Except Failure (DirEntry FileName)) → List WalkItem
  | [] => []
  | .error error :: _ => [archiveWalkError error "enumerate archive directory" path]
  | .ok entry :: more =>
      (match entry.kind with
        | .error error =>
            [archiveWalkError error "read archive entry type for" (path ++ [entry.name])]
        | .ok kind => inner (path ++ [entry.name]) kind) ++
      walkEntries path inner more

/-- A directory that is opened on the way. -/
def walkDirectory (readDir : ReadDir FileName) (inner : ArchivePath → Kind → List WalkItem)
    (path : ArchivePath) : List WalkItem :=
  match readDir path with
  | .error error => [archiveWalkError error "open archive directory" path]
  | .ok entries => walkEntries path inner entries

/-- The loop over a month directory. -/
def walkFile (path : ArchivePath) (kind : Kind) : List WalkItem :=
  if kind = .file then [.ok path] else []

/-- The loop over a stream directory. -/
def walkMonth (readDir : ReadDir FileName) (target : ArchiveWalkTarget) (path : ArchivePath)
    (kind : Kind) : List WalkItem :=
  if kind ≠ .directory then []
  else
    match target with
    | .monthDirectories => [.ok path]
    | .files => walkDirectory readDir walkFile path

/-- The loop over the archive directory. -/
def walkStream (readDir : ReadDir FileName) (target : ArchiveWalkTarget) (path : ArchivePath)
    (kind : Kind) : List WalkItem :=
  if kind ≠ .directory then [] else walkDirectory readDir (walkMonth readDir target) path

/-- `walk_archive_paths`, with the answers of its calls. -/
def walkArchivePaths (readDir : ReadDir FileName) (target : ArchiveWalkTarget) : List WalkItem :=
  match readDir [] with
  | .error .notFound => []
  | .error error => [archiveWalkError error "open archive directory" []]
  | .ok streams => walkEntries [] (walkStream readDir target) streams

/-- `OsStr::to_str`. -/
def toStr (name : FileName) : Option String := String.fromUTF8? ⟨name.toArray⟩

/-- `is_expired`, by the names of the path. -/
def isExpiredPath (chrono : Chrono) (path : ArchivePath) (cutoff : Instant) : Bool :=
  match path.getLast?.bind toStr with
  | none => false
  | some filename =>
      match parseRecordingStartedAt chrono filename with
      | none => false
      | some recordingStartedAt =>
          match chrono.parseStartedAt recordingStartedAt with
          | none => false
          | some startedAt => (fromLocalDatetime chrono startedAt).any fun time => time < cutoff

/-- The loop of `visit_expired_files`. -/
def visitExpired (chrono : Chrono) (cutoff : Instant) (activePaths : List ArchivePath)
    (onExpired : ArchiveTree → ArchivePath → Except CollectionError Unit × ArchiveTree) :
    List WalkItem → ℕ → ArchiveTree → Except CollectionError ℕ × ArchiveTree
  | [], eligible, tree => (.ok eligible, tree)
  | .error error :: _, _, tree => (.error error, tree)
  | .ok path :: paths, eligible, tree =>
      if !isExpiredPath chrono path cutoff then
        visitExpired chrono cutoff activePaths onExpired paths eligible tree
      else if path ∈ activePaths then
        visitExpired chrono cutoff activePaths onExpired paths eligible tree
      else
        match onExpired tree path with
        | (.error error, tree) => (.error error, tree)
        | (.ok (), tree) =>
            visitExpired chrono cutoff activePaths onExpired paths (eligible + 1) tree

/-- `visit_expired_files`. The walk is over the given tree: what is removed meanwhile has been
listed before. -/
def visitExpiredFiles (chrono : Chrono) (readDir : ReadDir FileName) (cutoff : Instant)
    (activePaths : List ArchivePath)
    (onExpired : ArchiveTree → ArchivePath → Except CollectionError Unit × ArchiveTree)
    (tree : ArchiveTree) : Except CollectionError ℕ × ArchiveTree :=
  visitExpired chrono cutoff activePaths onExpired (walkArchivePaths readDir .files) 0 tree

/-- The loop of `remove_empty_month_directories`. -/
def removeEmptyMonths (dates : DateParser) (removeDirFailure : ArchivePath → Option String) :
    List WalkItem → ArchiveTree → Except CollectionError Unit × ArchiveTree
  | [], tree => (.ok (), tree)
  | .error error :: _, tree => (.error error, tree)
  | .ok path :: paths, tree =>
      match path.getLast? with
      | none => removeEmptyMonths dates removeDirFailure paths tree
      | some month =>
          if !isMonthComponent dates (fromUtf8Lossy month) then
            removeEmptyMonths dates removeDirFailure paths tree
          else
            match removeDir (removeDirFailure path) tree path with
            | (.ok (), tree) => removeEmptyMonths dates removeDirFailure paths tree
            | (.error .notFound, tree) => removeEmptyMonths dates removeDirFailure paths tree
            | (.error .directoryNotEmpty, tree) =>
                removeEmptyMonths dates removeDirFailure paths tree
            | (.error error, tree) => (.error (.failedTo "remove" path error), tree)

/-- The calls of one collection: what its walks are answered, and which removals fail. -/
structure CollectionCalls where
  files : ArchiveTree → ReadDir FileName
  months : ArchiveTree → ReadDir FileName
  removeFileFailure : ArchivePath → Option String
  removeDirFailure : ArchivePath → Option String
  lists_files : ∀ tree : ArchiveTree, tree.Lists (files tree)
  lists_months : ∀ tree : ArchiveTree, tree.Lists (months tree)

structure GarbageCollectionDryRun where
  eligibleFiles : ℕ
  cutoff : Instant
  deriving DecidableEq

/-- `dry_run_garbage_collection`. -/
def dryRunGarbageCollection (chrono : Chrono) (calls : CollectionCalls) (now : Instant)
    (retention : ℕ) (activePaths : List ArchivePath) (tree : ArchiveTree) :
    Except CollectionError GarbageCollectionDryRun × ArchiveTree :=
  match retentionCutoff chrono now retention with
  | .error message => (.error (.retention message), tree)
  | .ok cutoff =>
      let (visited, tree) := visitExpiredFiles chrono (calls.files tree) cutoff activePaths
        (fun tree _ => (.ok (), tree)) tree
      (visited.map fun eligibleFiles => { eligibleFiles, cutoff }, tree)

/-- What `collect_garbage` does with an expired file. -/
def removeExpired (calls : CollectionCalls) (tree : ArchiveTree) (path : ArchivePath) :
    Except CollectionError Unit × ArchiveTree :=
  let (removed, tree) := removeFile (calls.removeFileFailure path) tree path
  (removed.mapError (CollectionError.failedTo "remove" path), tree)

/-- `collect_garbage`. -/
def collectGarbage (chrono : Chrono) (dates : DateParser) (calls : CollectionCalls) (now : Instant)
    (retention : ℕ) (activePaths : List ArchivePath) (tree : ArchiveTree) :
    Except CollectionError ℕ × ArchiveTree :=
  match retentionCutoff chrono now retention with
  | .error message => (.error (.retention message), tree)
  | .ok cutoff =>
      match visitExpiredFiles chrono (calls.files tree) cutoff activePaths (removeExpired calls)
        tree with
      | (.error error, tree) => (.error error, tree)
      | (.ok filesRemoved, tree) =>
          let (removed, tree) := removeEmptyMonths dates calls.removeDirFailure
            (walkArchivePaths (calls.months tree) .monthDirectories) tree
          (removed.map fun _ => filesRemoved, tree)

/-! ### What the walks find -/

/-- The paths of a stream. -/
def walked (items : List WalkItem) : List ArchivePath := items.filterMap Except.toOption

theorem mem_walked {items : List WalkItem} {path : ArchivePath} :
    path ∈ walked items ↔ .ok path ∈ items := by
  simp only [walked, List.mem_filterMap]
  constructor
  · rintro ⟨item, member, found⟩
    cases item with
    | error _ => cases found
    | ok other =>
        obtain rfl := Option.some.inj found
        exact member
  · exact fun member => ⟨.ok path, member, rfl⟩

/-- The stream gives what is wanted below a path, each once, and all of it unless there is an
error. -/
structure Walks (tree : ArchiveTree) (wanted : ArchivePath → Prop) (path : ArchivePath)
    (items : List WalkItem) : Prop where
  sound : ∀ other ∈ walked items, path <+: other ∧ other ∈ tree.paths ∧ wanted other
  complete : (∀ item ∈ items, item.isOk = true) →
    ∀ other ∈ tree.paths, path <+: other → wanted other → other ∈ walked items
  nodup : (walked items).Nodup

section Walk

variable {tree : ArchiveTree} {wanted : ArchivePath → Prop} {path : ArchivePath}
  {inner : ArchivePath → Kind → List WalkItem} {entries : List (Except Failure (DirEntry FileName))}

theorem mem_walkEntries {other : ArchivePath}
    (member : other ∈ walked (walkEntries path inner entries)) :
    ∃ entry kind, .ok entry ∈ entries ∧ entry.kind = .ok kind ∧
      other ∈ walked (inner (path ++ [entry.name]) kind) := by
  induction entries with
  | nil => cases member
  | cons item more ih =>
      cases item with
      | error error => cases member
      | ok entry =>
          rw [walkEntries, walked, List.filterMap_append, List.mem_append] at member
          rcases member with here | later
          · cases known : entry.kind with
            | error error =>
                rw [known] at here
                cases here
            | ok kind =>
                rw [known] at here
                exact ⟨entry, kind, List.mem_cons_self, known, here⟩
          · obtain ⟨found, kind, present, known, member⟩ := ih later
            exact ⟨found, kind, List.mem_cons_of_mem _ present, known, member⟩

/-- A loop without an error has read all entries and walked all of them. -/
theorem walkEntries_complete
    (ok : ∀ item ∈ walkEntries path inner entries, item.isOk = true) :
    (∀ item ∈ entries, item.isOk = true) ∧ ∀ entry, .ok entry ∈ entries →
      ∃ kind, entry.kind = .ok kind ∧
        ∀ item ∈ inner (path ++ [entry.name]) kind, item ∈ walkEntries path inner entries := by
  induction entries with
  | nil => simp
  | cons item more ih =>
      cases item with
      | error error => cases ok _ List.mem_cons_self
      | ok entry =>
          rw [walkEntries] at ok ⊢
          obtain ⟨rest, walks⟩ := ih fun item member => ok item (List.mem_append_right _ member)
          refine ⟨?_, ?_⟩
          · intro item member
            rcases List.mem_cons.mp member with rfl | later
            · rfl
            · exact rest item later
          · intro found member
            rcases List.mem_cons.mp member with same | later
            · obtain rfl := Except.ok.inj same
              cases known : found.kind with
              | error error =>
                  rw [known] at ok
                  cases ok _ (List.mem_append_left _ List.mem_cons_self)
              | ok kind => exact ⟨kind, rfl, fun item inside => List.mem_append_left _ inside⟩
            · obtain ⟨kind, known, inside⟩ := walks found later
              exact ⟨kind, known, fun item member => List.mem_append_right _ (inside item member)⟩

theorem nodup_walkEntries (names : (entryNames entries).Nodup)
    (walks : ∀ entry kind, .ok entry ∈ entries → entry.kind = .ok kind →
      Walks tree wanted (path ++ [entry.name]) (inner (path ++ [entry.name]) kind)) :
    (walked (walkEntries path inner entries)).Nodup := by
  induction entries with
  | nil => exact List.nodup_nil
  | cons item more ih =>
      cases item with
      | error error => exact List.nodup_nil
      | ok entry =>
          have distinct : entry.name ∉ entryNames more ∧ (entryNames more).Nodup :=
            List.nodup_cons.mp names
          have later := ih distinct.2 fun found kind member =>
            walks found kind (List.mem_cons_of_mem _ member)
          rw [walkEntries, walked, List.filterMap_append]
          cases known : entry.kind with
          | error error => exact later
          | ok kind =>
              have here := walks entry kind List.mem_cons_self known
              apply List.Nodup.append here.nodup later
              intro other first second
              obtain ⟨found, foundKind, present, foundKnown, inside⟩ := mem_walkEntries second
              have below := (here.sound other first).1
              have also := ((walks found foundKind (List.mem_cons_of_mem _ present)
                foundKnown).sound other inside).1
              have same : path ++ [entry.name] = path ++ [found.name] :=
                List.IsPrefix.eq_of_length (List.prefix_of_prefix_length_le below also (by simp))
                  (by simp)
              have named : entry.name = found.name := by simpa using same
              apply distinct.1
              rw [named]
              exact List.mem_filterMap.mpr ⟨_, present, rfl⟩

/-- A loop over the entries of a directory. -/
theorem Walks.of_entries (listed : tree.Entries path entries)
    (below : ∀ other ∈ tree.paths, path <+: other → wanted other → other ≠ path)
    (walks : ∀ name kind, path ++ [name] ∈ tree.paths →
      (tree.node (path ++ [name])).kind = kind →
        Walks tree wanted (path ++ [name]) (inner (path ++ [name]) kind)) :
    Walks tree wanted path (walkEntries path inner entries) := by
  have each : ∀ entry kind, .ok entry ∈ entries → entry.kind = .ok kind →
      Walks tree wanted (path ++ [entry.name]) (inner (path ++ [entry.name]) kind) :=
    fun entry kind member known => walks entry.name kind (listed.present entry member)
      (listed.kind entry kind member known)
  refine ⟨?_, ?_, nodup_walkEntries listed.nodup each⟩
  · intro other member
    obtain ⟨entry, kind, present, known, inside⟩ := mem_walkEntries member
    obtain ⟨under, found⟩ := (each entry kind present known).sound other inside
    exact ⟨(List.prefix_append _ _).trans under, found⟩
  · intro ok other member under want
    obtain ⟨all, walked⟩ := walkEntries_complete ok
    obtain ⟨rest, rfl⟩ := under
    cases rest with
    | nil => exact absurd (List.append_nil path) (below _ member (List.prefix_append _ _) want)
    | cons name rest =>
        have present : path ++ [name] ∈ tree.paths := by
          rw [List.append_cons] at member
          exact mem_of_append member
        obtain ⟨item, itemMember, named⟩ :=
          List.mem_filterMap.mp (listed.complete all name present)
        cases item with
        | error error => cases named
        | ok entry =>
            obtain rfl := Option.some.inj named
            obtain ⟨kind, known, inside⟩ := walked entry itemMember
            have found := (each entry kind itemMember known).complete
              (fun item member => ok item (inside item member)) _ member
              ⟨rest, by simp⟩ want
            rw [mem_walked] at found ⊢
            exact inside _ found

theorem Walks.failed (error : CollectionError) : Walks tree wanted path [.error error] where
  sound _ member := by cases member
  complete ok := by cases ok _ List.mem_cons_self
  nodup := List.nodup_nil

/-- Nothing is wanted below the path. -/
theorem Walks.nothing (none : ∀ other ∈ tree.paths, path <+: other → ¬ wanted other) :
    Walks tree wanted path [] where
  sound _ member := by cases member
  complete _ other member under want := absurd want (none other member under)
  nodup := List.nodup_nil

/-- The path itself is all that is wanted below it. -/
theorem Walks.single (member : path ∈ tree.paths) (want : wanted path)
    (only : ∀ other ∈ tree.paths, path <+: other → wanted other → other = path) :
    Walks tree wanted path [.ok path] where
  sound other found := by
    obtain rfl := List.mem_singleton.mp found
    exact ⟨List.prefix_rfl, member, want⟩
  complete _ other member under want := by
    rw [only other member under want]
    exact List.mem_singleton_self _
  nodup := List.nodup_singleton _

theorem Walks.directory {readDir : ReadDir FileName} (lists : tree.Lists readDir)
    (below : ∀ other ∈ tree.paths, path <+: other → wanted other → other ≠ path)
    (walks : ∀ name kind, path ++ [name] ∈ tree.paths →
      (tree.node (path ++ [name])).kind = kind →
        Walks tree wanted (path ++ [name]) (inner (path ++ [name]) kind)) :
    Walks tree wanted path (walkDirectory readDir inner path) := by
  unfold walkDirectory
  cases read : readDir path with
  | error error => exact .failed _
  | ok entries => exact .of_entries (lists.entries path entries read) below walks

/-- A file has nothing below it. -/
theorem eq_of_prefix {other : ArchivePath} (leaf : tree.node path ≠ .directory)
    (member : other ∈ tree.paths) (under : path <+: other) : other = path := by
  obtain ⟨rest, rfl⟩ := under
  cases rest with
  | nil => exact List.append_nil path
  | cons name rest => exact absurd (node_of_append member) leaf

end Walk

/-- A regular file in a month directory. -/
def IsArchiveFile (tree : ArchiveTree) (path : ArchivePath) : Prop :=
  path.length = 3 ∧ (tree.node path).kind = .file

/-- A directory in a stream directory. -/
def IsMonthDirectory (tree : ArchiveTree) (path : ArchivePath) : Prop :=
  path.length = 2 ∧ tree.node path = .directory

/-- What a walk is for. -/
def ArchiveWalkTarget.Wanted (tree : ArchiveTree) : ArchiveWalkTarget → ArchivePath → Prop
  | .files => IsArchiveFile tree
  | .monthDirectories => IsMonthDirectory tree

section Target

variable {tree : ArchiveTree} {readDir : ReadDir FileName} {target : ArchiveWalkTarget}
  {path other : ArchivePath}

theorem ArchiveWalkTarget.Wanted.length (want : target.Wanted tree other) :
    other.length = 2 ∨ other.length = 3 := by
  cases target with
  | files => exact .inr want.1
  | monthDirectories => exact .inl want.1

theorem walks_walkFile (depth : path.length = 3) (member : path ∈ tree.paths) {kind : Kind}
    (known : (tree.node path).kind = kind) :
    Walks tree (IsArchiveFile tree) path (walkFile path kind) := by
  have only : ∀ other ∈ tree.paths, path <+: other → IsArchiveFile tree other → other = path :=
    fun other _ under want => (under.eq_of_length (by rw [depth, want.1])).symm
  unfold walkFile
  split
  · next file => exact .single member ⟨depth, known.trans file⟩ only
  · next other =>
      refine .nothing fun found present under want => other ?_
      rw [← known, ← only found present under want]
      exact want.2

theorem walks_walkMonth (lists : tree.Lists readDir) (depth : path.length = 2)
    (member : path ∈ tree.paths) {kind : Kind} (known : (tree.node path).kind = kind) :
    Walks tree (target.Wanted tree) path (walkMonth readDir target path kind) := by
  unfold walkMonth
  split
  · next noDirectory =>
      have leaf : tree.node path ≠ .directory := fun directory =>
        noDirectory (known.symm.trans (Node.kind_eq_directory.mpr directory))
      refine .nothing fun other present under want => ?_
      obtain rfl := eq_of_prefix leaf present under
      cases target with
      | files => exact absurd want.1 (by omega)
      | monthDirectories => exact leaf want.2
  · next directory =>
      have isDirectory : tree.node path = .directory := by
        rw [← Node.kind_eq_directory, known]
        simpa using directory
      cases target with
      | monthDirectories =>
          exact .single member ⟨depth, isDirectory⟩ fun other _ under want =>
            (under.eq_of_length (by rw [depth, want.1])).symm
      | files =>
          refine .directory lists ?_ ?_
          · rintro other _ _ want rfl
            exact absurd want.1 (by omega)
          · intro name kind present known
            exact walks_walkFile (by simp [depth]) present known

theorem walks_walkStream (lists : tree.Lists readDir) (depth : path.length = 1) {kind : Kind}
    (known : (tree.node path).kind = kind) :
    Walks tree (target.Wanted tree) path (walkStream readDir target path kind) := by
  unfold walkStream
  split
  · next noDirectory =>
      have leaf : tree.node path ≠ .directory := fun directory =>
        noDirectory (known.symm.trans (Node.kind_eq_directory.mpr directory))
      refine .nothing fun other present under want => ?_
      obtain rfl := eq_of_prefix leaf present under
      have length := want.length
      omega
  · refine .directory lists ?_ ?_
    · rintro other _ _ want rfl
      have length := want.length
      omega
    · intro name kind present known
      exact walks_walkMonth lists (by simp [depth]) present known

/-- A walk gives its targets, each once, and all of them unless there is an error. -/
theorem walks_walkArchivePaths (lists : tree.Lists readDir) (target : ArchiveWalkTarget) :
    Walks tree (target.Wanted tree) [] (walkArchivePaths readDir target) := by
  unfold walkArchivePaths
  split
  · next read =>
      have empty := lists.notFound [] read
      refine .nothing fun other present _ _ => ?_
      have below : [] ++ other ∈ tree.paths := present
      exact empty (mem_of_append below)
  · exact .failed _
  · next streams read =>
      refine .of_entries (lists.entries [] streams read) ?_ ?_
      · rintro other _ _ want rfl
        have length := want.length
        simp at length
      · intro name kind present known
        exact walks_walkStream lists rfl known

end Target

/-! ### What the loops remove -/

/-- The first tree without some paths. -/
structure Removes (before after : ArchiveTree) (removed : List ArchivePath) : Prop where
  node : after.node = before.node
  paths : ∀ path, path ∈ after.paths ↔ path ∈ before.paths ∧ path ∉ removed

namespace Removes

variable {before middle after : ArchiveTree} {removed more : List ArchivePath}

theorem nothing (tree : ArchiveTree) : Removes tree tree [] := ⟨rfl, fun path => by simp⟩

theorem cons {path : ArchivePath} {leaf : before.children path = []}
    (rest : Removes (before.erase path leaf) after removed) :
    Removes before after (path :: removed) where
  node := rest.node
  paths other := by
    rw [rest.paths, mem_erase, List.mem_cons, not_or, and_assoc]

theorem trans (first : Removes before middle removed) (second : Removes middle after more) :
    Removes before after (removed ++ more) where
  node := second.node.trans first.node
  paths path := by
    rw [second.paths, first.paths, List.mem_append, not_or, and_assoc]

end Removes

/-- The file is one to remove. -/
def isCollected (chrono : Chrono) (cutoff : Instant) (activePaths : List ArchivePath)
    (path : ArchivePath) : Bool :=
  isExpiredPath chrono path cutoff && decide (path ∉ activePaths)

section Visit

variable {chrono : Chrono} {cutoff : Instant} {activePaths : List ArchivePath}
  {onExpired : ArchiveTree → ArchivePath → Except CollectionError Unit × ArchiveTree}
  {items : List WalkItem} {eligible : ℕ} {tree : ArchiveTree}

/-- One turn of the loop. -/
theorem visitExpired_ok (path : ArchivePath) :
    visitExpired chrono cutoff activePaths onExpired (.ok path :: items) eligible tree =
      if isCollected chrono cutoff activePaths path then
        match onExpired tree path with
        | (.error error, tree) => (.error error, tree)
        | (.ok (), tree) =>
            visitExpired chrono cutoff activePaths onExpired items (eligible + 1) tree
      else visitExpired chrono cutoff activePaths onExpired items eligible tree := by
  rw [visitExpired]
  cases expired : isExpiredPath chrono path cutoff with
  | false => simp [isCollected, expired]
  | true => by_cases active : path ∈ activePaths <;> simp [isCollected, expired, active]

/-- A loop to the end has seen the whole stream and counted what is to be removed. -/
theorem visitExpired_count {count : ℕ}
    (ok : (visitExpired chrono cutoff activePaths onExpired items eligible tree).1 = .ok count) :
    (∀ item ∈ items, item.isOk = true) ∧
      count = eligible +
        ((walked items).filter (isCollected chrono cutoff activePaths)).length := by
  induction items generalizing eligible tree with
  | nil =>
      obtain rfl := Except.ok.inj ok
      simp [walked]
  | cons item items ih =>
      cases item with
      | error error => cases ok
      | ok path =>
          rw [visitExpired_ok] at ok
          have seen (rest : ∀ item ∈ items, item.isOk = true) :
              ∀ item ∈ (.ok path :: items : List WalkItem), item.isOk = true :=
            List.forall_mem_cons.mpr ⟨rfl, rest⟩
          have front : walked (.ok path :: items) = path :: walked items := rfl
          rw [front]
          split at ok
          · next collected =>
              split at ok
              · cases ok
              · obtain ⟨rest, counted⟩ := ih ok
                rw [List.filter_cons_of_pos collected, List.length_cons]
                exact ⟨seen rest, by omega⟩
          · next kept =>
              obtain ⟨rest, counted⟩ := ih ok
              rw [List.filter_cons_of_neg kept]
              exact ⟨seen rest, counted⟩

/-- Without an action the tree stays. -/
theorem visitExpired_unchanged :
    (visitExpired chrono cutoff activePaths (fun tree _ => (.ok (), tree)) items eligible
      tree).2 = tree := by
  induction items generalizing eligible with
  | nil => rfl
  | cons item items ih =>
      cases item with
      | error error => rfl
      | ok path =>
          rw [visitExpired_ok]
          split <;> exact ih

/-- Removing a regular file succeeds, or nothing is removed. -/
theorem removeExpired_cases (calls : CollectionCalls) {path : ArchivePath}
    (member : path ∈ tree.paths) (file : (tree.node path).kind = .file) :
    (∃ leaf, removeExpired calls tree path = (.ok (), tree.erase path leaf)) ∨
      ∃ error, removeExpired calls tree path = (.error error, tree) := by
  have noDirectory : (tree.node path).kind ≠ .directory := by
    rw [file]
    decide
  unfold removeExpired removeFile
  cases calls.removeFileFailure path with
  | some message => exact .inr ⟨_, rfl⟩
  | none =>
      simp only [member, not_true_eq_false, ↓reduceIte, noDirectory, ↓reduceDIte]
      exact .inl ⟨children_of_node (mt Node.kind_eq_directory.mpr noDirectory), rfl⟩

/-- The loop removes files that are to be removed, and all of them when it comes to its end. -/
theorem visitExpired_removes (chrono : Chrono) (cutoff : Instant)
    (activePaths : List ArchivePath) (calls : CollectionCalls) (eligible : ℕ)
    (distinct : (walked items).Nodup)
    (files : ∀ path ∈ walked items, path ∈ tree.paths ∧ (tree.node path).kind = .file) :
    ∃ removed, removed ⊆ (walked items).filter (isCollected chrono cutoff activePaths) ∧
      Removes tree (visitExpired chrono cutoff activePaths (removeExpired calls) items eligible
        tree).2 removed ∧
      ∀ count, (visitExpired chrono cutoff activePaths (removeExpired calls) items eligible
        tree).1 = .ok count →
          (walked items).filter (isCollected chrono cutoff activePaths) ⊆ removed := by
  induction items generalizing eligible tree with
  | nil => exact ⟨[], by simp, .nothing tree, by simp [walked]⟩
  | cons item items ih =>
      cases item with
      | error error => exact ⟨[], by simp, .nothing tree, by rintro count ⟨⟩⟩
      | ok path =>
          have front : walked (.ok path :: items) = path :: walked items := rfl
          rw [front] at distinct files ⊢
          obtain ⟨first, distinct⟩ := List.nodup_cons.mp distinct
          have here := files path List.mem_cons_self
          have later := fun path member => files path (List.mem_cons_of_mem _ member)
          rw [visitExpired_ok]
          by_cases collected : isCollected chrono cutoff activePaths path = true
          · rw [if_pos collected, List.filter_cons_of_pos collected]
            rcases removeExpired_cases calls here.1 here.2 with ⟨leaf, done⟩ | ⟨error, failed⟩
            · rw [done]
              have still : ∀ other ∈ walked items,
                  other ∈ (tree.erase path leaf).paths ∧ (tree.node other).kind = .file :=
                fun other member => ⟨mem_erase.mpr ⟨(later other member).1,
                  fun same => first (same ▸ member)⟩, (later other member).2⟩
              obtain ⟨removed, only, removes, all⟩ := ih (eligible + 1) distinct still
              exact ⟨path :: removed, List.cons_subset_cons _ only, removes.cons,
                fun count ok => List.cons_subset_cons _ (all count ok)⟩
            · rw [failed]
              exact ⟨[], by simp, .nothing tree, by rintro count ⟨⟩⟩
          · rw [if_neg collected, List.filter_cons_of_neg collected]
            exact ih eligible distinct later

end Visit

/-- The directory is named like a month. -/
def isMonthNamed (dates : DateParser) (path : ArchivePath) : Bool :=
  path.getLast?.any fun month => isMonthComponent dates (fromUtf8Lossy month)

section Months

variable {dates : DateParser} {removeDirFailure : ArchivePath → Option String}
  {items : List WalkItem} {tree : ArchiveTree}

/-- One turn of the loop over month directories. -/
theorem removeEmptyMonths_ok (dates : DateParser)
    (removeDirFailure : ArchivePath → Option String) (items : List WalkItem) {path : ArchivePath}
    (member : path ∈ tree.paths)
    (directory : tree.node path = .directory) :
    (∃ leaf, isMonthNamed dates path = true ∧
      removeEmptyMonths dates removeDirFailure (.ok path :: items) tree =
        removeEmptyMonths dates removeDirFailure items (tree.erase path leaf)) ∨
    ((isMonthNamed dates path = true → tree.children path ≠ []) ∧
      removeEmptyMonths dates removeDirFailure (.ok path :: items) tree =
        removeEmptyMonths dates removeDirFailure items tree) ∨
    ∃ error, removeEmptyMonths dates removeDirFailure (.ok path :: items) tree =
      (.error error, tree) := by
  rw [removeEmptyMonths]
  cases last : path.getLast? with
  | none => exact .inr (.inl ⟨by simp [isMonthNamed, last], rfl⟩)
  | some month =>
      have named : isMonthNamed dates path = isMonthComponent dates (fromUtf8Lossy month) := by
        simp [isMonthNamed, last]
      rw [named]
      dsimp only
      cases isMonthComponent dates (fromUtf8Lossy month) with
      | false => exact .inr (.inl ⟨nofun, rfl⟩)
      | true =>
          unfold removeDir
          cases removeDirFailure path with
          | some message => exact .inr (.inr ⟨_, rfl⟩)
          | none =>
              have present : ¬ path ∉ tree.paths := not_not.mpr member
              have isDirectory : ¬ (tree.node path).kind ≠ .directory :=
                not_not.mpr (Node.kind_eq_directory.mpr directory)
              simp only [present, isDirectory, ↓reduceIte]
              by_cases leaf : tree.children path = []
              · exact .inl ⟨leaf, trivial, by simp [leaf]⟩
              · exact .inr (.inl ⟨fun _ => leaf, by simp [leaf]⟩)

/-- Removing a month directory leaves the others as they are. -/
theorem children_erase {path other : ArchivePath} {leaf : tree.children path = []}
    (depth : other.length = path.length) :
    (tree.erase path leaf).children other = [] ↔ tree.children other = [] := by
  rw [List.eq_nil_iff_forall_not_mem, List.eq_nil_iff_forall_not_mem]
  refine forall_congr' fun name => not_congr ?_
  rw [mem_children, mem_children, mem_erase, and_iff_left_iff_imp]
  rintro _ rfl
  simp at depth

/-- The loop removes empty month directories, and all of them when it comes to its end. -/
theorem removeEmptyMonths_removes (dates : DateParser)
    (removeDirFailure : ArchivePath → Option String) (distinct : (walked items).Nodup)
    (months : ∀ path ∈ walked items, path ∈ tree.paths ∧ IsMonthDirectory tree path) :
    ∃ removed, (∀ path ∈ removed, path ∈ walked items ∧ isMonthNamed dates path = true ∧
        tree.children path = []) ∧
      Removes tree (removeEmptyMonths dates removeDirFailure items tree).2 removed ∧
      ((removeEmptyMonths dates removeDirFailure items tree).1 = .ok () →
        (∀ item ∈ items, item.isOk = true) ∧
          ∀ path ∈ walked items, isMonthNamed dates path = true → tree.children path = [] →
            path ∈ removed) := by
  induction items generalizing tree with
  | nil => exact ⟨[], by simp, .nothing tree, by simp [walked]⟩
  | cons item items ih =>
      cases item with
      | error error => exact ⟨[], by simp, .nothing tree, by rintro ⟨⟩⟩
      | ok path =>
          have front : walked (.ok path :: items) = path :: walked items := rfl
          rw [front] at distinct months ⊢
          obtain ⟨first, distinct⟩ := List.nodup_cons.mp distinct
          have here := months path List.mem_cons_self
          have later := fun path member => months path (List.mem_cons_of_mem _ member)
          have seen (rest : ∀ item ∈ items, item.isOk = true) :
              ∀ item ∈ (.ok path :: items : List WalkItem), item.isOk = true :=
            List.forall_mem_cons.mpr ⟨rfl, rest⟩
          rcases removeEmptyMonths_ok dates removeDirFailure items here.1 here.2.2 with
            ⟨leaf, named, done⟩ | ⟨kept, done⟩ | ⟨error, failed⟩
          · rw [done]
            have same (other : ArchivePath) (member : other ∈ walked items) :
                (tree.erase path leaf).children other = [] ↔ tree.children other = [] :=
              children_erase (((later other member).2.1).trans here.2.1.symm)
            have still : ∀ other ∈ walked items, other ∈ (tree.erase path leaf).paths ∧
                IsMonthDirectory (tree.erase path leaf) other :=
              fun other member => ⟨mem_erase.mpr ⟨(later other member).1,
                fun same => first (same ▸ member)⟩, (later other member).2⟩
            obtain ⟨removed, only, removes, all⟩ := ih distinct still
            refine ⟨path :: removed, ?_, removes.cons, ?_⟩
            · intro other member
              rcases List.mem_cons.mp member with rfl | member
              · exact ⟨List.mem_cons_self, named, leaf⟩
              · obtain ⟨present, month, empty⟩ := only other member
                exact ⟨List.mem_cons_of_mem _ present, month, (same other present).mp empty⟩
            · intro ok
              obtain ⟨rest, complete⟩ := all ok
              refine ⟨seen rest, ?_⟩
              intro other member month empty
              rcases List.mem_cons.mp member with rfl | member
              · exact List.mem_cons_self
              · exact List.mem_cons_of_mem _
                  (complete other member month ((same other member).mpr empty))
          · rw [done]
            obtain ⟨removed, only, removes, all⟩ := ih distinct later
            refine ⟨removed, ?_, removes, ?_⟩
            · intro other member
              obtain ⟨present, rest⟩ := only other member
              exact ⟨List.mem_cons_of_mem _ present, rest⟩
            · intro ok
              obtain ⟨rest, complete⟩ := all ok
              refine ⟨seen rest, ?_⟩
              intro other member month empty
              rcases List.mem_cons.mp member with rfl | member
              · exact absurd empty (kept month)
              · exact complete other member month empty
          · rw [failed]
            exact ⟨[], by simp, .nothing tree, by rintro ⟨⟩⟩

end Months

/-! ### The collection -/

/-- The name begins with the timestamp of a time, and a dot follows. -/
def StartsWithTime (chrono : Chrono) (name : FileName) (time : NaiveDateTime) : Prop :=
  ∃ text, utf8Bytes text = name.take startedAtLen ∧ name[startedAtLen]? = some 46 ∧
    chrono.parseStartedAt text = some time

/-- The name is a text that begins with the timestamp of a time before the cutoff. -/
def IsExpiredName (chrono : Chrono) (cutoff : Instant) (name : FileName) : Prop :=
  (∃ filename, utf8Bytes filename = name) ∧
    ∃ time, StartsWithTime chrono name time ∧ chrono.minUtc ≤ time.instant ∧ time.instant < cutoff

section Collection

variable (expired : FileName → Prop) (dates : DateParser) (activePaths : List ArchivePath)
  (tree : ArchiveTree)

/-- A regular file of a month directory with an expired name, which is not active. -/
structure ExpiredFile (path : ArchivePath) : Prop where
  present : path ∈ tree.paths
  file : IsArchiveFile tree path
  expired : ∀ name ∈ path.getLast?, expired name
  inactive : path ∉ activePaths

/-- A month directory in which only expired files are. -/
structure EmptiedMonth (path : ArchivePath) : Prop where
  present : path ∈ tree.paths
  directory : IsMonthDirectory tree path
  named : isMonthNamed dates path = true
  emptied : ∀ name, path ++ [name] ∈ tree.paths →
    ExpiredFile expired activePaths tree (path ++ [name])

/-- A collection and a dry run on the same tree. -/
structure CollectsExpired (collection : Except CollectionError ℕ × ArchiveTree)
    (dryRun : Except CollectionError GarbageCollectionDryRun × ArchiveTree) : Prop where
  /-- What stands in the tree afterwards is what stood there. -/
  node : collection.2.node = tree.node
  /-- A collection that succeeds removes the expired files and the months they leave empty. -/
  removed : ∀ count, collection.1 = .ok count →
    ∀ path, path ∈ collection.2.paths ↔ path ∈ tree.paths ∧
      ¬ ExpiredFile expired activePaths tree path ∧
        ¬ EmptiedMonth expired dates activePaths tree path
  /-- It counts the files. -/
  counted : ∀ count, collection.1 = .ok count →
    {path | ExpiredFile expired activePaths tree path}.ncard = count
  /-- The dry run counts the same. -/
  predicted : ∀ count report, collection.1 = .ok count → dryRun.1 = .ok report →
    report.eligibleFiles = count
  unchanged : dryRun.2 = tree
  /-- In any case nothing else is removed, and nothing is added. -/
  kept : ∀ path ∈ tree.paths, ¬ ExpiredFile expired activePaths tree path →
    ¬ EmptiedMonth expired dates activePaths tree path → path ∈ collection.2.paths
  added : ∀ path ∈ collection.2.paths, path ∈ tree.paths

end Collection

/-- Reading a name gives the text with its bytes. -/
theorem toStr_eq_some {name : FileName} {filename : String} :
    toStr name = some filename ↔ utf8Bytes filename = name := by
  constructor
  · intro read
    rw [toStr, String.fromUTF8?] at read
    split at read
    · obtain rfl := Option.some.inj read
      simp [utf8Bytes, String.fromUTF8]
    · cases read
  · rintro rfl
    simp [toStr, utf8Bytes, String.fromUTF8?, filename.isValidUTF8, String.fromUTF8]

/-- A file expires by the timestamp at the front of its name. -/
theorem isExpiredPath_iff {chrono : Chrono} {cutoff : Instant} {path : ArchivePath} :
    isExpiredPath chrono path cutoff = true ↔
      ∃ name, path.getLast? = some name ∧ IsExpiredName chrono cutoff name := by
  constructor
  · intro expired
    unfold isExpiredPath at expired
    split at expired
    · cases expired
    · next filename read =>
        obtain ⟨name, last, text⟩ := Option.bind_eq_some_iff.mp read
        split at expired
        · cases expired
        · next recordingStartedAt parsed =>
            obtain ⟨bytes, mark, _⟩ := parseRecordingStartedAt_eq_some.mp parsed
            split at expired
            · cases expired
            · next startedAt started =>
                rw [toStr_eq_some.mp text] at bytes mark
                unfold fromLocalDatetime at expired
                split at expired
                · cases expired
                · next representable =>
                    exact ⟨name, last, ⟨filename, toStr_eq_some.mp text⟩, startedAt,
                      ⟨recordingStartedAt, bytes, mark, started⟩, not_lt.mp representable,
                      by simpa using expired⟩
  · rintro ⟨name, last, ⟨filename, rfl⟩, startedAt, ⟨recordingStartedAt, bytes, mark, started⟩,
      representable, before⟩
    have parsed : parseRecordingStartedAt chrono filename = some recordingStartedAt :=
      parseRecordingStartedAt_eq_some.mpr ⟨bytes, mark, by rw [started]; rfl⟩
    have instant : fromLocalDatetime chrono startedAt = some startedAt.instant :=
      if_neg (not_lt.mpr representable)
    have read : path.getLast?.bind toStr = some filename := by
      rw [last, Option.bind_some, toStr_eq_some]
    rw [isExpiredPath, read]
    simp [parsed, started, instant, before]

section Assembly

variable {chrono : Chrono} {dates : DateParser} {cutoff : Instant} {activePaths : List ArchivePath}
  {tree : ArchiveTree} {calls : CollectionCalls}

theorem expiredFile_iff {path : ArchivePath} :
    ExpiredFile (IsExpiredName chrono cutoff) activePaths tree path ↔
      (path ∈ tree.paths ∧ IsArchiveFile tree path) ∧
        isCollected chrono cutoff activePaths path = true := by
  simp only [isCollected, Bool.and_eq_true, decide_eq_true_eq, isExpiredPath_iff]
  constructor
  · rintro ⟨present, file, expired, inactive⟩
    obtain ⟨name, last⟩ : ∃ name, path.getLast? = some name := by
      rw [← Option.isSome_iff_exists, List.getLast?_isSome, ← List.length_pos_iff, file.1]
      decide
    exact ⟨⟨present, file⟩, ⟨name, last, expired name last⟩, inactive⟩
  · rintro ⟨⟨present, file⟩, ⟨name, last, expired⟩, inactive⟩
    refine ⟨present, file, ?_, inactive⟩
    intro other same
    rw [last, Option.mem_def, Option.some.injEq] at same
    exact same ▸ expired

/-- What the first loop is to remove. -/
theorem mem_filter_walked {readDir : ReadDir FileName} (lists : tree.Lists readDir)
    {path : ArchivePath}
    (member : path ∈ (walked (walkArchivePaths readDir .files)).filter
      (isCollected chrono cutoff activePaths)) :
    ExpiredFile (IsExpiredName chrono cutoff) activePaths tree path := by
  obtain ⟨found, collected⟩ := List.mem_filter.mp member
  exact expiredFile_iff.mpr ⟨((walks_walkArchivePaths lists .files).sound path found).2, collected⟩

/-- A walk to the end finds all that is to be removed. -/
theorem filter_walked_complete {readDir : ReadDir FileName} (lists : tree.Lists readDir)
    (ok : ∀ item ∈ walkArchivePaths readDir .files, item.isOk = true) {path : ArchivePath}
    (expired : ExpiredFile (IsExpiredName chrono cutoff) activePaths tree path) :
    path ∈ (walked (walkArchivePaths readDir .files)).filter
      (isCollected chrono cutoff activePaths) := by
  obtain ⟨⟨present, file⟩, collected⟩ := expiredFile_iff.mp expired
  exact List.mem_filter.mpr ⟨(walks_walkArchivePaths lists .files).complete ok path present
    List.nil_prefix file, collected⟩

/-- A walk to the end counts all that is to be removed. -/
theorem ncard_expiredFile {readDir : ReadDir FileName} (lists : tree.Lists readDir)
    (ok : ∀ item ∈ walkArchivePaths readDir .files, item.isOk = true) :
    {path | ExpiredFile (IsExpiredName chrono cutoff) activePaths tree path}.ncard =
      ((walked (walkArchivePaths readDir .files)).filter
        (isCollected chrono cutoff activePaths)).length := by
  have distinct := (walks_walkArchivePaths lists .files).nodup.filter
    (isCollected chrono cutoff activePaths)
  have same : {path | ExpiredFile (IsExpiredName chrono cutoff) activePaths tree path} =
      ↑((walked (walkArchivePaths readDir .files)).filter
        (isCollected chrono cutoff activePaths)).toFinset := by
    ext path
    rw [Finset.mem_coe, List.mem_toFinset, Set.mem_ofPred_eq]
    exact ⟨filter_walked_complete lists ok, mem_filter_walked lists⟩
  rw [same, Set.ncard_coe_finset, List.toFinset_card_of_nodup distinct]

/-- What a collection removes. -/
structure CollectionResult (chrono : Chrono) (dates : DateParser) (cutoff : Instant)
    (activePaths : List ArchivePath) (tree : ArchiveTree)
    (collection : Except CollectionError ℕ × ArchiveTree) (files months : List ArchivePath) :
    Prop where
  removes : Removes tree collection.2 (files ++ months)
  expired : ∀ path ∈ files, ExpiredFile (IsExpiredName chrono cutoff) activePaths tree path
  emptied : ∀ path ∈ months, EmptiedMonth (IsExpiredName chrono cutoff) dates activePaths tree path
  allFiles : ∀ count, collection.1 = .ok count →
    ∀ path, ExpiredFile (IsExpiredName chrono cutoff) activePaths tree path → path ∈ files
  allMonths : ∀ count, collection.1 = .ok count →
    ∀ path, EmptiedMonth (IsExpiredName chrono cutoff) dates activePaths tree path → path ∈ months

/-- The months of the tree without the expired files. -/
theorem emptiedMonth_iff {middle : ArchiveTree} {removed : List ArchivePath}
    (removes : Removes tree middle removed)
    (same : ∀ path, path ∈ removed ↔
      ExpiredFile (IsExpiredName chrono cutoff) activePaths tree path) {path : ArchivePath} :
    EmptiedMonth (IsExpiredName chrono cutoff) dates activePaths tree path ↔
      path ∈ middle.paths ∧ IsMonthDirectory middle path ∧ isMonthNamed dates path = true ∧
        middle.children path = [] := by
  have empty : middle.children path = [] ↔ ∀ name, path ++ [name] ∈ tree.paths →
      ExpiredFile (IsExpiredName chrono cutoff) activePaths tree (path ++ [name]) := by
    rw [List.eq_nil_iff_forall_not_mem]
    apply forall_congr'
    intro name
    rw [mem_children, removes.paths, same]
    tauto
  have directory : IsMonthDirectory middle path ↔ IsMonthDirectory tree path := by
    rw [IsMonthDirectory, IsMonthDirectory, removes.node]
  rw [empty, directory, removes.paths, same]
  constructor
  · rintro ⟨present, month, named, emptied⟩
    refine ⟨⟨present, ?_⟩, month, named, emptied⟩
    intro file
    have depth := file.file.1
    rw [month.1] at depth
    cases depth
  · rintro ⟨⟨present, _⟩, month, named, emptied⟩
    exact ⟨present, month, named, emptied⟩

/-- A collection removes files and months as it should. -/
theorem collectGarbage_removes {now : Instant} {retention : ℕ} (dates : DateParser)
    (activePaths : List ArchivePath) (tree : ArchiveTree) (calls : CollectionCalls)
    (computed : retentionCutoff chrono now retention = .ok cutoff) :
    ∃ files months, CollectionResult chrono dates cutoff activePaths tree
      (collectGarbage chrono dates calls now retention activePaths tree) files months := by
  have lists := calls.lists_files tree
  have walks := walks_walkArchivePaths lists .files
  obtain ⟨files, only, removes, all⟩ := visitExpired_removes chrono cutoff activePaths calls 0
    walks.nodup fun path member => ⟨(walks.sound path member).2.1, (walks.sound path member).2.2.2⟩
  have expired := fun path member => mem_filter_walked lists (only (a := path) member)
  unfold collectGarbage
  rw [computed]
  dsimp only [visitExpiredFiles]
  cases visited : visitExpired chrono cutoff activePaths (removeExpired calls)
    (walkArchivePaths (calls.files tree) .files) 0 tree with
  | mk result middle =>
      rw [visited] at removes all
      cases result with
      | error error =>
          refine ⟨files, [], ?_, expired, by simp, by rintro count ⟨⟩, by rintro count ⟨⟩⟩
          rw [List.append_nil]
          exact removes
      | ok filesRemoved =>
          have whole := (visitExpired_count (congrArg Prod.fst visited)).1
          have same (path : ArchivePath) : path ∈ files ↔
              ExpiredFile (IsExpiredName chrono cutoff) activePaths tree path :=
            ⟨expired path, fun file =>
              all filesRemoved rfl (filter_walked_complete lists whole file)⟩
          have monthWalks := walks_walkArchivePaths (calls.lists_months middle) .monthDirectories
          obtain ⟨months, found, removesMonths, allMonths⟩ := removeEmptyMonths_removes
            dates calls.removeDirFailure monthWalks.nodup fun path member =>
              (monthWalks.sound path member).2
          refine ⟨files, months, removes.trans removesMonths, expired, ?_, ?_, ?_⟩
          · intro path member
            obtain ⟨inWalk, named, empty⟩ := found path member
            obtain ⟨_, present, month⟩ := monthWalks.sound path inWalk
            exact (emptiedMonth_iff removes same).mpr ⟨present, month, named, empty⟩
          · intro count _ path file
            exact (same path).mpr file
          · intro count ok path emptied
            obtain ⟨present, month, named, empty⟩ := (emptiedMonth_iff removes same).mp emptied
            have done : (removeEmptyMonths dates calls.removeDirFailure
                (walkArchivePaths (calls.months middle) .monthDirectories) middle).1 = .ok () := by
              revert ok
              dsimp only
              cases (removeEmptyMonths dates calls.removeDirFailure
                (walkArchivePaths (calls.months middle) .monthDirectories) middle).1 with
              | error error => rintro ⟨⟩
              | ok _ => exact fun _ => rfl
            obtain ⟨walked, complete⟩ := allMonths done
            exact complete path (monthWalks.complete walked path present List.nil_prefix month)
              named empty

/-- A collection that succeeds has visited all files. -/
theorem collectGarbage_count {now : Instant} {retention count : ℕ}
    (computed : retentionCutoff chrono now retention = .ok cutoff)
    (ok : (collectGarbage chrono dates calls now retention activePaths tree).1 = .ok count) :
    {path | ExpiredFile (IsExpiredName chrono cutoff) activePaths tree path}.ncard = count := by
  unfold collectGarbage at ok
  rw [computed] at ok
  dsimp only [visitExpiredFiles] at ok
  cases visited : visitExpired chrono cutoff activePaths (removeExpired calls)
    (walkArchivePaths (calls.files tree) .files) 0 tree with
  | mk result middle =>
      rw [visited] at ok
      cases result with
      | error error => cases ok
      | ok filesRemoved =>
          obtain ⟨whole, counted⟩ := visitExpired_count (congrArg Prod.fst visited)
          have same : filesRemoved = count := by
            revert ok
            dsimp only
            cases (removeEmptyMonths dates calls.removeDirFailure
              (walkArchivePaths (calls.months middle) .monthDirectories) middle).1 with
            | error error => rintro ⟨⟩
            | ok _ => exact Except.ok.inj
          rw [ncard_expiredFile (calls.lists_files tree) whole, ← same, counted, Nat.zero_add]

/-- A dry run that succeeds has visited all files. -/
theorem dryRunGarbageCollection_count {now : Instant} {retention : ℕ}
    {report : GarbageCollectionDryRun}
    (computed : retentionCutoff chrono now retention = .ok cutoff)
    (ok : (dryRunGarbageCollection chrono calls now retention activePaths tree).1 = .ok report) :
    {path | ExpiredFile (IsExpiredName chrono cutoff) activePaths tree path}.ncard =
      report.eligibleFiles := by
  unfold dryRunGarbageCollection at ok
  rw [computed] at ok
  dsimp only [visitExpiredFiles] at ok
  cases visited : (visitExpired chrono cutoff activePaths (fun tree _ => (.ok (), tree))
    (walkArchivePaths (calls.files tree) .files) 0 tree).1 with
  | error error =>
      rw [visited] at ok
      cases ok
  | ok eligibleFiles =>
      obtain ⟨whole, counted⟩ := visitExpired_count visited
      rw [visited] at ok
      obtain rfl := Except.ok.inj ok
      rw [ncard_expiredFile (calls.lists_files tree) whole, counted, Nat.zero_add]

theorem dryRunGarbageCollection_unchanged (now : Instant) (retention : ℕ) :
    (dryRunGarbageCollection chrono calls now retention activePaths tree).2 = tree := by
  unfold dryRunGarbageCollection
  cases retentionCutoff chrono now retention with
  | error message => rfl
  | ok cutoff => exact visitExpired_unchanged

end Assembly

/-- A collection removes the expired files and the months they leave empty, and a dry run on the
same tree counts the same files. -/
theorem collection_removes_expired_files {chrono : Chrono} {dates : DateParser} {cutoff : Instant}
    (activePaths : List ArchivePath) (tree : ArchiveTree) (calls dryCalls : CollectionCalls)
    {now dryNow : Instant} {retention dryRetention : ℕ}
    (computed : retentionCutoff chrono now retention = .ok cutoff)
    (dryComputed : retentionCutoff chrono dryNow dryRetention = .ok cutoff) :
    CollectsExpired (IsExpiredName chrono cutoff) dates activePaths tree
      (collectGarbage chrono dates calls now retention activePaths tree)
      (dryRunGarbageCollection chrono dryCalls dryNow dryRetention activePaths tree) := by
  obtain ⟨files, months, result⟩ := collectGarbage_removes dates activePaths tree calls computed
  refine ⟨result.removes.node, ?_, fun _ ok => collectGarbage_count computed ok, ?_,
    dryRunGarbageCollection_unchanged dryNow dryRetention, ?_, ?_⟩
  · intro count ok path
    have inFiles := Iff.intro (result.expired path) (result.allFiles count ok path)
    have inMonths := Iff.intro (result.emptied path) (result.allMonths count ok path)
    rw [result.removes.paths, List.mem_append, not_or, inFiles, inMonths]
  · intro count report ok dryOk
    rw [← collectGarbage_count computed ok, dryRunGarbageCollection_count dryComputed dryOk]
  · intro path present noFile noMonth
    rw [result.removes.paths, List.mem_append, not_or]
    exact ⟨present, mt (result.expired path) noFile, mt (result.emptied path) noMonth⟩
  · intro path present
    exact ((result.removes.paths path).mp present).1

namespace Sample

/-- Calls that do not fail. -/
def faultlessCalls : CollectionCalls where
  files tree := tree.readDir
  months tree := tree.readDir
  removeFileFailure _ := none
  removeDirFailure _ := none
  lists_files := lists_readDir
  lists_months := lists_readDir

/-- One file in a month directory. -/
def treeOfOneFile (name : FileName) : ArchiveTree where
  paths := [utf8Bytes "nhk", utf8Bytes "2026-07", name].inits
  node path := if path.length = 3 then .file [] else .directory
  nodup := by simp [List.inits]
  parents path name member := by
    rw [List.mem_inits] at member
    have length := member.length_le
    rw [List.mem_inits]
    refine ⟨(List.prefix_append _ _).trans member, if_neg ?_⟩
    simp only [List.length_append, List.length_cons, List.length_nil] at length
    omega

/-- A name whose timestamp is followed by a byte that is no text. -/
def unreadableName : FileName := utf8Bytes "2026-07-01_12-00-01." ++ 0xFF :: utf8Bytes ".jsonl"

end Sample

theorem collection_removes_expired_files_sample :
    CollectsExpired (IsExpiredName Sample.crates.chrono (Sample.clock 2).instant) .padded []
      (Sample.treeOfOneFile (utf8Bytes "2026-07-01_12-00-01.news.jsonl"))
      (collectGarbage Sample.crates.chrono .padded Sample.faultlessCalls (Sample.clock 2).instant 0
        [] (Sample.treeOfOneFile (utf8Bytes "2026-07-01_12-00-01.news.jsonl")))
      (dryRunGarbageCollection Sample.crates.chrono Sample.faultlessCalls (Sample.clock 3).instant
        (10 ^ 9) [] (Sample.treeOfOneFile (utf8Bytes "2026-07-01_12-00-01.news.jsonl"))) :=
  collection_removes_expired_files [] _ _ _ (by decide +kernel) (by decide +kernel)

/-- A file stays although its name begins with a timestamp before the cutoff and a dot. -/
theorem unreadable_name_is_kept : ¬ ∀ (cutoff : Instant) (activePaths : List ArchivePath)
    (tree : ArchiveTree) (calls dryCalls : CollectionCalls) (now dryNow : Instant)
    (retention dryRetention : ℕ),
    retentionCutoff Sample.crates.chrono now retention = .ok cutoff →
    retentionCutoff Sample.crates.chrono dryNow dryRetention = .ok cutoff →
    CollectsExpired (fun name => ∃ time, StartsWithTime Sample.crates.chrono name time ∧
        time.instant < cutoff) .padded activePaths tree
      (collectGarbage Sample.crates.chrono .padded calls now retention activePaths tree)
      (dryRunGarbageCollection Sample.crates.chrono dryCalls dryNow dryRetention activePaths
        tree) := by
  intro claim
  have computed : retentionCutoff Sample.crates.chrono (Sample.clock 2).instant 0 =
      .ok (Sample.clock 2).instant := by decide +kernel
  have claimed := claim _ [] (Sample.treeOfOneFile Sample.unreadableName) Sample.faultlessCalls
    Sample.faultlessCalls _ _ 0 0 computed computed
  have kept : (collectGarbage Sample.crates.chrono .padded Sample.faultlessCalls
      (Sample.clock 2).instant 0 [] (Sample.treeOfOneFile Sample.unreadableName)).1 = .ok 0 ∧
        [utf8Bytes "nhk", utf8Bytes "2026-07", Sample.unreadableName] ∈
          (collectGarbage Sample.crates.chrono .padded Sample.faultlessCalls
            (Sample.clock 2).instant 0 []
              (Sample.treeOfOneFile Sample.unreadableName)).2.paths := by
    decide +kernel
  refine (((claimed.removed 0 kept.1) _).mp kept.2).2.1 ⟨by decide +kernel, ⟨rfl, rfl⟩, ?_,
    List.not_mem_nil⟩
  intro name same
  obtain rfl := Option.some.inj same
  exact ⟨Sample.clock 1, ⟨"2026-07-01_12-00-01", by decide +kernel, by decide +kernel,
    by decide +kernel⟩, by decide +kernel⟩

end AribcapDb
