import AribcapDb.Archive.Recorder
import AribcapDb.Foundation.Framing

/-! # The recorder partitions every stream

A recording is a run of successful calls with the files it created. For every stream, the
created files in order hold the segments of the stream at its present EITs
(`Partitioned.run`), so that the recorder refines `Segmentation`. -/

namespace AribcapDb

/-- The calls of the upstream supervisor. -/
inductive Call where
  | handleLine (stream line : String) (now : NaiveDateTime)
  | deactivateStream (stream : String)
  deriving DecidableEq

/-- A file that a call has created. -/
structure Created where
  stream : String
  path : String
  openedAt : NaiveDateTime
  deriving DecidableEq

/-- The recorder and the files it has created so far, in creation order. -/
structure Recording where
  recorder : Recorder
  created : List Created

namespace Recording

def start (dataDir : String) (files : FileSystem) : Recording := ⟨.new dataDir files, []⟩

/-- The file that a call has created, from what it returned. -/
def createdBy (stream : String) (now : NaiveDateTime) : Option ArchiveEvent → List Created
  | some (.programStarted path) => [⟨stream, path, now⟩]
  | _ => []

/-- One call whose file operations all succeed. -/
def step (crates : Crates) (recording : Recording) : Call → Except String Recording
  | .handleLine stream line now =>
      match recording.recorder.handleLineAt crates .success stream line now with
      | (.ok event, after) => .ok ⟨after, recording.created ++ createdBy stream now event⟩
      | (.error error, _) => .error error
  | .deactivateStream stream =>
      .ok { recording with recorder := recording.recorder.deactivateStream stream }

def run (crates : Crates) (recording : Recording) (calls : List Call) :
    Except String Recording :=
  calls.foldlM (step crates) recording

end Recording

/-- The paths of the files created for a stream. -/
def createdFor (stream : String) (created : List Created) : List String :=
  (created.filter (·.stream = stream)).map Created.path

/-- What a call is to the segmentation of a stream. -/
def Call.input (stream : String) : Call → Option (Segmentation.Input String)
  | .handleLine other line _ => if other = stream then some (.item line) else none
  | .deactivateStream other => if other = stream then some .reset else none

/-- The lines a stream receives, and its deactivations. -/
def streamInputs (stream : String) (calls : List Call) : List (Segmentation.Input String) :=
  calls.filterMap (Call.input stream)

/-- The recorder of one stream, without files. -/
def segmentation (crates : Crates) (stream : String) (calls : List Call) :
    Segmentation.State String ProgramKey :=
  Segmentation.run (classifyLine crates) .initial (streamInputs stream calls)

def fileContent (lines : List String) : List UInt8 := lines.flatMap lineBytes

def storedFile (lines : List String) : Option Entry := some (.file (fileContent lines))

theorem fileContent_snoc (lines : List String) (line : String) :
    fileContent (lines ++ [line]) = fileContent lines ++ lineBytes line := by
  simp [fileContent]

theorem fileContent_eq_unframe (lines : List String) :
    fileContent lines = Framing.unframe newline (lines.map utf8Bytes) := by
  simp only [fileContent, Framing.unframe, List.flatMap_map]
  rfl

/-- A new call feeds the segmentation of its own stream only. -/
theorem segmentation_snoc (crates : Crates) (stream : String) (calls : List Call)
    (call : Call) :
    segmentation crates stream (calls ++ [call]) =
      match call.input stream with
      | none => segmentation crates stream calls
      | some input =>
          Segmentation.step (classifyLine crates) (segmentation crates stream calls) input := by
  unfold segmentation streamInputs
  rw [List.filterMap_append, Segmentation.run_append]
  cases fed : call.input stream <;> simp [fed, Segmentation.run]

/-- The active file of a stream is the last one created for it, with the key of the open
segment. -/
def ActiveMatches (active : Option ActiveArchiveFile)
    (current : Option (ProgramKey × List String)) (opened : List String) : Prop :=
  match active, current with
  | none, none => True
  | some active, some (key, _) => active.program = key ∧ opened.getLast? = some active.path
  | _, _ => False

/-- The recorder state after `calls` holds the segments of every stream in the files created for
it, and leaves every other file as it was. -/
structure Partitioned (crates : Crates) (dataDir : String) (files : FileSystem)
    (calls : List Call) (recording : Recording) : Prop where
  dataDir_eq : recording.recorder.store.dataDir = dataDir
  stored : ∀ stream, (createdFor stream recording.created).map recording.recorder.files =
    (segmentation crates stream calls).segments.map storedFile
  active : ∀ stream, ActiveMatches (recording.recorder.store.active stream)
    (segmentation crates stream calls).current (createdFor stream recording.created)
  distinct : (recording.created.map Created.path).Nodup
  fresh : ∀ file ∈ recording.created, files file.path = none
  named : ∀ file ∈ recording.created, ∃ program suffix,
    file.path = archivePath crates dataDir file.stream program file.openedAt suffix
  called : ∀ file ∈ recording.created, ∃ line,
    .handleLine file.stream line file.openedAt ∈ calls
  untouched : ∀ path, path ∉ recording.created.map Created.path →
    recording.recorder.files path = files path

namespace Partitioned

variable {crates : Crates} {dataDir : String} {files : FileSystem} {calls : List Call}
  {recording : Recording}

theorem start (crates : Crates) (dataDir : String) (files : FileSystem) :
    Partitioned crates dataDir files [] (.start dataDir files) where
  dataDir_eq := rfl
  stored _ := rfl
  active _ := trivial
  distinct := List.nodup_nil
  fresh := by simp [Recording.start]
  named := by simp [Recording.start]
  called := by simp [Recording.start]
  untouched _ _ := rfl

theorem mem_createdFor {stream path : String} :
    path ∈ createdFor stream recording.created ↔
      ∃ file ∈ recording.created, file.stream = stream ∧ file.path = path := by
  simp [createdFor, and_assoc]

/-- Files of different streams are different. -/
theorem stream_unique (distinct : (recording.created.map Created.path).Nodup)
    {stream other path : String} (here : path ∈ createdFor stream recording.created)
    (there : path ∈ createdFor other recording.created) : stream = other := by
  obtain ⟨file, member, rfl, same⟩ := mem_createdFor.mp here
  obtain ⟨second, present, rfl, equal⟩ := mem_createdFor.mp there
  rw [List.inj_on_of_nodup_map distinct member present (same.trans equal.symm)]

theorem nodup_createdFor (distinct : (recording.created.map Created.path).Nodup)
    (stream : String) : (createdFor stream recording.created).Nodup :=
  distinct.sublist (List.filter_sublist.map _)

/-- A created file holds a segment of its stream. -/
theorem exists_segment (partitioned : Partitioned crates dataDir files calls recording)
    {stream path : String} (member : path ∈ createdFor stream recording.created) :
    ∃ lines ∈ (segmentation crates stream calls).segments,
      recording.recorder.files path = storedFile lines := by
  have held : recording.recorder.files path ∈
      (createdFor stream recording.created).map recording.recorder.files :=
    List.mem_map_of_mem member
  rw [partitioned.stored stream] at held
  obtain ⟨lines, present, same⟩ := List.mem_map.mp held
  exact ⟨lines, present, same.symm⟩

/-- The calls that created the files are still among the calls after another one. -/
theorem called_snoc (partitioned : Partitioned crates dataDir files calls recording)
    (call : Call) (file : Created) (member : file ∈ recording.created) :
    ∃ line, .handleLine file.stream line file.openedAt ∈ calls ++ [call] := by
  obtain ⟨line, earlier⟩ := partitioned.called file member
  exact ⟨line, List.mem_append_left _ earlier⟩

/-- A call that concerns no stream's segments and no file keeps the partition. -/
theorem unchanged (partitioned : Partitioned crates dataDir files calls recording)
    {call : Call}
    (same : ∀ stream, segmentation crates stream (calls ++ [call]) =
      segmentation crates stream calls) :
    Partitioned crates dataDir files (calls ++ [call]) recording where
  dataDir_eq := partitioned.dataDir_eq
  stored stream := by rw [same]; exact partitioned.stored stream
  active stream := by rw [same]; exact partitioned.active stream
  distinct := partitioned.distinct
  fresh := partitioned.fresh
  named := partitioned.named
  called := partitioned.called_snoc _
  untouched := partitioned.untouched

/-- Deactivating a stream closes its open segment. -/
theorem deactivate (partitioned : Partitioned crates dataDir files calls recording)
    (stream : String) :
    Partitioned crates dataDir files (calls ++ [.deactivateStream stream])
      { recording with recorder := recording.recorder.deactivateStream stream } where
  dataDir_eq := partitioned.dataDir_eq
  stored other := by
    have before := partitioned.stored other
    rw [segmentation_snoc]
    by_cases same : stream = other
    · simpa [Call.input, same, Segmentation.step, Segmentation.State.reset,
        Segmentation.State.segments] using before
    · simpa [Call.input, same] using before
  active other := by
    have before := partitioned.active other
    rw [segmentation_snoc]
    simp only [Recorder.deactivateStream, ArchiveStore.active_deactivateStream]
    by_cases same : stream = other
    · simp [Call.input, same, Segmentation.step, Segmentation.State.reset, ActiveMatches]
    · simpa [Call.input, same, Ne.symm same] using before
  distinct := partitioned.distinct
  fresh := partitioned.fresh
  named := partitioned.named
  called := partitioned.called_snoc _
  untouched := partitioned.untouched

/-- Appending a line to the active file continues the open segment. -/
theorem append (partitioned : Partitioned crates dataDir files calls recording)
    {stream line : String} {now : NaiveDateTime} {active : ActiveArchiveFile}
    (found : recording.recorder.store.active stream = some active)
    (continues : classifyLine crates line = .plain ∨
      classifyLine crates line = .header active.program) :
    Partitioned crates dataDir files (calls ++ [.handleLine stream line now])
      { recording with recorder := recording.recorder.appended active line } := by
  obtain ⟨key, items, current, program, last⟩ : ∃ key items,
      (segmentation crates stream calls).current = some (key, items) ∧ active.program = key ∧
        (createdFor stream recording.created).getLast? = some active.path := by
    have before := partitioned.active stream
    rw [found] at before
    cases segment : (segmentation crates stream calls).current with
    | none => simp [ActiveMatches, segment] at before
    | some pair => exact ⟨pair.1, pair.2, rfl, by simpa [ActiveMatches, segment] using before⟩
  obtain ⟨front, split⟩ := List.getLast?_eq_some_iff.mp last
  have member : active.path ∈ createdFor stream recording.created := List.mem_of_getLast? last
  have segments : (segmentation crates stream calls).segments =
      (segmentation crates stream calls).closed ++ [items] := by
    simp [Segmentation.State.segments, current]
  have before := partitioned.stored stream
  rw [split, segments, List.map_append, List.map_append, List.map_singleton,
    List.map_singleton] at before
  obtain ⟨earlier, held⟩ := List.append_inj' before rfl
  have present : recording.recorder.files active.path = some (.file (fileContent items)) :=
    List.singleton_inj.mp held
  have written := FileSystem.append_file present (lineBytes line)
  have extended : segmentation crates stream (calls ++ [.handleLine stream line now]) =
      ⟨(segmentation crates stream calls).closed, some (key, items ++ [line])⟩ := by
    rw [segmentation_snoc]
    simp only [Call.input, ↓reduceIte, Segmentation.step, Segmentation.feed, current]
    rcases continues with plain | header
    · rw [plain]
    · simp [header, program]
  refine ⟨partitioned.dataDir_eq, fun other => ?_, fun other => ?_, partitioned.distinct,
    partitioned.fresh, partitioned.named, partitioned.called_snoc _, fun path absent => ?_⟩
  · by_cases same : stream = other
    · subst same
      have nodup := nodup_createdFor partitioned.distinct stream
      rw [split, List.nodup_append] at nodup
      have kept : front.map (recording.recorder.appended active line).files =
          front.map recording.recorder.files :=
        List.map_congr_left fun path inside =>
          FileSystem.append_other _ (nodup.2.2 path inside _ List.mem_cons_self) _
      have last : (recording.recorder.appended active line).files active.path =
          storedFile (items ++ [line]) := by
        simp only [Recorder.appended, written, Function.update_self, storedFile,
          fileContent_snoc]
      rw [extended]
      calc (createdFor stream recording.created).map (recording.recorder.appended active line).files
          = front.map recording.recorder.files ++ [storedFile (items ++ [line])] := by
            rw [split, List.map_append, kept, List.map_singleton, last]
        _ = _ := by simp [Segmentation.State.segments, earlier]
    · have feeds : segmentation crates other (calls ++ [.handleLine stream line now]) =
          segmentation crates other calls := by
        rw [segmentation_snoc]
        simp [Call.input, same]
      rw [feeds, ← partitioned.stored other]
      apply List.map_congr_left
      intro path inside
      refine FileSystem.append_other _ (fun equal => same ?_) _
      exact stream_unique partitioned.distinct member (equal ▸ inside)
  · have before := partitioned.active other
    by_cases same : stream = other
    · subst same
      rw [extended]
      simp only [Recorder.appended, ArchiveStore.active_markDirty, found]
      exact ⟨program, last⟩
    · rw [segmentation_snoc]
      simpa [Call.input, same, Recorder.appended] using before
  · obtain ⟨file, created, _, same⟩ := mem_createdFor.mp member
    have different : path ≠ active.path := by
      rintro rfl
      exact absent (same ▸ List.mem_map_of_mem created)
    rw [← partitioned.untouched path absent]
    exact FileSystem.append_other _ different _

/-- Starting a file opens a segment. -/
theorem started (partitioned : Partitioned crates dataDir files calls recording)
    {stream line : String} {now : NaiveDateTime} {program : Program} {suffix : ℕ}
    {active : ActiveArchiveFile} (read : lineProgram crates line = some (some program))
    (changes : ∀ old, recording.recorder.store.active stream = some old →
      old.program ≠ program.key)
    (named : active = ⟨program.key, archivePath crates recording.recorder.store.dataDir stream
      program now suffix⟩)
    (fresh : recording.recorder.files active.path = none) :
    Partitioned crates dataDir files (calls ++ [.handleLine stream line now])
      ⟨recording.recorder.started stream active line,
        recording.created ++ [⟨stream, active.path, now⟩]⟩ := by
  have header : classifyLine crates line = .header program.key := by
    simp [classifyLine, read]
  have key : active.program = program.key := by rw [named]
  have unused : active.path ∉ recording.created.map Created.path := by
    intro member
    obtain ⟨file, created, same⟩ := List.mem_map.mp member
    obtain ⟨lines, _, held⟩ := partitioned.exists_segment (mem_createdFor.mpr
      ⟨file, created, rfl, same⟩)
    rw [fresh] at held
    cases held
  have absent : files active.path = none := by
    rw [← partitioned.untouched _ unused, fresh]
  have written : (recording.recorder.started stream active line).files =
      Function.update recording.recorder.files active.path (storedFile [line]) := by
    simp only [Recorder.started, FileSystem.create_append, storedFile, fileContent,
      List.flatMap_singleton]
  have opened : segmentation crates stream (calls ++ [.handleLine stream line now]) =
      (segmentation crates stream calls).openWith program.key line := by
    rw [segmentation_snoc]
    simp only [Call.input, ↓reduceIte, Segmentation.step, Segmentation.feed, header]
    have before := partitioned.active stream
    cases segment : (segmentation crates stream calls).current with
    | none => rfl
    | some pair =>
        cases old : recording.recorder.store.active stream with
        | none => simp [ActiveMatches, segment, old] at before
        | some first =>
            have same : first.program = pair.1 := by
              simp only [ActiveMatches, segment, old] at before
              exact before.1
            have different : pair.1 ≠ program.key := same ▸ changes first old
            simp [different]
  have frame (other : String) : (createdFor other recording.created).map
      (recording.recorder.started stream active line).files =
        (createdFor other recording.created).map recording.recorder.files := by
    apply List.map_congr_left
    intro path inside
    rw [written]
    refine Function.update_of_ne (fun equal => unused ?_) _ _
    obtain ⟨file, created, _, same⟩ := mem_createdFor.mp inside
    exact equal ▸ same ▸ List.mem_map_of_mem created
  refine ⟨partitioned.dataDir_eq, fun other => ?_, fun other => ?_, ?_, ?_, ?_, ?_, ?_⟩
  · by_cases same : stream = other
    · subst same
      rw [opened]
      simp only [createdFor, List.filter_append, List.map_append] at frame ⊢
      rw [frame stream]
      have before := partitioned.stored stream
      simp only [createdFor] at before
      rw [before]
      simp [written, Segmentation.State.openWith, Segmentation.State.segments]
    · rw [segmentation_snoc]
      simp only [Call.input, same, ↓reduceIte]
      rw [← partitioned.stored other, ← frame other]
      simp [createdFor, same]
  · by_cases same : stream = other
    · subst same
      rw [opened]
      simp [Recorder.started, ArchiveStore.active_replaceActive, Segmentation.State.openWith,
        ActiveMatches, key, createdFor]
    · have before := partitioned.active other
      rw [segmentation_snoc]
      simpa [Call.input, same, Ne.symm same, Recorder.started,
        ArchiveStore.active_replaceActive, createdFor] using before
  · rw [List.map_append, List.nodup_append]
    refine ⟨partitioned.distinct, by simp, ?_⟩
    rintro path member _ single rfl
    rw [List.map_singleton, List.mem_singleton] at single
    have equal : path = active.path := single
    exact unused (equal ▸ member)
  · intro file member
    rcases List.mem_append.mp member with old | new
    · exact partitioned.fresh file old
    · rw [List.mem_singleton.mp new]
      exact absent
  · intro file member
    rcases List.mem_append.mp member with old | new
    · exact partitioned.named file old
    · rw [List.mem_singleton.mp new]
      refine ⟨program, suffix, ?_⟩
      simp only [named, partitioned.dataDir_eq]
  · intro file member
    rcases List.mem_append.mp member with old | new
    · exact partitioned.called_snoc _ file old
    · rw [List.mem_singleton.mp new]
      exact ⟨line, by simp⟩
  · intro path outside
    rw [List.map_append, List.mem_append, not_or] at outside
    rw [written, Function.update_of_ne (by simpa using outside.2)]
    exact partitioned.untouched path outside.1

/-- Every call keeps the partition. -/
theorem step (partitioned : Partitioned crates dataDir files calls recording) {call : Call}
    {after : Recording} (stepped : recording.step crates call = .ok after) :
    Partitioned crates dataDir files (calls ++ [call]) after := by
  cases call with
  | deactivateStream stream =>
      cases stepped
      exact partitioned.deactivate stream
  | handleLine stream line now =>
      simp only [Recording.step] at stepped
      split at stepped
      · next event recorder ran =>
          cases stepped
          cases Recorder.handleLineAt_cases ran with
          | invalid junk =>
              simp only [Recording.createdBy, List.append_nil]
              apply partitioned.unchanged
              intro other
              rw [segmentation_snoc]
              by_cases same : stream = other <;>
                simp [Call.input, same, Segmentation.step, Segmentation.feed, junk]
          | noProgram plain idle =>
              simp only [Recording.createdBy, List.append_nil]
              apply partitioned.unchanged
              intro other
              rw [segmentation_snoc]
              by_cases same : stream = other
              · subst same
                have before := partitioned.active stream
                cases segment : (segmentation crates stream calls).current with
                | none =>
                    simp [Call.input, Segmentation.step, Segmentation.feed, plain, segment]
                | some pair => simp [ActiveMatches, segment, idle] at before
              · simp [Call.input, same]
          | append active found continues =>
              simp only [Recording.createdBy, List.append_nil]
              exact partitioned.append found continues
          | start program suffix active read changes named fresh =>
              exact partitioned.started read changes named fresh
      · cases stepped

/-- Every run of successful calls partitions the streams into the created files. -/
theorem run (ran : (Recording.start dataDir files).run crates calls = .ok recording) :
    Partitioned crates dataDir files calls recording := by
  induction calls using List.reverseRecOn generalizing recording with
  | nil =>
      cases ran
      exact start crates dataDir files
  | append_singleton earlier call ih =>
      unfold Recording.run at ran
      rw [List.foldlM_append] at ran
      cases before : earlier.foldlM (Recording.step crates) (.start dataDir files) with
      | error error =>
          rw [before] at ran
          cases ran
      | ok middle =>
          have last : middle.step crates call = .ok recording := by
            rw [before] at ran
            simp only [List.foldlM_cons, List.foldlM_nil, bind_pure] at ran
            exact ran
          exact (ih before).step last

end Partitioned

namespace Partitioned

variable {crates : Crates} {dataDir : String} {files : FileSystem} {calls : List Call}
  {recording after : Recording}

end Partitioned

end AribcapDb
