import AribcapDb.Archive.Partition
import AribcapDb.Search.Pass

/-! # Recording and then indexing

The recorder and the indexer are written independently. They agree on what a present EIT is, on
lines and their positions and on file names, so that indexing the files of a recording finds the
last present EIT and every caption of each file (`recording_is_indexed`). -/

namespace AribcapDb

/-- A line of a file whose JSON type is "caption": its number, the position of its first byte and
its value. -/
structure RecordedCaption where
  lineNo : ℕ
  byteOffset : ℕ
  value : Value

/-- What is indexed of a caption is what its line says. -/
structure IndexedCaption.Shows (indexed : IndexedCaption) (line : RecordedCaption) : Prop where
  lineNo : indexed.lineNo = line.lineNo
  byteOffset : indexed.byteOffset = line.byteOffset
  text : indexed.caption.text = (line.value.strField "text").getD ""
  time : indexed.caption.time = line.value.strField "time"
  color : indexed.caption.color = line.value.strField "color"
  pid : indexed.caption.pid = line.value.i64Field "pid"
  captionType : indexed.caption.captionType = line.value.strField "captionType"
  languageCode : indexed.caption.languageCode = line.value.strField "languageCode"
  durationMs : indexed.caption.durationMs = line.value.i64Field "durationMs"
  clearScreen : indexed.caption.clearScreen = line.value.boolField "clearScreen"

/-- The columns of a program are what a present EIT says. -/
structure ProgramMetadata.Shows (unicode : Unicode) (metadata : ProgramMetadata)
    (value : Value) : Prop where
  startTime : metadata.startTime = value.strField "startTime"
  durationSec : metadata.durationSec = value.i64Field "durationSec"
  title : metadata.title = (eventNameFromEit value).getD ""
  description : metadata.description = descriptionFromEit value
  version : metadata.version = value.i64Field "version"
  serviceId : metadata.serviceId = value.i64Field "serviceId"
  transportStreamId : metadata.transportStreamId = value.i64Field "transportStreamId"
  originalNetworkId : metadata.originalNetworkId = value.i64Field "originalNetworkId"
  eventId : metadata.eventId = value.i64Field "eventId"
  normalized : metadata.IsNormalized unicode

/-- An entry of the genres of a present EIT; the user nibbles are 15 unless it gives them. -/
structure Genre.Shows (genre : Genre) (entry : Value) : Prop where
  contentNibbleLevel1 : entry.i64Field "contentNibbleLevel1" = some genre.contentNibbleLevel1
  contentNibbleLevel2 : entry.i64Field "contentNibbleLevel2" = some genre.contentNibbleLevel2
  userNibble1 : genre.userNibble1 = (entry.i64Field "userNibble1").getD 15
  userNibble2 : genre.userNibble2 = (entry.i64Field "userNibble2").getD 15

/-- What is promised of the calls of a recording: the streams are configured ones, the lines are
single lines, and the clock shows years of four digits. -/
def CallsValid (crates : Crates) (calls : List Call) : Prop :=
  ∀ stream line now, .handleLine stream line now ∈ calls →
    ConfigValid crates.sanitizeFilename stream ∧ '\n' ∉ line.toList ∧ now.HasFourDigitYear

section Recording

variable {crates : Crates} {dataDir : String} {files : FileSystem} {calls : List Call}
  {recording : Recording}

/-- The indexer reads from the path of a recorded file what the recorder put into it. -/
theorem identify_archivePath (crates : Crates) (dataDir : String) {stream : String}
    (valid : ConfigValid crates.sanitizeFilename stream) (program : Program)
    {now : NaiveDateTime} (years : now.HasFourDigitYear) (suffix : ℕ) :
    identify crates (archiveRoot dataDir) (archivePath crates dataDir stream program now suffix) =
      some ⟨stream, now.formatMonth, archiveFilename crates program now suffix,
        archivePath crates dataDir stream program now suffix, now.formatStartedAt⟩ := by
  simp only [identify, streamMonthFilename_archivePath, valid.safeComponent_eq,
    parseRecordingStartedAt_archiveFilename crates program years, Option.bind_eq_bind,
    Option.bind_some]

/-- The second in which a file was opened can be read from its name. -/
theorem truncated_of_formatStartedAt (chrono : Chrono) {first second : NaiveDateTime}
    (firstYears : first.HasFourDigitYear) (secondYears : second.HasFourDigitYear)
    (same : first.formatStartedAt = second.formatStartedAt) :
    first.truncated = second.truncated := by
  have here := chrono.parseStartedAt_format first firstYears
  rw [same, chrono.parseStartedAt_format second secondYears] at here
  exact (Option.some.inj here).symm

namespace Partitioned

/-- The name of a recorded file. -/
theorem identify_created (partitioned : Partitioned crates dataDir files calls recording)
    (valid : CallsValid crates calls) {file : Created} (member : file ∈ recording.created) :
    ∃ identity, identify crates (archiveRoot dataDir) file.path = some identity ∧
      identity.stream = file.stream ∧
        identity.recordingStartedAt = file.openedAt.formatStartedAt := by
  obtain ⟨program, suffix, named⟩ := partitioned.named file member
  obtain ⟨line, called⟩ := partitioned.called file member
  obtain ⟨config, _, years⟩ := valid _ _ _ called
  rw [named, identify_archivePath crates dataDir config program years suffix]
  exact ⟨_, rfl, rfl, rfl⟩

end Partitioned

/-- Created files of different paths belong to different collision groups, when no two of a stream
were opened in the same second. -/
theorem Partitioned.separate (partitioned : Partitioned crates dataDir files calls recording)
    (valid : CallsValid crates calls)
    (seconds : recording.created.Pairwise fun first second =>
      first.stream = second.stream → first.openedAt.truncated ≠ second.openedAt.truncated)
    {first second : Created} (here : first ∈ recording.created)
    (there : second ∈ recording.created) (different : first.path ≠ second.path) :
    Separate crates (archiveRoot dataDir) first.path second.path := by
  intro file other known identified same
  have symmetric : Std.Symm fun first second : Created => first.stream = second.stream →
      first.openedAt.truncated ≠ second.openedAt.truncated :=
    ⟨fun first second apart same => (apart same.symm).symm⟩
  obtain ⟨firstFile, firstKnown, firstStream, firstTime⟩ :=
    partitioned.identify_created valid here
  obtain ⟨secondFile, secondKnown, secondStream, secondTime⟩ :=
    partitioned.identify_created valid there
  rw [known, Option.some.injEq] at firstKnown
  rw [identified, Option.some.injEq] at secondKnown
  subst firstKnown secondKnown
  obtain ⟨streams, times⟩ := Prod.ext_iff.mp same
  obtain ⟨_, firstCalled⟩ := partitioned.called first here
  obtain ⟨_, secondCalled⟩ := partitioned.called second there
  have apart : first ≠ second := fun equal => different (congrArg Created.path equal)
  apply seconds.forall here there apart (firstStream.symm.trans (streams.trans secondStream))
  exact truncated_of_formatStartedAt crates.chrono (valid _ _ _ firstCalled).2.2
    (valid _ _ _ secondCalled).2.2 (firstTime.symm.trans (times.trans secondTime))

namespace WalksTree

variable {walk : List (Except String PathAttempt)}

/-- An attempted file with a name to index is one that the run has created, when the tree held
no such file before. -/
theorem recorded (walks : WalksTree (archiveRoot dataDir) recording.recorder.files walk)
    (partitioned : Partitioned crates dataDir files calls recording)
    (vacant : ∀ path content, files path = some (.file content) →
      identify crates (archiveRoot dataDir) path = none)
    {attempt : PathAttempt} (member : attempt ∈ scannedPaths walk) {file : FileIdentity}
    (known : identify crates (archiveRoot dataDir) attempt.path = some file) :
    ∃ created ∈ recording.created, created.path = attempt.path := by
  obtain ⟨content, present, _⟩ := walks.held member
  by_contra outside
  rw [partitioned.untouched attempt.path (by simpa using outside)] at present
  rw [vacant _ content present] at known
  cases known

/-- The startup scan attempts every file that the run has created. -/
theorem visited (walks : WalksTree (archiveRoot dataDir) recording.recorder.files walk)
    (partitioned : Partitioned crates dataDir files calls recording) {file : Created}
    (member : file ∈ recording.created) :
    ∃ attempt ∈ scannedPaths walk, attempt.path = file.path := by
  obtain ⟨lines, _, stored⟩ := partitioned.exists_segment
    (Partitioned.mem_createdFor.mpr ⟨file, member, rfl, rfl⟩)
  obtain ⟨program, suffix, named⟩ := partitioned.named file member
  have below : (streamMonthFilename (archiveRoot dataDir) file.path).isSome := by
    rw [named, streamMonthFilename_archivePath]
    rfl
  apply walks.attempted stored below
  rw [named, extension_archivePath]

end WalksTree

end Recording

end AribcapDb
