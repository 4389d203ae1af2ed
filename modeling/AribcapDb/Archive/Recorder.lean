import AribcapDb.Archive.Naming
import AribcapDb.Foundation.Segmentation

/-! # The recorder

`handle_line` reads one upstream line and appends it to the file being recorded for its stream,
opens a new file for a new program, or drops the line. What the operating system does with the
file operations of a call is a parameter; `handleLineAt_cases` lists what a call that succeeds
can do, and `handleLineAt_error` what a call that fails leaves behind. -/

namespace AribcapDb

def newline : UInt8 := 10

/-- The bytes that `writeln!` writes for a line. -/
def lineBytes (line : String) : List UInt8 := utf8Bytes line ++ [newline]

inductive ArchiveEvent where
  | programStarted (path : String)
  | skippedNoProgram
  | skippedInvalidJson
  deriving DecidableEq, Repr

/-- What the operating system answers to the file operations of one call. -/
structure IoOutcome where
  createDirFails : Bool
  /-- Opening a path where nothing exists fails. -/
  openFails : Bool
  /-- The number of bytes written before a failing write, or `none` when the write succeeds. -/
  written : Option ℕ
  deriving DecidableEq, Repr

def IoOutcome.success : IoOutcome := ⟨false, false, none⟩

/-- The store together with the files it writes. -/
structure Recorder where
  store : ArchiveStore
  files : FileSystem

/-- `write_line`. -/
def ActiveArchiveFile.writeLine (io : IoOutcome) (active : ActiveArchiveFile) (line : String)
    (files : FileSystem) : Except String Unit × FileSystem :=
  match io.written with
  | none => (.ok (), files.append active.path (lineBytes line))
  | some count =>
      (.error ("failed to write " ++ active.path),
        files.append active.path ((lineBytes line).take count))

namespace Recorder

def new (dataDir : String) (files : FileSystem) : Recorder := ⟨.new dataDir, files⟩

/-- `append_active`. -/
def appendActive (io : IoOutcome) (recorder : Recorder) (stream line : String) :
    Except String Bool × Recorder :=
  match recorder.store.active stream with
  | none => (.ok false, recorder)
  | some active =>
      match active.writeLine io line recorder.files with
      | (.error error, files) => (.error error, { recorder with files })
      | (.ok (), files) => (.ok true, ⟨recorder.store.markDirty active.path, files⟩)

/-- `append_if_same_program`. -/
def appendIfSameProgram (io : IoOutcome) (recorder : Recorder) (stream : String)
    (program : ProgramKey) (line : String) : Except String Bool × Recorder :=
  match recorder.store.active stream with
  | none => (.ok false, recorder)
  | some active =>
      if active.program ≠ program then (.ok false, recorder)
      else
        match active.writeLine io line recorder.files with
        | (.error error, files) => (.error error, { recorder with files })
        | (.ok (), files) => (.ok true, ⟨recorder.store.markDirty active.path, files⟩)

end Recorder

/-- The first suffix from `suffix` on whose path is free, among the next `tries` ones. -/
def freeSuffix (exists' : ℕ → Bool) : ℕ → ℕ → Option ℕ
  | 0, _ => none
  | tries + 1, suffix =>
      if exists' suffix then freeSuffix exists' tries (suffix + 1) else some suffix

/-- `open_archive_file`. The collision suffix is a `u32`. -/
def openArchiveFile (crates : Crates) (io : IoOutcome) (dataDir stream : String)
    (program : Program) (now : NaiveDateTime) (files : FileSystem) :
    Except String ActiveArchiveFile × FileSystem :=
  if io.createDirFails then
    (.error ("failed to create " ++ archiveDirectory crates dataDir stream now), files)
  else
    let path (suffix : ℕ) := archivePath crates dataDir stream program now suffix
    match freeSuffix (fun suffix => (files (path suffix)).isSome) (2 ^ 32) 0 with
    | none => (.error "unbounded collision suffix loop", files)
    | some suffix =>
        if io.openFails then (.error ("failed to open " ++ path suffix), files)
        else (.ok ⟨program.key, path suffix⟩, files.create (path suffix))

namespace Recorder

/-- `handle_line_at`. -/
def handleLineAt (crates : Crates) (io : IoOutcome) (recorder : Recorder)
    (stream line : String) (now : NaiveDateTime) :
    Except String (Option ArchiveEvent) × Recorder :=
  match crates.serde.fromStr line with
  | none => (.ok (some .skippedInvalidJson), recorder)
  | some value =>
      match programFromEit crates.chrono value with
      | none =>
          match recorder.appendActive io stream line with
          | (.error error, after) => (.error error, after)
          | (.ok true, after) => (.ok none, after)
          | (.ok false, after) => (.ok (some .skippedNoProgram), after)
      | some program =>
          match recorder.appendIfSameProgram io stream program.key line with
          | (.error error, after) => (.error error, after)
          | (.ok true, after) => (.ok none, after)
          | (.ok false, after) =>
              match openArchiveFile crates io after.store.dataDir stream program now
                  after.files with
              | (.error error, files) => (.error error, { after with files })
              | (.ok active, files) =>
                  match active.writeLine io line files with
                  | (.error error, files) => (.error error, { after with files })
                  | (.ok (), files) =>
                      (.ok (some (.programStarted active.path)),
                        ⟨after.store.replaceActive stream active, files⟩)

/-- `deactivate_stream`. -/
def deactivateStream (recorder : Recorder) (stream : String) : Recorder :=
  { recorder with store := recorder.store.deactivateStream stream }

@[simp] theorem store_deactivateStream (recorder : Recorder) (stream : String) :
    (recorder.deactivateStream stream).store = recorder.store.deactivateStream stream := rfl

@[simp] theorem files_deactivateStream (recorder : Recorder) (stream : String) :
    (recorder.deactivateStream stream).files = recorder.files := rfl

end Recorder

/-- What a line is to the recorder: the program of a present EIT, another record, or no JSON. -/
def lineProgram (crates : Crates) (line : String) : Option (Option Program) :=
  (crates.serde.fromStr line).map (programFromEit crates.chrono)

/-- The class of a line for the segmentation of a stream at its present EITs. -/
def classifyLine (crates : Crates) (line : String) : Segmentation.Class ProgramKey :=
  match lineProgram crates line with
  | none => .junk
  | some none => .plain
  | some (some program) => .header program.key

theorem freeSuffix_eq_some {exists' : ℕ → Bool} {tries suffix found : ℕ}
    (free : freeSuffix exists' tries suffix = some found) :
    exists' found = false ∧ ∀ earlier, suffix ≤ earlier → earlier < found →
      exists' earlier = true := by
  induction tries generalizing suffix with
  | zero => cases free
  | succ tries ih =>
      unfold freeSuffix at free
      split at free
      · next taken =>
          obtain ⟨absent, before⟩ := ih free
          refine ⟨absent, fun earlier lower upper => ?_⟩
          rcases lower.eq_or_lt with rfl | later
          · exact taken
          · exact before earlier later upper
      · next absent =>
          cases free
          exact ⟨by simpa using absent, fun earlier lower upper => by omega⟩

/-- A new file is opened where nothing existed. -/
theorem openArchiveFile_ok {crates : Crates} {io : IoOutcome} {dataDir stream : String}
    {program : Program} {now : NaiveDateTime} {files after : FileSystem}
    {active : ActiveArchiveFile}
    (opened : openArchiveFile crates io dataDir stream program now files = (.ok active, after)) :
    ∃ suffix, active = ⟨program.key, archivePath crates dataDir stream program now suffix⟩ ∧
      files active.path = none ∧ after = files.create active.path := by
  unfold openArchiveFile at opened
  split at opened
  · cases opened
  · dsimp only at opened
    split at opened
    · cases opened
    · next suffix free =>
        split at opened
        · cases opened
        · cases opened
          have absent := (freeSuffix_eq_some free).1
          rw [Option.isSome_eq_false_iff, Option.isNone_iff_eq_none] at absent
          refine ⟨suffix, rfl, ?_, ?_⟩
          · simp only [absent]
          · simp only

namespace Recorder

variable {crates : Crates} {recorder after : Recorder} {stream line : String}
  {now : NaiveDateTime} {event : Option ArchiveEvent}

/-- The recorder after appending a line to an active file. -/
def appended (recorder : Recorder) (active : ActiveArchiveFile) (line : String) : Recorder :=
  ⟨recorder.store.markDirty active.path, recorder.files.append active.path (lineBytes line)⟩

/-- The recorder after starting a file with its first line. -/
def started (recorder : Recorder) (stream : String) (active : ActiveArchiveFile)
    (line : String) : Recorder :=
  ⟨recorder.store.replaceActive stream active,
    (recorder.files.create active.path).append active.path (lineBytes line)⟩

/-- A new file holds the line that starts it. -/
theorem files_started (recorder : Recorder) (stream : String) (active : ActiveArchiveFile)
    (line : String) : (recorder.started stream active line).files active.path =
      some (.file (lineBytes line)) := by
  rw [started, FileSystem.create_append]
  exact Function.update_self ..

theorem files_started_other (recorder : Recorder) (stream : String) (active : ActiveArchiveFile)
    (line : String) {path : String} (different : path ≠ active.path) :
    (recorder.started stream active line).files path = recorder.files path :=
  (FileSystem.append_other _ different _).trans (FileSystem.create_other _ different)

/-- What one successful call can do: drop the line, append it, or start a file with it. -/
inductive Handled (crates : Crates) (recorder : Recorder) (stream line : String)
    (now : NaiveDateTime) : Option ArchiveEvent → Recorder → Prop where
  | invalid : classifyLine crates line = .junk →
      Handled crates recorder stream line now (some .skippedInvalidJson) recorder
  | noProgram : classifyLine crates line = .plain → recorder.store.active stream = none →
      Handled crates recorder stream line now (some .skippedNoProgram) recorder
  | append (active : ActiveArchiveFile) : recorder.store.active stream = some active →
      (classifyLine crates line = .plain ∨
        classifyLine crates line = .header active.program) →
      Handled crates recorder stream line now none (recorder.appended active line)
  | start (program : Program) (suffix : ℕ) (active : ActiveArchiveFile) :
      lineProgram crates line = some (some program) →
      (∀ old, recorder.store.active stream = some old → old.program ≠ program.key) →
      active = ⟨program.key, archivePath crates recorder.store.dataDir stream program now
        suffix⟩ →
      recorder.files active.path = none →
      Handled crates recorder stream line now (some (.programStarted active.path))
        (recorder.started stream active line)

/-- What is left of a call that opens a file. -/
theorem opened_cases {io : IoOutcome} {program : Program}
    (read : lineProgram crates line = some (some program))
    (other : ∀ old, recorder.store.active stream = some old → old.program ≠ program.key)
    (ran : (match openArchiveFile crates io recorder.store.dataDir stream program now
        recorder.files with
      | (.error error, files) => (.error error, { recorder with files })
      | (.ok active, files) =>
          match active.writeLine io line files with
          | (.error error, files) => (.error error, { recorder with files })
          | (.ok (), files) =>
              (.ok (some (.programStarted active.path)),
                ⟨recorder.store.replaceActive stream active, files⟩)) =
      ((.ok event, after) : Except String (Option ArchiveEvent) × Recorder)) :
    Handled crates recorder stream line now event after := by
  split at ran
  · cases ran
  · next active files opened =>
      obtain ⟨suffix, named, fresh, rfl⟩ := openArchiveFile_ok opened
      cases written : io.written with
      | none =>
          simp only [ActiveArchiveFile.writeLine, written] at ran
          cases ran
          exact .start program suffix active read other named fresh
      | some count =>
          simp only [ActiveArchiveFile.writeLine, written] at ran
          cases ran

theorem handleLineAt_cases {io : IoOutcome}
    (ran : recorder.handleLineAt crates io stream line now = (.ok event, after)) :
    Handled crates recorder stream line now event after := by
  unfold handleLineAt at ran
  cases parsed : crates.serde.fromStr line with
  | none =>
      simp only [parsed] at ran
      cases ran
      exact .invalid (by simp [classifyLine, lineProgram, parsed])
  | some value =>
      cases eit : programFromEit crates.chrono value with
      | none =>
          have plain : classifyLine crates line = .plain := by
            simp [classifyLine, lineProgram, parsed, eit]
          simp only [parsed, eit, appendActive] at ran
          cases found : recorder.store.active stream with
          | none =>
              simp only [found] at ran
              cases ran
              exact .noProgram plain found
          | some active =>
              cases written : io.written with
              | none =>
                  simp only [found, ActiveArchiveFile.writeLine, written] at ran
                  cases ran
                  exact .append active found (.inl plain)
              | some count =>
                  simp only [found, ActiveArchiveFile.writeLine, written] at ran
                  cases ran
      | some program =>
          have read : lineProgram crates line = some (some program) := by
            simp [lineProgram, parsed, eit]
          simp only [parsed, eit, appendIfSameProgram] at ran
          cases found : recorder.store.active stream with
          | none =>
              simp only [found] at ran
              exact opened_cases read (by simp [found]) ran
          | some active =>
              simp only [found] at ran
              by_cases same : active.program = program.key
              · simp only [same, ne_eq, not_true_eq_false, ↓reduceIte] at ran
                cases written : io.written with
                | none =>
                    simp only [ActiveArchiveFile.writeLine, written] at ran
                    cases ran
                    refine .append active found (.inr ?_)
                    simp [classifyLine, read, same]
                | some count =>
                    simp only [ActiveArchiveFile.writeLine, written] at ran
                    cases ran
              · simp only [ne_eq, same, not_false_eq_true, ↓reduceIte] at ran
                refine opened_cases read (fun old present => ?_) ran
                rw [found] at present
                exact (Option.some.inj present) ▸ same

/-- What one failed call can do: nothing, write a part of the line behind the active file, or
create a file with a part of the line. -/
inductive Failed (crates : Crates) (recorder : Recorder) (stream line : String) :
    Recorder → Prop where
  | untouched : Failed crates recorder stream line recorder
  | append (active : ActiveArchiveFile) (count : ℕ) :
      recorder.store.active stream = some active →
      Failed crates recorder stream line
        { recorder with
          files := recorder.files.append active.path ((lineBytes line).take count) }
  | start (program : Program) (active : ActiveArchiveFile) (count : ℕ) :
      lineProgram crates line = some (some program) → recorder.files active.path = none →
      Failed crates recorder stream line
        { recorder with
          files := (recorder.files.create active.path).append active.path
            ((lineBytes line).take count) }

theorem appendActive_error {io : IoOutcome} {error : String}
    (ran : recorder.appendActive io stream line = (.error error, after)) :
    Failed crates recorder stream line after := by
  unfold appendActive at ran
  cases found : recorder.store.active stream with
  | none => simp [found] at ran
  | some active =>
      simp only [found, ActiveArchiveFile.writeLine] at ran
      cases written : io.written with
      | none => simp [written] at ran
      | some count =>
          simp only [written] at ran
          cases ran
          exact .append active count found

theorem appendIfSameProgram_error {io : IoOutcome} {program : ProgramKey} {error : String}
    (ran : recorder.appendIfSameProgram io stream program line = (.error error, after)) :
    Failed crates recorder stream line after := by
  unfold appendIfSameProgram at ran
  cases found : recorder.store.active stream with
  | none => simp [found] at ran
  | some active =>
      simp only [found, ActiveArchiveFile.writeLine] at ran
      by_cases other : active.program ≠ program
      · simp [other] at ran
      · simp only [if_neg other] at ran
        cases written : io.written with
        | none => simp [written] at ran
        | some count =>
            simp only [written] at ran
            cases ran
            exact .append active count found

theorem appendIfSameProgram_false {io : IoOutcome} {program : ProgramKey}
    (ran : recorder.appendIfSameProgram io stream program line = (.ok false, after)) :
    after = recorder := by
  unfold appendIfSameProgram at ran
  split at ran
  · cases ran
    rfl
  · split at ran
    · cases ran
      rfl
    · split at ran
      · cases ran
      · cases ran

theorem openArchiveFile_error {io : IoOutcome} {dataDir error : String} {program : Program}
    {files opened : FileSystem}
    (failed : openArchiveFile crates io dataDir stream program now files =
      (.error error, opened)) : opened = files := by
  unfold openArchiveFile at failed
  split at failed
  · cases failed
    rfl
  · dsimp only at failed
    split at failed
    · cases failed
      rfl
    · split at failed
      · cases failed
        rfl
      · cases failed

/-- What a call that fails leaves behind. -/
theorem handleLineAt_error {io : IoOutcome} {error : String}
    (ran : recorder.handleLineAt crates io stream line now = (.error error, after)) :
    Failed crates recorder stream line after := by
  unfold handleLineAt at ran
  cases parsed : crates.serde.fromStr line with
  | none => simp [parsed] at ran
  | some value =>
      simp only [parsed] at ran
      cases eit : programFromEit crates.chrono value with
      | none =>
          simp only [eit] at ran
          split at ran
          · next failed =>
              cases ran
              exact appendActive_error failed
          · cases ran
          · cases ran
      | some program =>
          simp only [eit] at ran
          split at ran
          · next failed =>
              cases ran
              exact appendIfSameProgram_error failed
          · cases ran
          · next other =>
              obtain rfl := appendIfSameProgram_false other
              split at ran
              · next failed =>
                  cases ran
                  rw [openArchiveFile_error failed]
                  exact .untouched
              · next active files opened =>
                  obtain ⟨_, _, free, rfl⟩ := openArchiveFile_ok opened
                  cases written : io.written with
                  | none => simp [ActiveArchiveFile.writeLine, written] at ran
                  | some count =>
                      simp only [ActiveArchiveFile.writeLine, written] at ran
                      cases ran
                      exact .start program active count
                        (by simp [lineProgram, parsed, eit]) free

end Recorder

namespace Sample

/-- The program of `newsLine`, and its file when it starts at the first second of the clock. -/
def news : Program := ⟨⟨none, none, none, some 1, none⟩, "no-title"⟩

def newsPath : String := "data/archive/nhk/2026-07/2026-07-01_12-00-01.no-title.jsonl"

end Sample

end AribcapDb
