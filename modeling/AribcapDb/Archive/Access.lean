import AribcapDb.Archive.Components
import AribcapDb.Foundation.FileTree
import AribcapDb.Foundation.Traced

/-! # Reading the archive for clients

The readers that take a stream, a month and a filename from a client, with the system calls that
they make. What they touch lies below the archive directory, under exactly the names they were
given, and names that could lead anywhere else are refused before the first call
(`client_components_stay_in_archive`). -/

namespace AribcapDb

/-- A system call of a reader. -/
inductive FsCall where
  | symlinkMetadata (path : String)
  | readDir (path : String)
  deriving DecidableEq, Repr

/-- What the system answers: the type of a path, and the entries of a directory. -/
structure FsAnswers where
  symlinkMetadata : String → Except IoError Entry
  readDir : String → Except IoError (List (Except IoError (FileTree.DirEntry (List UInt8))))

namespace FsAnswers

variable (answers : FsAnswers) (crate : SanitizeFilename) (dates : DateParser)

/-- `resolve_archive_file_path`, with its call. -/
def resolveArchiveFilePath (dataDir stream month filename : String) :
    Traced FsCall IoError (Option String) := do
  .lift (validateStreamComponent crate stream)
  .lift (validateMonthComponent dates month)
  .lift (validateFilenameComponent crate filename)
  if !".jsonl".toList.isSuffixOf filename.toList then pure none
  else
    let path := join (join (join (archiveRoot dataDir) stream) month) filename
    match ← .ask (.symlinkMetadata path) (answers.symlinkMetadata path) with
    | .ok (.file _) => pure (some path)
    | .ok .other => pure none
    | .error (.notFound _) => pure none
    | .error error => .lift (.error error)

/-- The loop of `read_dir_names`, which ends at the first entry that cannot be read. -/
def dirNames (wanted : FileTree.DirEntry (List UInt8) → Bool) :
    List (Except IoError (FileTree.DirEntry (List UInt8))) → Except IoError (List String)
  | [] => .ok []
  | .error error :: _ => .error error
  | .ok entry :: more => do
      let names ← dirNames wanted more
      if wanted entry then pure (fromUtf8Lossy entry.name :: names) else pure names

/-- `read_dir_names`. -/
def readDirNames (path : String) (wanted : FileTree.DirEntry (List UInt8) → Bool) :
    Traced FsCall IoError (List String) := do
  match ← .ask (.readDir path) (answers.readDir path) with
  | .error (.notFound _) => pure []
  | .error error => .lift (.error error)
  | .ok entries =>
      let names ← .lift (dirNames wanted entries)
      pure (names.insertionSort (· ≤ ·))

/-- `entry.file_type().is_ok_and(|file_type| file_type.is_dir())`. -/
def isDir (entry : FileTree.DirEntry (List UInt8)) : Bool :=
  entry.kind.toOption = some .directory

/-- `list_streams`. -/
def listStreams (dataDir : String) : Traced FsCall IoError (List String) :=
  answers.readDirNames (archiveRoot dataDir) isDir

/-- `list_months`. -/
def listMonths (dataDir stream : String) : Traced FsCall IoError (List String) := do
  .lift (validateStreamComponent crate stream)
  answers.readDirNames (join (archiveRoot dataDir) stream) fun entry =>
    isDir entry && isMonthComponent dates (fromUtf8Lossy entry.name)

/-- Without its call the reader is the one that the query service uses. -/
theorem result_resolveArchiveFilePath (dataDir stream month filename : String) :
    (answers.resolveArchiveFilePath crate dates dataDir stream month filename).result =
      AribcapDb.resolveArchiveFilePath crate dates answers.symlinkMetadata dataDir stream month
        filename := by
  unfold resolveArchiveFilePath AribcapDb.resolveArchiveFilePath
  rw [Traced.result_bind, Traced.result_lift]
  refine congrArg _ (funext fun _ => ?_)
  rw [Traced.result_bind, Traced.result_lift]
  refine congrArg _ (funext fun _ => ?_)
  rw [Traced.result_bind, Traced.result_lift]
  refine congrArg _ (funext fun _ => ?_)
  split
  · rfl
  · rw [Traced.result_ask_bind]
    dsimp only
    cases answers.symlinkMetadata (join (join (join (archiveRoot dataDir) stream) month) filename)
      with
    | ok entry => cases entry <;> rfl
    | error error => cases error <;> rfl

/-- Reading the names of a directory opens that directory and no other. -/
theorem calls_readDirNames (path : String) (wanted : FileTree.DirEntry (List UInt8) → Bool) :
    (answers.readDirNames path wanted).calls = [.readDir path] := by
  unfold readDirNames
  rw [Traced.calls_ask_bind]
  split
  · rfl
  · rfl
  · next entries _ =>
      cases dirNames wanted entries <;> rfl

end FsAnswers

/-! ### Components that stay below their directory -/

/-- The control characters that the crate removes, at least the ones of its documentation. -/
structure ControlCharacters (crate : SanitizeFilename) where
  control : Char → Bool
  isControl : ∀ char, control char = true → isControl char = true
  removed : ∀ char, control char = true → crate.removed char = true

/-- The documented class: both blocks of control codes. -/
def ControlCharacters.documented (crate : SanitizeFilename) : ControlCharacters crate where
  control char := char.toNat < 0x20 || (0x80 ≤ char.toNat && char.toNat ≤ 0x9F)
  isControl char coded := by
    simp only [AribcapDb.isControl, Bool.or_eq_true, Bool.and_eq_true, decide_eq_true_eq] at coded ⊢
    omega
  removed char coded := by
    apply crate.removed_control
    simpa only [Bool.or_eq_true, Bool.and_eq_true, decide_eq_true_eq] using coded

/-- All control characters, where the crate removes the one between the blocks as well. -/
def ControlCharacters.whole {crate : SanitizeFilename} (delete : crate.removed '\x7F' = true) :
    ControlCharacters crate where
  control := AribcapDb.isControl
  isControl _ coded := coded
  removed char coded := by
    simp only [AribcapDb.isControl, Bool.or_eq_true, Bool.and_eq_true, decide_eq_true_eq] at coded
    by_cases between : char = '\x7F'
    · rw [between]
      exact delete
    · have other : char.toNat ≠ 0x7F := fun same => between (Char.toNat_inj.mp same)
      apply crate.removed_control
      omega

/-- A component that names an entry of the directory it is joined to, and nothing else. -/
structure SafeComponent (control : Char → Bool) (component : String) : Prop where
  nonempty : component ≠ ""
  not_dot : component ≠ "."
  not_parent : component ≠ ".."
  separator_free : '/' ∉ component.toList
  backslash_free : '\\' ∉ component.toList
  control_free : ∀ char ∈ component.toList, control char = false

theorem SafeComponent.isEntryName {control : Char → Bool} {component : String}
    (safe : SafeComponent control component) : IsEntryName component :=
  ⟨safe.nonempty, safe.not_dot, safe.separator_free⟩

/-- A calendar month as it is written in a path. -/
def IsMonth (month : String) : Prop :=
  ∃ year number : ℕ, year ≤ 9999 ∧ 1 ≤ number ∧ number ≤ 12 ∧
    month = String.ofList (writeHundreds (year / 100) ++ writeHundreds (year % 100) ++
      '-' :: writeHundreds number)

section Checks

variable {crate : SanitizeFilename} {dates : DateParser} {component month : String}

/-- A component that passes the check is safe. -/
theorem safeComponent_of_validatePathComponent (controls : ControlCharacters crate) {name : String}
    (accepted : validatePathComponent crate component name = .ok ()) :
    SafeComponent controls.control component := by
  unfold validatePathComponent at accepted
  split at accepted
  · cases accepted
  · next passed =>
      push Not at passed
      obtain ⟨nonempty, not_dot, not_parent, separator_free, backslash_free, sanitized⟩ := passed
      refine ⟨nonempty, not_dot, not_parent, separator_free, backslash_free, ?_⟩
      intro char member
      rw [sanitized] at member
      have kept := removed_of_mem_sanitize crate member
      rw [Bool.eq_false_iff]
      intro coded
      rw [controls.removed char coded] at kept
      cases kept

theorem exists_invalidInput_of_validatePathComponent {name : String} {error : IoError}
    (refused : validatePathComponent crate component name = .error error) :
    ∃ message, error = .invalidInput message := by
  unfold validatePathComponent at refused
  split at refused
  · obtain rfl := Except.error.inj refused
    exact ⟨_, rfl⟩
  · cases refused

/-- A text in the shape of a month is a year and a number. -/
theorem exists_month_of_matchesDigitShape
    (shaped : matchesDigitShape month 7 [(4, 45)] = true) :
    ∃ year number : ℕ, year ≤ 9999 ∧ number < 100 ∧
      month = String.ofList (writeHundreds (year / 100) ++ writeHundreds (year % 100) ++
        '-' :: writeHundreds number) := by
  obtain ⟨length, chars⟩ := toList_of_matchesDigitShape (by simp) shaped
  have whole : month = String.ofList month.toList := String.ofList_toList.symm
  generalize month.toList = text at length chars whole
  match text, length with
  | [a, b, c, d, e, f, g], _ =>
      obtain ⟨century, centurySmall, centuryText⟩ :=
        exists_writeHundreds (chars 0 a rfl) (chars 1 b rfl)
      obtain ⟨year, yearSmall, yearText⟩ := exists_writeHundreds (chars 2 c rfl) (chars 3 d rfl)
      obtain ⟨number, small, numberText⟩ := exists_writeHundreds (chars 5 f rfl) (chars 6 g rfl)
      obtain rfl : e = '-' := Char.toNat_inj.mp (chars 4 e rfl)
      have high : (century * 100 + year) / 100 = century := by omega
      have low : (century * 100 + year) % 100 = year := by omega
      refine ⟨century * 100 + year, number, by omega, small, ?_⟩
      rw [whole, high, low, centuryText, yearText, numberText]
      rfl

/-- A component that passes the check is a month of the calendar. -/
theorem isMonth_of_isMonthComponent (accepted : isMonthComponent dates month = true) :
    IsMonth month := by
  rw [isMonthComponent, Bool.and_eq_true] at accepted
  obtain ⟨shaped, real⟩ := accepted
  obtain ⟨year, number, four, small, rfl⟩ := exists_month_of_matchesDigitShape shaped
  have day : "-01" = String.ofList ('-' :: writeHundreds 1) := by decide
  rw [day, ← String.ofList_append,
    dates.parseDate_padded year number 1 four small (by omega)] at real
  split at real
  · next valid => exact ⟨year, number, four, valid.1.1, valid.1.2, rfl⟩
  · cases real

theorem isMonth_of_validateMonthComponent
    (accepted : validateMonthComponent dates month = .ok ()) : IsMonth month := by
  unfold validateMonthComponent at accepted
  split at accepted
  · cases accepted
  · next passed =>
      rw [Bool.not_eq_true, Bool.not_eq_false'] at passed
      exact isMonth_of_isMonthComponent passed

theorem exists_invalidInput_of_validateMonthComponent {error : IoError}
    (refused : validateMonthComponent dates month = .error error) :
    ∃ message, error = .invalidInput message := by
  unfold validateMonthComponent at refused
  split at refused
  · obtain rfl := Except.error.inj refused
    exact ⟨_, rfl⟩
  · cases refused

theorem isControl_of_isTimestampChar {char : Char} (timestamp : isTimestampChar char = true) :
    isControl char = false := by
  simp only [isTimestampChar, Char.isDigit, Bool.or_eq_true, Bool.and_eq_true, decide_eq_true_eq,
    beq_iff_eq, ge_iff_le, UInt32.le_iff_toNat_le] at timestamp
  rcases timestamp with ((digit | rfl) | rfl) | rfl
  · have range : 48 ≤ char.toNat ∧ char.toNat ≤ 57 := digit
    simp only [isControl, Bool.or_eq_false_iff, Bool.and_eq_false_iff, decide_eq_false_iff_not]
    omega
  all_goals rfl

/-- A month is made of digits and a dash. -/
theorem IsMonth.safeComponent {control : Char → Bool}
    (codes : ∀ char, control char = true → isControl char = true) (calendar : IsMonth month) :
    SafeComponent control month := by
  obtain ⟨year, number, four, _, twelve, rfl⟩ := calendar
  have century := all_writeHundreds (show year / 100 < 100 by omega)
  have short := all_writeHundreds (show year % 100 < 100 by omega)
  have digits := all_writeHundreds (show number < 100 by omega)
  have timestamp : ∀ char ∈ writeHundreds (year / 100) ++ writeHundreds (year % 100) ++
      '-' :: writeHundreds number, isTimestampChar char = true := by
    intro char member
    simp only [List.mem_append, List.mem_cons] at member
    rcases member with (inside | inside) | rfl | inside
    · exact century char inside
    · exact short char inside
    · rfl
    · exact digits char inside
  have different {other : String} (length : other.toList.length ≠ 7) :
      String.ofList (writeHundreds (year / 100) ++ writeHundreds (year % 100) ++
        '-' :: writeHundreds number) ≠ other := by
    intro same
    apply length
    rw [← same, String.toList_ofList]
    rfl
  refine ⟨different (by decide), different (by decide), different (by decide), ?_, ?_, ?_⟩
  · rw [String.toList_ofList]
    intro member
    cases timestamp '/' member
  · rw [String.toList_ofList]
    intro member
    cases timestamp '\\' member
  · rw [String.toList_ofList]
    intro char member
    rw [Bool.eq_false_iff]
    intro coded
    have plain := isControl_of_isTimestampChar (timestamp char member)
    rw [codes char coded] at plain
    cases plain

end Checks

/-- A path of the archive that leads, through exactly the given names, to a regular file. -/
structure WithinArchive (answers : FsAnswers) (control : Char → Bool)
    (dataDir stream month filename path : String) : Prop where
  parts : components path = components (archiveRoot dataDir) ++ [stream, month, filename]
  streamSafe : SafeComponent control stream
  monthSafe : SafeComponent control month
  calendar : IsMonth month
  filenameSafe : SafeComponent control filename
  regular : ∃ content, answers.symlinkMetadata path = .ok (.file content)
  jsonl : ".jsonl".toList <:+ filename.toList

namespace FsAnswers

variable {answers : FsAnswers} {crate : SanitizeFilename} {dates : DateParser}
  {dataDir stream month filename path : String}

/-- A path that is found stays in the archive. -/
theorem withinArchive_of_resolve (controls : ControlCharacters crate)
    (found : (answers.resolveArchiveFilePath crate dates dataDir stream month filename).result =
      .ok (some path)) :
    WithinArchive answers controls.control dataDir stream month filename path := by
  rw [result_resolveArchiveFilePath] at found
  obtain ⟨_, streamValid, found⟩ := exists_ok_of_bind found
  obtain ⟨_, monthValid, found⟩ := exists_ok_of_bind found
  obtain ⟨_, filenameValid, found⟩ := exists_ok_of_bind found
  have streamSafe := safeComponent_of_validatePathComponent controls streamValid
  have calendar := isMonth_of_validateMonthComponent monthValid
  have monthSafe := calendar.safeComponent controls.isControl
  have filenameSafe := safeComponent_of_validatePathComponent controls filenameValid
  have joined : components (join (join (join (archiveRoot dataDir) stream) month) filename) =
      components (archiveRoot dataDir) ++ [stream, month, filename] := by
    rw [components_join _ filenameSafe.isEntryName, components_join _ monthSafe.isEntryName,
      components_join _ streamSafe.isEntryName, List.append_assoc, List.append_assoc]
    rfl
  split at found
  · cases found
  · next ending =>
      rw [Bool.not_eq_true, Bool.not_eq_false'] at ending
      dsimp only at found
      split at found
      · next content regular =>
          obtain rfl := Option.some.inj (Except.ok.inj found)
          exact ⟨joined, streamSafe, monthSafe, calendar, filenameSafe, ⟨content, regular⟩,
            List.isSuffixOf_iff_suffix.mp ending⟩
      all_goals cases found

/-- A component that is not safe, or a month that is none, is refused before the first call. -/
theorem resolve_of_improper (controls : ControlCharacters crate)
    (improper : ¬ (SafeComponent controls.control stream ∧ IsMonth month ∧
      SafeComponent controls.control filename)) :
    ∃ message, answers.resolveArchiveFilePath crate dates dataDir stream month filename =
      .lift (.error (.invalidInput message)) := by
  unfold resolveArchiveFilePath
  cases streamChecked : validateStreamComponent crate stream with
  | error error =>
      obtain ⟨message, rfl⟩ := exists_invalidInput_of_validatePathComponent streamChecked
      exact ⟨message, Traced.lift_error_bind _ _⟩
  | ok _ =>
      rw [Traced.lift_ok_bind]
      cases monthChecked : validateMonthComponent dates month with
      | error error =>
          obtain ⟨message, rfl⟩ := exists_invalidInput_of_validateMonthComponent monthChecked
          exact ⟨message, Traced.lift_error_bind _ _⟩
      | ok _ =>
          rw [Traced.lift_ok_bind]
          cases filenameChecked : validateFilenameComponent crate filename with
          | error error =>
              obtain ⟨message, rfl⟩ :=
                exists_invalidInput_of_validatePathComponent filenameChecked
              exact ⟨message, Traced.lift_error_bind _ _⟩
          | ok _ =>
              apply absurd _ improper
              exact ⟨safeComponent_of_validatePathComponent controls streamChecked,
                isMonth_of_validateMonthComponent monthChecked,
                safeComponent_of_validatePathComponent controls filenameChecked⟩

/-- Months that are listed are those of one stream directory. -/
theorem calls_listMonths (controls : ControlCharacters crate) {names : List String}
    (listed : (answers.listMonths crate dates dataDir stream).result = .ok names) :
    SafeComponent controls.control stream ∧
      (answers.listMonths crate dates dataDir stream).calls =
        [.readDir (join (archiveRoot dataDir) stream)] := by
  unfold listMonths at listed ⊢
  cases checked : validateStreamComponent crate stream with
  | error error =>
      rw [checked, Traced.lift_error_bind] at listed
      cases listed
  | ok _ =>
      rw [Traced.lift_ok_bind, calls_readDirNames]
      exact ⟨safeComponent_of_validatePathComponent controls checked, rfl⟩

theorem listMonths_of_improper (controls : ControlCharacters crate)
    (improper : ¬ SafeComponent controls.control stream) :
    ∃ message, answers.listMonths crate dates dataDir stream =
      .lift (.error (.invalidInput message)) := by
  unfold listMonths
  cases checked : validateStreamComponent crate stream with
  | error error =>
      obtain ⟨message, rfl⟩ := exists_invalidInput_of_validatePathComponent checked
      exact ⟨message, Traced.lift_error_bind _ _⟩
  | ok _ => exact absurd (safeComponent_of_validatePathComponent controls checked) improper

/-- Whatever a client sends and whatever the system answers: a file that is found lies in the
archive under exactly the given names, a listing has read the directory of the stream and nothing
else, and names that are not safe are refused before any call. -/
theorem client_components_stay_in_archive (answers : FsAnswers) {crate : SanitizeFilename}
    (controls : ControlCharacters crate) (dates : DateParser)
    (dataDir stream month filename : String) :
    (∀ path, (answers.resolveArchiveFilePath crate dates dataDir stream month filename).result =
        .ok (some path) →
      WithinArchive answers controls.control dataDir stream month filename path) ∧
    (∀ names, (answers.listMonths crate dates dataDir stream).result = .ok names →
      SafeComponent controls.control stream ∧
        (answers.listMonths crate dates dataDir stream).calls =
          [.readDir (join (archiveRoot dataDir) stream)] ∧
        components (join (archiveRoot dataDir) stream) =
          components (archiveRoot dataDir) ++ [stream]) ∧
    (¬ SafeComponent controls.control stream ∨ ¬ SafeComponent controls.control month ∨
        ¬ IsMonth month ∨ ¬ SafeComponent controls.control filename →
      ∃ message, answers.resolveArchiveFilePath crate dates dataDir stream month filename =
        ⟨[], .error (.invalidInput message)⟩) ∧
    (¬ SafeComponent controls.control stream →
      ∃ message, answers.listMonths crate dates dataDir stream =
        ⟨[], .error (.invalidInput message)⟩) := by
  refine ⟨?_, ?_, ?_, ?_⟩
  · intro path found
    exact withinArchive_of_resolve controls found
  · intro names listed
    obtain ⟨safe, calls⟩ := calls_listMonths controls listed
    exact ⟨safe, calls, components_join _ safe.isEntryName⟩
  · intro improper
    apply resolve_of_improper controls
    intro proper
    have monthSafe := proper.2.1.safeComponent controls.isControl
    tauto
  · intro improper
    exact listMonths_of_improper controls improper

end FsAnswers

namespace Sample

def morningNewsPath : String := "data/archive/nhk/2026-07/news.jsonl"

/-- One recording in one month. -/
def oneRecording : FsAnswers where
  symlinkMetadata path := if path = morningNewsPath then .ok (.file []) else .error (.notFound path)
  readDir path :=
    if path = "data/archive/nhk" then .ok [.ok ⟨utf8Bytes "2026-07", .ok .directory⟩]
    else .error (.notFound path)

theorem resolve_news : (oneRecording.resolveArchiveFilePath crates.sanitizeFilename .padded "data"
    "nhk" "2026-07" "news.jsonl").result = .ok (some morningNewsPath) := by
  apply eq_ok_of_toOption
  decide +kernel

theorem list_nhk : (oneRecording.listMonths crates.sanitizeFilename .padded "data" "nhk").result =
    .ok ["2026-07"] := by
  apply eq_ok_of_toOption
  decide +kernel

end Sample

theorem FsAnswers.client_components_stay_in_archive_sample :
    WithinArchive Sample.oneRecording
        (ControlCharacters.documented Sample.crates.sanitizeFilename).control "data" "nhk"
        "2026-07" "news.jsonl" Sample.morningNewsPath ∧
      (Sample.oneRecording.listMonths Sample.crates.sanitizeFilename .padded "data" "nhk").calls =
        [.readDir (join (archiveRoot "data") "nhk")] ∧
      ∃ message, Sample.oneRecording.listMonths Sample.crates.sanitizeFilename .padded "data" ".." =
        ⟨[], .error (.invalidInput message)⟩ := by
  obtain ⟨found, listed, _, _⟩ := client_components_stay_in_archive Sample.oneRecording
    (ControlCharacters.documented Sample.crates.sanitizeFilename) .padded "data" "nhk" "2026-07"
    "news.jsonl"
  obtain ⟨_, _, _, refused⟩ := client_components_stay_in_archive Sample.oneRecording
    (ControlCharacters.documented Sample.crates.sanitizeFilename) .padded "data" ".." "2026-07"
    "news.jsonl"
  refine ⟨found _ Sample.resolve_news, (listed _ Sample.list_nhk).2.1, refused ?_⟩
  intro safe
  exact safe.not_parent rfl

end AribcapDb
