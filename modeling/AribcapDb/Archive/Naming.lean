import AribcapDb.Archive.Store

/-! # Archive file names

The recorder builds a path from the stream, the clock and the program title; the indexer, the
retention scan and the readers take it apart again. Both directions are here, with the theorems
that they fit (`streamMonthFilename_archivePath`, `parseRecordingStartedAt_archiveFilename`,
`extension_archivePath`). -/

namespace AribcapDb

/-- The name of a new archive file without its collision suffix and extension. -/
def filenameStem (crates : Crates) (program : Program) (now : NaiveDateTime) : String :=
  let title :=
    safeComponent crates.sanitizeFilename (truncateUtf8Bytes program.title 200) "no-title"
  now.formatStartedAt ++ "." ++ title

def collisionSuffix (suffix : ℕ) : String := if suffix = 0 then "" else "." ++ toString suffix

def archiveFilename (crates : Crates) (program : Program) (now : NaiveDateTime) (suffix : ℕ) :
    String :=
  filenameStem crates program now ++ collisionSuffix suffix ++ ".jsonl"

/-- The month directory of a new archive file. -/
def archiveDirectory (crates : Crates) (dataDir stream : String) (now : NaiveDateTime) :
    String :=
  let stream := safeComponent crates.sanitizeFilename stream "stream"
  join (join (archiveRoot dataDir) stream) now.formatMonth

/-- The path tried for a new archive file with a collision suffix. -/
def archivePath (crates : Crates) (dataDir stream : String) (program : Program)
    (now : NaiveDateTime) (suffix : ℕ) : String :=
  join (archiveDirectory crates dataDir stream now) (archiveFilename crates program now suffix)

/-- `stream_month_filename`. -/
def streamMonthFilename (archiveRoot path : String) : Option (String × String × String) :=
  match (components archiveRoot).isPrefixOf? (components path) with
  | some [stream, month, filename] => some (stream, month, filename)
  | _ => none

theorem isPrefixOf?_append {α : Type*} [BEq α] [ReflBEq α] (front rest : List α) :
    front.isPrefixOf? (front ++ rest) = some rest := by
  induction front with
  | nil => cases rest <;> rfl
  | cons a front ih => simp only [List.cons_append, List.isPrefixOf?, BEq.rfl, ↓reduceIte, ih]

theorem isEntryName_formatMonth (now : NaiveDateTime) : IsEntryName now.formatMonth := by
  have long : 1 < now.monthText.length := by
    simp only [NaiveDateTime.monthText, List.length_append, List.length_cons, writeHundreds]
    omega
  have back : now.formatMonth.toList = now.monthText := String.toList_ofList
  refine ⟨?_, ?_, ?_⟩
  · intro empty
    rw [← back, empty] at long
    exact absurd long (by decide)
  · intro dot
    rw [← back, dot] at long
    exact absurd long (by decide)
  · rw [back]
    intro separator
    exact absurd (now.all_monthText _ separator) (by decide)

/-- The characters of an archive file name, up to its first dot and after it. -/
theorem toList_archiveFilename (crates : Crates) (program : Program) (now : NaiveDateTime)
    (suffix : ℕ) :
    ∃ rest, (archiveFilename crates program now suffix).toList =
        now.startedAtText ++ '.' :: rest ++ ".jsonl".toList ∧ '/' ∉ rest := by
  have title : IsEntryName (safeComponent crates.sanitizeFilename
      (truncateUtf8Bytes program.title 200) "no-title") :=
    isEntryName_safeComponent _ ⟨by decide, by decide, by decide⟩ _
  have digits : '/' ∉ (collisionSuffix suffix).toList := by
    unfold collisionSuffix
    split
    · simp
    · intro separator
      simp only [String.toList_append, List.mem_append] at separator
      rcases separator with dot | digit
      · exact absurd dot (by decide)
      · have decimal := Nat.isDigit_of_mem_toDigits (b := 10) (by omega) (by omega)
          (show '/' ∈ Nat.toDigits 10 suffix by simpa using digit)
        exact absurd decimal (by decide)
  refine ⟨(safeComponent crates.sanitizeFilename (truncateUtf8Bytes program.title 200)
      "no-title").toList ++ (collisionSuffix suffix).toList, ?_, ?_⟩
  · have dot : ".".toList = ['.'] := by decide
    simp only [archiveFilename, filenameStem, NaiveDateTime.formatStartedAt,
      String.toList_append, String.toList_ofList, dot, List.append_assoc, List.cons_append,
      List.nil_append]
  · rw [List.mem_append]
    exact not_or.mpr ⟨title.separator_free, digits⟩

theorem isEntryName_archiveFilename (crates : Crates) (program : Program) (now : NaiveDateTime)
    (suffix : ℕ) : IsEntryName (archiveFilename crates program now suffix) := by
  obtain ⟨rest, split, free⟩ := toList_archiveFilename crates program now suffix
  have long : 6 < (archiveFilename crates program now suffix).toList.length := by
    have extensionLength : ".jsonl".toList.length = 6 := by decide
    rw [split, List.length_append, List.length_append, List.length_cons, extensionLength]
    omega
  refine ⟨?_, ?_, ?_⟩
  · intro empty
    rw [empty] at long
    exact absurd long (by decide)
  · intro dot
    rw [dot] at long
    exact absurd long (by decide)
  · rw [split]
    intro separator
    simp only [List.append_assoc, List.cons_append, List.mem_append, List.mem_cons] at separator
    rcases separator with time | dot | middle | ending
    · exact absurd (now.all_startedAtText _ time) (by decide)
    · exact absurd dot (by decide)
    · exact free middle
    · exact absurd ending (by decide)

theorem components_archivePath (crates : Crates) (dataDir stream : String) (program : Program)
    (now : NaiveDateTime) (suffix : ℕ) :
    components (archivePath crates dataDir stream program now suffix) =
      components (archiveRoot dataDir) ++
        [safeComponent crates.sanitizeFilename stream "stream", now.formatMonth,
          archiveFilename crates program now suffix] := by
  have directory : IsEntryName (safeComponent crates.sanitizeFilename stream "stream") :=
    isEntryName_safeComponent _ ⟨by decide, by decide, by decide⟩ _
  simp only [archivePath, archiveDirectory,
    components_join _ (isEntryName_archiveFilename crates program now suffix),
    components_join _ (isEntryName_formatMonth now), components_join _ directory,
    List.append_assoc, List.cons_append, List.nil_append]

/-- The indexer reads back the stream, the month and the filename of a recorded file. -/
theorem streamMonthFilename_archivePath (crates : Crates) (dataDir stream : String)
    (program : Program) (now : NaiveDateTime) (suffix : ℕ) :
    streamMonthFilename (archiveRoot dataDir)
        (archivePath crates dataDir stream program now suffix) =
      some (safeComponent crates.sanitizeFilename stream "stream", now.formatMonth,
        archiveFilename crates program now suffix) := by
  simp only [streamMonthFilename, components_archivePath, isPrefixOf?_append]

theorem fileName_archivePath (crates : Crates) (dataDir stream : String) (program : Program)
    (now : NaiveDateTime) (suffix : ℕ) :
    fileName (archivePath crates dataDir stream program now suffix) =
      some (archiveFilename crates program now suffix) := by
  have entry := isEntryName_archiveFilename crates program now suffix
  have not_root : archiveFilename crates program now suffix ≠ "/" := by
    intro root
    exact entry.separator_free (root ▸ by decide)
  have not_parent : archiveFilename crates program now suffix ≠ ".." := by
    obtain ⟨rest, split, _⟩ := toList_archiveFilename crates program now suffix
    intro parent
    have long := congrArg List.length split
    have extensionLength : ".jsonl".toList.length = 6 := by decide
    have parentLength : "..".toList.length = 2 := by decide
    rw [parent, List.length_append, List.length_append, extensionLength, parentLength] at long
    omega
  simp only [fileName, components_archivePath]
  simp [not_root, not_parent, entry.not_dot]

/-- The startup scan recognizes every recorded file by its extension. -/
theorem extension_archivePath (crates : Crates) (dataDir stream : String) (program : Program)
    (now : NaiveDateTime) (suffix : ℕ) :
    extension (archivePath crates dataDir stream program now suffix) = some "jsonl" := by
  obtain ⟨rest, split, _⟩ := toList_archiveFilename crates program now suffix
  have reversed : (archiveFilename crates program now suffix).toList.reverse =
      "lnosj".toList ++ '.' :: (now.startedAtText ++ '.' :: rest).reverse := by
    have ending : ".jsonl".toList.reverse = "lnosj".toList ++ ['.'] := by decide
    rw [split, List.reverse_append, ending, List.append_assoc, List.singleton_append]
  have front : (now.startedAtText ++ '.' :: rest).reverse ≠ [] := by simp
  obtain ⟨char, more, nonempty⟩ := List.exists_cons_of_ne_nil front
  have letters : "lnosj".toList = ['l', 'n', 'o', 's', 'j'] := by decide
  simp only [extension, fileName_archivePath, Option.bind_eq_bind, Option.bind_some, reversed,
    nonempty, letters]
  rfl

/-- The recording start of a recorded file is the clock reading that opened it. -/
theorem parseRecordingStartedAt_archiveFilename (crates : Crates) (program : Program)
    {now : NaiveDateTime} (years : now.HasFourDigitYear) (suffix : ℕ) :
    parseRecordingStartedAt crates.chrono (archiveFilename crates program now suffix) =
      some now.formatStartedAt := by
  obtain ⟨rest, split, _⟩ := toList_archiveFilename crates program now suffix
  rw [← String.ofList_toList (s := archiveFilename crates program now suffix), split,
    List.append_assoc, List.cons_append]
  exact parseRecordingStartedAt_of_fourDigitYear crates.chrono years _

/-- A file opened in a year that `%Y` does not write with four digits has no recording start. -/
theorem parseRecordingStartedAt_archiveFilename_of_not (crates : Crates) (program : Program)
    {now : NaiveDateTime} (years : ¬ now.HasFourDigitYear) (suffix : ℕ) :
    parseRecordingStartedAt crates.chrono (archiveFilename crates program now suffix) =
      none := by
  obtain ⟨rest, split, _⟩ := toList_archiveFilename crates program now suffix
  rw [← String.ofList_toList (s := archiveFilename crates program now suffix), split,
    List.append_assoc, List.cons_append]
  exact parseRecordingStartedAt_of_not_fourDigitYear crates.chrono years _

end AribcapDb
