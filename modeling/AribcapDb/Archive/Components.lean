import AribcapDb.Archive.Recorder

/-! # Client-supplied path components

The readers check the stream, the month, the recording time and the filename they are given
before they touch the archive. Everything the recorder chooses passes these checks
(`validatePathComponent_of_valid`, `validateMonthComponent_formatMonth`,
`validateRecordingStartedAt_formatStartedAt`, `validateFilenameComponent_archiveFilename`). -/

namespace AribcapDb

/-- `std::io::Error` by its kind. -/
inductive IoError where
  | invalidInput (message : String)
  | notFound (message : String)
  | other (message : String)
  deriving DecidableEq, Repr

/-- `NaiveDate::parse_from_str` with `%Y-%m-%d`, as it reads zero-padded dates. -/
structure DateParser where
  parseDate : String → Option (ℤ × ℕ × ℕ)
  parseDate_padded : ∀ year month day : ℕ, year ≤ 9999 → month < 100 → day < 100 →
    parseDate (String.ofList (writeHundreds (year / 100) ++ writeHundreds (year % 100) ++
        '-' :: writeHundreds month ++ '-' :: writeHundreds day)) =
      if (1 ≤ month ∧ month ≤ 12) ∧ 1 ≤ day ∧ day ≤ daysInMonth year month then
        some ((year : ℤ), month, day)
      else none

def isAsciiDigit (byte : UInt8) : Bool := 48 ≤ byte && byte ≤ 57

/-- `matches_digit_shape`. -/
def matchesDigitShape (input : String) (len : ℕ) (separators : List (ℕ × UInt8)) : Bool :=
  input.utf8ByteSize = len && (utf8Bytes input).zipIdx.all fun (byte, index) =>
    match separators.find? fun separator => separator.1 = index with
    | none => isAsciiDigit byte
    | some separator => byte = separator.2

/-- `is_month_component`. -/
def isMonthComponent (dates : DateParser) (month : String) : Bool :=
  matchesDigitShape month 7 [(4, 45)] && (dates.parseDate (month ++ "-01")).isSome

/-- `validate_path_component`. -/
def validatePathComponent (crate : SanitizeFilename) (component name : String) :
    Except IoError Unit :=
  if component = "" ∨ component = "." ∨ component = ".." ∨ '/' ∈ component.toList ∨
      '\\' ∈ component.toList ∨ component ≠ crate.sanitize component then
    .error (.invalidInput ("invalid " ++ name ++ " path component"))
  else .ok ()

/-- `validate_stream_component`. -/
def validateStreamComponent (crate : SanitizeFilename) (stream : String) : Except IoError Unit :=
  validatePathComponent crate stream "stream"

/-- `validate_filename_component`. -/
def validateFilenameComponent (crate : SanitizeFilename) (filename : String) :
    Except IoError Unit :=
  validatePathComponent crate filename "filename"

/-- `validate_month_component`. -/
def validateMonthComponent (dates : DateParser) (month : String) : Except IoError Unit :=
  if !isMonthComponent dates month then .error (.invalidInput "invalid month path component")
  else .ok ()

/-- `validate_recording_started_at`. -/
def validateRecordingStartedAt (chrono : Chrono) (recordingStartedAt : String) :
    Except IoError Unit :=
  if recordingStartedAt.utf8ByteSize ≠ startedAtLen ∨
      (chrono.parseStartedAt recordingStartedAt).isNone then
    .error (.invalidInput "invalid recording start time")
  else .ok ()

/-- `resolve_archive_file_path`; `symlinkMetadata` is what the system answers about a path. -/
def resolveArchiveFilePath (crate : SanitizeFilename) (dates : DateParser)
    (symlinkMetadata : String → Except IoError Entry) (dataDir stream month filename : String) :
    Except IoError (Option String) := do
  validateStreamComponent crate stream
  validateMonthComponent dates month
  validateFilenameComponent crate filename
  if !".jsonl".toList.isSuffixOf filename.toList then pure none
  else
    let path := join (join (join (archiveRoot dataDir) stream) month) filename
    match symlinkMetadata path with
    | .ok (.file _) => pure (some path)
    | .ok .other => pure none
    | .error (.notFound _) => pure none
    | .error error => throw error

/-- The sizes of the characters of a string make up its size. -/
theorem utf8ByteSize_eq_sum (text : String) :
    text.utf8ByteSize = (text.toList.map Char.utf8Size).sum := by
  have size : text.utf8ByteSize = (utf8Bytes text).length := rfl
  rw [size, utf8Bytes_eq_flatMap, List.length_flatMap]
  simp only [String.length_utf8EncodeChar]

theorem utf8ByteSize_truncateUtf8Bytes_le (input : String) (max : ℕ) :
    (truncateUtf8Bytes input max).utf8ByteSize ≤ max := by
  unfold truncateUtf8Bytes
  split
  · next fits => exact fits
  · rw [utf8ByteSize_eq_sum, String.toList_ofList]
    exact (isLongest_takeBytes max _).within

/-- Sanitizing does not make a name longer. -/
theorem utf8ByteSize_sanitize_le (crate : SanitizeFilename) (input : String) :
    (crate.sanitize input).utf8ByteSize ≤ input.utf8ByteSize := by
  unfold SanitizeFilename.sanitize
  dsimp only
  split
  · exact Nat.zero_le _
  · have kept := (prefix_truncateUtf8Bytes
      (String.ofList (input.toList.filter fun char => !crate.removed char)) 255).sublist
    rw [String.toList_ofList] at kept
    rw [utf8ByteSize_eq_sum, utf8ByteSize_eq_sum]
    exact ((kept.trans List.filter_sublist).map _).sum_le_sum fun _ _ => Nat.zero_le _

/-- A short name of kept characters, one of which is no dot, is sanitized already. -/
theorem sanitize_eq_self {crate : SanitizeFilename} {name : String}
    (kept : ∀ char ∈ name.toList, crate.removed char = false)
    (named : ∃ char ∈ name.toList, char ≠ '.') (short : name.utf8ByteSize ≤ 255) :
    crate.sanitize name = name := by
  have all : name.toList.filter (fun char => !crate.removed char) = name.toList :=
    List.filter_eq_self.mpr fun char member => by rw [kept char member]; rfl
  have dotted : name.toList.all (· = '.') = false := by
    obtain ⟨char, member, other⟩ := named
    rw [Bool.eq_false_iff]
    intro dots
    exact other (by simpa using List.all_eq_true.mp dots char member)
  unfold SanitizeFilename.sanitize
  simp only [all, dotted, Bool.false_eq_true, ↓reduceIte, String.ofList_toList]
  exact if_pos short

/-- Letters, digits and the punctuation of archive file names are not among the removed
characters. -/
def SanitizeFilename.KeepsNames (crate : SanitizeFilename) : Prop :=
  ∀ char : Char, char.isAlphanum = true ∨ char ∈ ['-', '_', '.', '+'] →
    crate.removed char = false

theorem SanitizeFilename.KeepsNames.removed_of_mem {crate : SanitizeFilename}
    (keeps : crate.KeepsNames) {name : String}
    (named : (name.toList.all fun char => char.isAlphanum || "-_.+".toList.contains char) = true) :
    ∀ char ∈ name.toList, crate.removed char = false := by
  intro char member
  have marks : "-_.+".toList = ['-', '_', '.', '+'] := by decide
  have one := List.all_eq_true.mp named char member
  rw [Bool.or_eq_true, marks, List.contains_iff_mem] at one
  exact keeps char one

section Recorded

variable {crates : Crates} {program : Program} {now : NaiveDateTime} {suffix : ℕ}

theorem removed_of_isTimestampChar {crate : SanitizeFilename} (keeps : crate.KeepsNames)
    {char : Char} (timestamp : isTimestampChar char = true) : crate.removed char = false := by
  apply keeps
  simp only [isTimestampChar, Bool.or_eq_true, beq_iff_eq] at timestamp
  rcases timestamp with ((digit | rfl) | rfl) | rfl
  · exact .inl (by simp [Char.isAlphanum, digit])
  all_goals exact .inr (by simp)

theorem removed_of_mem_title {crate : SanitizeFilename} (keeps : crate.KeepsNames)
    {input : String} : ∀ char ∈ (safeComponent crate input "no-title").toList,
      crate.removed char = false := by
  unfold safeComponent
  dsimp only
  split
  · exact keeps.removed_of_mem (by decide)
  · exact fun _ member => removed_of_mem_sanitize crate member

theorem removed_of_mem_collisionSuffix {crate : SanitizeFilename} (keeps : crate.KeepsNames)
    (suffix : ℕ) : ∀ char ∈ (collisionSuffix suffix).toList, crate.removed char = false := by
  unfold collisionSuffix
  split
  · simp
  · intro char member
    rw [String.toList_append, List.mem_append] at member
    rcases member with dot | digit
    · exact keeps.removed_of_mem (by decide) char dot
    · have decimal := Nat.isDigit_of_mem_toDigits (b := 10) (by omega) (by omega)
        (show char ∈ Nat.toDigits 10 suffix by simpa using digit)
      exact keeps char (.inl (by simp [Char.isAlphanum, decimal]))

/-- A recorded filename has no characters that sanitizing removes. -/
theorem removed_of_mem_archiveFilename (keeps : crates.sanitizeFilename.KeepsNames) :
    ∀ char ∈ (archiveFilename crates program now suffix).toList,
      crates.sanitizeFilename.removed char = false := by
  intro char member
  simp only [archiveFilename, filenameStem, String.toList_append, List.mem_append,
    NaiveDateTime.formatStartedAt, String.toList_ofList] at member
  rcases member with (((time | dot) | title) | digits) | ending
  · exact removed_of_isTimestampChar keeps (now.all_startedAtText char time)
  · exact keeps.removed_of_mem (by decide) char dot
  · exact removed_of_mem_title keeps char title
  · exact removed_of_mem_collisionSuffix keeps suffix char digits
  · exact keeps.removed_of_mem (by decide) char ending

theorem utf8ByteSize_formatStartedAt (years : now.HasFourDigitYear) :
    now.formatStartedAt.utf8ByteSize = startedAtLen := by
  have ascii : ∀ char ∈ now.startedAtText, char.utf8Size = 1 := fun char member =>
    utf8Size_of_isTimestampChar (now.all_startedAtText char member)
  rw [NaiveDateTime.formatStartedAt, utf8ByteSize_eq_sum, String.toList_ofList,
    List.map_eq_replicate_iff.mpr ascii, List.sum_replicate, smul_eq_mul, mul_one,
    now.length_startedAtText, NaiveDateTime.length_formatYear_of_range years]
  rfl

theorem utf8ByteSize_title_le (crate : SanitizeFilename) (input : String) :
    (safeComponent crate (truncateUtf8Bytes input 200) "no-title").utf8ByteSize ≤ 200 := by
  unfold safeComponent
  dsimp only
  split
  · decide
  · exact (utf8ByteSize_sanitize_le crate _).trans (utf8ByteSize_truncateUtf8Bytes_le input 200)

theorem utf8ByteSize_repr_le {n : ℕ} (small : n < 2 ^ 32) : (toString n).utf8ByteSize ≤ 10 := by
  have digits : (toString n).toList = Nat.toDigits 10 n := by simp
  have ascii : ∀ char ∈ Nat.toDigits 10 n, char.utf8Size = 1 := by
    intro char member
    have decimal := Nat.isDigit_of_mem_toDigits (b := 10) (by omega) (by omega) member
    exact utf8Size_of_isTimestampChar (by simp [isTimestampChar, decimal])
  have short : (Nat.toDigits 10 n).length ≤ 10 :=
    (Nat.length_toDigits_le_iff (by omega) (by omega)).mpr (by omega)
  rw [utf8ByteSize_eq_sum, digits, List.map_eq_replicate_iff.mpr ascii, List.sum_replicate,
    smul_eq_mul, mul_one]
  exact short

theorem utf8ByteSize_collisionSuffix_le (small : suffix < 2 ^ 32) :
    (collisionSuffix suffix).utf8ByteSize ≤ 11 := by
  unfold collisionSuffix
  split
  · decide
  · have dot : ".".utf8ByteSize = 1 := by decide
    have digits := utf8ByteSize_repr_le small
    rw [String.utf8ByteSize_append]
    omega

/-- A recorded filename fits in the bytes that a sanitized name may have. -/
theorem utf8ByteSize_archiveFilename_le (years : now.HasFourDigitYear) (small : suffix < 2 ^ 32) :
    (archiveFilename crates program now suffix).utf8ByteSize ≤ 255 := by
  have time := utf8ByteSize_formatStartedAt years
  have title := utf8ByteSize_title_le crates.sanitizeFilename program.title
  have digits := utf8ByteSize_collisionSuffix_le small
  have dot : ".".utf8ByteSize = 1 := by decide
  have ending : ".jsonl".utf8ByteSize = 6 := by decide
  have length : startedAtLen = 19 := rfl
  simp only [archiveFilename, filenameStem, String.utf8ByteSize_append]
  omega

/-- A sanitized name is an acceptable path component. -/
theorem validatePathComponent_of_valid {crate : SanitizeFilename} {component : String}
    (valid : ConfigValid crate component) (name : String) :
    validatePathComponent crate component name = .ok () := by
  have entry := valid.safeComponent_eq "stream" ▸
    isEntryName_safeComponent crate ⟨by decide, by decide, by decide⟩ component
  have not_parent : component ≠ ".." := by
    rintro rfl
    have usable := valid.safeComponent_eq "stream"
    simp only [safeComponent, or_true, valid.2, ↓reduceIte] at usable
    exact absurd usable (by decide)
  have no_backslash : '\\' ∉ component.toList := by
    intro member
    rw [← valid.2] at member
    have kept := removed_of_mem_sanitize crate member
    rw [crate.removed_backslash] at kept
    cases kept
  unfold validatePathComponent
  simp only [entry.nonempty, entry.not_dot, not_parent, entry.separator_free, no_backslash,
    valid.2, ne_eq, not_true_eq_false, or_self, ↓reduceIte]

/-- A recorded filename is sanitized already. -/
theorem configValid_archiveFilename (keeps : crates.sanitizeFilename.KeepsNames)
    (years : now.HasFourDigitYear) (small : suffix < 2 ^ 32) :
    ConfigValid crates.sanitizeFilename (archiveFilename crates program now suffix) := by
  refine ⟨(isEntryName_archiveFilename crates program now suffix).nonempty, ?_⟩
  refine sanitize_eq_self (removed_of_mem_archiveFilename keeps) ?_
    (utf8ByteSize_archiveFilename_le years small)
  refine ⟨'j', ?_, by decide⟩
  rw [archiveFilename, String.toList_append, List.mem_append]
  exact .inr (by decide)

theorem validateFilenameComponent_archiveFilename (keeps : crates.sanitizeFilename.KeepsNames)
    (years : now.HasFourDigitYear) (small : suffix < 2 ^ 32) :
    validateFilenameComponent crates.sanitizeFilename
      (archiveFilename crates program now suffix) = .ok () :=
  validatePathComponent_of_valid (configValid_archiveFilename keeps years small) "filename"

/-- The recording start of a filename passes its check. -/
theorem validateRecordingStartedAt_of_parse {chrono : Chrono} {filename recordingStartedAt : String}
    (parsed : parseRecordingStartedAt chrono filename = some recordingStartedAt) :
    validateRecordingStartedAt chrono recordingStartedAt = .ok () := by
  unfold parseRecordingStartedAt at parsed
  split at parsed
  · next before _ split =>
      obtain ⟨time, read, rfl⟩ := Option.map_eq_some_iff.mp parsed
      have size : (String.ofList before).utf8ByteSize = startedAtLen := by
        rw [utf8ByteSize_eq_sum, String.toList_ofList, sum_utf8Size_splitAtByte split]
      simp [validateRecordingStartedAt, size, read]
  · cases parsed

theorem validateRecordingStartedAt_formatStartedAt (chrono : Chrono)
    (years : now.HasFourDigitYear) :
    validateRecordingStartedAt chrono now.formatStartedAt = .ok () := by
  have read := chrono.parseStartedAt_format now years
  have size := utf8ByteSize_formatStartedAt years
  simp only [validateRecordingStartedAt, size, read, ne_eq, not_true_eq_false,
    Option.isNone_some, Bool.false_eq_true, or_self, ↓reduceIte]

theorem utf8EncodeChar_digitChar {n : ℕ} (small : n < 10) :
    ∃ byte, String.utf8EncodeChar (Nat.digitChar n) = [byte] ∧ isAsciiDigit byte = true := by
  interval_cases n <;> exact ⟨_, rfl, rfl⟩

theorem NaiveDateTime.monthText_of_fourDigitYear (years : now.HasFourDigitYear) :
    now.monthText = writeHundreds (now.year.toNat / 100) ++
      writeHundreds (now.year.toNat % 100) ++ '-' :: writeHundreds now.month := by
  have year : formatYear now.year = writeHundreds (now.year.toNat / 100) ++
      writeHundreds (now.year.toNat % 100) := if_pos years
  rw [NaiveDateTime.monthText, year]

theorem matchesDigitShape_formatMonth (years : now.HasFourDigitYear) :
    matchesDigitShape now.formatMonth 7 [(4, 45)] = true := by
  have bounds := years.2
  have month := now.month_valid.2
  obtain ⟨first, firstByte, firstDigit⟩ :=
    utf8EncodeChar_digitChar (show now.year.toNat / 100 / 10 < 10 by omega)
  obtain ⟨second, secondByte, secondDigit⟩ :=
    utf8EncodeChar_digitChar (show now.year.toNat / 100 % 10 < 10 by omega)
  obtain ⟨third, thirdByte, thirdDigit⟩ :=
    utf8EncodeChar_digitChar (show now.year.toNat % 100 / 10 < 10 by omega)
  obtain ⟨fourth, fourthByte, fourthDigit⟩ :=
    utf8EncodeChar_digitChar (show now.year.toNat % 100 % 10 < 10 by omega)
  obtain ⟨tens, tensByte, tensDigit⟩ :=
    utf8EncodeChar_digitChar (show now.month / 10 < 10 by omega)
  obtain ⟨ones, onesByte, onesDigit⟩ :=
    utf8EncodeChar_digitChar (show now.month % 10 < 10 by omega)
  have dash : String.utf8EncodeChar '-' = [45] := rfl
  have bytes : utf8Bytes now.formatMonth = [first, second, third, fourth, 45, tens, ones] := by
    rw [utf8Bytes_eq_flatMap, NaiveDateTime.formatMonth, String.toList_ofList,
      NaiveDateTime.monthText_of_fourDigitYear years]
    simp only [writeHundreds, List.cons_append, List.nil_append, List.flatMap_cons,
      List.flatMap_nil, firstByte, secondByte, thirdByte, fourthByte, tensByte, onesByte, dash]
  have size : now.formatMonth.utf8ByteSize = 7 := congrArg List.length bytes
  unfold matchesDigitShape
  simp [size, bytes, firstDigit, secondDigit, thirdDigit, fourthDigit, tensDigit, onesDigit]

/-- The month directory of a recorded file is a month. -/
theorem validateMonthComponent_formatMonth (dates : DateParser)
    (years : now.HasFourDigitYear) :
    validateMonthComponent dates now.formatMonth = .ok () := by
  have positive := years.1
  have bounds := years.2
  have month := now.month_valid.2
  have first := daysInMonth_pos (now.year.toNat : ℤ) now.month
  have day : "-01".toList = '-' :: writeHundreds 1 := by decide
  have text : now.formatMonth ++ "-01" =
      String.ofList (writeHundreds (now.year.toNat / 100) ++
        writeHundreds (now.year.toNat % 100) ++ '-' :: writeHundreds now.month ++
          '-' :: writeHundreds 1) := by
    rw [← day, String.ofList_append, String.ofList_toList,
      ← NaiveDateTime.monthText_of_fourDigitYear years]
    rfl
  have date : dates.parseDate (now.formatMonth ++ "-01") =
      some ((now.year.toNat : ℤ), now.month, 1) := by
    rw [text, dates.parseDate_padded now.year.toNat now.month 1 (by omega) (by omega) (by omega),
      if_pos ⟨now.month_valid, le_rfl, first⟩]
  simp only [validateMonthComponent, isMonthComponent, matchesDigitShape_formatMonth years, date,
    Option.isSome_some, Bool.and_self, Bool.not_true, Bool.false_eq_true, ↓reduceIte]

/-- The name of an archive file passes every check, and the system is asked for the file. -/
theorem resolveArchiveFilePath_eq {dates : DateParser} {dataDir stream : String}
    {symlinkMetadata : String → Except IoError Entry}
    (keeps : crates.sanitizeFilename.KeepsNames)
    (valid : ConfigValid crates.sanitizeFilename stream) (years : now.HasFourDigitYear)
    (small : suffix < 2 ^ 32) :
    resolveArchiveFilePath crates.sanitizeFilename dates symlinkMetadata dataDir stream
        now.formatMonth (archiveFilename crates program now suffix) =
      match symlinkMetadata (archivePath crates dataDir stream program now suffix) with
      | .ok (.file _) => .ok (some (archivePath crates dataDir stream program now suffix))
      | .ok .other => .ok none
      | .error (.notFound _) => .ok none
      | .error error => .error error := by
  have path : join (join (join (archiveRoot dataDir) stream) now.formatMonth)
      (archiveFilename crates program now suffix) =
        archivePath crates dataDir stream program now suffix := by
    simp only [archivePath, archiveDirectory, valid.safeComponent_eq]
  have ending : ".jsonl".toList.isSuffixOf
      (archiveFilename crates program now suffix).toList = true := by
    rw [List.isSuffixOf_iff_suffix, archiveFilename, String.toList_append]
    exact List.suffix_append _ _
  unfold resolveArchiveFilePath validateStreamComponent
  rw [validatePathComponent_of_valid valid, validateMonthComponent_formatMonth dates years,
    validateFilenameComponent_archiveFilename keeps years small]
  simp only [ending, path]
  rfl

/-- The parts of a recorded path lead back to it. -/
theorem resolveArchiveFilePath_archivePath {dates : DateParser} {dataDir stream : String}
    {symlinkMetadata : String → Except IoError Entry} {content : List UInt8}
    (keeps : crates.sanitizeFilename.KeepsNames)
    (valid : ConfigValid crates.sanitizeFilename stream) (years : now.HasFourDigitYear)
    (small : suffix < 2 ^ 32)
    (present : symlinkMetadata (archivePath crates dataDir stream program now suffix) =
      .ok (.file content)) :
    resolveArchiveFilePath crates.sanitizeFilename dates symlinkMetadata dataDir stream
        now.formatMonth (archiveFilename crates program now suffix) =
      .ok (some (archivePath crates dataDir stream program now suffix)) := by
  rw [resolveArchiveFilePath_eq keeps valid years small, present]

end Recorded

/-! ### Texts by their bytes -/

/-- Where two encoded texts begin alike, so do the texts. -/
theorem char_eq_of_utf8EncodeChar_append {first second : Char} {left right : List UInt8}
    (same : String.utf8EncodeChar first ++ left = String.utf8EncodeChar second ++ right) :
    first = second := by
  have decode (char : Char) (rest : List UInt8) :
      ByteArray.utf8DecodeChar? (String.utf8EncodeChar char ++ rest).toByteArray 0 = some char := by
    rw [List.toByteArray_append]
    exact ByteArray.utf8DecodeChar?_utf8EncodeChar_append
  exact Option.some.inj ((decode first left).symm.trans (same ▸ decode second right))

/-- Bytes that begin with an encoded text encode a text that begins with it. -/
theorem prefix_of_flatMap_utf8EncodeChar {front chars : List Char} {rest : List UInt8}
    (same : chars.flatMap String.utf8EncodeChar = front.flatMap String.utf8EncodeChar ++ rest) :
    ∃ more, chars = front ++ more ∧ more.flatMap String.utf8EncodeChar = rest := by
  induction front generalizing chars with
  | nil => exact ⟨chars, rfl, same⟩
  | cons char front ih =>
      cases chars with
      | nil =>
          have length := congrArg List.length same
          have positive := char.utf8Size_pos
          simp at length
          omega
      | cons first chars =>
          rw [List.flatMap_cons, List.flatMap_cons, List.append_assoc] at same
          obtain rfl := char_eq_of_utf8EncodeChar_append same
          obtain ⟨more, rfl, encoded⟩ := ih (List.append_cancel_left same)
          exact ⟨more, rfl, encoded⟩

/-- A cut takes the characters apart. -/
theorem append_of_splitAtByte {chars before after : List Char} {count : ℕ}
    (split : splitAtByte chars count = some (before, after)) : chars = before ++ after := by
  induction chars generalizing before count with
  | nil =>
      cases count with
      | zero =>
          cases split
          rfl
      | succ count => cases split
  | cons char rest ih =>
      cases count with
      | zero =>
          cases split
          rfl
      | succ count =>
          unfold splitAtByte at split
          split at split
          · obtain ⟨⟨front, back⟩, later, same⟩ := Option.map_eq_some_iff.mp split
            cases same
            rw [ih later, List.cons_append]
          · cases split

/-- Characters are cut where the bytes of the first ones end. -/
theorem splitAtByte_append (before after : List Char) :
    splitAtByte (before ++ after) (before.map Char.utf8Size).sum = some (before, after) := by
  induction before with
  | nil => cases after <;> rfl
  | cons char before ih =>
      have positive := char.utf8Size_pos
      obtain ⟨count, size⟩ : ∃ count, char.utf8Size + (before.map Char.utf8Size).sum = count + 1 :=
        ⟨char.utf8Size + (before.map Char.utf8Size).sum - 1, by omega⟩
      have rest : count + 1 - char.utf8Size = (before.map Char.utf8Size).sum := by omega
      rw [List.map_cons, List.sum_cons, List.cons_append, size, splitAtByte, if_pos (by omega),
        rest, ih, Option.map_some]

theorem length_utf8Bytes (text : String) :
    (utf8Bytes text).length = (text.toList.map Char.utf8Size).sum := utf8ByteSize_eq_sum text

/-- The recording start of a filename by its bytes. -/
theorem parseRecordingStartedAt_eq_some {chrono : Chrono} {filename text : String} :
    parseRecordingStartedAt chrono filename = some text ↔
      utf8Bytes text = (utf8Bytes filename).take startedAtLen ∧
        (utf8Bytes filename)[startedAtLen]? = some 46 ∧
          (chrono.parseStartedAt text).isSome = true := by
  have dot : String.utf8EncodeChar '.' = [46] := rfl
  constructor
  · intro parsed
    unfold parseRecordingStartedAt at parsed
    split at parsed
    · next before after split =>
        obtain ⟨time, read, rfl⟩ := Option.map_eq_some_iff.mp parsed
        have length : (before.flatMap String.utf8EncodeChar).length = startedAtLen := by
          rw [List.length_flatMap, ← sum_utf8Size_splitAtByte split]
          simp only [String.length_utf8EncodeChar]
        have bytes : utf8Bytes filename = before.flatMap String.utf8EncodeChar ++
            46 :: after.flatMap String.utf8EncodeChar := by
          rw [utf8Bytes_eq_flatMap, append_of_splitAtByte split, List.flatMap_append,
            List.flatMap_cons, dot, List.singleton_append]
        rw [bytes, utf8Bytes_eq_flatMap, String.toList_ofList]
        refine ⟨?_, ?_, by rw [read]; rfl⟩
        · rw [← length, List.take_left]
        · rw [← length, List.getElem?_append_right le_rfl, Nat.sub_self]
          rfl
    · cases parsed
  · rintro ⟨bytes, mark, read⟩
    have split : utf8Bytes filename =
        utf8Bytes text ++ 46 :: (utf8Bytes filename).drop (startedAtLen + 1) := by
      obtain ⟨inside, byte⟩ := List.getElem?_eq_some_iff.mp mark
      rw [bytes, ← byte, ← List.drop_eq_getElem_cons inside, List.take_append_drop]
    have length : (text.toList.map Char.utf8Size).sum = startedAtLen := by
      obtain ⟨inside, _⟩ := List.getElem?_eq_some_iff.mp mark
      rw [← length_utf8Bytes, bytes, List.length_take]
      omega
    rw [utf8Bytes_eq_flatMap filename, utf8Bytes_eq_flatMap text] at split
    obtain ⟨more, chars, encoded⟩ := prefix_of_flatMap_utf8EncodeChar split
    have begins : more.flatMap String.utf8EncodeChar = ['.'].flatMap String.utf8EncodeChar ++
        (utf8Bytes filename).drop (startedAtLen + 1) := by
      rw [encoded, utf8Bytes_eq_flatMap filename]
      rfl
    obtain ⟨rest, rfl, _⟩ := prefix_of_flatMap_utf8EncodeChar begins
    obtain ⟨time, parsed⟩ := Option.isSome_iff_exists.mp read
    unfold parseRecordingStartedAt
    rw [chars, ← length, splitAtByte_append]
    simp [parsed]

/-- A character all of whose bytes are ASCII is its only byte. -/
theorem utf8EncodeChar_of_ascii {char : Char}
    (ascii : ∀ byte ∈ String.utf8EncodeChar char, byte.toNat < 128) :
    char.toNat < 128 ∧ String.utf8EncodeChar char = [UInt8.ofNat char.toNat] := by
  have code : char.toNat = char.val.toNat := rfl
  simp only [String.utf8EncodeChar] at ascii ⊢
  split_ifs at ascii ⊢ with one two three
  · exact ⟨by omega, rfl⟩
  all_goals
    have first := ascii _ List.mem_cons_self
    simp only [UInt8.toNat_ofNat'] at first
    omega

/-- A text of ASCII bytes has one character for each of them. -/
theorem utf8Bytes_of_ascii {text : String} (ascii : ∀ byte ∈ utf8Bytes text, byte.toNat < 128) :
    utf8Bytes text = text.toList.map (fun char => UInt8.ofNat char.toNat) ∧
      ∀ char ∈ text.toList, char.toNat < 128 := by
  rw [utf8Bytes_eq_flatMap] at ascii ⊢
  have single : ∀ char ∈ text.toList,
      char.toNat < 128 ∧ String.utf8EncodeChar char = [UInt8.ofNat char.toNat] := by
    intro char member
    apply utf8EncodeChar_of_ascii
    intro byte inside
    exact ascii byte (List.mem_flatMap_of_mem member inside)
  refine ⟨?_, fun char member => (single char member).1⟩
  rw [List.map_eq_flatMap]
  exact List.flatMap_congr fun char member => (single char member).2

/-- A text of a digit shape has its separators and otherwise digits. -/
theorem toList_of_matchesDigitShape {input : String} {len : ℕ} {separators : List (ℕ × UInt8)}
    (ascii : ∀ separator ∈ separators, separator.2.toNat < 128)
    (shaped : matchesDigitShape input len separators = true) :
    input.toList.length = len ∧ ∀ index char, input.toList[index]? = some char →
      match separators.find? fun separator => separator.1 = index with
      | none => char.isDigit = true
      | some separator => char.toNat = separator.2.toNat := by
  simp only [matchesDigitShape, Bool.and_eq_true, decide_eq_true_eq, List.all_eq_true] at shaped
  obtain ⟨size, bytes⟩ := shaped
  have small : ∀ byte ∈ utf8Bytes input, byte.toNat < 128 := by
    intro byte member
    obtain ⟨index, here⟩ := List.getElem?_of_mem member
    have shape := bytes (byte, index) (List.mk_mem_zipIdx_iff_getElem?.mpr here)
    dsimp only at shape
    split at shape
    · simp only [isAsciiDigit, Bool.and_eq_true, decide_eq_true_eq, UInt8.le_iff_toNat_le,
        UInt8.reduceToNat] at shape
      omega
    · next separator found =>
        rw [of_decide_eq_true shape]
        exact ascii separator (List.mem_of_find?_eq_some found)
  obtain ⟨single, codes⟩ := utf8Bytes_of_ascii small
  refine ⟨?_, ?_⟩
  · rw [← size]
    have length : input.utf8ByteSize = (utf8Bytes input).length := rfl
    rw [length, single, List.length_map]
  · intro index char here
    have code := codes char (List.mem_of_getElem? here)
    have byte : (utf8Bytes input)[index]? = some (UInt8.ofNat char.toNat) := by
      rw [single, List.getElem?_map, here, Option.map_some]
    have shape := bytes (UInt8.ofNat char.toNat, index) (List.mk_mem_zipIdx_iff_getElem?.mpr byte)
    have value : (UInt8.ofNat char.toNat).toNat = char.toNat := by
      rw [UInt8.toNat_ofNat']
      omega
    dsimp only at shape
    cases found : separators.find? fun separator => separator.1 = index with
    | none =>
        simp only [found, isAsciiDigit, Bool.and_eq_true, decide_eq_true_eq,
          UInt8.le_iff_toNat_le, UInt8.reduceToNat, value] at shape
        simp only [Char.isDigit, ge_iff_le, Bool.and_eq_true, decide_eq_true_eq,
          UInt32.le_iff_toNat_le]
        exact shape
    | some separator =>
        simp only [found, decide_eq_true_eq] at shape
        exact value.symm.trans (congrArg UInt8.toNat shape)

theorem exists_digitChar {char : Char} (digit : char.isDigit = true) :
    ∃ n < 10, Nat.digitChar n = char := by
  simp only [Char.isDigit, ge_iff_le, Bool.and_eq_true, decide_eq_true_eq,
    UInt32.le_iff_toNat_le] at digit
  have range : 48 ≤ char.toNat ∧ char.toNat ≤ 57 := digit
  have back : Char.ofNat char.toNat = char := Char.ofNat_toNat char
  refine ⟨char.toNat - 48, by omega, ?_⟩
  generalize char.toNat = code at range back ⊢
  subst back
  obtain ⟨low, high⟩ := range
  interval_cases code <;> rfl

/-- Two digits are a number below a hundred. -/
theorem exists_writeHundreds {tens ones : Char} (first : tens.isDigit = true)
    (second : ones.isDigit = true) : ∃ n < 100, writeHundreds n = [tens, ones] := by
  obtain ⟨high, highSmall, rfl⟩ := exists_digitChar first
  obtain ⟨low, lowSmall, rfl⟩ := exists_digitChar second
  refine ⟨high * 10 + low, by omega, ?_⟩
  rw [writeHundreds, show (high * 10 + low) / 10 = high by omega,
    show (high * 10 + low) % 10 = low by omega]

/-- A text in the shape of a date is a year, a month and a day. -/
theorem exists_padded_of_matchesDigitShape {input : String}
    (shaped : matchesDigitShape input 10 [(4, 45), (7, 45)] = true) :
    ∃ year month day : ℕ, year ≤ 9999 ∧ month < 100 ∧ day < 100 ∧
      input = String.ofList (writeHundreds (year / 100) ++ writeHundreds (year % 100) ++
        '-' :: writeHundreds month ++ '-' :: writeHundreds day) := by
  obtain ⟨length, chars⟩ := toList_of_matchesDigitShape (by simp) shaped
  have whole : input = String.ofList input.toList := String.ofList_toList.symm
  generalize input.toList = text at length chars whole
  match text, length with
  | [a, b, c, d, e, f, g, h, i, j], _ =>
      obtain ⟨century, centurySmall, centuryText⟩ :=
        exists_writeHundreds (chars 0 a rfl) (chars 1 b rfl)
      obtain ⟨year, yearSmall, yearText⟩ := exists_writeHundreds (chars 2 c rfl) (chars 3 d rfl)
      obtain ⟨month, monthSmall, monthText⟩ := exists_writeHundreds (chars 5 f rfl) (chars 6 g rfl)
      obtain ⟨day, daySmall, dayText⟩ := exists_writeHundreds (chars 8 i rfl) (chars 9 j rfl)
      obtain rfl : e = '-' := Char.toNat_inj.mp (chars 4 e rfl)
      obtain rfl : h = '-' := Char.toNat_inj.mp (chars 7 h rfl)
      refine ⟨century * 100 + year, month, day, by omega, monthSmall, daySmall, ?_⟩
      rw [whole, show (century * 100 + year) / 100 = century by omega,
        show (century * 100 + year) % 100 = year by omega, centuryText, yearText, monthText,
        dayText]
      rfl
/-! ### Parameters for examples -/

/-- Read a date of exactly the form the readers ask for. -/
def readDate (text : String) : Option (ℤ × ℕ × ℕ) := do
  let (century, rest) ← readHundreds text.toList
  let (year, rest) ← readHundreds rest
  let (month, rest) ← readChar '-' rest >>= readHundreds
  let (day, rest) ← readChar '-' rest >>= readHundreds
  let date : ℤ := (century * 100 + year : ℕ)
  if rest = [] ∧ (1 ≤ month ∧ month ≤ 12) ∧ 1 ≤ day ∧ day ≤ daysInMonth date month then
    some (date, month, day)
  else none

theorem readDate_padded (year month day : ℕ) (four : year ≤ 9999) (monthSmall : month < 100)
    (daySmall : day < 100) :
    readDate (String.ofList (writeHundreds (year / 100) ++ writeHundreds (year % 100) ++
        '-' :: writeHundreds month ++ '-' :: writeHundreds day)) =
      if (1 ≤ month ∧ month ≤ 12) ∧ 1 ≤ day ∧ day ≤ daysInMonth year month then
        some ((year : ℤ), month, day)
      else none := by
  have century : year / 100 < 100 := by omega
  have short : year % 100 < 100 := by omega
  have whole : year / 100 * 100 + year % 100 = year := by omega
  have last := readHundreds_writeHundreds daySmall []
  rw [List.append_nil] at last
  simp only [readDate, String.toList_ofList, List.append_assoc, List.cons_append,
    readHundreds_writeHundreds century, readHundreds_writeHundreds short, readChar, ↓reduceIte,
    readHundreds_writeHundreds monthSmall, last, whole, Option.bind_eq_bind, Option.bind_some,
    true_and]

/-- The dates of exactly the form the readers ask for. -/
def DateParser.padded : DateParser := ⟨readDate, readDate_padded⟩

theorem toNat_of_isAlphanum {char : Char} (letter : char.isAlphanum = true) :
    48 ≤ char.toNat ∧ char.toNat ≤ 122 := by
  simp only [Char.isAlphanum, Char.isAlpha, Char.isUpper, Char.isLower, Char.isDigit,
    Bool.or_eq_true, Bool.and_eq_true, decide_eq_true_eq, ge_iff_le,
    UInt32.le_iff_toNat_le] at letter
  have ranges : ((65 ≤ char.toNat ∧ char.toNat ≤ 90) ∨ (97 ≤ char.toNat ∧ char.toNat ≤ 122)) ∨
      (48 ≤ char.toNat ∧ char.toNat ≤ 57) := letter
  omega

theorem keepsNames_ascii (records : List (String × Value)) (nonempty : records.lookup "" = none) :
    (Crates.ascii records nonempty).sanitizeFilename.KeepsNames := by
  intro char kept
  have ordinary : 0x20 ≤ char.toNat ∧ char.toNat < 0x80 ∧
      "/?<>\\:*|\"".toList.contains char = false := by
    rcases kept with letter | mark
    · have free : "/?<>\\:*|\"".toList.contains char = false := by
        rw [Bool.eq_false_iff, ne_eq, List.contains_iff_mem]
        intro member
        have marks : "/?<>\\:*|\"".toList = ['/', '?', '<', '>', '\\', ':', '*', '|', '"'] := by
          decide
        simp only [marks, List.mem_cons, List.not_mem_nil, or_false] at member
        rcases member with rfl | rfl | rfl | rfl | rfl | rfl | rfl | rfl | rfl <;>
          exact absurd letter (by decide)
      have range := toNat_of_isAlphanum letter
      exact ⟨by omega, by omega, free⟩
    · simp only [List.mem_cons, List.not_mem_nil, or_false] at mark
      rcases mark with rfl | rfl | rfl | rfl <;> decide
  simp only [Crates.ascii, ordinary.2.2, Bool.false_or, Bool.or_eq_false_iff,
    decide_eq_false_iff_not, Bool.and_eq_false_iff]
  omega

end AribcapDb
