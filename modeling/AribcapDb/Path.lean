import AribcapDb.Clock
import AribcapDb.Foundation.Greedy

/-! # Paths and filenames

Paths are the strings the operating system is given, with the component view of
`std::path::Path`. An archive path is the archive root joined with a stream, a month and a
filename; splitting it gives the three parts back (`components_join`), and the timestamp at
the start of the filename is read back as it was written
(`parseRecordingStartedAt_of_fourDigitYear`). -/

namespace AribcapDb

/-- What stands between the separators of a path. -/
def pathParts (chars : List Char) : List String := (chars.splitOn '/').map String.ofList

/-- The root or current-directory component at the front of a path. -/
def pathFront (chars : List Char) : List String :=
  if chars.head? = some '/' then ["/"]
  else if (pathParts chars).head? = some "." then ["."]
  else []

/-- `Path::components`: empty parts and inner `.` parts are skipped. -/
def components (path : String) : List String :=
  pathFront path.toList ++ (pathParts path.toList).filter fun part => part ≠ "" && part ≠ "."

/-- `Path::join`. -/
def join (base component : String) : String :=
  if component.toList.head? = some '/' then component
  else if base = "" ∨ base.toList.getLast? = some '/' then base ++ component
  else base ++ "/" ++ component

/-- `Path::file_name`. -/
def fileName (path : String) : Option String :=
  (components path).getLast?.filter fun name => name ≠ "/" && name ≠ "." && name ≠ ".."

/-- `Path::extension`: what follows the last dot of the file name, unless only that dot's own
position starts it. -/
def extension (path : String) : Option String := do
  let name ← fileName path
  let after := name.toList.reverse.takeWhile (· ≠ '.')
  match name.toList.reverse.dropWhile (· ≠ '.') with
  | _ :: _ :: _ => some (String.ofList after.reverse)
  | _ => none

/-- The longest prefix of characters whose encoding fits in `max` bytes. -/
def takeBytes : ℕ → List Char → List Char
  | _, [] => []
  | max, char :: rest =>
      if char.utf8Size ≤ max then char :: takeBytes (max - char.utf8Size) rest else []

/-- `truncate_utf8_bytes`. -/
def truncateUtf8Bytes (input : String) (max : ℕ) : String :=
  if input.utf8ByteSize ≤ max then input else String.ofList (takeBytes max input.toList)

/-- Cut a character list after exactly `count` bytes, when that is a character boundary. -/
def splitAtByte : List Char → ℕ → Option (List Char × List Char)
  | rest, 0 => some ([], rest)
  | [], _ + 1 => none
  | char :: rest, count + 1 =>
      if char.utf8Size ≤ count + 1 then
        (splitAtByte rest (count + 1 - char.utf8Size)).map fun (before, after) =>
          (char :: before, after)
      else none

def startedAtLen : ℕ := 19

/-- `parse_recording_started_at`. -/
def parseRecordingStartedAt (chrono : Chrono) (filename : String) : Option String :=
  match splitAtByte filename.toList startedAtLen with
  | some (before, '.' :: _) =>
      (chrono.parseStartedAt (String.ofList before)).map fun _ => String.ofList before
  | _ => none

/-- The `sanitize-filename` crate on a Unix system: it deletes a fixed set of characters,
empties a name made of dots, and cuts the name at 255 bytes. -/
structure SanitizeFilename where
  removed : Char → Bool
  removed_separator : removed '/' = true
  removed_backslash : removed '\\' = true
  removed_control : ∀ char : Char,
    char.toNat < 0x20 ∨ 0x80 ≤ char.toNat ∧ char.toNat ≤ 0x9F → removed char = true

/-- `sanitize_filename::sanitize`. -/
def SanitizeFilename.sanitize (crate : SanitizeFilename) (input : String) : String :=
  let kept := input.toList.filter fun char => !crate.removed char
  if kept.all (· = '.') then "" else truncateUtf8Bytes (String.ofList kept) 255

/-- `safe_component`. -/
def safeComponent (crate : SanitizeFilename) (input fallback : String) : String :=
  let sanitized := crate.sanitize input
  if sanitized = "" ∨ sanitized = "." ∨ sanitized = ".." then fallback else sanitized

/-- A stream name the configuration accepts (`Config::resolve_stream_config`). -/
def ConfigValid (crate : SanitizeFilename) (stream : String) : Prop :=
  stream ≠ "" ∧ crate.sanitize stream = stream

/-- A string that names one directory entry. -/
structure IsEntryName (name : String) : Prop where
  nonempty : name ≠ ""
  not_dot : name ≠ "."
  separator_free : '/' ∉ name.toList

theorem pathParts_of_free {chars : List Char} (free : '/' ∉ chars) :
    pathParts chars = [String.ofList chars] := by
  have single : chars.splitOn '/' = [chars] :=
    List.splitOnP_eq_singleton fun char member => by
      simpa using fun same : char = '/' => free (same ▸ member)
  simp only [pathParts, single, List.map_singleton]

theorem pathParts_append {tail : List Char} (free : '/' ∉ tail) (chars : List Char) :
    pathParts (chars ++ '/' :: tail) = pathParts chars ++ [String.ofList tail] := by
  have split := pathParts_of_free free
  simp only [pathParts] at split ⊢
  rw [List.splitOn_append_cons_self, List.map_append, split]

theorem pathParts_separator (chars : List Char) :
    pathParts (chars ++ ['/']) = pathParts chars ++ [""] :=
  pathParts_append List.not_mem_nil chars

/-- The front of a path does not depend on what follows a later separator. -/
theorem pathFront_append {tail : List Char} (free : '/' ∉ tail) (chars : List Char) :
    pathFront (chars ++ '/' :: tail) = pathFront (chars ++ ['/']) := by
  have head (end' : List Char) : (chars ++ '/' :: end').head? = (chars ++ ['/']).head? := by
    cases chars <;> rfl
  have parts : (pathParts chars).head? ≠ none := by simp [pathParts]
  obtain ⟨first, found⟩ := Option.ne_none_iff_exists'.mp parts
  simp only [pathFront, head tail, pathParts_append free,
    pathParts_separator, List.head?_append, found, Option.some_or]

theorem pathFront_append_separator {chars : List Char} (nonempty : chars ≠ []) :
    pathFront (chars ++ ['/']) = pathFront chars := by
  have head : (chars ++ ['/']).head? = chars.head? := List.head?_append_of_ne_nil _ nonempty
  have parts : (pathParts chars).head? ≠ none := by simp [pathParts]
  obtain ⟨part, found⟩ := Option.ne_none_iff_exists'.mp parts
  simp only [pathFront, head, pathParts_separator,
    List.head?_append, found, Option.some_or]

/-- Joining an entry name adds it as the last component. -/
theorem components_join (base : String) {name : String} (entry : IsEntryName name) :
    components (join base name) = components base ++ [name] := by
  have free := entry.separator_free
  have kept : [name].filter (fun part => part ≠ "" && part ≠ ".") = [name] := by
    simp [entry.nonempty, entry.not_dot]
  have relative : name.toList.head? ≠ some '/' := fun head =>
    free (List.mem_of_mem_head? head)
  unfold join
  simp only [relative, ↓reduceIte]
  by_cases empty : base = ""
  · have front : pathFront name.toList = [] := by
      simp [pathFront, relative, pathParts_of_free free, entry.not_dot]
    have base_nil : components "" = [] := by decide
    simp only [empty, true_or, ↓reduceIte, String.empty_append, base_nil, List.nil_append]
    simp only [components, front, pathParts_of_free free, String.ofList_toList, kept,
      List.nil_append]
  · by_cases closed : base.toList.getLast? = some '/'
    · obtain ⟨chars, split⟩ := List.getLast?_eq_some_iff.mp closed
      rw [if_pos (.inr closed)]
      simp only [components, String.toList_append, split, List.append_assoc,
        List.singleton_append]
      rw [pathFront_append free, pathParts_append free,
        pathParts_separator, String.ofList_toList]
      simp [entry.nonempty, entry.not_dot]
    · have nonempty : base.toList ≠ [] := by simpa using empty
      have separator : "/".toList = ['/'] := by decide
      simp only [empty, closed, or_self, ↓reduceIte, components, String.toList_append, separator,
        List.append_assoc, List.singleton_append]
      rw [pathFront_append free, pathFront_append_separator nonempty, pathParts_append free,
        String.ofList_toList, List.filter_append, kept]

theorem takeBytes_eq (used max : ℕ) (chars : List Char) :
    takeBytes max chars = Greedy.takeFrom Char.utf8Size (used + max) used chars := by
  induction chars generalizing used max with
  | nil => rfl
  | cons char rest ih =>
      rw [takeBytes, Greedy.takeFrom]
      by_cases fits : char.utf8Size ≤ max
      · have budget : used + char.utf8Size + (max - char.utf8Size) = used + max := by omega
        rw [if_pos fits, if_neg (by omega), ih (used + char.utf8Size), budget]
      · rw [if_neg fits, if_pos (by omega)]

/-- A cut at a number of bytes keeps as many characters as there is room for. -/
theorem isLongest_takeBytes (max : ℕ) (chars : List Char) :
    Greedy.IsLongest Char.utf8Size max chars (takeBytes max chars) := by
  have found : Greedy.IsLongest Char.utf8Size (0 + max - 0) chars _ :=
    Greedy.isLongest_takeFrom (Nat.zero_le (0 + max)) chars
  rwa [← takeBytes_eq, Nat.sub_zero, Nat.zero_add] at found

theorem prefix_truncateUtf8Bytes (input : String) (max : ℕ) :
    (truncateUtf8Bytes input max).toList <+: input.toList := by
  unfold truncateUtf8Bytes
  split
  · exact List.prefix_rfl
  · simpa using (isLongest_takeBytes max input.toList).front

/-- A sanitized name keeps only characters that are not removed. -/
theorem removed_of_mem_sanitize (crate : SanitizeFilename) {input : String} {char : Char}
    (member : char ∈ (crate.sanitize input).toList) : crate.removed char = false := by
  unfold SanitizeFilename.sanitize at member
  simp only at member
  split at member
  · simp at member
  · have kept := (prefix_truncateUtf8Bytes _ _).subset member
    rw [String.toList_ofList] at kept
    simpa using (List.mem_filter.mp kept).2

theorem isEntryName_safeComponent (crate : SanitizeFilename) {fallback : String}
    (entry : IsEntryName fallback) (input : String) :
    IsEntryName (safeComponent crate input fallback) := by
  unfold safeComponent
  simp only
  split
  · exact entry
  · rename_i usable
    push Not at usable
    refine ⟨usable.1, usable.2.1, fun member => ?_⟩
    have kept := removed_of_mem_sanitize crate member
    rw [crate.removed_separator] at kept
    exact Bool.noConfusion kept

/-- The recorder uses a stream name that the configuration accepts as it is. -/
theorem ConfigValid.safeComponent_eq {crate : SanitizeFilename} {stream : String}
    (valid : ConfigValid crate stream) (fallback : String) :
    safeComponent crate stream fallback = stream := by
  have dots : ∀ name : String, (name = "." ∨ name = "..") → crate.sanitize name ≠ name := by
    intro name dotted
    have only : name.toList.all (· = '.') = true := by rcases dotted with rfl | rfl <;> decide
    have kept : (name.toList.filter fun char => !crate.removed char).all (· = '.') = true :=
      List.all_eq_true.mpr fun char member =>
        List.all_eq_true.mp only char (List.mem_filter.mp member).1
    simp only [SanitizeFilename.sanitize, kept, ↓reduceIte]
    rcases dotted with rfl | rfl <;> decide
  unfold safeComponent
  simp only [valid.2, valid.1, false_or, ite_eq_right_iff]
  intro dotted
  exact absurd valid.2 (dots stream dotted)

theorem splitAtByte_ascii (front rest : List Char) (ascii : ∀ char ∈ front, char.utf8Size = 1)
    (count : ℕ) (enough : count ≤ front.length) :
    splitAtByte (front ++ rest) count = some (front.take count, front.drop count ++ rest) := by
  induction front generalizing count with
  | nil =>
      obtain rfl : count = 0 := by simpa using enough
      cases rest <;> rfl
  | cons char more ih =>
      cases count with
      | zero => simp [splitAtByte]
      | succ count =>
          have one := ascii char List.mem_cons_self
          have later := ih (fun other member => ascii other (List.mem_cons_of_mem _ member))
            count (by simpa using enough)
          simp [splitAtByte, one, later]

/-- What is split off has the size that was asked for. -/
theorem sum_utf8Size_splitAtByte {chars before after : List Char} {count : ℕ}
    (split : splitAtByte chars count = some (before, after)) :
    (before.map Char.utf8Size).sum = count := by
  induction chars generalizing before count with
  | nil =>
      cases count with
      | zero =>
          cases split
          rfl
      | succ count => cases split
  | cons char rest ih =>
      cases count with
      | zero =>
          cases split
          rfl
      | succ count =>
          unfold splitAtByte at split
          split at split
          · next fits =>
              obtain ⟨⟨front, back⟩, later, same⟩ := Option.map_eq_some_iff.mp split
              cases same
              rw [List.map_cons, List.sum_cons, ih later]
              omega
          · cases split

theorem utf8Size_of_isTimestampChar {char : Char} (timestamp : isTimestampChar char = true) :
    char.utf8Size = 1 := by
  simp only [isTimestampChar, Char.isDigit, Bool.or_eq_true, Bool.and_eq_true, decide_eq_true_eq,
    beq_iff_eq] at timestamp
  rcases timestamp with ((digit | rfl) | rfl) | rfl
  · have top : (57 : UInt32) ≤ 0x7F := by decide
    have small : char.val ≤ 0x7F := UInt32.le_trans digit.2 top
    exact if_pos small
  all_goals rfl

/-- A filename that begins with a formatted time with a four-digit year and a dot has that time
as its recording start. -/
theorem parseRecordingStartedAt_of_fourDigitYear (chrono : Chrono) {time : NaiveDateTime}
    (years : time.HasFourDigitYear) (rest : List Char) :
    parseRecordingStartedAt chrono (String.ofList (time.startedAtText ++ '.' :: rest)) =
      some time.formatStartedAt := by
  have size : time.startedAtText.length = startedAtLen := by
    rw [time.length_startedAtText, NaiveDateTime.length_formatYear_of_range years]
    rfl
  have ascii : ∀ char ∈ time.startedAtText, char.utf8Size = 1 := fun char member =>
    utf8Size_of_isTimestampChar (time.all_startedAtText char member)
  unfold parseRecordingStartedAt
  rw [String.toList_ofList, splitAtByte_ascii _ _ ascii _ size.ge,
    List.take_of_length_le size.le, List.drop_of_length_le size.le]
  have read := chrono.parseStartedAt_format time years
  unfold NaiveDateTime.formatStartedAt at read ⊢
  simp only [List.nil_append, read, Option.map_some]

/-- A filename that begins with a formatted time of any other year has no recording start. -/
theorem parseRecordingStartedAt_of_not_fourDigitYear (chrono : Chrono) {time : NaiveDateTime}
    (years : ¬ time.HasFourDigitYear) (rest : List Char) :
    parseRecordingStartedAt chrono (String.ofList (time.startedAtText ++ '.' :: rest)) =
      none := by
  have size : startedAtLen < time.startedAtText.length := by
    have long := NaiveDateTime.length_formatYear_of_not_range years
    rw [time.length_startedAtText]
    simp only [startedAtLen]
    omega
  have ascii : ∀ char ∈ time.startedAtText, char.utf8Size = 1 := fun char member =>
    utf8Size_of_isTimestampChar (time.all_startedAtText char member)
  unfold parseRecordingStartedAt
  rw [String.toList_ofList, splitAtByte_ascii _ _ ascii _ size.le]
  have later : time.startedAtText.drop startedAtLen ≠ [] := by
    simpa using size
  obtain ⟨char, more, split⟩ := List.exists_cons_of_ne_nil later
  have timestamp : isTimestampChar char = true :=
    time.all_startedAtText char (List.mem_of_mem_drop (split ▸ List.mem_cons_self))
  rw [split]
  have other : char ≠ '.' := by
    rintro rfl
    exact absurd timestamp (by decide)
  simp only [List.cons_append]
  split
  · rename_i found
    simp only [Option.some.injEq, Prod.mk.injEq, List.cons.injEq] at found
    exact absurd found.2.1 other
  · rfl

end AribcapDb
