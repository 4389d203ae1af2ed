import AribcapDb.Chronology
import AribcapDb.Query.Search
import AribcapDb.Query.Service

/-! # Time bounds of a search

A search compares the texts of its bounds with the timestamps of the recordings. All of them are
written with fixed widths, so the comparisons are those of the times
(`time_bounds_are_chronological`). -/

namespace AribcapDb

/-- `expand_bound`. -/
def expandBound (chrono : Chrono) (dates : DateParser) (input dateOnlyTime : String) :
    Option String :=
  match input.utf8ByteSize with
  | 10 =>
      if !matchesDigitShape input 10 [(4, 45), (7, 45)] then none
      else (dates.parseDate input).map fun _ => input ++ "_" ++ dateOnlyTime
  | 19 =>
      if !matchesDigitShape input 19 [(4, 45), (7, 45), (10, 95), (13, 45), (16, 45)] then none
      else (chrono.parseStartedAt input).map fun _ => input
  | _ => none

/-- `expand_from_bound`. -/
def expandFromBound (chrono : Chrono) (dates : DateParser) (input : String) :
    Except String String :=
  match expandBound chrono dates input "00-00-00" with
  | some bound => .ok bound
  | none => .error "`from` must be `YYYY-MM-DD` or `YYYY-MM-DD_HH-MM-SS`"

/-- `expand_to_bound`. -/
def expandToBound (chrono : Chrono) (dates : DateParser) (input : String) :
    Except String String :=
  match expandBound chrono dates input "23-59-59" with
  | some bound => .ok bound
  | none => .error "`to` must be `YYYY-MM-DD` or `YYYY-MM-DD_HH-MM-SS`"

/-- `non_empty_str`. -/
def nonEmptyStr (value : Option String) : Option String := value.filter fun value => value ≠ ""

/-- The bounds that `ArchiveQueryService::search` takes from a request. -/
def searchBounds (chrono : Chrono) (dates : DateParser) (from' to' : Option String) :
    Except QueryServiceError (Option String × Option String) := do
  let lower ← ((nonEmptyStr from').mapM (expandFromBound chrono dates)).mapError .badRequest
  let upper ← ((nonEmptyStr to').mapM (expandToBound chrono dates)).mapError .badRequest
  match lower, upper with
  | some first, some last =>
      if last < first then throw (.badRequest "`from` must not be later than `to`")
      else pure (lower, upper)
  | _, _ => pure (lower, upper)

/-! ### What the texts stand for -/

/-- The time that a bound stands for, which is a given time of the day for a mere date. -/
def boundTime (chrono : Chrono) (dates : DateParser) (input : String) (hour minute second : ℕ) :
    Option NaiveDateTime :=
  if input.utf8ByteSize = 10 then do
    let (year, month, day) ← dates.parseDate input
    NaiveDateTime.ofParts? year month day hour minute second 0
  else chrono.parseStartedAt input

/-- The first second that a lower bound admits. -/
def fromTime (chrono : Chrono) (dates : DateParser) (input : String) : Option NaiveDateTime :=
  boundTime chrono dates input 0 0 0

/-- The last second that an upper bound admits. -/
def toTime (chrono : Chrono) (dates : DateParser) (input : String) : Option NaiveDateTime :=
  boundTime chrono dates input 23 59 59

/-- A timestamp with all its digits is read as the time that is written so. -/
def Chrono.ReadsPadded (chrono : Chrono) : Prop :=
  ∀ text time,
    matchesDigitShape text 19 [(4, 45), (7, 45), (10, 95), (13, 45), (16, 45)] = true →
      chrono.parseStartedAt text = some time → time.formatStartedAt = text

/-- The row of an indexed recording whose file was named at the time. -/
structure StartedAt (crates : Crates) (dataDir : String) (db : SearchDb) (row : ProgramRow)
    (started : NaiveDateTime) : Prop where
  indexed : IndexReachable crates (archiveRoot dataDir) db ∧ row ∈ db.programs
  named : ∃ stream program suffix,
    row.path = archivePath crates dataDir stream program started suffix
  years : started.HasFourDigitYear

theorem StartedAt.recordingStartedAt_eq {crates : Crates} {dataDir : String} {db : SearchDb}
    {row : ProgramRow} {started : NaiveDateTime}
    (recording : StartedAt crates dataDir db row started) :
    row.recordingStartedAt = started.formatStartedAt := by
  obtain ⟨⟨reachable, member⟩, ⟨stream, program, suffix, path⟩, years⟩ := recording
  have linked := reachable.wellFormed.linked.identified row member
  have parsed := parseRecordingStartedAt_archiveFilename crates program years suffix
  rw [path, identify, streamMonthFilename_archivePath] at linked
  simp only [Option.bind_eq_bind, Option.bind_some, parsed, Option.some.injEq] at linked
  exact (congrArg FileIdentity.recordingStartedAt linked).symm

/-- A time has the parts it is made of. -/
theorem NaiveDateTime.parts_of_ofParts? {year : ℤ} {month day hour minute second nanosecond : ℕ}
    {time : NaiveDateTime}
    (made : ofParts? year month day hour minute second nanosecond = some time) :
    (time.year = year ∧ time.month = month ∧ time.day = day) ∧ time.hour = hour ∧
      time.minute = minute ∧ time.second = second ∧ time.nanosecond = nanosecond := by
  unfold ofParts? at made
  split at made
  · obtain rfl := Option.some.inj made
    exact ⟨⟨rfl, rfl, rfl⟩, rfl, rfl, rfl, rfl⟩
  · cases made

/-- The number of a day. -/
def dayNumber (date : ℤ × ℕ × ℕ) : ℤ := daysFromCivil date.1 date.2.1 date.2.2

/-- The day of a time. -/
def NaiveDateTime.date (time : NaiveDateTime) : ℤ × ℕ × ℕ := (time.year, time.month, time.day)

/-- Comparing texts is comparing times. -/
structure ChronologicalBounds (crates : Crates) (dates : DateParser) (dataDir : String) : Prop where
  /-- An accepted lower bound stands for a time. -/
  fromTimes : ∀ input text, expandFromBound crates.chrono dates input = .ok text →
    ∃ time, fromTime crates.chrono dates input = some time
  /-- An accepted upper bound stands for a time. -/
  toTimes : ∀ input text, expandToBound crates.chrono dates input = .ok text →
    ∃ time, toTime crates.chrono dates input = some time
  /-- Two accepted bounds are refused when their times are in the wrong order. -/
  refused : ∀ lower lowerText first upper upperText last,
    expandFromBound crates.chrono dates lower = .ok lowerText →
    fromTime crates.chrono dates lower = some first →
    expandToBound crates.chrono dates upper = .ok upperText →
    toTime crates.chrono dates upper = some last →
    searchBounds crates.chrono dates (some lower) (some upper) =
      if last.instant < first.instant then
        .error (.badRequest "`from` must not be later than `to`")
      else .ok (some lowerText, some upperText)
  /-- A recording passes when it was started between the times of the bounds. -/
  admitted : ∀ db row started from' to' (filter : SearchFilter),
    StartedAt crates dataDir db row started →
    searchBounds crates.chrono dates from' to' = .ok (filter.from', filter.to') →
    ((db.programFilter filter row).holds = true ↔
      db.Admits { filter with from' := none, to' := none } row ∧
        (∀ input ∈ nonEmptyStr from', ∃ time, fromTime crates.chrono dates input = some time ∧
          time.instant ≤ started.truncated.instant) ∧
        ∀ input ∈ nonEmptyStr to', ∃ time, toTime crates.chrono dates input = some time ∧
          started.truncated.instant ≤ time.instant)
  /-- Two dates admit the recordings started on the days from the first to the last. -/
  days : ∀ db row started lower upper (filter : SearchFilter),
    StartedAt crates dataDir db row started → started.nanosecond < 10 ^ 9 →
    lower.utf8ByteSize = 10 → upper.utf8ByteSize = 10 →
    searchBounds crates.chrono dates (some lower) (some upper) = .ok (filter.from', filter.to') →
    ∃ first last, dates.parseDate lower = some first ∧ dates.parseDate upper = some last ∧
      ((db.programFilter filter row).holds = true ↔
        db.Admits { filter with from' := none, to' := none } row ∧
          dayNumber first ≤ dayNumber started.date ∧ dayNumber started.date ≤ dayNumber last)
  /-- The results come newest first. -/
  newestFirst : ∀ db (rows : List ProgramRow) (started : ProgramRow → NaiveDateTime),
    (∀ row ∈ rows, StartedAt crates dataDir db row (started row)) →
    (Sql.orderBy SearchDb.programKey rows).Pairwise fun newer older =>
      (started older).truncated.instant ≤ (started newer).truncated.instant

section Bounds

variable {chrono : Chrono} {dates : DateParser} {input text : String} {hour minute second : ℕ}

/-- A time of whole seconds with its timestamp. -/
structure WrittenAs (time : NaiveDateTime) (text : String) : Prop where
  text : time.formatStartedAt = text
  years : time.HasFourDigitYear
  whole : time.truncated = time

/-- The text of an accepted bound is the timestamp of its time. -/
theorem boundTime_of_expandBound (reads : chrono.ReadsPadded) {dateOnlyTime : String}
    (clock : hour < 24 ∧ minute < 60 ∧ second < 60)
    (clockText : dateOnlyTime = String.ofList (writeHundreds hour ++ '-' :: writeHundreds minute ++
      '-' :: writeHundreds second))
    (accepted : expandBound chrono dates input dateOnlyTime = some text) :
    ∃ time, boundTime chrono dates input hour minute second = some time ∧ WrittenAs time text := by
  unfold expandBound at accepted
  split at accepted
  · next size =>
      split at accepted
      · cases accepted
      · next shaped =>
          obtain ⟨date, parsed, rfl⟩ := Option.map_eq_some_iff.mp accepted
          obtain ⟨year, month, day, four, monthSmall, daySmall, padded⟩ :=
            exists_padded_of_matchesDigitShape (by simpa using shaped)
          have read := dates.parseDate_padded year month day four monthSmall daySmall
          rw [← padded, parsed] at read
          split at read
          · next valid =>
              obtain rfl := Option.some.inj read
              refine ⟨⟨year, month, day, hour, minute, second, 0, valid.1, valid.2, clock.1,
                clock.2.1, clock.2.2, .inl (by decide)⟩, ?_, ?_,
                ⟨Int.natCast_nonneg year, Int.ofNat_le.mpr four⟩, rfl⟩
              · rw [boundTime, if_pos size, parsed, Option.bind_eq_bind, Option.bind_some]
                exact dif_pos ⟨valid.1, valid.2, clock.1, clock.2.1, clock.2.2, .inl (by decide)⟩
              · rw [padded, clockText]
                apply String.toList_injective
                have mark : "_".toList = ['_'] := by decide
                have digits : formatYear (year : ℤ) =
                    writeHundreds (year / 100) ++ writeHundreds (year % 100) := by
                  rw [formatYear, if_pos ⟨by simp, by exact_mod_cast four⟩, Int.toNat_natCast]
                simp [NaiveDateTime.formatStartedAt, NaiveDateTime.startedAtText,
                  NaiveDateTime.monthText, digits, mark]
          · cases read
  · next size =>
      split at accepted
      · cases accepted
      · next shaped =>
          obtain ⟨time, parsed, rfl⟩ := Option.map_eq_some_iff.mp accepted
          have shape : matchesDigitShape input 19
              [(4, 45), (7, 45), (10, 95), (13, 45), (16, 45)] = true := by simpa using shaped
          have written := reads input time shape parsed
          have years : time.HasFourDigitYear := by
            by_contra other
            have long := NaiveDateTime.length_formatYear_of_not_range other
            have length := (toList_of_matchesDigitShape (by decide) shape).1
            rw [← written, NaiveDateTime.formatStartedAt, String.toList_ofList,
              NaiveDateTime.length_startedAtText] at length
            omega
          have back := chrono.parseStartedAt_format time years
          rw [written, parsed, Option.some.injEq] at back
          refine ⟨time, ?_, written, years, back.symm⟩
          rw [boundTime, if_neg (by omega), parsed]
  · cases accepted

theorem fromTime_of_expandFromBound (reads : chrono.ReadsPadded)
    (accepted : expandFromBound chrono dates input = .ok text) :
    ∃ time, fromTime chrono dates input = some time ∧ WrittenAs time text := by
  unfold expandFromBound at accepted
  split at accepted
  · next bound expanded =>
      obtain rfl := Except.ok.inj accepted
      exact boundTime_of_expandBound reads (by decide) (by decide) expanded
  · cases accepted

theorem toTime_of_expandToBound (reads : chrono.ReadsPadded)
    (accepted : expandToBound chrono dates input = .ok text) :
    ∃ time, toTime chrono dates input = some time ∧ WrittenAs time text := by
  unfold expandToBound at accepted
  split at accepted
  · next bound expanded =>
      obtain rfl := Except.ok.inj accepted
      exact boundTime_of_expandBound reads (by decide) (by decide) expanded
  · cases accepted

/-- The empty text is no bound. -/
theorem expandBound_empty (dateOnlyTime : String) :
    expandBound chrono dates "" dateOnlyTime = none := rfl

theorem nonEmptyStr_of_expandFromBound (accepted : expandFromBound chrono dates input = .ok text) :
    nonEmptyStr (some input) = some input := by
  have other : input ≠ "" := by
    rintro rfl
    rw [expandFromBound, expandBound_empty] at accepted
    cases accepted
  simp [nonEmptyStr, other]

theorem nonEmptyStr_of_expandToBound (accepted : expandToBound chrono dates input = .ok text) :
    nonEmptyStr (some input) = some input := by
  have other : input ≠ "" := by
    rintro rfl
    rw [expandToBound, expandBound_empty] at accepted
    cases accepted
  simp [nonEmptyStr, other]

theorem eq_ok_of_mapError {ε δ α : Type} {convert : ε → δ} {result : Except ε α} {value : α}
    (converted : result.mapError convert = .ok value) : result = .ok value := by
  cases result with
  | error error => cases converted
  | ok found => exact congrArg _ (Except.ok.inj converted)

/-- The accepted bounds of a request are its expanded ones. -/
theorem mapM_of_searchBounds {from' to' lower upper : Option String}
    (accepted : searchBounds chrono dates from' to' = .ok (lower, upper)) :
    (nonEmptyStr from').mapM (expandFromBound chrono dates) = .ok lower ∧
      (nonEmptyStr to').mapM (expandToBound chrono dates) = .ok upper := by
  obtain ⟨first, expandedFirst, more⟩ := exists_ok_of_bind accepted
  obtain ⟨last, expandedLast, checked⟩ := exists_ok_of_bind more
  have same : (first, last) = (lower, upper) := by
    split at checked
    · split at checked
      · cases checked
      · exact Except.ok.inj checked
    · exact Except.ok.inj checked
  obtain ⟨rfl, rfl⟩ := Prod.mk.inj same
  exact ⟨eq_ok_of_mapError expandedFirst, eq_ok_of_mapError expandedLast⟩

/-- A bound of a request is expanded, or there is none. -/
theorem mapM_eq_ok {expand : String → Except String String} {value bound : Option String}
    (expanded : value.mapM expand = .ok bound) :
    value = none ∧ bound = none ∨
      ∃ input text, value = some input ∧ bound = some text ∧ expand input = .ok text := by
  cases value with
  | none => exact .inl ⟨rfl, (Except.ok.inj expanded).symm⟩
  | some input =>
      obtain ⟨text, read, rest⟩ := exists_ok_of_bind expanded
      exact .inr ⟨input, text, rfl, (Except.ok.inj rest).symm, read⟩

end Bounds

section Recordings

variable {crates : Crates} {dates : DateParser} {dataDir : String} {db : SearchDb}
  {row : ProgramRow} {started : NaiveDateTime}

theorem lower_le_iff {time : NaiveDateTime} {text : String} (written : WrittenAs time text)
    (recording : StartedAt crates dataDir db row started) :
    text ≤ row.recordingStartedAt ↔ time.instant ≤ started.truncated.instant := by
  rw [recording.recordingStartedAt_eq, ← written.text,
    NaiveDateTime.formatStartedAt_le_iff written.years recording.years, written.whole]

theorem le_upper_iff {time : NaiveDateTime} {text : String} (written : WrittenAs time text)
    (recording : StartedAt crates dataDir db row started) :
    row.recordingStartedAt ≤ text ↔ started.truncated.instant ≤ time.instant := by
  rw [recording.recordingStartedAt_eq, ← written.text,
    NaiveDateTime.formatStartedAt_le_iff recording.years written.years, written.whole]

/-- The filter of a request compares times. -/
theorem holds_programFilter_iff (reads : crates.chrono.ReadsPadded) {from' to' : Option String}
    {filter : SearchFilter} (recording : StartedAt crates dataDir db row started)
    (accepted : searchBounds crates.chrono dates from' to' = .ok (filter.from', filter.to')) :
    (db.programFilter filter row).holds = true ↔
      db.Admits { filter with from' := none, to' := none } row ∧
        (∀ input ∈ nonEmptyStr from', ∃ time, fromTime crates.chrono dates input = some time ∧
          time.instant ≤ started.truncated.instant) ∧
        ∀ input ∈ nonEmptyStr to', ∃ time, toTime crates.chrono dates input = some time ∧
          started.truncated.instant ≤ time.instant := by
  obtain ⟨lowerRead, upperRead⟩ := mapM_of_searchBounds accepted
  have lower : (∀ bound ∈ filter.from', bound ≤ row.recordingStartedAt) ↔
      ∀ input ∈ nonEmptyStr from', ∃ time, fromTime crates.chrono dates input = some time ∧
        time.instant ≤ started.truncated.instant := by
    rcases mapM_eq_ok lowerRead with ⟨absent, none⟩ | ⟨input, text, given, bound, expanded⟩
    · simp [absent, none]
    · obtain ⟨time, read, written⟩ := fromTime_of_expandFromBound reads expanded
      simp [given, bound, read, lower_le_iff written recording]
  have upper : (∀ bound ∈ filter.to', row.recordingStartedAt ≤ bound) ↔
      ∀ input ∈ nonEmptyStr to', ∃ time, toTime crates.chrono dates input = some time ∧
        started.truncated.instant ≤ time.instant := by
    rcases mapM_eq_ok upperRead with ⟨absent, none⟩ | ⟨input, text, given, bound, expanded⟩
    · simp [absent, none]
    · obtain ⟨time, read, written⟩ := toTime_of_expandToBound reads expanded
      simp [given, bound, read, le_upper_iff written recording]
  rw [SearchDb.holds_programFilter, SearchDb.Admits, SearchDb.Admits, lower, upper]
  simp only [Option.mem_def, reduceCtorEq, false_implies, implies_true, true_and]
  tauto

/-- A time lies between the first second of one day and the last second of another one when its day
lies between them. -/
theorem instant_between_iff {lower upper time : NaiveDateTime}
    (first : lower.secondOfDay = 0 ∧ lower.nanosecond = 0)
    (last : upper.secondOfDay = 86399 ∧ upper.nanosecond = 0) (whole : time.nanosecond < 10 ^ 9) :
    lower.instant ≤ time.truncated.instant ∧ time.truncated.instant ≤ upper.instant ↔
      dayNumber lower.date ≤ dayNumber time.date ∧ dayNumber time.date ≤ dayNumber upper.date := by
  have short : time.secondOfDay < 86400 := by
    have valid := And.intro time.hour_valid (And.intro time.minute_valid time.second_valid)
    unfold NaiveDateTime.secondOfDay
    omega
  have truncated : time.truncated.instant = toLex (dayNumber time.date * 86400 +
      time.secondOfDay - jstOffsetSeconds, 0) := by
    rw [NaiveDateTime.instant_eq]
    simp only [NaiveDateTime.truncated, whole, ↓reduceIte]
    rfl
  rw [truncated, NaiveDateTime.instant_eq, NaiveDateTime.instant_eq, first.1, first.2, last.1,
    last.2, Prod.Lex.toLex_le_toLex, Prod.Lex.toLex_le_toLex]
  simp only [dayNumber, NaiveDateTime.date]
  omega

/-- The time of a mere date. -/
theorem boundTime_eq_some {chrono : Chrono} {input : String} {hour minute second : ℕ}
    {time : NaiveDateTime} (size : input.utf8ByteSize = 10)
    (read : boundTime chrono dates input hour minute second = some time) :
    dates.parseDate input = some time.date ∧
      time.secondOfDay = hour * 3600 + minute * 60 + second ∧ time.nanosecond = 0 := by
  rw [boundTime, if_pos size] at read
  obtain ⟨⟨year, month, day⟩, parsed, parts⟩ := Option.bind_eq_some_iff.mp read
  obtain ⟨⟨rfl, rfl, rfl⟩, rfl, rfl, rfl, whole⟩ := NaiveDateTime.parts_of_ofParts? parts
  exact ⟨parsed, rfl, whole⟩

/-- The filter of two dates compares days. -/
theorem holds_programFilter_days (reads : crates.chrono.ReadsPadded) {lower upper : String}
    {filter : SearchFilter} (recording : StartedAt crates dataDir db row started)
    (whole : started.nanosecond < 10 ^ 9) (lowerSize : lower.utf8ByteSize = 10)
    (upperSize : upper.utf8ByteSize = 10)
    (accepted : searchBounds crates.chrono dates (some lower) (some upper) =
      .ok (filter.from', filter.to')) :
    ∃ first last, dates.parseDate lower = some first ∧ dates.parseDate upper = some last ∧
      ((db.programFilter filter row).holds = true ↔
        db.Admits { filter with from' := none, to' := none } row ∧
          dayNumber first ≤ dayNumber started.date ∧
            dayNumber started.date ≤ dayNumber last) := by
  have nonEmpty {input : String} (size : input.utf8ByteSize = 10) :
      nonEmptyStr (some input) = some input := by
    have other : input ≠ "" := by
      rintro rfl
      cases size
    simp [nonEmptyStr, other]
  have admitted := holds_programFilter_iff reads recording accepted
  obtain ⟨lowerRead, upperRead⟩ := mapM_of_searchBounds accepted
  rw [nonEmpty lowerSize] at lowerRead admitted
  rw [nonEmpty upperSize] at upperRead admitted
  obtain ⟨lowerText, lowerExpanded, _⟩ := exists_ok_of_bind lowerRead
  obtain ⟨upperText, upperExpanded, _⟩ := exists_ok_of_bind upperRead
  obtain ⟨first, firstTime, _⟩ := fromTime_of_expandFromBound reads lowerExpanded
  obtain ⟨last, lastTime, _⟩ := toTime_of_expandToBound reads upperExpanded
  obtain ⟨firstDate, firstClock⟩ := boundTime_eq_some lowerSize firstTime
  obtain ⟨lastDate, lastClock⟩ := boundTime_eq_some upperSize lastTime
  refine ⟨first.date, last.date, firstDate, lastDate, ?_⟩
  rw [admitted, ← instant_between_iff firstClock lastClock whole]
  simp [firstTime, lastTime]

/-- Two accepted bounds are compared by their times. -/
theorem searchBounds_of_accepted {chrono : Chrono} (reads : chrono.ReadsPadded)
    {lower lowerText upper upperText : String} {first last : NaiveDateTime}
    (lowerAccepted : expandFromBound chrono dates lower = .ok lowerText)
    (firstTime : fromTime chrono dates lower = some first)
    (upperAccepted : expandToBound chrono dates upper = .ok upperText)
    (lastTime : toTime chrono dates upper = some last) :
    searchBounds chrono dates (some lower) (some upper) =
      if last.instant < first.instant then
        .error (.badRequest "`from` must not be later than `to`")
      else .ok (some lowerText, some upperText) := by
  obtain ⟨time, read, lowerWritten⟩ := fromTime_of_expandFromBound reads lowerAccepted
  obtain rfl := Option.some.inj (firstTime.symm.trans read)
  obtain ⟨time, read, upperWritten⟩ := toTime_of_expandToBound reads upperAccepted
  obtain rfl := Option.some.inj (lastTime.symm.trans read)
  have order : upperText < lowerText ↔ last.instant < first.instant := by
    rw [← upperWritten.text, ← lowerWritten.text,
      NaiveDateTime.formatStartedAt_lt_iff upperWritten.years lowerWritten.years,
      upperWritten.whole, lowerWritten.whole]
  simp only [searchBounds, nonEmptyStr_of_expandFromBound lowerAccepted,
    nonEmptyStr_of_expandToBound upperAccepted, Option.mapM_some, lowerAccepted, upperAccepted]
  by_cases late : last.instant < first.instant
  · have texts : upperText < lowerText := order.mpr late
    rw [if_pos late]
    exact if_pos texts
  · have texts : ¬ upperText < lowerText := mt order.mp late
    rw [if_neg late]
    exact if_neg texts

/-- The order of the results by their timestamps is that of their times. -/
theorem pairwise_orderBy_programKey {rows : List ProgramRow} {started : ProgramRow → NaiveDateTime}
    (recordings : ∀ row ∈ rows, StartedAt crates dataDir db row (started row)) :
    (Sql.orderBy SearchDb.programKey rows).Pairwise fun newer older =>
      (started older).truncated.instant ≤ (started newer).truncated.instant := by
  apply (Sql.pairwise_orderBy SearchDb.programKey rows).imp_of_mem
  intro newer older newerMember olderMember ordered
  have newerRecording := recordings newer ((Sql.mem_orderBy _ _).mp newerMember)
  have olderRecording := recordings older ((Sql.mem_orderBy _ _).mp olderMember)
  rw [← NaiveDateTime.formatStartedAt_le_iff olderRecording.years newerRecording.years,
    ← olderRecording.recordingStartedAt_eq, ← newerRecording.recordingStartedAt_eq]
  rcases Prod.Lex.toLex_le_toLex.mp (OrderDual.toDual_le_toDual.mp ordered) with less | same
  · exact less.le
  · exact same.1.le

end Recordings

/-- The comparisons of timestamps and bounds are those of the times. -/
theorem time_bounds_are_chronological {crates : Crates} (reads : crates.chrono.ReadsPadded)
    (dates : DateParser) (dataDir : String) : ChronologicalBounds crates dates dataDir where
  fromTimes _ _ accepted :=
    let ⟨time, read, _⟩ := fromTime_of_expandFromBound reads accepted
    ⟨time, read⟩
  toTimes _ _ accepted :=
    let ⟨time, read, _⟩ := toTime_of_expandToBound reads accepted
    ⟨time, read⟩
  refused _ _ _ _ _ _ lowerAccepted firstTime upperAccepted lastTime :=
    searchBounds_of_accepted reads lowerAccepted firstTime upperAccepted lastTime
  admitted _ _ _ _ _ _ recording accepted := holds_programFilter_iff reads recording accepted
  days _ _ _ _ _ _ recording whole lowerSize upperSize accepted :=
    holds_programFilter_days reads recording whole lowerSize upperSize accepted
  newestFirst _ _ _ recordings := pairwise_orderBy_programKey recordings

namespace Sample

theorem eq_writeHundreds_of_read {chars rest : List Char} {n : ℕ}
    (read : readHundreds chars = some (n, rest)) : n < 100 ∧ chars = writeHundreds n ++ rest := by
  match chars with
  | [] => cases read
  | [_] => cases read
  | tens :: ones :: more =>
      rw [readHundreds] at read
      split at read
      · next digits =>
          rw [Bool.and_eq_true] at digits
          obtain ⟨value, small, written⟩ := exists_writeHundreds digits.1 digits.2
          have back := readHundreds_writeHundreds small more
          rw [written, List.cons_append, List.cons_append, List.nil_append, readHundreds,
            if_pos (by rw [Bool.and_eq_true]; exact digits)] at back
          obtain ⟨same, rfl⟩ := Prod.mk.inj (Option.some.inj read)
          have number := (Prod.mk.inj (Option.some.inj back)).1
          rw [← same, number, written]
          exact ⟨small, rfl⟩
      · cases read

theorem eq_cons_of_readChar {expected : Char} {chars rest : List Char}
    (read : readChar expected chars = some rest) : chars = expected :: rest := by
  cases chars with
  | nil => cases read
  | cons char more =>
      rw [readChar] at read
      split at read
      · next same => rw [same, Option.some.inj read]
      · cases read

theorem readsPadded : crates.chrono.ReadsPadded := by
  intro text time _ read
  have parsed : readStartedAt text = some time := read
  simp only [readStartedAt, Option.bind_eq_bind, Option.bind_eq_some_iff, Prod.exists] at parsed
  obtain ⟨century, _, centuryRead, year, _, yearRead, month, _, ⟨_, monthMark, monthRead⟩, day, _,
    ⟨_, dayMark, dayRead⟩, hour, _, ⟨_, hourMark, hourRead⟩, minute, _, ⟨_, minuteMark, minuteRead⟩,
    second, rest, ⟨_, secondMark, secondRead⟩, parts⟩ := parsed
  split at parts
  · next ended =>
      obtain ⟨centurySmall, text'⟩ := eq_writeHundreds_of_read centuryRead
      obtain ⟨yearSmall, rfl⟩ := eq_writeHundreds_of_read yearRead
      obtain ⟨_, rfl⟩ := eq_writeHundreds_of_read monthRead
      obtain ⟨_, rfl⟩ := eq_writeHundreds_of_read dayRead
      obtain ⟨_, rfl⟩ := eq_writeHundreds_of_read hourRead
      obtain ⟨_, rfl⟩ := eq_writeHundreds_of_read minuteRead
      obtain ⟨_, rfl⟩ := eq_writeHundreds_of_read secondRead
      obtain rfl := eq_cons_of_readChar monthMark
      obtain rfl := eq_cons_of_readChar dayMark
      obtain rfl := eq_cons_of_readChar hourMark
      obtain rfl := eq_cons_of_readChar minuteMark
      obtain rfl := eq_cons_of_readChar secondMark
      have digits : formatYear ((century * 100 + year : ℕ) : ℤ) =
          writeHundreds century ++ writeHundreds year := by
        have four : ((century * 100 + year : ℕ) : ℤ) ≤ 9999 := by omega
        rw [formatYear, if_pos ⟨Int.natCast_nonneg _, four⟩, Int.toNat_natCast,
          show (century * 100 + year) / 100 = century by omega,
          show (century * 100 + year) % 100 = year by omega]
      have seconds : (if second = 60 then 59 else second) +
          (if second = 60 then 10 ^ 9 else 0) / 10 ^ 9 = second := by
        split <;> omega
      obtain ⟨⟨sameYear, sameMonth, sameDay⟩, sameHour, sameMinute, sameSecond, sameNanosecond⟩ :=
        NaiveDateTime.parts_of_ofParts? parts
      apply String.toList_injective
      rw [text', ended]
      simp only [NaiveDateTime.formatStartedAt, String.toList_ofList,
        NaiveDateTime.startedAtText, NaiveDateTime.monthText, sameYear, sameMonth, sameDay,
        sameHour, sameMinute, sameSecond, sameNanosecond, digits, seconds, List.append_assoc,
        List.cons_append, List.append_nil]
  · cases parts

theorem time_bounds_are_chronological_sample : ChronologicalBounds crates .padded "data" :=
  time_bounds_are_chronological readsPadded .padded "data"

end Sample

end AribcapDb
