import Mathlib

/-! # Recording times

Clock readings in JST, the timestamp written into archive filenames, and the parts of `chrono`
that read such timestamps back. Formatting is the documented behaviour of the numeric
specifiers; parsing is a parameter, of which only the reading of formatted timestamps is
assumed. -/

namespace AribcapDb

/-- An instant as `chrono` compares it: seconds since the epoch in UTC, then nanoseconds. -/
abbrev Instant := ℤ ×ₗ ℕ

def isLeapYear (year : ℤ) : Bool := year % 4 = 0 && (year % 100 ≠ 0 || year % 400 = 0)

def daysInMonth (year : ℤ) (month : ℕ) : ℕ :=
  if month = 2 then if isLeapYear year then 29 else 28
  else if month = 4 ∨ month = 6 ∨ month = 9 ∨ month = 11 then 30
  else 31

theorem daysInMonth_pos (year : ℤ) (month : ℕ) : 1 ≤ daysInMonth year month := by
  unfold daysInMonth
  split_ifs <;> omega

theorem daysInMonth_le (year : ℤ) (month : ℕ) : daysInMonth year month ≤ 31 := by
  unfold daysInMonth
  split_ifs <;> omega

/-- Days from 1970-01-01 in the proleptic Gregorian calendar, counting years from March. -/
def daysFromCivil (year : ℤ) (month day : ℕ) : ℤ :=
  let marchYear := if month ≤ 2 then year - 1 else year
  let era := marchYear / 400
  let yearOfEra := marchYear % 400
  let dayOfYear : ℤ := (153 * ((month + 9) % 12) + 2) / 5 + day - 1
  let dayOfEra := yearOfEra * 365 + yearOfEra / 4 - yearOfEra / 100 + dayOfYear
  era * 146097 + dayOfEra - 719468

/-- `chrono::NaiveDateTime`. A leap second is second 59 with more than a billion nanoseconds. -/
structure NaiveDateTime where
  year : ℤ
  month : ℕ
  day : ℕ
  hour : ℕ
  minute : ℕ
  second : ℕ
  nanosecond : ℕ
  month_valid : 1 ≤ month ∧ month ≤ 12
  day_valid : 1 ≤ day ∧ day ≤ daysInMonth year month
  hour_valid : hour < 24
  minute_valid : minute < 60
  second_valid : second < 60
  nanosecond_valid : nanosecond < 10 ^ 9 ∨ second = 59 ∧ nanosecond < 2 * 10 ^ 9
  deriving DecidableEq

def jstOffsetSeconds : ℤ := 9 * 60 * 60

/-- Two decimal digits. -/
def writeHundreds (n : ℕ) : List Char := [Nat.digitChar (n / 10), Nat.digitChar (n % 10)]

/-- `%Y`: four digits from year 0 to year 9999, and a sign with at least four digits
otherwise. -/
def formatYear (year : ℤ) : List Char :=
  if 0 ≤ year ∧ year ≤ 9999 then
    writeHundreds (year.toNat / 100) ++ writeHundreds (year.toNat % 100)
  else
    (if year < 0 then '-' else '+') ::
      (Nat.toDigits 10 year.natAbs).leftpad 4 '0'

namespace NaiveDateTime

/-- `jst().from_local_datetime(..).single()`: a fixed offset makes the local time unique. -/
def instant (time : NaiveDateTime) : Instant :=
  toLex (daysFromCivil time.year time.month time.day * 86400 + time.hour * 3600 +
    time.minute * 60 + time.second - jstOffsetSeconds, time.nanosecond)

/-- The time with its sub-second part dropped; a leap second stays one. -/
def truncated (time : NaiveDateTime) : NaiveDateTime :=
  { time with
    nanosecond := if time.nanosecond < 10 ^ 9 then 0 else 10 ^ 9
    nanosecond_valid := by
      have valid := time.nanosecond_valid
      split <;> omega }

/-- `%Y-%m`. -/
def monthText (time : NaiveDateTime) : List Char :=
  formatYear time.year ++ '-' :: writeHundreds time.month

/-- `STARTED_AT_FORMAT`, `%Y-%m-%d_%H-%M-%S`. -/
def startedAtText (time : NaiveDateTime) : List Char :=
  time.monthText ++ '-' :: writeHundreds time.day ++ '_' :: writeHundreds time.hour ++
    '-' :: writeHundreds time.minute ++
    '-' :: writeHundreds (time.second + time.nanosecond / 10 ^ 9)

def formatMonth (time : NaiveDateTime) : String := String.ofList time.monthText

def formatStartedAt (time : NaiveDateTime) : String := String.ofList time.startedAtText

/-- The years that `%Y` writes with exactly four digits. -/
def HasFourDigitYear (time : NaiveDateTime) : Prop := 0 ≤ time.year ∧ time.year ≤ 9999

instance (time : NaiveDateTime) : Decidable time.HasFourDigitYear :=
  inferInstanceAs (Decidable (_ ∧ _))

end NaiveDateTime

/-- The `chrono` functions the repository calls besides formatting. -/
structure Chrono where
  /-- `NaiveDateTime::parse_from_str` with `STARTED_AT_FORMAT`. -/
  parseStartedAt : String → Option NaiveDateTime
  parseStartedAt_format : ∀ time : NaiveDateTime, time.HasFourDigitYear →
    parseStartedAt time.formatStartedAt = some time.truncated
  /-- `DateTime::parse_from_rfc3339`. -/
  parseFromRfc3339 : String → Option Instant
  /-- The largest `TimeDelta`, in nanoseconds. -/
  maxTimeDelta : ℕ
  /-- `DateTime::<Utc>::MIN_UTC`. -/
  minUtc : Instant

/-- The characters of timestamps. -/
def isTimestampChar (char : Char) : Bool :=
  char.isDigit || char == '-' || char == '_' || char == '+'

theorem isDigit_digitChar {n : ℕ} (small : n < 10) : (Nat.digitChar n).isDigit = true := by
  interval_cases n <;> rfl

theorem all_writeHundreds {n : ℕ} (small : n < 100) :
    ∀ char ∈ writeHundreds n, isTimestampChar char = true := by
  intro char member
  simp only [writeHundreds, List.mem_cons, List.not_mem_nil, or_false] at member
  rcases member with rfl | rfl
  · simp [isTimestampChar, isDigit_digitChar (show n / 10 < 10 by omega)]
  · simp [isTimestampChar, isDigit_digitChar (show n % 10 < 10 by omega)]

theorem all_formatYear (year : ℤ) :
    ∀ char ∈ formatYear year, isTimestampChar char = true := by
  unfold formatYear
  split
  · rename_i range
    intro char member
    rcases List.mem_append.mp member with high | low
    · exact all_writeHundreds (by omega) char high
    · exact all_writeHundreds (by omega) char low
  · intro char member
    rcases List.mem_cons.mp member with rfl | digits
    · split <;> rfl
    · rcases List.mem_append.mp digits with padding | digit
      · rw [List.eq_of_mem_replicate padding]
        rfl
      · have decimal := Nat.isDigit_of_mem_toDigits (by omega) (by omega) digit
        simp [isTimestampChar, decimal]

namespace NaiveDateTime

theorem all_monthText (time : NaiveDateTime) :
    ∀ char ∈ time.monthText, isTimestampChar char = true := by
  have month := time.month_valid
  intro char member
  rcases List.mem_append.mp member with year | rest
  · exact all_formatYear _ char year
  · rcases List.mem_cons.mp rest with rfl | digits
    · rfl
    · exact all_writeHundreds (by omega) char digits

theorem all_startedAtText (time : NaiveDateTime) :
    ∀ char ∈ time.startedAtText, isTimestampChar char = true := by
  have day : time.day < 100 := by
    have valid := time.day_valid.2.trans (daysInMonth_le _ _)
    omega
  have hour := time.hour_valid
  have minute := time.minute_valid
  have second := time.second_valid
  have nanosecond := time.nanosecond_valid
  intro char member
  simp only [startedAtText, List.append_assoc, List.cons_append, List.mem_append,
    List.mem_cons] at member
  rcases member with head | rfl | digits | rfl | digits | rfl | digits | rfl | digits
  · exact time.all_monthText char head
  · rfl
  · exact all_writeHundreds day char digits
  · rfl
  · exact all_writeHundreds (by omega) char digits
  · rfl
  · exact all_writeHundreds (by omega) char digits
  · rfl
  · exact all_writeHundreds (by omega) char digits

theorem length_formatYear_of_range {year : ℤ} (range : 0 ≤ year ∧ year ≤ 9999) :
    (formatYear year).length = 4 := by
  simp [formatYear, range, writeHundreds]

theorem length_formatYear_of_not_range {year : ℤ} (range : ¬ (0 ≤ year ∧ year ≤ 9999)) :
    5 ≤ (formatYear year).length := by
  simp only [formatYear, range, ↓reduceIte, List.length_cons, List.length_leftpad]
  omega

theorem length_startedAtText (time : NaiveDateTime) :
    time.startedAtText.length = (formatYear time.year).length + 15 := by
  simp [startedAtText, monthText, writeHundreds]

end NaiveDateTime

end AribcapDb
