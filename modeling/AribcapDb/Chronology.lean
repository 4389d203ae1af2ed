import AribcapDb.Crates
import AribcapDb.Foundation.FixedWidth

/-! # The order of formatted times

Days are numbered in the order of the calendar (`daysFromCivil_lt_iff`), and the timestamps in
archive filenames are ordered like the seconds they stand for
(`NaiveDateTime.formatStartedAt_lt_iff`). -/

namespace AribcapDb

/-! ### The calendar -/

/-- The first day of a month, with the months numbered through all years. -/
def monthStart (index : ℤ) : ℤ := daysFromCivil (index / 12) ((index % 12).toNat + 1) 1

/-- The days of a month are counted from its first day. -/
theorem daysFromCivil_eq (year : ℤ) {month : ℕ} (valid : 1 ≤ month ∧ month ≤ 12) (day : ℕ) :
    daysFromCivil year month day = monthStart (year * 12 + (month - 1)) + (day - 1) := by
  have years : (year * 12 + ((month : ℤ) - 1)) / 12 = year := by omega
  have months : ((year * 12 + ((month : ℤ) - 1)) % 12).toNat + 1 = month := by omega
  rw [monthStart, years, months]
  simp only [daysFromCivil]
  omega

/-- After the last day of a month comes the first day of the next one. -/
theorem monthStart_succ (index : ℤ) :
    monthStart (index + 1) =
      monthStart index + daysInMonth (index / 12) ((index % 12).toNat + 1) := by
  obtain ⟨year, month, small, rfl⟩ : ∃ (year : ℤ) (month : ℕ), month < 12 ∧
      index = year * 12 + month := ⟨index / 12, (index % 12).toNat, by omega, by omega⟩
  have years : (year * 12 + (month : ℤ)) / 12 = year := by omega
  have months : ((year * 12 + (month : ℤ)) % 12).toNat = month := by omega
  have next : (year * 12 + (month : ℤ) + 1) / 12 = if month = 11 then year + 1 else year := by
    split <;> omega
  have nextMonth : ((year * 12 + (month : ℤ) + 1) % 12).toNat =
      if month = 11 then 0 else month + 1 := by
    split <;> omega
  rw [monthStart, monthStart, years, months, next, nextMonth]
  by_cases february : month = 1
  · subst february
    simp only [daysFromCivil, daysInMonth, isLeapYear]
    simp
    split_ifs <;> omega
  · interval_cases month <;> simp [daysFromCivil, daysInMonth] <;> omega

/-- A month ends before any later one begins. -/
theorem monthStart_add_daysInMonth_le {first second : ℤ} (before : first < second) :
    monthStart first + daysInMonth (first / 12) ((first % 12).toNat + 1) ≤ monthStart second := by
  induction second, before using Int.leInduction with
  | base => exact (monthStart_succ first).ge
  | succ second _ ih =>
      have positive := daysInMonth_pos (second / 12) ((second % 12).toNat + 1)
      rw [monthStart_succ second]
      omega

/-- The date is one of the calendar. -/
def IsDate (year : ℤ) (month day : ℕ) : Prop :=
  (1 ≤ month ∧ month ≤ 12) ∧ 1 ≤ day ∧ day ≤ daysInMonth year month

/-- The first date is the earlier one, by the year, then the month, then the day. -/
def EarlierDate (firstYear : ℤ) (firstMonth firstDay : ℕ) (secondYear : ℤ)
    (secondMonth secondDay : ℕ) : Prop :=
  firstYear < secondYear ∨ firstYear = secondYear ∧
    (firstMonth < secondMonth ∨ firstMonth = secondMonth ∧ firstDay < secondDay)

section Dates

variable {firstYear secondYear : ℤ} {firstMonth firstDay secondMonth secondDay : ℕ}

theorem daysFromCivil_lt_of_earlier (first : IsDate firstYear firstMonth firstDay)
    (second : IsDate secondYear secondMonth secondDay)
    (earlier : EarlierDate firstYear firstMonth firstDay secondYear secondMonth secondDay) :
    daysFromCivil firstYear firstMonth firstDay <
      daysFromCivil secondYear secondMonth secondDay := by
  obtain ⟨firstValid, _, lastDay⟩ := first
  obtain ⟨secondValid, firstOfMonth, _⟩ := second
  rw [daysFromCivil_eq _ firstValid, daysFromCivil_eq _ secondValid]
  have years : (firstYear * 12 + ((firstMonth : ℤ) - 1)) / 12 = firstYear := by omega
  have months : ((firstYear * 12 + ((firstMonth : ℤ) - 1)) % 12).toNat + 1 = firstMonth := by
    omega
  by_cases same : firstYear = secondYear ∧ firstMonth = secondMonth
  · obtain ⟨rfl, rfl⟩ := same
    have days : firstDay < secondDay := by
      simpa [EarlierDate] using earlier
    omega
  · have before : firstYear * 12 + ((firstMonth : ℤ) - 1) <
        secondYear * 12 + ((secondMonth : ℤ) - 1) := by
      unfold EarlierDate at earlier
      omega
    have ends := monthStart_add_daysInMonth_le before
    rw [years, months] at ends
    omega

/-- Days are numbered in the order of the dates. -/
theorem daysFromCivil_lt_iff (first : IsDate firstYear firstMonth firstDay)
    (second : IsDate secondYear secondMonth secondDay) :
    daysFromCivil firstYear firstMonth firstDay < daysFromCivil secondYear secondMonth secondDay ↔
      EarlierDate firstYear firstMonth firstDay secondYear secondMonth secondDay := by
  refine ⟨fun less => ?_, daysFromCivil_lt_of_earlier first second⟩
  by_contra other
  by_cases later : EarlierDate secondYear secondMonth secondDay firstYear firstMonth firstDay
  · exact less.asymm (daysFromCivil_lt_of_earlier second first later)
  · obtain ⟨rfl, rfl, rfl⟩ : firstYear = secondYear ∧ firstMonth = secondMonth ∧
        firstDay = secondDay := by
      unfold EarlierDate at other later
      omega
    exact less.false

end Dates

/-! ### The timestamps -/

theorem digitChar_lt_iff {first second : ℕ} (firstSmall : first < 10) (secondSmall : second < 10) :
    Nat.digitChar first < Nat.digitChar second ↔ first < second := by
  have digits : ∀ first < 10, ∀ second < 10,
      (Nat.digitChar first < Nat.digitChar second ↔ first < second) := by decide
  exact digits first firstSmall second secondSmall

theorem digitChar_inj {first second : ℕ} (firstSmall : first < 10) (secondSmall : second < 10) :
    Nat.digitChar first = Nat.digitChar second ↔ first = second := by
  refine ⟨fun same => ?_, congrArg Nat.digitChar⟩
  rw [← toNat_digitChar firstSmall, same, toNat_digitChar secondSmall]

/-- Numbers below a hundred are written in their order. -/
theorem ordered_writeHundreds : FixedWidth.Ordered writeHundreds 2 (· < 100) where
  length _ := rfl
  lt_iff left right leftSmall rightSmall := by
    rw [writeHundreds, writeHundreds, List.cons_lt_cons_iff, List.cons_lt_cons_iff,
      digitChar_lt_iff (by omega) (by omega), digitChar_lt_iff (by omega) (by omega),
      digitChar_inj (by omega) (by omega)]
    simp only [List.lt_irrefl, and_false, or_false]
    omega

namespace NaiveDateTime

/-- The numbers that a timestamp writes. -/
def fields (time : NaiveDateTime) : List ℕ :=
  [time.year.toNat / 100, time.year.toNat % 100, time.month, time.day, time.hour, time.minute,
    time.second + time.nanosecond / 10 ^ 9]

/-- What stands before each of them. -/
def separators : List (List Char) := [[], [], ['-'], ['-'], ['_'], ['-'], ['-']]

theorem isDate (time : NaiveDateTime) : IsDate time.year time.month time.day :=
  ⟨time.month_valid, time.day_valid⟩

theorem startedAtText_eq_writeFields {time : NaiveDateTime} (years : time.HasFourDigitYear) :
    time.startedAtText = FixedWidth.writeFields writeHundreds separators time.fields := by
  have year : formatYear time.year = writeHundreds (time.year.toNat / 100) ++
      writeHundreds (time.year.toNat % 100) := if_pos years
  simp [startedAtText, monthText, year, FixedWidth.writeFields, separators, fields]

theorem fields_small {time : NaiveDateTime} (years : time.HasFourDigitYear) :
    ∀ field ∈ time.fields, field < 100 := by
  have bound := years.2
  have month := time.month_valid.2
  have day := time.day_valid.2.trans (daysInMonth_le _ _)
  have hour := time.hour_valid
  have minute := time.minute_valid
  have second := time.second_valid
  have nanosecond := time.nanosecond_valid
  intro field member
  simp only [fields, List.mem_cons, List.not_mem_nil, or_false] at member
  omega

/-- The seconds of a day. -/
def secondOfDay (time : NaiveDateTime) : ℕ := time.hour * 3600 + time.minute * 60 + time.second

theorem instant_eq (time : NaiveDateTime) :
    time.instant = toLex (daysFromCivil time.year time.month time.day * 86400 +
      time.secondOfDay - jstOffsetSeconds, time.nanosecond) := by
  simp only [instant, secondOfDay, Nat.cast_add, Nat.cast_mul, Nat.cast_ofNat]
  congr 2
  omega

/-- Times are ordered by the day, then the second, then the part of the second. -/
theorem instant_lt_iff {first second : NaiveDateTime} :
    first.instant < second.instant ↔
      EarlierDate first.year first.month first.day second.year second.month second.day ∨
        (first.year = second.year ∧ first.month = second.month ∧ first.day = second.day) ∧
          (first.secondOfDay < second.secondOfDay ∨
            first.secondOfDay = second.secondOfDay ∧ first.nanosecond < second.nanosecond) := by
  have less := daysFromCivil_lt_iff first.isDate second.isDate
  have more := daysFromCivil_lt_iff second.isDate first.isDate
  have firstShort : first.secondOfDay < 86400 := by
    have valid := And.intro first.hour_valid (And.intro first.minute_valid first.second_valid)
    unfold secondOfDay
    omega
  have secondShort : second.secondOfDay < 86400 := by
    have valid := And.intro second.hour_valid (And.intro second.minute_valid second.second_valid)
    unfold secondOfDay
    omega
  rw [instant_eq, instant_eq, Prod.Lex.toLex_lt_toLex]
  unfold EarlierDate at less more ⊢
  omega

/-- Timestamps are ordered like the times they stand for. -/
theorem formatStartedAt_lt_iff {first second : NaiveDateTime} (firstYears : first.HasFourDigitYear)
    (secondYears : second.HasFourDigitYear) :
    first.formatStartedAt < second.formatStartedAt ↔
      first.truncated.instant < second.truncated.instant := by
  have texts : first.formatStartedAt < second.formatStartedAt ↔ first.fields < second.fields := by
    rw [String.lt_iff_toList_lt, formatStartedAt, formatStartedAt, String.toList_ofList,
      String.toList_ofList, startedAtText_eq_writeFields firstYears,
      startedAtText_eq_writeFields secondYears]
    exact FixedWidth.writeFields_lt_iff ordered_writeHundreds ⟨rfl, rfl⟩ (fields_small firstYears)
      (fields_small secondYears)
  have earlierYear : first.year < second.year ↔
      first.year.toNat / 100 < second.year.toNat / 100 ∨
        first.year.toNat / 100 = second.year.toNat / 100 ∧
          first.year.toNat % 100 < second.year.toNat % 100 := by
    have firstYear := firstYears.1
    have secondYear := secondYears.1
    omega
  have sameYear : first.year = second.year ↔
      first.year.toNat / 100 = second.year.toNat / 100 ∧
        first.year.toNat % 100 = second.year.toNat % 100 := by
    have firstYear := firstYears.1
    have secondYear := secondYears.1
    omega
  rw [texts, instant_lt_iff]
  have firstMinute := first.minute_valid
  have secondMinute := second.minute_valid
  have firstSecond := first.second_valid
  have secondSecond := second.second_valid
  have firstNanosecond := first.nanosecond_valid
  have secondNanosecond := second.nanosecond_valid
  simp only [fields, List.cons_lt_cons_iff, List.lt_irrefl, and_false, or_false, EarlierDate,
    earlierYear, sameYear, secondOfDay, truncated]
  clear texts earlierYear sameYear firstYears secondYears
  generalize first.year.toNat / 100 = firstCentury, second.year.toNat / 100 = secondCentury,
    first.year.toNat % 100 = firstYear, second.year.toNat % 100 = secondYear
  split_ifs <;> omega

theorem formatStartedAt_le_iff {first second : NaiveDateTime} (firstYears : first.HasFourDigitYear)
    (secondYears : second.HasFourDigitYear) :
    first.formatStartedAt ≤ second.formatStartedAt ↔
      first.truncated.instant ≤ second.truncated.instant := by
  rw [← not_lt, formatStartedAt_lt_iff secondYears firstYears, not_lt]

end NaiveDateTime

end AribcapDb
