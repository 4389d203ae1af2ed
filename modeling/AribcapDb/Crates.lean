import AribcapDb.Json
import AribcapDb.Path

/-! # The third-party code behind the archive

Everything the recorder and the indexer take from other crates is one parameter. A concrete
instance, which agrees with the crates on ASCII text, timestamps written by the recorder and a
fixed list of JSON records, shows that what is assumed of them can be met. -/

namespace AribcapDb

/-- The crates that the recorder and the indexer call. -/
structure Crates where
  serde : SerdeJson
  unicode : Unicode
  chrono : Chrono
  sanitizeFilename : SanitizeFilename

namespace NaiveDateTime

/-- The time with the given parts, when they are valid. -/
def ofParts? (year : ℤ) (month day hour minute second nanosecond : ℕ) :
    Option NaiveDateTime :=
  if valid : (1 ≤ month ∧ month ≤ 12) ∧ (1 ≤ day ∧ day ≤ daysInMonth year month) ∧
      hour < 24 ∧ minute < 60 ∧ second < 60 ∧
      (nanosecond < 10 ^ 9 ∨ second = 59 ∧ nanosecond < 2 * 10 ^ 9) then
    some ⟨year, month, day, hour, minute, second, nanosecond, valid.1, valid.2.1, valid.2.2.1,
      valid.2.2.2.1, valid.2.2.2.2.1, valid.2.2.2.2.2⟩
  else none

theorem ofParts?_self (time : NaiveDateTime) :
    ofParts? time.year time.month time.day time.hour time.minute time.second time.nanosecond =
      some time :=
  dif_pos ⟨time.month_valid, time.day_valid, time.hour_valid, time.minute_valid,
    time.second_valid, time.nanosecond_valid⟩

end NaiveDateTime

/-- Read two decimal digits. -/
def readHundreds : List Char → Option (ℕ × List Char)
  | tens :: ones :: rest =>
      if tens.isDigit && ones.isDigit then
        some ((tens.toNat - '0'.toNat) * 10 + (ones.toNat - '0'.toNat), rest)
      else none
  | _ => none

def readChar (expected : Char) : List Char → Option (List Char)
  | char :: rest => if char = expected then some rest else none
  | [] => none

/-- Read a timestamp of exactly the form the recorder writes. -/
def readStartedAt (text : String) : Option NaiveDateTime := do
  let (century, rest) ← readHundreds text.toList
  let (year, rest) ← readHundreds rest
  let (month, rest) ← readChar '-' rest >>= readHundreds
  let (day, rest) ← readChar '-' rest >>= readHundreds
  let (hour, rest) ← readChar '_' rest >>= readHundreds
  let (minute, rest) ← readChar '-' rest >>= readHundreds
  let (second, rest) ← readChar '-' rest >>= readHundreds
  if rest = [] then
    NaiveDateTime.ofParts? (century * 100 + year : ℕ) month day hour minute
      (if second = 60 then 59 else second) (if second = 60 then 10 ^ 9 else 0)
  else none

theorem toNat_digitChar {n : ℕ} (small : n < 10) :
    (Nat.digitChar n).toNat - '0'.toNat = n := by
  interval_cases n <;> rfl

theorem readHundreds_writeHundreds {n : ℕ} (small : n < 100) (rest : List Char) :
    readHundreds (writeHundreds n ++ rest) = some (n, rest) := by
  have tens : n / 10 < 10 := by omega
  have ones : n % 10 < 10 := by omega
  have whole : n / 10 * 10 + n % 10 = n := by omega
  simp only [writeHundreds, List.cons_append, List.nil_append, readHundreds,
    isDigit_digitChar tens, isDigit_digitChar ones, toNat_digitChar tens, toNat_digitChar ones,
    Bool.and_self, ↓reduceIte, whole]

theorem readStartedAt_format (time : NaiveDateTime) (years : time.HasFourDigitYear) :
    readStartedAt time.formatStartedAt = some time.truncated := by
  have year : formatYear time.year = writeHundreds (time.year.toNat / 100) ++
      writeHundreds (time.year.toNat % 100) := if_pos years
  have century : time.year.toNat / 100 < 100 := by
    have bound := years.2
    omega
  have short : time.year.toNat % 100 < 100 := Nat.mod_lt _ (by omega)
  have whole : ((time.year.toNat / 100 * 100 + time.year.toNat % 100 : ℕ) : ℤ) = time.year := by
    have bound := years.1
    omega
  have month : time.month < 100 := by
    have valid := time.month_valid
    omega
  have day : time.day < 100 := by
    have valid := time.day_valid.2.trans (daysInMonth_le _ _)
    omega
  have hour : time.hour < 100 := by
    have valid := time.hour_valid
    omega
  have minute : time.minute < 100 := by
    have valid := time.minute_valid
    omega
  have secondValid := time.second_valid
  have nanosecondValid := time.nanosecond_valid
  have second : time.second + time.nanosecond / 10 ^ 9 < 100 := by omega
  have seconds : (if time.second + time.nanosecond / 10 ^ 9 = 60 then 59
      else time.second + time.nanosecond / 10 ^ 9) = time.second := by
    split <;> omega
  have nanoseconds : (if time.second + time.nanosecond / 10 ^ 9 = 60 then 10 ^ 9 else 0) =
      time.truncated.nanosecond := by
    simp only [NaiveDateTime.truncated]
    split <;> split <;> omega
  have last := readHundreds_writeHundreds second []
  rw [List.append_nil] at last
  simp only [readStartedAt, NaiveDateTime.formatStartedAt, String.toList_ofList,
    NaiveDateTime.startedAtText, NaiveDateTime.monthText, year, List.append_assoc,
    List.cons_append, readHundreds_writeHundreds century, readHundreds_writeHundreds short,
    readChar, ↓reduceIte, readHundreds_writeHundreds month, readHundreds_writeHundreds day,
    readHundreds_writeHundreds hour, readHundreds_writeHundreds minute, last, whole, seconds,
    nanoseconds, Option.bind_eq_bind, Option.bind_some]
  exact NaiveDateTime.ofParts?_self time.truncated

namespace Crates

/-- The crates on ASCII text, canonical timestamps and the given JSON records; every other text
is a parse error. -/
def ascii (records : List (String × Value)) (nonempty : records.lookup "" = none) : Crates where
  serde :=
    { fromStr := fun text => records.lookup (trimEndCr text)
      fromStr_trimEndCr := fun text => by rw [trimEndCr_trimEndCr]
      fromStr_empty := by
        have empty : trimEndCr "" = "" := by decide
        rw [empty, nonempty] }
  unicode :=
    { nfkc := id
      toLowercase := fun char => [char.toLower]
      isAlphanumeric := Char.isAlphanum }
  chrono :=
    { parseStartedAt := readStartedAt
      parseStartedAt_format := readStartedAt_format
      parseFromRfc3339 := fun _ => none
      maxTimeDelta := 9223372036854775807 * 10 ^ 6
      minUtc := toLex (daysFromCivil (-262143) 1 1 * 86400, 0) }
  sanitizeFilename :=
    { removed := fun char =>
        "/?<>\\:*|\"".toList.contains char || char.toNat < 0x20 ||
          (0x80 ≤ char.toNat && char.toNat ≤ 0x9F)
      removed_separator := by decide
      removed_backslash := by decide
      removed_control := fun char control => by
        rcases control with low | high
        · simp [low]
        · simp [high] }

end Crates

/-! ### JSON records and clock readings for examples -/

/-- A run that evaluates to a value succeeds. -/
theorem exists_ok_of_toOption_map {ε α β : Type} {result : Except ε α} {view : α → β}
    {value : β} (evaluates : result.toOption.map view = some value) :
    ∃ final, result = .ok final ∧ view final = value := by
  cases result with
  | error _ => cases evaluates
  | ok final => exact ⟨final, rfl, Option.some.inj evaluates⟩

theorem eq_ok_of_toOption {ε α : Type} {result : Except ε α} {value : α}
    (evaluates : result.toOption = some value) : result = .ok value := by
  cases result with
  | error _ => cases evaluates
  | ok final => exact congrArg _ (Option.some.inj evaluates)

/-- A run in two parts succeeds when both do. -/
theorem exists_ok_of_bind {ε α β : Type} {result : Except ε α} {rest : α → Except ε β}
    {final : β} (ran : (result >>= rest) = .ok final) :
    ∃ middle, result = .ok middle ∧ rest middle = .ok final := by
  cases result with
  | error _ => cases ran
  | ok middle => exact ⟨middle, rfl, ran⟩

namespace Sample

def newsLine : String := "\x7b\"type\":\"eit\",\"section\":\"present\",\"eventId\":1\x7d"

def dramaLine : String := "\x7b\"type\":\"eit\",\"section\":\"present\",\"eventId\":2\x7d"

def captionLine : String := "\x7b\"type\":\"caption\",\"text\":\"hello\"\x7d"

def presentEit (eventId : UInt64) : Value :=
  .object [("type", .string "eit"), ("section", .string "present"),
    ("eventId", .number (.posInt eventId))]

def caption : Value := .object [("type", .string "caption"), ("text", .string "hello")]

def crates : Crates :=
  .ascii [(newsLine, presentEit 1), (dramaLine, presentEit 2), (captionLine, caption)] rfl

theorem zero_lt_sixty : 0 < 60 := by
  decide

/-- Numerals are seconds. -/
instance neZero_sixty : NeZero 60 := ⟨by decide⟩

/-- A second in the first minute after noon on the first of July 2026. -/
def clock (second : Fin 60) : NaiveDateTime :=
  ⟨2026, 7, 1, 12, 0, second, 0, by decide, by decide, by decide, by decide, second.isLt,
    .inl (by decide)⟩

end Sample

end AribcapDb
