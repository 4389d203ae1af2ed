import Mathlib

/-! # Text

The string operations of the standard library that the recorder and the indexer rely on, over
byte lists for file contents and `String` for decoded text, and the normalization that the
search index applies to every text it stores. -/

namespace AribcapDb

/-- The UTF-8 bytes of a string. -/
def utf8Bytes (text : String) : List UInt8 := text.toByteArray.data.toList

/-- A continuation byte of a multi-byte UTF-8 sequence. -/
def isContinuation (byte : UInt8) : Bool := 0x80 ≤ byte && byte ≤ 0xBF

/-- The second bytes that may follow the first byte of a longer sequence. -/
def isSecondByte (first second : UInt8) : Bool :=
  if first = 0xE0 then 0xA0 ≤ second && second ≤ 0xBF
  else if first = 0xED then 0x80 ≤ second && second ≤ 0x9F
  else if first = 0xF0 then 0x90 ≤ second && second ≤ 0xBF
  else if first = 0xF4 then 0x80 ≤ second && second ≤ 0x8F
  else isContinuation second

/-- The first character of a byte list and how many bytes after the first belong to it; an
invalid sequence gives U+FFFD for its longest valid beginning. -/
def decodeFirst (first : UInt8) (rest : List UInt8) : Char × ℕ :=
  let payload (byte : UInt8) : ℕ := byte.toNat % 64
  if first < 0x80 then (Char.ofNat first.toNat, 0)
  else if 0xC2 ≤ first && first ≤ 0xDF then
    match rest with
    | second :: _ =>
        if isContinuation second then
          (Char.ofNat (first.toNat % 32 * 64 + payload second), 1)
        else ('\uFFFD', 0)
    | [] => ('\uFFFD', 0)
  else if 0xE0 ≤ first && first ≤ 0xEF then
    match rest with
    | second :: third :: _ =>
        if !isSecondByte first second then ('\uFFFD', 0)
        else if isContinuation third then
          (Char.ofNat (first.toNat % 16 * 4096 + payload second * 64 + payload third), 2)
        else ('\uFFFD', 1)
    | [second] => ('\uFFFD', if isSecondByte first second then 1 else 0)
    | [] => ('\uFFFD', 0)
  else if 0xF0 ≤ first && first ≤ 0xF4 then
    match rest with
    | second :: third :: fourth :: _ =>
        if !isSecondByte first second then ('\uFFFD', 0)
        else if !isContinuation third then ('\uFFFD', 1)
        else if isContinuation fourth then
          (Char.ofNat (first.toNat % 8 * 262144 + payload second * 4096 +
            payload third * 64 + payload fourth), 3)
        else ('\uFFFD', 2)
    | [second, third] =>
        ('\uFFFD', if !isSecondByte first second then 0 else if isContinuation third then 2 else 1)
    | [second] => ('\uFFFD', if isSecondByte first second then 1 else 0)
    | [] => ('\uFFFD', 0)
  else ('\uFFFD', 0)

def decodeLossy : ℕ → List UInt8 → List Char
  | 0, _ => []
  | _ + 1, [] => []
  | fuel + 1, first :: rest =>
      let (char, more) := decodeFirst first rest
      char :: decodeLossy fuel (rest.drop more)

/-- `String::from_utf8_lossy`. Valid input is taken as it is; every invalid sequence becomes
one replacement character. -/
def fromUtf8Lossy (bytes : List UInt8) : String :=
  match String.fromUTF8? ⟨bytes.toArray⟩ with
  | some text => text
  | none => String.ofList (decodeLossy bytes.length bytes)

/-- `str::trim_end_matches('\r')`. -/
def trimEndCr (text : String) : String :=
  String.ofList (text.toList.rdropWhile (· == '\r'))

/-- The characters with the Unicode property `White_Space`. -/
def isWhitespace (char : Char) : Bool :=
  let code := char.toNat
  (0x09 ≤ code && code ≤ 0x0D) || code == 0x20 || code == 0x85 || code == 0xA0 ||
    code == 0x1680 || (0x2000 ≤ code && code ≤ 0x200A) || code == 0x2028 || code == 0x2029 ||
    code == 0x202F || code == 0x205F || code == 0x3000

/-- `char::is_control`: the characters of the Unicode category `Cc`. -/
def isControl (char : Char) : Bool :=
  char.toNat < 0x20 || (0x7F ≤ char.toNat && char.toNat ≤ 0x9F)

/-- `str::trim`. -/
def trim (text : String) : String :=
  String.ofList ((text.toList.dropWhile isWhitespace).rdropWhile isWhitespace)

/-- The Unicode tables behind normalization: the compatibility composition of the
`unicode-normalization` crate and the character properties of the standard library. -/
structure Unicode where
  nfkc : String → String
  toLowercase : Char → List Char
  isAlphanumeric : Char → Bool

/-- `normalize_search_text`. -/
def normalizeSearchText (unicode : Unicode) (input : String) : String :=
  String.ofList
    (((unicode.nfkc input).toList.flatMap unicode.toLowercase).filter unicode.isAlphanumeric)

/-- `search_index_text`: one space-separated token for every normalized character. -/
def searchIndexText (unicode : Unicode) (input : String) : String :=
  String.ofList ([' '].intercalate ((normalizeSearchText unicode input).toList.map ([·])))

/-- Decoding the bytes of a string gives the string back. -/
theorem fromUtf8Lossy_utf8Bytes (text : String) : fromUtf8Lossy (utf8Bytes text) = text := by
  simp [fromUtf8Lossy, utf8Bytes, String.fromUTF8?, text.isValidUTF8, String.fromUTF8]

/-- Trimming carriage returns a second time changes nothing. -/
theorem trimEndCr_trimEndCr (text : String) : trimEndCr (trimEndCr text) = trimEndCr text := by
  simp only [trimEndCr, String.toList_ofList, List.rdropWhile_idempotent]

theorem utf8Bytes_eq_flatMap (text : String) :
    utf8Bytes text = text.toList.flatMap String.utf8EncodeChar := by
  conv_lhs => rw [← String.ofList_toList (s := text)]
  rw [utf8Bytes, String.toByteArray_ofList, List.utf8Encode, List.data_toByteArray]

theorem utf8Bytes_append (left right : String) :
    utf8Bytes (left ++ right) = utf8Bytes left ++ utf8Bytes right := by
  simp [utf8Bytes_eq_flatMap]

theorem newline_not_mem_encodeChar {char : Char} (other : char ≠ '\n') :
    (10 : UInt8) ∉ String.utf8EncodeChar char := by
  have code : char.val.toNat ≠ 10 := fun same => other (Char.ext (UInt32.toNat_inj.mp same))
  intro member
  simp only [String.utf8EncodeChar] at member
  split_ifs at member <;>
    simp only [List.mem_cons, List.not_mem_nil, or_false, ← UInt8.toNat_inj, UInt8.toNat_ofNat',
      UInt8.reduceToNat] at member <;> omega

/-- A newline byte in the encoding of a string comes from a newline character. -/
theorem newline_not_mem_utf8Bytes {text : String} (free : '\n' ∉ text.toList) :
    (10 : UInt8) ∉ utf8Bytes text := by
  rw [utf8Bytes_eq_flatMap, List.mem_flatMap]
  rintro ⟨char, member, inside⟩
  exact newline_not_mem_encodeChar (fun same => free (same ▸ member)) inside

theorem ofNat_ne_newline {code : ℕ} (other : code ≠ 10) : Char.ofNat code ≠ '\n' := by
  intro same
  have value := congrArg Char.toNat same
  rw [Char.ofNat] at value
  split at value
  · exact other (by simpa [Char.toNat, Char.ofNatAux] using value)
  · simp at value

/-- A decoded character is a newline only where a newline byte stands. -/
theorem decodeFirst_ne_newline {first : UInt8} {rest : List UInt8} (other : first ≠ 10) :
    (decodeFirst first rest).1 ≠ '\n' := by
  have replacement : '\uFFFD' ≠ '\n' := by decide
  unfold decodeFirst
  dsimp only
  split
  · exact ofNat_ne_newline fun same => other (UInt8.toNat_inj.mp same)
  · split
    · next two =>
        simp only [Bool.and_eq_true, decide_eq_true_eq, UInt8.le_iff_toNat_le,
          UInt8.reduceToNat] at two
        split
        · split
          · exact ofNat_ne_newline (by omega)
          · exact replacement
        · exact replacement
    · split
      · next three =>
          simp only [Bool.and_eq_true, decide_eq_true_eq, UInt8.le_iff_toNat_le,
            UInt8.reduceToNat] at three
          split
          · next second third _ =>
              split
              · exact replacement
              · next follows =>
                  split
                  · apply ofNat_ne_newline
                    by_cases low : first = 0xE0
                    · subst low
                      simp only [isSecondByte, ↓reduceIte, Bool.not_eq_true', Bool.not_eq_false,
                        Bool.and_eq_true, decide_eq_true_eq, UInt8.le_iff_toNat_le,
                        UInt8.reduceToNat] at follows
                      omega
                    · have high : first.toNat ≠ 224 := fun same => low (UInt8.toNat_inj.mp same)
                      omega
                  · exact replacement
          · exact replacement
          · exact replacement
      · split
        · next four =>
            simp only [Bool.and_eq_true, decide_eq_true_eq, UInt8.le_iff_toNat_le,
              UInt8.reduceToNat] at four
            split
            · next second third fourth _ =>
                split
                · exact replacement
                · next follows =>
                    split
                    · exact replacement
                    · split
                      · apply ofNat_ne_newline
                        by_cases low : first = 0xF0
                        · subst low
                          rw [isSecondByte, if_neg (by decide), if_neg (by decide), if_pos rfl]
                            at follows
                          simp only [Bool.not_eq_true', Bool.not_eq_false, Bool.and_eq_true,
                            decide_eq_true_eq, UInt8.le_iff_toNat_le, UInt8.reduceToNat] at follows
                          omega
                        · have high : first.toNat ≠ 240 := fun same =>
                            low (UInt8.toNat_inj.mp same)
                          omega
                      · exact replacement
            · exact replacement
            · exact replacement
            · exact replacement
        · exact replacement

theorem newline_not_mem_decodeLossy {fuel : ℕ} {bytes : List UInt8} (free : (10 : UInt8) ∉ bytes) :
    '\n' ∉ decodeLossy fuel bytes := by
  induction fuel generalizing bytes with
  | zero => exact List.not_mem_nil
  | succ fuel ih =>
      cases bytes with
      | nil => exact List.not_mem_nil
      | cons first rest =>
          rw [List.mem_cons, not_or] at free
          rw [decodeLossy, List.mem_cons, not_or]
          exact ⟨(decodeFirst_ne_newline (Ne.symm free.1)).symm,
            ih fun member => free.2 (List.mem_of_mem_drop member)⟩

/-- Decoding adds no newline. -/
theorem newline_not_mem_fromUtf8Lossy {bytes : List UInt8} (free : (10 : UInt8) ∉ bytes) :
    (10 : UInt8) ∉ utf8Bytes (fromUtf8Lossy bytes) := by
  unfold fromUtf8Lossy
  split
  · next text decoded =>
      have same : utf8Bytes text = bytes := by
        rw [String.fromUTF8?] at decoded
        split at decoded
        · cases decoded
          simp [utf8Bytes, String.fromUTF8]
        · cases decoded
      rwa [same]
  · apply newline_not_mem_utf8Bytes
    rw [String.toList_ofList]
    exact newline_not_mem_decodeLossy free

end AribcapDb
