import Mathlib

/-! # Percent encoding

Bytes as they are written between the slashes of a URL. Letters, digits and four marks stand for
themselves, and every other byte is a percent sign with two hexadecimal digits. Reading is the
inverse of writing (`decode_encode`), and what is written holds no slash
(`isSafe_of_mem_encode`). -/

namespace PercentEncoding

/-- The bytes that stand for themselves. -/
def isUnreserved (byte : UInt8) : Bool :=
  (48 ≤ byte && byte ≤ 57) || (65 ≤ byte && byte ≤ 90) || (97 ≤ byte && byte ≤ 122) ||
    byte == 45 || byte == 46 || byte == 95 || byte == 126

/-- A hexadecimal digit as it is written. -/
def hexDigit (n : ℕ) : UInt8 := UInt8.ofNat (if n < 10 then 48 + n else 55 + n)

/-- The value of a hexadecimal digit, in upper or lower case. -/
def hexValue (byte : UInt8) : Option ℕ :=
  if 48 ≤ byte && byte ≤ 57 then some (byte.toNat - 48)
  else if 65 ≤ byte && byte ≤ 70 then some (byte.toNat - 55)
  else if 97 ≤ byte && byte ≤ 102 then some (byte.toNat - 87)
  else none

def encodeByte (byte : UInt8) : List UInt8 :=
  if isUnreserved byte then [byte]
  else [37, hexDigit (byte.toNat / 16), hexDigit (byte.toNat % 16)]

/-- Write bytes. -/
def encode (bytes : List UInt8) : List UInt8 := bytes.flatMap encodeByte

/-- The byte that two digits stand for. -/
def escaped (high low : UInt8) : Option UInt8 := do
  let first ← hexValue high
  let second ← hexValue low
  pure (UInt8.ofNat (first * 16 + second))

/-- Read bytes; a percent sign without two digits stands for itself. -/
def decode : List UInt8 → List UInt8
  | [] => []
  | [byte] => [byte]
  | [first, second] => [first, second]
  | first :: high :: low :: rest =>
      match if first = 37 then escaped high low else none with
      | some byte => byte :: decode rest
      | none => first :: decode (high :: low :: rest)

theorem hexValue_hexDigit {n : ℕ} (small : n < 16) : hexValue (hexDigit n) = some n := by
  interval_cases n <;> rfl

theorem escaped_hexDigits (byte : UInt8) :
    escaped (hexDigit (byte.toNat / 16)) (hexDigit (byte.toNat % 16)) = some byte := by
  have high : byte.toNat / 16 < 16 := by
    have bound := byte.toNat_lt
    omega
  have whole : byte.toNat / 16 * 16 + byte.toNat % 16 = byte.toNat := by omega
  rw [escaped, hexValue_hexDigit high, hexValue_hexDigit (Nat.mod_lt _ (by omega)),
    Option.bind_eq_bind, Option.bind_some, Option.bind_some, whole, UInt8.ofNat_toNat]
  rfl

/-- A byte that is no percent sign is read as it is. -/
theorem decode_cons {byte : UInt8} (other : byte ≠ 37) (rest : List UInt8) :
    decode (byte :: rest) = byte :: decode rest := by
  match rest with
  | [] => rfl
  | [_] => rfl
  | _ :: _ :: _ => rw [decode, if_neg other]

theorem decode_escape {high low byte : UInt8} (value : escaped high low = some byte)
    (rest : List UInt8) : decode (37 :: high :: low :: rest) = byte :: decode rest := by
  rw [decode, if_pos rfl, value]

theorem ne_percent_of_isUnreserved {byte : UInt8} (unreserved : isUnreserved byte = true) :
    byte ≠ 37 := by
  rintro rfl
  cases unreserved

/-- A written byte is read back, whatever follows. -/
theorem decode_encodeByte (byte : UInt8) (rest : List UInt8) :
    decode (encodeByte byte ++ rest) = byte :: decode rest := by
  unfold encodeByte
  split
  · next unreserved => exact decode_cons (ne_percent_of_isUnreserved unreserved) rest
  · exact decode_escape (escaped_hexDigits byte) rest

/-- Reading is the inverse of writing. -/
theorem decode_encode (bytes : List UInt8) : decode (encode bytes) = bytes := by
  induction bytes with
  | nil => rfl
  | cons byte bytes ih =>
      rw [encode, List.flatMap_cons, decode_encodeByte]
      exact congrArg _ ih

theorem encode_injective : Function.Injective encode :=
  Function.LeftInverse.injective decode_encode

theorem isUnreserved_hexDigit {n : ℕ} (small : n < 16) : isUnreserved (hexDigit n) = true := by
  interval_cases n <;> rfl

/-- What is written has only unreserved bytes and percent signs. -/
theorem isSafe_of_mem_encode {bytes : List UInt8} {byte : UInt8} (member : byte ∈ encode bytes) :
    byte = 37 ∨ isUnreserved byte = true := by
  obtain ⟨source, _, inside⟩ := List.mem_flatMap.mp member
  unfold encodeByte at inside
  split at inside
  · next unreserved =>
      rw [List.mem_singleton] at inside
      exact .inr (inside ▸ unreserved)
  · have high : source.toNat / 16 < 16 := by
      have bound := source.toNat_lt
      omega
    simp only [List.mem_cons, List.not_mem_nil, or_false] at inside
    rcases inside with rfl | rfl | rfl
    · exact .inl rfl
    · exact .inr (isUnreserved_hexDigit high)
    · exact .inr (isUnreserved_hexDigit (Nat.mod_lt _ (by omega)))

theorem encode_ne_nil {bytes : List UInt8} (some : bytes ≠ []) : encode bytes ≠ [] := by
  intro empty
  exact some (encode_injective (empty.trans rfl))

end PercentEncoding
