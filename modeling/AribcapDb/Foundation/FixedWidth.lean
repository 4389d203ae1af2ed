import Mathlib

/-! # Texts with fields of fixed widths

A text is written field by field, each field behind its separator. When all fields are written with
the same width and in the order of their values, texts with the same separators are ordered like
their lists of fields (`FixedWidth.writeFields_lt_iff`).
-/

namespace FixedWidth

variable {α ν : Type*} [LinearOrder α] [LinearOrder ν]

/-- The fields behind their separators. -/
def writeFields (write : ν → List α) (separators : List (List α)) (fields : List ν) : List α :=
  (List.zipWith (fun separator field => separator ++ write field) separators fields).flatten

/-- A common front does not matter. -/
theorem append_lt_append_left_iff (front : List α) {left right : List α} :
    front ++ left < front ++ right ↔ left < right := by
  induction front with
  | nil => rfl
  | cons first front ih => simp [ih]

/-- The order of texts with fronts of the same length. -/
theorem append_lt_append_iff {first second left right : List α}
    (same : first.length = second.length) :
    first ++ left < second ++ right ↔ first < second ∨ first = second ∧ left < right := by
  induction first generalizing second with
  | nil =>
      obtain rfl := List.length_eq_zero_iff.mp same.symm
      simp
  | cons one first ih =>
      obtain ⟨other, second, rfl⟩ := List.exists_cons_of_length_eq_add_one same.symm
      rw [List.cons_append, List.cons_append, List.cons_lt_cons_iff, List.cons_lt_cons_iff,
        ih (by simpa using same), List.cons.injEq]
      tauto

/-- Fields of one width that are written in order. -/
structure Ordered (write : ν → List α) (width : ℕ) (valid : ν → Prop) : Prop where
  length : ∀ field, (write field).length = width
  lt_iff : ∀ left right, valid left → valid right → (write left < write right ↔ left < right)

namespace Ordered

variable {write : ν → List α} {width : ℕ} {valid : ν → Prop}

theorem eq_iff (ordered : Ordered write width valid) {left right : ν} (first : valid left)
    (second : valid right) : write left = write right ↔ left = right := by
  refine ⟨fun same => ?_, congrArg write⟩
  rcases lt_trichotomy left right with less | equal | more
  · exact absurd same ((ordered.lt_iff left right first second).mpr less).ne
  · exact equal
  · exact absurd same.symm ((ordered.lt_iff right left second first).mpr more).ne

end Ordered

/-- Texts with the same separators are ordered like their fields. -/
theorem writeFields_lt_iff {write : ν → List α} {width : ℕ} {valid : ν → Prop}
    (ordered : Ordered write width valid) {separators : List (List α)} {left right : List ν}
    (lengths : left.length = separators.length ∧ right.length = separators.length)
    (first : ∀ field ∈ left, valid field) (second : ∀ field ∈ right, valid field) :
    writeFields write separators left < writeFields write separators right ↔ left < right := by
  induction separators generalizing left right with
  | nil =>
      obtain rfl := List.length_eq_zero_iff.mp lengths.1
      obtain rfl := List.length_eq_zero_iff.mp lengths.2
      simp [writeFields]
  | cons separator separators ih =>
      obtain ⟨one, left, rfl⟩ := List.exists_cons_of_length_eq_add_one lengths.1
      obtain ⟨other, right, rfl⟩ := List.exists_cons_of_length_eq_add_one lengths.2
      have here := first one List.mem_cons_self
      have there := second other List.mem_cons_self
      have rest := ih (by simpa using lengths) (fun field member => first field (by simp [member]))
        fun field member => second field (by simp [member])
      have widths : (write one).length = (write other).length := by
        rw [ordered.length, ordered.length]
      simp only [writeFields, List.zipWith_cons_cons, List.flatten_cons, List.append_assoc]
        at rest ⊢
      rw [append_lt_append_left_iff, append_lt_append_iff widths,
        ordered.lt_iff one other here there, ordered.eq_iff here there, List.cons_lt_cons_iff, rest]

end FixedWidth
