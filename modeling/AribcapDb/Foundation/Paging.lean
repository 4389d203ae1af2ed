import Mathlib

/-! # Pages of a numbered list

The rows of a list that is strictly ordered by their numbers are read from a number on, some at a
time. A page with a last row leaves the rows behind it, and the next page starts behind the number
of that row (`Paging.rowsBefore_succ`, `Paging.rowsFrom_succ`). Rows that are added with larger
numbers change nothing about what has been read.
-/

namespace Paging

variable {ρ : Type*} (number : ρ → ℤ)

/-- The rows are strictly ordered by their numbers. -/
def Ordered (rows : List ρ) : Prop := rows.Pairwise fun first second => number first < number second

/-- The rows before a number. -/
def rowsBefore (start : ℤ) (rows : List ρ) : List ρ := rows.filter fun row => number row < start

/-- The rows from a number on. -/
def rowsFrom (start : ℤ) (rows : List ρ) : List ρ := rows.filter fun row => start ≤ number row

variable {number} {rows more : List ρ} {start : ℤ}

/-- The rows before a number, when the list is divided there. -/
theorem rowsBefore_append (early : ∀ row ∈ rows, number row < start)
    (late : ∀ row ∈ more, start ≤ number row) : rowsBefore number start (rows ++ more) = rows := by
  have none : rowsBefore number start more = [] :=
    List.filter_eq_nil_iff.mpr fun row member => by simpa using late row member
  have all : rowsBefore number start rows = rows :=
    List.filter_eq_self.mpr fun row member => by simpa using early row member
  calc rowsBefore number start (rows ++ more)
      = rowsBefore number start rows ++ rowsBefore number start more := List.filter_append ..
    _ = rows := by rw [none, all, List.append_nil]

/-- A number divides an ordered list. -/
theorem rowsBefore_append_rowsFrom (ordered : Ordered number rows) (start : ℤ) :
    rowsBefore number start rows ++ rowsFrom number start rows = rows := by
  induction rows with
  | nil => rfl
  | cons row rows ih =>
      have ⟨least, rest⟩ := List.pairwise_cons.mp ordered
      by_cases early : number row < start
      · rw [rowsBefore, List.filter_cons_of_pos (by simpa using early), rowsFrom,
          List.filter_cons_of_neg (by simpa using early)]
        exact congrArg (row :: ·) (ih rest)
      · have late : ∀ other ∈ row :: rows, start ≤ number other := by
          intro other member
          rcases List.mem_cons.mp member with rfl | later
          · exact not_lt.mp early
          · exact (not_lt.mp early).trans (least other later).le
        have none : rowsBefore number start (row :: rows) = [] :=
          List.filter_eq_nil_iff.mpr fun other member => by simpa using late other member
        rw [none, List.nil_append]
        exact List.filter_eq_self.mpr fun other member => by simpa using late other member

/-- What is read with a page that has a last row. -/
theorem rowsBefore_succ (ordered : Ordered number rows) (start : ℤ) {count : ℕ} {last : ρ}
    (ends : ((rowsFrom number start rows).take count).getLast? = some last) :
    rowsBefore number (number last + 1) rows =
      rowsBefore number start rows ++ (rowsFrom number start rows).take count := by
  obtain ⟨front, page⟩ := List.getLast?_eq_some_iff.mp ends
  have listed : start ≤ number last := by
    have member := List.mem_of_mem_take (List.mem_of_getLast? ends)
    simpa using (List.mem_filter.mp member).2
  have divided : rows = (rowsBefore number start rows ++ (front ++ [last])) ++
      (rowsFrom number start rows).drop count := by
    rw [← page, List.append_assoc, List.take_append_drop, rowsBefore_append_rowsFrom ordered]
  have behind : Ordered number (front ++ [last] ++ (rowsFrom number start rows).drop count) := by
    rw [← page, List.take_append_drop]
    exact ordered.filter _
  obtain ⟨inside, _, after⟩ := List.pairwise_append.mp behind
  rw [page]
  conv_lhs => rw [divided]
  refine rowsBefore_append (fun row member => ?_) fun row member => ?_
  · rcases List.mem_append.mp member with before | inPage
    · have early : number row < start := by simpa using (List.mem_filter.mp before).2
      omega
    · rcases List.mem_append.mp inPage with earlier | own
      · have less := (List.pairwise_append.mp inside).2.2 row earlier last (by simp)
        omega
      · rw [List.mem_singleton.mp own]
        omega
  · have less := after last (by simp) row member
    omega

/-- What is left after a page that has a last row. -/
theorem rowsFrom_succ (ordered : Ordered number rows) (start : ℤ) {count : ℕ} {last : ρ}
    (ends : ((rowsFrom number start rows).take count).getLast? = some last) :
    rowsFrom number (number last + 1) rows = (rowsFrom number start rows).drop count := by
  have whole := rowsBefore_append_rowsFrom ordered (number last + 1)
  rw [rowsBefore_succ ordered start ends, List.append_assoc] at whole
  have divided := rowsBefore_append_rowsFrom ordered start
  rw [← List.take_append_drop count (rowsFrom number start rows)] at divided
  exact List.append_cancel_left (List.append_cancel_left (whole.trans divided.symm))

end Paging
