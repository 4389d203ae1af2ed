import Mathlib

/-! # Conditions and ranked selections of SQL

Conditions have three truth values, and a row is kept only where its condition is true. Windows
number the groups of a selection (`Sql.denseRank`) and the rows within each group
(`Sql.rowNumber`); keeping the first groups and the first rows of each by these numbers is the same
as listing the groups in order and cutting both lists (`Sql.limitGroups_eq`).
-/

namespace Sql

/-- A truth value; `none` is `NULL`. -/
abbrev Truth := Option Bool

/-- A row is kept where the condition is true, not where it is `NULL`. -/
def Truth.holds (truth : Truth) : Bool := truth = some true

/-- `OR` is true when one side is, whatever the other. -/
def or : Truth → Truth → Truth
  | some true, _ => some true
  | _, some true => some true
  | some false, some false => some false
  | _, _ => none

/-- `AND` is false when one side is, whatever the other. -/
def and : Truth → Truth → Truth
  | some false, _ => some false
  | _, some false => some false
  | some true, some true => some true
  | _, _ => none

def isNull {α : Type*} (value : Option α) : Truth := some value.isNone

/-- A comparison with `NULL` is `NULL`. -/
def compare {α : Type*} (relation : α → α → Bool) (left right : Option α) : Truth :=
  left.bind fun left => right.map fun right => relation left right

/-- `EXISTS` over the rows for which a condition is true. -/
def existsRow {ρ : Type*} (rows : List ρ) (condition : ρ → Truth) : Truth :=
  some (rows.any fun row => (condition row).holds)

@[simp] theorem holds_some (value : Bool) : Truth.holds (some value) = value := by
  cases value <;> rfl

@[simp] theorem holds_and (left right : Truth) :
    (and left right).holds = (left.holds && right.holds) := by
  rcases left with _ | _ | _ <;> rcases right with _ | _ | _ <;> rfl

@[simp] theorem holds_or (left right : Truth) :
    (or left right).holds = (left.holds || right.holds) := by
  rcases left with _ | _ | _ <;> rcases right with _ | _ | _ <;> rfl

@[simp] theorem holds_existsRow {ρ : Type*} (rows : List ρ) (condition : ρ → Truth) :
    (existsRow rows condition).holds = rows.any fun row => (condition row).holds :=
  holds_some _

@[simp] theorem holds_isNull {α : Type*} (value : Option α) :
    (isNull value).holds = value.isNone :=
  holds_some _

@[simp] theorem holds_compare {α : Type*} (relation : α → α → Bool) (left right : α) :
    (compare relation (some left) (some right)).holds = relation left right :=
  holds_some _

/-- A parameter that may be absent: `? IS NULL OR column = ?`. -/
@[simp] theorem holds_optional {α : Type*} (relation : α → α → Bool) (column : α)
    (parameter : Option α) :
    (or (isNull parameter) (compare relation (some column) parameter)).holds =
      parameter.all fun value => relation column value := by
  rw [holds_or, holds_isNull]
  cases parameter with
  | none => rfl
  | some value => simp

section OrderBy

variable {ρ κ : Type*} [LinearOrder κ] (key : ρ → κ) (rows : List ρ)

/-- `ORDER BY`; rows with equal keys keep their order. -/
def orderBy : List ρ := rows.insertionSort fun first second => key first ≤ key second

theorem perm_orderBy : (orderBy key rows).Perm rows := List.perm_insertionSort _ _

@[simp] theorem mem_orderBy {row : ρ} : row ∈ orderBy key rows ↔ row ∈ rows :=
  (perm_orderBy key rows).mem_iff

theorem pairwise_orderBy :
    (orderBy key rows).Pairwise fun first second => key first ≤ key second := by
  have total : Std.Total fun first second : ρ => key first ≤ key second :=
    ⟨fun first second => le_total (key first) (key second)⟩
  have transitive : IsTrans ρ fun first second : ρ => key first ≤ key second :=
    ⟨fun _ _ _ => le_trans⟩
  exact List.pairwise_insertionSort _ rows

theorem nodup_orderBy {rows : List ρ} (nodup : rows.Nodup) : (orderBy key rows).Nodup :=
  (perm_orderBy key rows).nodup_iff.mpr nodup

/-- Rows with different keys are strictly ordered. -/
theorem pairwise_lt_orderBy {rows : List ρ} (distinct : (rows.map key).Nodup) :
    (orderBy key rows).Pairwise fun first second => key first < key second := by
  have different : ((orderBy key rows).map key).Nodup :=
    ((perm_orderBy key rows).map key).nodup_iff.mpr distinct
  have apart := List.pairwise_map.mp different
  exact ((pairwise_orderBy key rows).and apart).imp fun both => lt_of_le_of_ne both.1 both.2

variable {key}

/-- A strictly ordered list is the ordered list of its elements. -/
theorem eq_orderBy_of_pairwise {sorted : List ρ} {rows : List ρ}
    (ordered : sorted.Pairwise fun first second => key first < key second)
    (distinct : (rows.map key).Nodup) (same : ∀ row, row ∈ sorted ↔ row ∈ rows) :
    sorted = orderBy key rows := by
  have irreflexive : Std.Irrefl fun first second : ρ => key first < key second :=
    ⟨fun row => lt_irrefl (key row)⟩
  have antisymmetric : Std.Antisymm fun first second : ρ => key first < key second :=
    ⟨fun _ _ less more => absurd less (lt_asymm more)⟩
  exact ordered.eq_of_mem_iff (pairwise_lt_orderBy key distinct) fun row => by
    rw [mem_orderBy, same]

/-- Rows may be selected before or after they are ordered. -/
theorem orderBy_filter {rows : List ρ} (distinct : (rows.map key).Nodup) (kept : ρ → Bool) :
    orderBy key (rows.filter kept) = (orderBy key rows).filter kept := by
  refine (eq_orderBy_of_pairwise ((pairwise_lt_orderBy key distinct).filter _)
    (distinct.sublist (List.filter_sublist.map key)) fun row => ?_).symm
  rw [List.mem_filter, List.mem_filter, mem_orderBy]

/-- A selection is ordered like the rows it is taken from. -/
theorem orderBy_eq_filter [DecidableEq ρ] {rows selection : List ρ}
    (distinct : (rows.map key).Nodup) (selected : (selection.map key).Nodup)
    (subset : selection ⊆ rows) :
    orderBy key selection = (orderBy key rows).filter fun row => row ∈ selection := by
  refine (eq_orderBy_of_pairwise ((pairwise_lt_orderBy key distinct).filter _) selected
    fun row => ?_).symm
  rw [List.mem_filter, mem_orderBy, decide_eq_true_eq, and_iff_right_iff_imp]
  exact fun member => subset member

/-- The first rows of a selection that has the first of all rows. -/
theorem take_orderBy_of_subset [DecidableEq ρ] {rows selection : List ρ} {limit : ℕ}
    (distinct : (rows.map key).Nodup) (selected : (selection.map key).Nodup)
    (subset : selection ⊆ rows) (first : (orderBy key rows).take limit ⊆ selection) :
    (orderBy key selection).take limit = (orderBy key rows).take limit := by
  have kept : ((orderBy key rows).take limit).filter (fun row => row ∈ selection) =
      (orderBy key rows).take limit :=
    List.filter_eq_self.mpr fun row member => decide_eq_true (first member)
  rw [orderBy_eq_filter distinct selected subset]
  conv_lhs => rw [← List.take_append_drop limit (orderBy key rows)]
  rw [List.filter_append, kept]
  by_cases all : limit ≤ (orderBy key rows).length
  · rw [List.take_append_of_le_length (by rw [List.length_take, min_eq_left all]),
      List.take_take, min_self]
  · rw [List.drop_eq_nil_of_le (by omega), List.filter_nil, List.append_nil, List.take_take,
      min_self]

/-- One of the first rows is one of the first of every selection that has it. -/
theorem mem_take_orderBy_of_subset [DecidableEq ρ] {rows selection : List ρ} {limit : ℕ}
    (distinct : (rows.map key).Nodup) (selected : (selection.map key).Nodup)
    (subset : selection ⊆ rows) {row : ρ} (first : row ∈ (orderBy key rows).take limit)
    (own : row ∈ selection) : row ∈ (orderBy key selection).take limit := by
  rw [orderBy_eq_filter distinct selected subset,
    ← List.take_append_drop limit (orderBy key rows), List.filter_append, List.take_append]
  apply List.mem_append_left _
  rw [List.take_of_length_le ((List.length_filter_le _ _).trans (List.length_take_le _ _))]
  exact List.mem_filter.mpr ⟨first, decide_eq_true own⟩

/-- Rows that are made from others are ordered like these. -/
theorem orderBy_map {σ : Type*} (make : σ → ρ) (rows : List σ) :
    orderBy key (rows.map make) = (orderBy (fun row => key (make row)) rows).map make :=
  (List.map_insertionSort _ _ make rows fun _ _ _ _ => Iff.rfl).symm

end OrderBy

/-- `LIMIT`; a negative limit is none. -/
def limitRows {ρ : Type*} (count : ℤ) (rows : List ρ) : List ρ :=
  if count < 0 then rows else rows.take count.toNat

theorem limitRows_sublist {ρ : Type*} (count : ℤ) (rows : List ρ) :
    (limitRows count rows).Sublist rows := by
  unfold limitRows
  split
  · exact List.Sublist.refl _
  · exact List.take_sublist _ _

section Windows

variable {ρ κ π ν : Type*} [DecidableEq ρ] [LinearOrder κ] [DecidableEq π] [LinearOrder ν]
  (key : ρ → κ) (partition : ρ → π) (line : ρ → ν)

/-- The keys of the rows in order, each once. -/
def keysInOrder (rows : List ρ) : List κ := orderBy id (rows.map key).dedup

/-- `DENSE_RANK() OVER (ORDER BY key)`. -/
def denseRank (rows : List ρ) (row : ρ) : ℕ := (keysInOrder key rows).idxOf (key row) + 1

/-- `ROW_NUMBER() OVER (PARTITION BY partition ORDER BY line)`. -/
def rowNumber (rows : List ρ) (row : ρ) : ℕ :=
  (orderBy line (rows.filter fun other => partition other = partition row)).idxOf row + 1

/-- The rows with small numbers, ordered by their numbers. -/
def limitGroups (limit inner : ℤ) (rows : List ρ) : List ρ :=
  orderBy (fun row => toLex (denseRank key rows row, rowNumber partition line rows row))
    (rows.filter fun row =>
      denseRank key rows row ≤ limit && rowNumber partition line rows row ≤ inner)

/-- Positions grow along a list without duplicates. -/
theorem pairwise_idxOf {α : Type*} [DecidableEq α] {list : List α} (nodup : list.Nodup) :
    list.Pairwise fun first second => list.idxOf first < list.idxOf second := by
  rw [List.pairwise_iff_getElem]
  intro first second here there less
  rwa [nodup.idxOf_getElem, nodup.idxOf_getElem]

omit [DecidableEq ρ] in
theorem nodup_keysInOrder (rows : List ρ) : (keysInOrder key rows).Nodup :=
  nodup_orderBy id (List.nodup_dedup _)

omit [DecidableEq ρ] in
theorem mem_keysInOrder {rows : List ρ} {value : κ} :
    value ∈ keysInOrder key rows ↔ ∃ row ∈ rows, key row = value := by
  simp [keysInOrder]

variable {key partition line} {rows : List ρ} {row : ρ}

omit [DecidableEq ρ] in
/-- A row is in one of the first groups when its key is among the first keys. -/
theorem denseRank_le_iff (member : row ∈ rows) (limit : ℤ) :
    (denseRank key rows row : ℤ) ≤ limit ↔ key row ∈ (keysInOrder key rows).take limit.toNat := by
  rw [List.mem_take_iff_idxOf_lt ((mem_keysInOrder key).mpr ⟨row, member, rfl⟩), denseRank]
  omega

theorem rowNumber_le_iff (member : row ∈ rows) (inner : ℤ) :
    (rowNumber partition line rows row : ℤ) ≤ inner ↔
      row ∈ (orderBy line (rows.filter fun other => partition other = partition row)).take
        inner.toNat := by
  have listed : row ∈ orderBy line (rows.filter fun other => partition other = partition row) := by
    simp [member]
  rw [List.mem_take_iff_idxOf_lt listed, rowNumber]
  omega

/-- Rows with the same two numbers are the same. -/
theorem eq_of_numbers
    (partitions : ∀ first ∈ rows, ∀ second ∈ rows,
      partition first = partition second ↔ key first = key second)
    {first second : ρ} (here : first ∈ rows) (there : second ∈ rows)
    (rank : denseRank key rows first = denseRank key rows second)
    (number : rowNumber partition line rows first = rowNumber partition line rows second) :
    first = second := by
  have listed : key first ∈ keysInOrder key rows := (mem_keysInOrder key).mpr ⟨first, here, rfl⟩
  have keys : key first = key second := by
    rw [denseRank, denseRank, Nat.add_right_cancel_iff] at rank
    exact (List.idxOf_inj listed).mp rank
  have parts := (partitions first here second there).mpr keys
  rw [rowNumber, rowNumber, parts, Nat.add_right_cancel_iff] at number
  exact (List.idxOf_inj (by simp [here, parts])).mp number

/-- The groups in order, and the rows of each in order, both cut. -/
theorem limitGroups_eq (nodup : rows.Nodup)
    (partitions : ∀ first ∈ rows, ∀ second ∈ rows,
      partition first = partition second ↔ key first = key second) (limit inner : ℤ) :
    limitGroups key partition line limit inner rows =
      ((keysInOrder key rows).take limit.toNat).flatMap fun value =>
        (orderBy line (rows.filter fun row => key row = value)).take inner.toNat := by
  have group {row : ρ} (member : row ∈ rows) :
      (rows.filter fun other => partition other = partition row) =
        rows.filter fun other => key other = key row :=
    List.filter_congr fun other present => by
      rw [decide_eq_decide]
      exact partitions other present row member
  have numbered {row : ρ} (member : row ∈ rows) : rowNumber partition line rows row =
      (orderBy line (rows.filter fun other => key other = key row)).idxOf row + 1 := by
    rw [rowNumber, group member]
  refine (eq_orderBy_of_pairwise ?_ ?_ ?_).symm
  · rw [List.pairwise_flatMap]
    constructor
    · intro value _
      have ordered := pairwise_idxOf (nodup_orderBy line (nodup.filter fun row => key row = value))
      apply (ordered.sublist (List.take_sublist _ _)).imp_of_mem
      intro first second here there less
      have one := List.mem_filter.mp ((mem_orderBy line _).mp (List.mem_of_mem_take here))
      have two := List.mem_filter.mp ((mem_orderBy line _).mp (List.mem_of_mem_take there))
      have same : key first = key second :=
        (of_decide_eq_true one.2).trans (of_decide_eq_true two.2).symm
      rw [Prod.Lex.toLex_lt_toLex]
      refine .inr ⟨by rw [denseRank, denseRank, same], ?_⟩
      rw [numbered one.1, numbered two.1, same, of_decide_eq_true two.2]
      omega
    · have ordered := pairwise_idxOf (nodup_keysInOrder key rows)
      apply (ordered.sublist (List.take_sublist _ _)).imp
      intro first second less one here two there
      have own := List.mem_filter.mp ((mem_orderBy line _).mp (List.mem_of_mem_take here))
      have other := List.mem_filter.mp ((mem_orderBy line _).mp (List.mem_of_mem_take there))
      rw [Prod.Lex.toLex_lt_toLex]
      left
      rw [denseRank, denseRank, of_decide_eq_true own.2, of_decide_eq_true other.2]
      omega
  · apply (nodup.filter _).map_on
    intro first here second there same
    rw [EmbeddingLike.apply_eq_iff_eq, Prod.mk.injEq] at same
    exact eq_of_numbers partitions (List.mem_filter.mp here).1 (List.mem_filter.mp there).1
      same.1 same.2
  · intro row
    simp only [List.mem_flatMap, List.mem_filter, Bool.and_eq_true, decide_eq_true_eq]
    constructor
    · rintro ⟨value, first, inside⟩
      obtain ⟨member, own⟩ := List.mem_filter.mp
        ((mem_orderBy line _).mp (List.mem_of_mem_take inside))
      obtain rfl := of_decide_eq_true own
      exact ⟨member, (denseRank_le_iff member limit).mpr first,
        (rowNumber_le_iff member inner).mpr (group member ▸ inside)⟩
    · rintro ⟨member, rank, number⟩
      exact ⟨key row, (denseRank_le_iff member limit).mp rank,
        group member ▸ (rowNumber_le_iff member inner).mp number⟩

end Windows

end Sql
