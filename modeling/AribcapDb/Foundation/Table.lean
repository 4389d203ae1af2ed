import Mathlib

/-! # Keyed tables and the indexes kept beside them

A table is a list of rows. A key is unique in it when no two rows share its value
(`Table.Unique`); appending a row with a fresh key, deleting rows, and rewriting rows
without merging keys keep it unique. A secondary index is the bag of one entry for every row
(`Table.Synced`); the per-row maintenance that triggers perform keeps it so
(`Table.Synced.delete`, `Table.Synced.update`).
-/

namespace Table

variable {ρ κ β : Type*}

/-- No two rows share a key. -/
def Unique (key : ρ → κ) (rows : List ρ) : Prop := (rows.map key).Nodup

/-- The row identifier given to a new row: one more than the largest in use. -/
def nextRowid (ids : List ℕ) : ℕ := ids.foldr max 0 + 1

/-- Rewrite the rows selected by a condition. -/
def update (selected : ρ → Bool) (change : ρ → ρ) (rows : List ρ) : List ρ :=
  rows.map fun row => if selected row then change row else row

/-- Rewrite the conflicting rows, or append the new row when there are none. -/
def upsert (conflicts : ρ → Bool) (change : ρ → ρ) (row : ρ) (rows : List ρ) : List ρ :=
  if rows.any conflicts then update conflicts change rows else rows ++ [row]

theorem le_foldr_max {ids : List ℕ} {id : ℕ} (member : id ∈ ids) : id ≤ ids.foldr max 0 := by
  induction ids with
  | nil => simp at member
  | cons head rest ih =>
      rcases List.mem_cons.mp member with rfl | later
      · exact le_max_left _ _
      · exact (ih later).trans (le_max_right _ _)

/-- A new row identifier is in use by no row. -/
theorem nextRowid_not_mem (ids : List ℕ) : nextRowid ids ∉ ids := by
  intro member
  have bound := le_foldr_max member
  simp only [nextRowid] at bound
  omega

theorem ne_nextRowid {key : ρ → ℕ} {rows : List ρ} {row : ρ} (member : row ∈ rows) :
    key row ≠ nextRowid (rows.map key) := by
  intro same
  have present : key row ∈ rows.map key := List.mem_map_of_mem member
  exact nextRowid_not_mem _ (same ▸ present)

theorem mem_update {selected : ρ → Bool} {change : ρ → ρ} {rows : List ρ} {row : ρ} :
    row ∈ update selected change rows ↔
      (row ∈ rows ∧ selected row = false) ∨
        ∃ old ∈ rows, selected old = true ∧ row = change old := by
  simp only [update, List.mem_map]
  constructor
  · rintro ⟨old, member, rfl⟩
    by_cases chosen : selected old
    · exact .inr ⟨old, member, chosen, by simp [chosen]⟩
    · exact .inl (by simpa [chosen] using member)
  · rintro (⟨member, chosen⟩ | ⟨old, member, chosen, rfl⟩)
    · exact ⟨row, member, by simp [chosen]⟩
    · exact ⟨old, member, by simp [chosen]⟩

theorem upsert_of_conflict {conflicts : ρ → Bool} {change : ρ → ρ} {row : ρ} {rows : List ρ}
    {old : ρ} (member : old ∈ rows) (conflict : conflicts old = true) :
    upsert conflicts change row rows = update conflicts change rows := by
  have found : rows.any conflicts = true := List.any_eq_true.mpr ⟨old, member, conflict⟩
  simp only [upsert, found, ↓reduceIte]

theorem upsert_of_fresh {conflicts : ρ → Bool} {change : ρ → ρ} {row : ρ} {rows : List ρ}
    (fresh : ∀ old ∈ rows, conflicts old = false) :
    upsert conflicts change row rows = rows ++ [row] := by
  have absent : rows.any conflicts = false := List.any_eq_false.mpr fun old member => by
    simp [fresh old member]
  simp only [upsert, absent, Bool.false_eq_true, ↓reduceIte]

namespace Unique

variable {key : ρ → κ} {rows : List ρ}

theorem nil : Unique key ([] : List ρ) := List.nodup_nil

theorem eq_of_key (unique : Unique key rows) {first second : ρ} (here : first ∈ rows)
    (there : second ∈ rows) (same : key first = key second) : first = second :=
  List.inj_on_of_nodup_map unique here there same

theorem append_fresh (unique : Unique key rows) {row : ρ}
    (fresh : ∀ old ∈ rows, key old ≠ key row) : Unique key (rows ++ [row]) := by
  unfold Unique
  rw [List.map_append, List.nodup_append]
  refine ⟨unique, by simp, ?_⟩
  rintro value member _ single
  obtain ⟨old, present, rfl⟩ := List.mem_map.mp member
  rw [List.map_singleton, List.mem_singleton] at single
  exact single ▸ fresh old present

theorem filter (unique : Unique key rows) (kept : ρ → Bool) :
    Unique key (rows.filter kept) :=
  unique.sublist (List.filter_sublist.map key)

/-- Rewriting every row keeps a key unique when it never merges two of its values. -/
theorem map (unique : Unique key rows) {change : ρ → ρ}
    (separate : ∀ first ∈ rows, ∀ second ∈ rows, key (change first) = key (change second) →
      key first = key second) : Unique key (rows.map change) := by
  unfold Unique
  rw [List.map_map]
  refine List.Nodup.map_on ?_ (List.Nodup.of_map key unique)
  intro first here second there same
  exact unique.eq_of_key here there (separate first here second there same)

theorem update (unique : Unique key rows) {selected : ρ → Bool} {change : ρ → ρ}
    (same : ∀ row ∈ rows, selected row = true → key (change row) = key row) :
    Unique key (Table.update selected change rows) := by
  apply unique.map
  intro first here second there equal
  by_cases left : selected first <;> by_cases right : selected second <;>
    simp only [left, right, ↓reduceIte, Bool.false_eq_true] at equal
  · rw [same first here left, same second there right] at equal
    exact equal
  · rwa [same first here left] at equal
  · rwa [same second there right] at equal
  · exact equal

/-- An upsert on a key keeps it unique. -/
theorem upsert [DecidableEq κ] (unique : Unique key rows) {row : ρ} {change : ρ → ρ}
    (same : ∀ old ∈ rows, key old = key row → key (change old) = key old) :
    Unique key (Table.upsert (fun old => key old = key row) change row rows) := by
  by_cases conflict : ∃ old ∈ rows, key old = key row
  · obtain ⟨old, member, equal⟩ := conflict
    rw [upsert_of_conflict member (by simpa using equal)]
    exact unique.update fun row member chosen => same row member (by simpa using chosen)
  · push Not at conflict
    rw [upsert_of_fresh fun old member => by simpa using conflict old member]
    exact unique.append_fresh conflict

/-- Looking a key up finds its only row. -/
theorem find?_eq_some_iff [DecidableEq κ] (unique : Unique key rows) {value : κ} {row : ρ} :
    rows.find? (fun old => key old = value) = some row ↔ row ∈ rows ∧ key row = value := by
  constructor
  · intro found
    exact ⟨List.mem_of_find?_eq_some found, by simpa using List.find?_some found⟩
  · rintro ⟨member, rfl⟩
    cases found : rows.find? (fun old => key old = key row) with
    | none =>
        have absent := List.find?_eq_none.mp found row member
        simp at absent
    | some other =>
        have equal : key other = key row := by simpa using List.find?_some found
        rw [unique.eq_of_key (List.mem_of_find?_eq_some found) member equal]

/-- A selection over an index that carries the key finds a row exactly when it chooses its entry. -/
theorem mem_selected_iff (unique : Unique key rows) (entry : ρ → β) (keyOf : β → κ)
    (keys : ∀ row, keyOf (entry row) = key row) (chosen : β → Bool) {row : ρ}
    (member : row ∈ rows) :
    key row ∈ (Multiset.filter (fun found => chosen found = true)
        (rows.map entry : Multiset β)).map keyOf ↔ chosen (entry row) = true := by
  simp only [Multiset.mem_map, Multiset.mem_filter, Multiset.mem_coe, List.mem_map]
  constructor
  · rintro ⟨_, ⟨⟨other, present, rfl⟩, selected⟩, same⟩
    rwa [unique.eq_of_key present member ((keys other).symm.trans same)] at selected
  · exact fun selected => ⟨entry row, ⟨⟨row, member, rfl⟩, selected⟩, keys row⟩

end Unique

/-- The index holds exactly one entry for every row. -/
def Synced (entry : ρ → β) (rows : List ρ) (index : Multiset β) : Prop :=
  index = ↑(rows.map entry)

section Triggers

variable [DecidableEq β]

/-- Index maintenance after rows were deleted, one row at a time. -/
def indexDelete (entry : ρ → β) (deleted : List ρ) (index : Multiset β) : Multiset β :=
  deleted.foldl (fun index row => index.erase (entry row)) index

/-- Index maintenance after rows were rewritten: drop the old entry and add the new one. -/
def indexUpdate (entry : ρ → β) (change : ρ → ρ) (rewritten : List ρ) (index : Multiset β) :
    Multiset β :=
  rewritten.foldl (fun index row => entry (change row) ::ₘ index.erase (entry row)) index

theorem indexDelete_add (entry : ρ → β) (deleted : List ρ) (rest : Multiset β) :
    indexDelete entry deleted (↑(deleted.map entry) + rest) = rest := by
  induction deleted with
  | nil => simp [indexDelete]
  | cons row more ih =>
      have dropped : (↑((row :: more).map entry) + rest : Multiset β).erase (entry row) =
          ↑(more.map entry) + rest := by
        rw [List.map_cons, ← Multiset.cons_coe, Multiset.cons_add, Multiset.erase_cons_head]
      simp only [indexDelete, List.foldl_cons, dropped]
      exact ih

theorem indexUpdate_add (entry : ρ → β) (change : ρ → ρ) (rewritten : List ρ)
    (rest : Multiset β) :
    indexUpdate entry change rewritten (↑(rewritten.map entry) + rest) =
      ↑(rewritten.map (entry ∘ change)) + rest := by
  induction rewritten generalizing rest with
  | nil => simp [indexUpdate]
  | cons row more ih =>
      have dropped : (↑((row :: more).map entry) + rest : Multiset β).erase (entry row) =
          ↑(more.map entry) + rest := by
        rw [List.map_cons, ← Multiset.cons_coe, Multiset.cons_add, Multiset.erase_cons_head]
      have moved : entry (change row) ::ₘ (↑(more.map entry) + rest) =
          ↑(more.map entry) + entry (change row) ::ₘ rest := (Multiset.add_cons _ _ _).symm
      have later := ih (entry (change row) ::ₘ rest)
      simp only [indexUpdate, List.foldl_cons, dropped, moved] at later ⊢
      rw [later, List.map_cons, ← Multiset.cons_coe, Multiset.cons_add, Multiset.add_cons]
      rfl

namespace Synced

variable {entry : ρ → β} {rows : List ρ} {index : Multiset β}

omit [DecidableEq β] in
theorem nil : Synced entry ([] : List ρ) (0 : Multiset β) := rfl

omit [DecidableEq β] in
theorem insert (synced : Synced entry rows index) (row : ρ) :
    Synced entry (rows ++ [row]) (entry row ::ₘ index) := by
  unfold Synced at synced ⊢
  rw [synced, List.map_append, ← Multiset.coe_add, Multiset.cons_coe]
  exact Multiset.coe_eq_coe.mpr (List.perm_append_singleton _ _).symm

omit [DecidableEq β] in
private theorem split (entry : ρ → β) (rows : List ρ) (selected : ρ → Bool) :
    (↑(rows.map entry) : Multiset β) =
      ↑((rows.filter selected).map entry) + ↑((rows.filter (!selected ·)).map entry) := by
  rw [Multiset.coe_add, Multiset.coe_eq_coe, ← List.map_append]
  exact (List.filter_append_perm selected rows).symm.map entry

theorem delete (synced : Synced entry rows index) (selected : ρ → Bool) :
    Synced entry (rows.filter (!selected ·))
      (indexDelete entry (rows.filter selected) index) := by
  unfold Synced at synced ⊢
  rw [synced, split entry rows selected, indexDelete_add]

theorem update (synced : Synced entry rows index) (selected : ρ → Bool) (change : ρ → ρ) :
    Synced entry (Table.update selected change rows)
      (indexUpdate entry change (rows.filter selected) index) := by
  unfold Synced at synced ⊢
  rw [synced, split entry rows selected, indexUpdate_add, Table.update, List.map_map,
    split (entry ∘ _) rows selected]
  congr 2 <;> refine List.map_congr_left fun row member => ?_ <;>
    have chosen := (List.mem_filter.mp member).2
  · simp only [Function.comp_apply, chosen, ↓reduceIte]
  · rw [Bool.not_eq_true'] at chosen
    simp only [Function.comp_apply, chosen, Bool.false_eq_true, ↓reduceIte]

end Synced

end Triggers

end Table
