import AribcapDb.Query.Expression
import AribcapDb.Query.Search

/-! # General searches

`search_general` merges the first programs with matching captions and the first programs with
matching metadata. A program may be cut from the first list and stand in the second one without its
hits, but then there are enough programs before it in the first list to cut it again, so the merged
list is the one that is cut from all programs (`search_general_is_exact`). -/

namespace AribcapDb

/-- The order of the merged list: `recording_started_at` and then `program_id`, both descending. -/
def SearchProgram.sortKey (program : SearchProgram) : (String ×ₗ ℕ)ᵒᵈ :=
  OrderDual.toDual (toLex (program.recordingStartedAt, program.programId))

/-- The variables of the loops in `search_general`. -/
structure MergedPrograms where
  merged : List SearchProgram
  seen : Finset ℕ

namespace MergedPrograms

/-- The first loop. -/
def pushLine (results : MergedPrograms) (program : SearchProgram) : MergedPrograms :=
  { merged := results.merged ++ [program], seen := insert program.programId results.seen }

/-- The second loop. -/
def pushProgram (results : MergedPrograms) (program : SearchProgram) : MergedPrograms :=
  if program.programId ∈ results.seen then results
  else
    { merged := results.merged ++ [program], seen := insert program.programId results.seen }

end MergedPrograms

/-- What `search_general` makes of the results of its two searches. -/
def mergeSearches (byLine byProgram : List SearchProgram) (limit : ℤ) : List SearchProgram :=
  let results := byProgram.foldl MergedPrograms.pushProgram
    (byLine.foldl MergedPrograms.pushLine ⟨[], ∅⟩)
  (Sql.orderBy SearchProgram.sortKey results.merged).take (max limit 0).toNat

namespace SearchDb

/-- `search_program_metadata` over the rows that match in `program_fts`. -/
def searchMetadataRows (db : SearchDb) (programs : List ℕ) (filter : SearchFilter) (limit : ℤ) :
    List SearchProgram :=
  let joined := programs.flatMap fun id => db.programs.filter fun program => program.id = id
  let selected := joined.filter fun program => (db.programFilter filter program).holds
  (Sql.limitRows limit (Sql.orderBy programKey selected)).map fun program =>
    searchProgram program []

section Searches

variable {unicode : Unicode} {τ : Type} [DecidableEq τ] (unicode61 : Unicode61 unicode τ)
  (db : SearchDb) (expression : SearchExpression) (filter : SearchFilter) (limit innerHits : ℤ)

/-- `search_captions`; `none` is an error of the full-text query. -/
def searchCaptions : Option (List SearchProgram) := do
  let lines ← db.matchedLines unicode61 (expressionFts expression)
  pure (db.searchCaptionRows lines.sort filter limit innerHits)

/-- `search_program_metadata`. -/
def searchProgramMetadata : Option (List SearchProgram) := do
  let programs ← db.matchedPrograms unicode61 (expressionFts expression)
  pure (db.searchMetadataRows programs.sort filter limit)

/-- `search_general`. -/
def searchGeneral : Option (List SearchProgram) := do
  let byLine ← db.searchCaptions unicode61 expression filter limit innerHits
  let byProgram ← db.searchProgramMetadata unicode61 expression filter limit
  pure (mergeSearches byLine byProgram limit)

end Searches

/-- The programs that pass the filter and have a matching caption or matching metadata. -/
def matchingPrograms (db : SearchDb) (lines programs : List ℕ) (filter : SearchFilter) :
    List ProgramRow :=
  db.programs.filter fun program => decide (db.Admits filter program) &&
    (decide (db.matchingCaptions lines program ≠ []) || decide (program.id ∈ programs))

/-- The first of all matching programs, newest first, each with its first matching captions. -/
def naiveGeneral (db : SearchDb) (lines programs : List ℕ) (filter : SearchFilter)
    (limit innerHits : ℤ) : List SearchProgram :=
  ((Sql.orderBy programKey (db.matchingPrograms lines programs filter)).take limit.toNat).map
    fun program =>
      searchProgram program ((db.matchingCaptions lines program).take innerHits.toNat)

section Merge

open MergedPrograms

/-- The first loop keeps everything. -/
theorem foldl_pushLine (byLine : List SearchProgram) (results : MergedPrograms) :
    byLine.foldl pushLine results =
      { merged := results.merged ++ byLine
        seen := results.seen ∪ (byLine.map SearchProgram.programId).toFinset } := by
  induction byLine generalizing results with
  | nil => simp
  | cons program byLine ih =>
      rw [List.foldl_cons, ih, pushLine, List.append_assoc, List.singleton_append, List.map_cons,
        List.toFinset_cons, Finset.insert_union, Finset.union_insert]

/-- The second loop adds the programs that are not there. -/
theorem merged_foldl_pushProgram {byProgram : List SearchProgram}
    (distinct : (byProgram.map SearchProgram.programId).Nodup) (results : MergedPrograms) :
    (byProgram.foldl pushProgram results).merged =
      results.merged ++ byProgram.filter fun program => program.programId ∉ results.seen := by
  induction byProgram generalizing results with
  | nil => simp
  | cons program byProgram ih =>
      rw [List.map_cons, List.nodup_cons] at distinct
      rw [List.foldl_cons, ih distinct.2, pushProgram]
      by_cases seen : program.programId ∈ results.seen
      · rw [if_pos seen, List.filter_cons_of_neg (by simpa using seen)]
      · have others : (byProgram.filter fun other =>
            other.programId ∉ insert program.programId results.seen) =
              byProgram.filter fun other => other.programId ∉ results.seen := by
          apply List.filter_congr
          intro other member
          have different : other.programId ≠ program.programId := fun same =>
            distinct.1 (same ▸ List.mem_map_of_mem member)
          simp [different]
        rw [if_neg seen, List.filter_cons_of_pos (by simpa using seen), others, List.append_assoc,
          List.singleton_append]

/-- The merged programs are those of the caption search and the others of the metadata search. -/
theorem mergeSearches_eq {byProgram : List SearchProgram}
    (distinct : (byProgram.map SearchProgram.programId).Nodup) (byLine : List SearchProgram)
    (limit : ℤ) :
    mergeSearches byLine byProgram limit =
      (Sql.orderBy SearchProgram.sortKey (byLine ++ byProgram.filter fun program =>
        program.programId ∉ byLine.map SearchProgram.programId)).take limit.toNat := by
  have length : (max limit 0).toNat = limit.toNat := by omega
  rw [mergeSearches, foldl_pushLine, merged_foldl_pushProgram distinct, length, List.nil_append,
    Finset.empty_union]
  simp only [List.mem_toFinset]

end Merge

section Exact

variable {db : SearchDb} {lines programs : List ℕ} {filter : SearchFilter} {limit innerHits : ℤ}

/-- The programs of the caption search. -/
def captionPrograms (db : SearchDb) (lines : List ℕ) (filter : SearchFilter) : List ProgramRow :=
  db.foundPrograms lines fun program => decide (db.Admits filter program)

/-- The programs of the metadata search. -/
def metadataPrograms (db : SearchDb) (programs : List ℕ) (filter : SearchFilter) :
    List ProgramRow :=
  db.programs.filter fun program =>
    decide (db.Admits filter program) && decide (program.id ∈ programs)

theorem mem_captionPrograms {program : ProgramRow} :
    program ∈ db.captionPrograms lines filter ↔ program ∈ db.programs ∧
      db.Admits filter program ∧ db.matchingCaptions lines program ≠ [] := by
  simp [captionPrograms, foundPrograms]

theorem mem_metadataPrograms {program : ProgramRow} :
    program ∈ db.metadataPrograms programs filter ↔ program ∈ db.programs ∧
      db.Admits filter program ∧ program.id ∈ programs := by
  simp [metadataPrograms]

theorem mem_matchingPrograms {program : ProgramRow} :
    program ∈ db.matchingPrograms lines programs filter ↔
      program ∈ db.captionPrograms lines filter ∨
        program ∈ db.metadataPrograms programs filter := by
  rw [mem_captionPrograms, mem_metadataPrograms, ← and_or_left, ← and_or_left]
  simp [matchingPrograms]

/-- The metadata search lists its programs in order. -/
theorem searchMetadataRows_eq (unique : db.UniqueKeys) (matched : programs.Nodup) (limit : ℤ) :
    db.searchMetadataRows programs filter limit =
      (Sql.limitRows limit (Sql.orderBy programKey (db.metadataPrograms programs filter))).map
        fun program => searchProgram program [] := by
  have joined : (programs.flatMap fun id =>
      db.programs.filter fun program => program.id = id).Nodup := by
    rw [List.nodup_flatMap]
    refine ⟨fun id _ => unique.programIds.of_map.filter _, matched.imp fun different => ?_⟩
    intro program here there
    exact different ((of_decide_eq_true (List.mem_filter.mp here).2).symm.trans
      (of_decide_eq_true (List.mem_filter.mp there).2))
  have stored : (programs.flatMap fun id =>
      db.programs.filter fun program => program.id = id) ⊆ db.programs := by
    intro program member
    obtain ⟨id, _, own⟩ := List.mem_flatMap.mp member
    exact (List.mem_filter.mp own).1
  have same : Sql.orderBy programKey ((programs.flatMap fun id =>
      db.programs.filter fun program => program.id = id).filter fun program =>
        (db.programFilter filter program).holds) =
      Sql.orderBy programKey (db.metadataPrograms programs filter) := by
    refine Sql.eq_orderBy_of_pairwise (Sql.pairwise_lt_orderBy programKey
      (nodup_programKeys unique (joined.filter _)
        (List.Subset.trans List.filter_sublist.subset stored)))
      (nodup_programKeys unique (unique.programIds.of_map.filter _) List.filter_sublist.subset)
      fun program => ?_
    simp only [Sql.mem_orderBy, mem_metadataPrograms, List.mem_filter, List.mem_flatMap,
      holds_programFilter, decide_eq_true_eq]
    constructor
    · rintro ⟨⟨id, matching, stored, rfl⟩, admitted⟩
      exact ⟨stored, admitted, matching⟩
    · rintro ⟨stored, admitted, matching⟩
      exact ⟨⟨_, matching, stored, rfl⟩, admitted⟩
  rw [searchMetadataRows, same]

/-- A program with its hits when the caption search has returned it, and without otherwise. -/
def mergedProgram (db : SearchDb) (lines : List ℕ) (innerHits : ℤ) (found : List ProgramRow)
    (program : ProgramRow) : SearchProgram :=
  searchProgram program
    (if program ∈ found then (db.matchingCaptions lines program).take innerHits.toNat else [])

/-- The programs that are returned by one of the searches. -/
def returnedPrograms (captions metadata : List ProgramRow) : List ProgramRow :=
  captions ++ metadata.filter fun program => program ∉ captions

/-- Before the last cut, the merged list has the returned programs in order. -/
theorem orderBy_merged (unique : db.UniqueKeys) (lines : List ℕ) (innerHits : ℤ)
    {captions metadata : List ProgramRow} (captionsStored : captions ⊆ db.programs)
    (metadataStored : metadata ⊆ db.programs) :
    Sql.orderBy SearchProgram.sortKey
        (captions.map (fun program => searchProgram program
            ((db.matchingCaptions lines program).take innerHits.toNat)) ++
          (metadata.map fun program => searchProgram program []).filter fun program =>
            program.programId ∉ (captions.map fun program => searchProgram program
              ((db.matchingCaptions lines program).take innerHits.toNat)).map
                SearchProgram.programId) =
      (Sql.orderBy programKey (returnedPrograms captions metadata)).map
        (db.mergedProgram lines innerHits captions) := by
  have ids : (captions.map fun program => searchProgram program
      ((db.matchingCaptions lines program).take innerHits.toNat)).map SearchProgram.programId =
        captions.map ProgramRow.id := by
    rw [List.map_map]
    rfl
  have others : (metadata.map fun program => searchProgram program []).filter (fun program =>
      program.programId ∉ captions.map ProgramRow.id) =
        (metadata.filter fun program => program ∉ captions).map
          (db.mergedProgram lines innerHits captions) := by
    have same : metadata.filter (fun program => program.id ∉ captions.map ProgramRow.id) =
        metadata.filter fun program => program ∉ captions := by
      apply List.filter_congr
      intro program member
      rw [decide_eq_decide, not_iff_not, List.mem_map]
      constructor
      · rintro ⟨other, found, equal⟩
        exact unique.programIds.eq_of_key (captionsStored found) (metadataStored member) equal ▸
          found
      · exact fun found => ⟨program, found, rfl⟩
    rw [List.filter_map, ← same]
    apply List.map_congr_left
    intro program member
    have other : program ∈ metadata.filter fun program => program ∉ captions := same ▸ member
    have absent : program ∉ captions := of_decide_eq_true (List.mem_filter.mp other).2
    rw [mergedProgram, if_neg absent]
  have found : captions.map (fun program => searchProgram program
      ((db.matchingCaptions lines program).take innerHits.toNat)) =
        captions.map (db.mergedProgram lines innerHits captions) :=
    List.map_congr_left fun program member => by rw [mergedProgram, if_pos member]
  rw [ids, others, found, ← List.map_append]
  exact Sql.orderBy_map (db.mergedProgram lines innerHits captions) _

/-- The first of all matching programs that have matching captions are among the first of those
with matching captions. -/
theorem mem_first_captionPrograms (unique : db.UniqueKeys) {count : ℕ} {program : ProgramRow}
    (first : program ∈ (Sql.orderBy programKey
      (db.matchingPrograms lines programs filter)).take count)
    (some : db.matchingCaptions lines program ≠ []) :
    program ∈ (Sql.orderBy programKey (db.captionPrograms lines filter)).take count := by
  have matching := (Sql.mem_orderBy _ _).mp (List.mem_of_mem_take first)
  refine Sql.mem_take_orderBy_of_subset
    (nodup_programKeys unique (unique.programIds.of_map.filter _) List.filter_sublist.subset)
    (nodup_programKeys unique (unique.programIds.of_map.filter _) List.filter_sublist.subset)
    (fun other found => mem_matchingPrograms.mpr (.inl found)) first ?_
  rcases mem_matchingPrograms.mp matching with found | found
  · exact found
  · obtain ⟨stored, admitted, _⟩ := mem_metadataPrograms.mp found
    exact mem_captionPrograms.mpr ⟨stored, admitted, some⟩

/-- The first of all matching programs are the first of those that are returned. -/
theorem take_returnedPrograms (unique : db.UniqueKeys) (count : ℕ) :
    (Sql.orderBy programKey (returnedPrograms
        ((Sql.orderBy programKey (db.captionPrograms lines filter)).take count)
        ((Sql.orderBy programKey (db.metadataPrograms programs filter)).take count))).take count =
      (Sql.orderBy programKey (db.matchingPrograms lines programs filter)).take count := by
  have all : ((db.matchingPrograms lines programs filter).map programKey).Nodup :=
    nodup_programKeys unique (unique.programIds.of_map.filter _) List.filter_sublist.subset
  have metadata : ((db.metadataPrograms programs filter).map programKey).Nodup :=
    nodup_programKeys unique (unique.programIds.of_map.filter _) List.filter_sublist.subset
  have subset : returnedPrograms
      ((Sql.orderBy programKey (db.captionPrograms lines filter)).take count)
      ((Sql.orderBy programKey (db.metadataPrograms programs filter)).take count) ⊆
        db.matchingPrograms lines programs filter := by
    intro program member
    rcases List.mem_append.mp member with found | found
    · exact mem_matchingPrograms.mpr
        (.inl ((Sql.mem_orderBy _ _).mp (List.mem_of_mem_take found)))
    · have listed := List.mem_of_mem_take (List.mem_filter.mp found).1
      exact mem_matchingPrograms.mpr (.inr ((Sql.mem_orderBy _ _).mp listed))
  have nodup : (returnedPrograms
      ((Sql.orderBy programKey (db.captionPrograms lines filter)).take count)
      ((Sql.orderBy programKey (db.metadataPrograms programs filter)).take count)).Nodup := by
    refine List.Nodup.append ?_ (List.Nodup.filter _ ?_) ?_
    · exact (Sql.nodup_orderBy _ (unique.programIds.of_map.filter _)).sublist
        (List.take_sublist _ _)
    · exact (Sql.nodup_orderBy _ (unique.programIds.of_map.filter _)).sublist
        (List.take_sublist _ _)
    · exact fun program found other => of_decide_eq_true (List.mem_filter.mp other).2 found
  refine Sql.take_orderBy_of_subset all (nodup_programKeys unique nodup
    (List.Subset.trans subset List.filter_sublist.subset)) subset fun program first => ?_
  rw [returnedPrograms, List.mem_append, List.mem_filter, decide_eq_true_eq]
  by_cases found :
      program ∈ (Sql.orderBy programKey (db.captionPrograms lines filter)).take count
  · exact .inl found
  · -- Without matching captions it is one of the first of the metadata search.
    refine .inr ⟨?_, found⟩
    refine Sql.mem_take_orderBy_of_subset all metadata
      (fun other member => mem_matchingPrograms.mpr (.inr member)) first ?_
    have matching := (Sql.mem_orderBy _ _).mp (List.mem_of_mem_take first)
    rcases mem_matchingPrograms.mp matching with member | member
    · exact absurd (mem_first_captionPrograms unique first (mem_captionPrograms.mp member).2.2)
        found
    · exact member

/-- Merging the two lists cut to the limit and cutting again loses no program and no hits. -/
theorem mergeSearches_eq_naiveGeneral (unique : db.UniqueKeys) (matched : programs.Nodup)
    (limit innerHits : ℤ) :
    mergeSearches
        (db.naiveSearch lines (fun program => db.Admits filter program) limit innerHits)
        (db.searchMetadataRows programs filter limit) limit =
      db.naiveGeneral lines programs filter limit innerHits := by
  have rows : db.searchMetadataRows programs filter limit = _ :=
    searchMetadataRows_eq unique matched limit
  have distinct : ((db.searchMetadataRows programs filter limit).map
      SearchProgram.programId).Nodup := by
    rw [rows, List.map_map]
    refine ((Sql.perm_orderBy programKey (db.metadataPrograms programs filter)).map
      ProgramRow.id).nodup_iff.mpr (unique.programIds.filter _) |>.sublist ?_
    exact (Sql.limitRows_sublist _ _).map _
  rw [mergeSearches_eq distinct, naiveGeneral]
  by_cases negative : limit < 0
  · have none : limit.toNat = 0 := Int.toNat_of_nonpos negative.le
    rw [none, List.take_zero, List.take_zero, List.map_nil]
  · have captions : (Sql.orderBy programKey (db.captionPrograms lines filter)).take
        limit.toNat ⊆ db.programs := fun program member =>
      (mem_captionPrograms.mp ((Sql.mem_orderBy _ _).mp (List.mem_of_mem_take member))).1
    have metadata : (Sql.orderBy programKey (db.metadataPrograms programs filter)).take
        limit.toNat ⊆ db.programs := fun program member =>
      (mem_metadataPrograms.mp ((Sql.mem_orderBy _ _).mp (List.mem_of_mem_take member))).1
    have merged := congrArg (List.take limit.toNat)
      (orderBy_merged unique lines innerHits captions metadata)
    rw [← List.map_take, take_returnedPrograms unique] at merged
    rw [rows, Sql.limitRows, if_neg negative]
    refine merged.trans (List.map_congr_left fun program first => ?_)
    by_cases hits : db.matchingCaptions lines program = []
    · rw [mergedProgram, hits, List.take_nil, ite_self]
    · rw [mergedProgram, if_pos (mem_first_captionPrograms unique first hits)]

end Exact

section FullText

variable {unicode : Unicode} {τ : Type} [DecidableEq τ] {unicode61 : Unicode61 unicode τ}
  {db : SearchDb} {query : String}

/-- A query selects a row of an index once. -/
theorem nodup_matchedLines (unique : db.UniqueKeys) {lines : Multiset ℕ}
    (matched : db.matchedLines unicode61 query = some lines) : lines.Nodup := by
  obtain ⟨parsed, _, rfl⟩ := Option.map_eq_some_iff.mp matched
  exact Multiset.nodup_of_le (Multiset.map_le_map (Multiset.filter_le _ _)) unique.captionRowids

theorem nodup_matchedPrograms (unique : db.UniqueKeys) {programs : Multiset ℕ}
    (matched : db.matchedPrograms unicode61 query = some programs) : programs.Nodup := by
  obtain ⟨parsed, _, rfl⟩ := Option.map_eq_some_iff.mp matched
  exact Multiset.nodup_of_le (Multiset.map_le_map (Multiset.filter_le _ _)) unique.programRowids

theorem nodup_sort {ids : Multiset ℕ} (nodup : ids.Nodup) : ids.sort.Nodup := by
  rw [← Multiset.coe_nodup, Multiset.sort_eq]
  exact nodup

end FullText

end SearchDb

end AribcapDb
