import AribcapDb.Foundation.Sql
import AribcapDb.Search.Schema

/-! # Caption searches

`search_captions` and `search_combined` number programs and their matching captions with window
functions, cut both by the numbers, and put the rows of one program together again in
`group_rows`. The result is that of looking at one program after the other
(`searches_equal_naive`). -/

namespace AribcapDb

structure GenreFilter where
  level1 : Int64
  level2 : Option Int64
  deriving DecidableEq, Repr

structure SearchFilter where
  stream : Option String
  from' : Option String
  to' : Option String
  genre : Option GenreFilter
  deriving DecidableEq, Repr

structure SearchHit where
  lineId : ℕ
  lineNo : ℕ
  time : Option String
  text : String
  deriving DecidableEq, Repr

structure SearchProgram where
  programId : ℕ
  stream : String
  month : String
  filename : String
  recordingStartedAt : String
  startTime : Option String
  title : String
  description : String
  hits : List SearchHit
  deriving DecidableEq, Repr

/-- A row of the final `SELECT` of the caption searches. -/
structure GroupedRow where
  programId : ℕ
  stream : String
  month : String
  filename : String
  recordingStartedAt : String
  startTime : Option String
  title : String
  description : String
  lineId : ℕ
  lineNo : ℕ
  time : Option String
  text : String
  deriving DecidableEq, Repr

/-- The columns that the final `SELECT` takes from a program and one of its captions. -/
def groupedRow (row : ProgramRow × CaptionRow) : GroupedRow :=
  { programId := row.1.id
    stream := row.1.stream
    month := row.1.month
    filename := row.1.filename
    recordingStartedAt := row.1.recordingStartedAt
    startTime := row.1.metadata.startTime
    title := row.1.metadata.title
    description := row.1.metadata.description
    lineId := row.2.id
    lineNo := row.2.lineNo
    time := row.2.caption.time
    text := row.2.caption.text }

def GroupedRow.hit (row : GroupedRow) : SearchHit :=
  { lineId := row.lineId, lineNo := row.lineNo, time := row.time, text := row.text }

/-- One row of the loop in `group_rows`. -/
def groupRow (results : List SearchProgram) (row : GroupedRow) : List SearchProgram :=
  let started : SearchProgram :=
    { programId := row.programId
      stream := row.stream
      month := row.month
      filename := row.filename
      recordingStartedAt := row.recordingStartedAt
      startTime := row.startTime
      title := row.title
      description := row.description
      hits := [row.hit] }
  match results.getLast? with
  | some last =>
      if last.programId = row.programId then
        results.dropLast ++ [{ last with hits := last.hits ++ [row.hit] }]
      else results ++ [started]
  | none => results ++ [started]

/-- `group_rows`. -/
def groupRows (rows : List GroupedRow) : List SearchProgram := rows.foldl groupRow []

namespace SearchDb

/-- The condition of `PROGRAM_FILTER_SQL`. -/
def programFilter (db : SearchDb) (filter : SearchFilter) (program : ProgramRow) : Sql.Truth :=
  let level1 := filter.genre.map GenreFilter.level1
  let level2 := filter.genre.bind GenreFilter.level2
  Sql.and
    (Sql.and
      (Sql.and
        (Sql.or (Sql.isNull filter.stream)
          (Sql.compare (fun left right => left = right) (some program.stream) filter.stream))
        (Sql.or (Sql.isNull filter.from')
          (Sql.compare (fun left right => right ≤ left) (some program.recordingStartedAt)
            filter.from')))
      (Sql.or (Sql.isNull filter.to')
        (Sql.compare (fun left right => left ≤ right) (some program.recordingStartedAt)
          filter.to')))
    (Sql.or (Sql.isNull level1)
      (Sql.existsRow db.programGenres fun row =>
        Sql.and
          (Sql.and
            (Sql.compare (fun left right => left = right) (some row.programId) (some program.id))
            (Sql.compare (fun left right => left = right) (some row.genre.contentNibbleLevel1)
              level1))
          (Sql.or (Sql.isNull level2)
            (Sql.compare (fun left right => left = right) (some row.genre.contentNibbleLevel2)
              level2))))

/-- The order of the results: `recording_started_at DESC, id DESC`. -/
def programKey (program : ProgramRow) : (String ×ₗ ℕ)ᵒᵈ :=
  OrderDual.toDual (toLex (program.recordingStartedAt, program.id))

/-- The joins of the `ranked` expression and their condition. -/
def rankedRows (db : SearchDb) (lines : List ℕ)
    (programMatchJoin : ProgramRow → List ProgramRow) (filter : SearchFilter) :
    List (ProgramRow × CaptionRow) :=
  let captions := lines.flatMap fun line => db.captionLines.filter fun row => row.id = line
  let joined := captions.flatMap fun caption =>
    ((db.programs.filter fun program => program.id = caption.programId).flatMap
      programMatchJoin).map fun program => (program, caption)
  joined.filter fun row => (db.programFilter filter row.1).holds

/-- `ranked_caption_sql`. -/
def rankedCaptionSql (db : SearchDb) (lines : List ℕ)
    (programMatchJoin : ProgramRow → List ProgramRow) (filter : SearchFilter)
    (limit innerHits : ℤ) : List GroupedRow :=
  (Sql.limitGroups (fun row => programKey row.1) (fun row => row.1.id) (fun row => row.2.lineNo)
    limit innerHits (db.rankedRows lines programMatchJoin filter)).map groupedRow

/-- `search_captions` over the rows that match in `caption_fts`. -/
def searchCaptionRows (db : SearchDb) (lines : List ℕ) (filter : SearchFilter)
    (limit innerHits : ℤ) : List SearchProgram :=
  groupRows (db.rankedCaptionSql lines (fun program => [program]) filter limit innerHits)

/-- `search_combined` over the rows that match in `program_fts` and in `caption_fts`. -/
def searchCombinedRows (db : SearchDb) (programs lines : List ℕ) (filter : SearchFilter)
    (limit innerHits : ℤ) : List SearchProgram :=
  let programMatchJoin (program : ProgramRow) : List ProgramRow :=
    (programs.filter fun id => id = program.id).map fun _ => program
  groupRows (db.rankedCaptionSql lines programMatchJoin filter limit innerHits)

/-! ### Looking at one program after the other -/

/-- The program passes the filter. -/
def Admits (db : SearchDb) (filter : SearchFilter) (program : ProgramRow) : Prop :=
  (∀ stream ∈ filter.stream, program.stream = stream) ∧
    (∀ bound ∈ filter.from', bound ≤ program.recordingStartedAt) ∧
      (∀ bound ∈ filter.to', program.recordingStartedAt ≤ bound) ∧
        ∀ genre ∈ filter.genre, ∃ row ∈ db.programGenres, row.programId = program.id ∧
          row.genre.contentNibbleLevel1 = genre.level1 ∧
            ∀ level ∈ genre.level2, row.genre.contentNibbleLevel2 = level

instance (db : SearchDb) (filter : SearchFilter) (program : ProgramRow) :
    Decidable (db.Admits filter program) :=
  inferInstanceAs (Decidable (_ ∧ _ ∧ _ ∧ _))

/-- The matching captions of a program by their lines. -/
def matchingCaptions (db : SearchDb) (lines : List ℕ) (program : ProgramRow) : List CaptionRow :=
  Sql.orderBy CaptionRow.lineNo
    (db.captionLines.filter fun row => row.programId = program.id && decide (row.id ∈ lines))

/-- A program with hits. -/
def searchProgram (program : ProgramRow) (captions : List CaptionRow) : SearchProgram :=
  { programId := program.id
    stream := program.stream
    month := program.month
    filename := program.filename
    recordingStartedAt := program.recordingStartedAt
    startTime := program.metadata.startTime
    title := program.metadata.title
    description := program.metadata.description
    hits := captions.map fun caption => (groupedRow (program, caption)).hit }

/-- The eligible programs with a matching caption, newest first, up to a limit, each with its first
matching captions. -/
def naiveSearch (db : SearchDb) (lines : List ℕ) (eligible : ProgramRow → Bool)
    (limit innerHits : ℤ) : List SearchProgram :=
  let found := db.programs.filter fun program =>
    eligible program && decide (db.matchingCaptions lines program ≠ [])
  ((Sql.orderBy programKey found).take limit.toNat).map fun program =>
    searchProgram program ((db.matchingCaptions lines program).take innerHits.toNat)

/-- The unique keys of the schema that the searches rely on. -/
structure UniqueKeys (db : SearchDb) : Prop where
  programIds : Table.Unique ProgramRow.id db.programs
  captionIds : Table.Unique CaptionRow.id db.captionLines
  captionKeys : Table.Unique CaptionRow.key db.captionLines
  programRowids : (db.programFts.map Prod.fst).Nodup
  captionRowids : (db.captionFts.map Prod.fst).Nodup

section Filter

variable {db : SearchDb} {filter : SearchFilter} {program : ProgramRow}

/-- The eight placeholders of the filter say what it means. -/
theorem holds_programFilter :
    (db.programFilter filter program).holds = true ↔ db.Admits filter program := by
  obtain ⟨stream, lower, upper, genre⟩ := filter
  simp only [programFilter, Sql.holds_and, Sql.holds_optional, Bool.and_eq_true,
    Option.all_eq_true, decide_eq_true_eq, and_assoc, Admits, Option.mem_def]
  refine and_congr_right fun _ => and_congr_right fun _ => and_congr_right fun _ => ?_
  cases genre with
  | none => simp
  | some genre =>
      obtain ⟨level1, level2⟩ := genre
      simp only [Option.map_some, Option.bind_some, Sql.holds_or, Sql.holds_isNull,
        Option.isNone_some, Bool.false_or, Sql.holds_existsRow, Sql.holds_and, Sql.holds_compare,
        List.any_eq_true, Bool.and_eq_true, decide_eq_true_eq, and_assoc, Option.some.injEq,
        forall_eq']
      refine exists_congr fun row => and_congr_right fun _ => and_congr_right fun _ =>
        and_congr_right fun _ => ?_
      cases level2 <;> simp

end Filter

section Group

variable {results : List SearchProgram} {program : ProgramRow}

/-- The rows of a program that is already being put together. -/
theorem foldl_groupRow_same (results : List SearchProgram) (first more : List CaptionRow) :
    (more.map fun caption => groupedRow (program, caption)).foldl groupRow
        (results ++ [searchProgram program first]) =
      results ++ [searchProgram program (first ++ more)] := by
  induction more generalizing first with
  | nil => rw [List.append_nil]; rfl
  | cons caption more ih =>
      have grouped : groupRow (results ++ [searchProgram program first])
          (groupedRow (program, caption)) =
            results ++ [searchProgram program (first ++ [caption])] := by
        simp [groupRow, searchProgram, groupedRow]
      rw [List.map_cons, List.foldl_cons, grouped, ih, List.append_assoc, List.singleton_append]

/-- The rows of a program behind those of another one. -/
theorem foldl_groupRow_block (other : ∀ last ∈ results.getLast?, last.programId ≠ program.id)
    {captions : List CaptionRow} (some : captions ≠ []) :
    (captions.map fun caption => groupedRow (program, caption)).foldl groupRow results =
      results ++ [searchProgram program captions] := by
  obtain ⟨caption, more, rfl⟩ := List.exists_cons_of_ne_nil some
  have started : groupRow results (groupedRow (program, caption)) =
      results ++ [searchProgram program [caption]] := by
    unfold groupRow
    cases last : results.getLast? with
    | none => rfl
    | some found =>
        have different := other found last
        exact if_neg different
  rw [List.map_cons, List.foldl_cons, started, foldl_groupRow_same, List.singleton_append]

/-- Rows that come program by program are grouped by program. -/
theorem groupRows_flatMap {programs : List ProgramRow} (ids : (programs.map ProgramRow.id).Nodup)
    {captions : ProgramRow → List CaptionRow} (some : ∀ program ∈ programs, captions program ≠ []) :
    groupRows (programs.flatMap fun program =>
        (captions program).map fun caption => groupedRow (program, caption)) =
      programs.map fun program => searchProgram program (captions program) := by
  unfold groupRows
  induction programs using List.reverseRecOn with
  | nil => rfl
  | append_singleton programs program ih =>
      rw [List.map_append, List.nodup_append] at ids
      have earlier := ih ids.1 fun other member => some other (List.mem_append_left _ member)
      rw [List.flatMap_append, List.foldl_append, earlier, List.flatMap_singleton]
      rw [foldl_groupRow_block ?_ (some program (by simp)), List.map_append, List.map_singleton]
      intro last found same
      have member := List.mem_of_getLast? found
      obtain ⟨other, present, rfl⟩ := List.mem_map.mp member
      exact ids.2.2 _ (List.mem_map_of_mem present) _ (by simp) same

end Group

section Joins

variable {db : SearchDb} {lines : List ℕ} {programMatchJoin : ProgramRow → List ProgramRow}
  {eligible : ProgramRow → Bool} {filter : SearchFilter} {program : ProgramRow}

/-- The additional join keeps a program once or not at all. -/
def JoinsOnce (programMatchJoin : ProgramRow → List ProgramRow) (eligible : ProgramRow → Bool) :
    Prop :=
  ∀ program, programMatchJoin program = if eligible program then [program] else []

theorem mem_matchingCaptions {caption : CaptionRow} :
    caption ∈ db.matchingCaptions lines program ↔
      caption ∈ db.captionLines ∧ caption.programId = program.id ∧ caption.id ∈ lines := by
  simp [matchingCaptions]

theorem mem_rankedRows (once : JoinsOnce programMatchJoin eligible)
    {row : ProgramRow × CaptionRow} :
    row ∈ db.rankedRows lines programMatchJoin filter ↔
      row.1 ∈ db.programs ∧ (eligible row.1 = true ∧ db.Admits filter row.1) ∧
        row.2 ∈ db.matchingCaptions lines row.1 := by
  obtain ⟨program, caption⟩ := row
  have kept (other joined : ProgramRow) :
      joined ∈ programMatchJoin other ↔ eligible other = true ∧ joined = other := by
    rw [once other]
    split <;> simp [*]
  simp only [rankedRows, List.mem_filter, List.mem_flatMap, List.mem_map, decide_eq_true_eq,
    holds_programFilter, Prod.mk.injEq, mem_matchingCaptions, kept]
  constructor
  · rintro ⟨⟨other, ⟨line, matched, present, rfl⟩, found, ⟨joined, ⟨stored, same⟩, passes, rfl⟩,
      rfl, rfl⟩, admitted⟩
    exact ⟨stored, ⟨passes, admitted⟩, present, same.symm, matched⟩
  · rintro ⟨stored, ⟨passes, admitted⟩, present, same, matched⟩
    exact ⟨⟨caption, ⟨_, matched, present, rfl⟩, program, ⟨program, ⟨stored, same.symm⟩, passes,
      rfl⟩, rfl, rfl⟩, admitted⟩

/-- The joins do not multiply rows. -/
theorem nodup_rankedRows (unique : db.UniqueKeys) (once : JoinsOnce programMatchJoin eligible)
    (matched : lines.Nodup) : (db.rankedRows lines programMatchJoin filter).Nodup := by
  have captions : (lines.flatMap fun line =>
      db.captionLines.filter fun row => row.id = line).Nodup := by
    rw [List.nodup_flatMap]
    refine ⟨fun line _ => unique.captionIds.of_map.filter _, matched.imp fun different => ?_⟩
    intro caption here there
    exact different ((of_decide_eq_true (List.mem_filter.mp here).2).symm.trans
      (of_decide_eq_true (List.mem_filter.mp there).2))
  refine List.Nodup.filter _ (List.nodup_flatMap.mpr ⟨fun caption _ => ?_, ?_⟩)
  · refine List.Nodup.map (fun first second same => (Prod.mk.inj same).1) ?_
    rw [List.nodup_flatMap]
    constructor
    · intro program _
      rw [once program]
      split <;> simp
    · refine (unique.programIds.of_map.filter _).imp fun {first second} different => ?_
      intro program here there
      rw [once first] at here
      rw [once second] at there
      split at here <;> split at there <;> simp_all
  · refine captions.imp fun different => ?_
    rintro row here there
    obtain ⟨_, _, rfl⟩ := List.mem_map.mp here
    obtain ⟨_, _, same⟩ := List.mem_map.mp there
    exact different (Prod.mk.inj same).2.symm

theorem programKey_injective {first second : ProgramRow}
    (same : programKey first = programKey second) : first.id = second.id :=
  (Prod.mk.inj same).2

/-- Stored programs have different places in the order. -/
theorem nodup_programKeys (unique : db.UniqueKeys) {rows : List ProgramRow} (nodup : rows.Nodup)
    (stored : rows ⊆ db.programs) : (rows.map programKey).Nodup :=
  nodup.map_on fun _ here _ there same =>
    unique.programIds.eq_of_key (stored here) (stored there) (programKey_injective same)

/-- The eligible programs that the filter admits and that have a matching caption. -/
def foundPrograms (db : SearchDb) (lines : List ℕ) (eligible : ProgramRow → Bool) :
    List ProgramRow :=
  db.programs.filter fun program =>
    eligible program && decide (db.matchingCaptions lines program ≠ [])

/-- The groups of the ranked rows are the programs that are found, in order. -/
theorem keysInOrder_rankedRows (unique : db.UniqueKeys)
    (once : JoinsOnce programMatchJoin eligible) :
    Sql.keysInOrder (fun row => programKey row.1) (db.rankedRows lines programMatchJoin filter) =
      (Sql.orderBy programKey (db.foundPrograms lines fun program =>
        eligible program && decide (db.Admits filter program))).map programKey := by
  have distinct : ((db.foundPrograms lines fun program =>
      eligible program && decide (db.Admits filter program)).map programKey).Nodup :=
    nodup_programKeys unique (unique.programIds.of_map.filter _) List.filter_sublist.subset
  refine (Sql.eq_orderBy_of_pairwise ?_ ?_ fun key => ?_).symm
  · exact List.pairwise_map.mpr (Sql.pairwise_lt_orderBy programKey distinct)
  · rw [List.map_id]
    exact List.nodup_dedup _
  · simp only [List.mem_map, Sql.mem_orderBy, foundPrograms, List.mem_filter, Bool.and_eq_true,
      decide_eq_true_eq, List.mem_dedup, mem_rankedRows once]
    constructor
    · rintro ⟨program, ⟨stored, passes, some⟩, rfl⟩
      obtain ⟨caption, matching⟩ := List.exists_mem_of_ne_nil _ some
      exact ⟨(program, caption), ⟨stored, passes, matching⟩, rfl⟩
    · rintro ⟨⟨program, caption⟩, ⟨stored, passes, matching⟩, rfl⟩
      exact ⟨program, ⟨stored, passes, List.ne_nil_of_mem matching⟩, rfl⟩

/-- The rows of a program are its matching captions by their lines. -/
theorem orderBy_rankedRows (unique : db.UniqueKeys)
    (once : JoinsOnce programMatchJoin eligible) (stored : program ∈ db.programs)
    (passes : eligible program = true ∧ db.Admits filter program) (matched : lines.Nodup) :
    Sql.orderBy (fun row => row.2.lineNo)
        ((db.rankedRows lines programMatchJoin filter).filter fun row =>
          programKey row.1 = programKey program) =
      (db.matchingCaptions lines program).map fun caption => (program, caption) := by
  have own {row : ProgramRow × CaptionRow} : row ∈ (db.rankedRows lines programMatchJoin
      filter).filter (fun row => programKey row.1 = programKey program) ↔
        row.1 = program ∧ row.2 ∈ db.matchingCaptions lines program := by
    rw [List.mem_filter, decide_eq_true_eq, mem_rankedRows once]
    constructor
    · rintro ⟨⟨present, _, matching⟩, same⟩
      obtain rfl := unique.programIds.eq_of_key present stored (programKey_injective same)
      exact ⟨rfl, matching⟩
    · rintro ⟨rfl, matching⟩
      exact ⟨⟨stored, passes, matching⟩, rfl⟩
  have lineNos {first second : CaptionRow} (here : first ∈ db.matchingCaptions lines program)
      (there : second ∈ db.matchingCaptions lines program) (same : first.lineNo = second.lineNo) :
      first = second := by
    obtain ⟨one, first_own, _⟩ := mem_matchingCaptions.mp here
    obtain ⟨two, second_own, _⟩ := mem_matchingCaptions.mp there
    exact unique.captionKeys.eq_of_key one two
      (Prod.ext (first_own.trans second_own.symm) same)
  refine (Sql.eq_orderBy_of_pairwise ?_ ?_ fun row => ?_).symm
  · refine List.pairwise_map.mpr (Sql.pairwise_lt_orderBy CaptionRow.lineNo ?_)
    apply (unique.captionIds.of_map.filter _).map_on
    intro first here second there
    exact lineNos ((Sql.mem_orderBy _ _).mpr here) ((Sql.mem_orderBy _ _).mpr there)
  · apply ((nodup_rankedRows unique once matched).filter _).map_on
    intro first here second there same
    obtain ⟨first_own, one⟩ := own.mp here
    obtain ⟨second_own, two⟩ := own.mp there
    exact Prod.ext (first_own.trans second_own.symm) (lineNos one two same)
  · rw [own, List.mem_map]
    constructor
    · rintro ⟨caption, matching, rfl⟩
      exact ⟨rfl, matching⟩
    · rintro ⟨rfl, matching⟩
      exact ⟨row.2, matching, rfl⟩

/-- The ranked statement lists the found programs with their captions, both cut. -/
theorem rankedCaptionSql_eq (unique : db.UniqueKeys)
    (once : JoinsOnce programMatchJoin eligible) (matched : lines.Nodup) (limit innerHits : ℤ) :
    db.rankedCaptionSql lines programMatchJoin filter limit innerHits =
      ((Sql.orderBy programKey (db.foundPrograms lines fun program =>
          eligible program && decide (db.Admits filter program))).take limit.toNat).flatMap
        fun program => ((db.matchingCaptions lines program).take innerHits.toNat).map
          fun caption => groupedRow (program, caption) := by
  have partitions : ∀ first ∈ db.rankedRows lines programMatchJoin filter,
      ∀ second ∈ db.rankedRows lines programMatchJoin filter,
        first.1.id = second.1.id ↔ programKey first.1 = programKey second.1 := by
    intro first here second there
    refine ⟨fun same => ?_, programKey_injective⟩
    rw [unique.programIds.eq_of_key ((mem_rankedRows once).mp here).1
      ((mem_rankedRows once).mp there).1 same]
  rw [rankedCaptionSql, Sql.limitGroups_eq (nodup_rankedRows unique once matched) partitions,
    keysInOrder_rankedRows unique once, ← List.map_take, List.flatMap_map, List.map_flatMap]
  apply List.flatMap_congr
  intro program member
  have found := (Sql.mem_orderBy _ _).mp (List.mem_of_mem_take member)
  simp only [foundPrograms, List.mem_filter, Bool.and_eq_true, decide_eq_true_eq] at found
  rw [orderBy_rankedRows unique once found.1 found.2.1 matched, ← List.map_take, List.map_map]
  rfl

/-- Grouping puts the captions of each program together. -/
theorem groupRows_rankedCaptionSql (unique : db.UniqueKeys)
    (once : JoinsOnce programMatchJoin eligible) (matched : lines.Nodup) (limit : ℤ)
    {innerHits : ℤ} (hits : 1 ≤ innerHits) :
    groupRows (db.rankedCaptionSql lines programMatchJoin filter limit innerHits) =
      db.naiveSearch lines (fun program => eligible program && decide (db.Admits filter program))
        limit innerHits := by
  rw [rankedCaptionSql_eq unique once matched]
  refine groupRows_flatMap ?_ fun program member => ?_
  · apply List.Nodup.sublist ((List.take_sublist _ _).map _)
    rw [((Sql.perm_orderBy programKey _).map ProgramRow.id).nodup_iff]
    exact unique.programIds.filter _
  · have found := (Sql.mem_orderBy _ _).mp (List.mem_of_mem_take member)
    simp only [foundPrograms, List.mem_filter, Bool.and_eq_true, decide_eq_true_eq] at found
    intro none
    rcases List.take_eq_nil_iff.mp none with zero | empty
    · omega
    · exact found.2.2 empty

end Joins

/-- `search_captions` looks at every program. -/
theorem searchCaptionRows_eq_naiveSearch {db : SearchDb} (unique : db.UniqueKeys)
    {lines : List ℕ} (matched : lines.Nodup) (filter : SearchFilter) (limit : ℤ) {innerHits : ℤ}
    (hits : 1 ≤ innerHits) :
    db.searchCaptionRows lines filter limit innerHits =
      db.naiveSearch lines (fun program => db.Admits filter program) limit innerHits := by
  have once : JoinsOnce (fun program => [program]) fun _ => true := fun program => rfl
  exact groupRows_rankedCaptionSql unique once matched limit hits

/-- `search_combined` looks at the programs that match. -/
theorem searchCombinedRows_eq_naiveSearch {db : SearchDb} (unique : db.UniqueKeys)
    {lines programs : List ℕ} (matchedLines : lines.Nodup) (matchedPrograms : programs.Nodup)
    (filter : SearchFilter) (limit : ℤ) {innerHits : ℤ} (hits : 1 ≤ innerHits) :
    db.searchCombinedRows programs lines filter limit innerHits =
      db.naiveSearch lines
        (fun program => decide (program.id ∈ programs) && decide (db.Admits filter program))
        limit innerHits := by
  refine groupRows_rankedCaptionSql unique (fun program => ?_) matchedLines limit hits
  have same : (programs.filter fun id => id = program.id) =
      List.replicate (programs.count program.id) program.id := List.filter_eq _
  rw [same, List.map_replicate]
  by_cases member : program.id ∈ programs
  · simp [member, List.count_eq_one_of_mem matchedPrograms member]
  · simp [member, List.count_eq_zero_of_not_mem member]

end SearchDb

namespace Sample

end Sample

end AribcapDb
