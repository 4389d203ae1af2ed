import AribcapDb.Query.CaptionWalk
import AribcapDb.Search.Mirror

/-! # Commits that spare a caption page

What a transaction of the indexer leaves of a caption page, between the two statements of
`get_caption_page`, shows in what it reads: transactions that take no program over, that rewrite
the columns of the program only to what they were or together with no caption of the page, and
that do not delete the program (`Spares`). Between such commits the page is that of one committed
state (`caption_page_is_of_one_state`). -/

namespace AribcapDb

/-- The present EIT of a line. -/
def eitOfLine (serde : SerdeJson) (line : List UInt8) : Option EitPresent :=
  match lineRecord serde line with
  | .eit eit => some eit
  | _ => none

def lastEit (serde : SerdeJson) (lines : List (List UInt8)) : Option EitPresent :=
  (lines.filterMap (eitOfLine serde)).getLast?

def isCaptionLine (serde : SerdeJson) (line : List UInt8) : Bool :=
  match lineRecord serde line with
  | .caption _ => true
  | _ => false

/-- The columns of the first statement are those of a present EIT. -/
structure ProgramDetails.Shows (program : ProgramDetails) (eit : EitPresent) : Prop where
  startTime : program.startTime = eit.startTime
  durationSec : program.durationSec = eit.durationSec
  title : program.title = eit.title
  description : program.description = eit.description

/-- The group that a query asks for. -/
def CaptionQuery.group (query : CaptionQuery) : String × String :=
  (query.stream, query.recordingStartedAt)

/-- The transactions that spare the page of a program: they touch another group, or read nothing
of a file without the program, or leave its columns as they were returned, or add no caption to
the page. -/
inductive Spares (crates : Crates) (archiveRoot : String) (query : CaptionQuery)
    (program : ProgramDetails) (db : SearchDb) : SearchDb → Prop where
  | otherGroup {after : SearchDb} (path : String) (access : FileAccess) :
      ingestFile crates archiveRoot db path access = .ok after →
      (∀ file, identify crates archiveRoot path = some file → file.group ≠ query.group) →
      Spares crates archiveRoot query program db after
  | otherFile {after : SearchDb} (path : String) (access : FileAccess) :
      ingestFile crates archiveRoot db path access = .ok after →
      (∀ owner ∈ db.programs, owner.group = query.group → owner.path ≠ path) →
      readsPresentEit crates archiveRoot db path access = false →
      Spares crates archiveRoot query program db after
  /-- The columns are those that the first statement has returned, and no present EIT is read. -/
  | sameProgram {after : SearchDb} (path : String) (access : FileAccess) :
      ingestFile crates archiveRoot db path access = .ok after →
      db.programDetails query = some program →
      readsPresentEit crates archiveRoot db path access = false →
      Spares crates archiveRoot query program db after
  /-- The last present EIT that is read has the columns that the first statement has returned. -/
  | sameColumns {after : SearchDb} (path : String) (access : FileAccess) (file : FileIdentity)
      (eit : EitPresent) : ingestFile crates archiveRoot db path access = .ok after →
      identify crates archiveRoot path = some file → file.group = query.group →
      lastEit crates.serde (linesRead crates archiveRoot db path access) = some eit →
      program.Shows eit → Spares crates archiveRoot query program db after
  | noCaption {after : SearchDb} (owner : ProgramRow) (access : FileAccess) :
      ingestFile crates archiveRoot db owner.path access = .ok after →
      owner ∈ db.programs → owner.group = query.group →
      (linesRead crates archiveRoot db owner.path access).any (isCaptionLine crates.serde) = false →
      Spares crates archiveRoot query program db after
  /-- There are more captions than the page has room for. -/
  | fullPage {after : SearchDb} (owner : ProgramRow) (access : FileAccess) :
      ingestFile crates archiveRoot db owner.path access = .ok after →
      owner ∈ db.programs → owner.group = query.group →
      query.limit < (Paging.rowsFrom CaptionLine.number query.startLine
        (db.captionsInOrder owner.id)).length →
      Spares crates archiveRoot query program db after
  /-- A cleanup finds the file of the program. -/
  | cleanup (tryExists : String → Option Bool) :
      (∀ owner ∈ db.programs, owner.group = query.group → tryExists owner.path = some true) →
      Spares crates archiveRoot query program db (db.cleanupIndexForDeletedFiles tryExists).2

/-- Every such transaction is one of the indexer. -/
theorem Spares.indexStep {crates : Crates} {archiveRoot : String} {query : CaptionQuery}
    {program : ProgramDetails} {db after : SearchDb}
    (spares : Spares crates archiveRoot query program db after) :
    IndexStep crates archiveRoot db after := by
  cases spares with
  | otherGroup _ _ ran _ => exact .ingest _ _ ran
  | otherFile _ _ ran _ _ => exact .ingest _ _ ran
  | sameProgram _ _ ran _ _ => exact .ingest _ _ ran
  | sameColumns _ _ _ _ ran _ _ _ _ => exact .ingest _ _ ran
  | noCaption _ _ ran _ _ _ => exact .ingest _ _ ran
  | fullPage _ _ ran _ _ _ => exact .ingest _ _ ran
  | cleanup tryExists _ => exact .cleanup _ tryExists

/-- The group of a query has the program with the id that the first statement has returned. -/
def Owned (query : CaptionQuery) (program : ProgramDetails) (db : SearchDb) : Prop :=
  ∃ owner ∈ db.programs, owner.group = query.group ∧ owner.id = program.programId

section Statements

variable {unicode : Unicode} {db after : SearchDb} {query : CaptionQuery}
  {program : ProgramDetails}

/-- The row that the first statement selects. -/
theorem programDetails_eq_some (sound : TablesSound unicode db) :
    db.programDetails query = some program ↔ ∃ row ∈ db.programs, row.group = query.group ∧
      ⟨row.id, row.stream, row.recordingStartedAt, row.metadata.startTime,
        row.metadata.durationSec, row.metadata.title, row.metadata.description⟩ = program := by
  have select (row : ProgramRow) :
      db.groupProgram query.stream query.recordingStartedAt = some row ↔
        row ∈ db.programs ∧ row.group = query.group := by
    let asked : FileIdentity := ⟨query.stream, "", "", "", query.recordingStartedAt⟩
    have selected : db.groupProgram asked.stream asked.recordingStartedAt = some row ↔
        row ∈ db.programs ∧ row.group = asked.group := mem_groupProgram sound
    exact selected
  unfold SearchDb.programDetails
  simp only [Option.map_eq_some_iff, select, and_assoc]

theorem Owned.of_programDetails (sound : TablesSound unicode db)
    (found : db.programDetails query = some program) : Owned query program db := by
  obtain ⟨row, member, same, rfl⟩ := (programDetails_eq_some sound).mp found
  exact ⟨row, member, same, rfl⟩

/-- The second statement reads the captions of one program. -/
theorem pageOf_congr
    (captions : after.captionsOf program.programId = db.captionsOf program.programId) :
    pageOf query program after = pageOf query program db := by
  have selected (state : SearchDb) : state.captionLines.filter (fun row =>
      row.programId = program.programId && query.startLine ≤ row.lineNo) =
        (state.captionsOf program.programId).filter fun row => query.startLine ≤ row.lineNo := by
    rw [SearchDb.captionsOf, List.filter_filter]
    exact List.filter_congr fun row _ => Bool.and_comm _ _
  simp only [pageOf, SearchDb.captionRows, selected, captions]

end Statements

variable {crates : Crates} {archiveRoot : String} {file : FileIdentity} {db after : SearchDb}
  {query : CaptionQuery} {program : ProgramDetails}

namespace Scanning

variable {state : ScanState} {lines : List (List UInt8)}

/-- The program of the group keeps its id while a file of the group is scanned. -/
theorem run_owner (scanning : Scanning crates archiveRoot file state) {owner : ProgramRow}
    (member : owner ∈ state.db.programs) (same : owner.group = file.group) :
    ∃ later ∈ (lines.foldl (ingestLine crates file) state).db.programs,
      later.group = file.group ∧ later.id = owner.id := by
  apply scanning.preserved (motive := fun scanned => ∃ later ∈ scanned.db.programs,
    later.group = file.group ∧ later.id = owner.id) ⟨owner, member, same, rfl⟩
  rintro scanned scanning ⟨later, there, group, id⟩ line
  rw [ingestLine_eq]
  cases lineRecord crates.serde line with
  | skipped => exact ⟨later, there, group, id⟩
  | eit eit =>
      have upserted :=
        (upsertProgram_spec scanning.tables scanning.linked.identified scanning.own eit).2
      exact ⟨_, (upserted.program _).mpr (.inl rfl), rfl,
        ((upserted.id_iff later there).mpr group).symm.trans id⟩
  | caption caption =>
      cases known : scanned.programId with
      | none => exact ⟨later, there, group, id⟩
      | some own =>
          simp only
          rw [insertCaptionLine_of_fresh crates.unicode (scanning.fresh_key known)]
          exact ⟨later, there, group, id⟩

/-- The program of the group has the columns of the last present EIT that is scanned. -/
theorem run_lastEit (scanning : Scanning crates archiveRoot file state) {eit : EitPresent}
    (last : lastEit crates.serde lines = some eit) {owner : ProgramRow}
    (member : owner ∈ state.db.programs) (same : owner.group = file.group) :
    ∃ later ∈ (lines.foldl (ingestLine crates file) state).db.programs,
      later.group = file.group ∧ later.id = owner.id ∧
        later.metadata = programMetadata crates.unicode eit := by
  induction lines using List.reverseRecOn with
  | nil => simp [lastEit] at last
  | append_singleton earlier line ih =>
      have scanned := scanning.run earlier
      rw [List.foldl_append, List.foldl_cons, List.foldl_nil, ingestLine_eq]
      rw [lastEit, List.filterMap_append, List.getLast?_append] at last
      cases record : lineRecord crates.serde line with
      | skipped =>
          exact ih (by simpa [lastEit, eitOfLine, record] using last)
      | eit found =>
          obtain rfl : found = eit := by simpa [eitOfLine, record] using last
          obtain ⟨later, there, group, id⟩ : ∃ later ∈
              (earlier.foldl (ingestLine crates file) state).db.programs,
                later.group = file.group ∧ later.id = owner.id :=
            scanning.run_owner member same
          have upserted :=
            (upsertProgram_spec scanned.tables scanned.linked.identified scanned.own found).2
          exact ⟨_, (upserted.program _).mpr (.inl rfl), rfl,
            ((upserted.id_iff later there).mpr group).symm.trans id, rfl⟩
      | caption caption =>
          obtain ⟨later, there, rest⟩ := ih (by simpa [lastEit, eitOfLine, record] using last)
          cases known : (earlier.foldl (ingestLine crates file) state).programId with
          | none => exact ⟨later, there, rest⟩
          | some own =>
              simp only
              rw [insertCaptionLine_of_fresh crates.unicode (scanned.fresh_key known)]
              exact ⟨later, there, rest⟩

/-- Lines without a caption leave the captions of the program alone whose file is scanned. -/
theorem run_no_caption (scanning : Scanning crates archiveRoot file state) {id : ℕ}
    (known : state.programId = some id)
    (none : lines.any (isCaptionLine crates.serde) = false) :
    (lines.foldl (ingestLine crates file) state).db.captionsOf id = state.db.captionsOf id := by
  induction lines generalizing state with
  | nil => rfl
  | cons line more ih =>
      rw [List.any_cons, Bool.or_eq_false_iff] at none
      have grown := scanning.captionsGrow_step known line
      rw [List.foldl_cons, ih (scanning.step line) grown.1 none.2, ingestLine_eq]
      cases record : lineRecord crates.serde line with
      | skipped => rfl
      | eit eit =>
          obtain ⟨own, member, same, path⟩ := scanning.exists_program known
          apply captionsOf_upsertProgram
          intro rival found equal
          obtain ⟨present, _, other⟩ := (mem_rival scanning.tables).mp found
          have one := scanning.tables.programIds.eq_of_key present member
            (equal.symm.trans same.symm)
          exact other (one ▸ path)
      | caption caption => simp [isCaptionLine, record] at none

/-- A file without a program adds no captions before its first present EIT. -/
theorem run_unknown (scanning : Scanning crates archiveRoot file state)
    (unknown : state.programId = none)
    (no_eit : lines.any (isPresentEitLine crates.serde) = false) :
    (lines.foldl (ingestLine crates file) state).db.captionLines = state.db.captionLines := by
  induction lines generalizing state with
  | nil => rfl
  | cons line more ih =>
      rw [List.any_cons, Bool.or_eq_false_iff] at no_eit
      have step : (ingestLine crates file state line).db.captionLines = state.db.captionLines ∧
          (ingestLine crates file state line).programId = none := by
        have line' := no_eit.1
        rw [isPresentEitLine] at line'
        rw [ingestLine_eq]
        cases record : lineRecord crates.serde line with
        | skipped => exact ⟨rfl, unknown⟩
        | eit eit => simp [record] at line'
        | caption caption =>
            simp only [unknown]
            exact ⟨trivial, trivial⟩
      rw [List.foldl_cons, ih (scanning.step line) step.2 no_eit.2]
      exact step.1

end Scanning

/-- Either the first statement would return the same again, or the page is as it was; and the
program is still there. -/
structure Spared (query : CaptionQuery) (program : ProgramDetails) (db after : SearchDb) :
    Prop where
  page : after.programDetails query = some program ∨
    pageOf query program after = pageOf query program db
  owned : Owned query program after

namespace Spared

/-- The program of the group and its captions are as they were. -/
theorem of_unchanged (owned : Owned query program db)
    (programs : ∀ row ∈ db.programs, row.group = query.group → row ∈ after.programs)
    (captions : ∀ owner ∈ db.programs, owner.group = query.group →
      after.captionsOf owner.id = db.captionsOf owner.id) :
    Spared query program db after := by
  obtain ⟨owner, member, same, id⟩ := owned
  exact ⟨.inr (pageOf_congr (id ▸ captions owner member same)),
    owner, programs owner member same, same, id⟩

theorem otherGroup (wellFormed : WellFormed crates archiveRoot db)
    (owned : Owned query program db) {path : String} {access : FileAccess}
    (ran : ingestFile crates archiveRoot db path access = .ok after)
    (other : ∀ file, identify crates archiveRoot path = some file → file.group ≠ query.group) :
    Spared query program db after := by
  cases identified : identify crates archiveRoot path with
  | none =>
      rw [ingestFile_of_unidentified identified ran]
      exact .of_unchanged owned (fun _ member _ => member) fun _ _ _ => rfl
  | some file =>
      have untouched := (ingestFile_cases ran).untouched wellFormed identified
      have apart := other file identified
      refine .of_unchanged owned (fun row member same => ?_) fun owner member same => ?_
      · exact (untouched.programs row (same.trans_ne (Ne.symm apart))).mpr member
      · exact untouched.captions owner member (same.trans_ne (Ne.symm apart))

/-- Without a present EIT the programs stay. -/
theorem programs_of_no_eit (wellFormed : WellFormed crates archiveRoot db) {path : String}
    {access : FileAccess} (ran : ingestFile crates archiveRoot db path access = .ok after)
    (none : readsPresentEit crates archiveRoot db path access = false) :
    after.programs = db.programs := by
  cases identified : identify crates archiveRoot path with
  | none => rw [ingestFile_of_unidentified identified ran]
  | some file =>
      obtain rfl := path_of_identify identified
      have ownership := (ingestFile_cases ran).ownership wellFormed identified
      rw [none] at ownership
      cases ownership with
      | kept programs _ => exact programs

/-- A file without the program adds nothing to it before its first present EIT. -/
theorem otherFile (wellFormed : WellFormed crates archiveRoot db)
    (owned : Owned query program db) {path : String} {access : FileAccess}
    (ran : ingestFile crates archiveRoot db path access = .ok after)
    (other : ∀ owner ∈ db.programs, owner.group = query.group → owner.path ≠ path)
    (no_eit : readsPresentEit crates archiveRoot db path access = false) :
    Spared query program db after := by
  by_cases apart : ∀ file, identify crates archiveRoot path = some file →
      file.group ≠ query.group
  · exact .otherGroup wellFormed owned ran apart
  push Not at apart
  obtain ⟨file, identified, same⟩ := apart
  have programs := programs_of_no_eit wellFormed ran no_eit
  obtain rfl := path_of_identify identified
  have captions : after.captionLines = db.captionLines := by
    cases (ingestFile_cases ran).parsed identified with
    | idle _ _ captions _ => exact captions
    | scan metadata content programId startOffset lineNo starts lines committed =>
        rw [readsPresentEit, lines] at no_eit
        have unknown : programId = none := by
          cases starts with
          | fresh _ _ => rfl
          | resume row found _ _ =>
              -- a program of the row would be one of this path in the group
              rw [Option.eq_none_iff_forall_not_mem]
              intro id points
              obtain ⟨owner, member, _, place⟩ :=
                wellFormed.linked.points file.path row id found points
              have known := wellFormed.linked.identified owner member
              rw [place, identified, Option.some.injEq] at known
              exact other owner member (known ▸ same) place
        rw [committed]
        exact (wellFormed.scanning identified starts).run_unknown unknown no_eit
  refine .of_unchanged owned (fun row member _ => programs ▸ member) fun _ _ _ => ?_
  rw [SearchDb.captionsOf, captions, SearchDb.captionsOf]

/-- The columns stay as they were returned. -/
theorem sameProgram (wellFormed : WellFormed crates archiveRoot db) {path : String}
    {access : FileAccess} (ran : ingestFile crates archiveRoot db path access = .ok after)
    (found : db.programDetails query = some program)
    (no_eit : readsPresentEit crates archiveRoot db path access = false) :
    Spared query program db after := by
  have details : after.programDetails query = some program := by
    simp only [SearchDb.programDetails, SearchDb.groupProgram,
      programs_of_no_eit wellFormed ran no_eit]
    exact found
  exact ⟨.inl details, .of_programDetails (wellFormed.ingestFile ran).tables details⟩

/-- The columns are rewritten to what was returned. -/
theorem sameColumns (wellFormed : WellFormed crates archiveRoot db)
    (owned : Owned query program db)
    (asked : (program.stream, program.recordingStartedAt) = query.group) {path : String}
    {access : FileAccess} {eit : EitPresent}
    (ran : ingestFile crates archiveRoot db path access = .ok after)
    (identified : identify crates archiveRoot path = some file)
    (group : file.group = query.group)
    (last : lastEit crates.serde (linesRead crates archiveRoot db path access) = some eit)
    (shows : program.Shows eit) : Spared query program db after := by
  obtain ⟨owner, member, same, id⟩ := owned
  obtain rfl := path_of_identify identified
  have formed := wellFormed.ingestFile ran
  obtain ⟨later, there, own, id', columns⟩ : ∃ later ∈ after.programs,
      later.group = file.group ∧ later.id = owner.id ∧
        later.metadata = programMetadata crates.unicode eit := by
    cases (ingestFile_cases ran).parsed identified with
    | idle none _ _ _ => simp [none, lastEit] at last
    | scan metadata content programId startOffset lineNo starts lines committed =>
        rw [lines] at last
        rw [committed]
        exact (wellFormed.scanning identified starts).run_lastEit last member
          (same.trans group.symm)
  have details : after.programDetails query = some program := by
    obtain ⟨streams, times⟩ := Prod.ext_iff.mp ((own.trans group).trans asked.symm)
    obtain ⟨startTime, durationSec, title, description⟩ := shows
    refine (programDetails_eq_some formed.tables).mpr ⟨later, there, own.trans group, ?_⟩
    simp only [FileIdentity.group] at streams times
    simp only [columns, programMetadata, streams, times, id', id, ← startTime, ← durationSec,
      ← title, ← description]
  exact ⟨.inl details, .of_programDetails formed.tables details⟩

/-- The file of the program is read on without a caption. -/
theorem noCaption (wellFormed : WellFormed crates archiveRoot db)
    (owned : Owned query program db) {owner : ProgramRow} {access : FileAccess}
    (ran : ingestFile crates archiveRoot db owner.path access = .ok after)
    (member : owner ∈ db.programs) (same : owner.group = query.group)
    (none : (linesRead crates archiveRoot db owner.path access).any
      (isCaptionLine crates.serde) = false) : Spared query program db after := by
  obtain ⟨one, there, own, id⟩ := owned
  obtain rfl := wellFormed.tables.programGroups.eq_of_key there member (own.trans same.symm)
  obtain ⟨later, present, kept, group⟩ :=
    (captionsGrow_ingestFile wellFormed member ran).program one member rfl
  have identified : identify crates archiveRoot one.toFileIdentity.path =
      some one.toFileIdentity := wellFormed.linked.identified one member
  have captions : after.captionsOf one.id = db.captionsOf one.id := by
    cases (ingestFile_cases ran).parsed identified with
    | idle _ _ captions _ => rw [SearchDb.captionsOf, captions, SearchDb.captionsOf]
    | scan metadata content programId startOffset lineNo starts lines committed =>
        rw [lines] at none
        obtain ⟨row, found, points⟩ := wellFormed.linked.owner one member
        have known : programId = some one.id := by
          cases starts with
          | fresh absent _ =>
              rw [found] at absent
              cases absent
          | resume other present _ _ =>
              rw [found, Option.some.injEq] at present
              rw [← present, points]
        rw [committed]
        exact (wellFormed.scanning identified starts).run_no_caption known none
  exact ⟨.inr (pageOf_congr (id ▸ captions)), later, present, group.trans same, kept.trans id⟩

/-- The file of the program is read on behind the captions of the page. -/
theorem fullPage (wellFormed : WellFormed crates archiveRoot db)
    (owned : Owned query program db) {owner : ProgramRow} {access : FileAccess}
    (ran : ingestFile crates archiveRoot db owner.path access = .ok after)
    (member : owner ∈ db.programs) (same : owner.group = query.group)
    (full : query.limit < (Paging.rowsFrom CaptionLine.number query.startLine
      (db.captionsInOrder owner.id)).length) : Spared query program db after := by
  obtain ⟨one, there, own, id⟩ := owned
  obtain rfl := wellFormed.tables.programGroups.eq_of_key there member (own.trans same.symm)
  have grows := captionsGrow_ingestFile wellFormed member ran
  obtain ⟨later, present, kept, group⟩ := grows.program one member rfl
  have before := wellFormed.tables.captionKeys
  have behind := (wellFormed.ingestFile ran).tables.captionKeys
  obtain ⟨more, ordered, _⟩ := grows.captionsInOrder before behind
  refine ⟨.inr ?_, later, present, group.trans same, kept.trans id⟩
  rw [pageOf, pageOf, ← id, captionRows_eq _ before, captionRows_eq _ behind, ordered,
    Paging.rowsFrom, List.filter_append, List.take_append_of_le_length]
  · rfl
  · have room : (min (query.limit + 1) (2 ^ 63 - 1)).toNat ≤ (Paging.rowsFrom CaptionLine.number
        query.startLine (db.captionsInOrder one.id)).length := by omega
    exact room

/-- A program loses no captions with paths that are not its own. -/
theorem captionsOf_deleted (wellFormed : WellFormed crates archiveRoot db) {owner : ProgramRow}
    (member : owner ∈ db.programs) {paths : List String} (kept : owner.path ∉ paths) :
    (paths.foldl SearchDb.deleteIndexedPath db).captionsOf owner.id = db.captionsOf owner.id := by
  induction paths generalizing db with
  | nil => rfl
  | cons path more ih =>
      rw [List.mem_cons, not_or] at kept
      have still : owner ∈ (db.deleteIndexedPath path).programs :=
        ((wellFormed.pathDeleted path).program owner).mpr ⟨member, kept.1⟩
      rw [List.foldl_cons, ih (wellFormed.deleteIndexedPath path) still kept.2]
      apply captionsOf_deleteIndexedPath
      intro gone there place same
      exact kept.1 (wellFormed.tables.programIds.eq_of_key there member same ▸ place)

/-- A cleanup that finds the file of the program. -/
theorem cleanup (wellFormed : WellFormed crates archiveRoot db) (owned : Owned query program db)
    (tryExists : String → Option Bool)
    (found : ∀ owner ∈ db.programs, owner.group = query.group →
      tryExists owner.path = some true) :
    Spared query program db (db.cleanupIndexForDeletedFiles tryExists).2 := by
  refine .of_unchanged owned (fun row member same => ?_) fun owner member same => ?_
  · exact ((wellFormed.cleanup_spec tryExists).1 row).mpr ⟨member, by simp [found row member same]⟩
  · apply captionsOf_deleted wellFormed member
    simp [found owner member same]

end Spared

/-- What the transactions that spare a page leave of it. -/
theorem Spares.spared (spares : Spares crates archiveRoot query program db after)
    (wellFormed : WellFormed crates archiveRoot db) (owned : Owned query program db)
    (asked : (program.stream, program.recordingStartedAt) = query.group) :
    Spared query program db after := by
  cases spares with
  | otherGroup path access ran other => exact .otherGroup wellFormed owned ran other
  | otherFile path access ran other no_eit => exact .otherFile wellFormed owned ran other no_eit
  | sameProgram path access ran found no_eit => exact .sameProgram wellFormed ran found no_eit
  | sameColumns path access file eit ran identified group last shows =>
      exact .sameColumns wellFormed owned asked ran identified group last shows
  | noCaption owner access ran member same none =>
      exact .noCaption wellFormed owned ran member same none
  | fullPage owner access ran member same full =>
      exact .fullPage wellFormed owned ran member same full
  | cleanup tryExists found => exact .cleanup wellFormed owned tryExists found

namespace CaptionReader

variable {before state : CaptionReader} {next : CaptionReader}

/-- Between the two statements only transactions are committed that spare the page. -/
def SparesPage (crates : Crates) (archiveRoot : String) (query : CaptionQuery)
    (before after : CaptionReader) : Prop :=
  ∀ program, before.reading = .selected program → after.reading = .selected program →
    Spares crates archiveRoot query program before.db after.db

/-- What holds of the database while the reader is between its statements. -/
structure Between (crates : Crates) (archiveRoot : String) (query : CaptionQuery)
    (state : CaptionReader) : Prop where
  steady : Steady query state
  reachable : IndexReachable crates archiveRoot state.db
  selected : ∀ program, state.reading = .selected program → Owned query program state.db ∧
    (program.stream, program.recordingStartedAt) = query.group

theorem Between.start (started : Start crates archiveRoot state) :
    Between crates archiveRoot query state := by
  refine ⟨.start started, started.reachable, fun program selected => ?_⟩
  rw [started.reading] at selected
  cases selected

theorem Between.step (between : Between crates archiveRoot query before)
    (stepped : Step crates archiveRoot query before next)
    (spares : SparesPage crates archiveRoot query before next) :
    Between crates archiveRoot query next := by
  have formed := between.reachable.wellFormed
  have spared (program : ProgramDetails) (early : before.reading = .selected program)
      (late : next.reading = .selected program) : Spared query program before.db next.db := by
    obtain ⟨owned, asked⟩ := between.selected program early
    exact (spares program early late).spared formed owned asked
  have keeps : KeepsPage query before next := by
    intro program selected
    cases stepped with
    | commit db _ => exact (spared program selected selected).page
    | refuse _ _ => exact .inr rfl
    | selectNone _ _ _ => exact .inr rfl
    | selectProgram _ _ _ _ => exact .inr rfl
    | selectCaptions _ _ => exact .inr rfl
  have steady := between.steady.step stepped keeps
  cases stepped with
  | commit db committed =>
      exact ⟨steady, between.reachable.next committed, fun program selected =>
        ⟨(spared program selected selected).owned, (between.selected program selected).2⟩⟩
  | selectProgram program _ _ found =>
      refine ⟨steady, between.reachable, fun other selected => ?_⟩
      cases selected
      obtain ⟨row, member, same, rfl⟩ := (programDetails_eq_some formed.tables).mp found
      exact ⟨⟨row, member, same, rfl⟩, same⟩
  | refuse _ _ => exact ⟨steady, between.reachable, by rintro _ ⟨⟩⟩
  | selectNone _ _ _ => exact ⟨steady, between.reachable, by rintro _ ⟨⟩⟩
  | selectCaptions _ _ => exact ⟨steady, between.reachable, by rintro _ ⟨⟩⟩

/-- In every run whose commits between the two statements spare the page, the page is that of one
committed state. -/
theorem caption_page_is_of_one_state
    (reachable : Transition.Reachable (Start crates archiveRoot)
      (Transition.Restricted (Step crates archiveRoot query)
        (SparesPage crates archiveRoot query)) state) :
    state.OfOneState query := by
  have between : Between crates archiveRoot query state :=
    reachable.invariant (fun _ started => .start started)
      fun _ _ _ between stepped => between.step stepped.1 stepped.2
  exact between.steady.answered

end CaptionReader

namespace Sample

def lateFile : List UInt8 := lineBytes lateLine ++ lineBytes otherCaptionLine

def firstPage : CaptionQuery := ⟨"nhk", "2026-07-01_12-00-01", 1, 100⟩

/-- The file with the smaller path, and then its takeover by the other one. -/
def takeover : Except String (SearchDb × SearchDb) := do
  let first ← ingestFile pageCrates "data/archive" .migrated smallPath (access newsFile)
  let second ← ingestFile pageCrates "data/archive" first greatPath (access lateFile)
  pure (first, second)

/-- A file that gets its caption after it has been indexed. -/
def growth : Except String (SearchDb × SearchDb) := do
  let first ← ingestFile pageCrates "data/archive" .migrated smallPath (access (lineBytes newsLine))
  let second ← ingestFile pageCrates "data/archive" first smallPath (access newsFile)
  pure (first, second)

/-- The program of a state, and the captions of its first page in another one. -/
def pageView (program : Option ProgramDetails) (db : SearchDb) :
    Option (Option String × List String) :=
  program.map fun program =>
    (program.startTime, (pageOf firstPage program db).captions.map CaptionLine.text)

/-- The first page in the first state, in both states, and in the second one. -/
def pageViews (states : SearchDb × SearchDb) : List (Option (Option String × List String)) :=
  [pageView (states.1.programDetails firstPage) states.1,
    pageView (states.1.programDetails firstPage) states.2,
    pageView (states.2.programDetails firstPage) states.2]

theorem exists_of_pageView {program : Option ProgramDetails} {db : SearchDb}
    {startTime : Option String} {texts : List String}
    (view : pageView program db = some (startTime, texts)) :
    ∃ details, program = some details ∧ details.startTime = startTime ∧
      (pageOf firstPage details db).captions.map CaptionLine.text = texts := by
  obtain ⟨details, found, same⟩ := Option.map_eq_some_iff.mp view
  rw [Prod.mk.injEq] at same
  exact ⟨details, found, same⟩

end Sample

namespace CaptionReader

/-- The first statement runs in the first of two states, and the second one in the other. -/
theorem reachable_between {crates : Crates} {archiveRoot : String} (query : CaptionQuery)
    (condition : CaptionReader → CaptionReader → Prop) {first second : SearchDb}
    {program : ProgramDetails} (reachable : IndexReachable crates archiveRoot first)
    (limit : 0 < query.limit) (details : first.programDetails query = some program)
    (committed : IndexStep crates archiveRoot first second)
    (early : ∀ after, condition ⟨first, .notStarted, []⟩ after)
    (kept : condition ⟨first, .selected program, [first]⟩
      ⟨second, .selected program, [second, first]⟩)
    (late : condition ⟨second, .selected program, [second, first]⟩
      ⟨second, .answered (.ok (some (pageOf query program second))), [second, first]⟩) :
    Transition.Reachable (Start crates archiveRoot)
      (Transition.Restricted (Step crates archiveRoot query) condition)
        ⟨second, .answered (.ok (some (pageOf query program second))), [second, first]⟩ := by
  have start : Transition.Reachable (Start crates archiveRoot)
      (Transition.Restricted (Step crates archiveRoot query) condition)
        ⟨first, .notStarted, []⟩ := .initial ⟨reachable, rfl⟩
  have selected := start.next ⟨.selectProgram program rfl limit details, early _⟩
  have moved := selected.next ⟨.commit second committed, kept⟩
  exact moved.next ⟨.selectCaptions program rfl, late⟩

/-- A caption is committed between the two statements, and the page has it. -/
theorem caption_page_is_of_one_state_sample : ∃ state : CaptionReader, ∃ page : CaptionPage,
    state.reading = .answered (.ok (some page)) ∧
      page.captions.map CaptionLine.text = ["hello"] ∧ state.OfOneState Sample.firstPage := by
  have evaluates : Sample.growth.toOption.map (fun states => (Sample.pageViews states,
      readsPresentEit Sample.pageCrates "data/archive" states.1 Sample.smallPath
        (Sample.access Sample.newsFile))) =
      some ([some (none, []), some (none, ["hello"]), some (none, ["hello"])], false) := by
    decide +kernel
  obtain ⟨⟨first, second⟩, ran, views⟩ := exists_ok_of_toOption_map evaluates
  obtain ⟨middle, indexed, ran⟩ := exists_ok_of_bind ran
  obtain ⟨last, grown, ran⟩ := exists_ok_of_bind ran
  cases ran
  simp only [Sample.pageViews, Prod.mk.injEq, List.cons.injEq] at views
  obtain ⟨⟨_, torn, _⟩, no_eit⟩ := views
  obtain ⟨program, details, _, texts⟩ := Sample.exists_of_pageView torn
  have reachable : IndexReachable Sample.pageCrates "data/archive" first :=
    .next (.initial rfl) (.ingest _ _ indexed)
  have answered := reachable_between Sample.firstPage
    (SparesPage Sample.pageCrates "data/archive" Sample.firstPage) reachable
    (by decide) details (.ingest _ _ grown) (by rintro _ _ ⟨⟩)
    (by rintro _ ⟨⟩ _; exact .sameProgram _ _ grown details no_eit) (by rintro _ _ ⟨⟩)
  exact ⟨_, _, rfl, texts, caption_page_is_of_one_state answered⟩

/-- A takeover between the two statements joins the program of one file with the captions of the
other. -/
theorem takeover_tears_caption_page : ¬ ∀ (crates : Crates) (archiveRoot : String)
    (query : CaptionQuery) (state : CaptionReader),
    Transition.Reachable (Start crates archiveRoot) (Step crates archiveRoot query) state →
      state.OfOneState query := by
  intro claim
  have evaluates : Sample.takeover.toOption.map Sample.pageViews =
      some [some (none, ["hello"]), some (none, ["bye"]), some (some "12:00", ["bye"])] := by
    decide +kernel
  obtain ⟨⟨first, second⟩, ran, views⟩ := exists_ok_of_toOption_map evaluates
  obtain ⟨middle, indexed, ran⟩ := exists_ok_of_bind ran
  obtain ⟨last, taken, ran⟩ := exists_ok_of_bind ran
  cases ran
  simp only [Sample.pageViews, List.cons.injEq] at views
  obtain ⟨before, torn, after, _⟩ := views
  obtain ⟨program, details, early, hello⟩ := Sample.exists_of_pageView before
  obtain ⟨again, same, _, bye⟩ := Sample.exists_of_pageView torn
  obtain ⟨other, replaced, late, _⟩ := Sample.exists_of_pageView after
  obtain rfl : program = again := Option.some.inj (details.symm.trans same)
  have reachable : IndexReachable Sample.pageCrates "data/archive" first :=
    .next (.initial rfl) (.ingest _ _ indexed)
  have answered := reachable_between Sample.firstPage (fun _ _ => True) reachable (by decide)
    details (.ingest _ _ taken) (fun _ => trivial) trivial trivial
  have one := claim _ _ _ _ answered.unrestricted
  rcases (ofOneState_commit_iff (by decide) details).mp one program rfl with kept | kept
  · rw [replaced, Option.some.injEq] at kept
    rw [kept, early] at late
    cases late
  · rw [kept, hello] at bye
    exact absurd bye (by decide)

end CaptionReader

end AribcapDb
