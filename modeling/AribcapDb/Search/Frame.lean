import AribcapDb.Search.Scan

/-! # What ingesting a file leaves alone

Ingesting a file changes the rows of its collision group only (`Ingested.untouched`), so the
files of other groups go on being shown. -/

namespace AribcapDb

/-- The rows of files in other groups than the given file's are the same. -/
structure Untouched (crates : Crates) (archiveRoot : String) (file : FileIdentity)
    (before after : SearchDb) : Prop where
  programs : ∀ program, program.group ≠ file.group →
    (program ∈ after.programs ↔ program ∈ before.programs)
  genres : ∀ program ∈ before.programs, program.group ≠ file.group → ∀ genre,
    (⟨program.id, genre⟩ ∈ after.programGenres ↔ ⟨program.id, genre⟩ ∈ before.programGenres)
  captions : ∀ program ∈ before.programs, program.group ≠ file.group →
    after.captionsOf program.id = before.captionsOf program.id
  indexed : ∀ path other, identify crates archiveRoot path = some other →
    other.group ≠ file.group → after.indexedFile path = before.indexedFile path

variable {crates : Crates} {archiveRoot : String} {file other : FileIdentity}
  {db before middle after : SearchDb}

namespace Untouched

theorem refl (db : SearchDb) : Untouched crates archiveRoot file db db where
  programs _ _ := Iff.rfl
  genres _ _ _ _ := Iff.rfl
  captions _ _ _ := rfl
  indexed _ _ _ _ := rfl

theorem trans (first : Untouched crates archiveRoot file before middle)
    (second : Untouched crates archiveRoot file middle after) :
    Untouched crates archiveRoot file before after where
  programs program different :=
    (second.programs program different).trans (first.programs program different)
  genres program member different genre :=
    (second.genres program ((first.programs program different).mpr member) different genre).trans
      (first.genres program member different genre)
  captions program member different :=
    (second.captions program ((first.programs program different).mpr member) different).trans
      (first.captions program member different)
  indexed path other identified different :=
    (second.indexed path other identified different).trans
      (first.indexed path other identified different)

/-- Writing the row of the file itself. -/
theorem upsertFiles (identified : identify crates archiveRoot file.path = some file)
    {change : IndexedFileRow → IndexedFileRow} {row : IndexedFileRow}
    (same : ∀ old, old.path = row.path → (change old).path = old.path)
    (own : row.path = file.path) :
    Untouched crates archiveRoot file db (db.upsertIndexedFiles change row) where
  programs _ _ := Iff.rfl
  genres _ _ _ _ := Iff.rfl
  captions _ _ _ := rfl
  indexed path other known different := by
    rw [SearchDb.indexedFile_upsertIndexedFiles _ _ _ same, if_neg]
    rintro rfl
    rw [own, identified] at known
    exact different (by rw [Option.some.inj known])

end Untouched

/-- `upsert_program` takes the captions of the rival of its file only. -/
theorem captionsOf_upsertProgram {unicode : Unicode} {eit : EitPresent} {id : ℕ}
    (kept : ∀ rival ∈ db.rival file, id ≠ rival.id) :
    (db.upsertProgram unicode file eit).2.captionsOf id = db.captionsOf id := by
  unfold SearchDb.captionsOf
  rw [captionLines_upsertProgram, SearchDb.withoutRival]
  cases found : db.rival file with
  | none => rfl
  | some rival =>
      have different := kept rival found
      simp only [SearchDb.demoteToDuplicate, SearchDb.updateIndexedFiles,
        SearchDb.deleteCaptions, List.filter_filter]
      apply List.filter_congr
      intro row _
      by_cases own : row.programId = id
      · simp [own, different]
      · simp [own]

namespace Scanning

variable {state : ScanState}

/-- One line touches the group of its file only. -/
theorem untouched_step (scanning : Scanning crates archiveRoot file state)
    (line : List UInt8) :
    Untouched crates archiveRoot file state.db (ingestLine crates file state line).db := by
  rw [ingestLine_eq]
  cases lineRecord crates.serde line with
  | skipped => exact .refl _
  | eit eit =>
      have upserted :=
        (upsertProgram_spec scanning.tables scanning.linked.identified scanning.own eit).2
      have rival_id : ∀ program ∈ state.db.programs, program.group ≠ file.group →
          ∀ rival ∈ state.db.rival file, program.id ≠ rival.id := by
        intro program member different rival found same
        obtain ⟨present, group, _⟩ := (mem_rival scanning.tables).mp found
        exact different (scanning.tables.programIds.eq_of_key member present same ▸ group)
      refine ⟨fun program different => ?_, fun program member different genre => ?_,
        fun program member different =>
          captionsOf_upsertProgram (rival_id program member different),
        fun path other known different => ?_⟩
      · rw [upserted.program]
        refine ⟨?_, fun member => .inr ⟨member, different⟩⟩
        rintro (rfl | ⟨member, _⟩)
        · exact absurd rfl different
        · exact member
      · have id : program.id ≠ (state.db.upsertProgram crates.unicode file eit).1 :=
          fun same => different ((upserted.id_iff program member).mp same)
        rw [upserted.genre]
        simp [id]
      · simp only
        rw [upserted.indexed, if_neg]
        rintro ⟨rival, found, path⟩
        obtain ⟨present, group, _⟩ := (mem_rival scanning.tables).mp found
        have identified := scanning.linked.identified rival present
        rw [path, known] at identified
        exact different ((congrArg FileIdentity.group (Option.some.inj identified)).trans group)
  | caption caption =>
      cases known : state.programId with
      | none => exact .refl _
      | some id =>
          simp only
          rw [insertCaptionLine_of_fresh crates.unicode (scanning.fresh_key known)]
          refine ⟨fun _ _ => Iff.rfl, fun _ _ _ _ => Iff.rfl, fun program member different => ?_,
            fun _ _ _ _ => rfl⟩
          obtain ⟨owner, present, same, path⟩ := scanning.exists_program known
          have identified := scanning.linked.identified owner present
          rw [path, scanning.own] at identified
          have group : owner.group = file.group := by rw [Option.some.inj identified]
          have foreign : id ≠ program.id := fun equal => different
            (scanning.tables.programIds.eq_of_key present member (same.trans equal) ▸ group)
          simp [SearchDb.captionsOf, SearchDb.insertCaption, foreign]

theorem untouched_run (scanning : Scanning crates archiveRoot file state)
    (lines : List (List UInt8)) :
    Untouched crates archiveRoot file state.db
      (lines.foldl (ingestLine crates file) state).db := by
  apply scanning.preserved (motive := fun scanned =>
    Untouched crates archiveRoot file state.db scanned.db)
  · exact .refl _
  · intro scanned scanning untouched line
    exact untouched.trans (scanning.untouched_step line)

end Scanning

/-- Every committed transaction touches the group of its file only. -/
theorem Ingested.untouched {path : String} {access : FileAccess}
    (ingested : Ingested crates archiveRoot db path access after)
    (wellFormed : WellFormed crates archiveRoot db)
    (identified : identify crates archiveRoot path = some file) :
    Untouched crates archiveRoot file db after := by
  have path_eq := path_of_identify identified
  subst path_eq
  cases ingested with
  | unidentified _ => exact .refl _
  | sticky row _ _ => exact .refl _
  | current row metadata _ _ _ _ => exact .refl _
  | lost _ winner row _ _ _ _ own _ _ =>
      exact .upsertFiles identified (fun _ equal => equal.symm) own
  | shrunk row metadata lastError _ _ _ _ =>
      exact .upsertFiles identified (fun _ _ => rfl) rfl
  | scanned own metadata content programId startOffset lineNo known _ _ _ starts =>
      obtain rfl : own = file := Option.some.inj (known.symm.trans identified)
      exact ((wellFormed.scanning identified starts).untouched_run _).trans
        (.upsertFiles identified (fun _ _ => rfl) rfl)

namespace Scanning

variable {state : ScanState} {program : ProgramRow}

/-- A line adds no program but that of its file. -/
theorem program_step (scanning : Scanning crates archiveRoot file state) (line : List UInt8)
    (member : program ∈ (ingestLine crates file state line).db.programs) :
    program ∈ state.db.programs ∨ program.path = file.path := by
  rw [ingestLine_eq] at member
  cases record : lineRecord crates.serde line with
  | skipped => exact .inl (by simpa only [record] using member)
  | eit eit =>
      simp only [record] at member
      have upserted :=
        (upsertProgram_spec scanning.tables scanning.linked.identified scanning.own eit).2
      rcases (upserted.program program).mp member with rfl | ⟨old, _⟩
      · exact .inr rfl
      · exact .inl old
  | caption caption =>
      cases known : state.programId with
      | none => exact .inl (by simpa only [record, known] using member)
      | some id =>
          simp only [record, known] at member
          rw [insertCaptionLine_of_fresh crates.unicode (scanning.fresh_key known)] at member
          exact .inl member

theorem program_run (scanning : Scanning crates archiveRoot file state)
    (lines : List (List UInt8))
    (member : program ∈ (lines.foldl (ingestLine crates file) state).db.programs) :
    program ∈ state.db.programs ∨ program.path = file.path := by
  revert member
  apply scanning.preserved (motive := fun scanned => program ∈ scanned.db.programs →
    program ∈ state.db.programs ∨ program.path = file.path)
  · exact .inl
  · intro scanned scanning earlier line member
    rcases scanning.program_step line member with there | own
    · exact earlier there
    · exact .inr own

end Scanning

/-- A program that a transaction leaves behind was there before or is the file's own. -/
theorem Ingested.program {path : String} {access : FileAccess}
    (ingested : Ingested crates archiveRoot db path access after)
    (wellFormed : WellFormed crates archiveRoot db) {program : ProgramRow}
    (member : program ∈ after.programs) : program ∈ db.programs ∨ program.path = path := by
  cases ingested with
  | unidentified _ => exact .inl member
  | sticky row _ _ => exact .inl member
  | current row metadata _ _ _ _ => exact .inl member
  | lost _ winner row _ _ _ _ _ _ _ => exact .inl member
  | shrunk row metadata lastError _ _ _ _ => exact .inl member
  | scanned file metadata content programId startOffset lineNo identified own _ _ starts =>
      subst own
      exact (wellFormed.scanning identified starts).program_run _ member

/-- Files of other groups go on being shown. -/
theorem Shows.frame {index : FileIndex} (shown : Shows crates.unicode before other index)
    (untouched : Untouched crates archiveRoot file before after)
    (identified : identify crates archiveRoot other.path = some other)
    (different : other.group ≠ file.group) : Shows crates.unicode after other index := by
  obtain ⟨row, found, ok, offset, lines, program⟩ := shown.row
  refine ⟨row, by rw [untouched.indexed _ other identified different, found], ok, offset, lines,
    ?_⟩
  cases read : index.program with
  | none =>
      rw [read] at program
      refine ⟨program.1, fun row member group => ?_⟩
      have old := (untouched.programs row (group.trans_ne different)).mp member
      exact program.2 row old group
  | some content =>
      rw [read] at program
      obtain ⟨id, known, has⟩ := program
      exact ⟨id, known, (untouched.programs _ different).mpr has.program,
        fun genre => (untouched.genres _ has.program different genre).trans (has.genres genre),
        (congrArg _ (untouched.captions _ has.program different)).trans has.captions⟩

theorem Unindexed.frame (unindexed : Unindexed before other)
    (untouched : Untouched crates archiveRoot file before after)
    (identified : identify crates archiveRoot other.path = some other)
    (different : other.group ≠ file.group) : Unindexed after other where
  row := by rw [untouched.indexed _ other identified different, unindexed.row]
  group program member group :=
    unindexed.group program
      ((untouched.programs program (group.trans_ne different)).mp member) group

end AribcapDb
