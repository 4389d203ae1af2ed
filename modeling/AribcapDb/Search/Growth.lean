import AribcapDb.Search.Frame

/-! # Captions of a file that is still read

Reading on in the file of a program leaves the captions of the program and adds captions with larger
line numbers (`captionsGrow_ingestFile`). Line numbers begin at one
(`IndexReachable.numbersFromOne`). -/

namespace AribcapDb

/-- A program keeps its id and its captions, and other captions of it have larger numbers. -/
structure CaptionsGrow (programId : ℕ) (before after : SearchDb) : Prop where
  program : ∀ program ∈ before.programs, program.id = programId →
    ∃ later ∈ after.programs, later.id = programId ∧ later.group = program.group
  kept : before.captionsOf programId ⊆ after.captionsOf programId
  larger : ∀ row ∈ after.captionsOf programId, row ∈ before.captionsOf programId ∨
    ∀ old ∈ before.captionsOf programId, old.lineNo < row.lineNo

/-- The captions are numbered from one. -/
def SearchDb.NumbersFromOne (db : SearchDb) : Prop := ∀ row ∈ db.captionLines, 1 ≤ row.lineNo

namespace CaptionsGrow

variable {programId : ℕ} {before middle after : SearchDb}

/-- The programs and the captions are the same. -/
theorem of_eq (programs : after.programs = before.programs)
    (captions : after.captionLines = before.captionLines) :
    CaptionsGrow programId before after where
  program program member own := ⟨program, programs ▸ member, own, rfl⟩
  kept := by
    unfold SearchDb.captionsOf
    rw [captions]
    exact List.Subset.refl _
  larger row member := by
    unfold SearchDb.captionsOf at member ⊢
    rw [captions] at member
    exact .inl member

theorem trans (first : CaptionsGrow programId before middle)
    (second : CaptionsGrow programId middle after) : CaptionsGrow programId before after where
  program program member own := by
    obtain ⟨next, present, same, group⟩ := first.program program member own
    obtain ⟨later, there, equal, groups⟩ := second.program next present same
    exact ⟨later, there, equal, groups.trans group⟩
  kept := List.Subset.trans first.kept second.kept
  larger row member := by
    rcases second.larger row member with earlier | larger
    · exact first.larger row earlier
    · exact .inr fun old present => larger old (first.kept present)

end CaptionsGrow

variable {crates : Crates} {archiveRoot : String} {file : FileIdentity}

namespace Scanning

variable {state : ScanState} {id : ℕ}

/-- A line of the file adds at most a caption with the number of the line. -/
theorem captionsGrow_step (scanning : Scanning crates archiveRoot file state)
    (known : state.programId = some id) (line : List UInt8) :
    (ingestLine crates file state line).programId = some id ∧
      CaptionsGrow id state.db (ingestLine crates file state line).db := by
  obtain ⟨own, member, same, path⟩ := scanning.exists_program known
  have identified := scanning.linked.identified own member
  rw [path, scanning.own] at identified
  have group : own.group = file.group :=
    congrArg FileIdentity.group (Option.some.inj identified).symm
  rw [ingestLine_eq]
  cases lineRecord crates.serde line with
  | skipped => exact ⟨known, .of_eq rfl rfl⟩
  | eit eit =>
      have upserted :=
        (upsertProgram_spec scanning.tables scanning.linked.identified scanning.own eit).2
      have kept : ∀ rival ∈ state.db.rival file, id ≠ rival.id := by
        intro rival found equal
        obtain ⟨present, rivalGroup, other⟩ := (mem_rival scanning.tables).mp found
        have one := scanning.tables.programIds.eq_of_key present member
          (equal.symm.trans same.symm)
        exact other (one ▸ path)
      have captions : (state.db.upsertProgram crates.unicode file eit).2.captionsOf id =
          state.db.captionsOf id := captionsOf_upsertProgram kept
      have result : (state.db.upsertProgram crates.unicode file eit).1 = id :=
        ((upserted.id_iff own member).mpr group).symm.trans same
      refine ⟨congrArg some result, fun program present equal => ?_, ?_, fun row present => ?_⟩
      · obtain rfl := scanning.tables.programIds.eq_of_key present member (equal.trans same.symm)
        exact ⟨_, (upserted.program _).mpr (.inl rfl), result, group.symm⟩
      · exact captions ▸ List.Subset.refl _
      · exact .inl (captions ▸ present)
  | caption caption =>
      simp only [known]
      refine ⟨trivial, ?_⟩
      rw [insertCaptionLine_of_fresh crates.unicode (scanning.fresh_key known)]
      refine ⟨fun program present equal => ⟨program, present, equal, rfl⟩, ?_, ?_⟩
      · intro row present
        simp only [SearchDb.captionsOf, SearchDb.insertCaption, List.filter_append]
        exact List.mem_append_left _ present
      · intro row present
        simp only [SearchDb.captionsOf, SearchDb.insertCaption, List.filter_append] at present
        rcases List.mem_append.mp present with earlier | new
        · exact .inl earlier
        · right
          intro old there
          obtain ⟨stored, owns⟩ := List.mem_filter.mp there
          have bounds := (scanning.caption_bounds known stored (of_decide_eq_true owns)).1
          obtain rfl := List.mem_singleton.mp (List.mem_filter.mp new).1
          exact Nat.lt_succ_of_le bounds

theorem captionsGrow_run (scanning : Scanning crates archiveRoot file state)
    (known : state.programId = some id) (lines : List (List UInt8)) :
    CaptionsGrow id state.db (lines.foldl (ingestLine crates file) state).db := by
  have grown := scanning.preserved (motive := fun scanned => scanned.programId = some id ∧
    CaptionsGrow id state.db scanned.db) ⟨known, .of_eq rfl rfl⟩ ?_ lines
  · exact grown.2
  · intro scanned scanning before line
    obtain ⟨still, grows⟩ := scanning.captionsGrow_step before.1 line
    exact ⟨still, before.2.trans grows⟩

/-- A line of a file has a positive number. -/
theorem numbersFromOne_step (scanning : Scanning crates archiveRoot file state)
    (positive : state.db.NumbersFromOne) (line : List UInt8) :
    (ingestLine crates file state line).db.NumbersFromOne := by
  rw [ingestLine_eq]
  cases lineRecord crates.serde line with
  | skipped => exact positive
  | eit eit =>
      intro row member
      rw [captionLines_upsertProgram] at member
      exact positive row (mem_captionLines_withoutRival.mp member).1
  | caption caption =>
      cases known : state.programId with
      | none => exact positive
      | some id =>
          simp only
          rw [insertCaptionLine_of_fresh crates.unicode (scanning.fresh_key known)]
          intro row member
          rcases List.mem_append.mp member with earlier | new
          · exact positive row earlier
          · rw [List.mem_singleton.mp new]
            exact Nat.succ_pos _

theorem numbersFromOne_run (scanning : Scanning crates archiveRoot file state)
    (positive : state.db.NumbersFromOne) (lines : List (List UInt8)) :
    (lines.foldl (ingestLine crates file) state).db.NumbersFromOne :=
  scanning.preserved (motive := fun scanned => scanned.db.NumbersFromOne) positive
    (fun scanning positive line => scanning.numbersFromOne_step positive line) lines

end Scanning

/-- Indexing the file of a program reads on behind its captions. -/
theorem captionsGrow_ingestFile {db after : SearchDb}
    (wellFormed : WellFormed crates archiveRoot db) {program : ProgramRow}
    (member : program ∈ db.programs) {access : FileAccess}
    (ran : ingestFile crates archiveRoot db program.path access = .ok after) :
    CaptionsGrow program.id db after := by
  obtain ⟨row, found, owner⟩ := wellFormed.linked.owner program member
  cases ingestFile_cases ran with
  | unidentified _ => exact .of_eq rfl rfl
  | sticky _ _ _ => exact .of_eq rfl rfl
  | current _ _ _ _ _ _ => exact .of_eq rfl rfl
  | lost _ _ _ _ absent _ _ _ _ _ =>
      rw [found] at absent
      cases absent
  | shrunk _ _ _ _ _ _ _ => exact .of_eq rfl rfl
  | scanned own metadata content programId startOffset lineNo identified path _ _ starts =>
      rw [← path] at identified found
      have scanning := wellFormed.scanning identified starts
      cases starts with
      | resume other present _ _ =>
          obtain rfl : row = other := Option.some.inj (found.symm.trans present)
          exact (scanning.captionsGrow_run owner _).trans (.of_eq rfl rfl)
      | fresh absent _ =>
          rw [found] at absent
          cases absent

/-- The captions of every reachable database have positive line numbers. -/
theorem IndexReachable.numbersFromOne {db : SearchDb}
    (reachable : IndexReachable crates archiveRoot db) :
    db.NumbersFromOne := by
  refine Transition.Reachable.invariant ?_ ?_ reachable
  · rintro _ rfl row member
    cases member
  · intro before after earlier positive stepped
    have wellFormed := IndexReachable.wellFormed earlier
    cases stepped with
    | ingest path access ran =>
        cases ingestFile_cases ran with
        | unidentified _ => exact positive
        | sticky _ _ _ => exact positive
        | current _ _ _ _ _ _ => exact positive
        | lost _ _ _ _ _ _ _ _ _ _ => exact positive
        | shrunk _ _ _ _ _ _ _ => exact positive
        | scanned own metadata content programId startOffset lineNo identified path _ _ starts =>
            rw [← path] at identified
            exact (wellFormed.scanning identified starts).numbersFromOne_run positive _
    | cleanup tryExists =>
        have deleted (paths : List String) {db : SearchDb}
            (formed : WellFormed crates archiveRoot db)
            (positive : db.NumbersFromOne) :
            (paths.foldl SearchDb.deleteIndexedPath db).NumbersFromOne := by
          induction paths generalizing db with
          | nil => exact positive
          | cons path paths ih =>
              apply ih (formed.deleteIndexedPath path)
              intro row member
              exact positive row (((formed.pathDeleted path).caption row).mp member).1
        exact deleted _ wellFormed positive

end AribcapDb
