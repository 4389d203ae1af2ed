import AribcapDb.Foundation.Transition
import AribcapDb.Search.Progress

/-! # Who owns the program of a collision group

Archive files grow while passes visit them. The greatest path whose present EIT has been read
owns the program of its group as long as no file that is already indexed gains its first present
EIT below the owner (`greatest_path_owns_program`); such a file takes the program from the
greater one (`smaller_path_takes_program`). -/

namespace AribcapDb

/-- A complete line of a file is this caption. -/
def IsCaptionLine (serde : SerdeJson) (content : List UInt8) (caption : IndexedCaption) : Prop :=
  ∃ line ∈ Framing.lines newline content,
    lineRecord serde line.frame = .caption caption.caption ∧ line.number = caption.lineNo ∧
      line.offset = caption.byteOffset

theorem IsCaptionLine.append {serde : SerdeJson} {content : List UInt8}
    {caption : IndexedCaption} (here : IsCaptionLine serde content caption)
    (more : List UInt8) : IsCaptionLine serde (content ++ more) caption := by
  obtain ⟨line, member, found⟩ := here
  refine ⟨line, ?_, found⟩
  rw [Framing.lines_append]
  exact List.mem_append_left _ member

/-- The captions of every program are captions of the file that owns it. -/
def CaptionsOwned (owns : String → IndexedCaption → Prop) (db : SearchDb) : Prop :=
  ∀ row ∈ db.captionLines, ∀ program ∈ db.programs, program.id = row.programId →
    owns program.path row.indexed

variable {crates : Crates} {archiveRoot : String} {owns : String → IndexedCaption → Prop}

namespace Scanning

variable {file : FileIdentity} {state : ScanState}

/-- A line gives a caption to the program of its own file only, and a program that changes hands
loses its captions. -/
theorem captions_step (scanning : Scanning crates archiveRoot file state)
    (owned : CaptionsOwned owns state.db) (line : List UInt8)
    (here : ∀ caption, lineRecord crates.serde line = .caption caption →
      owns file.path ⟨state.lineNo + 1, state.pos, caption⟩) :
    CaptionsOwned owns (ingestLine crates file state line).db := by
  rw [ingestLine_eq]
  cases record : lineRecord crates.serde line with
  | skipped => exact owned
  | eit eit =>
      have upserted :=
        (upsertProgram_spec scanning.tables scanning.linked.identified scanning.own eit).2
      intro row member program present same
      obtain ⟨old, kept⟩ := (upserted.caption row).mp member
      rcases (upserted.program program).mp present with rfl | ⟨earlier, different⟩
      · obtain ⟨owner, there, equal, _⟩ := scanning.linked.captionOwner row old
        have group := (upserted.id_iff owner there).mp (equal.trans same.symm)
        have path : owner.path = file.path := by
          by_contra foreign
          exact kept owner ((mem_rival scanning.tables).mpr ⟨there, group, foreign⟩) equal.symm
        have caption := owned row old owner there equal
        rwa [path] at caption
      · exact owned row old program earlier same
  | caption caption =>
      cases known : state.programId with
      | none => simpa only [known] using owned
      | some id =>
          simp only
          rw [insertCaptionLine_of_fresh crates.unicode (scanning.fresh_key known)]
          intro row member program present same
          rcases List.mem_append.mp member with old | new
          · exact owned row old program present same
          · obtain ⟨owner, there, equal, path⟩ := scanning.exists_program known
            rw [List.mem_singleton.mp new] at same ⊢
            have one : program = owner :=
              scanning.tables.programIds.eq_of_key present there (same.trans equal.symm)
            rw [one, path]
            exact here caption record

/-- A scan of the lines behind a prefix gives the program of its file captions of the file. -/
theorem captions_run (scanning : Scanning crates archiveRoot file state)
    (owned : CaptionsOwned owns state.db) {content : List UInt8}
    (here : ∀ caption, IsCaptionLine crates.serde content caption → owns file.path caption)
    {before lines : List (List UInt8)} (split : Framing.frames newline content = before ++ lines)
    (pos : state.pos = (Framing.unframe newline before).length)
    (lineNo : state.lineNo = before.length) :
    CaptionsOwned owns (lines.foldl (ingestLine crates file) state).db := by
  induction lines generalizing state before with
  | nil => exact owned
  | cons line more ih =>
      obtain ⟨nextPos, nextLine, _⟩ := foldl_ingestLine crates file state [line]
      simp only [List.foldl_cons, List.foldl_nil] at nextPos nextLine
      have next : before ++ line :: more = (before ++ [line]) ++ more := by simp
      rw [List.foldl_cons]
      refine ih (scanning.step line) ?_ (split.trans next) ?_ ?_
      · refine scanning.captions_step owned line fun caption record => here _ ?_
        refine ⟨⟨before.length + 1, (Framing.unframe newline before).length, line⟩, ?_, record,
          by rw [lineNo], pos.symm⟩
        rw [Framing.lines, split, Framing.numbered_append newline]
        apply List.mem_append_right _
        rw [Nat.zero_add, Nat.zero_add]
        exact List.mem_cons_self
      · rw [Framing.unframe_append, List.length_append, ← pos]
        exact nextPos
      · rw [List.length_append, ← lineNo]
        exact nextLine

end Scanning

/-- A transaction gives the program of its file captions of the file. -/
theorem Ingested.captions {db after : SearchDb} {file : FileIdentity} {access : FileAccess}
    {content : List UInt8}
    (ingested : Ingested crates archiveRoot db file.path access after)
    (wellFormed : WellFormed crates archiveRoot db)
    (identified : identify crates archiveRoot file.path = some file)
    (read : access.content = some content)
    (earlier : ∀ row, db.indexedFile file.path = some row → row.status = .ok →
      ReadUpTo crates.serde row content)
    (here : ∀ caption, IsCaptionLine crates.serde content caption → owns file.path caption)
    (owned : CaptionsOwned owns db) : CaptionsOwned owns after := by
  cases ingested with
  | unidentified _ => exact owned
  | sticky _ _ _ => exact owned
  | current _ _ _ _ _ _ => exact owned
  | lost _ _ _ _ _ _ _ _ _ _ => exact owned
  | shrunk _ _ _ _ _ _ _ => exact owned
  | scanned own metadata content' programId startOffset lineNo known _ _ read' starts =>
      obtain rfl : own = file := Option.some.inj (known.symm.trans identified)
      obtain rfl : content = content' := Option.some.inj (read.symm.trans read')
      have summarized : ∃ seen, seen <+: content ∧ startOffset = Framing.framedLength newline seen ∧
          lineNo = (Framing.frames newline seen).length := by
        cases starts with
        | resume row found ok _ =>
            obtain ⟨seen, before, summary⟩ := earlier row found ok
            exact ⟨seen, before, summary.offset, summary.lines⟩
        | fresh _ _ => exact ⟨[], List.nil_prefix, rfl, rfl⟩
      obtain ⟨seen, ⟨more, rfl⟩, rfl, rfl⟩ := summarized
      have split := Framing.frames_append newline seen more
      rw [← Framing.drop_framedLength_append] at split
      exact (wellFormed.scanning identified starts).captions_run owned here split rfl rfl

/-- Archive files, the index of them, and the visit in progress. -/
structure IndexedArchive where
  files : FileSystem
  db : SearchDb
  /-- The path being visited and what `stat` found there. -/
  visiting : Option (String × ArchiveFileMetadata)
  /-- The paths of which a visit has read a present EIT. -/
  readPaths : List String

namespace IndexedArchive

/-- Files are created and grow while passes visit them in any order. A visit that fails changes
nothing and is given up when the next one begins. -/
inductive Step (crates : Crates) (archiveRoot : String) (before : IndexedArchive) :
    IndexedArchive → Prop where
  | create (path : String) : before.files path = none →
      Step crates archiveRoot before { before with files := before.files.create path }
  | grow (path : String) (content more : List UInt8) :
      before.files path = some (.file content) →
      Step crates archiveRoot before { before with files := before.files.append path more }
  | stat (path : String) (content : List UInt8) (mtime : ℕ) :
      before.files path = some (.file content) →
      Step crates archiveRoot before
        { before with visiting := some (path, ⟨content.length, mtime⟩) }
  | commit (path : String) (metadata : ArchiveFileMetadata) (content : List UInt8)
      (db : SearchDb) : before.visiting = some (path, metadata) →
      before.files path = some (.file content) →
      ingestFile crates archiveRoot before.db path ⟨some metadata, some content⟩ = .ok db →
      Step crates archiveRoot before
        { before with
          db
          visiting := none
          readPaths :=
            if readsPresentEit crates archiveRoot before.db path ⟨some metadata, some content⟩
            then path :: before.readPaths else before.readPaths }

/-- Any files, and an index of none of them. -/
def Start (state : IndexedArchive) : Prop :=
  state.db = .migrated ∧ state.visiting = none ∧ state.readPaths = []

/-- A visit that ends does not read a present EIT of an already indexed file while a greater path
owns the program of its group. -/
def InOrder (crates : Crates) (archiveRoot : String) (before after : IndexedArchive) : Prop :=
  ∀ path metadata content file, before.visiting = some (path, metadata) → after.visiting = none →
    before.files path = some (.file content) → identify crates archiveRoot path = some file →
      (before.db.indexedFile path).isSome →
        readsPresentEit crates archiveRoot before.db path ⟨some metadata, some content⟩ = true →
          ∀ program ∈ before.db.programs, program.group = file.group → program.path ≤ path

/-- The paths of a group of which a visit has read a present EIT. -/
def readGroup (crates : Crates) (archiveRoot : String) (state : IndexedArchive)
    (group : String × String) : Set String :=
  {path | path ∈ state.readPaths ∧
    ∃ file, identify crates archiveRoot path = some file ∧ file.group = group}

/-- The program of every group belongs to the greatest path whose present EIT was read, and has
captions of that file only. -/
structure GreatestOwns (crates : Crates) (archiveRoot : String) (state : IndexedArchive) :
    Prop where
  indexed : ∀ path ∈ state.readPaths, ∀ file, identify crates archiveRoot path = some file →
    ∃ program ∈ state.db.programs, program.group = file.group
  greatest : ∀ program ∈ state.db.programs,
    IsGreatest (readGroup crates archiveRoot state program.group) program.path
  captions : ∀ row ∈ state.db.captionLines, ∃ program ∈ state.db.programs,
    program.id = row.programId ∧ ∃ content, state.files program.path = some (.file content) ∧
      IsCaptionLine crates.serde content row.indexed

/-- No program has gone to a smaller path. -/
def Retained (before after : IndexedArchive) : Prop :=
  ∀ program ∈ before.db.programs, ∃ owner ∈ after.db.programs,
    owner.group = program.group ∧ program.path ≤ owner.path

/-- A file of the archive holds this caption. -/
def HoldsCaption (crates : Crates) (files : FileSystem) (path : String)
    (caption : IndexedCaption) : Prop :=
  ∃ content, files path = some (.file content) ∧ IsCaptionLine crates.serde content caption

/-- The invariant of the visits. -/
structure Consistent (crates : Crates) (archiveRoot : String) (state : IndexedArchive) :
    Prop where
  formed : WellFormed crates archiveRoot state.db
  rows : ∀ path row, state.db.indexedFile path = some row → row.status = .duplicate ∨
    row.status = .ok ∧ ∃ content, state.files path = some (.file content) ∧
      ReadUpTo crates.serde row content
  visiting : ∀ path metadata, state.visiting = some (path, metadata) →
    ∀ row, state.db.indexedFile path = some row → row.status = .ok →
      row.indexedOffset ≤ metadata.sizeBytes
  captions : CaptionsOwned (HoldsCaption crates state.files) state.db
  owned : ∀ path ∈ state.readPaths, ∀ file, identify crates archiveRoot path = some file →
    ∃ program ∈ state.db.programs, program.group = file.group ∧ path ≤ program.path
  fromRead : ∀ program ∈ state.db.programs, program.path ∈ state.readPaths

namespace Consistent

variable {before after state : IndexedArchive}

theorem start (started : state.Start) : Consistent crates archiveRoot state := by
  obtain ⟨db, visiting, read⟩ := started
  refine ⟨db ▸ WellFormed.migrated crates archiveRoot, ?_, ?_, ?_, ?_, ?_⟩
  · simp [db, SearchDb.migrated, SearchDb.indexedFile]
  · simp [visiting]
  · simp [CaptionsOwned, db, SearchDb.migrated]
  · simp [read]
  · simp [db, SearchDb.migrated]

/-- Files that grow keep what was read of them. -/
theorem grown (consistent : Consistent crates archiveRoot before) {files : FileSystem}
    (growing : ∀ path content, before.files path = some (.file content) →
      ∃ more, files path = some (.file (content ++ more))) :
    Consistent crates archiveRoot { before with files } where
  formed := consistent.formed
  rows path row found := by
    apply (consistent.rows path row found).imp id
    rintro ⟨ok, content, present, read⟩
    obtain ⟨more, later⟩ := growing path content present
    exact ⟨ok, content ++ more, later, read.append more⟩
  visiting := consistent.visiting
  captions row member program present same := by
    obtain ⟨content, held, caption⟩ := consistent.captions row member program present same
    obtain ⟨more, later⟩ := growing _ content held
    exact ⟨content ++ more, later, caption.append more⟩
  owned := consistent.owned
  fromRead := consistent.fromRead

theorem stat (consistent : Consistent crates archiveRoot before) {path : String}
    {content : List UInt8} (present : before.files path = some (.file content)) (mtime : ℕ) :
    Consistent crates archiveRoot
      { before with visiting := some (path, ⟨content.length, mtime⟩) } where
  formed := consistent.formed
  rows := consistent.rows
  visiting other metadata visited row found ok := by
    cases visited
    rcases consistent.rows _ row found with duplicate | ⟨_, content', there, read⟩
    · rw [ok] at duplicate
      cases duplicate
    · rw [present] at there
      cases there
      exact read.offset_le
  captions := consistent.captions
  owned := consistent.owned
  fromRead := consistent.fromRead

/-- A visit that ends in order. -/
theorem commit (consistent : Consistent crates archiveRoot before) {path : String}
    {metadata : ArchiveFileMetadata} {content : List UInt8} {db : SearchDb}
    (visited : before.visiting = some (path, metadata))
    (present : before.files path = some (.file content))
    (ran : ingestFile crates archiveRoot before.db path ⟨some metadata, some content⟩ = .ok db)
    (ordered : ∀ file, identify crates archiveRoot path = some file →
      (before.db.indexedFile path).isSome →
        readsPresentEit crates archiveRoot before.db path ⟨some metadata, some content⟩ = true →
          ∀ program ∈ before.db.programs, program.group = file.group → program.path ≤ path) :
    Consistent crates archiveRoot
      { before with
        db
        visiting := none
        readPaths :=
          if readsPresentEit crates archiveRoot before.db path ⟨some metadata, some content⟩
          then path :: before.readPaths else before.readPaths } := by
  have ingested := ingestFile_cases ran
  have formed := consistent.formed.ingestFile ran
  cases identified : identify crates archiveRoot path with
  | none =>
      have same := ingestFile_of_unidentified identified ran
      have nothing : readsPresentEit crates archiveRoot before.db path
          ⟨some metadata, some content⟩ = false := by
        simp [readsPresentEit, linesRead, identified]
      rw [nothing, same]
      exact ⟨consistent.formed, consistent.rows, by simp, consistent.captions, consistent.owned,
        consistent.fromRead⟩
  | some file =>
      obtain rfl := path_of_identify identified
      have earlier : ∀ row, before.db.indexedFile file.path = some row → row.status = .ok →
          ReadUpTo crates.serde row content := by
        intro row found ok
        rcases consistent.rows _ row found with duplicate | ⟨_, content', there, read⟩
        · rw [ok] at duplicate
          cases duplicate
        · rw [present] at there
          cases there
          exact read
      obtain ⟨own, ownFound, progress⟩ :=
        ingested.progress consistent.formed identified rfl rfl earlier
      have captions := ingested.captions consistent.formed identified rfl earlier
        (fun caption here => ⟨content, present, here⟩) consistent.captions
      have ownRow : own.status = .duplicate ∨ own.status = .ok ∧ ∃ bytes,
          before.files file.path = some (.file bytes) ∧ ReadUpTo crates.serde own bytes := by
        cases progress with
        | sticky found status =>
            rcases consistent.rows _ own found with duplicate | ⟨ok, _⟩
            · exact .inl duplicate
            · exact absurd ok status
        | lost _ duplicate _ _ _ _ => exact .inl duplicate
        | shrunk old _ found ok smaller =>
            exact absurd (consistent.visiting _ _ visited old found ok) (not_le_of_gt smaller)
        | read seen ok _ inside summary => exact .inr ⟨ok, content, present, seen, inside, summary⟩
      have ownership := ingested.ownership consistent.formed identified
      generalize reads : readsPresentEit crates archiveRoot before.db file.path
        ⟨some metadata, some content⟩ = eit at ownership ⊢
      cases ownership with
      | kept programs others =>
          refine ⟨formed, fun path row found => ?_, by simp, captions, ?_, ?_⟩
          · by_cases same : path = file.path
            · rw [same] at found ⊢
              rw [ownFound, Option.some.injEq] at found
              exact found ▸ ownRow
            · exact consistent.rows path row (others path same ▸ found)
          · simpa only [programs, Bool.false_eq_true, ↓reduceIte] using consistent.owned
          · simpa only [programs, Bool.false_eq_true, ↓reduceIte] using consistent.fromRead
      | taken program _ member path _ _ others =>
          have group : program.group = file.group := by
            have known := formed.linked.identified program member
            rw [path, identified] at known
            rw [Option.some.inj known]
          -- No greater path owned the group before.
          have greatest : ∀ other ∈ before.db.programs, other.group = file.group →
              other.path ≤ file.path := by
            intro other there same
            cases indexed : before.db.indexedFile file.path with
            | some row => exact ordered file identified (by simp [indexed]) reads other there same
            | none =>
                by_contra beaten
                have found := (mem_groupProgram consistent.formed.tables).mpr ⟨there, same⟩
                have lines : linesRead crates archiveRoot before.db file.path
                    ⟨some metadata, some content⟩ = [] := by
                  simp only [linesRead, identified, indexed]
                  exact if_pos ⟨other, found, lt_of_not_ge beaten⟩
                simp [readsPresentEit, lines] at reads
          have untouched := ingested.untouched consistent.formed identified
          refine ⟨formed, fun path row found => ?_, by simp, captions, ?_, ?_⟩
          · by_cases same : path = file.path
            · rw [same] at found ⊢
              rw [ownFound, Option.some.injEq] at found
              exact found ▸ ownRow
            · rcases others path same with kept | ⟨_, demoted, _, duplicate, there⟩
              · exact consistent.rows path row (kept ▸ found)
              · rw [there, Option.some.injEq] at found
                exact .inl (found ▸ duplicate)
          · intro other inside known otherKnown
            rcases List.mem_cons.mp inside with rfl | old
            · obtain rfl : known = file := Option.some.inj (otherKnown.symm.trans identified)
              exact ⟨program, member, group, path.ge⟩
            · obtain ⟨owner, there, same, below⟩ := consistent.owned other old known otherKnown
              by_cases shared : known.group = file.group
              · refine ⟨program, member, group.trans shared.symm, ?_⟩
                rw [path]
                exact below.trans (greatest owner there (same.trans shared))
              · exact ⟨owner, (untouched.programs owner (same.trans_ne shared)).mpr there, same,
                  below⟩
          · intro other there
            rcases ingested.program consistent.formed there with old | own
            · exact List.mem_cons_of_mem _ (consistent.fromRead other old)
            · exact own ▸ List.mem_cons_self

theorem step (consistent : Consistent crates archiveRoot before)
    (stepped : Transition.Restricted (Step crates archiveRoot) (InOrder crates archiveRoot)
      before after) : Consistent crates archiveRoot after := by
  obtain ⟨step, ordered⟩ := stepped
  cases step with
  | create path absent =>
      refine consistent.grown fun other content present => ⟨[], ?_⟩
      have different : other ≠ path := by
        rintro rfl
        rw [absent] at present
        cases present
      rw [FileSystem.create_other _ different, present, List.append_nil]
  | grow path content more present =>
      apply consistent.grown
      intro other bytes there
      by_cases same : other = path
      · subst same
        rw [present] at there
        cases there
        exact ⟨more, by rw [FileSystem.append_file present, Function.update_self]⟩
      · exact ⟨[], by rw [FileSystem.append_other _ same, there, List.append_nil]⟩
  | stat path content mtime present => exact consistent.stat present mtime
  | commit path metadata content db visited present ran =>
      apply consistent.commit visited present ran
      intro file identified indexed reads
      exact ordered path metadata content file visited rfl present identified indexed reads

theorem run (reachable : Transition.Reachable Start
    (Transition.Restricted (Step crates archiveRoot) (InOrder crates archiveRoot)) state) :
    Consistent crates archiveRoot state :=
  reachable.invariant (fun _ => start) fun _ _ _ consistent => consistent.step

theorem greatestOwns (consistent : Consistent crates archiveRoot state) :
    GreatestOwns crates archiveRoot state := by
  refine ⟨fun path member file identified => ?_, fun program member => ⟨?_, ?_⟩,
    fun row member => ?_⟩
  · obtain ⟨program, there, group, _⟩ := consistent.owned path member file identified
    exact ⟨program, there, group⟩
  · exact ⟨consistent.fromRead program member, _,
      consistent.formed.linked.identified program member, rfl⟩
  · rintro path ⟨read, file, identified, group⟩
    obtain ⟨owner, there, same, below⟩ := consistent.owned path read file identified
    have one := consistent.formed.tables.programGroups.eq_of_key there member (same.trans group)
    exact one ▸ below
  · obtain ⟨program, there, same, _⟩ := consistent.formed.linked.captionOwner row member
    exact ⟨program, there, same, consistent.captions row member program there same⟩

/-- A path that was read stays read. -/
theorem readPaths_subset {before after : IndexedArchive}
    (stepped : Step crates archiveRoot before after) : before.readPaths ⊆ after.readPaths := by
  cases stepped with
  | create _ _ => exact List.Subset.refl _
  | grow _ _ _ _ => exact List.Subset.refl _
  | stat _ _ _ _ => exact List.Subset.refl _
  | commit path metadata content db _ _ _ =>
      simp only
      split
      · exact List.subset_cons_self _ _
      · exact List.Subset.refl _

theorem retained (consistent : Consistent crates archiveRoot before)
    (stepped : Transition.Restricted (Step crates archiveRoot) (InOrder crates archiveRoot)
      before after) : Retained before after := by
  intro program member
  have read := readPaths_subset stepped.1 (consistent.fromRead program member)
  obtain ⟨owner, there, group, below⟩ := (consistent.step stepped).owned _ read _
    (consistent.formed.linked.identified program member)
  exact ⟨owner, there, group, below⟩

end Consistent

end IndexedArchive

/-- In a run whose visits end in order, the greatest path whose present EIT was read owns the
program of its group, and no step gives the program to a smaller path. -/
theorem greatest_path_owns_program {state : IndexedArchive}
    (reachable : Transition.Reachable IndexedArchive.Start
      (Transition.Restricted (IndexedArchive.Step crates archiveRoot)
        (IndexedArchive.InOrder crates archiveRoot)) state) :
    state.GreatestOwns crates archiveRoot ∧
      ∀ after, Transition.Restricted (IndexedArchive.Step crates archiveRoot)
        (IndexedArchive.InOrder crates archiveRoot) state after → state.Retained after :=
  have consistent := IndexedArchive.Consistent.run reachable
  ⟨consistent.greatestOwns, fun _ => consistent.retained⟩

namespace Sample

/-- Two complete files of one group. -/
def completeFiles : FileSystem := fun path =>
  if path = smallPath ∨ path = greatPath then some (.file newsFile) else none

/-- The smaller file, then the greater one. -/
def completeVisits : Except String (SearchDb × SearchDb) := do
  let first ← ingestFile Sample.crates "data/archive" .migrated smallPath (access newsFile)
  let second ← ingestFile Sample.crates "data/archive" first greatPath (access newsFile)
  pure (first, second)

/-- Which of the visits read a present EIT, and the owner after each. -/
def takeoverView (visits : SearchDb × SearchDb) : List Bool × List String × List String :=
  ([readsPresentEit Sample.crates "data/archive" .migrated smallPath (access newsFile),
    readsPresentEit Sample.crates "data/archive" visits.1 greatPath (access newsFile)],
    visits.1.programs.map fun program => program.path,
    visits.2.programs.map fun program => program.path)

end Sample

/-- The smaller file is visited first, and loses the program to the greater one. -/
theorem greatest_path_owns_program_sample : ∃ first second : SearchDb,
    first.programs.map (fun program => program.path) = [Sample.smallPath] ∧
      second.programs.map (fun program => program.path) = [Sample.greatPath] ∧
        (⟨Sample.completeFiles, second, none, [Sample.greatPath, Sample.smallPath]⟩ :
          IndexedArchive).GreatestOwns Sample.crates "data/archive" := by
  have evaluates : Sample.completeVisits.toOption.map (fun visits =>
      (Sample.takeoverView visits, (visits.1.indexedFile Sample.greatPath).isSome)) =
        some (([true, true], [Sample.smallPath], [Sample.greatPath]), false) := by
    decide +kernel
  obtain ⟨⟨first, second⟩, visits, view⟩ := exists_ok_of_toOption_map evaluates
  simp only [Sample.takeoverView, Prod.mk.injEq, List.cons.injEq, and_true] at view
  obtain ⟨⟨⟨readSmall, readGreat⟩, owner, successor⟩, unindexed⟩ := view
  obtain ⟨db, visitSmall, visits⟩ := exists_ok_of_bind visits
  obtain ⟨db', visitGreat, visits⟩ := exists_ok_of_bind visits
  cases visits
  have small : Sample.completeFiles Sample.smallPath = some (.file Sample.newsFile) :=
    if_pos (.inl rfl)
  have great : Sample.completeFiles Sample.greatPath = some (.file Sample.newsFile) :=
    if_pos (.inr rfl)
  have start : Transition.Reachable IndexedArchive.Start
      (Transition.Restricted (IndexedArchive.Step Sample.crates "data/archive")
        (IndexedArchive.InOrder Sample.crates "data/archive"))
      ⟨Sample.completeFiles, .migrated, none, []⟩ := .initial ⟨rfl, rfl, rfl⟩
  have statSmall := start.next ⟨.stat Sample.smallPath Sample.newsFile 0 small, by
    intro path metadata content file visited
    cases visited⟩
  have indexedSmall := statSmall.next ⟨.commit Sample.smallPath _ Sample.newsFile first rfl small
    visitSmall, by
      intro path metadata content file _ _ _ _ indexed
      cases indexed⟩
  have statGreat := indexedSmall.next ⟨.stat Sample.greatPath Sample.newsFile 0 great, by
    intro path metadata content file _ ended
    cases ended⟩
  have indexedGreat := statGreat.next ⟨.commit Sample.greatPath _ Sample.newsFile second rfl great
    visitGreat, by
      intro path metadata content file visited _ _ _ indexed
      cases visited
      exact absurd indexed (by simpa using unindexed)⟩
  refine ⟨first, second, owner, successor, ?_⟩
  have owns := (greatest_path_owns_program indexedGreat).1
  unfold Sample.access at readSmall readGreat
  simpa only [readSmall, readGreat, ↓reduceIte] using owns

namespace Sample

/-- The smaller file is still empty, the greater one is complete. -/
def collidingFiles : FileSystem := fun path =>
  if path = smallPath then some (.file [])
  else if path = greatPath then some (.file newsFile)
  else none

/-- One after the other: the smaller file, the greater file, and the smaller file with an EIT. -/
def collidingVisits : Except String (SearchDb × SearchDb × SearchDb) := do
  let first ← ingestFile Sample.crates "data/archive" .migrated smallPath (access [])
  let second ← ingestFile Sample.crates "data/archive" first greatPath (access newsFile)
  let third ← ingestFile Sample.crates "data/archive" second smallPath (access newsFile)
  pure (first, second, third)

/-- Which of the visits read a present EIT, and the owner at the end. -/
def collisionView (visits : SearchDb × SearchDb × SearchDb) : List Bool × List String :=
  ([readsPresentEit Sample.crates "data/archive" .migrated smallPath (access []),
    readsPresentEit Sample.crates "data/archive" visits.1 greatPath (access newsFile),
    readsPresentEit Sample.crates "data/archive" visits.2.1 smallPath (access newsFile)],
    visits.2.2.programs.map fun program => program.path)

end Sample

/-- A path that is visited while nothing else happens. -/
theorem IndexedArchive.visit {files : FileSystem} {db after : SearchDb}
    {readPaths : List String}
    (reachable : Transition.Reachable Start (Step crates archiveRoot)
      ⟨files, db, none, readPaths⟩)
    {path : String} {content : List UInt8} (present : files path = some (.file content))
    (ran : ingestFile crates archiveRoot db path (Sample.access content) = .ok after) :
    Transition.Reachable Start (Step crates archiveRoot)
      ⟨files, after, none,
        if readsPresentEit crates archiveRoot db path (Sample.access content)
        then path :: readPaths else readPaths⟩ :=
  (reachable.next (.stat path content 0 present)).next
    (.commit path _ content after rfl present ran)

/-- A smaller file that was indexed while empty takes the program when it gains its present
EIT. -/
theorem smaller_path_takes_program : ¬ ∀ state : IndexedArchive,
    Transition.Reachable IndexedArchive.Start
      (IndexedArchive.Step Sample.crates "data/archive") state →
        state.GreatestOwns Sample.crates "data/archive" := by
  intro claim
  have evaluates : Sample.collidingVisits.toOption.map Sample.collisionView =
      some ([false, true, true], [Sample.smallPath]) := by
    decide +kernel
  obtain ⟨⟨first, second, third⟩, visits, view⟩ := exists_ok_of_toOption_map evaluates
  simp only [Sample.collisionView, Prod.mk.injEq, List.cons.injEq, and_true] at view
  obtain ⟨⟨readFirst, readSecond, readThird⟩, owner⟩ := view
  obtain ⟨db, visitFirst, visits⟩ := exists_ok_of_bind visits
  obtain ⟨db', visitSecond, visits⟩ := exists_ok_of_bind visits
  obtain ⟨db'', visitThird, visits⟩ := exists_ok_of_bind visits
  cases visits
  have small : Sample.collidingFiles Sample.smallPath = some (.file []) := if_pos rfl
  have great : Sample.collidingFiles Sample.greatPath = some (.file Sample.newsFile) := by
    rw [Sample.collidingFiles, if_neg (by decide), if_pos rfl]
  have start : Transition.Reachable IndexedArchive.Start
      (IndexedArchive.Step Sample.crates "data/archive")
      ⟨Sample.collidingFiles, .migrated, none, []⟩ := .initial ⟨rfl, rfl, rfl⟩
  have empty := IndexedArchive.visit start small visitFirst
  have complete := IndexedArchive.visit empty great visitSecond
  have late := IndexedArchive.visit
    (complete.next (.grow Sample.smallPath [] Sample.newsFile small))
    (by rw [FileSystem.append_file small, Function.update_self, List.nil_append]) visitThird
  have owns := claim _ late
  simp only [readFirst, readSecond, readThird, ↓reduceIte, Bool.false_eq_true] at owns
  obtain ⟨file, identified⟩ := Option.isSome_iff_exists.mp
    (show (identify Sample.crates "data/archive" Sample.greatPath).isSome by decide +kernel)
  obtain ⟨program, member, group⟩ := owns.indexed Sample.greatPath (by simp) file identified
  have path : program.path = Sample.smallPath := by
    have listed := List.mem_map_of_mem (f := fun program : ProgramRow => program.path) member
    rwa [owner, List.mem_singleton] at listed
  have above := (owns.greatest program member).2 ⟨by simp, file, identified, group.symm⟩
  rw [path] at above
  exact absurd above (by decide)

end AribcapDb
