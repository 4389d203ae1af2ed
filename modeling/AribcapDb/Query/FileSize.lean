import AribcapDb.Query.Service
import AribcapDb.Search.Frame

/-! # The reported file size

A pass takes the size of a file from `stat` and reads the file afterwards. While the recorder
appends, the read may see more than the size that the pass stores; a later pass corrects it, unless
it finds the file indexed up to its end and skips it. The size that `list_indexed_programs` serves
converges except after such a read (`reported_size_converges_iff`). -/

namespace AribcapDb

/-- One file while it is recorded and indexed. -/
structure GrowingFile where
  content : List UInt8
  db : SearchDb
  /-- What `stat_archive_file` returned, while a pass is over the file. -/
  pending : Option ArchiveFileMetadata
  /-- The size and the content that the last pass which read the file found. -/
  lastRead : Option (ℕ × List UInt8)

/-- The index of a file stands at the end of the last line that was read. -/
theorem Shows.indexedOffset {unicode : Unicode} {serde : SerdeJson} {db : SearchDb}
    {file : FileIdentity} {content : List UInt8}
    (shown : Shows unicode db file (fileIndex serde content)) {row : IndexedFileRow}
    (found : db.indexedFile file.path = some row) :
    row.indexedOffset = Framing.framedLength newline content := by
  obtain ⟨other, present, _, offset, _⟩ := shown.row
  rw [found, Option.some.injEq] at present
  rw [present, offset, offset_fileIndex]

namespace GrowingFile

/-- The pass finds the file indexed up to the size it has from `stat`. -/
def Skips (file : FileIdentity) (state : GrowingFile) (metadata : ArchiveFileMetadata) : Prop :=
  ∃ row, state.db.indexedFile file.path = some row ∧ row.indexedOffset = metadata.sizeBytes

open Classical in
/-- Appends of the recorder, the two steps of a pass over the file, and passes over files of other
groups. -/
inductive Step (crates : Crates) (archiveRoot : String) (file : FileIdentity)
    (before : GrowingFile) : GrowingFile → Prop where
  | append (bytes : List UInt8) :
      Step crates archiveRoot file before { before with content := before.content ++ bytes }
  | stat (mtime : ℕ) : before.pending = none →
      Step crates archiveRoot file before
        { before with pending := some ⟨before.content.length, mtime⟩ }
  | ingest (metadata : ArchiveFileMetadata) (after : SearchDb) :
      before.pending = some metadata →
      ingestFile crates archiveRoot before.db file.path ⟨some metadata, some before.content⟩ =
        .ok after →
      Step crates archiveRoot file before
        { before with
          db := after
          pending := none
          lastRead :=
            if before.Skips file metadata then before.lastRead
            else some (metadata.sizeBytes, before.content) }
  | other (path : String) (access : FileAccess) (after : SearchDb) : before.pending = none →
      (∀ other, identify crates archiveRoot path = some other → other.group ≠ file.group) →
      ingestFile crates archiveRoot before.db path access = .ok after →
      Step crates archiveRoot file before { before with db := after }

/-- Nothing is known of the file or of its group, and it holds anything. -/
structure Start (crates : Crates) (archiveRoot : String) (file : FileIdentity)
    (state : GrowingFile) : Prop where
  reachable : IndexReachable crates archiveRoot state.db
  unindexed : Unindexed state.db file
  pending : state.pending = none
  lastRead : state.lastRead = none

/-- The index shows the size of a file and the end of its last line. -/
structure ReportsSize (file : FileIdentity) (content : List UInt8) (db : SearchDb) : Prop where
  row : ∃ row, db.indexedFile file.path = some row ∧ row.sizeBytes = content.length ∧
    row.indexedOffset = Framing.framedLength newline content
  listed : ∀ program ∈ db.programs, program.path = file.path →
    (db.indexedProgram program).sizeBytes = content.length

/-- The last pass that read the file got more than its `stat` had shown, up to the end of a line,
and nothing has been appended since. -/
def Overtaken (state : GrowingFile) : Prop :=
  ∃ size, state.lastRead = some (size, state.content) ∧ size < state.content.length ∧
    Framing.framedLength newline state.content = state.content.length

/-- What the index and the pass in progress know of the file. -/
inductive Known (crates : Crates) (file : FileIdentity) (state : GrowingFile) : Prop where
  | nothing : Unindexed state.db file → state.lastRead = none → Known crates file state
  | seen (size : ℕ) (content : List UInt8) (row : IndexedFileRow) :
      state.lastRead = some (size, content) → size ≤ content.length → content <+: state.content →
      Shows crates.unicode state.db file (fileIndex crates.serde content) →
      state.db.indexedFile file.path = some row → row.sizeBytes = size →
      (∀ metadata, state.pending = some metadata → content.length ≤ metadata.sizeBytes) →
      Known crates file state

/-- What holds in every run. -/
structure Tracks (crates : Crates) (archiveRoot : String) (file : FileIdentity)
    (state : GrowingFile) : Prop where
  reachable : IndexReachable crates archiveRoot state.db
  pending : ∀ metadata, state.pending = some metadata →
    metadata.sizeBytes ≤ state.content.length
  known : Known crates file state

variable {crates : Crates} {archiveRoot : String} {file : FileIdentity}
  {before after state : GrowingFile}

/-- A pass skips a file that is shown when it finds the size at which the index stands. -/
theorem skips_iff {seen : List UInt8}
    (shown : Shows crates.unicode state.db file (fileIndex crates.serde seen))
    (metadata : ArchiveFileMetadata) :
    state.Skips file metadata ↔ metadata.sizeBytes = Framing.framedLength newline seen := by
  constructor
  · rintro ⟨row, found, same⟩
    rw [← same, shown.indexedOffset found]
  · intro same
    obtain ⟨row, found, _⟩ := shown.row
    exact ⟨row, found, by rw [shown.indexedOffset found, same]⟩

namespace Tracks

theorem start (started : Start crates archiveRoot file state) :
    Tracks crates archiveRoot file state where
  reachable := started.reachable
  pending metadata stat := by
    rw [started.pending] at stat
    cases stat
  known := .nothing started.unindexed started.lastRead

theorem append (tracks : Tracks crates archiveRoot file before) (bytes : List UInt8) :
    Tracks crates archiveRoot file { before with content := before.content ++ bytes } where
  reachable := tracks.reachable
  pending metadata stat := by
    rw [List.length_append]
    exact (tracks.pending metadata stat).trans (Nat.le_add_right _ _)
  known := by
    cases tracks.known with
    | nothing unindexed lastRead => exact .nothing unindexed lastRead
    | seen size content row lastRead bound grown shown found stored covers =>
        exact .seen size content row lastRead bound (grown.trans (List.prefix_append _ _)) shown
          found stored covers

theorem stat (tracks : Tracks crates archiveRoot file before) (mtime : ℕ) :
    Tracks crates archiveRoot file
      { before with pending := some ⟨before.content.length, mtime⟩ } where
  reachable := tracks.reachable
  pending metadata stat := by
    cases stat
    exact le_rfl
  known := by
    cases tracks.known with
    | nothing unindexed lastRead => exact .nothing unindexed lastRead
    | seen size content row lastRead bound grown shown found stored _ =>
        refine .seen size content row lastRead bound grown shown found stored ?_
        rintro _ ⟨⟩
        exact grown.length_le

open Classical in
theorem ingest (tracks : Tracks crates archiveRoot file before)
    (identified : identify crates archiveRoot file.path = some file)
    {metadata : ArchiveFileMetadata} {db : SearchDb} (stat : before.pending = some metadata)
    (ran : ingestFile crates archiveRoot before.db file.path
      ⟨some metadata, some before.content⟩ = .ok db) :
    Tracks crates archiveRoot file
      { before with
        db
        pending := none
        lastRead :=
          if before.Skips file metadata then before.lastRead
          else some (metadata.sizeBytes, before.content) } where
  reachable := .next tracks.reachable (.ingest _ _ ran)
  pending := nofun
  known := by
    have wellFormed := tracks.reachable.wellFormed
    cases tracks.known with
    | nothing unindexed lastRead =>
        obtain ⟨after, again, shown, row, found, stored⟩ :=
          unindexed.ingestFile_stat wellFormed identified before.content metadata
        rw [ran, Except.ok.injEq] at again
        subst again
        have reads : ¬ before.Skips file metadata := by
          rintro ⟨old, present, _⟩
          rw [unindexed.row] at present
          cases present
        rw [if_neg reads]
        exact .seen _ before.content row rfl (tracks.pending metadata stat) List.prefix_rfl shown
          found stored nofun
    | seen size content row lastRead bound grown shown found stored covers =>
        obtain ⟨more, whole⟩ := grown
        obtain ⟨after, again, skipped, read⟩ :=
          shown.ingestFile_stat wellFormed identified more metadata (covers metadata stat)
        rw [whole, ran, Except.ok.injEq] at again
        subst again
        by_cases skips : before.Skips file metadata
        · rw [if_pos skips, skipped ((skips_iff shown metadata).mp skips)]
          exact .seen size content row lastRead bound ⟨more, whole⟩ shown found stored nofun
        · rw [if_neg skips]
          obtain ⟨shown', row', found', stored'⟩ :=
            read fun same => skips ((skips_iff shown metadata).mpr same)
          rw [whole] at shown'
          exact .seen _ before.content row' rfl (tracks.pending metadata stat) List.prefix_rfl
            shown' found' stored' nofun

theorem other (tracks : Tracks crates archiveRoot file before)
    (identified : identify crates archiveRoot file.path = some file) {path : String}
    {access : FileAccess} {db : SearchDb}
    (separate : ∀ other, identify crates archiveRoot path = some other →
      other.group ≠ file.group)
    (ran : ingestFile crates archiveRoot before.db path access = .ok db) :
    Tracks crates archiveRoot file { before with db } where
  reachable := .next tracks.reachable (.ingest _ _ ran)
  pending := tracks.pending
  known := by
    cases elsewhere : identify crates archiveRoot path with
    | none =>
        rw [ingestFile_of_unidentified elsewhere ran]
        exact tracks.known
    | some other =>
        have different := (separate other elsewhere).symm
        have untouched := (ingestFile_cases ran).untouched tracks.reachable.wellFormed elsewhere
        cases tracks.known with
        | nothing unindexed lastRead =>
            exact .nothing (unindexed.frame untouched identified different) lastRead
        | seen size content row lastRead bound grown shown found stored covers =>
            refine .seen size content row lastRead bound grown
              (shown.frame untouched identified different) ?_ stored covers
            rw [untouched.indexed _ file identified different, found]

theorem run (identified : identify crates archiveRoot file.path = some file)
    (reachable : Transition.Reachable (Start crates archiveRoot file)
      (Step crates archiveRoot file) state) : Tracks crates archiveRoot file state :=
  reachable.invariant (fun _ started => start started) fun _ _ _ tracks stepped => by
    cases stepped with
    | append bytes => exact tracks.append bytes
    | stat mtime _ => exact tracks.stat mtime
    | ingest metadata after stat ran => exact tracks.ingest identified stat ran
    | other path access after _ separate ran => exact tracks.other identified separate ran

end Tracks

/-- The size served is that of the row. -/
theorem reportsSize_iff {content : List UInt8} {db : SearchDb} {row : IndexedFileRow}
    (found : db.indexedFile file.path = some row)
    (offset : row.indexedOffset = Framing.framedLength newline content) :
    ReportsSize file content db ↔ row.sizeBytes = content.length := by
  constructor
  · rintro ⟨⟨other, present, size, _⟩, _⟩
    rw [found, Option.some.injEq] at present
    rw [present, size]
  · intro size
    refine ⟨⟨row, found, size, offset⟩, fun program _ own => ?_⟩
    rw [SearchDb.indexedProgram, own, found]
    exact size

/-- Once the recorder has stopped, a complete pass leaves the size and the end of the last line of
the file in the index, except after a pass that was overtaken by the last append. -/
theorem reported_size_converges_iff
    (identified : identify crates archiveRoot file.path = some file)
    (reachable : Transition.Reachable (Start crates archiveRoot file)
      (Step crates archiveRoot file) state) (mtime : ℕ) :
    ∃ db, ingestFile crates archiveRoot state.db file.path (prefixAccess state.content mtime) =
        .ok db ∧ (ReportsSize file state.content db ↔ ¬ state.Overtaken) := by
  have tracks := Tracks.run identified reachable
  have wellFormed := tracks.reachable.wellFormed
  cases tracks.known with
  | nothing unindexed lastRead =>
      obtain ⟨db, ran, shown, row, found, stored⟩ :=
        unindexed.ingestFile_stat wellFormed identified state.content
          ⟨state.content.length, mtime⟩
      refine ⟨db, ran, iff_of_true ?_ ?_⟩
      · exact (reportsSize_iff found (shown.indexedOffset found)).mpr stored
      · rintro ⟨size, overtaken, _⟩
        rw [lastRead] at overtaken
        cases overtaken
  | seen size content row lastRead bound grown shown found stored _ =>
      obtain ⟨more, whole⟩ := grown
      have shorter : content.length ≤ state.content.length := by
        rw [← whole, List.length_append]
        exact Nat.le_add_right _ _
      obtain ⟨db, ran, skipped, read⟩ := shown.ingestFile_stat wellFormed identified more
        ⟨state.content.length, mtime⟩ shorter
      rw [whole] at ran read
      refine ⟨db, ran, ?_⟩
      by_cases complete : state.content.length = Framing.framedLength newline content
      · -- the file has not grown since it was read, and the pass skips it
        have same : content = state.content := by
          have inside := Framing.framedLength_le newline content
          have none_more : more.length = 0 := by
            have total := congrArg List.length whole
            rw [List.length_append] at total
            omega
          rw [← whole, List.length_eq_zero_iff.mp none_more, List.append_nil]
        subst same
        have offset := shown.indexedOffset found
        rw [skipped complete, reportsSize_iff found offset, stored]
        constructor
        · rintro rfl ⟨other, overtaken, larger, _⟩
          rw [lastRead, Option.some.injEq, Prod.mk.injEq] at overtaken
          omega
        · intro calm
          by_contra stale
          exact calm ⟨size, lastRead, lt_of_le_of_ne bound stale, complete.symm⟩
      · obtain ⟨shown', row', found', stored'⟩ := read complete
        apply iff_of_true ((reportsSize_iff found' (shown'.indexedOffset found')).mpr stored')
        rintro ⟨other, overtaken, _, closed⟩
        rw [lastRead, Option.some.injEq, Prod.mk.injEq] at overtaken
        rw [overtaken.2] at complete
        exact complete closed.symm

end GrowingFile

namespace Sample

def newsIdentity : FileIdentity :=
  ⟨"nhk", "2026-07", "2026-07-01_12-00-01.no-title.jsonl", newsPath, "2026-07-01_12-00-01"⟩

theorem identify_newsPath : identify crates "data/archive" newsIdentity.path =
    some newsIdentity := by
  decide +kernel

end Sample

namespace GrowingFile

/-- The second line is appended between the `stat` and the read of the first pass. -/
theorem reachable_overtaken : ∃ db, Transition.Reachable
    (Start Sample.crates "data/archive" Sample.newsIdentity)
    (Step Sample.crates "data/archive" Sample.newsIdentity)
    ⟨Sample.newsFile, db, none, some ((lineBytes Sample.newsLine).length, Sample.newsFile)⟩ := by
  have unindexed : Unindexed .migrated Sample.newsIdentity := by
    refine ⟨rfl, ?_⟩
    intro program member
    cases member
  have start : Transition.Reachable (Start Sample.crates "data/archive" Sample.newsIdentity)
      (Step Sample.crates "data/archive" Sample.newsIdentity)
      ⟨lineBytes Sample.newsLine, .migrated, none, none⟩ :=
    .initial ⟨.initial rfl, unindexed, rfl, rfl⟩
  have appended := (start.next (.stat 0 rfl)).next (.append (lineBytes Sample.captionLine))
  have wellFormed := WellFormed.migrated Sample.crates "data/archive"
  obtain ⟨db, ran, _⟩ := unindexed.ingestFile_stat wellFormed Sample.identify_newsPath
    (lineBytes Sample.newsLine ++ lineBytes Sample.captionLine)
    ⟨(lineBytes Sample.newsLine).length, 0⟩
  have indexed := appended.next (.ingest _ db rfl ran)
  have reads : ¬ Skips Sample.newsIdentity
      ⟨lineBytes Sample.newsLine ++ lineBytes Sample.captionLine, .migrated,
        some ⟨(lineBytes Sample.newsLine).length, 0⟩, none⟩
      ⟨(lineBytes Sample.newsLine).length, 0⟩ := by
    rintro ⟨row, found, _⟩
    cases found
  rw [if_neg reads] at indexed
  exact ⟨db, indexed⟩

/-- One more byte after the overtaken pass, and the size is reported again. -/
theorem reported_size_converges_iff_sample : ∃ state db : SearchDb,
    ingestFile Sample.crates "data/archive" state Sample.newsPath
        (prefixAccess (Sample.newsFile ++ [123]) 1) = .ok db ∧
      ReportsSize Sample.newsIdentity (Sample.newsFile ++ [123]) db := by
  obtain ⟨state, reachable⟩ := reachable_overtaken
  have grown := reachable.next (.append [123])
  obtain ⟨db, ran, reports⟩ :=
    reported_size_converges_iff Sample.identify_newsPath grown 1
  refine ⟨state, db, ran, reports.mpr ?_⟩
  rintro ⟨size, last, _⟩
  have same := congrArg (fun read => (Prod.snd read).length) (Option.some.inj last)
  simp only [List.length_append, List.length_singleton] at same
  omega

/-- After an overtaken pass the size stays behind. -/
theorem reported_size_stays_behind : ¬ ∀ (crates : Crates) (archiveRoot : String)
    (file : FileIdentity) (state : GrowingFile),
    identify crates archiveRoot file.path = some file →
    Transition.Reachable (Start crates archiveRoot file) (Step crates archiveRoot file) state →
    state.pending = none → ∀ mtime, ∃ db,
      ingestFile crates archiveRoot state.db file.path (prefixAccess state.content mtime) =
        .ok db ∧ ReportsSize file state.content db := by
  intro claim
  obtain ⟨state, reachable⟩ := reachable_overtaken
  obtain ⟨db, ran, reports⟩ := claim _ _ _ _ Sample.identify_newsPath reachable rfl 1
  obtain ⟨other, again, converges⟩ :=
    reported_size_converges_iff Sample.identify_newsPath reachable 1
  rw [ran, Except.ok.injEq] at again
  subst again
  have longer : (lineBytes Sample.newsLine).length < Sample.newsFile.length := by decide +kernel
  have closed : Framing.framedLength newline Sample.newsFile = Sample.newsFile.length := by
    decide +kernel
  exact converges.mp reports ⟨_, rfl, longer, closed⟩

end GrowingFile

end AribcapDb
