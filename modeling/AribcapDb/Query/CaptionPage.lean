import AribcapDb.Query.Service

/-! # Caption pages

`get_caption_page` reads the program of a group in one statement and its captions in a second one,
without a read transaction around them. Commits of the indexer may come between the two. With one
such commit the page is that of one committed state exactly if the commit keeps the columns of the
program or the page of captions (`ofOneState_commit_iff`). -/

namespace AribcapDb

/-- `search_db::ProgramDetails`. -/
structure ProgramDetails where
  programId : ℕ
  stream : String
  recordingStartedAt : String
  startTime : Option String
  durationSec : Option Int64
  title : String
  description : String
  deriving DecidableEq, Repr

/-- `search_db::CaptionLine`. -/
structure CaptionLine where
  lineId : ℕ
  lineNo : ℕ
  time : Option String
  text : String
  durationMs : Option Int64
  languageCode : Option String
  deriving DecidableEq, Repr

/-- `search_db::CaptionPage`. -/
structure CaptionPage where
  program : ProgramDetails
  captions : List CaptionLine
  hasMore : Bool
  deriving DecidableEq, Repr

/-- The arguments of `get_caption_page`. -/
structure CaptionQuery where
  stream : String
  recordingStartedAt : String
  startLine : ℤ
  limit : ℤ

namespace SearchDb

variable (db : SearchDb) (query : CaptionQuery)

/-- The first statement of `get_caption_page`. -/
def programDetails : Option ProgramDetails :=
  (db.groupProgram query.stream query.recordingStartedAt).map fun row =>
    { programId := row.id
      stream := row.stream
      recordingStartedAt := row.recordingStartedAt
      startTime := row.metadata.startTime
      durationSec := row.metadata.durationSec
      title := row.metadata.title
      description := row.metadata.description }

/-- The second statement of `get_caption_page`. -/
def captionRows (programId : ℕ) : List CaptionLine :=
  let selected := db.captionLines.filter fun row =>
    row.programId = programId && query.startLine ≤ row.lineNo
  let ordered := selected.insertionSort fun first second => first.lineNo ≤ second.lineNo
  let limit := min (query.limit + 1) (2 ^ 63 - 1)
  (ordered.take limit.toNat).map fun row =>
    { lineId := row.id
      lineNo := row.lineNo
      time := row.caption.time
      text := row.caption.text
      durationMs := row.caption.durationMs
      languageCode := row.caption.languageCode }

end SearchDb

/-- What `get_caption_page` makes of the rows of its two statements. -/
def captionPage (query : CaptionQuery) (program : ProgramDetails) (captions : List CaptionLine) :
    CaptionPage :=
  let hasMore := query.limit < captions.length
  { program
    captions := if hasMore then captions.dropLast else captions
    hasMore }

/-- The page of a program that the first statement has returned, when the second one runs in the
given state. -/
def pageOf (query : CaptionQuery) (program : ProgramDetails) (db : SearchDb) : CaptionPage :=
  captionPage query program (db.captionRows query program.programId)

/-- `get_caption_page` with both statements in one state. -/
def getCaptionPage (db : SearchDb) (query : CaptionQuery) : Except String (Option CaptionPage) :=
  if query.limit ≤ 0 then .error "caption page limit must be greater than zero"
  else
    match db.programDetails query with
    | none => .ok none
    | some program => .ok (some (pageOf query program db))

/-- Where a call of `get_caption_page` stands. -/
inductive Reading where
  | notStarted
  /-- The first statement has returned a program. -/
  | selected (program : ProgramDetails)
  | answered (answer : Except String (Option CaptionPage))

/-- The committed database, one reader, and the states committed since the reader started, the
latest first. -/
structure CaptionReader where
  db : SearchDb
  reading : Reading
  since : List SearchDb

namespace CaptionReader

/-- The steps of the reader, with commits of the indexer at any time. -/
inductive Step (crates : Crates) (archiveRoot : String) (query : CaptionQuery)
    (before : CaptionReader) : CaptionReader → Prop where
  | commit (after : SearchDb) : IndexStep crates archiveRoot before.db after →
      Step crates archiveRoot query before
        { before with db := after, since := after :: before.since }
  | refuse : before.reading = .notStarted → query.limit ≤ 0 →
      Step crates archiveRoot query before
        { before with
          reading := .answered (.error "caption page limit must be greater than zero")
          since := [before.db] }
  | selectNone : before.reading = .notStarted → 0 < query.limit →
      before.db.programDetails query = none →
      Step crates archiveRoot query before
        { before with reading := .answered (.ok none), since := [before.db] }
  | selectProgram (program : ProgramDetails) : before.reading = .notStarted → 0 < query.limit →
      before.db.programDetails query = some program →
      Step crates archiveRoot query before
        { before with reading := .selected program, since := [before.db] }
  | selectCaptions (program : ProgramDetails) : before.reading = .selected program →
      Step crates archiveRoot query before
        { before with
          reading := .answered (.ok (some (pageOf query program before.db))) }

/-- Any reachable database, before the call. -/
structure Start (crates : Crates) (archiveRoot : String) (state : CaptionReader) : Prop where
  reachable : IndexReachable crates archiveRoot state.db
  reading : state.reading = .notStarted

/-- The answer is that of one state committed since the call started. -/
def OfOneState (query : CaptionQuery) (state : CaptionReader) : Prop :=
  ∀ answer, state.reading = .answered answer →
    ∃ db ∈ state.since, getCaptionPage db query = answer

/-- A step between the two statements leaves the selected columns of the program as they were
returned, or the page of captions as it was. -/
def KeepsPage (query : CaptionQuery) (before after : CaptionReader) : Prop :=
  ∀ program, before.reading = .selected program →
    after.db.programDetails query = some program ∨
      pageOf query program after.db = pageOf query program before.db

/-- What the reader can rely on. -/
structure Steady (query : CaptionQuery) (state : CaptionReader) : Prop where
  answered : state.OfOneState query
  selected : ∀ program, state.reading = .selected program → 0 < query.limit ∧
    ∃ db ∈ state.since, db.programDetails query = some program ∧
      pageOf query program db = pageOf query program state.db

variable {crates : Crates} {archiveRoot : String} {query : CaptionQuery}
  {before after state : CaptionReader}

theorem getCaptionPage_of_details (limit : 0 < query.limit) {db : SearchDb}
    {program : ProgramDetails} (details : db.programDetails query = some program) :
    getCaptionPage db query = .ok (some (pageOf query program db)) := by
  rw [getCaptionPage, if_neg (not_le_of_gt limit), details]

namespace Steady

theorem start (started : Start crates archiveRoot state) : Steady query state := by
  constructor
  · intro answer found
    rw [started.reading] at found
    cases found
  · intro program found
    rw [started.reading] at found
    cases found

theorem step (steady : Steady query before) (stepped : Step crates archiveRoot query before after)
    (keeps : KeepsPage query before after) : Steady query after := by
  cases stepped with
  | commit db _ =>
      constructor
      · intro answer found
        obtain ⟨earlier, member, same⟩ := steady.answered answer found
        exact ⟨earlier, List.mem_cons_of_mem _ member, same⟩
      · intro program found
        obtain ⟨positive, earlier, member, details, captions⟩ := steady.selected program found
        refine ⟨positive, ?_⟩
        rcases keeps program found with kept | kept
        · exact ⟨db, List.mem_cons_self, kept, rfl⟩
        · exact ⟨earlier, List.mem_cons_of_mem _ member, details, captions.trans kept.symm⟩
  | refuse _ limit =>
      constructor
      · rintro _ ⟨⟩
        exact ⟨before.db, List.mem_singleton_self _, if_pos limit⟩
      · rintro _ ⟨⟩
  | selectNone _ limit absent =>
      constructor
      · rintro _ ⟨⟩
        refine ⟨before.db, List.mem_singleton_self _, ?_⟩
        rw [getCaptionPage, if_neg (not_le_of_gt limit), absent]
      · rintro _ ⟨⟩
  | selectProgram program _ limit found =>
      constructor
      · rintro _ ⟨⟩
      · rintro _ ⟨⟩
        exact ⟨limit, before.db, List.mem_singleton_self _, found, rfl⟩
  | selectCaptions program selected =>
      constructor
      · rintro _ ⟨⟩
        obtain ⟨limit, db, member, details, captions⟩ := steady.selected program selected
        refine ⟨db, member, ?_⟩
        rw [getCaptionPage_of_details limit details, captions]
      · rintro _ ⟨⟩

end Steady

/-- With one commit between the statements, the page is that of one state exactly when the commit
keeps the program or the page. -/
theorem ofOneState_commit_iff {db after : SearchDb} {program : ProgramDetails}
    (limit : 0 < query.limit) (details : db.programDetails query = some program) :
    OfOneState query ⟨after, .answered (.ok (some (pageOf query program after))), [after, db]⟩ ↔
      KeepsPage query ⟨db, .selected program, [db]⟩ ⟨after, .selected program, [after, db]⟩ := by
  constructor
  · rintro one _ ⟨⟩
    obtain ⟨state, member, answers⟩ := one _ rfl
    rcases List.mem_cons.mp member with rfl | member
    · left
      cases found : state.programDetails query with
      | none =>
          rw [getCaptionPage, if_neg (not_le_of_gt limit), found] at answers
          cases answers
      | some other =>
          rw [getCaptionPage_of_details limit found, Except.ok.injEq, Option.some.injEq] at answers
          exact congrArg some (congrArg CaptionPage.program answers)
    · right
      obtain rfl := List.mem_singleton.mp member
      rw [getCaptionPage_of_details limit details, Except.ok.injEq, Option.some.injEq] at answers
      exact answers.symm
  · rintro keeps _ ⟨⟩
    rcases keeps program rfl with kept | kept
    · exact ⟨after, List.mem_cons_self, getCaptionPage_of_details limit kept⟩
    · refine ⟨db, List.mem_cons_of_mem _ (List.mem_singleton_self _), ?_⟩
      rw [getCaptionPage_of_details limit details, ← kept]

end CaptionReader

namespace Sample

def lateLine : String := "\x7b\"type\":\"eit\",\"section\":\"present\",\"startTime\":\"12:00\"\x7d"

def otherCaptionLine : String := "\x7b\"type\":\"caption\",\"text\":\"bye\"\x7d"

/-- Two programs that differ in a column of the first statement, and a caption for each. -/
def pageCrates : Crates :=
  .ascii [(newsLine, presentEit 1),
    (lateLine, .object [("type", .string "eit"), ("section", .string "present"),
      ("startTime", .string "12:00")]),
    (captionLine, caption),
    (otherCaptionLine, .object [("type", .string "caption"), ("text", .string "bye")])] rfl

end Sample

end AribcapDb
