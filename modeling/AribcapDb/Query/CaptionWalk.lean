import AribcapDb.Foundation.Paging
import AribcapDb.Foundation.Sql
import AribcapDb.Query.CaptionPage
import AribcapDb.Search.Growth

/-! # Walking through the captions of a program

A client asks for the captions from line one on and follows `next_start_line` until there is none,
with any limit in each request. Between two requests the indexer may commit further captions of the
file (`captionsGrow_ingestFile`). Every caption is visited once, in order, and the walk ends
(`caption_paging_visits_every_line`). -/

namespace AribcapDb

/-- `ProgramCaptionsResponse`. -/
structure ProgramCaptionsResponse where
  program : ProgramDetails
  captions : List CaptionLine
  nextStartLine : Option ℤ
  deriving DecidableEq, Repr

def defaultCaptionLimit : ℤ := 100

def maxCaptionLimit : ℤ := 500

/-- The limit of a request, by default and within its bounds. -/
def captionLimit (limit : Option ℤ) : ℤ :=
  max 1 (min (limit.getD defaultCaptionLimit) maxCaptionLimit)

/-- `ArchiveQueryService::get_program_captions`; `search` is the database that the reader connection
shows, when there is one. -/
def getProgramCaptions (crates : Crates) (searchDbReady : Bool) (search : Option SearchDb)
    (stream recordingStartedAt : String) (startLine limit : Option ℤ) :
    Except QueryServiceError ProgramCaptionsResponse := do
  requireReady searchDbReady
  (validateStreamComponent crates.sanitizeFilename stream).mapError .ofIoError
  (validateRecordingStartedAt crates.chrono recordingStartedAt).mapError .ofIoError
  let startLine := startLine.getD 1
  if startLine < 1 then throw (.badRequest "start_line must be at least 1")
  else
    match search with
    | none => throw .internal
    | some db =>
        match getCaptionPage db ⟨stream, recordingStartedAt, startLine, captionLimit limit⟩ with
        | .error _ => throw .internal
        | .ok none => throw (.notFound "program not found")
        | .ok (some page) =>
            pure
              { program := page.program
                captions := page.captions
                nextStartLine :=
                  if page.hasMore then
                    page.captions.getLast?.map fun caption => caption.lineNo + 1
                  else none }

/-- The columns of the second statement of `get_caption_page`. -/
def captionLine (row : CaptionRow) : CaptionLine :=
  { lineId := row.id
    lineNo := row.lineNo
    time := row.caption.time
    text := row.caption.text
    durationMs := row.caption.durationMs
    languageCode := row.caption.languageCode }

def CaptionLine.number (line : CaptionLine) : ℤ := line.lineNo

/-- All captions of a program by their line numbers. -/
def SearchDb.captionsInOrder (db : SearchDb) (programId : ℕ) : List CaptionLine :=
  (Sql.orderBy CaptionRow.lineNo (db.captionsOf programId)).map captionLine

/-- A walk through the captions of a program, beside the committed database. -/
structure CaptionWalk where
  db : SearchDb
  nextStartLine : Option ℤ
  /-- The captions of all pages so far. -/
  captions : List CaptionLine
  /-- The start lines of all requests so far. -/
  startLines : List ℤ
  /-- The database that the last page was read from. -/
  read : SearchDb

namespace CaptionWalk

/-- The request for the next page. -/
def request (crates : Crates) (stream recordingStartedAt : String) (walk : CaptionWalk)
    (limit : Option ℤ) : Option CaptionWalk := do
  let startLine ← walk.nextStartLine
  let response ← (getProgramCaptions crates true (some walk.db) stream recordingStartedAt
    (some startLine) limit).toOption
  pure
    { db := walk.db
      nextStartLine := response.nextStartLine
      captions := walk.captions ++ response.captions
      startLines := walk.startLines ++ [startLine]
      read := walk.db }

/-- Requests of the client, with commits of the indexer between them. -/
inductive Step (crates : Crates) (archiveRoot stream recordingStartedAt : String)
    (before : CaptionWalk) : CaptionWalk → Prop where
  | commit (after : SearchDb) : IndexStep crates archiveRoot before.db after →
      Step crates archiveRoot stream recordingStartedAt before { before with db := after }
  | page (limit : Option ℤ) (after : CaptionWalk) :
      before.request crates stream recordingStartedAt limit = some after →
      Step crates archiveRoot stream recordingStartedAt before after

/-- An indexed program, before the first request. -/
structure Start (crates : Crates) (archiveRoot stream recordingStartedAt : String)
    (programId : ℕ) (walk : CaptionWalk) : Prop where
  reachable : IndexReachable crates archiveRoot walk.db
  indexed : ∃ program ∈ walk.db.programs, program.id = programId ∧
    program.group = (stream, recordingStartedAt)
  nextStartLine : walk.nextStartLine = some 1
  captions : walk.captions = []
  startLines : walk.startLines = []
  read : walk.read = walk.db

/-- Commits add captions with larger line numbers, if any, to the program. -/
def Grows (programId : ℕ) (before after : CaptionWalk) : Prop :=
  CaptionsGrow programId before.db after.db

/-- What a walk has visited. -/
structure VisitsEveryLine (crates : Crates) (stream recordingStartedAt : String) (programId : ℕ)
    (walk : CaptionWalk) : Prop where
  /-- No caption is repeated. -/
  increasing : walk.captions.Pairwise fun first second => first.lineNo < second.lineNo
  /-- No caption before the next start line is missing. -/
  soFar : ∀ startLine ∈ walk.nextStartLine, walk.captions =
    (walk.read.captionsInOrder programId).filter fun caption => caption.number < startLine
  /-- At the end all captions have been visited that were there when the last page was read. -/
  complete : walk.nextStartLine = none → walk.captions = walk.read.captionsInOrder programId
  startLines : (walk.startLines ++ walk.nextStartLine.toList).Pairwise (· < ·)
  /-- Until then every request is answered. -/
  continues : walk.nextStartLine ≠ none → ∀ limit,
    (walk.request crates stream recordingStartedAt limit).isSome = true
  /-- There are no more requests than captions and one. -/
  ends : ∀ (limits : List (Option ℤ)) (after : CaptionWalk),
    limits.foldlM (request crates stream recordingStartedAt) walk = some after →
    walk.startLines.length + limits.length ≤ (walk.db.captionsOf programId).length + 1

end CaptionWalk

section Page

variable {crates : Crates} {archiveRoot : String} {db : SearchDb} (programId : ℕ)

/-- The captions of a program have different line numbers. -/
theorem nodup_lineNo_captionsOf (unique : Table.Unique CaptionRow.key db.captionLines) :
    ((db.captionsOf programId).map CaptionRow.lineNo).Nodup := by
  apply (unique.of_map.filter _).map_on
  intro first here second there same
  obtain ⟨one, first_own⟩ := List.mem_filter.mp here
  obtain ⟨two, second_own⟩ := List.mem_filter.mp there
  have programs := (of_decide_eq_true first_own).trans (of_decide_eq_true second_own).symm
  exact unique.eq_of_key one two (Prod.ext programs same)

theorem ordered_captionsInOrder (unique : Table.Unique CaptionRow.key db.captionLines) :
    Paging.Ordered CaptionLine.number (db.captionsInOrder programId) := by
  apply List.pairwise_map.mpr
  apply (Sql.pairwise_lt_orderBy CaptionRow.lineNo
    (nodup_lineNo_captionsOf programId unique)).imp
  exact fun less => Int.ofNat_lt.mpr less

/-- The second statement reads the captions from the start line on. -/
theorem captionRows_eq (unique : Table.Unique CaptionRow.key db.captionLines)
    (query : CaptionQuery) :
    db.captionRows query programId =
      (Paging.rowsFrom CaptionLine.number query.startLine (db.captionsInOrder programId)).take
        (min (query.limit + 1) (2 ^ 63 - 1)).toNat := by
  have selected : db.captionLines.filter (fun row =>
      row.programId = programId && query.startLine ≤ row.lineNo) =
        (db.captionsOf programId).filter fun row => query.startLine ≤ row.lineNo := by
    rw [SearchDb.captionsOf, List.filter_filter]
    exact List.filter_congr fun row _ => Bool.and_comm _ _
  have ordered := Sql.orderBy_filter (nodup_lineNo_captionsOf programId unique)
    fun row => query.startLine ≤ row.lineNo
  rw [SearchDb.captionsInOrder, Paging.rowsFrom, List.filter_map, ← List.map_take,
    SearchDb.captionRows, selected]
  exact congrArg (fun rows =>
    (rows.take (min (query.limit + 1) (2 ^ 63 - 1)).toNat).map captionLine) ordered

theorem captionLimit_bounds (limit : Option ℤ) :
    1 ≤ captionLimit limit ∧ captionLimit limit ≤ maxCaptionLimit := by
  unfold captionLimit maxCaptionLimit
  omega

/-- One caption more than asked for says whether there are more, and is dropped. -/
theorem captions_captionPage (query : CaptionQuery) (program : ProgramDetails)
    (rows : List CaptionLine) (limit : 1 ≤ query.limit) :
    captionPage query program (rows.take (query.limit + 1).toNat) =
      { program
        captions := rows.take query.limit.toNat
        hasMore := query.limit.toNat < rows.length } := by
  have whole : (query.limit + 1).toNat = query.limit.toNat + 1 := by omega
  have size : (query.limit : ℤ) = query.limit.toNat := by omega
  unfold captionPage
  rw [List.length_take, whole]
  by_cases more : query.limit.toNat < rows.length
  · have least : min (query.limit.toNat + 1) rows.length = query.limit.toNat + 1 := by omega
    have found : query.limit < ((query.limit.toNat + 1 : ℕ) : ℤ) := by omega
    simp only [least, found, more, decide_true, ↓reduceIte, CaptionPage.mk.injEq, true_and,
      and_true]
    rw [List.dropLast_eq_take, List.length_take, least, Nat.add_sub_cancel, List.take_take,
      min_eq_left (by omega)]
  · have least : min (query.limit.toNat + 1) rows.length = rows.length := by omega
    have none : ¬ query.limit < (rows.length : ℤ) := by omega
    simp only [least, none, more, decide_false, ↓reduceIte, CaptionPage.mk.injEq, true_and,
      and_true]
    rw [List.take_of_length_le (by omega), List.take_of_length_le (by omega)]

/-- What a request reads of the captions of a program: a nonempty page, and where the next one
starts when there are more. -/
structure ReadsPage (lines : List CaptionLine) (startLine : ℤ)
    (response : ProgramCaptionsResponse) : Prop where
  page : ∃ count, 1 ≤ count ∧
    response.captions = (Paging.rowsFrom CaptionLine.number startLine lines).take count ∧
      response.nextStartLine =
        if count < (Paging.rowsFrom CaptionLine.number startLine lines).length then
          response.captions.getLast?.map fun caption => caption.number + 1
        else none

/-- The response to an accepted request for a program that there is. -/
theorem getProgramCaptions_of_page {stream recordingStartedAt : String}
    (accepted : validateStreamComponent crates.sanitizeFilename stream = .ok ())
    (started : validateRecordingStartedAt crates.chrono recordingStartedAt = .ok ())
    {startLine : ℤ} (first : 1 ≤ startLine) {limit : Option ℤ} {page : CaptionPage}
    (read : getCaptionPage db ⟨stream, recordingStartedAt, startLine, captionLimit limit⟩ =
      .ok (some page)) :
    getProgramCaptions crates true (some db) stream recordingStartedAt (some startLine) limit =
      .ok
        { program := page.program
          captions := page.captions
          nextStartLine :=
            if page.hasMore then page.captions.getLast?.map fun caption => caption.number + 1
            else none } := by
  unfold getProgramCaptions
  rw [accepted, started]
  simp only [requireReady, ↓reduceIte, Except.mapError, Option.getD_some, not_lt_of_ge first, read]
  rfl

/-- The names of an indexed program whose stream is accepted are answered. -/
theorem getProgramCaptions_of_indexed (reachable : IndexReachable crates archiveRoot db)
    {stream recordingStartedAt : String}
    (accepted : validateStreamComponent crates.sanitizeFilename stream = .ok ())
    {program : ProgramRow} (member : program ∈ db.programs)
    (group : program.group = (stream, recordingStartedAt)) {startLine : ℤ} (first : 1 ≤ startLine)
    (limit : Option ℤ) :
    ∃ response, getProgramCaptions crates true (some db) stream recordingStartedAt
        (some startLine) limit = .ok response ∧
      ReadsPage (db.captionsInOrder program.id) startLine response := by
  have tables := reachable.wellFormed.tables
  have identified := reachable.wellFormed.linked.identified program member
  obtain ⟨rfl, rfl⟩ := Prod.mk.inj group
  have started : validateRecordingStartedAt crates.chrono program.recordingStartedAt = .ok () := by
    simp only [identify, Option.bind_eq_bind, Option.bind_eq_some_iff, Option.some.injEq]
      at identified
    obtain ⟨⟨_, _, filename⟩, _, parsed, found, same⟩ := identified
    rw [← same]
    exact validateRecordingStartedAt_of_parse found
  obtain ⟨positive, small⟩ := captionLimit_bounds limit
  have bounded : captionLimit limit + 1 ≤ 2 ^ 63 - 1 := by
    unfold maxCaptionLimit at small
    omega
  let query : CaptionQuery :=
    ⟨program.stream, program.recordingStartedAt, startLine, captionLimit limit⟩
  obtain ⟨details, found, known⟩ : ∃ details, db.programDetails query = some details ∧
      details.programId = program.id := by
    have found : db.groupProgram program.stream program.recordingStartedAt = some program :=
      (mem_groupProgram tables).mpr ⟨member, rfl⟩
    exact ⟨_, by rw [SearchDb.programDetails, found, Option.map_some], rfl⟩
  have page : getCaptionPage db query = .ok (some
      { program := details
        captions := (Paging.rowsFrom CaptionLine.number startLine
          (db.captionsInOrder program.id)).take (captionLimit limit).toNat
        hasMore := (captionLimit limit).toNat < (Paging.rowsFrom CaptionLine.number startLine
          (db.captionsInOrder program.id)).length }) := by
    have limited : 0 < query.limit := by
      show 0 < captionLimit limit
      omega
    rw [CaptionReader.getCaptionPage_of_details limited found, pageOf, known,
      captionRows_eq program.id tables.captionKeys, min_eq_left bounded,
      captions_captionPage _ _ _ positive]
  refine ⟨_, getProgramCaptions_of_page accepted started first page,
    ⟨(captionLimit limit).toNat, by omega, rfl, ?_⟩⟩
  simp only [decide_eq_true_eq]

/-- The captions of a program that grows are followed by others with larger numbers. -/
theorem CaptionsGrow.captionsInOrder {before after : SearchDb} {programId : ℕ}
    (grows : CaptionsGrow programId before after)
    (first : Table.Unique CaptionRow.key before.captionLines)
    (second : Table.Unique CaptionRow.key after.captionLines) :
    ∃ more, after.captionsInOrder programId = before.captionsInOrder programId ++ more ∧
      ∀ new ∈ more, ∀ old ∈ before.captionsInOrder programId, old.number < new.number := by
  have olds := nodup_lineNo_captionsOf programId first
  have all := nodup_lineNo_captionsOf programId second
  let news := (after.captionsOf programId).filter fun row => row ∉ before.captionsOf programId
  have larger : ∀ new ∈ news, ∀ old ∈ before.captionsOf programId, old.lineNo < new.lineNo := by
    intro new member
    obtain ⟨present, absent⟩ := List.mem_filter.mp member
    exact (grows.larger new present).resolve_left (of_decide_eq_true absent)
  have whole : Sql.orderBy CaptionRow.lineNo (after.captionsOf programId) =
      Sql.orderBy CaptionRow.lineNo (before.captionsOf programId) ++
        Sql.orderBy CaptionRow.lineNo news := by
    refine (Sql.eq_orderBy_of_pairwise ?_ all fun row => ?_).symm
    · refine List.pairwise_append.mpr ⟨Sql.pairwise_lt_orderBy _ olds,
        Sql.pairwise_lt_orderBy _ (all.sublist (List.filter_sublist.map _)), ?_⟩
      intro old here new there
      exact larger new ((Sql.mem_orderBy _ _).mp there) old ((Sql.mem_orderBy _ _).mp here)
    · rw [List.mem_append, Sql.mem_orderBy, Sql.mem_orderBy, List.mem_filter, decide_eq_true_eq]
      by_cases earlier : row ∈ before.captionsOf programId
      · simp [earlier, grows.kept earlier]
      · simp [earlier]
  refine ⟨(Sql.orderBy CaptionRow.lineNo news).map captionLine, ?_, ?_⟩
  · rw [SearchDb.captionsInOrder, whole, List.map_append]
    rfl
  · intro new there old here
    obtain ⟨newRow, newMember, rfl⟩ := List.mem_map.mp there
    obtain ⟨oldRow, oldMember, rfl⟩ := List.mem_map.mp here
    exact Int.ofNat_lt.mpr (larger newRow ((Sql.mem_orderBy _ _).mp newMember) oldRow
      ((Sql.mem_orderBy _ _).mp oldMember))

end Page

namespace CaptionWalk

variable {crates : Crates} {archiveRoot stream recordingStartedAt : String} {programId : ℕ}
  {before after walk : CaptionWalk}

/-- Where a walk stands that goes on at a line. -/
structure ReadBefore (programId : ℕ) (walk : CaptionWalk) (startLine : ℤ) : Prop where
  positive : 1 ≤ startLine
  captions : walk.captions = Paging.rowsBefore CaptionLine.number startLine
    (walk.read.captionsInOrder programId)
  startLines : walk.startLines.Pairwise (· < ·) ∧ ∀ earlier ∈ walk.startLines, earlier < startLine
  requests : walk.startLines.length ≤ walk.captions.length
  /-- There are captions left, unless this is the first page. -/
  ahead : startLine = 1 ∨ ∃ line ∈ walk.read.captionsInOrder programId, startLine ≤ line.number
  /-- What has been committed since the last page is ahead. -/
  committed : ∃ more, walk.db.captionsInOrder programId =
    walk.read.captionsInOrder programId ++ more ∧ ∀ line ∈ more, startLine ≤ line.number

/-- Where a walk stands that has ended. -/
structure ReadAll (programId : ℕ) (walk : CaptionWalk) : Prop where
  captions : walk.captions = walk.read.captionsInOrder programId
  startLines : walk.startLines.Pairwise (· < ·)
  requests : walk.startLines.length ≤ walk.captions.length + 1
  committed : walk.read.captionsInOrder programId <+: walk.db.captionsInOrder programId

/-- The invariant of a walk. -/
structure Walked (crates : Crates) (archiveRoot stream recordingStartedAt : String)
    (programId : ℕ) (walk : CaptionWalk) : Prop where
  reachable : IndexReachable crates archiveRoot walk.db
  indexed : ∃ program ∈ walk.db.programs, program.id = programId ∧
    program.group = (stream, recordingStartedAt)
  ordered : Paging.Ordered CaptionLine.number (walk.read.captionsInOrder programId)
  position : ∀ startLine, walk.nextStartLine = some startLine →
    ReadBefore programId walk startLine
  ended : walk.nextStartLine = none → ReadAll programId walk

/-- A request changes nothing in the database, and its start line is counted. -/
theorem request_eq_some {limit : Option ℤ}
    (requested : before.request crates stream recordingStartedAt limit = some after) :
    after.db = before.db ∧ after.startLines.length = before.startLines.length + 1 := by
  simp only [request, Option.bind_eq_bind, Option.bind_eq_some_iff] at requested
  obtain ⟨startLine, _, response, _, same⟩ := requested
  obtain rfl := Option.some.inj same
  simp

/-- Line numbers begin at one. -/
theorem number_pos {db : SearchDb} (positive : db.NumbersFromOne) {line : CaptionLine}
    (member : line ∈ db.captionsInOrder programId) : 1 ≤ line.number := by
  obtain ⟨row, listed, rfl⟩ := List.mem_map.mp member
  have stored := (List.mem_filter.mp ((Sql.mem_orderBy _ _).mp listed)).1
  exact Int.ofNat_le.mpr (positive row stored)

namespace ReadBefore

variable {startLine : ℤ}

/-- What has been committed since the last page does not belong to what has been read. -/
theorem captions_db (position : ReadBefore programId walk startLine) :
    walk.captions = Paging.rowsBefore CaptionLine.number startLine
      (walk.db.captionsInOrder programId) := by
  obtain ⟨more, committed, ahead⟩ := position.committed
  have none : Paging.rowsBefore CaptionLine.number startLine more = [] :=
    List.filter_eq_nil_iff.mpr fun line member => by simpa using ahead line member
  rw [position.captions, committed, Paging.rowsBefore, Paging.rowsBefore, List.filter_append]
  exact (List.append_nil _).symm.trans (congrArg _ none.symm)

theorem startLines_append (position : ReadBefore programId walk startLine) :
    (walk.startLines ++ [startLine]).Pairwise (· < ·) := by
  refine List.pairwise_append.mpr ⟨position.startLines.1, List.pairwise_singleton _ _, ?_⟩
  intro earlier member last own
  rw [List.mem_singleton.mp own]
  exact position.startLines.2 earlier member

end ReadBefore

namespace Walked

theorem start (started : Start crates archiveRoot stream recordingStartedAt programId walk) :
    Walked crates archiveRoot stream recordingStartedAt programId walk where
  reachable := started.reachable
  indexed := started.indexed
  ordered := by
    rw [started.read]
    exact ordered_captionsInOrder programId started.reachable.wellFormed.tables.captionKeys
  position startLine next := by
    obtain rfl : 1 = startLine := Option.some.inj (started.nextStartLine.symm.trans next)
    refine ⟨le_refl 1, ?_, ?_, ?_, .inl rfl, [], ?_, nofun⟩
    · rw [started.captions, started.read]
      refine (List.filter_eq_nil_iff.mpr fun line member => ?_).symm
      simpa using number_pos started.reachable.numbersFromOne member
    · simp [started.startLines]
    · simp [started.startLines]
    · rw [started.read, List.append_nil]
  ended none := by
    rw [started.nextStartLine] at none
    cases none

theorem commit (walked : Walked crates archiveRoot stream recordingStartedAt programId walk)
    {db : SearchDb} (stepped : IndexStep crates archiveRoot walk.db db)
    (grows : CaptionsGrow programId walk.db db) :
    Walked crates archiveRoot stream recordingStartedAt programId { walk with db } := by
  have reachable : IndexReachable crates archiveRoot db := .next walked.reachable stepped
  obtain ⟨more, whole, larger⟩ := grows.captionsInOrder
    walked.reachable.wellFormed.tables.captionKeys reachable.wellFormed.tables.captionKeys
  refine ⟨reachable, ?_, walked.ordered, fun startLine next => ?_, fun none => ?_⟩
  · obtain ⟨program, member, own, group⟩ := walked.indexed
    obtain ⟨later, present, same, groups⟩ := grows.program program member own
    exact ⟨later, present, same, groups.trans group⟩
  · have position := walked.position startLine next
    obtain ⟨earlier, committed, ahead⟩ := position.committed
    refine ⟨position.positive, position.captions, position.startLines, position.requests,
      position.ahead, earlier ++ more, ?_, fun line member => ?_⟩
    · rw [whole, committed, List.append_assoc]
    · rcases List.mem_append.mp member with old | new
      · exact ahead line old
      · rcases position.ahead with rfl | ⟨left, present, late⟩
        · have listed : line ∈ db.captionsInOrder programId := by
            rw [whole]
            exact List.mem_append_right _ new
          exact number_pos reachable.numbersFromOne listed
        · have less := larger line new left (by
            rw [committed]
            exact List.mem_append_left _ present)
          exact late.trans less.le
  · have ended := walked.ended none
    refine ⟨ended.captions, ended.startLines, ended.requests, ended.committed.trans ?_⟩
    rw [whole]
    exact List.prefix_append _ _

/-- A walk that goes on gets a page. -/
theorem request (walked : Walked crates archiveRoot stream recordingStartedAt programId walk)
    (accepted : validateStreamComponent crates.sanitizeFilename stream = .ok ()) {startLine : ℤ}
    (next : walk.nextStartLine = some startLine) (limit : Option ℤ) :
    ∃ response, ReadsPage (walk.db.captionsInOrder programId) startLine response ∧
      walk.request crates stream recordingStartedAt limit = some
        { db := walk.db
          nextStartLine := response.nextStartLine
          captions := walk.captions ++ response.captions
          startLines := walk.startLines ++ [startLine]
          read := walk.db } := by
  obtain ⟨program, member, rfl, group⟩ := walked.indexed
  obtain ⟨response, answered, page⟩ := getProgramCaptions_of_indexed walked.reachable accepted
    member group (walked.position startLine next).positive limit
  refine ⟨response, page, ?_⟩
  rw [CaptionWalk.request, next, Option.bind_eq_bind, Option.bind_some, answered]
  rfl

/-- The last page. -/
theorem page_last (walked : Walked crates archiveRoot stream recordingStartedAt programId walk)
    {startLine : ℤ} (next : walk.nextStartLine = some startLine)
    {response : ProgramCaptionsResponse}
    (rest : response.captions = Paging.rowsFrom CaptionLine.number startLine
      (walk.db.captionsInOrder programId)) :
    ReadAll programId
      { db := walk.db
        nextStartLine := response.nextStartLine
        captions := walk.captions ++ response.captions
        startLines := walk.startLines ++ [startLine]
        read := walk.db } := by
  have position := walked.position startLine next
  have ordered : Paging.Ordered CaptionLine.number (walk.db.captionsInOrder programId) :=
    ordered_captionsInOrder programId walked.reachable.wellFormed.tables.captionKeys
  refine ⟨?_, position.startLines_append, ?_, List.prefix_rfl⟩
  · rw [position.captions_db, rest]
    exact Paging.rowsBefore_append_rowsFrom ordered startLine
  · have requests := position.requests
    simp only [List.length_append, List.length_singleton]
    omega

/-- A page with more behind it. -/
theorem page_more (walked : Walked crates archiveRoot stream recordingStartedAt programId walk)
    {startLine : ℤ} (next : walk.nextStartLine = some startLine)
    {response : ProgramCaptionsResponse} {count : ℕ} (nonempty : 1 ≤ count)
    (captions : response.captions = (Paging.rowsFrom CaptionLine.number startLine
      (walk.db.captionsInOrder programId)).take count)
    (more : count < (Paging.rowsFrom CaptionLine.number startLine
      (walk.db.captionsInOrder programId)).length) {last : CaptionLine}
    (ends : response.captions.getLast? = some last) :
    ReadBefore programId
      { db := walk.db
        nextStartLine := response.nextStartLine
        captions := walk.captions ++ response.captions
        startLines := walk.startLines ++ [startLine]
        read := walk.db } (last.number + 1) := by
  have position := walked.position startLine next
  have ordered : Paging.Ordered CaptionLine.number (walk.db.captionsInOrder programId) :=
    ordered_captionsInOrder programId walked.reachable.wellFormed.tables.captionKeys
  rw [captions] at ends
  have advances : startLine ≤ last.number := by
    have member := List.mem_of_mem_take (List.mem_of_getLast? ends)
    simpa using (List.mem_filter.mp member).2
  have positive := position.positive
  refine ⟨by omega, ?_, ⟨position.startLines_append, ?_⟩, ?_, .inr ?_, [], ?_, nofun⟩
  · rw [position.captions_db, captions]
    exact (Paging.rowsBefore_succ ordered startLine ends).symm
  · intro earlier member
    rcases List.mem_append.mp member with before | own
    · have less := position.startLines.2 earlier before
      omega
    · rw [List.mem_singleton.mp own]
      omega
  · have requests := position.requests
    simp only [List.length_append, List.length_singleton, captions, List.length_take]
    omega
  · have left := Paging.rowsFrom_succ ordered startLine ends
    have some : Paging.rowsFrom CaptionLine.number (last.number + 1)
        (walk.db.captionsInOrder programId) ≠ [] := by
      rw [left, ne_eq, List.drop_eq_nil_iff]
      omega
    obtain ⟨line, member⟩ := List.exists_mem_of_ne_nil _ some
    obtain ⟨present, late⟩ := List.mem_filter.mp member
    exact ⟨line, present, of_decide_eq_true late⟩
  · rw [List.append_nil]

/-- Every page keeps the invariant. -/
theorem page (walked : Walked crates archiveRoot stream recordingStartedAt programId before)
    (accepted : validateStreamComponent crates.sanitizeFilename stream = .ok ())
    {limit : Option ℤ}
    (requested : before.request crates stream recordingStartedAt limit = some after) :
    Walked crates archiveRoot stream recordingStartedAt programId after := by
  cases next : before.nextStartLine with
  | none =>
      rw [CaptionWalk.request, next] at requested
      cases requested
  | some startLine =>
      obtain ⟨response, ⟨count, nonempty, captions, following⟩, answered⟩ :=
        walked.request accepted next limit
      obtain rfl := Option.some.inj (answered.symm.trans requested)
      have ordered : Paging.Ordered CaptionLine.number (before.db.captionsInOrder programId) :=
        ordered_captionsInOrder programId walked.reachable.wellFormed.tables.captionKeys
      refine ⟨walked.reachable, walked.indexed, ordered, ?_, ?_⟩
      · intro later found
        have found : response.nextStartLine = some later := found
        rw [following] at found
        split at found
        · next more =>
            obtain ⟨last, ends, rfl⟩ := Option.map_eq_some_iff.mp found
            exact walked.page_more next nonempty captions more ends
        · cases found
      · intro found
        have found : response.nextStartLine = none := found
        rw [following] at found
        apply walked.page_last next
        rw [captions]
        refine List.take_of_length_le (not_lt.mp fun more => ?_)
        rw [if_pos more, Option.map_eq_none_iff, List.getLast?_eq_none_iff, captions,
          List.take_eq_nil_iff] at found
        rcases found with zero | empty
        · omega
        · rw [empty] at more
          exact absurd more (Nat.not_lt_zero _)

end Walked

namespace Walked

/-- Every request is counted. -/
theorem requests (walked : Walked crates archiveRoot stream recordingStartedAt programId before)
    (accepted : validateStreamComponent crates.sanitizeFilename stream = .ok ())
    {limits : List (Option ℤ)}
    (ran : limits.foldlM (CaptionWalk.request crates stream recordingStartedAt) before =
      some after) :
    Walked crates archiveRoot stream recordingStartedAt programId after ∧ after.db = before.db ∧
      after.startLines.length = before.startLines.length + limits.length := by
  induction limits generalizing before with
  | nil =>
      cases ran
      exact ⟨walked, rfl, rfl⟩
  | cons limit limits ih =>
      rw [List.foldlM_cons, Option.bind_eq_bind, Option.bind_eq_some_iff] at ran
      obtain ⟨middle, first, rest⟩ := ran
      obtain ⟨still, db, counted⟩ := ih (walked.page accepted first) rest
      obtain ⟨same, one⟩ := request_eq_some first
      refine ⟨still, db.trans same, ?_⟩
      rw [counted, one, List.length_cons]
      omega

/-- There are no more requests than captions and one. -/
theorem length_startLines
    (walked : Walked crates archiveRoot stream recordingStartedAt programId walk) :
    walk.startLines.length ≤ (walk.db.captionsOf programId).length + 1 := by
  have size : (walk.db.captionsInOrder programId).length =
      (walk.db.captionsOf programId).length := by
    rw [SearchDb.captionsInOrder, List.length_map, (Sql.perm_orderBy _ _).length_eq]
  cases next : walk.nextStartLine with
  | some startLine =>
      have position := walked.position startLine next
      have visited : walk.captions.length ≤ (walk.db.captionsInOrder programId).length := by
        rw [position.captions_db]
        exact List.length_filter_le _ _
      have requests := position.requests
      omega
  | none =>
      have ended := walked.ended next
      have visited : walk.captions.length ≤ (walk.db.captionsInOrder programId).length := by
        rw [ended.captions]
        exact ended.committed.length_le
      have requests := ended.requests
      omega

/-- What the invariant says about the pages that have been read. -/
theorem visitsEveryLine
    (walked : Walked crates archiveRoot stream recordingStartedAt programId walk)
    (accepted : validateStreamComponent crates.sanitizeFilename stream = .ok ()) :
    VisitsEveryLine crates stream recordingStartedAt programId walk := by
  have increasing : Paging.Ordered CaptionLine.number walk.captions := by
    cases next : walk.nextStartLine with
    | some startLine =>
        rw [(walked.position startLine next).captions]
        exact walked.ordered.filter _
    | none =>
        rw [(walked.ended next).captions]
        exact walked.ordered
  refine ⟨increasing.imp Int.ofNat_lt.mp, fun startLine next =>
    (walked.position startLine next).captions, fun none => (walked.ended none).captions,
    ?_, fun goes limit => ?_, fun limits after ran => ?_⟩
  · cases next : walk.nextStartLine with
    | some startLine => exact (walked.position startLine next).startLines_append
    | none =>
        rw [Option.toList_none, List.append_nil]
        exact (walked.ended next).startLines
  · obtain ⟨startLine, next⟩ := Option.ne_none_iff_exists'.mp goes
    obtain ⟨response, _, answered⟩ := walked.request accepted next limit
    exact Option.isSome_iff_exists.mpr ⟨_, answered⟩
  · obtain ⟨still, db, counted⟩ := walked.requests accepted ran
    have bound := still.length_startLines
    rw [db] at bound
    omega

end Walked

/-- Caption paging visits every line once, whatever the limits, and ends, also when captions with
larger line numbers are committed between two pages. -/
theorem caption_paging_visits_every_line
    (accepted : validateStreamComponent crates.sanitizeFilename stream = .ok ())
    (reachable : Transition.Reachable (Start crates archiveRoot stream recordingStartedAt programId)
      (Transition.Restricted (Step crates archiveRoot stream recordingStartedAt)
        (Grows programId)) walk) :
    VisitsEveryLine crates stream recordingStartedAt programId walk := by
  have walked : Walked crates archiveRoot stream recordingStartedAt programId walk := by
    refine reachable.invariant (fun _ started => .start started) ?_
    rintro before after _ walked ⟨stepped, grows⟩
    cases stepped with
    | commit db stepped => exact walked.commit stepped grows
    | page limit after requested => exact walked.page accepted requested
  exact walked.visitsEveryLine accepted

/-- Requests meet the condition on commits. -/
theorem reachable_request {limit : Option ℤ}
    (reachable : Transition.Reachable (Start crates archiveRoot stream recordingStartedAt programId)
      (Transition.Restricted (Step crates archiveRoot stream recordingStartedAt)
        (Grows programId)) before)
    (requested : before.request crates stream recordingStartedAt limit = some after) :
    Transition.Reachable (Start crates archiveRoot stream recordingStartedAt programId)
      (Transition.Restricted (Step crates archiveRoot stream recordingStartedAt)
        (Grows programId)) after := by
  have same := (request_eq_some requested).1
  exact reachable.next ⟨.page limit after requested,
    .of_eq (congrArg SearchDb.programs same) (congrArg SearchDb.captionLines same)⟩

end CaptionWalk

namespace Sample

/-- A file with two captions that gets a third one. -/
def thirdCaption : Except String (SearchDb × SearchDb) := do
  let content := newsFile ++ lineBytes otherCaptionLine
  let first ← ingestFile pageCrates "data/archive" .migrated smallPath (access content)
  let second ← ingestFile pageCrates "data/archive" first smallPath
    (access (content ++ lineBytes captionLine))
  pure (first, second)

/-- Before the first request. -/
def walkStart (db : SearchDb) : CaptionWalk := ⟨db, some 1, [], [], db⟩

/-- A page of one caption, the commit, and the rest. -/
def walkBetween (states : SearchDb × SearchDb) : Option (CaptionWalk × CaptionWalk) := do
  let first ← (walkStart states.1).request pageCrates "nhk" "2026-07-01_12-00-01" (some 1)
  let last ← { first with db := states.2 }.request pageCrates "nhk" "2026-07-01_12-00-01" none
  pure (first, last)

/-- The texts of a walk and where it stands. -/
def walkView (walk : CaptionWalk) : List String × Option ℤ :=
  (walk.captions.map CaptionLine.text, walk.nextStartLine)

end Sample

/-- One caption is read, another one is committed, and the rest is read. -/
theorem CaptionWalk.caption_paging_visits_every_line_sample : ∃ walk : CaptionWalk,
    Sample.walkView walk = (["hello", "bye", "hello"], none) ∧
      VisitsEveryLine Sample.pageCrates "nhk" "2026-07-01_12-00-01" 1 walk := by
  have evaluates : Sample.thirdCaption.toOption.map (fun states =>
      (decide (states.1.programs.map (fun program => (program.id, program.path, program.group)) =
          [(1, Sample.smallPath, "nhk", "2026-07-01_12-00-01")]),
        (Sample.walkBetween states).map fun walks => Sample.walkView walks.2)) =
      some (true, some (["hello", "bye", "hello"], none)) := by
    decide +kernel
  obtain ⟨⟨first, second⟩, ran, views⟩ := exists_ok_of_toOption_map evaluates
  obtain ⟨middle, indexed, ran⟩ := exists_ok_of_bind ran
  obtain ⟨last, grown, ran⟩ := exists_ok_of_bind ran
  cases ran
  obtain ⟨programs, walked⟩ := Prod.mk.inj views
  obtain ⟨program, alone, same⟩ := List.map_eq_singleton_iff.mp (of_decide_eq_true programs)
  obtain ⟨id, same⟩ := Prod.mk.inj same
  obtain ⟨path, group⟩ := Prod.mk.inj same
  obtain ⟨⟨page, walk⟩, requested, view⟩ := Option.map_eq_some_iff.mp walked
  obtain ⟨_, firstPage, requested⟩ := Option.bind_eq_some_iff.mp requested
  obtain ⟨_, lastPage, requested⟩ := Option.bind_eq_some_iff.mp requested
  cases requested
  have member : program ∈ first.programs := alone.symm ▸ List.mem_singleton_self program
  have reachable : IndexReachable Sample.pageCrates "data/archive" first :=
    .next (.initial rfl) (.ingest _ _ indexed)
  have start : Start Sample.pageCrates "data/archive" "nhk" "2026-07-01_12-00-01" 1
      (Sample.walkStart first) :=
    ⟨reachable, ⟨program, member, id, group⟩, rfl, rfl, rfl, rfl⟩
  have afterPage := CaptionWalk.reachable_request (Transition.Reachable.initial start) firstPage
  have db : page.db = first := (request_eq_some firstPage).1
  have grows : Grows 1 page { page with db := second } := by
    have grown : ingestFile Sample.pageCrates "data/archive" first program.path _ = .ok second :=
      path ▸ grown
    rw [Grows, db, ← id]
    exact captionsGrow_ingestFile reachable.wellFormed member grown
  have afterCommit := afterPage.next ⟨.commit second (db ▸ .ingest _ _ grown), grows⟩
  have done := CaptionWalk.reachable_request afterCommit lastPage
  exact ⟨walk, view, caption_paging_visits_every_line (by decide +kernel) done⟩

end AribcapDb
