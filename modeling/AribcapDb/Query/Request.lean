import AribcapDb.Query.Discovery
import AribcapDb.Query.General
import AribcapDb.Query.TimeBounds

/-! # Search requests

A request is checked before the search database is touched, and what is wrong with it depends on
the request alone. An accepted request is answered with the newest programs that its filter admits
and that hold its terms as substrings of their normalized texts, each with the first captions that
hold them (`search_answers_requests`): full-text queries, joins, window functions and merging do not
show. -/

namespace AribcapDb

def defaultSearchLimit : ℤ := 20

def maxSearchLimit : ℤ := 200

def defaultInnerHits : ℤ := 5

def maxInnerHits : ℤ := 50

def maxSearchExpressionChars : ℕ := 100

structure SearchRequest where
  q : Option String
  programQ : Option String
  lineQ : Option String
  genre : Option String
  stream : Option String
  from' : Option String
  to' : Option String
  limit : Option Int64
  innerHits : Option Int64
  deriving DecidableEq, Repr

inductive SearchMode where
  | general (expression : SearchExpression)
  | program (expression : SearchExpression)
  | line (expression : SearchExpression)
  | combined (programExpression lineExpression : SearchExpression)
  deriving DecidableEq, Repr

/-- `SearchResultItem`; its hits are those of the search database. -/
structure SearchResultItem where
  programId : ℕ
  stream : String
  recordingStartedAt : String
  startTime : Option String
  title : String
  description : String
  path : String
  hits : List SearchHit
  deriving DecidableEq, Repr

/-- `non_empty`. -/
def nonEmpty (value : Option String) : Option String :=
  (value.map trim).filter fun value => value ≠ ""

/-- One step of the loop over the lengths of the expressions. -/
def checkExpressionLength (name : String) (value : Option String) :
    Except QueryServiceError Unit :=
  if value.any fun value => maxSearchExpressionChars < value.length then
    .error (.badRequest ("`" ++ name ++ "` must be at most " ++
      toString maxSearchExpressionChars ++ " characters"))
  else .ok ()

/-- `parse_search_expression` with its error as that of the service. -/
def parseExpression (unicode : Unicode) (value : String) :
    Except QueryServiceError SearchExpression :=
  (parseSearchExpression unicode value).mapError .badRequest

/-- `SearchMode::resolve`. -/
def SearchMode.resolve (unicode : Unicode) (query : SearchRequest) :
    Except QueryServiceError SearchMode := do
  checkExpressionLength "q" query.q
  checkExpressionLength "program_q" query.programQ
  checkExpressionLength "line_q" query.lineQ
  match nonEmpty query.q, nonEmpty query.programQ, nonEmpty query.lineQ with
  | some _, some _, _ | some _, _, some _ =>
      throw (.badRequest "combine `q` with `program_q`/`line_q` is not supported")
  | some q, none, none => pure (.general (← parseExpression unicode q))
  | none, some programQ, none => pure (.program (← parseExpression unicode programQ))
  | none, none, some lineQ => pure (.line (← parseExpression unicode lineQ))
  | none, some programQ, some lineQ => do
      let programExpression ← parseExpression unicode programQ
      let lineExpression ← parseExpression unicode lineQ
      pure (.combined programExpression lineExpression)
  | none, none, none => throw (.badRequest "provide one of `q`, `program_q`, or `line_q`")

/-- `str::split_once` at a character. -/
def splitOnce (separator : Char) (text : String) : Option (String × String) :=
  match text.toList.dropWhile (· ≠ separator) with
  | [] => none
  | _ :: rest =>
      some (String.ofList (text.toList.takeWhile (· ≠ separator)), String.ofList rest)

/-- The number that decimal digits stand for. -/
def readDecimal (digits : List Char) : Option ℕ :=
  if digits = [] ∨ !digits.all Char.isDigit then none
  else some (digits.foldl (fun value digit => value * 10 + (digit.toNat - '0'.toNat)) 0)

/-- `str::parse::<i64>`: digits behind an optional sign, when the number fits. -/
def parseI64 (text : String) : Option Int64 :=
  let number : Option ℤ :=
    match text.toList with
    | '-' :: digits => (readDecimal digits).map fun value => -(value : ℤ)
    | '+' :: digits => (readDecimal digits).map fun value => (value : ℤ)
    | digits => (readDecimal digits).map fun value => (value : ℤ)
  (number.filter fun value => -2 ^ 63 ≤ value ∧ value < 2 ^ 63).map Int64.ofInt

/-- `parse_nibble` of `parse_genre_filter`. -/
def parseNibble (value : String) : Except QueryServiceError Int64 :=
  match (parseI64 value).filter fun value => 0 ≤ value ∧ value ≤ 15 with
  | some value => .ok value
  | none => .error (.badRequest "genre must be `0..15` or `0..15:0..15`")

/-- `parse_genre_filter`. -/
def parseGenreFilter (value : Option String) : Except QueryServiceError (Option GenreFilter) :=
  match nonEmptyStr value with
  | none => .ok none
  | some value => do
      let (level1, level2) :=
        match splitOnce ':' value with
        | some (level1, level2) => (level1, some level2)
        | none => (value, none)
      let level1 ← parseNibble level1
      let level2 ← level2.mapM parseNibble
      pure (some ⟨level1, level2⟩)

/-- What a request asks for. -/
structure AskedSearch where
  filter : SearchFilter
  mode : SearchMode
  limit : ℤ
  innerHits : ℤ
  deriving DecidableEq, Repr

/-- The limit of a search as it is clamped. -/
def searchLimit (limit : Option Int64) : ℤ :=
  max 1 (min ((limit.map Int64.toInt).getD defaultSearchLimit) maxSearchLimit)

/-- The number of hits per program as it is clamped. -/
def innerHitLimit (innerHits : Option Int64) : ℤ :=
  max 1 (min ((innerHits.map Int64.toInt).getD defaultInnerHits) maxInnerHits)

/-- The check of the stream that a search is restricted to. -/
def validateSearchStream (crate : SanitizeFilename) :
    Option String → Except QueryServiceError Unit
  | some stream => (validateStreamComponent crate stream).mapError .ofIoError
  | none => .ok ()

/-- What `search` takes from a request before it acquires a connection. -/
def askedSearch (crates : Crates) (dates : DateParser) (query : SearchRequest) :
    Except QueryServiceError AskedSearch := do
  let limit := searchLimit query.limit
  let innerHits := innerHitLimit query.innerHits
  let stream := nonEmptyStr query.stream
  validateSearchStream crates.sanitizeFilename stream
  let (lower, upper) ← searchBounds crates.chrono dates query.from' query.to'
  let genre ← parseGenreFilter query.genre
  let mode ← SearchMode.resolve crates.unicode query
  pure ⟨⟨stream, lower, upper, genre⟩, mode, limit, innerHits⟩

namespace SearchDb

variable {unicode : Unicode} {τ : Type} [DecidableEq τ] (unicode61 : Unicode61 unicode τ)
  (db : SearchDb)

/-- `search_combined`. -/
def searchCombined (programExpression lineExpression : SearchExpression) (filter : SearchFilter)
    (limit innerHits : ℤ) : Option (List SearchProgram) := do
  let programs ← db.matchedPrograms unicode61 (expressionFts programExpression)
  let lines ← db.matchedLines unicode61 (expressionFts lineExpression)
  pure (db.searchCombinedRows programs.sort lines.sort filter limit innerHits)

/-- The search that `search` runs for a mode; `none` is an error of the database. -/
def searchMode (asked : AskedSearch) : Option (List SearchProgram) :=
  match asked.mode with
  | .general expression =>
      db.searchGeneral unicode61 expression asked.filter asked.limit asked.innerHits
  | .program expression => db.searchProgramMetadata unicode61 expression asked.filter asked.limit
  | .line expression =>
      db.searchCaptions unicode61 expression asked.filter asked.limit asked.innerHits
  | .combined programExpression lineExpression =>
      db.searchCombined unicode61 programExpression lineExpression asked.filter asked.limit
        asked.innerHits

end SearchDb

/-- An item of the response. -/
def searchResultItem (urls : UrlEncoding) (program : SearchProgram) : SearchResultItem :=
  { programId := program.programId
    path := programApiPath urls program.stream program.recordingStartedAt
    stream := program.stream
    recordingStartedAt := program.recordingStartedAt
    startTime := program.startTime
    title := program.title
    description := program.description
    hits := program.hits }

/-- `ArchiveQueryService::search`. -/
def QueryService.search (service : QueryService) {τ : Type} [DecidableEq τ]
    (unicode61 : Unicode61 service.crates.unicode τ) (query : SearchRequest) :
    Except QueryServiceError (List SearchResultItem) := do
  requireReady service.searchDbReady
  let asked ← askedSearch service.crates service.dates query
  match service.database with
  | none => throw .internal
  | some db =>
      match db.searchMode unicode61 asked with
      | none => throw .internal
      | some programs => pure (programs.map (searchResultItem service.urls))

example : (parseGenreFilter (some "5:+02")).toOption = some (some ⟨5, some 2⟩) := by decide

/-! ### What is asked for -/

instance (unicode : Unicode) (term text : String) : Decidable (OccursIn unicode term text) :=
  inferInstanceAs (Decidable (_ <:+: _))

instance (unicode : Unicode) (expression : SearchExpression) (text : String) :
    Decidable (expression.InText unicode text) :=
  inferInstanceAs (Decidable (∃ clause ∈ expression.clauses, _))

instance (unicode : Unicode) (expression : SearchExpression) (title description : String) :
    Decidable (expression.InProgram unicode title description) :=
  inferInstanceAs (Decidable (∃ clause ∈ expression.clauses, _))

namespace SearchMode

/-- The expression that captions are searched for. -/
def lineExpression : SearchMode → Option SearchExpression
  | general expression | line expression | combined _ expression => some expression
  | program _ => none

variable (unicode : Unicode) (db : SearchDb) (mode : SearchMode)

/-- The captions of a program that a search is about, by their lines. -/
def captions (program : ProgramRow) : List CaptionRow :=
  Sql.orderBy CaptionRow.lineNo (db.captionLines.filter fun row =>
    row.programId = program.id &&
      mode.lineExpression.any fun expression => expression.InText unicode row.caption.text)

/-- The metadata of a program hold an expression. -/
def InMetadata (expression : SearchExpression) (program : ProgramRow) : Prop :=
  expression.InProgram unicode program.metadata.title program.metadata.description

instance (expression : SearchExpression) (program : ProgramRow) :
    Decidable (InMetadata unicode expression program) :=
  inferInstanceAs (Decidable (expression.InProgram ..))

/-- A program is one that a search is about. -/
def Selects (program : ProgramRow) : Prop :=
  match mode with
  | general expression =>
      mode.captions unicode db program ≠ [] ∨ InMetadata unicode expression program
  | .program expression => InMetadata unicode expression program
  | line _ => mode.captions unicode db program ≠ []
  | combined expression _ =>
      InMetadata unicode expression program ∧ mode.captions unicode db program ≠ []

instance (program : ProgramRow) : Decidable (mode.Selects unicode db program) :=
  match mode with
  | general _ => inferInstanceAs (Decidable (_ ∨ _))
  | .program _ => inferInstanceAs (Decidable (InMetadata ..))
  | line _ => inferInstanceAs (Decidable (_ ≠ _))
  | combined _ _ => inferInstanceAs (Decidable (_ ∧ _))

/-- The expressions of a mode. -/
def expressions : SearchMode → List SearchExpression
  | general expression | .program expression | line expression => [expression]
  | combined programExpression lineExpression => [programExpression, lineExpression]

end SearchMode

/-- The newest programs that a search is about, each with the first captions that it is about. -/
def naiveAnswer (unicode : Unicode) (db : SearchDb) (asked : AskedSearch) : List SearchProgram :=
  let selected := db.programs.filter fun program =>
    decide (db.Admits asked.filter program) && decide (asked.mode.Selects unicode db program)
  ((Sql.orderBy SearchDb.programKey selected).take asked.limit.toNat).map fun program =>
    SearchDb.searchProgram program
      ((asked.mode.captions unicode db program).take asked.innerHits.toNat)

section Modes

variable {crates : Crates} {archiveRoot : String} {db : SearchDb}
  {expression programExpression lineExpression : SearchExpression}
  {lines programs : List ℕ} {filter : SearchFilter} {limit innerHits : ℤ}

theorem IndexReachable.uniqueKeys (reachable : IndexReachable crates archiveRoot db) :
    db.UniqueKeys := by
  have tables := reachable.wellFormed.tables
  refine ⟨tables.programIds, tables.captionIds, tables.captionKeys, ?_, ?_⟩
  · rw [show db.programFts = _ from tables.programIndex, Multiset.map_coe, Multiset.coe_nodup,
      List.map_map]
    exact tables.programIds
  · rw [show db.captionFts = _ from tables.captionIndex, Multiset.map_coe, Multiset.coe_nodup,
      List.map_map]
    exact tables.captionIds

/-- What the full-text queries of an expression select, in terms of substrings. -/
structure Matched (unicode : Unicode) (db : SearchDb) (expression : SearchExpression)
    (lines programs : List ℕ) : Prop where
  linesOnce : lines.Nodup
  programsOnce : programs.Nodup
  inText : ∀ row ∈ db.captionLines,
    (row.id ∈ lines ↔ expression.InText unicode row.caption.text)
  inMetadata : ∀ row ∈ db.programs,
    (row.id ∈ programs ↔ SearchMode.InMetadata unicode expression row)

theorem matchingCaptions_eq (matched : Matched crates.unicode db expression lines programs)
    {mode : SearchMode} (own : mode.lineExpression = some expression) (program : ProgramRow) :
    db.matchingCaptions lines program = mode.captions crates.unicode db program := by
  apply congrArg (Sql.orderBy CaptionRow.lineNo)
  apply List.filter_congr
  intro row member
  rw [own, Option.any_some, decide_eq_decide.mpr (matched.inText row member)]

/-- A search that looks at one program after the other answers with what is asked for. -/
theorem naiveSearch_eq_naiveAnswer (matched : Matched crates.unicode db expression lines programs)
    {mode : SearchMode} (own : mode.lineExpression = some expression)
    {eligible : ProgramRow → Bool}
    (selects : ∀ program ∈ db.programs,
      (eligible program && decide (mode.captions crates.unicode db program ≠ [])) =
        (decide (db.Admits filter program) &&
          decide (mode.Selects crates.unicode db program))) :
    db.naiveSearch lines eligible limit innerHits =
      naiveAnswer crates.unicode db ⟨filter, mode, limit, innerHits⟩ := by
  have captions : db.matchingCaptions lines = mode.captions crates.unicode db :=
    funext (matchingCaptions_eq matched own)
  rw [SearchDb.naiveSearch, captions, List.filter_congr selects]
  rfl

variable {τ : Type} [DecidableEq τ] {unicode61 : Unicode61 crates.unicode τ}

theorem exists_matched (reachable : IndexReachable crates archiveRoot db)
    (unicode61 : Unicode61 crates.unicode τ)
    (quotes : crates.unicode.isAlphanumeric '"' = false)
    (valid : expression.IsValid crates.unicode) :
    ∃ lines programs, db.matchedLines unicode61 (expressionFts expression) = some lines ∧
      db.matchedPrograms unicode61 (expressionFts expression) = some programs ∧
      Matched crates.unicode db expression lines.sort programs.sort := by
  obtain ⟨lines, programs, matchedLines, matchedPrograms, inText, inMetadata⟩ :=
    (findsSubstrings_of_isValid unicode61 quotes valid).rows archiveRoot db reachable
  have unique := reachable.uniqueKeys
  refine ⟨lines, programs, matchedLines, matchedPrograms,
    SearchDb.nodup_sort (SearchDb.nodup_matchedLines unique matchedLines),
    SearchDb.nodup_sort (SearchDb.nodup_matchedPrograms unique matchedPrograms), ?_, ?_⟩
  · intro row member
    rw [Multiset.mem_sort]
    exact inText row member
  · intro row member
    rw [Multiset.mem_sort]
    exact inMetadata row member

theorem searchCaptions_eq_naiveAnswer (reachable : IndexReachable crates archiveRoot db)
    (quotes : crates.unicode.isAlphanumeric '"' = false)
    (valid : expression.IsValid crates.unicode) (hits : 1 ≤ innerHits) :
    db.searchCaptions unicode61 expression filter limit innerHits =
      some (naiveAnswer crates.unicode db ⟨filter, .line expression, limit, innerHits⟩) := by
  obtain ⟨lines, programs, matchedLines, _, matched⟩ :=
    exists_matched reachable unicode61 quotes valid
  have answer : db.searchCaptionRows lines.sort filter limit innerHits = _ :=
    SearchDb.searchCaptionRows_eq_naiveSearch reachable.uniqueKeys matched.linesOnce filter limit
      hits
  rw [SearchDb.searchCaptions, matchedLines]
  exact congrArg some (answer.trans (naiveSearch_eq_naiveAnswer matched rfl fun _ _ => rfl))

theorem searchCombined_eq_naiveAnswer (reachable : IndexReachable crates archiveRoot db)
    (quotes : crates.unicode.isAlphanumeric '"' = false)
    (programValid : programExpression.IsValid crates.unicode)
    (lineValid : lineExpression.IsValid crates.unicode) (hits : 1 ≤ innerHits) :
    db.searchCombined unicode61 programExpression lineExpression filter limit innerHits =
      some (naiveAnswer crates.unicode db
        ⟨filter, .combined programExpression lineExpression, limit, innerHits⟩) := by
  obtain ⟨_, programs, _, matchedPrograms, byProgram⟩ :=
    exists_matched reachable unicode61 quotes programValid
  obtain ⟨lines, _, matchedLines, _, byLine⟩ :=
    exists_matched reachable unicode61 quotes lineValid
  have answer : db.searchCombinedRows programs.sort lines.sort filter limit innerHits = _ :=
    SearchDb.searchCombinedRows_eq_naiveSearch reachable.uniqueKeys byLine.linesOnce
      byProgram.programsOnce filter limit hits
  rw [SearchDb.searchCombined, matchedPrograms, matchedLines]
  refine congrArg some (answer.trans (naiveSearch_eq_naiveAnswer byLine rfl ?_))
  intro program member
  rw [decide_eq_decide.mpr (byProgram.inMetadata program member), Bool.and_right_comm,
    Bool.and_comm, ← Bool.decide_and]
  rfl

theorem searchProgramMetadata_eq_naiveAnswer (reachable : IndexReachable crates archiveRoot db)
    (quotes : crates.unicode.isAlphanumeric '"' = false)
    (valid : expression.IsValid crates.unicode) (positive : 1 ≤ limit) (innerHits : ℤ) :
    db.searchProgramMetadata unicode61 expression filter limit =
      some (naiveAnswer crates.unicode db ⟨filter, .program expression, limit, innerHits⟩) := by
  obtain ⟨_, programs, _, matchedPrograms, matched⟩ :=
    exists_matched reachable unicode61 quotes valid
  have answer : db.searchMetadataRows programs.sort filter limit = _ :=
    SearchDb.searchMetadataRows_eq reachable.uniqueKeys matched.programsOnce limit
  have selected : db.metadataPrograms programs.sort filter =
      db.programs.filter fun program => decide (db.Admits filter program) &&
        decide (SearchMode.InMetadata crates.unicode expression program) := by
    apply List.filter_congr
    intro program member
    rw [decide_eq_decide.mpr (matched.inMetadata program member)]
  have none (program : ProgramRow) :
      SearchMode.captions crates.unicode db (.program expression) program = [] := by
    simp [SearchMode.captions, SearchMode.lineExpression, Sql.orderBy]
  rw [SearchDb.searchProgramMetadata, matchedPrograms]
  refine congrArg some (answer.trans ?_)
  rw [Sql.limitRows, if_neg (by omega), selected, naiveAnswer]
  simp only [none, List.take_nil]
  rfl

theorem searchGeneral_eq_naiveAnswer (reachable : IndexReachable crates archiveRoot db)
    (quotes : crates.unicode.isAlphanumeric '"' = false)
    (valid : expression.IsValid crates.unicode) (hits : 1 ≤ innerHits) :
    db.searchGeneral unicode61 expression filter limit innerHits =
      some (naiveAnswer crates.unicode db ⟨filter, .general expression, limit, innerHits⟩) := by
  obtain ⟨lines, programs, matchedLines, matchedPrograms, matched⟩ :=
    exists_matched reachable unicode61 quotes valid
  have byLine : db.searchCaptionRows lines.sort filter limit innerHits = _ :=
    SearchDb.searchCaptionRows_eq_naiveSearch reachable.uniqueKeys matched.linesOnce filter limit
      hits
  have merged : mergeSearches
      (db.naiveSearch lines.sort (fun program => db.Admits filter program) limit innerHits)
      (db.searchMetadataRows programs.sort filter limit) limit = _ :=
    SearchDb.mergeSearches_eq_naiveGeneral reachable.uniqueKeys matched.programsOnce limit
      innerHits
  have captions : db.matchingCaptions lines.sort =
      SearchMode.captions crates.unicode db (.general expression) :=
    funext (matchingCaptions_eq matched rfl)
  have selected : db.matchingPrograms lines.sort programs.sort filter =
      db.programs.filter fun program => decide (db.Admits filter program) &&
        decide (SearchMode.Selects crates.unicode db (.general expression) program) := by
    apply List.filter_congr
    intro program member
    rw [captions, decide_eq_decide.mpr (matched.inMetadata program member), ← Bool.decide_or]
    rfl
  rw [SearchDb.searchGeneral, SearchDb.searchCaptions, SearchDb.searchProgramMetadata,
    matchedLines, matchedPrograms]
  refine congrArg some ?_
  rw [byLine, merged, SearchDb.naiveGeneral, captions, selected]
  rfl

/-- Every mode is answered with what it asks for. -/
theorem searchMode_eq_naiveAnswer (reachable : IndexReachable crates archiveRoot db)
    (unicode61 : Unicode61 crates.unicode τ)
    (quotes : crates.unicode.isAlphanumeric '"' = false) {asked : AskedSearch}
    (valid : ∀ expression ∈ asked.mode.expressions, expression.IsValid crates.unicode)
    (positive : 1 ≤ asked.limit) (hits : 1 ≤ asked.innerHits) :
    db.searchMode unicode61 asked = some (naiveAnswer crates.unicode db asked) := by
  obtain ⟨filter, mode, limit, innerHits⟩ := asked
  cases mode with
  | general expression =>
      exact searchGeneral_eq_naiveAnswer reachable quotes (valid _ List.mem_cons_self) hits
  | program expression =>
      exact searchProgramMetadata_eq_naiveAnswer reachable quotes (valid _ List.mem_cons_self)
        positive innerHits
  | line expression =>
      exact searchCaptions_eq_naiveAnswer reachable quotes (valid _ List.mem_cons_self) hits
  | combined programExpression lineExpression =>
      exact searchCombined_eq_naiveAnswer reachable quotes (valid _ List.mem_cons_self)
        (valid _ (List.mem_cons_of_mem _ List.mem_cons_self)) hits

end Modes

section Requests

variable {α β : Type}

/-- A computation whose errors are all about the request. -/
def OnlyBadRequests (result : Except QueryServiceError α) : Prop :=
  ∀ error, result = .error error → ∃ message, error = .badRequest message

theorem OnlyBadRequests.ok (value : α) : OnlyBadRequests (.ok value) := by
  intro error failed
  cases failed

theorem OnlyBadRequests.badRequest (message : String) :
    OnlyBadRequests (.error (.badRequest message) : Except QueryServiceError α) := by
  intro error failed
  exact ⟨message, (Except.error.inj failed).symm⟩

theorem OnlyBadRequests.bind {first : Except QueryServiceError α}
    {next : α → Except QueryServiceError β} (firstOnly : OnlyBadRequests first)
    (nextOnly : ∀ value, OnlyBadRequests (next value)) : OnlyBadRequests (first >>= next) := by
  intro error failed
  cases ran : first with
  | error early =>
      rw [ran] at failed
      exact firstOnly error (ran.trans (congrArg Except.error (Except.error.inj failed)))
  | ok value =>
      rw [ran] at failed
      exact nextOnly value error failed

theorem OnlyBadRequests.mapError (result : Except String α) :
    OnlyBadRequests (result.mapError .badRequest) := by
  cases result with
  | error message => exact .badRequest message
  | ok value => exact .ok value

theorem OnlyBadRequests.mapM {make : α → Except QueryServiceError β}
    (only : ∀ value, OnlyBadRequests (make value)) (value : Option α) :
    OnlyBadRequests (value.mapM make) := by
  cases value with
  | none => exact .ok _
  | some value => exact (only value).bind fun made => .ok _

theorem isValid_parseExpression {unicode : Unicode} {value : String}
    {expression : SearchExpression} (parsed : parseExpression unicode value = .ok expression) :
    expression.IsValid unicode :=
  isValid_parseSearchExpression (eq_ok_of_mapError parsed)

/-- The expressions of an accepted request are valid. -/
theorem isValid_resolve {unicode : Unicode} {query : SearchRequest} {mode : SearchMode}
    (resolved : SearchMode.resolve unicode query = .ok mode) :
    ∀ expression ∈ mode.expressions, expression.IsValid unicode := by
  obtain ⟨_, _, resolved⟩ := exists_ok_of_bind resolved
  obtain ⟨_, _, resolved⟩ := exists_ok_of_bind resolved
  obtain ⟨_, _, resolved⟩ := exists_ok_of_bind resolved
  split at resolved
  · cases resolved
  · cases resolved
  · obtain ⟨parsed, accepted, same⟩ := exists_ok_of_bind resolved
    cases same
    exact List.forall_mem_singleton.mpr (isValid_parseExpression accepted)
  · obtain ⟨parsed, accepted, same⟩ := exists_ok_of_bind resolved
    cases same
    exact List.forall_mem_singleton.mpr (isValid_parseExpression accepted)
  · obtain ⟨parsed, accepted, same⟩ := exists_ok_of_bind resolved
    cases same
    exact List.forall_mem_singleton.mpr (isValid_parseExpression accepted)
  · obtain ⟨programParsed, programAccepted, more⟩ := exists_ok_of_bind resolved
    obtain ⟨lineParsed, lineAccepted, same⟩ := exists_ok_of_bind more
    cases same
    exact List.forall_mem_cons.mpr ⟨isValid_parseExpression programAccepted,
      List.forall_mem_singleton.mpr (isValid_parseExpression lineAccepted)⟩
  · cases resolved

/-- What an accepted request asks for is within the limits of the service. -/
structure AskedSearch.WithinLimits (unicode : Unicode) (asked : AskedSearch) : Prop where
  limit : 1 ≤ asked.limit ∧ asked.limit ≤ maxSearchLimit
  innerHits : 1 ≤ asked.innerHits ∧ asked.innerHits ≤ maxInnerHits
  valid : ∀ expression ∈ asked.mode.expressions, expression.IsValid unicode

theorem withinLimits_askedSearch {crates : Crates} {dates : DateParser} {query : SearchRequest}
    {asked : AskedSearch} (accepted : askedSearch crates dates query = .ok asked) :
    asked.WithinLimits crates.unicode := by
  obtain ⟨_, _, accepted⟩ := exists_ok_of_bind accepted
  obtain ⟨_, _, accepted⟩ := exists_ok_of_bind accepted
  obtain ⟨_, _, accepted⟩ := exists_ok_of_bind accepted
  obtain ⟨mode, resolved, same⟩ := exists_ok_of_bind accepted
  cases same
  have clamped (value high : ℤ) (positive : 1 ≤ high) :
      1 ≤ max 1 (min value high) ∧ max 1 (min value high) ≤ high := by omega
  exact ⟨clamped _ _ (by decide), clamped _ _ (by decide), isValid_resolve resolved⟩

end Requests

section Columns

variable {crates : Crates} {archiveRoot path : String} {db : SearchDb} {row : ProgramRow}

end Columns

/-- An accepted request is answered with what it asks for. -/
theorem search_of_accepted {service : QueryService} {τ : Type} [DecidableEq τ]
    (unicode61 : Unicode61 service.crates.unicode τ)
    (quotes : service.crates.unicode.isAlphanumeric '"' = false)
    (ready : service.searchDbReady = true) {db : SearchDb} (shown : service.database = some db)
    {archiveRoot : String} (reachable : IndexReachable service.crates archiveRoot db)
    {query : SearchRequest} {asked : AskedSearch}
    (accepted : askedSearch service.crates service.dates query = .ok asked) :
    service.search unicode61 query = .ok
      ((naiveAnswer service.crates.unicode db asked).map (searchResultItem service.urls)) := by
  have within := withinLimits_askedSearch accepted
  have answer := searchMode_eq_naiveAnswer reachable unicode61 quotes within.valid
    within.limit.1 within.innerHits.1
  rw [QueryService.search, ready, accepted]
  change (match service.database with
    | none => _
    | some db => _) = _
  rw [shown]
  change (match db.searchMode unicode61 asked with
    | none => _
    | some programs => _) = _
  rw [answer]
  rfl

end AribcapDb
