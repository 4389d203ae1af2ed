import AribcapDb.Foundation.QueryLanguage
import AribcapDb.Search.Invariant

/-! # Search expressions

A search expression is read as clauses of normalized terms and written as a full-text query, in
which every term is a quoted phrase with a space between any two characters. The index holds
normalized texts in the same form, with one token for each character, so the query matches the
rows in which the terms of some clause occur as substrings (`search_is_substring_logic`). -/

namespace AribcapDb

/-- OR-separated clauses of AND-separated normalized terms. -/
structure SearchExpression where
  clauses : List (List String)
  deriving DecidableEq, Repr

/-- `str::split_whitespace`. -/
def splitWhitespace (text : String) : List String :=
  ((text.toList.splitOnP isWhitespace).filter (· ≠ [])).map String.ofList

/-- `str::eq_ignore_ascii_case`. -/
def eqIgnoreAsciiCase (left right : String) : Bool :=
  left.toList.map Char.toLower = right.toList.map Char.toLower

/-- The variables of the loop in `parse_search_expression`. -/
structure ExpressionState where
  clauses : List (List String)
  clause : List String
  termParts : List String
  expectingTerm : Bool

/-- `flush_term`. -/
def flushTerm (unicode : Unicode) (parts : List String) : Option String :=
  if parts = [] then none
  else
    let normalized := normalizeSearchText unicode (String.join parts)
    if normalized = "" then none else some normalized

/-- One token of a search expression. -/
def readToken (unicode : Unicode) (state : ExpressionState) (token : String) :
    Except String ExpressionState :=
  if eqIgnoreAsciiCase token "AND" then
    if state.expectingTerm then .error "expected a search term"
    else
      match flushTerm unicode state.termParts with
      | none => .error "query must contain an alphanumeric search term"
      | some term =>
          .ok { state with
            clause := state.clause ++ [term], termParts := [], expectingTerm := true }
  else if eqIgnoreAsciiCase token "OR" then
    if state.expectingTerm then .error "expected a search term"
    else
      match flushTerm unicode state.termParts with
      | none => .error "query must contain an alphanumeric search term"
      | some term =>
          .ok
            { clauses := state.clauses ++ [state.clause ++ [term]]
              clause := [], termParts := [], expectingTerm := true }
  else .ok { state with termParts := state.termParts ++ [token], expectingTerm := false }

/-- `parse_search_expression`. -/
def parseSearchExpression (unicode : Unicode) (input : String) :
    Except String SearchExpression := do
  let state ← (splitWhitespace input).foldlM (readToken unicode) ⟨[], [], [], true⟩
  if state.expectingTerm then
    if state.clauses = [] ∧ state.clause = [] then
      throw "query must not be empty after normalization"
    else throw "expected a search term after operator"
  else
    match flushTerm unicode state.termParts with
    | none => throw "query must contain an alphanumeric search term"
    | some term => pure ⟨state.clauses ++ [state.clause ++ [term]]⟩

/-- The characters of a text with a space between any two. -/
def spaced (chars : List Char) : List Char := [' '].intercalate (chars.map ([·]))

/-- `fts_phrase`. -/
def ftsPhrase (term : String) : String :=
  "\"" ++ " ".intercalate (term.toList.map String.singleton) ++ "\""

/-- `expression_fts`. -/
def expressionFts (expression : SearchExpression) : String :=
  " OR ".intercalate (expression.clauses.map fun clause =>
    let query := " AND ".intercalate (clause.map ftsPhrase)
    if 1 < clause.length then "(" ++ query ++ ")" else query)

/-- A term as the parser makes it. -/
def IsSearchTerm (unicode : Unicode) (term : String) : Prop :=
  term ≠ "" ∧ ∃ input, term = normalizeSearchText unicode input

/-- What the parser accepts has terms in every clause, and clauses. -/
structure SearchExpression.IsValid (unicode : Unicode) (expression : SearchExpression) : Prop where
  clauses : expression.clauses ≠ []
  terms : ∀ clause ∈ expression.clauses, clause ≠ [] ∧
    ∀ term ∈ clause, IsSearchTerm unicode term

section Parse

variable {unicode : Unicode}

theorem isSearchTerm_flushTerm {parts : List String} {term : String}
    (flushed : flushTerm unicode parts = some term) : IsSearchTerm unicode term := by
  unfold flushTerm at flushed
  dsimp only at flushed
  split at flushed
  · cases flushed
  · split at flushed
    · cases flushed
    · next nonempty =>
        obtain rfl := Option.some.inj flushed
        exact ⟨nonempty, _, rfl⟩

/-- The clauses that are complete, and the terms of the one being read. -/
structure ReadsExpression (unicode : Unicode) (state : ExpressionState) : Prop where
  clauses : ∀ clause ∈ state.clauses, clause ≠ [] ∧ ∀ term ∈ clause, IsSearchTerm unicode term
  clause : ∀ term ∈ state.clause, IsSearchTerm unicode term

namespace ReadsExpression

variable {state after : ExpressionState}

/-- A clause is complete with one more term. -/
theorem complete (reads : ReadsExpression unicode state) {term : String}
    (flushed : flushTerm unicode state.termParts = some term) :
    ∀ clause ∈ state.clauses ++ [state.clause ++ [term]], clause ≠ [] ∧
      ∀ term ∈ clause, IsSearchTerm unicode term := by
  intro clause member
  rcases List.mem_append.mp member with old | new
  · exact reads.clauses clause old
  · obtain rfl := List.mem_singleton.mp new
    refine ⟨by simp, fun other inside => ?_⟩
    rcases List.mem_append.mp inside with earlier | last
    · exact reads.clause other earlier
    · exact List.mem_singleton.mp last ▸ isSearchTerm_flushTerm flushed

theorem step (reads : ReadsExpression unicode state) {token : String}
    (ran : readToken unicode state token = .ok after) : ReadsExpression unicode after := by
  unfold readToken at ran
  split at ran
  · split at ran
    · cases ran
    · split at ran
      · cases ran
      · next term flushed =>
          cases ran
          refine ⟨reads.clauses, fun other inside => ?_⟩
          rcases List.mem_append.mp inside with earlier | last
          · exact reads.clause other earlier
          · exact List.mem_singleton.mp last ▸ isSearchTerm_flushTerm flushed
  · split at ran
    · split at ran
      · cases ran
      · split at ran
        · cases ran
        · next term flushed =>
            cases ran
            exact ⟨reads.complete flushed, nofun⟩
    · cases ran
      exact ⟨reads.clauses, reads.clause⟩

theorem run {tokens : List String} (reads : ReadsExpression unicode state)
    (ran : tokens.foldlM (readToken unicode) state = .ok after) :
    ReadsExpression unicode after := by
  induction tokens generalizing state with
  | nil =>
      cases ran
      exact reads
  | cons token tokens ih =>
      rw [List.foldlM_cons] at ran
      obtain ⟨middle, first, rest⟩ := exists_ok_of_bind ran
      exact ih (reads.step first) rest

end ReadsExpression

/-- Every accepted expression is valid. -/
theorem isValid_parseSearchExpression {input : String} {expression : SearchExpression}
    (accepted : parseSearchExpression unicode input = .ok expression) :
    expression.IsValid unicode := by
  obtain ⟨state, ran, rest⟩ := exists_ok_of_bind accepted
  have starts : ReadsExpression unicode ⟨[], [], [], true⟩ := ⟨nofun, nofun⟩
  have reads := starts.run ran
  split at rest
  · split at rest
    · cases rest
    · cases rest
  · split at rest
    · cases rest
    · next term flushed =>
        cases rest
        exact ⟨by simp, reads.complete flushed⟩

end Parse

section Print

open QueryLanguage

/-- The clause of the full-text query for a nonempty clause of an expression. -/
def ftsClause (term : String) (more : List String) : Clause :=
  (spaced term.toList, more.map fun term => spaced term.toList)

theorem intercalate_cons {α : Type*} (separator first : List α) (rest : List (List α)) :
    separator.intercalate (first :: rest) =
      first ++ rest.flatMap fun piece => separator ++ piece := by
  induction rest generalizing first with
  | nil => simp
  | cons piece rest ih =>
      rw [List.intercalate_cons_cons, ih, List.flatMap_cons, List.append_assoc, List.append_assoc]

theorem toList_ftsPhrase (term : String) :
    (ftsPhrase term).toList = quote (spaced term.toList) := by
  have mark : "\"".toList = ['"'] := by decide
  have space : " ".toList = [' '] := by decide
  have pieces : (term.toList.map String.singleton).map String.toList = term.toList.map ([·]) := by
    rw [List.map_map]
    exact List.map_congr_left fun char _ => String.toList_singleton char
  simp only [ftsPhrase, quote, spaced, String.toList_append, String.toList_intercalate, mark, space,
    pieces, List.singleton_append]

theorem toList_ftsClause (term : String) (more : List String) :
    (" AND ".intercalate ((term :: more).map ftsPhrase)).toList =
      printConjunction (ftsClause term more) := by
  have pieces : (more.map fun term => (ftsPhrase term).toList) =
      more.map fun term => quote (spaced term.toList) :=
    List.map_congr_left fun term _ => toList_ftsPhrase term
  rw [String.toList_intercalate, List.map_map, List.map_cons, intercalate_cons, printConjunction,
    ftsClause, Function.comp_apply, toList_ftsPhrase, List.flatMap_map, List.flatMap_map]
  simp only [Function.comp_apply, toList_ftsPhrase]

/-- The full-text query is the printed disjunction of its clauses. -/
theorem toList_expressionFts (first : String × List String)
    (rest : List (String × List String)) :
    (expressionFts ⟨(first :: rest).map fun clause => clause.1 :: clause.2⟩).toList =
      printDisjunction (ftsClause first.1 first.2)
        (rest.map fun clause => ftsClause clause.1 clause.2) := by
  have parentheses : "(".toList = ['('] ∧ ")".toList = [')'] := by decide
  have piece (clause : String × List String) :
      (if 1 < (clause.1 :: clause.2).length then
          "(" ++ " AND ".intercalate ((clause.1 :: clause.2).map ftsPhrase) ++ ")"
        else " AND ".intercalate ((clause.1 :: clause.2).map ftsPhrase)).toList =
        printClause (ftsClause clause.1 clause.2) := by
    obtain ⟨term, more⟩ := clause
    cases more with
    | nil =>
        have one : ¬ 1 < [term].length := by simp
        simp only [one, ↓reduceIte, toList_ftsClause]
        simp [printClause, printConjunction, ftsClause]
    | cons other more =>
        have several : 1 < (term :: other :: more).length := by simp
        have print : printClause (ftsClause term (other :: more)) =
            '(' :: printConjunction (ftsClause term (other :: more)) ++ [')'] :=
          if_neg (by simp [ftsClause])
        simp only [several, ↓reduceIte, String.toList_append, toList_ftsClause, parentheses, print]
        rfl
  rw [expressionFts, String.toList_intercalate]
  simp only [List.map_cons, List.map_map, intercalate_cons, List.flatMap_map, printDisjunction,
    Function.comp_apply] at piece ⊢
  simp only [piece]

end Print

/-- A character that occurs in a normalized text. -/
def Unicode.IsNormalized (unicode : Unicode) (char : Char) : Prop :=
  ∃ input, char ∈ (normalizeSearchText unicode input).toList

/-- The `unicode61` tokenizer: a text of single normalized characters with spaces between them has
one token for each character, and only equal characters have equal tokens. -/
structure Unicode61 (unicode : Unicode) (τ : Type) where
  tokenize : List Char → List τ
  token : Char → τ
  tokenize_spaced : ∀ chars : List Char, (∀ char ∈ chars, unicode.IsNormalized char) →
    tokenize (spaced chars) = chars.map token
  token_injective : ∀ first second, unicode.IsNormalized first → unicode.IsNormalized second →
    token first = token second → first = second

namespace SearchDb

variable {unicode : Unicode} {τ : Type} [DecidableEq τ]

/-- The rows of `caption_fts` that match a query; a query that is not understood is an error. -/
def matchedLines (unicode61 : Unicode61 unicode τ) (db : SearchDb) (query : String) :
    Option (Multiset ℕ) :=
  (QueryLanguage.parse query.toList).map fun query =>
    (db.captionFts.filter fun entry =>
      query.holds unicode61.tokenize [unicode61.tokenize entry.2.toList] = true).map Prod.fst

/-- The rows of `program_fts` that match a query. -/
def matchedPrograms (unicode61 : Unicode61 unicode τ) (db : SearchDb) (query : String) :
    Option (Multiset ℕ) :=
  (QueryLanguage.parse query.toList).map fun query =>
    (db.programFts.filter fun entry =>
      query.holds unicode61.tokenize [unicode61.tokenize entry.2.1.toList,
        unicode61.tokenize entry.2.2.toList] = true).map Prod.fst

end SearchDb

/-- A term occurs in a text after normalization. -/
def OccursIn (unicode : Unicode) (term text : String) : Prop :=
  term.toList <:+: (normalizeSearchText unicode text).toList

/-- Some clause has all of its terms in a text. -/
def SearchExpression.InText (unicode : Unicode) (expression : SearchExpression) (text : String) :
    Prop :=
  ∃ clause ∈ expression.clauses, ∀ term ∈ clause, OccursIn unicode term text

/-- Some clause has each of its terms in the title or in the description. -/
def SearchExpression.InProgram (unicode : Unicode) (expression : SearchExpression)
    (title description : String) : Prop :=
  ∃ clause ∈ expression.clauses, ∀ term ∈ clause,
    OccursIn unicode term title ∨ OccursIn unicode term description

section Match

open QueryLanguage

variable {unicode : Unicode} {τ : Type} [DecidableEq τ]

theorem eq_of_map_eq {α β : Type*} {f : α → β} {left right : List α}
    (injective : ∀ first ∈ left, ∀ second ∈ right, f first = f second → first = second)
    (same : left.map f = right.map f) : left = right := by
  induction left generalizing right with
  | nil => simpa using same.symm
  | cons first left ih =>
      cases right with
      | nil => cases same
      | cons second right =>
          rw [List.map_cons, List.map_cons, List.cons.injEq] at same
          rw [injective first List.mem_cons_self second List.mem_cons_self same.1,
            ih (fun one here two there => injective one (List.mem_cons_of_mem _ here) two
              (List.mem_cons_of_mem _ there)) same.2]

theorem map_infix_map_iff {α β : Type*} {f : α → β} {left right : List α}
    (injective : ∀ first ∈ left, ∀ second ∈ right, f first = f second → first = second) :
    left.map f <:+: right.map f ↔ left <:+: right := by
  constructor
  · rintro ⟨front, back, whole⟩
    obtain ⟨start, rest, rfl, split, _⟩ := List.map_eq_append_iff.mp whole.symm
    obtain ⟨before, middle, rfl, _, same⟩ := List.map_eq_append_iff.mp split
    refine ⟨before, rest, ?_⟩
    rw [eq_of_map_eq (fun first here second there => injective first here second
      (by simp [there])) same.symm]
  · exact fun inside => inside.map f

theorem mem_spaced {chars : List Char} {char : Char} (member : char ∈ spaced chars) :
    char = ' ' ∨ char ∈ chars := by
  cases chars with
  | nil => cases member
  | cons first rest =>
      rw [spaced, List.map_cons, intercalate_cons, List.mem_append, List.mem_flatMap] at member
      rcases member with own | ⟨piece, later, inside⟩
      · exact .inr (List.mem_singleton.mp own ▸ List.mem_cons_self)
      · obtain ⟨other, present, rfl⟩ := List.mem_map.mp later
        rcases List.mem_append.mp inside with space | letter
        · exact .inl (List.mem_singleton.mp space)
        · exact .inr (List.mem_cons_of_mem _ (List.mem_singleton.mp letter ▸ present))

theorem isAlphanumeric_of_isNormalized {char : Char} (normalized : unicode.IsNormalized char) :
    unicode.isAlphanumeric char = true := by
  obtain ⟨input, member⟩ := normalized
  rw [normalizeSearchText, String.toList_ofList] at member
  exact (List.mem_filter.mp member).2

theorem IsSearchTerm.isNormalized {term : String} (valid : IsSearchTerm unicode term) :
    ∀ char ∈ term.toList, unicode.IsNormalized char := by
  obtain ⟨_, input, rfl⟩ := valid
  exact fun char member => ⟨input, member⟩

/-- The tokens of a term stand next to each other in an indexed text exactly when the term occurs
in the normalized text. -/
theorem holds_phrase_iff (unicode61 : Unicode61 unicode τ) {term : String}
    (valid : IsSearchTerm unicode term) (texts : List String) :
    (Query.phrase (spaced term.toList)).holds unicode61.tokenize
        (texts.map fun text => unicode61.tokenize (searchIndexText unicode text).toList) = true ↔
      ∃ text ∈ texts, OccursIn unicode term text := by
  have column (text : String) : unicode61.tokenize (searchIndexText unicode text).toList =
      (normalizeSearchText unicode text).toList.map unicode61.token := by
    rw [searchIndexText, String.toList_ofList]
    exact unicode61.tokenize_spaced _ fun char member => ⟨text, member⟩
  have tokens := unicode61.tokenize_spaced _ valid.isNormalized
  have some_token : term.toList.map unicode61.token ≠ [] := by
    simpa using valid.1
  simp only [Query.holds, tokens, column, ne_eq, some_token, not_false_eq_true, decide_true,
    Bool.true_and, List.any_map, List.any_eq_true, Function.comp_apply, decide_eq_true_eq]
  refine exists_congr fun text => and_congr_right fun _ => map_infix_map_iff ?_
  exact fun first here second there =>
    unicode61.token_injective first second (valid.isNormalized first here) ⟨text, there⟩

theorem exists_pairs {clauses : List (List String)} (nonempty : ∀ clause ∈ clauses, clause ≠ []) :
    ∃ pairs : List (String × List String),
      clauses = pairs.map fun clause => clause.1 :: clause.2 := by
  induction clauses with
  | nil => exact ⟨[], rfl⟩
  | cons clause clauses ih =>
      obtain ⟨pairs, same⟩ := ih fun other member => nonempty other (List.mem_cons_of_mem _ member)
      obtain ⟨term, more, rfl⟩ := List.exists_cons_of_ne_nil (nonempty clause List.mem_cons_self)
      exact ⟨(term, more) :: pairs, by rw [List.map_cons, ← same]⟩

variable (τ) in
/-- The full-text query of an accepted expression is read as its clauses and terms. -/
theorem parse_expressionFts (quotes : unicode.isAlphanumeric '"' = false)
    {expression : SearchExpression} (valid : expression.IsValid unicode) :
    ∃ query, parse (expressionFts expression).toList = some query ∧
      ∀ (tokenize : List Char → List τ) (columns : List (List τ)),
        query.holds tokenize columns = true ↔ ∃ clause ∈ expression.clauses, ∀ term ∈ clause,
          (Query.phrase (spaced term.toList)).holds tokenize columns = true := by
  obtain ⟨pairs, same⟩ := exists_pairs fun clause member => (valid.terms clause member).1
  obtain ⟨first, rest, rfl⟩ : ∃ first rest, pairs = first :: rest := by
    cases pairs with
    | nil => exact absurd same valid.clauses
    | cons first rest => exact ⟨first, rest, rfl⟩
  have whole : expression = ⟨(first :: rest).map fun clause => clause.1 :: clause.2⟩ := by
    rw [← same]
  have free : ∀ clause ∈ (first :: rest).map fun clause => ftsClause clause.1 clause.2,
      ∀ text ∈ clause.texts, '"' ∉ text := by
    intro clause member text inside mark
    obtain ⟨pair, present, rfl⟩ := List.mem_map.mp member
    have texts : (ftsClause pair.1 pair.2).texts =
        (pair.1 :: pair.2).map fun term => spaced term.toList := rfl
    rw [texts] at inside
    obtain ⟨term, own, rfl⟩ := List.mem_map.mp inside
    have term_valid := (valid.terms (pair.1 :: pair.2)
      (same ▸ List.mem_map_of_mem present)).2 term own
    rcases mem_spaced mark with space | letter
    · exact absurd space (by decide)
    · have alphanumeric := isAlphanumeric_of_isNormalized (term_valid.isNormalized _ letter)
      rw [quotes] at alphanumeric
      cases alphanumeric
  refine ⟨disjunctionQuery (ftsClause first.1 first.2)
    (rest.map fun clause => ftsClause clause.1 clause.2), ?_, fun tokenize columns => ?_⟩
  · rw [whole, toList_expressionFts]
    exact parse_printDisjunction free
  · have texts (clause : String × List String) : (ftsClause clause.1 clause.2).texts =
        (clause.1 :: clause.2).map fun term => spaced term.toList := rfl
    have clauses : ftsClause first.1 first.2 :: rest.map (fun clause =>
        ftsClause clause.1 clause.2) = (first :: rest).map fun clause =>
          ftsClause clause.1 clause.2 := rfl
    rw [holds_disjunction, clauses, same]
    simp only [List.mem_map, exists_exists_and_eq_and, texts, forall_exists_index, and_imp,
      forall_apply_eq_imp_iff₂]

end Match

/-- What the full-text query of an expression finds. -/
structure FindsSubstrings (crates : Crates) {τ : Type} [DecidableEq τ]
    (unicode61 : Unicode61 crates.unicode τ) (expression : SearchExpression) : Prop where
  /-- A caption text as the index holds it matches when some clause is in the text. -/
  captionText : ∀ text : String, ∃ query,
    QueryLanguage.parse (expressionFts expression).toList = some query ∧
      (query.holds unicode61.tokenize
          [unicode61.tokenize (searchIndexText crates.unicode text).toList] = true ↔
        expression.InText crates.unicode text)
  /-- A title and a description match when some clause is in the two of them. -/
  programTexts : ∀ title description : String, ∃ query,
    QueryLanguage.parse (expressionFts expression).toList = some query ∧
      (query.holds unicode61.tokenize
          [unicode61.tokenize (searchIndexText crates.unicode title).toList,
            unicode61.tokenize (searchIndexText crates.unicode description).toList] = true ↔
        expression.InProgram crates.unicode title description)
  /-- The rows that the statements over the two indexes select. -/
  rows : ∀ (archiveRoot : String) (db : SearchDb), IndexReachable crates archiveRoot db →
    ∃ lines programs, db.matchedLines unicode61 (expressionFts expression) = some lines ∧
      db.matchedPrograms unicode61 (expressionFts expression) = some programs ∧
      (∀ row ∈ db.captionLines,
        (row.id ∈ lines ↔ expression.InText crates.unicode row.caption.text)) ∧
      ∀ row ∈ db.programs, (row.id ∈ programs ↔
        expression.InProgram crates.unicode row.metadata.title row.metadata.description)

/-- The query of a valid expression finds what its terms say. -/
theorem findsSubstrings_of_isValid {crates : Crates} {τ : Type} [DecidableEq τ]
    (unicode61 : Unicode61 crates.unicode τ) (quotes : crates.unicode.isAlphanumeric '"' = false)
    {expression : SearchExpression} (valid : expression.IsValid crates.unicode) :
    FindsSubstrings crates unicode61 expression := by
  obtain ⟨query, read, holds⟩ := parse_expressionFts τ quotes valid
  have captions (text : String) : query.holds unicode61.tokenize
      [unicode61.tokenize (searchIndexText crates.unicode text).toList] = true ↔
        expression.InText crates.unicode text := by
    rw [holds]
    refine exists_congr fun clause => and_congr_right fun member =>
      forall₂_congr fun term inside => ?_
    have phrase := holds_phrase_iff unicode61 ((valid.terms clause member).2 term inside) [text]
    simpa using phrase
  have programs (title description : String) : query.holds unicode61.tokenize
      [unicode61.tokenize (searchIndexText crates.unicode title).toList,
        unicode61.tokenize (searchIndexText crates.unicode description).toList] = true ↔
        expression.InProgram crates.unicode title description := by
    rw [holds]
    refine exists_congr fun clause => and_congr_right fun member =>
      forall₂_congr fun term inside => ?_
    have phrase := holds_phrase_iff unicode61 ((valid.terms clause member).2 term inside)
      [title, description]
    simpa using phrase
  refine ⟨fun text => ⟨query, read, captions text⟩,
    fun title description => ⟨query, read, programs title description⟩, ?_⟩
  intro archiveRoot db reachable
  have wellFormed := reachable.wellFormed
  have invariant := wellFormed.representationInvariant
  refine ⟨_, _, by rw [SearchDb.matchedLines, read]; rfl,
    by rw [SearchDb.matchedPrograms, read]; rfl, ?_, ?_⟩
  · intro row member
    have selected := wellFormed.tables.captionIds.mem_selected_iff
      (fun row => (row.id, searchIndexText crates.unicode row.caption.text)) Prod.fst
      (fun _ => rfl) (fun entry => query.holds unicode61.tokenize
        [unicode61.tokenize entry.2.toList]) member
    rw [invariant.captionIndex]
    exact selected.trans (captions row.caption.text)
  · intro row member
    have selected := wellFormed.tables.programIds.mem_selected_iff
      (fun row => (row.id, searchIndexText crates.unicode row.metadata.title,
        searchIndexText crates.unicode row.metadata.description)) Prod.fst
      (fun _ => rfl) (fun entry => query.holds unicode61.tokenize
        [unicode61.tokenize entry.2.1.toList, unicode61.tokenize entry.2.2.toList]) member
    rw [invariant.programIndex]
    exact selected.trans (programs row.metadata.title row.metadata.description)

/-- Search is substring logic on normalized texts. -/
theorem search_is_substring_logic {crates : Crates} {τ : Type} [DecidableEq τ]
    (unicode61 : Unicode61 crates.unicode τ) (quotes : crates.unicode.isAlphanumeric '"' = false)
    {input : String} {expression : SearchExpression}
    (accepted : parseSearchExpression crates.unicode input = .ok expression) :
    FindsSubstrings crates unicode61 expression :=
  findsSubstrings_of_isValid unicode61 quotes (isValid_parseSearchExpression accepted)

namespace Sample

/-- Words between spaces, each its own token. -/
def words (text : List Char) : List (List Char) := (text.splitOn ' ').filter (· ≠ [])

theorem words_spaced {chars : List Char} (free : ' ' ∉ chars) :
    words (spaced chars) = chars.map ([·]) := by
  cases chars with
  | nil => rfl
  | cons first rest =>
      have pieces : ∀ piece ∈ (first :: rest).map ([·]), ' ' ∉ piece := by
        intro piece member inside
        obtain ⟨char, present, rfl⟩ := List.mem_map.mp member
        exact free (List.mem_singleton.mp inside ▸ present)
      have nonempty : (first :: rest).map ([·]) ≠ [] := List.cons_ne_nil _ _
      rw [words, spaced, List.splitOn_intercalate ' ' pieces nonempty]
      apply List.filter_eq_self.mpr
      intro piece member
      obtain ⟨char, _, rfl⟩ := List.mem_map.mp member
      exact decide_eq_true (List.cons_ne_nil _ _)

def unicode61 : Unicode61 crates.unicode (List Char) where
  tokenize := words
  token char := [char]
  tokenize_spaced chars normalized := words_spaced fun member => by
    have alphanumeric := isAlphanumeric_of_isNormalized (normalized ' ' member)
    cases alphanumeric
  token_injective _ _ _ _ same := List.singleton_injective same

end Sample

theorem search_is_substring_logic_sample :
    parseSearchExpression Sample.crates.unicode "Hello there AND World or hi" =
        .ok ⟨[["hellothere", "world"], ["hi"]]⟩ ∧
      expressionFts ⟨[["hellothere", "world"], ["hi"]]⟩ =
        "(\"h e l l o t h e r e\" AND \"w o r l d\") OR \"h i\"" ∧
      FindsSubstrings Sample.crates Sample.unicode61 ⟨[["hellothere", "world"], ["hi"]]⟩ := by
  have accepted : parseSearchExpression Sample.crates.unicode "Hello there AND World or hi" =
      .ok ⟨[["hellothere", "world"], ["hi"]]⟩ := eq_ok_of_toOption (by decide +kernel)
  exact ⟨accepted, by decide +kernel,
    search_is_substring_logic Sample.unicode61 (by decide) accepted⟩

end AribcapDb
