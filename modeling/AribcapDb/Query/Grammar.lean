import AribcapDb.Query.Expression

/-! # The grammar of search expressions

`parse_search_expression` goes through the tokens of its input once. What it accepts are runs of
words with one operator between any two, in which every run has something to search for, and what
it returns are these runs, split at `OR` and then at `AND` (`parser_accepts_grammar`). -/

namespace AribcapDb

def isAnd (token : String) : Bool := eqIgnoreAsciiCase token "AND"

def isOr (token : String) : Bool := eqIgnoreAsciiCase token "OR"

/-- A token that is no word. -/
def isOperator (token : String) : Bool := isAnd token || isOr token

/-- The term that a run of words stands for. -/
def runTerm (unicode : Unicode) (run : List String) : String :=
  normalizeSearchText unicode (String.join run)

/-- The runs of a list of tokens, as clauses of terms. -/
def tokenClauses (unicode : Unicode) (tokens : List String) : List (List String) :=
  (tokens.splitOnP isOr).map fun clause => (clause.splitOnP isAnd).map (runTerm unicode)

/-- Words, and operators that stand between words only; the runs are the nonempty pieces between
the operators. -/
structure IsGrammatical (unicode : Unicode) (tokens : List String) : Prop where
  nonempty : tokens ≠ []
  first : ∀ token ∈ tokens.head?, isOperator token = false
  last : ∀ token ∈ tokens.getLast?, isOperator token = false
  separated : tokens.IsChain fun left right => isOperator left = false ∨ isOperator right = false
  searchable : ∀ run ∈ tokens.splitOnP isOperator, run ≠ [] → runTerm unicode run ≠ ""

section Pieces

variable {α : Type*} {separates : α → Bool}

/-- A front without separators belongs to the first piece. -/
theorem splitOnP_append_of_free {front : List α} (free : ∀ a ∈ front, separates a = false)
    (rest : List α) :
    (front ++ rest).splitOnP separates = (rest.splitOnP separates).modifyHead (front ++ ·) := by
  induction front with
  | nil => cases split : rest.splitOnP separates <;> simp [split]
  | cons a front ih =>
      have here := free a List.mem_cons_self
      have later := ih fun other member => free other (List.mem_cons_of_mem _ member)
      rw [List.cons_append, List.splitOnP_cons_eq_if_modifyHead, here, later,
        List.modifyHead_modifyHead]
      rfl

/-- No piece after the first is empty when separators stand apart and none stands at the end. -/
theorem tail_splitOnP_nonempty_iff {tokens : List α} :
    (∀ piece ∈ (tokens.splitOnP separates).tail, piece ≠ []) ↔
      (∀ token ∈ tokens.getLast?, separates token = false) ∧
        tokens.IsChain fun left right => separates left = false ∨ separates right = false := by
  induction tokens with
  | nil => simp
  | cons first tokens ih =>
      rw [List.splitOnP_cons_eq_if_modifyHead]
      by_cases separator : separates first
      · rw [if_pos separator, List.tail_cons]
        cases tokens with
        | nil => simp [separator]
        | cons second tokens =>
            rw [List.splitOnP_cons_eq_if_modifyHead] at ih ⊢
            by_cases again : separates second
            · simp [again, separator]
            · rw [if_neg again] at ih ⊢
              have head : ∀ pieces : List (List α), pieces ≠ [] →
                  ((∀ piece ∈ pieces.modifyHead (List.cons second), piece ≠ []) ↔
                    ∀ piece ∈ (pieces.modifyHead (List.cons second)).tail, piece ≠ []) := by
                intro pieces some
                obtain ⟨piece, more, rfl⟩ := List.exists_cons_of_ne_nil some
                simp
              rw [head _ (List.splitOnP_ne_nil _ _), ih]
              simp [again]
      · rw [if_neg separator, List.tail_modifyHead, ih]
        cases tokens with
        | nil => simp [separator]
        | cons second tokens => simp [separator]

/-- No piece is empty when there is something to split and no separator stands at either end or
next to another one. -/
theorem splitOnP_nonempty_iff {tokens : List α} :
    (∀ piece ∈ tokens.splitOnP separates, piece ≠ []) ↔
      tokens ≠ [] ∧ (∀ token ∈ tokens.head?, separates token = false) ∧
        (∀ token ∈ tokens.getLast?, separates token = false) ∧
          tokens.IsChain fun left right => separates left = false ∨ separates right = false := by
  cases tokens with
  | nil => simp
  | cons first tokens =>
      rw [← tail_splitOnP_nonempty_iff, List.splitOnP_cons_eq_if_modifyHead]
      by_cases separator : separates first
      · simp [separator]
      · obtain ⟨piece, more, split⟩ :=
          List.exists_cons_of_ne_nil (List.splitOnP_ne_nil separates tokens)
        simp [separator, split]

end Pieces

variable {unicode : Unicode} {tokens : List String} {token : String} {state : ExpressionState}

/-- A run of words that has something to search for. -/
def IsSearchable (unicode : Unicode) (run : List String) : Prop :=
  run ≠ [] ∧ runTerm unicode run ≠ ""

theorem isGrammatical_iff :
    IsGrammatical unicode tokens ↔
      ∀ run ∈ tokens.splitOnP isOperator, IsSearchable unicode run := by
  constructor
  · intro grammatical run member
    have nonempty := splitOnP_nonempty_iff.mpr ⟨grammatical.nonempty, grammatical.first,
      grammatical.last, grammatical.separated⟩ run member
    exact ⟨nonempty, grammatical.searchable run member nonempty⟩
  · intro searchable
    obtain ⟨nonempty, first, last, separated⟩ :=
      splitOnP_nonempty_iff.mp fun run member => (searchable run member).1
    exact ⟨nonempty, first, last, separated, fun run member _ => (searchable run member).2⟩

theorem isOr_of_isAnd (and : isAnd token = true) : isOr token = false := by
  rw [isAnd, eqIgnoreAsciiCase, decide_eq_true_eq] at and
  rw [isOr, eqIgnoreAsciiCase, and]
  decide

theorem flushTerm_of_searchable {run : List String} (searchable : IsSearchable unicode run) :
    flushTerm unicode run = some (runTerm unicode run) := by
  have nonempty : normalizeSearchText unicode (String.join run) ≠ "" := searchable.2
  simp only [flushTerm, searchable.1, nonempty, ↓reduceIte, runTerm]

theorem flushTerm_of_not_searchable {run : List String} (not : ¬ IsSearchable unicode run) :
    flushTerm unicode run = none := by
  unfold flushTerm
  split
  · rfl
  · next nonempty =>
      have empty : normalizeSearchText unicode (String.join run) = "" :=
        not_not.mp fun some => not ⟨nonempty, some⟩
      simp only [empty, ↓reduceIte]

/-- The end of `parse_search_expression`. -/
def finishExpression (unicode : Unicode) (state : ExpressionState) :
    Except String SearchExpression :=
  if state.expectingTerm then
    if state.clauses = [] ∧ state.clause = [] then
      throw "query must not be empty after normalization"
    else throw "expected a search term after operator"
  else
    match flushTerm unicode state.termParts with
    | none => throw "query must contain an alphanumeric search term"
    | some term => pure ⟨state.clauses ++ [state.clause ++ [term]]⟩

theorem parseSearchExpression_eq (unicode : Unicode) (input : String) :
    parseSearchExpression unicode input =
      (splitWhitespace input).foldlM (readToken unicode) ⟨[], [], [], true⟩ >>=
        finishExpression unicode := rfl

/-- The words read since the last operator; a term is expected exactly when there are none. -/
structure ReadsRun (state : ExpressionState) : Prop where
  words : ∀ word ∈ state.termParts, isOperator word = false
  expecting : state.expectingTerm = true ↔ state.termParts = []

theorem readToken_word (word : isOperator token = false) :
    readToken unicode state token =
      .ok { state with termParts := state.termParts ++ [token], expectingTerm := false } := by
  obtain ⟨notAnd, notOr⟩ := Bool.or_eq_false_iff.mp word
  rw [isAnd] at notAnd
  rw [isOr] at notOr
  simp only [readToken, notAnd, notOr, Bool.false_eq_true, ↓reduceIte]

/-- An operator behind a run without anything to search for is an error. -/
theorem readToken_operator_fails (operator : isOperator token = true)
    (not : ¬ IsSearchable unicode state.termParts) :
    ∃ message, readToken unicode state token = .error message := by
  unfold readToken
  rw [flushTerm_of_not_searchable not]
  cases Bool.or_eq_true_iff.mp operator with
  | inl and =>
      rw [isAnd] at and
      rw [if_pos and]
      split <;> exact ⟨_, rfl⟩
  | inr or =>
      rw [isOr] at or
      rw [if_pos or]
      split_ifs <;> exact ⟨_, rfl⟩

namespace ReadsRun

variable (reads : ReadsRun state)
include reads

theorem word (word : isOperator token = false) :
    ReadsRun
      { state with termParts := state.termParts ++ [token], expectingTerm := false } := by
  constructor
  · intro other member
    rcases List.mem_append.mp member with old | new
    · exact reads.words other old
    · exact List.mem_singleton.mp new ▸ word
  · simp

theorem not_expecting (searchable : IsSearchable unicode state.termParts) :
    state.expectingTerm = false :=
  Bool.eq_false_iff.mpr fun expecting => searchable.1 (reads.expecting.mp expecting)

theorem and (operator : isAnd token = true) (searchable : IsSearchable unicode state.termParts) :
    readToken unicode state token =
      .ok { state with
        clause := state.clause ++ [runTerm unicode state.termParts]
        termParts := [], expectingTerm := true } := by
  rw [isAnd] at operator
  simp only [readToken, operator, ↓reduceIte, reads.not_expecting searchable, Bool.false_eq_true,
    flushTerm_of_searchable searchable]

theorem or (operator : isOr token = true) (searchable : IsSearchable unicode state.termParts) :
    readToken unicode state token =
      .ok
        { clauses := state.clauses ++ [state.clause ++ [runTerm unicode state.termParts]]
          clause := [], termParts := [], expectingTerm := true } := by
  have notAnd : eqIgnoreAsciiCase token "AND" = false := by
    rw [← isAnd, Bool.eq_false_iff]
    intro and
    rw [isOr_of_isAnd and] at operator
    cases operator
  rw [isOr] at operator
  simp only [readToken, notAnd, operator, ↓reduceIte, reads.not_expecting searchable,
    Bool.false_eq_true, flushTerm_of_searchable searchable]

end ReadsRun

theorem tokenClauses_of_words {run : List String}
    (words : ∀ word ∈ run, isOperator word = false) :
    tokenClauses unicode run = [[runTerm unicode run]] := by
  have notOr : ∀ word ∈ run, isOr word = false := fun word member =>
    (Bool.or_eq_false_iff.mp (words word member)).2
  have notAnd : ∀ word ∈ run, isAnd word = false := fun word member =>
    (Bool.or_eq_false_iff.mp (words word member)).1
  simp only [tokenClauses, List.splitOnP_eq_singleton notOr, List.map_cons, List.map_nil,
    List.splitOnP_eq_singleton notAnd]

theorem tokenClauses_ne_nil : tokenClauses unicode tokens ≠ [] := by
  simp [tokenClauses]

/-- A run in front of `AND` is the first term of the first clause. -/
theorem tokenClauses_and {run : List String} (words : ∀ word ∈ run, isOperator word = false)
    (and : isAnd token = true) :
    tokenClauses unicode (run ++ token :: tokens) =
      (tokenClauses unicode tokens).modifyHead (runTerm unicode run :: ·) := by
  have notOr : ∀ word ∈ run ++ [token], isOr word = false := by
    intro word member
    rcases List.mem_append.mp member with old | new
    · exact (Bool.or_eq_false_iff.mp (words word old)).2
    · exact List.mem_singleton.mp new ▸ isOr_of_isAnd and
  have notAnd : ∀ word ∈ run, isAnd word = false := fun word member =>
    (Bool.or_eq_false_iff.mp (words word member)).1
  have whole : run ++ token :: tokens = (run ++ [token]) ++ tokens := by simp
  obtain ⟨clause, more, split⟩ := List.exists_cons_of_ne_nil (List.splitOnP_ne_nil isOr tokens)
  unfold tokenClauses
  rw [whole, splitOnP_append_of_free notOr, split, List.modifyHead_cons, List.map_cons,
    List.map_cons, List.modifyHead_cons, List.append_assoc, List.singleton_append,
    List.splitOnP_append_cons_of_forall_mem notAnd token and, List.map_cons]

/-- A run in front of `OR` is a clause of its own. -/
theorem tokenClauses_or {run : List String} (words : ∀ word ∈ run, isOperator word = false)
    (or : isOr token = true) :
    tokenClauses unicode (run ++ token :: tokens) =
      [runTerm unicode run] :: tokenClauses unicode tokens := by
  have notOr : ∀ word ∈ run, isOr word = false := fun word member =>
    (Bool.or_eq_false_iff.mp (words word member)).2
  have notAnd : ∀ word ∈ run, isAnd word = false := fun word member =>
    (Bool.or_eq_false_iff.mp (words word member)).1
  unfold tokenClauses
  rw [List.splitOnP_append_cons_of_forall_mem notOr token or, List.map_cons,
    List.splitOnP_eq_singleton notAnd]
  rfl

/-- What the rest of the loop makes of its state: the words of the state are the front of the
tokens that are left, the terms of its clause belong to the first clause of them. -/
theorem readTokens_iff (reads : ReadsRun state) (expression : SearchExpression) :
    tokens.foldlM (readToken unicode) state >>= finishExpression unicode = .ok expression ↔
      (∀ run ∈ (state.termParts ++ tokens).splitOnP isOperator, IsSearchable unicode run) ∧
        expression.clauses = state.clauses ++
          (tokenClauses unicode (state.termParts ++ tokens)).modifyHead (state.clause ++ ·) := by
  induction tokens generalizing state with
  | nil =>
      have single : state.termParts.splitOnP isOperator = [state.termParts] :=
        List.splitOnP_eq_singleton reads.words
      rw [List.append_nil, single, tokenClauses_of_words reads.words, List.modifyHead_cons]
      by_cases searchable : IsSearchable unicode state.termParts
      · have finished : finishExpression unicode state =
            .ok ⟨state.clauses ++ [state.clause ++ [runTerm unicode state.termParts]]⟩ := by
          unfold finishExpression
          rw [reads.not_expecting searchable, flushTerm_of_searchable searchable]
          rfl
        obtain ⟨clauses⟩ := expression
        simp only [List.foldlM_nil, pure_bind, finished, Except.ok.injEq,
          SearchExpression.mk.injEq, List.mem_singleton, forall_eq, searchable, true_and]
        exact eq_comm
      · refine iff_of_false ?_ fun accepted => searchable (accepted.1 _ (by simp))
        rw [List.foldlM_nil, pure_bind, finishExpression, flushTerm_of_not_searchable searchable]
        split_ifs <;> exact nofun
  | cons token tokens ih =>
      rw [List.foldlM_cons, bind_assoc]
      cases kind : isOperator token with
      | false =>
          rw [readToken_word kind]
          exact (ih (reads.word kind)).trans (by simp)
      | true =>
          have split := List.splitOnP_append_cons_of_forall_mem reads.words token kind tokens
          rw [split]
          by_cases searchable : IsSearchable unicode state.termParts
          · have fresh (clauses : List (List String)) (clause : List String) :
                ReadsRun ⟨clauses, clause, [], true⟩ := ⟨nofun, by simp⟩
            obtain ⟨clause, more, rest⟩ :=
              List.exists_cons_of_ne_nil (@tokenClauses_ne_nil unicode tokens)
            cases Bool.or_eq_true_iff.mp kind with
            | inl and =>
                rw [reads.and and searchable, tokenClauses_and reads.words and]
                apply (ih (fresh _ _)).trans
                simp [rest, searchable]
            | inr or =>
                rw [reads.or or searchable, tokenClauses_or reads.words or]
                apply (ih (fresh _ _)).trans
                simp [rest, searchable]
          · obtain ⟨message, fails⟩ := readToken_operator_fails kind searchable
            rw [fails]
            exact iff_of_false nofun fun accepted => searchable (accepted.1 _ List.mem_cons_self)

/-- Accepted are the tokens of the grammar, and they are returned as their clauses. -/
theorem parseSearchExpression_ok_iff {input : String} {expression : SearchExpression} :
    parseSearchExpression unicode input = .ok expression ↔
      IsGrammatical unicode (splitWhitespace input) ∧
        expression.clauses = tokenClauses unicode (splitWhitespace input) := by
  have reads : ReadsRun ⟨[], [], [], true⟩ := ⟨nofun, by simp⟩
  obtain ⟨clause, more, rest⟩ := List.exists_cons_of_ne_nil
    (@tokenClauses_ne_nil unicode (splitWhitespace input))
  rw [parseSearchExpression_eq, readTokens_iff reads, isGrammatical_iff]
  simp [rest]

/-- The parser accepts exactly the tokens of the grammar, and what it returns are their clauses,
none of them and none of their terms empty. -/
theorem parser_accepts_grammar (unicode : Unicode) (input : String) :
    (∀ expression, parseSearchExpression unicode input = .ok expression ↔
      IsGrammatical unicode (splitWhitespace input) ∧
        expression.clauses = tokenClauses unicode (splitWhitespace input)) ∧
      ∀ expression, parseSearchExpression unicode input = .ok expression →
        ∀ clause ∈ expression.clauses, clause ≠ [] ∧ ∀ term ∈ clause, term ≠ "" := by
  refine ⟨fun expression => parseSearchExpression_ok_iff, ?_⟩
  intro expression accepted clause member
  have terms := (isValid_parseSearchExpression accepted).terms clause member
  exact ⟨terms.1, fun term inside => (terms.2 term inside).1⟩

/-- Words around operators are accepted, and an operator at the end is not. -/
theorem parser_accepts_grammar_sample :
    IsGrammatical Sample.crates.unicode (splitWhitespace "Hello there AND World or hi") ∧
      tokenClauses Sample.crates.unicode (splitWhitespace "Hello there AND World or hi") =
        [["hellothere", "world"], ["hi"]] ∧
      ¬ IsGrammatical Sample.crates.unicode (splitWhitespace "hello or") := by
  have accepted : parseSearchExpression Sample.crates.unicode "Hello there AND World or hi" =
      .ok ⟨[["hellothere", "world"], ["hi"]]⟩ := eq_ok_of_toOption (by decide +kernel)
  obtain ⟨grammatical, clauses⟩ := (parser_accepts_grammar _ _).1 _ |>.mp accepted
  refine ⟨grammatical, clauses.symm, fun claim => ?_⟩
  have refused : (parseSearchExpression Sample.crates.unicode "hello or").toOption = none := by
    decide +kernel
  rw [((parser_accepts_grammar _ _).1 ⟨_⟩).mpr ⟨claim, rfl⟩] at refused
  cases refused

end AribcapDb
