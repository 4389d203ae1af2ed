import Mathlib

/-! # Boolean full-text queries

The query language of a full-text index: quoted strings and barewords as phrases, `AND`, `OR`,
`NOT` and parentheses. A text is cut into tokens (`QueryLanguage.lex`), parsed with `NOT` binding
tighter than `AND` and `AND` tighter than `OR` (`QueryLanguage.parse`), and the resulting
expression is matched against the columns of a row by consecutive tokens (`Query.holds`). A query
that is printed as a disjunction of conjunctions of quoted phrases is read back as one
(`parse_printDisjunction`).
-/

namespace QueryLanguage

inductive Token where
  | string (text : List Char)
  | and
  | or
  | not
  | openParenthesis
  | closeParenthesis
  /-- A character with a meaning of its own, which the parser here refuses. -/
  | symbol (char : Char)
  deriving DecidableEq, Repr

/-- A query. -/
inductive Query where
  | phrase (text : List Char)
  | and (left right : Query)
  | or (left right : Query)
  | not (left right : Query)
  deriving DecidableEq, Repr

/-! ### Tokens -/

def isSpace (char : Char) : Bool :=
  char = ' ' || char = '\t' || char = '\n' || char = '\r'

/-- The characters of barewords. -/
def isBareword (char : Char) : Bool :=
  char.isAlphanum || char = '_' || char.toNat = 0x1A || 0x80 ≤ char.toNat

/-- A bareword is an operator or a phrase. -/
def wordToken (word : List Char) : Token :=
  if word = ['A', 'N', 'D'] then .and
  else if word = ['O', 'R'] then .or
  else if word = ['N', 'O', 'T'] then .not
  else .string word

/-- Where the scanner stands. -/
inductive Scanner where
  | between
  | bareword (word : List Char)
  | quoted (text : List Char)
  /-- After a quote inside quotes: the end, or the first of two. -/
  | unquoted (text : List Char)
  deriving DecidableEq, Repr

namespace Scanner

/-- The first character after a token. -/
def begin (char : Char) : Scanner × List Token :=
  if isSpace char then (.between, [])
  else if char = '(' then (.between, [.openParenthesis])
  else if char = ')' then (.between, [.closeParenthesis])
  else if char = '"' then (.quoted [], [])
  else if isBareword char then (.bareword [char], [])
  else (.between, [.symbol char])

def step : Scanner → Char → Scanner × List Token
  | .between, char => begin char
  | .bareword word, char =>
      if isBareword char then (.bareword (word ++ [char]), [])
      else ((begin char).1, wordToken word :: (begin char).2)
  | .quoted text, char =>
      if char = '"' then (.unquoted text, []) else (.quoted (text ++ [char]), [])
  | .unquoted text, char =>
      if char = '"' then (.quoted (text ++ [char]), [])
      else ((begin char).1, .string text :: (begin char).2)

/-- The end of the query; a quoted string must be closed. -/
def finish : Scanner → Option (List Token)
  | .between => some []
  | .bareword word => some [wordToken word]
  | .quoted _ => none
  | .unquoted text => some [.string text]

/-- The tokens of the rest of a query. -/
def run : Scanner → List Char → Option (List Token)
  | scanner, [] => scanner.finish
  | scanner, char :: rest =>
      (run (scanner.step char).1 rest).map ((scanner.step char).2 ++ ·)

end Scanner

/-- The tokens of a query. -/
def lex (query : List Char) : Option (List Token) := Scanner.between.run query

/-! ### Expressions -/

/-- How tight an operator binds. -/
def precedence : Token → Option (ℕ × (Query → Query → Query))
  | .or => some (0, .or)
  | .and => some (1, .and)
  | .not => some (2, .not)
  | _ => none

/-- The phrases at the front, which are joined by an implicit `AND`. -/
def takePhrases (first : Query) : List Token → Query × List Token
  | .string text :: rest => takePhrases (.and first (.phrase text)) rest
  | rest => (first, rest)

/-- Precedence climbing: an operand and the operators that bind at least as tight as `bound`. -/
def climb : ℕ → ℕ → Option Query → List Token → Option (Query × List Token)
  | 0, _, _, _ => none
  | fuel + 1, bound, none, .openParenthesis :: rest =>
      match climb fuel 0 none rest with
      | some (inner, .closeParenthesis :: rest) => climb fuel bound (some inner) rest
      | _ => none
  | fuel + 1, bound, none, .string text :: rest =>
      let (first, rest) := takePhrases (.phrase text) rest
      climb fuel bound (some first) rest
  | _ + 1, _, none, _ => none
  | _ + 1, _, some left, [] => some (left, [])
  | fuel + 1, bound, some left, token :: rest =>
      match precedence token with
      | none => some (left, token :: rest)
      | some (tightness, join) =>
          if tightness < bound then some (left, token :: rest)
          else
            match climb fuel (tightness + 1) none rest with
            | some (right, rest) => climb fuel bound (some (join left right)) rest
            | none => none

/-- Read a query. Every call consumes a token, so that one more than there are suffices. -/
def parse (query : List Char) : Option Query := do
  let tokens ← lex query
  match ← climb (tokens.length + 1) 0 none tokens with
  | (expression, []) => some expression
  | _ => none

/-! ### Matching -/

/-- A row matches a query, given the tokens of each column: the tokens of a phrase stand next to
each other in one column. -/
def Query.holds {τ : Type*} [DecidableEq τ] (tokenize : List Char → List τ)
    (columns : List (List τ)) : Query → Bool
  | .phrase text =>
      tokenize text ≠ [] && columns.any fun column => decide (tokenize text <:+: column)
  | .and left right => left.holds tokenize columns && right.holds tokenize columns
  | .or left right => left.holds tokenize columns || right.holds tokenize columns
  | .not left right => left.holds tokenize columns && !right.holds tokenize columns

/-! ### Printed disjunctions -/

def quote (text : List Char) : List Char := '"' :: text ++ ['"']

/-- A conjunction of phrases, of which there is at least one. -/
abbrev Clause := List Char × List (List Char)

def Clause.texts (clause : Clause) : List (List Char) := clause.1 :: clause.2

def printConjunction (clause : Clause) : List Char :=
  quote clause.1 ++ clause.2.flatMap fun text => " AND ".toList ++ quote text

/-- Parentheses stand around two or more phrases. -/
def printClause (clause : Clause) : List Char :=
  if clause.2 = [] then quote clause.1 else '(' :: printConjunction clause ++ [')']

def printDisjunction (first : Clause) (rest : List Clause) : List Char :=
  printClause first ++ rest.flatMap fun clause => " OR ".toList ++ printClause clause

def conjunctionTokens (clause : Clause) : List Token :=
  .string clause.1 :: clause.2.flatMap fun text => [.and, .string text]

def clauseTokens (clause : Clause) : List Token :=
  if clause.2 = [] then [.string clause.1]
  else .openParenthesis :: conjunctionTokens clause ++ [.closeParenthesis]

def disjunctionTokens (first : Clause) (rest : List Clause) : List Token :=
  clauseTokens first ++ rest.flatMap fun clause => .or :: clauseTokens clause

/-- The expression of a conjunction. -/
def Clause.query (clause : Clause) : Query :=
  clause.2.foldl (fun left text => .and left (.phrase text)) (.phrase clause.1)

def disjunctionQuery (first : Clause) (rest : List Clause) : Query :=
  rest.foldl (fun left clause => .or left clause.query) first.query

/-- A piece of a query is cut into the given tokens, whatever other than a quote comes next. -/
def Lexes (piece : List Char) (tokens : List Token) : Prop :=
  ∀ rest : List Char, rest.head? ≠ some '"' →
    Scanner.between.run (piece ++ rest) = (Scanner.between.run rest).map (tokens ++ ·)

theorem run_between_of_begin {char : Char} {tokens : List Token}
    (between : Scanner.begin char = (.between, tokens)) (rest : List Char) :
    Scanner.between.run (char :: rest) = (Scanner.between.run rest).map (tokens ++ ·) := by
  simp only [Scanner.run, Scanner.step, between]

theorem run_unquoted (text rest : List Char) (other : rest.head? ≠ some '"') :
    (Scanner.unquoted text).run rest = (Scanner.between.run rest).map (.string text :: ·) := by
  cases rest with
  | nil => rfl
  | cons char rest =>
      have different : char ≠ '"' := by
        rintro rfl
        exact other rfl
      simp only [Scanner.run, Scanner.step, different, ↓reduceIte, Option.map_map]
      rfl

theorem run_quoted (before text rest : List Char) (free : '"' ∉ text) :
    (Scanner.quoted before).run (text ++ '"' :: rest) =
      (Scanner.unquoted (before ++ text)).run rest := by
  induction text generalizing before with
  | nil =>
      simp only [List.nil_append, Scanner.run, Scanner.step, ↓reduceIte, List.append_nil]
      exact Option.map_id'
  | cons char text ih =>
      have different : char ≠ '"' := fun same => free (same ▸ List.mem_cons_self)
      have later := ih (before ++ [char]) fun member => free (List.mem_cons_of_mem _ member)
      simp only [List.cons_append, Scanner.run, Scanner.step, different, ↓reduceIte,
        List.nil_append, later, List.append_assoc]
      exact Option.map_id'

theorem lexes_quote {text : List Char} (free : '"' ∉ text) :
    Lexes (quote text) [.string text] := by
  intro rest other
  have opens : Scanner.begin '"' = (.quoted [], []) := by decide
  have inside := run_quoted [] text rest free
  simp only [quote, List.cons_append, List.append_assoc, List.nil_append, Scanner.run,
    Scanner.step, opens] at inside ⊢
  rw [inside, run_unquoted text rest other]
  simp only [Option.map_map]
  rfl

theorem run_and (rest : List Char) : Scanner.between.run (" AND ".toList ++ rest) =
    (Scanner.between.run rest).map ([.and] ++ ·) := by
  have word : " AND ".toList = [' ', 'A', 'N', 'D', ' '] := by decide
  have space : Scanner.begin ' ' = (.between, []) := by decide
  have first : Scanner.begin 'A' = (.bareword ['A'], []) := by decide
  have letters : isBareword 'N' = true ∧ isBareword 'D' = true ∧ isBareword ' ' = false := by
    decide
  have operator : wordToken ['A', 'N', 'D'] = .and := by decide
  simp only [word, List.cons_append, List.nil_append, Scanner.run, Scanner.step, space, first,
    letters, ↓reduceIte, Bool.false_eq_true, operator, Option.map_map]
  rfl

theorem run_or (rest : List Char) : Scanner.between.run (" OR ".toList ++ rest) =
    (Scanner.between.run rest).map ([.or] ++ ·) := by
  have word : " OR ".toList = [' ', 'O', 'R', ' '] := by decide
  have space : Scanner.begin ' ' = (.between, []) := by decide
  have first : Scanner.begin 'O' = (.bareword ['O'], []) := by decide
  have letters : isBareword 'R' = true ∧ isBareword ' ' = false := by decide
  have operator : wordToken ['O', 'R'] = .or := by decide
  simp only [word, List.cons_append, List.nil_append, Scanner.run, Scanner.step, space, first,
    letters, ↓reduceIte, Bool.false_eq_true, operator, Option.map_map]
  rfl

theorem Lexes.append {left right : List Char} {first second : List Token}
    (one : Lexes left first) (two : Lexes right second) (head : right.head? ≠ some '"') :
    Lexes (left ++ right) (first ++ second) := by
  intro rest other
  have next : (right ++ rest).head? ≠ some '"' := by
    rw [List.head?_append]
    cases right with
    | nil => exact other
    | cons _ _ => exact head
  rw [List.append_assoc, one _ next, two rest other, Option.map_map]
  congr 1
  funext tokens
  simp

/-- A separated list of pieces. -/
theorem lexes_flatMap {α : Type*} {separator : List Char} {operator : Token}
    (print : α → List Char) (tokens : α → List Token) (items : List α)
    (separates : ∀ rest, Scanner.between.run (separator ++ rest) =
      (Scanner.between.run rest).map ([operator] ++ ·))
    (begins : separator.head? = some ' ')
    (lexes : ∀ item ∈ items, Lexes (print item) (tokens item)) :
    Lexes (items.flatMap fun item => separator ++ print item)
      (items.flatMap fun item => operator :: tokens item) ∧
    (items.flatMap fun item => separator ++ print item).head? ≠ some '"' := by
  induction items with
  | nil =>
      refine ⟨fun rest _ => ?_, by simp⟩
      exact Option.map_id'.symm
  | cons item items ih =>
      obtain ⟨later, head⟩ := ih fun other member => lexes other (List.mem_cons_of_mem _ member)
      obtain ⟨char, more, rfl⟩ : ∃ char more, separator = char :: more := by
        cases separator with
        | nil => cases begins
        | cons char more => exact ⟨char, more, rfl⟩
      have space : char = ' ' := Option.some.inj begins
      refine ⟨fun rest other => ?_, by simp [space]⟩
      have piece := (lexes item List.mem_cons_self).append later head rest other
      rw [List.flatMap_cons, List.append_assoc, List.append_assoc, separates, ← List.append_assoc,
        piece, Option.map_map]
      rfl

theorem lexes_conjunction {clause : Clause} (free : ∀ text ∈ clause.texts, '"' ∉ text) :
    Lexes (printConjunction clause) (conjunctionTokens clause) := by
  obtain ⟨more, head⟩ := lexes_flatMap quote (fun text => [.string text])
    clause.2 run_and (by decide)
    fun text member => lexes_quote (free text (List.mem_cons_of_mem _ member))
  exact (lexes_quote (free clause.1 List.mem_cons_self)).append more head

theorem lexes_clause {clause : Clause} (free : ∀ text ∈ clause.texts, '"' ∉ text) :
    Lexes (printClause clause) (clauseTokens clause) := by
  unfold printClause clauseTokens
  split
  · exact lexes_quote (free clause.1 List.mem_cons_self)
  · intro rest _
    have opens : Scanner.begin '(' = (.between, [.openParenthesis]) := by decide
    have closes : Scanner.begin ')' = (.between, [.closeParenthesis]) := by decide
    have inside := lexes_conjunction free (')' :: rest) (by simp)
    have shape : '(' :: printConjunction clause ++ [')'] ++ rest =
        '(' :: (printConjunction clause ++ ')' :: rest) := by simp
    rw [shape, run_between_of_begin opens, inside, run_between_of_begin closes, Option.map_map,
      Option.map_map]
    congr 1
    funext tokens
    simp

/-- A printed disjunction is cut into its strings and operators. -/
theorem lex_printDisjunction {first : Clause} {rest : List Clause}
    (free : ∀ clause ∈ first :: rest, ∀ text ∈ clause.texts, '"' ∉ text) :
    lex (printDisjunction first rest) = some (disjunctionTokens first rest) := by
  obtain ⟨more, head⟩ := lexes_flatMap printClause clauseTokens rest run_or
    (by decide) fun clause member => lexes_clause (free clause (List.mem_cons_of_mem _ member))
  have whole := (lexes_clause (free first List.mem_cons_self)).append more head [] (by simp)
  rw [List.append_nil] at whole
  rw [lex, printDisjunction, whole]
  simp [Scanner.run, Scanner.finish, disjunctionTokens]

/-- The next token ends an operand at a bound. -/
def Stops (bound : ℕ) (tokens : List Token) : Prop :=
  ∀ token ∈ tokens.head?, ∀ operator ∈ precedence token, operator.1 < bound

theorem climb_of_stops {bound : ℕ} {tokens : List Token} (stops : Stops bound tokens) (fuel : ℕ)
    (left : Query) : climb (fuel + 1) bound (some left) tokens = some (left, tokens) := by
  cases tokens with
  | nil => rfl
  | cons token rest =>
      cases found : precedence token with
      | none => simp only [climb, found]
      | some operator =>
          have low := stops token rfl operator found
          simp only [climb, found, low, ↓reduceIte]

/-- The tokens do not begin with a phrase. -/
def NoPhrase (tokens : List Token) : Prop := ∀ text, tokens.head? ≠ some (.string text)

theorem climb_string {tokens : List Token} (operators : NoPhrase tokens) (fuel bound : ℕ)
    (text : List Char) : climb (fuel + 1) bound none (.string text :: tokens) =
      climb fuel bound (some (.phrase text)) tokens := by
  have alone : takePhrases (.phrase text) tokens = (.phrase text, tokens) := by
    cases tokens with
    | nil => rfl
    | cons token rest =>
        cases token with
        | string other => exact absurd rfl (operators other)
        | and | or | not | openParenthesis | closeParenthesis | symbol _ => rfl
  simp only [climb, alone]

/-- The further phrases of a conjunction. -/
theorem climb_and {fuel bound : ℕ} (low : bound ≤ 1) (enough : 2 ≤ fuel) {tail : List Token}
    (stops : Stops 2 tail) (operators : NoPhrase tail) (texts : List (List Char))
    (left : Query) :
    climb (fuel + texts.length) bound (some left)
        ((texts.flatMap fun text => [.and, .string text]) ++ tail) =
      climb fuel bound
        (some (texts.foldl (fun left text => .and left (.phrase text)) left)) tail := by
  induction texts generalizing left with
  | nil => rfl
  | cons text texts ih =>
      have next : Stops 2 ((texts.flatMap fun text => [Token.and, .string text]) ++ tail) ∧
          NoPhrase ((texts.flatMap fun text => [Token.and, .string text]) ++ tail) := by
        cases texts with
        | nil => exact ⟨stops, operators⟩
        | cons _ _ =>
            refine ⟨?_, ?_⟩
            · rintro _ ⟨⟩ _ ⟨⟩
              decide
            · rintro _ ⟨⟩
      have tight : ¬ 1 < bound := by omega
      obtain ⟨spare, budget⟩ : ∃ spare, fuel + texts.length = spare + 2 :=
        ⟨fuel + texts.length - 2, by omega⟩
      have operand : climb (fuel + texts.length) 2 none
          (.string text :: ((texts.flatMap fun text => [Token.and, .string text]) ++ tail)) =
            some (.phrase text, (texts.flatMap fun text => [Token.and, .string text]) ++ tail) := by
        rw [budget, climb_string next.2, climb_of_stops next.1]
      rw [List.length_cons, ← Nat.add_assoc, List.flatMap_cons, List.foldl_cons, ← ih]
      simp only [List.cons_append, List.nil_append, climb, precedence, tight, ↓reduceIte, operand]

/-- A conjunction, in parentheses or alone. -/
theorem climb_clause {fuel bound : ℕ} {clause : Clause}
    (enough : (clauseTokens clause).length ≤ fuel) {tail : List Token}
    (operators : NoPhrase tail) :
    climb (fuel + 1) bound none (clauseTokens clause ++ tail) =
      climb fuel bound (some clause.query) tail := by
  unfold clauseTokens at enough ⊢
  split
  · next single =>
      rw [List.singleton_append, climb_string operators, Clause.query, single]
      rfl
  · next several =>
      rw [if_neg several] at enough
      obtain ⟨spare, budget, least⟩ : ∃ spare, fuel = spare + clause.2.length + 1 ∧ 2 ≤ spare := by
        have size : clause.2.length ≤
            (clause.2.flatMap fun text => [Token.and, .string text]).length := by
          rw [List.length_flatMap]
          simp only [List.length_cons, List.length_nil, List.map_const', List.sum_replicate,
            smul_eq_mul]
          omega
        simp only [conjunctionTokens, List.length_append, List.length_cons, List.length_nil]
          at enough
        exact ⟨fuel - clause.2.length - 1, by omega, by omega⟩
      have closed : Stops 2 (.closeParenthesis :: tail) ∧ NoPhrase (.closeParenthesis :: tail) := by
        refine ⟨?_, ?_⟩
        · rintro _ ⟨⟩ _ ⟨⟩
        · rintro _ ⟨⟩
      have next : NoPhrase ((clause.2.flatMap fun text => [Token.and, .string text]) ++
          .closeParenthesis :: tail) := by
        cases texts : clause.2 with
        | nil => exact closed.2
        | cons _ _ => rintro _ ⟨⟩
      have inner : climb fuel 0 none (conjunctionTokens clause ++ .closeParenthesis :: tail) =
          some (clause.query, .closeParenthesis :: tail) := by
        obtain ⟨more, rest⟩ : ∃ more, spare = more + 1 := ⟨spare - 1, by omega⟩
        rw [budget, conjunctionTokens, List.cons_append, climb_string next,
          climb_and (by omega) least closed.1 closed.2, rest]
        refine climb_of_stops ?_ more _
        rintro _ ⟨⟩ _ ⟨⟩
      have shape :
          Token.openParenthesis :: conjunctionTokens clause ++ [.closeParenthesis] ++ tail =
            .openParenthesis :: (conjunctionTokens clause ++ .closeParenthesis :: tail) := by simp
      rw [shape]
      simp only [climb, inner]

/-- The further clauses of a disjunction. -/
theorem climb_or {fuel : ℕ} (positive : 1 ≤ fuel) (clauses : List Clause)
    (enough : ∀ clause ∈ clauses, (clauseTokens clause).length + 1 ≤ fuel) (left : Query) :
    climb (fuel + clauses.length) 0 (some left)
        (clauses.flatMap fun clause => .or :: clauseTokens clause) =
      some (clauses.foldl (fun left clause => .or left clause.query) left, []) := by
  induction clauses generalizing left with
  | nil =>
      obtain ⟨spare, budget⟩ : ∃ spare, fuel = spare + 1 := ⟨fuel - 1, by omega⟩
      rw [budget]
      rfl
  | cons clause clauses ih =>
      have room := enough clause List.mem_cons_self
      have next : Stops 1 (clauses.flatMap fun clause => .or :: clauseTokens clause) ∧
          NoPhrase (clauses.flatMap fun clause => .or :: clauseTokens clause) := by
        cases clauses with
        | nil => exact ⟨by rintro _ ⟨⟩, by rintro _ ⟨⟩⟩
        | cons _ _ =>
            refine ⟨?_, ?_⟩
            · rintro _ ⟨⟩ _ ⟨⟩
              decide
            · rintro _ ⟨⟩
      obtain ⟨spare, budget⟩ : ∃ spare, fuel + clauses.length = spare + 2 :=
        ⟨fuel + clauses.length - 2, by
          have some_token : 1 ≤ (clauseTokens clause).length := by
            unfold clauseTokens
            split <;> simp
          omega⟩
      have operand : climb (fuel + clauses.length) 1 none (clauseTokens clause ++
          clauses.flatMap fun clause => .or :: clauseTokens clause) =
            some (clause.query, clauses.flatMap fun clause => .or :: clauseTokens clause) := by
        rw [budget, climb_clause (by omega) next.2, climb_of_stops next.1]
      rw [List.length_cons, ← Nat.add_assoc, List.flatMap_cons, List.foldl_cons,
        ← ih fun other member => enough other (List.mem_cons_of_mem _ member)]
      simp only [List.cons_append, climb, precedence, lt_self_iff_false, ↓reduceIte, operand]

theorem length_disjunctionTokens_le (rest : List Clause) :
    rest.length ≤ (rest.flatMap fun clause => Token.or :: clauseTokens clause).length ∧
      ∀ clause ∈ rest, rest.length + (clauseTokens clause).length ≤
        (rest.flatMap fun clause => Token.or :: clauseTokens clause).length := by
  induction rest with
  | nil => exact ⟨le_rfl, nofun⟩
  | cons clause rest ih =>
      simp only [List.flatMap_cons, List.length_append, List.length_cons]
      refine ⟨by omega, fun other member => ?_⟩
      rcases List.mem_cons.mp member with rfl | later
      · omega
      · have bound := ih.2 other later
        omega

/-- A printed disjunction of conjunctions of quoted phrases is read as such. -/
theorem parse_printDisjunction {first : Clause} {rest : List Clause}
    (free : ∀ clause ∈ first :: rest, ∀ text ∈ clause.texts, '"' ∉ text) :
    parse (printDisjunction first rest) = some (disjunctionQuery first rest) := by
  have some_token : 1 ≤ (clauseTokens first).length := by
    unfold clauseTokens
    split <;> simp
  obtain ⟨all, each⟩ := length_disjunctionTokens_le rest
  have operators : NoPhrase (rest.flatMap fun clause => .or :: clauseTokens clause) := by
    cases rest with
    | nil => rintro _ ⟨⟩
    | cons _ _ => rintro _ ⟨⟩
  have total : (disjunctionTokens first rest).length = (clauseTokens first).length +
      (rest.flatMap fun clause => Token.or :: clauseTokens clause).length :=
    List.length_append
  obtain ⟨fuel, budget⟩ : ∃ fuel, (disjunctionTokens first rest).length = fuel + rest.length :=
    ⟨(disjunctionTokens first rest).length - rest.length, by omega⟩
  have climbed : climb ((disjunctionTokens first rest).length + 1) 0 none
      (disjunctionTokens first rest) = some (disjunctionQuery first rest, []) := by
    have enough : ∀ clause ∈ rest, (clauseTokens clause).length + 1 ≤ fuel := by
      intro clause member
      have bound := each clause member
      omega
    rw [disjunctionTokens, climb_clause (by rw [← disjunctionTokens]; omega) operators,
      ← disjunctionTokens, budget, climb_or (by omega) rest enough]
    rfl
  simp only [parse, lex_printDisjunction free, Option.bind_eq_bind, Option.bind_some, climbed]

section Holds

variable {τ : Type*} [DecidableEq τ] {tokenize : List Char → List τ} {columns : List (List τ)}

theorem holds_clause (clause : Clause) : clause.query.holds tokenize columns = true ↔
    ∀ text ∈ clause.texts, (Query.phrase text).holds tokenize columns = true := by
  have further (texts : List (List Char)) (left : Query) :
      (texts.foldl (fun left text => .and left (.phrase text)) left).holds tokenize columns = true ↔
        left.holds tokenize columns = true ∧
          ∀ text ∈ texts, (Query.phrase text).holds tokenize columns = true := by
    induction texts generalizing left with
    | nil => simp
    | cons text texts ih =>
        rw [List.foldl_cons, ih, Query.holds, Bool.and_eq_true, and_assoc, List.forall_mem_cons]
  rw [Clause.query, further, Clause.texts, List.forall_mem_cons]

theorem holds_disjunction (first : Clause) (rest : List Clause) :
    (disjunctionQuery first rest).holds tokenize columns = true ↔
      ∃ clause ∈ first :: rest, ∀ text ∈ clause.texts,
        (Query.phrase text).holds tokenize columns = true := by
  have further (clauses : List Clause) (left : Query) :
      (clauses.foldl (fun left clause => .or left clause.query) left).holds tokenize columns =
          true ↔
        left.holds tokenize columns = true ∨
          ∃ clause ∈ clauses, clause.query.holds tokenize columns = true := by
    induction clauses generalizing left with
    | nil => simp
    | cons clause clauses ih =>
        rw [List.foldl_cons, ih, Query.holds, Bool.or_eq_true, or_assoc, List.exists_mem_cons_iff]
  simp only [disjunctionQuery, further, holds_clause, List.exists_mem_cons_iff]

end Holds

end QueryLanguage
