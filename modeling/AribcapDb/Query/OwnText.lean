import AribcapDb.Archive.Components
import AribcapDb.Foundation.Normalization
import AribcapDb.Query.Grammar

/-! # Searching for a text itself

The index normalizes a text with its whitespace; the parser removes the whitespace first. NFKC may
then compose or reorder characters across the gap, which it does not do in the indexed text. A text
finds itself when each of its words begins with a starter that does not compose with what precedes
it (`text_finds_itself`); a letter and a combining mark with a space between them are composed
(`accent_after_space_is_not_found`). -/

namespace AribcapDb

/-- `nfkc` with the tables of the Unicode Character Database. Whitespace decomposes into starters
that take part in no composite and that lowercasing keeps out of the alphanumeric characters. -/
structure Compatibility (unicode : Unicode) where
  form : Normalization Char
  nfkc_eq : ∀ text, (unicode.nfkc text).toList = form.normalize text.toList
  decompose_whitespace : ∀ char, isWhitespace char = true → form.decompose char ≠ []
  inert_whitespace : ∀ char, isWhitespace char = true →
    ∀ part ∈ form.decompose char, form.IsInert part
  dropped_whitespace : ∀ char, isWhitespace char = true → ∀ part ∈ form.decompose char,
    ∀ lower ∈ unicode.toLowercase part, unicode.isAlphanumeric lower = false

/-- The words of a text, written without what is between them, normalize to the normalized
words. -/
def NormalizeApart (unicode : Unicode) (words : List String) : Prop :=
  normalizeSearchText unicode (String.join words) =
    String.join (words.map (normalizeSearchText unicode))

instance (unicode : Unicode) (words : List String) : Decidable (NormalizeApart unicode words) :=
  inferInstanceAs (Decidable (_ = _))

/-- Every word after the first begins with a starter that does not compose with the last character
of the words in front of it. -/
def WordsBeginApart (form : Normalization Char) (words : List String) : Prop :=
  ∀ index < words.length, 0 < index →
    form.BeginsApart (String.join (words.take index)).toList (words.getD index "").toList

instance (form : Normalization Char) (words : List String) :
    Decidable (WordsBeginApart form words) :=
  inferInstanceAs (Decidable (∀ index < words.length, _))

/-- The text is read as one term, its own normalization, and finds every caption with this text. -/
structure FindsItself (crates : Crates) {τ : Type} [DecidableEq τ]
    (unicode61 : Unicode61 crates.unicode τ) (text : String) : Prop where
  single : parseSearchExpression crates.unicode text =
    .ok ⟨[[normalizeSearchText crates.unicode text]]⟩
  found : ∀ (archiveRoot : String) (db : SearchDb), IndexReachable crates archiveRoot db →
    ∀ row ∈ db.captionLines, row.caption.text = text →
      ∃ lines, db.matchedLines unicode61
          (expressionFts ⟨[[normalizeSearchText crates.unicode text]]⟩) = some lines ∧
        row.id ∈ lines

/-- The characters that a text is searched by. -/
def searchedChars (unicode : Unicode) (chars : List Char) : List Char :=
  (chars.flatMap unicode.toLowercase).filter unicode.isAlphanumeric

section Words

variable {unicode : Unicode}

theorem searchedChars_append (left right : List Char) :
    searchedChars unicode (left ++ right) =
      searchedChars unicode left ++ searchedChars unicode right := by
  simp [searchedChars]

theorem toList_normalizeSearchText (compatibility : Compatibility unicode) (text : String) :
    (normalizeSearchText unicode text).toList =
      searchedChars unicode (compatibility.form.normalize text.toList) := by
  rw [normalizeSearchText, String.toList_ofList, compatibility.nfkc_eq, searchedChars]

theorem searchedChars_whitespace (compatibility : Compatibility unicode) {char : Char}
    (whitespace : isWhitespace char = true) :
    searchedChars unicode (compatibility.form.decompose char) = [] := by
  rw [searchedChars, List.filter_eq_nil_iff]
  intro lower member
  obtain ⟨part, inside, own⟩ := List.mem_flatMap.mp member
  rw [compatibility.dropped_whitespace char whitespace part inside lower own]
  exact Bool.false_ne_true

/-- Whitespace separates what is normalized around it, and nothing of it is searched. -/
theorem searchedChars_around_whitespace (compatibility : Compatibility unicode) {char : Char}
    (whitespace : isWhitespace char = true) (left right : List Char) :
    searchedChars unicode (compatibility.form.normalize (left ++ char :: right)) =
      searchedChars unicode (compatibility.form.normalize left) ++
        searchedChars unicode (compatibility.form.normalize right) := by
  have single : [char].flatMap compatibility.form.decompose =
      compatibility.form.decompose char := List.flatMap_singleton ..
  have separated : compatibility.form.normalize (left ++ ([char] ++ right)) =
      compatibility.form.normalize left ++ ([char].flatMap compatibility.form.decompose ++
        compatibility.form.normalize right) :=
    Normalization.normalize_separator
      (single ▸ compatibility.decompose_whitespace char whitespace)
      (single ▸ compatibility.inert_whitespace char whitespace) left right
  rw [single, List.singleton_append] at separated
  rw [separated, searchedChars_append, searchedChars_append,
    searchedChars_whitespace compatibility whitespace, List.nil_append]

/-- A text is searched by the characters of its words. -/
theorem searchedChars_pieces (compatibility : Compatibility unicode) (chars : List Char) :
    searchedChars unicode (compatibility.form.normalize chars) =
      (chars.splitOnP isWhitespace).flatMap fun word =>
        searchedChars unicode (compatibility.form.normalize word) := by
  by_cases free : ∀ char ∈ chars, isWhitespace char = false
  · rw [List.splitOnP_eq_singleton free, List.flatMap_singleton]
  · push Not at free
    obtain ⟨char, member, whitespace⟩ := free
    rw [ne_eq, Bool.not_eq_false] at whitespace
    obtain ⟨left, right, rfl⟩ := List.append_of_mem member
    have fewer : left.length < (left ++ char :: right).length := by simp
    have later : right.length < (left ++ char :: right).length := by simp; omega
    rw [searchedChars_around_whitespace compatibility whitespace,
      List.splitOnP_append_cons left right whitespace, List.flatMap_append,
      ← searchedChars_pieces compatibility left, ← searchedChars_pieces compatibility right]
termination_by chars.length

/-- The normalized text is its normalized words. -/
theorem normalizeSearchText_eq_join (compatibility : Compatibility unicode) (text : String) :
    normalizeSearchText unicode text =
      String.join ((splitWhitespace text).map (normalizeSearchText unicode)) := by
  apply String.toList_injective
  have nothing : searchedChars unicode (compatibility.form.normalize []) = [] := rfl
  rw [toList_normalizeSearchText compatibility, searchedChars_pieces compatibility,
    String.toList_join, splitWhitespace]
  simp only [List.flatMap_map, toList_normalizeSearchText compatibility, String.toList_ofList]
  induction text.toList.splitOnP isWhitespace with
  | nil => rfl
  | cons word words ih =>
      by_cases empty : word = []
      · simp only [empty, List.flatMap_cons, nothing, List.nil_append, ih, List.filter_cons,
          ne_eq, not_true_eq_false, decide_false, Bool.false_eq_true, ↓reduceIte]
      · simp only [List.flatMap_cons, ih, List.filter_cons, ne_eq, empty, not_false_eq_true,
          decide_true, ↓reduceIte]

/-- Words that begin with such starters normalize apart. -/
theorem WordsBeginApart.normalizeApart (compatibility : Compatibility unicode)
    {words : List String} (apart : WordsBeginApart compatibility.form words) :
    NormalizeApart unicode words := by
  apply String.toList_injective
  rw [toList_normalizeSearchText compatibility]
  simp only [String.toList_join, List.flatMap_map, toList_normalizeSearchText compatibility]
  induction words using List.reverseRecOn with
  | nil => rfl
  | append_singleton earlier word ih =>
      have before : WordsBeginApart compatibility.form earlier := by
        intro index inside positive
        have whole := apart index (by simp; omega) positive
        rwa [List.take_append_of_le_length inside.le, List.getD_append _ _ _ _ inside] at whole
      rw [List.flatMap_append, List.flatMap_append, List.flatMap_singleton,
        List.flatMap_singleton, ← ih before, ← searchedChars_append]
      by_cases empty : earlier = []
      · rw [empty]
        rfl
      · have last := apart earlier.length (by simp) (List.length_pos_of_ne_nil empty)
        rw [List.take_left, List.getD_append_right _ _ _ _ le_rfl, Nat.sub_self,
          List.getD_cons_zero, String.toList_join] at last
        rw [Normalization.normalize_append last]

/-- Tokens without an operator are one run. -/
theorem parseSearchExpression_words {text : String} {expression : SearchExpression}
    (words : ∀ token ∈ splitWhitespace text, isOperator token = false) :
    parseSearchExpression unicode text = .ok expression ↔
      IsSearchable unicode (splitWhitespace text) ∧
        expression.clauses = [[runTerm unicode (splitWhitespace text)]] := by
  rw [parseSearchExpression_ok_iff, isGrammatical_iff, List.splitOnP_eq_singleton words,
    tokenClauses_of_words words]
  simp only [List.mem_singleton, forall_eq]

end Words

/-- What the parser reads is the indexed text exactly when the words normalize apart. -/
theorem findsItself_iff {crates : Crates} {τ : Type} [DecidableEq τ]
    (unicode61 : Unicode61 crates.unicode τ) (quotes : crates.unicode.isAlphanumeric '"' = false)
    (compatibility : Compatibility crates.unicode) {text : String}
    (words : ∀ token ∈ splitWhitespace text, isOperator token = false)
    (searchable : normalizeSearchText crates.unicode text ≠ "") :
    FindsItself crates unicode61 text ↔
      NormalizeApart crates.unicode (splitWhitespace text) := by
  have joined := normalizeSearchText_eq_join compatibility text
  constructor
  · intro finds
    obtain ⟨_, clauses⟩ := (parseSearchExpression_words words).mp finds.single
    have same : normalizeSearchText crates.unicode text =
        runTerm crates.unicode (splitWhitespace text) := by
      simpa using clauses
    exact same.symm.trans joined
  · intro apart
    have same : runTerm crates.unicode (splitWhitespace text) =
        normalizeSearchText crates.unicode text := apart.trans joined.symm
    have some : splitWhitespace text ≠ [] := by
      intro none
      rw [none] at joined
      exact searchable joined
    have single : parseSearchExpression crates.unicode text =
        .ok ⟨[[normalizeSearchText crates.unicode text]]⟩ :=
      (parseSearchExpression_words words).mpr ⟨⟨some, same ▸ searchable⟩, by rw [same]⟩
    refine ⟨single, fun archiveRoot db reachable row member own => ?_⟩
    have finds := findsSubstrings_of_isValid unicode61 quotes (isValid_parseSearchExpression single)
    obtain ⟨lines, _, matched, _, captions, _⟩ := finds.rows archiveRoot db reachable
    refine ⟨lines, matched, (captions row member).mpr ?_⟩
    refine ⟨_, List.mem_singleton_self _, fun term inside => ?_⟩
    rw [List.mem_singleton.mp inside, OccursIn, own]

/-- A text finds itself when each word after the first begins with a starter that NFKC does not
compose with what precedes it. -/
theorem text_finds_itself {crates : Crates} {τ : Type} [DecidableEq τ]
    (unicode61 : Unicode61 crates.unicode τ) (quotes : crates.unicode.isAlphanumeric '"' = false)
    (compatibility : Compatibility crates.unicode) {text : String}
    (words : ∀ token ∈ splitWhitespace text, isOperator token = false)
    (searchable : normalizeSearchText crates.unicode text ≠ "")
    (apart : WordsBeginApart compatibility.form (splitWhitespace text)) :
    FindsItself crates unicode61 text :=
  (findsItself_iff unicode61 quotes compatibility words searchable).mpr
    (apart.normalizeApart compatibility)

namespace Sample

/-- The letter e with an acute accent, and the combining accent. -/
def eAcute : Char := '\u00E9'

def acute : Char := '\u0301'

/-- NFKC of ASCII text and of the accented letter. -/
def accentForm : Normalization Char where
  decompose char := if char = eAcute then ['e', acute] else [char]
  combiningClass char := if char = acute then 230 else 0
  compose first second := if first = 'e' ∧ second = acute then some eAcute else none

def accentUnicode : Unicode where
  nfkc text := String.ofList (accentForm.normalize text.toList)
  toLowercase char := [char.toLower]
  isAlphanumeric char := char.isAlphanum || char == eAcute

def accentCrates : Crates := { crates with unicode := accentUnicode }

theorem accent_whitespace {char part : Char} (whitespace : isWhitespace char = true)
    (inside : part ∈ accentForm.decompose char) : part = char ∧ char ≠ acute ∧ char ≠ 'e' := by
  have others : isWhitespace eAcute = false ∧ isWhitespace acute = false ∧
      isWhitespace 'e' = false := by decide
  have plain : char ≠ eAcute := by
    rintro rfl
    rw [others.1] at whitespace
    cases whitespace
  have single : accentForm.decompose char = [char] := if_neg plain
  rw [single, List.mem_singleton] at inside
  refine ⟨inside, ?_, ?_⟩
  · rintro rfl
    rw [others.2.1] at whitespace
    cases whitespace
  · rintro rfl
    rw [others.2.2] at whitespace
    cases whitespace

theorem toLower_whitespace {char : Char} (whitespace : isWhitespace char = true) :
    char.toLower = char ∧ char.isAlphanum = false := by
  have code : char.toNat ≤ 0x20 ∨ 0x85 ≤ char.toNat := by
    simp only [isWhitespace, Bool.or_eq_true, Bool.and_eq_true, decide_eq_true_eq,
      beq_iff_eq] at whitespace
    omega
  have small : ¬ (char.val ≥ 'A'.val ∧ char.val ≤ 'Z'.val) := by
    rintro ⟨least, most⟩
    have bounds : 65 ≤ char.toNat ∧ char.toNat ≤ 90 :=
      ⟨UInt32.le_iff_toNat_le.mp least, UInt32.le_iff_toNat_le.mp most⟩
    omega
  refine ⟨dif_neg small, Bool.eq_false_iff.mpr fun letter => ?_⟩
  have bounds := toNat_of_isAlphanum letter
  omega

def accents : Compatibility accentUnicode where
  form := accentForm
  nfkc_eq text := String.toList_ofList
  decompose_whitespace char _ := by
    unfold accentForm
    dsimp only
    split <;> simp
  inert_whitespace char whitespace part inside := by
    obtain ⟨rfl, mark, letter⟩ := accent_whitespace whitespace inside
    refine ⟨if_neg mark, fun second => if_neg ?_, fun first => if_neg ?_⟩
    · exact fun both => letter both.1
    · exact fun both => mark both.2
  dropped_whitespace char whitespace part inside lower own := by
    obtain ⟨rfl, _, _⟩ := accent_whitespace whitespace inside
    obtain rfl := List.mem_singleton.mp own
    obtain ⟨lower, noLetter⟩ := toLower_whitespace whitespace
    have plain : (part == eAcute) = false := by
      rw [beq_eq_false_iff_ne]
      rintro rfl
      exact absurd whitespace (by decide)
    rw [lower]
    exact Bool.or_eq_false_iff.mpr ⟨noLetter, plain⟩

def accentUnicode61 : Unicode61 accentCrates.unicode (List Char) where
  tokenize := words
  token char := [char]
  tokenize_spaced chars normalized := words_spaced fun member => by
    have alphanumeric := isAlphanumeric_of_isNormalized (normalized ' ' member)
    exact absurd alphanumeric (by decide)
  token_injective _ _ _ _ same := List.singleton_injective same

end Sample

/-- A letter composed with its accent is in one word and is found. -/
theorem text_finds_itself_sample :
    FindsItself Sample.accentCrates Sample.accentUnicode61 "Cafe\u0301 au lait" :=
  text_finds_itself Sample.accentUnicode61 (by decide) Sample.accents (by decide +kernel)
    (by decide +kernel) (by decide +kernel)

/-- With a space before the accent the indexed text has the bare letter, and the parser looks for
the accented one. -/
theorem accent_after_space_is_not_found : ¬ ∀ (crates : Crates)
    (unicode61 : Unicode61 crates.unicode (List Char)),
    crates.unicode.isAlphanumeric '"' = false → Nonempty (Compatibility crates.unicode) →
      ∀ text, (∀ token ∈ splitWhitespace text, isOperator token = false) →
        normalizeSearchText crates.unicode text ≠ "" → FindsItself crates unicode61 text := by
  intro claim
  have finds := claim Sample.accentCrates Sample.accentUnicode61 (by decide) ⟨Sample.accents⟩
    "Cafe \u0301" (by decide +kernel) (by decide +kernel)
  have read : (parseSearchExpression Sample.accentUnicode "Cafe \u0301").toOption =
      some ⟨[["caf\u00E9"]]⟩ := by decide +kernel
  have other : (⟨[["caf\u00E9"]]⟩ : SearchExpression) ≠
      ⟨[[normalizeSearchText Sample.accentUnicode "Cafe \u0301"]]⟩ := by decide +kernel
  exact other (Except.ok.inj ((eq_ok_of_toOption read).symm.trans finds.single))

end AribcapDb
