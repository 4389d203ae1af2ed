import AribcapDb.Foundation.Greedy
import AribcapDb.Foundation.Squeeze
import AribcapDb.Crates

/-! # Lines on the terminal

What `tail` prints of a JSON line in the normal mode: a label and the text of a caption or of a
program, cut to the width of the terminal. The text comes from a broadcast, and every way that it
takes to the terminal leaves it without control characters
(`normal_lines_carry_no_escapes`). -/

namespace AribcapDb

/-- `anstyle::AnsiColor`, as far as the labels use it. -/
inductive AnsiColor where
  | red
  | green
  | yellow
  | blue
  | magenta
  | cyan
  | brightRed
  | brightGreen
  | brightYellow
  | brightBlue
  | brightMagenta
  | brightCyan
  deriving DecidableEq, Repr

/-- `anstyle::Color`. -/
inductive Color where
  | ansi (color : AnsiColor)
  | ansi256 (index : UInt8)
  deriving DecidableEq, Repr

/-- `anstyle::Style`. -/
structure Style where
  foreground : Color
  bold : Bool
  deriving DecidableEq, Repr

/-- How the `anstyle` crate writes a style. -/
structure Anstyle where
  render : Style → String
  renderReset : Style → String

/-- The `unicode-width` crate. Spaces, the box-drawing character of the separator and the dots of
the ellipsis are no part of a sequence that is wider or narrower than its characters. -/
structure UnicodeWidth where
  str : String → ℕ
  char : Char → Option ℕ
  str_ellipsis : str "..." = 3
  str_separator : ∀ label body, str (label ++ " │ " ++ body) = str label + str " │ " + str body
  str_append_ellipsis : ∀ text, str (text ++ "...") = str text + str "..."

/-- The crates behind the terminal output. -/
structure Terminal where
  serde : SerdeJson
  anstyle : Anstyle
  unicodeWidth : UnicodeWidth

def ellipsis : String := "..."

def separator : String := " │ "

def minNormalBodyChars : ℕ := 30

def labelPalette : List Color :=
  [.ansi .brightBlue, .ansi256 208, .ansi .brightMagenta, .ansi .brightYellow, .ansi .brightCyan,
    .ansi .red, .ansi .brightGreen, .ansi256 75, .ansi .blue, .ansi256 129, .ansi .yellow,
    .ansi .magenta, .ansi256 214, .ansi256 30, .ansi .cyan, .ansi256 172, .ansi256 37,
    .ansi256 203, .ansi256 111, .ansi .green, .ansi256 65, .ansi256 99, .ansi256 141,
    .ansi256 167, .ansi .brightRed]

def fnv1aOffsetBasis : UInt32 := 0x811c9dc5

def fnv1aPrime : UInt32 := 0x01000193

/-- `fnv1a32`. -/
def fnv1a32 (input : String) : UInt32 :=
  (utf8Bytes input).foldl (fun hash byte => (hash ^^^ byte.toUInt32) * fnv1aPrime) fnv1aOffsetBasis

/-- `label_color_index`. -/
def labelColorIndex (label : String) : Fin labelPalette.length :=
  ⟨(fnv1a32 label).toNat % labelPalette.length, Nat.mod_lt _ (by decide)⟩

/-- `label_style`. -/
def labelStyle (label : String) : Style := ⟨labelPalette.get (labelColorIndex label), true⟩

/-- `format_label_prefix`. -/
def formatLabelPrefix (anstyle : Anstyle) (label : String) (color : Bool) : String :=
  if color then
    anstyle.render (labelStyle label) ++ label ++ anstyle.renderReset (labelStyle label) ++
      separator
  else label ++ separator

/-- One character of the loop in `normalize_inline_text`. -/
def inlineStep (state : List Char × Bool) (ch : Char) : List Char × Bool :=
  let ch := if isControl ch then ' ' else ch
  if ch = ' ' then (if !state.2 then state.1 ++ [ch] else state.1, true)
  else (state.1 ++ [ch], false)

/-- `normalize_inline_text`. -/
def normalizeInlineText (text : String) : String :=
  trim (String.ofList (text.toList.foldl inlineStep ([], false)).1)

/-- `non_empty_inline_text`. -/
def nonEmptyInlineText (text : String) : Option String :=
  let normalized := normalizeInlineText text
  if normalized.isEmpty then none else some normalized

/-- `caption_body`. -/
def captionBody (value : Value) : Option String :=
  value.strField "text" >>= nonEmptyInlineText

/-- `eit_event_name`. -/
def eitEventName (value : Value) : Option String := do
  let shortEvents ← value.get "shortEvents" >>= Value.asArray
  let jpn := shortEvents.find? fun event => event.strField "languageCode" = some "jpn"
  (jpn >>= fun event => event.strField "eventName" >>= nonEmptyInlineText).orElse fun _ =>
    (shortEvents.filterMap fun event => event.strField "eventName").findSome? nonEmptyInlineText

/-- `eit_body`. -/
def eitBody (value : Value) : Option String := do
  let sect ← value.strField "section"
  if sect ≠ "present" then none
  else
    let eventName := (eitEventName value).getD ""
    let extendedText := (value.strField "extendedText" >>= nonEmptyInlineText).getD ""
    match eventName.isEmpty, extendedText.isEmpty with
    | true, true => none
    | true, false => some ("[番組] " ++ extendedText)
    | false, true => some ("[番組] " ++ eventName)
    | false, false => some ("[番組] " ++ eventName ++ " - " ++ extendedText)

/-- `normal_body`. -/
def normalBody (value : Value) : Option String := do
  let type ← value.strField "type"
  if type = "caption" then captionBody value
  else if type = "eit" then eitBody value
  else none

/-- The width that the `unicode-width` crate gives a character; control characters have none. -/
def UnicodeWidth.charWidth (width : UnicodeWidth) (ch : Char) : ℕ := (width.char ch).getD 0

/-- The loop of `truncate_to_width`, with the width of the characters it has kept. -/
def takeWidth (width : UnicodeWidth) (contentWidth : ℕ) : ℕ → List Char → List Char
  | _, [] => []
  | used, ch :: rest =>
      if contentWidth < used + width.charWidth ch then []
      else ch :: takeWidth width contentWidth (used + width.charWidth ch) rest

/-- `truncate_to_width`. -/
def truncateToWidth (width : UnicodeWidth) (input : String) (maxWidth : ℕ) : String :=
  if width.str input ≤ maxWidth then input
  else if maxWidth = 0 then ""
  else
    let suffixWidth := min (width.str ellipsis) maxWidth
    let contentWidth := maxWidth - suffixWidth
    String.ofList (takeWidth width contentWidth 0 input.toList) ++
      String.ofList (ellipsis.toList.take suffixWidth)

/-- `minimum_body_budget`. -/
def minimumBodyBudget (width : UnicodeWidth) (body : String) : ℕ :=
  if body.toList.length ≤ minNormalBodyChars then width.str body
  else
    let contentWidth := ((body.toList.take minNormalBodyChars).map width.charWidth).sum
    contentWidth + width.str ellipsis

/-- `format_fitted_normal_line`. -/
def formatFittedNormalLine (terminal : Terminal) (label body : String) (color : Bool)
    (maxWidth : ℕ) : String :=
  let labelWidth := terminal.unicodeWidth.str label
  let separatorWidth := terminal.unicodeWidth.str separator
  let terminalBodyBudget := maxWidth - (labelWidth + separatorWidth)
  let bodyBudget := max terminalBodyBudget (minimumBodyBudget terminal.unicodeWidth body)
  formatLabelPrefix terminal.anstyle label color ++
    truncateToWidth terminal.unicodeWidth body bodyBudget

/-- `format_normal_line`. -/
def formatNormalLine (terminal : Terminal) (label line : String) (color : Bool)
    (maxWidth : Option ℕ) : Option String := do
  let value ← terminal.serde.fromStr line
  let body ← normalBody value
  match maxWidth with
  | some maxWidth => some (formatFittedNormalLine terminal label body color maxWidth)
  | none => some (formatLabelPrefix terminal.anstyle label color ++ body)

/-- A text for one line of a terminal: no control characters, single spaces, and no whitespace at
the ends. -/
structure IsInline (text : String) : Prop where
  controlFree : ∀ char ∈ text.toList, isControl char = false
  tidy : Squeeze.Tidy ' ' isWhitespace text.toList

/-- What stands for a character on the terminal. -/
def inlineChar (ch : Char) : Char := if isControl ch then ' ' else ch

theorem isControl_inlineChar (ch : Char) : isControl (inlineChar ch) = false := by
  unfold inlineChar
  split
  · decide
  · next plain => exact Bool.eq_false_iff.mpr plain

theorem inlineChar_of_plain {ch : Char} (plain : isControl ch = false) : inlineChar ch = ch := by
  rw [inlineChar, if_neg (Bool.eq_false_iff.mp plain)]

/-- The loop squeezes the spaces that it sees. -/
theorem foldl_inlineStep (chars : List Char) :
    (chars.foldl inlineStep ([], false)).1 = Squeeze.squeeze ' ' (chars.map inlineChar) := by
  have same : inlineStep = fun state ch => Squeeze.step ' ' state (inlineChar ch) := by
    funext state ch
    unfold inlineStep Squeeze.step inlineChar
    cases state.2 <;> rfl
  rw [← Squeeze.foldl_step, List.foldl_map, same]

theorem toList_normalizeInlineText (text : String) : (normalizeInlineText text).toList =
    Squeeze.strip isWhitespace (Squeeze.squeeze ' ' (text.toList.map inlineChar)) := by
  rw [normalizeInlineText, trim, String.toList_ofList, String.toList_ofList, foldl_inlineStep]
  rfl

theorem isInline_normalizeInlineText (text : String) : IsInline (normalizeInlineText text) where
  controlFree := by
    intro char member
    rw [toList_normalizeInlineText] at member
    have squeezed := (Squeeze.strip_isInfix _).subset member
    have mapped := (List.destutter_sublist _ _).subset squeezed
    obtain ⟨ch, _, rfl⟩ := List.mem_map.mp mapped
    exact isControl_inlineChar ch
  tidy := by
    rw [toList_normalizeInlineText]
    exact Squeeze.tidy_strip_squeeze _

/-- A text that is inline already stays as it is. -/
theorem IsInline.normalizeInlineText_eq {text : String} (inline : IsInline text) :
    normalizeInlineText text = text := by
  have plain : text.toList.map inlineChar = text.toList := by
    conv_rhs => rw [← List.map_id text.toList]
    apply List.map_congr_left
    intro char member
    exact inlineChar_of_plain (inline.controlFree char member)
  apply String.toList_inj.mp
  rw [toList_normalizeInlineText, plain, inline.tidy.squeeze_eq, inline.tidy.strip_eq]

theorem isInline_of_nonEmptyInlineText {text body : String}
    (found : nonEmptyInlineText text = some body) : IsInline body ∧ body ≠ "" := by
  unfold nonEmptyInlineText at found
  dsimp only at found
  split at found
  · cases found
  · next filled =>
      obtain rfl := Option.some.inj found
      exact ⟨isInline_normalizeInlineText text, by simpa using filled⟩

/-- Two texts with something harmless between them. -/
theorem IsInline.join {first second glue : String} (inline : IsInline first)
    (other : IsInline second) (filled : first ≠ "") (more : second ≠ "")
    (plain : ∀ char ∈ glue.toList, isControl char = false)
    (apart : glue.toList.IsChain (Squeeze.Apart ' ')) : IsInline (first ++ glue ++ second) where
  controlFree := by
    intro char member
    simp only [String.toList_append, List.mem_append] at member
    rcases member with (own | between) | later
    · exact inline.controlFree char own
    · exact plain char between
    · exact other.controlFree char later
  tidy := by
    rw [String.toList_append, String.toList_append, List.append_assoc]
    exact inline.tidy.join other.tidy (by decide) (by simpa using filled) (by simpa using more)
      apart

/-! ### What the bodies are made of -/

theorem isInline_captionBody {value : Value} {body : String}
    (printable : captionBody value = some body) : IsInline body ∧ body ≠ "" := by
  obtain ⟨text, _, found⟩ := Option.bind_eq_some_iff.mp printable
  exact isInline_of_nonEmptyInlineText found

theorem isInline_eitEventName {value : Value} {name : String}
    (found : eitEventName value = some name) : IsInline name ∧ name ≠ "" := by
  obtain ⟨shortEvents, _, named⟩ := Option.bind_eq_some_iff.mp found
  rcases (Option.orElse_eq_some _ _ _).mp named with japanese | ⟨_, other⟩
  · obtain ⟨event, _, text⟩ := Option.bind_eq_some_iff.mp japanese
    obtain ⟨eventName, _, normalized⟩ := Option.bind_eq_some_iff.mp text
    exact isInline_of_nonEmptyInlineText normalized
  · obtain ⟨eventName, _, normalized⟩ := List.exists_of_findSome?_eq_some other
    exact isInline_of_nonEmptyInlineText normalized

/-- A part of a program's text that may be missing. -/
theorem isInline_getD (part : Option String)
    (inline : ∀ text, part = some text → IsInline text ∧ text ≠ "")
    (filled : (part.getD "").isEmpty = false) :
    IsInline (part.getD "") ∧ part.getD "" ≠ "" := by
  cases part with
  | none => cases filled
  | some text => exact inline text rfl

theorem isInline_programMark : IsInline "[番組]" := by
  have mark : "[番組]".toList = ['[', '番', '組', ']'] := rfl
  constructor
  · rw [mark]
    simp [isControl]
  · rw [mark]
    exact ⟨by decide, by simp [isWhitespace], by simp [isWhitespace]⟩

/-- The mark of a program and a part of its text. -/
theorem IsInline.marked {text : String} (inline : IsInline text) (filled : text ≠ "") :
    IsInline ("[番組] " ++ text) := by
  have parts : "[番組] " = "[番組]" ++ " " := rfl
  rw [parts]
  apply isInline_programMark.join inline (by simp) filled
  · simp [isControl]
  · exact List.IsChain.singleton _

theorem marked_ne_empty (text : String) : "[番組] " ++ text ≠ "" := by
  intro empty
  have none_left := congrArg String.length empty
  rw [String.length_append] at none_left
  exact absurd (Nat.eq_zero_of_add_eq_zero_right none_left) (by decide)

theorem isInline_eitBody {value : Value} {body : String} (printable : eitBody value = some body) :
    IsInline body ∧ body ≠ "" := by
  obtain ⟨sect, _, present⟩ := Option.bind_eq_some_iff.mp printable
  split at present
  · cases present
  · have name := isInline_getD (eitEventName value) fun text => isInline_eitEventName
    have extended := isInline_getD (value.strField "extendedText" >>= nonEmptyInlineText)
      fun text found => by
        obtain ⟨field, _, normalized⟩ := Option.bind_eq_some_iff.mp found
        exact isInline_of_nonEmptyInlineText normalized
    dsimp only at present
    split at present
    · cases present
    · next _ filled =>
        obtain rfl := Option.some.inj present
        obtain ⟨inline, nonempty⟩ := extended filled
        exact ⟨inline.marked nonempty, marked_ne_empty _⟩
    · next filled _ =>
        obtain rfl := Option.some.inj present
        obtain ⟨inline, nonempty⟩ := name filled
        exact ⟨inline.marked nonempty, marked_ne_empty _⟩
    · next filled more =>
        obtain rfl := Option.some.inj present
        obtain ⟨inline, nonempty⟩ := name filled
        obtain ⟨other, rest⟩ := extended more
        refine ⟨?_, ?_⟩
        · apply (inline.marked nonempty).join other (marked_ne_empty _) rest
          · simp [isControl]
          · decide
        · rw [String.append_assoc, String.append_assoc]
          exact marked_ne_empty _

/-- Every printable body is inline. -/
theorem isInline_normalBody {value : Value} {body : String}
    (printable : normalBody value = some body) : IsInline body ∧ body ≠ "" := by
  obtain ⟨type, _, made⟩ := Option.bind_eq_some_iff.mp printable
  split at made
  · exact isInline_captionBody made
  · split at made
    · exact isInline_eitBody made
    · cases made

/-! ### What a line shows of its body -/

/-- The width that `format_fitted_normal_line` lets a body have. -/
def bodyBudget (width : UnicodeWidth) (label body : String) (maxWidth : ℕ) : ℕ :=
  max (maxWidth - (width.str label + width.str separator)) (minimumBodyBudget width body)

/-- What stands after the label and the separator. -/
def shownBody (width : UnicodeWidth) (label body : String) : Option ℕ → String
  | none => body
  | some maxWidth => truncateToWidth width body (bodyBudget width label body maxWidth)

theorem formatNormalLine_eq_some {terminal : Terminal} {label line out : String} {color : Bool}
    {maxWidth : Option ℕ} : formatNormalLine terminal label line color maxWidth = some out ↔
      ∃ value body, terminal.serde.fromStr line = some value ∧ normalBody value = some body ∧
        out = formatLabelPrefix terminal.anstyle label color ++
          shownBody terminal.unicodeWidth label body maxWidth := by
  constructor
  · intro printed
    obtain ⟨value, parsed, more⟩ := Option.bind_eq_some_iff.mp printed
    obtain ⟨body, printable, shown⟩ := Option.bind_eq_some_iff.mp more
    refine ⟨value, body, parsed, printable, ?_⟩
    cases maxWidth with
    | none => exact (Option.some.inj shown).symm
    | some maxWidth => exact (Option.some.inj shown).symm
  · rintro ⟨value, body, parsed, printable, rfl⟩
    apply Option.bind_eq_some_iff.mpr
    refine ⟨value, parsed, Option.bind_eq_some_iff.mpr ⟨body, printable, ?_⟩⟩
    cases maxWidth <;> rfl

/-- The loop of the cut takes characters while their widths fit. -/
theorem takeWidth_eq (width : UnicodeWidth) (contentWidth used : ℕ) (chars : List Char) :
    takeWidth width contentWidth used chars =
      Greedy.takeFrom width.charWidth contentWidth used chars := by
  induction chars generalizing used with
  | nil => rfl
  | cons ch rest ih => rw [takeWidth, Greedy.takeFrom, ih]

theorem isLongest_takeWidth (width : UnicodeWidth) (contentWidth : ℕ) (chars : List Char) :
    Greedy.IsLongest width.charWidth contentWidth chars
      (takeWidth width contentWidth 0 chars) := by
  rw [takeWidth_eq]
  exact Greedy.isLongest_takeFrom (Nat.zero_le _) chars

/-- Cutting a text adds no control characters. -/
theorem controlFree_truncateToWidth (width : UnicodeWidth) {text : String}
    (plain : ∀ char ∈ text.toList, isControl char = false) (maxWidth : ℕ) :
    ∀ char ∈ (truncateToWidth width text maxWidth).toList, isControl char = false := by
  unfold truncateToWidth
  split
  · exact plain
  · split
    · simp
    · intro char member
      rw [String.toList_append, String.toList_ofList, String.toList_ofList, List.mem_append]
        at member
      rcases member with own | dot
      · exact plain char ((isLongest_takeWidth width _ _).front.subset own)
      · have dots : ∀ char ∈ ellipsis.toList, isControl char = false := by
          simp [ellipsis, isControl]
        exact dots char (List.mem_of_mem_take dot)

theorem controlFree_shownBody (width : UnicodeWidth) (label : String) {body : String}
    (plain : ∀ char ∈ body.toList, isControl char = false) (maxWidth : Option ℕ) :
    ∀ char ∈ (shownBody width label body maxWidth).toList, isControl char = false := by
  cases maxWidth with
  | none => exact plain
  | some maxWidth => exact controlFree_truncateToWidth width plain _

/-- Whatever comes in, an uncoloured line is its label, the separator and what is shown of a text
without control characters, runs of spaces and surrounding whitespace. Normalizing such a text
again changes nothing. -/
theorem normal_lines_carry_no_escapes (terminal : Terminal) :
    (∀ label line maxWidth out, formatNormalLine terminal label line false maxWidth = some out →
      ∃ value body shown, terminal.serde.fromStr line = some value ∧
        normalBody value = some body ∧ IsInline body ∧ out = label ++ separator ++ shown ∧
          (∀ char ∈ shown.toList, isControl char = false) ∧
            (maxWidth = none → shown = body) ∧
              ∀ columns, maxWidth = some columns →
                shown = truncateToWidth terminal.unicodeWidth body
                  (bodyBudget terminal.unicodeWidth label body columns)) ∧
    ∀ text, normalizeInlineText (normalizeInlineText text) = normalizeInlineText text := by
  constructor
  · intro label line maxWidth out printed
    obtain ⟨value, body, parsed, printable, rfl⟩ := formatNormalLine_eq_some.mp printed
    have inline := (isInline_normalBody printable).1
    refine ⟨value, body, _, parsed, printable, inline, rfl, ?_, ?_, ?_⟩
    · exact controlFree_shownBody _ label inline.controlFree maxWidth
    · intro whole
      rw [whole]
      rfl
    · intro columns cut
      rw [cut]
      rfl
  · intro text
    exact (isInline_normalizeInlineText text).normalizeInlineText_eq

/-! ### A terminal for examples -/

namespace UnicodeWidth

/-- The width of a character of ASCII text, the separator and hearts. -/
def heartChar (ch : Char) : Option ℕ :=
  if isControl ch then none else if ch = '\uFE0F' then some 0 else some 1

/-- The width that a character adds to a string. A heart with a presentation selector is as wide
as an emoji, which is two columns. -/
def heartStep (previous : Option Char) (ch : Char) : ℕ :=
  if previous = some '❤' ∧ ch = '\uFE0F' then 1 else (heartChar ch).getD 1

def heartWidth : Option Char → List Char → ℕ
  | _, [] => 0
  | previous, ch :: rest => heartStep previous ch + heartWidth (some ch) rest

theorem heartWidth_of_other (ch : Char) (other : ch ≠ '❤') (chars : List Char) :
    heartWidth (some ch) chars = heartWidth none chars := by
  cases chars with
  | nil => rfl
  | cons first rest =>
      have apart : heartStep (some ch) first = heartStep none first := by
        simp [heartStep, other]
      rw [heartWidth, heartWidth, apart]

theorem heartWidth_append (previous : Option Char) (front : List Char) (ch : Char)
    (other : ch ≠ '\uFE0F') (rest : List Char) : heartWidth previous (front ++ ch :: rest) =
      heartWidth previous front + heartWidth none (ch :: rest) := by
  induction front generalizing previous with
  | nil =>
      have apart (last : Option Char) : heartStep last ch = (heartChar ch).getD 1 :=
        if_neg fun pair => other pair.2
      rw [List.nil_append, heartWidth, heartWidth, heartWidth, apart, apart, Nat.zero_add]
  | cons first front ih =>
      rw [List.cons_append, heartWidth, heartWidth, ih, Nat.add_assoc]

/-- The `unicode-width` crate on ASCII text, the separator and hearts. -/
def hearts : UnicodeWidth where
  str text := heartWidth none text.toList
  char := heartChar
  str_ellipsis := by rfl
  str_separator label body := by
    have columns : " │ ".toList = [' ', '│', ' '] := rfl
    have three : heartWidth none " │ ".toList = 3 := rfl
    have after := heartWidth_of_other ' ' (by decide) body.toList
    have steps : heartWidth none (' ' :: '│' :: ' ' :: body.toList) =
        1 + (1 + (1 + heartWidth (some ' ') body.toList)) := rfl
    have before := heartWidth_append none label.toList ' ' (by decide)
      ('│' :: ' ' :: body.toList)
    rw [String.toList_append, String.toList_append, three, columns, List.append_assoc]
    rw [List.cons_append, List.cons_append, List.cons_append, List.nil_append, before, steps, after]
    omega
  str_append_ellipsis text := by
    have dots : "...".toList = ['.', '.', '.'] := rfl
    rw [String.toList_append, dots]
    exact heartWidth_append none text.toList '.' (by decide) _

end UnicodeWidth

namespace Sample

def escapedLine : String :=
  "\x7b\"type\":\"caption\",\"text\":\" a\\u001b[31m\\n\\nb  \"\x7d"

/-- A caption with an escape sequence, line breaks and surrounding spaces. -/
def escaped : Value :=
  .object [("type", .string "caption"), ("text", .string " a\x1b[31m\n\nb  ")]

def terminal (records : List (String × Value)) (nonempty : records.lookup "" = none) :
    Terminal where
  serde := (Crates.ascii records nonempty).serde
  anstyle := ⟨fun _ => "\x1b[1m", fun _ => "\x1b[0m"⟩
  unicodeWidth := .hearts

theorem fromStr_terminal (records : List (String × Value)) (nonempty : records.lookup "" = none)
    (line : String) : (terminal records nonempty).serde.fromStr line =
      records.lookup (trimEndCr line) := rfl

def escapedTerminal : Terminal := terminal [(escapedLine, escaped)] rfl

theorem print_escaped : formatNormalLine escapedTerminal "nhk" escapedLine false none =
    some "nhk │ a [31m b" := by
  decide +kernel

end Sample

theorem normal_lines_carry_no_escapes_sample :
    ∃ shown : String, "nhk │ a [31m b" = "nhk" ++ separator ++ shown ∧
      ∀ char ∈ shown.toList, isControl char = false := by
  obtain ⟨value, body, shown, _, _, _, split, plain, _⟩ :=
    (normal_lines_carry_no_escapes Sample.escapedTerminal).1 "nhk" Sample.escapedLine none _
      Sample.print_escaped
  exact ⟨shown, split, plain⟩

end AribcapDb
