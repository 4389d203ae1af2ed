import AribcapDb.Render.NormalLine

/-! # Lines that fit the terminal

Cutting a body keeps its label, its first characters and, where something is left out, an
ellipsis. The cut adds up the widths of single characters, while the width of the terminal is
compared with the width of the whole text: the line fits exactly where the longest front that the
cut may take is no wider than its characters are together (`normal_lines_fit_iff`). A front of
emoji presentation sequences is wider (`hearts_exceed_the_terminal`). -/

namespace AribcapDb

/-- What a line must show of a body: the label as it is, and the body or a front of it with at
least the minimum of characters. -/
def ShowsBody (label body out : String) : Prop :=
  out = label ++ separator ++ body ∨ ∃ shown : String, shown.toList <+: body.toList ∧
    min minNormalBodyChars body.toList.length ≤ shown.toList.length ∧
      out = label ++ separator ++ (shown ++ ellipsis)

/-- A line that hides nothing it must show, and that fits every terminal which is wide enough for
the minimum. -/
structure FitsTerminal (width : UnicodeWidth) (label body : String) (maxWidth : ℕ)
    (out : String) : Prop where
  shows : ShowsBody label body out
  fits : width.str label + width.str separator + minimumBodyBudget width body ≤ maxWidth →
    width.str out ≤ maxWidth

/-- The longest front of a body whose characters have the given widths together is no wider as a
string. -/
def FrontIsNarrow (width : UnicodeWidth) (body : String) (contentWidth : ℕ) : Prop :=
  ∀ shown, Greedy.IsLongest width.charWidth contentWidth body.toList shown →
    width.str (String.ofList shown) ≤ contentWidth

variable {width : UnicodeWidth} {body : String} {budget : ℕ}

/-- A budget of at least the minimum leaves a body whole, or cuts it after its first characters. -/
theorem truncateToWidth_cases (enough : minimumBodyBudget width body ≤ budget) :
    width.str body ≤ budget ∧ truncateToWidth width body budget = body ∨
      budget < width.str body ∧ width.str ellipsis ≤ budget ∧
        ∃ shown, Greedy.IsLongest width.charWidth (budget - width.str ellipsis) body.toList shown ∧
          min minNormalBodyChars body.toList.length ≤ shown.length ∧
            truncateToWidth width body budget = String.ofList shown ++ ellipsis := by
  by_cases whole : width.str body ≤ budget
  · left
    exact ⟨whole, if_pos whole⟩
  · right
    have long : ¬ body.toList.length ≤ minNormalBodyChars := by
      intro short
      rw [minimumBodyBudget, if_pos short] at enough
      exact whole enough
    rw [minimumBodyBudget, if_neg long] at enough
    have three : width.str ellipsis = 3 := width.str_ellipsis
    have room : width.str ellipsis ≤ budget := (Nat.le_add_left _ _).trans enough
    have found := isLongest_takeWidth width (budget - width.str ellipsis) body.toList
    refine ⟨Nat.lt_of_not_le whole, room, _, found, ?_, ?_⟩
    · apply found.length_ge
      exact Nat.le_sub_of_add_le enough
    · have dots : ellipsis.toList.take 3 = ellipsis.toList := rfl
      have positive : budget ≠ 0 := by omega
      unfold truncateToWidth
      rw [if_neg whole, if_neg positive, Nat.min_eq_left room]
      simp only [three, dots, String.ofList_toList]

/-- Whatever the width of the terminal is, the line shows what it must. -/
theorem showsBody_shownBody (width : UnicodeWidth) (label body : String) (maxWidth : ℕ) :
    ShowsBody label body (label ++ separator ++ shownBody width label body (some maxWidth)) := by
  have enough : minimumBodyBudget width body ≤ bodyBudget width label body maxWidth :=
    le_max_right _ _
  rcases truncateToWidth_cases enough with ⟨_, same⟩ | ⟨_, _, shown, found, least, cut⟩
  · left
    rw [shownBody, same]
  · right
    refine ⟨String.ofList shown, ?_, ?_, ?_⟩
    · rw [String.toList_ofList]
      exact found.front
    · rw [String.toList_ofList]
      exact least
    · rw [shownBody, cut]

theorem str_line (width : UnicodeWidth) (label shown : String) :
    width.str (label ++ separator ++ shown) =
      width.str label + width.str separator + width.str shown :=
  width.str_separator label shown

/-- A cut body fits exactly when its front is no wider than its characters are together. -/
theorem str_truncateToWidth_le_iff (enough : minimumBodyBudget width body ≤ budget) :
    width.str (truncateToWidth width body budget) ≤ budget ↔
      width.str body ≤ budget ∨ FrontIsNarrow width body (budget - width.str ellipsis) := by
  rcases truncateToWidth_cases enough with ⟨whole, same⟩ | ⟨wide, room, shown, found, _, cut⟩
  · rw [same]
    exact ⟨Or.inl, fun _ => whole⟩
  · have sum : width.str (String.ofList shown ++ ellipsis) =
        width.str (String.ofList shown) + width.str ellipsis := width.str_append_ellipsis _
    rw [cut, sum]
    constructor
    · intro fits
      right
      intro other longest
      rw [longest.unique found]
      exact Nat.le_sub_of_add_le fits
    · rintro (whole | narrow)
      · exact absurd whole (Nat.not_le_of_lt wide)
      · have front := narrow shown found
        omega

/-- The line fits exactly where the widths of characters and strings agree on what is cut. -/
theorem fitsTerminal_shownBody_iff (width : UnicodeWidth) (label body : String) (maxWidth : ℕ) :
    FitsTerminal width label body maxWidth
        (label ++ separator ++ shownBody width label body (some maxWidth)) ↔
      maxWidth < width.str label + width.str separator + minimumBodyBudget width body ∨
        width.str body ≤ maxWidth - (width.str label + width.str separator) ∨
          FrontIsNarrow width body
            (maxWidth - (width.str label + width.str separator) - width.str ellipsis) := by
  have shows := showsBody_shownBody width label body maxWidth
  by_cases room : width.str label + width.str separator + minimumBodyBudget width body ≤ maxWidth
  · have enough : minimumBodyBudget width body ≤
        maxWidth - (width.str label + width.str separator) := by
      omega
    have budget : bodyBudget width label body maxWidth =
        maxWidth - (width.str label + width.str separator) := max_eq_left enough
    rw [← str_truncateToWidth_le_iff enough]
    constructor
    · intro fitting
      right
      have fits := fitting.fits room
      rw [str_line, shownBody, budget] at fits
      omega
    · rintro (narrow | fits)
      · exact absurd room (Nat.not_le_of_lt narrow)
      · refine ⟨shows, fun _ => ?_⟩
        rw [str_line, shownBody, budget]
        omega
  · constructor
    · intro _
      left
      exact Nat.lt_of_not_le room
    · intro _
      exact ⟨shows, fun wide => absurd wide room⟩

/-- A body none of whose fronts is wider than its characters fits every terminal that has room for
the minimum. -/
theorem fitsTerminal_of_front_le (label : String) (maxWidth : ℕ)
    (narrow : ∀ front, front <+: body.toList →
      width.str (String.ofList front) ≤ Greedy.total width.charWidth front) :
    FitsTerminal width label body maxWidth
      (label ++ separator ++ shownBody width label body (some maxWidth)) := by
  apply (fitsTerminal_shownBody_iff width label body maxWidth).mpr
  right
  right
  intro shown longest
  exact (narrow shown longest.front).trans longest.within

/-- For every label, every line with a printable body and every width, the line shows what it
must; and it fits the terminal if and only if the terminal is too narrow for the minimum, or the
body fits as it is, or the front that is kept of it is no wider than its characters are together.
-/
theorem normal_lines_fit_iff {terminal : Terminal} {label line : String} {value : Value}
    {body : String} (parsed : terminal.serde.fromStr line = some value)
    (printable : normalBody value = some body) (maxWidth : ℕ) :
    ∃ out, formatNormalLine terminal label line false (some maxWidth) = some out ∧
      ShowsBody label body out ∧
        (FitsTerminal terminal.unicodeWidth label body maxWidth out ↔
          maxWidth < terminal.unicodeWidth.str label + terminal.unicodeWidth.str separator +
              minimumBodyBudget terminal.unicodeWidth body ∨
            terminal.unicodeWidth.str body ≤ maxWidth -
                (terminal.unicodeWidth.str label + terminal.unicodeWidth.str separator) ∨
              FrontIsNarrow terminal.unicodeWidth body
                (maxWidth - (terminal.unicodeWidth.str label +
                  terminal.unicodeWidth.str separator) - terminal.unicodeWidth.str ellipsis)) := by
  refine ⟨_, formatNormalLine_eq_some.mpr ⟨value, body, parsed, printable, rfl⟩, ?_, ?_⟩
  · exact showsBody_shownBody terminal.unicodeWidth label body maxWidth
  · exact fitsTerminal_shownBody_iff terminal.unicodeWidth label body maxWidth

namespace Sample

theorem lookup_single {line : String} (other : "" ≠ line) (value : Value) :
    [(line, value)].lookup "" = none := by
  rw [List.lookup_cons, beq_false_of_ne other]
  rfl

/-- Forty letters. -/
def letters : String := String.ofList (List.replicate 40 'a')

def lettersLine : String := "\x7b\"type\":\"caption\",\"text\":\"" ++ letters ++ "\"\x7d"

def lettersCaption : Value := .object [("type", .string "caption"), ("text", .string letters)]

def lettersTerminal : Terminal :=
  terminal [(lettersLine, lettersCaption)] (lookup_single (by decide) _)

theorem parse_letters : lettersTerminal.serde.fromStr lettersLine = some lettersCaption := by
  have trimmed : trimEndCr lettersLine = lettersLine := by decide +kernel
  rw [lettersTerminal, fromStr_terminal, trimmed, List.lookup_cons_self]

theorem print_letters : normalBody lettersCaption = some letters := by
  decide +kernel

end Sample

/-- On a terminal of forty columns, three letters make room for the dots and six for the label. -/
theorem normal_lines_fit_sample :
    formatNormalLine Sample.lettersTerminal "nhk" Sample.lettersLine false (some 40) =
        some ("nhk │ " ++ String.ofList (List.replicate 31 'a') ++ "...") ∧
      FitsTerminal UnicodeWidth.hearts "nhk" Sample.letters 40
        ("nhk │ " ++ String.ofList (List.replicate 31 'a') ++ "...") := by
  obtain ⟨out, printed, _, fitting⟩ :=
    normal_lines_fit_iff Sample.parse_letters Sample.print_letters 40
  have cut : formatNormalLine Sample.lettersTerminal "nhk" Sample.lettersLine false (some 40) =
      some ("nhk │ " ++ String.ofList (List.replicate 31 'a') ++ "...") := by
    rw [formatNormalLine, Sample.parse_letters]
    decide +kernel
  obtain rfl := Option.some.inj (printed.symm.trans cut)
  refine ⟨cut, fitting.mpr (.inr (.inr fun shown longest => ?_))⟩
  rw [longest.unique (isLongest_takeWidth _ _ _)]
  decide +kernel

namespace Sample

/-- Hearts with a presentation selector, which makes each of them two columns wide. -/
def hearts (count : ℕ) : String := String.ofList (List.replicate count ['❤', '\uFE0F']).flatten

def heartsLine : String := "\x7b\"type\":\"caption\",\"text\":\"" ++ hearts 16 ++ "\"\x7d"

def heartsCaption : Value := .object [("type", .string "caption"), ("text", .string (hearts 16))]

theorem heartsLine_ne_empty : "" ≠ heartsLine := by
  intro empty
  have lengths := congrArg String.length empty
  unfold heartsLine at lengths
  rw [String.length_append] at lengths
  exact absurd (Nat.eq_zero_of_add_eq_zero_left lengths.symm) (by decide)

def heartsTerminal : Terminal :=
  terminal [(heartsLine, heartsCaption)] (lookup_single heartsLine_ne_empty _)

theorem parse_hearts : heartsTerminal.serde.fromStr heartsLine = some heartsCaption := by
  have trimmed : trimEndCr heartsLine = heartsLine := by decide +kernel
  rw [heartsTerminal, fromStr_terminal, trimmed, List.lookup_cons_self]

theorem print_hearts : normalBody heartsCaption = some (hearts 16) := by
  decide +kernel

end Sample

/-- Fifteen hearts are as wide as thirty characters, and the minimum counts them as fifteen. -/
theorem hearts_exceed_the_terminal :
    Sample.heartsTerminal.serde.fromStr Sample.heartsLine = some Sample.heartsCaption ∧
      normalBody Sample.heartsCaption = some (Sample.hearts 16) ∧
        ∃ out, formatNormalLine Sample.heartsTerminal "nhk" Sample.heartsLine false (some 24) =
            some out ∧
          ¬ FitsTerminal UnicodeWidth.hearts "nhk" (Sample.hearts 16) 24 out := by
  refine ⟨Sample.parse_hearts, Sample.print_hearts, "nhk │ " ++ (Sample.hearts 15 ++ ellipsis),
    formatNormalLine_eq_some.mpr ⟨_, _, Sample.parse_hearts, Sample.print_hearts, ?_⟩, ?_⟩
  · decide +kernel
  · intro fitting
    have room : UnicodeWidth.hearts.str "nhk" + UnicodeWidth.hearts.str separator +
        minimumBodyBudget UnicodeWidth.hearts (Sample.hearts 16) ≤ 24 := by
      decide +kernel
    have wide : ¬ UnicodeWidth.hearts.str ("nhk │ " ++ (Sample.hearts 15 ++ ellipsis)) ≤ 24 := by
      decide +kernel
    exact wide (fitting.fits room)

end AribcapDb
