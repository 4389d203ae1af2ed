import Mathlib

/-! # Normalization of character sequences

Characters are decomposed, the marks behind each starter are put into canonical order, and a
starter is composed with what follows it unless something in between blocks it. A starter that
does not compose with the last character in front of it is a boundary: what is before it and what
begins with it are normalized apart (`Normalization.normalize_append`). Text around starters that
take part in no composite at all is normalized piece by piece
(`Normalization.normalize_separator`).
-/

/-- The data of a normalization form. -/
structure Normalization (χ : Type*) where
  /-- The full decomposition of a character. -/
  decompose : χ → List χ
  /-- Zero for a starter. -/
  combiningClass : χ → ℕ
  /-- The composite of a starter and a later character. -/
  compose : χ → χ → Option χ

namespace Normalization

variable {χ : Type*} (form : Normalization χ)

def IsStarter (char : χ) : Prop := form.combiningClass char = 0

instance (char : χ) : Decidable (form.IsStarter char) :=
  inferInstanceAs (Decidable (_ = _))

/-- Put a character in front of an ordered sequence, behind the marks of smaller class. -/
def insertMark (char : χ) : List χ → List χ
  | [] => [char]
  | next :: rest =>
      if ¬ form.IsStarter next ∧ form.combiningClass next < form.combiningClass char then
        next :: insertMark char rest
      else char :: next :: rest

/-- The canonical ordering: marks between two starters are sorted by their class. -/
def order : List χ → List χ
  | [] => []
  | char :: rest => form.insertMark char (order rest)

/-- A character is blocked by a mark of no smaller class in front of it. -/
def Blocked (kept : List χ) (char : χ) : Prop :=
  ∃ mark ∈ kept.getLast?, form.combiningClass char ≤ form.combiningClass mark

instance (kept : List χ) (char : χ) : Decidable (form.Blocked kept char) :=
  inferInstanceAs (Decidable (∃ mark ∈ kept.getLast?, _))

/-- The composite of a starter with a later character, when nothing blocks it. -/
def composite (starter : χ) (kept : List χ) (char : χ) : Option χ :=
  if form.Blocked kept char then none else form.compose starter char

/-- Compose behind a starter, with the marks that have been kept since. -/
def composeFrom (starter : χ) (kept : List χ) : List χ → List χ
  | [] => starter :: kept
  | char :: rest =>
      match form.composite starter kept char with
      | some composite => composeFrom composite kept rest
      | none =>
          if form.IsStarter char then starter :: kept ++ composeFrom char [] rest
          else composeFrom starter (kept ++ [char]) rest

/-- Marks in front of the first starter stay. -/
def composeAll : List χ → List χ
  | [] => []
  | char :: rest =>
      if form.IsStarter char then form.composeFrom char [] rest else char :: composeAll rest

/-- Decompose, order and compose. -/
def normalize (chars : List χ) : List χ :=
  form.composeAll (form.order (chars.flatMap form.decompose))

/-- What follows begins with a starter that does not compose with the last character in front. -/
def BeginsApart (before chars : List χ) : Prop :=
  ∃ starter ∈ (chars.flatMap form.decompose).head?, form.IsStarter starter ∧
    ∀ last ∈ (form.normalize before).getLast?, form.compose last starter = none

instance (before chars : List χ) : Decidable (form.BeginsApart before chars) :=
  inferInstanceAs (Decidable (∃ starter ∈ (chars.flatMap form.decompose).head?, _))

variable {form} {starter : χ}

theorem insertMark_append (isStarter : form.IsStarter starter) (char : χ) (left right : List χ) :
    form.insertMark char (left ++ starter :: right) =
      form.insertMark char left ++ starter :: right := by
  induction left with
  | nil => simp [insertMark, isStarter]
  | cons next left ih =>
      simp only [List.cons_append, insertMark]
      split
      · rw [ih, List.cons_append]
      · rfl

theorem insertMark_starter (isStarter : form.IsStarter starter) (chars : List χ) :
    form.insertMark starter chars = starter :: chars := by
  cases chars with
  | nil => rfl
  | cons next rest =>
      have least : ¬ form.combiningClass next < form.combiningClass starter := by
        rw [isStarter]
        exact Nat.not_lt_zero _
      simp only [insertMark, least, and_false, ↓reduceIte]

/-- No mark passes a starter. -/
theorem order_append (isStarter : form.IsStarter starter) (left right : List χ) :
    form.order (left ++ starter :: right) = form.order left ++ form.order (starter :: right) := by
  have barrier : form.order (starter :: right) = starter :: form.order right :=
    insertMark_starter isStarter _
  induction left with
  | nil => rfl
  | cons char left ih =>
      rw [List.cons_append, order, ih, barrier, insertMark_append isStarter, order]

theorem composeFrom_ne_nil (first : χ) (kept chars : List χ) :
    form.composeFrom first kept chars ≠ [] := by
  induction chars generalizing first kept with
  | nil => simp [composeFrom]
  | cons char chars ih =>
      simp only [composeFrom]
      split
      · exact ih _ _
      · split
        · simp
        · exact ih _ _

/-- Behind a kept mark no starter is composed, and without one only with the last character. -/
theorem composite_starter (isStarter : form.IsStarter starter) {first : χ} {kept : List χ}
    (free : ∀ last ∈ (first :: kept).getLast?, form.compose last starter = none) :
    form.composite first kept starter = none := by
  unfold composite
  split
  · rfl
  · next open' =>
      have none : kept = [] := by
        by_contra some
        refine open' ⟨kept.getLast some, List.getLast?_eq_getLast_of_ne_nil some, ?_⟩
        rw [isStarter]
        exact Nat.zero_le _
      exact free first (by simp [none])

/-- A starter that does not compose with what is in front of it ends the composition before it. -/
theorem composeFrom_append (isStarter : form.IsStarter starter) (first : χ)
    (kept left right : List χ)
    (free : ∀ last ∈ (form.composeFrom first kept left).getLast?,
      form.compose last starter = none) :
    form.composeFrom first kept (left ++ starter :: right) =
      form.composeFrom first kept left ++ form.composeAll (starter :: right) := by
  induction left generalizing first kept with
  | nil =>
      have apart : form.composite first kept starter = none := composite_starter isStarter free
      simp only [List.nil_append, composeFrom, apart, composeAll, isStarter, ↓reduceIte]
  | cons char left ih =>
      simp only [List.cons_append, composeFrom] at free ⊢
      split at free
      · exact ih _ _ free
      · split at free
        · rw [if_pos ‹_›, if_pos ‹_›, ih, List.cons_append, List.append_assoc]
          intro last member
          refine free last ?_
          rwa [← List.cons_append, List.getLast?_append_of_ne_nil _ (composeFrom_ne_nil _ _ _)]
        · rw [if_neg ‹_›, if_neg ‹_›]
          exact ih _ _ free

theorem composeAll_append (isStarter : form.IsStarter starter) (left right : List χ)
    (free : ∀ last ∈ (form.composeAll left).getLast?, form.compose last starter = none) :
    form.composeAll (left ++ starter :: right) =
      form.composeAll left ++ form.composeAll (starter :: right) := by
  induction left with
  | nil => rfl
  | cons char left ih =>
      simp only [List.cons_append, composeAll] at free ⊢
      split at free
      · rw [if_pos ‹_›, if_pos ‹_›, composeFrom_append isStarter _ _ _ _ free]
        simp only [composeAll]
      · rw [if_neg ‹_›, if_neg ‹_›, ih, List.cons_append]
        · simp only [composeAll]
        · intro last member
          refine free last ?_
          rw [List.getLast?_cons, Option.mem_def.mp member]
          rfl

/-- A starter that begins no composite leaves what follows it as it is. -/
theorem composeFrom_inert (inert : ∀ second, form.compose starter second = none)
    (kept rest : List χ) :
    form.composeFrom starter kept rest = starter :: kept ++ form.composeAll rest := by
  induction rest generalizing kept with
  | nil => simp [composeFrom, composeAll]
  | cons char rest ih =>
      have apart : form.composite starter kept char = none := by
        unfold composite
        split
        · rfl
        · exact inert char
      simp only [composeFrom, apart, composeAll]
      split
      · rfl
      · rw [ih]
        simp

/-- What begins with a starter that does not compose with the last character in front of it is
normalized apart from what is before it. -/
theorem normalize_append {left right : List χ} (apart : form.BeginsApart left right) :
    form.normalize (left ++ right) = form.normalize left ++ form.normalize right := by
  obtain ⟨starter, head, isStarter, free⟩ := apart
  obtain ⟨rest, begins⟩ := List.head?_eq_some_iff.mp head
  have barrier : form.order (starter :: rest) = starter :: form.order rest :=
    insertMark_starter isStarter _
  rw [normalize, List.flatMap_append, begins, order_append isStarter, barrier,
    composeAll_append isStarter _ _ free, ← barrier, ← begins]
  rfl

/-- A starter that takes part in no composite. -/
structure IsInert (form : Normalization χ) (char : χ) : Prop where
  starter : form.IsStarter char
  first : ∀ second, form.compose char second = none
  second : ∀ first, form.compose first char = none

theorem normalize_inert {separator : List χ}
    (inert : ∀ char ∈ separator.flatMap form.decompose, form.IsInert char) (right : List χ) :
    form.normalize (separator ++ right) =
      separator.flatMap form.decompose ++ form.normalize right := by
  unfold normalize
  rw [List.flatMap_append]
  generalize separator.flatMap form.decompose = marks at inert
  induction marks with
  | nil => rfl
  | cons char marks ih =>
      have here := inert char List.mem_cons_self
      have later := ih fun other member => inert other (List.mem_cons_of_mem _ member)
      have barrier : form.order (char :: marks ++ right.flatMap form.decompose) =
          char :: form.order (marks ++ right.flatMap form.decompose) :=
        insertMark_starter here.starter _
      rw [barrier, composeAll, if_pos here.starter, composeFrom_inert here.first, later]
      rfl

/-- Inert starters separate what is around them. -/
theorem normalize_separator {separator : List χ}
    (some : separator.flatMap form.decompose ≠ [])
    (inert : ∀ char ∈ separator.flatMap form.decompose, form.IsInert char) (left right : List χ) :
    form.normalize (left ++ (separator ++ right)) =
      form.normalize left ++ (separator.flatMap form.decompose ++ form.normalize right) := by
  obtain ⟨char, marks, split⟩ := List.exists_cons_of_ne_nil some
  have here := inert char (split ▸ List.mem_cons_self)
  have apart : form.BeginsApart left (separator ++ right) :=
    ⟨char, by rw [List.flatMap_append, split, List.cons_append, List.head?_cons, Option.mem_def],
      here.starter, fun last _ => here.second last⟩
  rw [normalize_append apart, normalize_inert inert]

end Normalization
