import Mathlib

/-! # Squeezing a text

Lists in which one element, the blank, stands for every kind of gap. Squeezing keeps one blank of
every run of them, and stripping removes what counts as space at both ends. What has been squeezed
and stripped is tidy, stays as it is, and is tidy together with other tidy lists.
-/

namespace Squeeze

variable {α : Type*} (blank : α) (space : α → Bool)

/-- Two neighbours are not both blanks. -/
def Apart (left right : α) : Prop := ¬ (left = blank ∧ right = blank)

/-- Remove the space at both ends. -/
def strip (list : List α) : List α := (list.dropWhile space).rdropWhile space

/-- No run of blanks, and no space at the ends. -/
structure Tidy (list : List α) : Prop where
  apart : list.IsChain (Apart blank)
  head : ∀ first ∈ list.head?, space first = false
  last : ∀ final ∈ list.getLast?, space final = false

variable {blank space} {list : List α}

theorem strip_isInfix (list : List α) : strip space list <:+: list :=
  (List.rdropWhile_prefix space _).isInfix.trans (List.dropWhile_suffix space).isInfix

theorem tidy_strip (apart : list.IsChain (Apart blank)) : Tidy blank space (strip space list) where
  apart := apart.infix (strip_isInfix list)
  head first member := by
    have inside := List.head?_dropWhile_not space list
    have kept := List.rdropWhile_prefix space (list.dropWhile space)
    have same : (list.dropWhile space).head? = some first := by
      obtain ⟨rest, whole⟩ := kept
      rw [← whole, List.head?_append, ← strip, Option.mem_def.mp member]
      rfl
    rw [same] at inside
    exact inside
  last final member := by
    have nonempty : strip space list ≠ [] := by
      rintro empty
      rw [empty] at member
      cases member
    have kept := List.rdropWhile_last_not space (list.dropWhile space) nonempty
    have same : (strip space list).getLast nonempty = final :=
      Option.some.inj ((List.getLast?_eq_some_getLast nonempty).symm.trans member)
    rw [← same]
    exact Bool.eq_false_iff.mpr kept

theorem Tidy.strip_eq (tidy : Tidy blank space list) : strip space list = list := by
  have front : list.dropWhile space = list := by
    rw [List.dropWhile_eq_self_iff]
    intro positive
    rw [Bool.not_eq_true]
    exact tidy.head _ (by rw [List.head?_eq_getElem?, List.getElem?_eq_getElem positive]; rfl)
  rw [strip, front, List.rdropWhile_eq_self_iff]
  intro nonempty
  rw [Bool.not_eq_true]
  exact tidy.last _ (List.getLast?_eq_some_getLast nonempty)

/-- The first and the last element of a tidy list are no blanks. -/
theorem Tidy.ends (tidy : Tidy blank space list) (blanks : space blank = true) :
    (∀ first ∈ list.head?, first ≠ blank) ∧ ∀ final ∈ list.getLast?, final ≠ blank := by
  constructor
  · rintro first member rfl
    exact absurd blanks (Bool.eq_false_iff.mp (tidy.head first member))
  · rintro final member rfl
    exact absurd blanks (Bool.eq_false_iff.mp (tidy.last final member))

/-- Tidy lists with something between them that has no run of blanks. -/
theorem Tidy.join {second glue : List α} (tidy : Tidy blank space list)
    (other : Tidy blank space second) (blanks : space blank = true) (nonempty : list ≠ [])
    (more : second ≠ []) (apart : glue.IsChain (Apart blank)) :
    Tidy blank space (list ++ (glue ++ second)) where
  apart := by
    have last := (tidy.ends blanks).2
    have head := (other.ends blanks).1
    rw [List.isChain_append]
    refine ⟨tidy.apart, ?_, fun final member _ _ both => last final member both.1⟩
    rw [List.isChain_append]
    exact ⟨apart, other.apart, fun _ _ first member both => head first member both.2⟩
  head first member := by
    rw [List.head?_append_of_ne_nil _ nonempty] at member
    exact tidy.head first member
  last final member := by
    rw [← List.append_assoc, List.getLast?_append_of_ne_nil _ more] at member
    exact other.last final member

section Squeezing

variable [DecidableEq α]

instance : DecidableRel (Apart blank) := fun left right =>
  inferInstanceAs (Decidable ¬ (left = blank ∧ right = blank))

/-- Keep the first blank of every run. -/
def squeeze (blank : α) (list : List α) : List α := list.destutter (Apart blank)

theorem Tidy.squeeze_eq (tidy : Tidy blank space list) : squeeze blank list = list :=
  List.destutter_of_isChain _ _ tidy.apart

theorem tidy_strip_squeeze (list : List α) :
    Tidy blank space (strip space (squeeze blank list)) :=
  tidy_strip (List.isChain_destutter _ list)

/-- The loop that squeezes a list: what it has kept, and whether it has last seen a blank. -/
def step (blank : α) (state : List α × Bool) (next : α) : List α × Bool :=
  if next = blank then (if state.2 then state.1 else state.1 ++ [next], true)
  else (state.1 ++ [next], false)

theorem foldl_step_kept (front : List α) (current : α) (list : List α) :
    (list.foldl (step blank) (front ++ [current], decide (current = blank))).1 =
      front ++ list.destutter' (Apart blank) current := by
  induction list generalizing front current with
  | nil => rfl
  | cons next rest ih =>
      rw [List.foldl_cons]
      by_cases run : current = blank ∧ next = blank
      · have stay : step blank (front ++ [current], decide (current = blank)) next =
            (front ++ [current], decide (current = blank)) := by
          simp [step, run.1, run.2]
        rw [stay, ih, List.destutter'_cons_neg _ (not_not_intro run)]
      · have move : step blank (front ++ [current], decide (current = blank)) next =
            (front ++ [current] ++ [next], decide (next = blank)) := by
          by_cases same : next = blank
          · have other : current ≠ blank := fun equal => run ⟨equal, same⟩
            simp [step, same, other]
          · simp [step, same]
        rw [move, ih, List.destutter'_cons_pos _ run, List.append_assoc, List.singleton_append]

/-- The loop squeezes. -/
theorem foldl_step (list : List α) :
    (list.foldl (step blank) ([], false)).1 = squeeze blank list := by
  cases list with
  | nil => rfl
  | cons first rest =>
      have start : step blank ([], false) first =
          ([] ++ [first], decide (first = blank)) := by
        by_cases same : first = blank <;> simp [step, same]
      rw [List.foldl_cons, start, foldl_step_kept, List.nil_append, squeeze,
        List.destutter_cons']

end Squeezing

end Squeeze
