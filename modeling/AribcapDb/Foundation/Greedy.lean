import Mathlib

/-! # Taking elements while they fit

The longest front of a list whose elements weigh no more than a budget, and the loop that finds
it by adding up the weights of what it has taken. There is one such front (`IsLongest.unique`).
-/

namespace Greedy

variable {α : Type*} (weight : α → ℕ) (budget : ℕ)

/-- What the elements of a list weigh together. -/
def total (list : List α) : ℕ := (list.map weight).sum

@[simp] theorem total_cons (first : α) (rest : List α) :
    total weight (first :: rest) = weight first + total weight rest := by
  rw [total, List.map_cons, List.sum_cons]
  rfl

/-- The front of a list that is within the budget and goes on at least as far as every other such
front. -/
structure IsLongest (list taken : List α) : Prop where
  front : taken <+: list
  within : total weight taken ≤ budget
  longest : ∀ other, other <+: list → total weight other ≤ budget → other <+: taken

/-- Take elements while their weight and what has been used is within the budget. -/
def takeFrom : ℕ → List α → List α
  | _, [] => []
  | used, next :: rest =>
      if budget < used + weight next then [] else next :: takeFrom (used + weight next) rest

variable {weight budget}

theorem IsLongest.unique {list first second : List α}
    (one : IsLongest weight budget list first) (other : IsLongest weight budget list second) :
    first = second := by
  have forward := other.longest first one.front one.within
  have backward := one.longest second other.front other.within
  exact forward.eq_of_length (le_antisymm forward.length_le backward.length_le)

/-- Elements that fit are all taken. -/
theorem IsLongest.length_ge {list taken : List α} (found : IsLongest weight budget list taken)
    (count : ℕ) (fits : total weight (list.take count) ≤ budget) :
    min count list.length ≤ taken.length := by
  have shorter := found.longest (list.take count) (List.take_prefix count list) fits
  have length := shorter.length_le
  rwa [List.length_take] at length

/-- The loop finds the longest front that is within what is left of the budget. -/
theorem isLongest_takeFrom {used : ℕ} (open' : used ≤ budget) (list : List α) :
    IsLongest weight (budget - used) list (takeFrom weight budget used list) := by
  induction list generalizing used with
  | nil =>
      refine ⟨List.prefix_rfl, Nat.zero_le _, ?_⟩
      intro other front _
      exact front
  | cons next rest ih =>
      rw [takeFrom]
      split
      · next full =>
          refine ⟨List.nil_prefix, Nat.zero_le _, ?_⟩
          intro other front within
          cases other with
          | nil => exact List.prefix_rfl
          | cons first others =>
              obtain ⟨rfl, _⟩ := List.cons_prefix_cons.mp front
              rw [total_cons] at within
              omega
      · next fits =>
          have later := ih (Nat.le_of_not_lt fits)
          refine ⟨List.cons_prefix_cons.mpr ⟨rfl, later.front⟩, ?_, ?_⟩
          · have within := later.within
            rw [total_cons]
            omega
          · intro other front within
            cases other with
            | nil => exact List.nil_prefix
            | cons first others =>
                obtain ⟨rfl, more⟩ := List.cons_prefix_cons.mp front
                rw [total_cons] at within
                apply List.cons_prefix_cons.mpr
                exact ⟨rfl, later.longest others more (by omega)⟩

end Greedy
