import Mathlib

/-! # The first duplicate of a list

A list is searched for the first entry that has occurred before, with a set of what has been seen.
The search finds nothing exactly in a list without duplicates (`firstDuplicate_eq_none_iff`), and
otherwise the end of the longest front without them (`firstDuplicate_eq_some_iff`). -/

namespace Duplicates

variable {α : Type*} [DecidableEq α]

/-- The first entry that has been seen, or that occurs earlier in the list. -/
def firstSeen (seen : List α) : List α → Option α
  | [] => none
  | entry :: rest => if entry ∈ seen then some entry else firstSeen (entry :: seen) rest

/-- The first entry that also occurs earlier in the list. -/
def firstDuplicate (entries : List α) : Option α := firstSeen [] entries

theorem firstSeen_eq_none_iff {seen entries : List α} :
    firstSeen seen entries = none ↔ entries.Nodup ∧ ∀ entry ∈ entries, entry ∉ seen := by
  induction entries generalizing seen with
  | nil => simp [firstSeen]
  | cons entry rest ih =>
      unfold firstSeen
      split
      · next member => simp [member]
      · next fresh =>
          rw [ih, List.nodup_cons]
          constructor
          · intro ⟨distinct, unseen⟩
            have other (later) (member : later ∈ rest) : later ≠ entry ∧ later ∉ seen := by
              simpa using unseen later member
            refine ⟨⟨fun member => (other entry member).1 rfl, distinct⟩, fun found member => ?_⟩
            rcases List.mem_cons.mp member with rfl | later
            · exact fresh
            · exact (other found later).2
          · intro ⟨⟨absent, distinct⟩, unseen⟩
            refine ⟨distinct, fun later member => ?_⟩
            rw [List.mem_cons, not_or]
            exact ⟨fun same => absent (same ▸ member), unseen later (List.mem_cons_of_mem _ member)⟩

theorem firstSeen_eq_some_iff {seen entries : List α} {found : α} :
    firstSeen seen entries = some found ↔ ∃ front rest, entries = front ++ found :: rest ∧
      front.Nodup ∧ (∀ entry ∈ front, entry ∉ seen) ∧ (found ∈ seen ∨ found ∈ front) := by
  induction entries generalizing seen with
  | nil => simp [firstSeen]
  | cons entry rest ih =>
      unfold firstSeen
      split
      · next member =>
          constructor
          · rintro ⟨⟩
            exact ⟨[], rest, rfl, List.nodup_nil, nofun, .inl member⟩
          · rintro ⟨front, after, split, _, unseen, _⟩
            cases front with
            | nil => rw [(List.cons.inj split).1]
            | cons head front =>
                refine absurd member (unseen entry ?_)
                rw [(List.cons.inj split).1]
                exact List.mem_cons_self
      · next fresh =>
          rw [ih]
          constructor
          · rintro ⟨front, after, rfl, distinct, unseen, earlier⟩
            have other (later) (member : later ∈ front) : later ≠ entry ∧ later ∉ seen := by
              simpa using unseen later member
            refine ⟨entry :: front, after, rfl, List.nodup_cons.mpr ⟨?_, distinct⟩, ?_, ?_⟩
            · exact fun member => (other entry member).1 rfl
            · intro later member
              rcases List.mem_cons.mp member with rfl | inside
              · exact fresh
              · exact (other later inside).2
            · rcases earlier with before | inside
              · rcases List.mem_cons.mp before with rfl | old
                · exact .inr List.mem_cons_self
                · exact .inl old
              · exact .inr (List.mem_cons_of_mem _ inside)
          · rintro ⟨front, after, split, distinct, unseen, earlier⟩
            cases front with
            | nil =>
                rcases earlier with old | none
                · exact absurd ((List.cons.inj split).1 ▸ old) fresh
                · cases none
            | cons head front =>
                obtain ⟨rfl, rfl⟩ := List.cons.inj split
                obtain ⟨absent, distinct⟩ := List.nodup_cons.mp distinct
                refine ⟨front, after, rfl, distinct, fun later member => ?_, ?_⟩
                · rw [List.mem_cons, not_or]
                  exact ⟨fun same => absent (same ▸ member),
                    unseen later (List.mem_cons_of_mem _ member)⟩
                · rcases earlier with old | inside
                  · exact .inl (List.mem_cons_of_mem _ old)
                  · rcases List.mem_cons.mp inside with rfl | later
                    · exact .inl List.mem_cons_self
                    · exact .inr later

variable {entries : List α} {found : α}

/-- There is no duplicate exactly when the entries are distinct. -/
theorem firstDuplicate_eq_none_iff : firstDuplicate entries = none ↔ entries.Nodup := by
  simp [firstDuplicate, firstSeen_eq_none_iff]

/-- The first duplicate ends the longest front of distinct entries. -/
theorem firstDuplicate_eq_some_iff : firstDuplicate entries = some found ↔
    ∃ front rest, entries = front ++ found :: rest ∧ front.Nodup ∧ found ∈ front := by
  simp [firstDuplicate, firstSeen_eq_some_iff]

example : firstDuplicate [3, 1, 4, 1, 3] = some 1 := by decide

end Duplicates
