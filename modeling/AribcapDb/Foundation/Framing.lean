import Mathlib

/-! # Delimited frames

A log is read as a sequence of frames, each closed by a delimiter, followed by an unfinished
residue. Every list splits in exactly one way into closed frames and a residue free of the
delimiter (`Framing.unframe_frames_append_residue`, `Framing.frames_unframe_append`), so
reading a longer list resumes at the residue of a shorter one (`Framing.frames_append`).
-/

namespace Framing

variable {α : Type*} [DecidableEq α] (sep : α)

/-- Split after every delimiter; only the last piece may lack one. -/
def pieces : List α → List (List α)
  | [] => []
  | a :: rest =>
      if a = sep then [a] :: pieces rest
      else
        match pieces rest with
        | [] => [[a]]
        | piece :: more => (a :: piece) :: more

/-- The closed frames of a list, without their delimiters. -/
def frames : List α → List (List α)
  | [] => []
  | a :: rest =>
      if a = sep then [] :: frames rest
      else
        match frames rest with
        | [] => []
        | frame :: more => (a :: frame) :: more

/-- What follows the last delimiter. -/
def residue : List α → List α
  | [] => []
  | a :: rest => if sep ∈ a :: rest then residue rest else a :: rest

/-- Close every frame with the delimiter and join them. -/
def unframe (closed : List (List α)) : List α := closed.flatMap (· ++ [sep])

/-- The length of the closed part of a list. -/
def framedLength (xs : List α) : ℕ := (unframe sep (frames sep xs)).length

omit [DecidableEq α] in
@[simp] theorem unframe_nil : unframe sep ([] : List (List α)) = [] := rfl

omit [DecidableEq α] in
@[simp] theorem unframe_cons (frame : List α) (more : List (List α)) :
    unframe sep (frame :: more) = frame ++ sep :: unframe sep more := by
  simp [unframe]

omit [DecidableEq α] in
@[simp] theorem unframe_append (left right : List (List α)) :
    unframe sep (left ++ right) = unframe sep left ++ unframe sep right := by
  simp [unframe]

@[simp] theorem frames_nil : frames sep ([] : List α) = [] := rfl

@[simp] theorem residue_nil : residue sep ([] : List α) = [] := rfl

/-- A list without a delimiter is all residue. -/
theorem frames_of_not_mem {xs : List α} (absent : sep ∉ xs) : frames sep xs = [] := by
  induction xs with
  | nil => rfl
  | cons a rest ih =>
      obtain ⟨different, later⟩ := not_or.mp (mt List.mem_cons.mpr absent)
      simp only [frames, Ne.symm different, ↓reduceIte, ih later]

theorem residue_of_not_mem {xs : List α} (absent : sep ∉ xs) : residue sep xs = xs := by
  cases xs with
  | nil => rfl
  | cons a rest => simp only [residue, absent, ↓reduceIte]

/-- A delimiter-free frame in front of a delimiter is read back as the first frame. -/
theorem frames_frame_append {frame : List α} (free : sep ∉ frame) (rest : List α) :
    frames sep (frame ++ sep :: rest) = frame :: frames sep rest := by
  induction frame with
  | nil => simp only [List.nil_append, frames, ↓reduceIte]
  | cons a frame ih =>
      obtain ⟨different, later⟩ := not_or.mp (mt List.mem_cons.mpr free)
      simp only [List.cons_append, frames, Ne.symm different, ↓reduceIte, ih later]

theorem residue_frame_append (frame rest : List α) :
    residue sep (frame ++ sep :: rest) = residue sep rest := by
  induction frame with
  | nil => simp only [List.nil_append, residue, List.mem_cons, true_or, ↓reduceIte]
  | cons a frame ih =>
      have inside : sep ∈ a :: (frame ++ sep :: rest) := by simp
      simp only [List.cons_append, residue, inside, ↓reduceIte, ih]

/-- Reading back closed frames followed by a delimiter-free residue. -/
theorem frames_unframe_append {closed : List (List α)} (free : ∀ frame ∈ closed, sep ∉ frame)
    (rest : List α) : frames sep (unframe sep closed ++ rest) = closed ++ frames sep rest := by
  induction closed with
  | nil => rfl
  | cons frame more ih =>
      have later := ih fun other member => free other (List.mem_cons_of_mem _ member)
      rw [unframe_cons, List.append_assoc, List.cons_append,
        frames_frame_append sep (free frame List.mem_cons_self), later, List.cons_append]

theorem residue_unframe_append (closed : List (List α)) (rest : List α) :
    residue sep (unframe sep closed ++ rest) = residue sep rest := by
  induction closed with
  | nil => rfl
  | cons frame more ih =>
      rw [unframe_cons, List.append_assoc, List.cons_append, residue_frame_append, ih]

theorem not_mem_residue (xs : List α) : sep ∉ residue sep xs := by
  induction xs with
  | nil => simp
  | cons a rest ih =>
      by_cases inside : sep ∈ a :: rest
      · simpa only [residue, inside, ↓reduceIte] using ih
      · simpa only [residue, inside, ↓reduceIte] using inside

/-- A list with a delimiter begins with a delimiter-free frame and its delimiter. -/
theorem exists_first_frame {xs : List α} (inside : sep ∈ xs) :
    ∃ frame rest, sep ∉ frame ∧ xs = frame ++ sep :: rest := by
  induction xs with
  | nil => simp at inside
  | cons a tail ih =>
      by_cases here : a = sep
      · exact ⟨[], tail, by simp, by simp [here]⟩
      · have later : sep ∈ tail := by simpa [Ne.symm here] using inside
        obtain ⟨frame, rest, free, rfl⟩ := ih later
        exact ⟨a :: frame, rest, by simp [Ne.symm here, free], rfl⟩

/-- The closed frames and the residue make up the list. -/
theorem unframe_frames_append_residue (xs : List α) :
    unframe sep (frames sep xs) ++ residue sep xs = xs := by
  by_cases inside : sep ∈ xs
  · obtain ⟨frame, rest, free, rfl⟩ := exists_first_frame sep inside
    have shorter : rest.length < (frame ++ sep :: rest).length := by simp; omega
    have later := unframe_frames_append_residue rest
    rw [frames_frame_append sep free, residue_frame_append, unframe_cons, List.append_assoc,
      List.cons_append, later]
  · rw [frames_of_not_mem sep inside, residue_of_not_mem sep inside, unframe_nil,
      List.nil_append]
termination_by xs.length

theorem not_mem_of_mem_frames {xs frame : List α} (member : frame ∈ frames sep xs) :
    sep ∉ frame := by
  by_cases inside : sep ∈ xs
  · obtain ⟨first, rest, free, rfl⟩ := exists_first_frame sep inside
    have shorter : rest.length < (first ++ sep :: rest).length := by simp; omega
    rw [frames_frame_append sep free] at member
    rcases List.mem_cons.mp member with rfl | later
    · exact free
    · exact not_mem_of_mem_frames later
  · rw [frames_of_not_mem sep inside] at member
    simp at member
termination_by xs.length

/-- Reading a longer list resumes at the residue of the shorter one. -/
theorem frames_append (xs ys : List α) :
    frames sep (xs ++ ys) = frames sep xs ++ frames sep (residue sep xs ++ ys) := by
  conv_lhs => rw [← unframe_frames_append_residue sep xs, List.append_assoc]
  exact frames_unframe_append sep (fun _ => not_mem_of_mem_frames sep) _

/-- A fold over the closed frames of a longer list resumes that of a shorter one. -/
theorem foldl_frames_append {σ : Type*} (step : σ → List α → σ) (start : σ) (xs ys : List α) :
    (frames sep (xs ++ ys)).foldl step start =
      (frames sep (residue sep xs ++ ys)).foldl step ((frames sep xs).foldl step start) := by
  rw [frames_append, List.foldl_append]

/-- What follows the closed part of a list in a longer list. -/
theorem drop_framedLength_append (xs ys : List α) :
    (xs ++ ys).drop (framedLength sep xs) = residue sep xs ++ ys := by
  have split : xs ++ ys = unframe sep (frames sep xs) ++ (residue sep xs ++ ys) := by
    rw [← List.append_assoc, unframe_frames_append_residue]
  rw [split]
  exact List.drop_left

theorem residue_append (xs ys : List α) :
    residue sep (xs ++ ys) = residue sep (residue sep xs ++ ys) := by
  conv_lhs => rw [← unframe_frames_append_residue sep xs, List.append_assoc]
  exact residue_unframe_append sep _ _

theorem framedLength_append (xs ys : List α) :
    framedLength sep (xs ++ ys) =
      framedLength sep xs + framedLength sep (residue sep xs ++ ys) := by
  unfold framedLength
  rw [frames_append, unframe_append, List.length_append]

theorem framedLength_add_residue (xs : List α) :
    framedLength sep xs + (residue sep xs).length = xs.length := by
  have whole := congrArg List.length (unframe_frames_append_residue sep xs)
  rwa [List.length_append] at whole

theorem framedLength_le (xs : List α) : framedLength sep xs ≤ xs.length := by
  have whole := framedLength_add_residue sep xs
  omega

@[simp] theorem drop_framedLength (xs : List α) :
    xs.drop (framedLength sep xs) = residue sep xs := by
  calc xs.drop (framedLength sep xs)
      = (unframe sep (frames sep xs) ++ residue sep xs).drop (framedLength sep xs) := by
        rw [unframe_frames_append_residue]
    _ = residue sep xs := List.drop_left

theorem take_framedLength (xs : List α) :
    xs.take (framedLength sep xs) = unframe sep (frames sep xs) := by
  calc xs.take (framedLength sep xs)
      = (unframe sep (frames sep xs) ++ residue sep xs).take (framedLength sep xs) := by
        rw [unframe_frames_append_residue]
    _ = unframe sep (frames sep xs) := List.take_left

theorem frames_eq_nil_iff {xs : List α} : frames sep xs = [] ↔ sep ∉ xs := by
  refine ⟨fun none inside => ?_, frames_of_not_mem sep⟩
  obtain ⟨frame, rest, free, rfl⟩ := exists_first_frame sep inside
  simp [frames_frame_append sep free] at none

theorem framedLength_of_frames_eq_nil {xs : List α} (none : frames sep xs = []) :
    framedLength sep xs = 0 := by
  simp [framedLength, none]

/-- A position behind the last delimiter of a closed list is at its end. -/
theorem length_le_of_residue_eq_nil {xs : List α} {position : ℕ} (closed : residue sep xs = [])
    (free : sep ∉ xs.drop position) : xs.length ≤ position := by
  have open' : residue sep (residue sep (xs.take position) ++ xs.drop position) =
      residue sep (xs.take position) ++ xs.drop position := by
    apply residue_of_not_mem
    rw [List.mem_append]
    exact not_or.mpr ⟨not_mem_residue sep _, free⟩
  rw [← residue_append, List.take_append_drop, closed] at open'
  exact List.drop_eq_nil_iff.mp (List.append_eq_nil_iff.mp open'.symm).2

/-- The number of delimiters in the closed part is the number of frames. -/
theorem count_take_framedLength (xs : List α) :
    (xs.take (framedLength sep xs)).count sep = (frames sep xs).length := by
  rw [take_framedLength]
  have free : ∀ frame ∈ frames sep xs, sep ∉ frame := fun _ => not_mem_of_mem_frames sep
  generalize frames sep xs = closed at free
  induction closed with
  | nil => rfl
  | cons frame more ih =>
      have here : frame.count sep = 0 := List.count_eq_zero.mpr (free frame List.mem_cons_self)
      have later := ih fun other member => free other (List.mem_cons_of_mem _ member)
      simp [here, later]

/-- A position at the start of the list or just behind a delimiter. -/
def IsBoundary (xs : List α) (position : ℕ) : Prop :=
  position = 0 ∨ ∃ before after, xs = before ++ sep :: after ∧ position = before.length + 1

omit [DecidableEq α] in
theorem IsBoundary.append {xs : List α} {position : ℕ} (boundary : IsBoundary sep xs position)
    (ys : List α) : IsBoundary sep (xs ++ ys) position := by
  rcases boundary with zero | ⟨before, after, rfl, position⟩
  · exact .inl zero
  · exact .inr ⟨before, after ++ ys, by simp, position⟩

omit [DecidableEq α] in
theorem isBoundary_unframe_append (closed : List (List α)) (rest : List α) :
    IsBoundary sep (unframe sep closed ++ rest) (unframe sep closed).length := by
  rcases List.eq_nil_or_concat closed with rfl | ⟨more, frame, rfl⟩
  · exact .inl rfl
  · exact .inr ⟨unframe sep more ++ frame, rest, by simp, by simp; omega⟩

theorem isBoundary_framedLength (xs : List α) : IsBoundary sep xs (framedLength sep xs) := by
  have boundary := isBoundary_unframe_append sep (frames sep xs) (residue sep xs)
  rwa [unframe_frames_append_residue] at boundary

/-- The pieces of a list are its closed frames, each with its delimiter, and the residue. -/
theorem pieces_eq (xs : List α) :
    pieces sep xs = (frames sep xs).map (· ++ [sep]) ++
      (if residue sep xs = [] then [] else [residue sep xs]) := by
  induction xs with
  | nil => rfl
  | cons a rest ih =>
      by_cases here : a = sep
      · subst here
        simp only [pieces, frames, residue, ↓reduceIte, List.mem_cons, true_or, ih,
          List.map_cons, List.nil_append, List.cons_append]
      · by_cases later : sep ∈ rest
        · obtain ⟨frame, tail, free, rfl⟩ := exists_first_frame sep later
          simp only [pieces, frames, residue, here, ↓reduceIte, List.mem_cons, later, or_true,
            ih, frames_frame_append sep free, List.map_cons, List.cons_append]
        · have absent : sep ∉ a :: rest := by simp [Ne.symm here, later]
          rw [frames_of_not_mem sep later, residue_of_not_mem sep later] at ih
          rw [frames_of_not_mem sep absent, residue_of_not_mem sep absent]
          simp only [pieces, here, ↓reduceIte, ih]
          cases rest <;> simp

/-- A closed frame with its number, counted from one, and the position where it starts. -/
structure Line (α : Type*) where
  number : ℕ
  offset : ℕ
  frame : List α
  deriving DecidableEq, Repr

/-- Number frames that follow `number` earlier ones ending at `offset`. -/
def numbered (number offset : ℕ) : List (List α) → List (Line α)
  | [] => []
  | frame :: more =>
      ⟨number + 1, offset, frame⟩ :: numbered (number + 1) (offset + (frame.length + 1)) more

/-- The closed frames of a list with their numbers and positions. -/
def lines (xs : List α) : List (Line α) := numbered 0 0 (frames sep xs)

omit [DecidableEq α] in
theorem numbered_append (number offset : ℕ) (left right : List (List α)) :
    numbered number offset (left ++ right) = numbered number offset left ++
      numbered (number + left.length) (offset + (unframe sep left).length) right := by
  induction left generalizing number offset with
  | nil => simp [numbered]
  | cons frame more ih =>
      simp only [List.cons_append, numbered, ih, unframe_cons, List.length_cons,
        List.length_append]
      congr 3 <;> omega

/-- The lines of a longer list extend those of a shorter one. -/
theorem lines_append (xs ys : List α) :
    lines sep (xs ++ ys) = lines sep xs ++
      numbered (frames sep xs).length (framedLength sep xs)
        (frames sep (residue sep xs ++ ys)) := by
  unfold lines framedLength
  rw [frames_append, numbered_append sep, Nat.zero_add, Nat.zero_add]

end Framing
