import Mathlib

/-! # Outputs that are written in turns

Writers share an output under a lock. The one that holds the lock writes its text piece by piece,
and gives the lock back when all of it is written or a write fails. Texts come out one after the
other, cut short only where a write has failed (`SharedOutput.content_of_whole`).
-/

/-- What a writer writes while it holds the lock. -/
structure SharedOutput.Turn (ω β : Type*) where
  writer : ω
  text : List β
  written : List β

/-- The turns that are over, in order, and the one that is not. -/
structure SharedOutput (ω β : Type*) where
  done : List (SharedOutput.Turn ω β)
  current : Option (SharedOutput.Turn ω β)

namespace SharedOutput

variable {ω β : Type*}

/-- All of the text is written. -/
def Turn.Whole (turn : Turn ω β) : Prop := turn.written = turn.text

def empty : SharedOutput ω β := ⟨[], none⟩

/-- All turns, in order. -/
def turns (output : SharedOutput ω β) : List (Turn ω β) := output.done ++ output.current.toList

/-- What has come out. -/
def content (output : SharedOutput ω β) : List β := output.turns.flatMap Turn.written

/-- A writer takes the lock. -/
def lock (output : SharedOutput ω β) (writer : ω) (text : List β) : SharedOutput ω β :=
  { output with current := some ⟨writer, text, []⟩ }

/-- The writer that holds the lock writes a piece. -/
def write (output : SharedOutput ω β) (turn : Turn ω β) (piece : List β) : SharedOutput ω β :=
  { output with current := some { turn with written := turn.written ++ piece } }

/-- The lock is given back. -/
def unlock (output : SharedOutput ω β) (turn : Turn ω β) : SharedOutput ω β :=
  ⟨output.done ++ [turn], none⟩

variable {output : SharedOutput ω β} {turn : Turn ω β} {writer : ω} {text piece rest : List β}

theorem turns_of_none (free : output.current = none) : output.turns = output.done := by
  rw [turns, free]
  exact List.append_nil _

theorem turns_of_some (held : output.current = some turn) :
    output.turns = output.done ++ [turn] := by
  rw [turns, held]
  rfl

@[simp] theorem turns_lock :
    (output.lock writer text).turns = output.done ++ [⟨writer, text, []⟩] := rfl

@[simp] theorem turns_write : (output.write turn piece).turns =
    output.done ++ [{ turn with written := turn.written ++ piece }] := rfl

@[simp] theorem turns_unlock : (output.unlock turn).turns = output.done ++ [turn] :=
  List.append_nil _

theorem content_lock (free : output.current = none) :
    (output.lock writer text).content = output.content := by
  simp [content, turns_of_none free]

theorem content_write (held : output.current = some turn) :
    (output.write turn piece).content = output.content ++ piece := by
  simp [content, turns_of_some held]

theorem content_unlock (held : output.current = some turn) :
    (output.unlock turn).content = output.content := by
  simp [content, turns_of_some held]

/-- What every turn has, and the turn that is not over. -/
theorem forall_turns {holds : Turn ω β → Prop} (member : ∀ turn ∈ output.turns, holds turn)
    {last : Turn ω β} (own : holds last) : ∀ turn ∈ output.done ++ [last], holds turn := by
  intro turn inside
  rcases List.mem_append.mp inside with earlier | later
  · exact member turn (List.mem_append_left _ earlier)
  · exact List.mem_singleton.mp later ▸ own

/-- When no write has failed, the texts have come out one after the other, and a front of the one
that is being written. -/
theorem content_of_whole (whole : ∀ turn ∈ output.done, turn.Whole) :
    output.content = output.done.flatMap Turn.text ++
      output.current.toList.flatMap Turn.written := by
  rw [content, turns, List.flatMap_append]
  exact congrArg (· ++ _) (List.flatMap_congr whole)

end SharedOutput
