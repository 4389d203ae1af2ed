import AribcapDb.Foundation.Framing
import AribcapDb.Archive.Recorder

/-! # Lines of a response body

`LineBuffer` cuts the chunks of a response body into lines; how the body is cut into chunks does
not matter (`lineBuffer_splits_at_newlines`). `tail_once` hands the lines on; it hands on every
complete line it has received unless an unfinished line grows too long in a chunk that also
completes lines (`tail_once_delivers_iff`). -/

namespace AribcapDb

/-- `MAX_LINE_BYTES`. -/
def maxLineBytes : ℕ := 1024 * 1024

def carriageReturn : UInt8 := 13

/-- The text of a line without its newline: one trailing carriage return is removed. -/
def receivedText (line : List UInt8) : String :=
  fromUtf8Lossy (if line.getLast? = some carriageReturn then line.dropLast else line)

/-- A received line has no newline of its own. -/
theorem newline_not_mem_receivedText {line : List UInt8} (free : newline ∉ line) :
    newline ∉ utf8Bytes (receivedText line) := by
  apply newline_not_mem_fromUtf8Lossy
  intro inside
  split at inside
  · exact free (List.mem_of_mem_dropLast inside)
  · exact free inside

structure LineBuffer where
  pending : List UInt8
  deriving DecidableEq, Repr

namespace LineBuffer

def new : LineBuffer := ⟨[]⟩

/-- The loop of `push_chunk` over the bytes from `index` on, with the lines found so far and
`line_start`. -/
def scan (pending : List UInt8) :
    List UInt8 → ℕ → List String × ℕ → List String × ℕ
  | [], _, found => found
  | byte :: rest, index, (lines, lineStart) =>
      if byte = newline then
        let line := (pending.drop lineStart).take (index - lineStart)
        scan pending rest (index + 1) (lines ++ [receivedText line], index + 1)
      else scan pending rest (index + 1) (lines, lineStart)

/-- `push_chunk`. -/
def pushChunk (buffer : LineBuffer) (chunk : List UInt8) :
    Except String (List String) × LineBuffer :=
  let pending := buffer.pending ++ chunk
  let (lines, lineStart) := scan pending pending 0 ([], 0)
  let pending := if 0 < lineStart then pending.drop lineStart else pending
  if maxLineBytes < pending.length then
    (.error ("line exceeds " ++ toString maxLineBytes ++ " bytes without a newline"), ⟨pending⟩)
  else (.ok lines, ⟨pending⟩)

/-- Push chunks one after the other while none fails. -/
def pushChunks : LineBuffer → List (List UInt8) → Except String (List String × LineBuffer)
  | buffer, [] => .ok ([], buffer)
  | buffer, chunk :: rest => do
      let lines ← (buffer.pushChunk chunk).1
      let (later, last) ← (buffer.pushChunk chunk).2.pushChunks rest
      pure (lines ++ later, last)

/-- The loop finds the lines that are closed in what it has yet to see, and where the last one
ends. -/
theorem scan_eq (seen current rest : List UInt8) (lines : List String) (free : newline ∉ current) :
    scan (seen ++ current ++ rest) rest (seen ++ current).length (lines, seen.length) =
      (lines ++ (Framing.frames newline (current ++ rest)).map receivedText,
        seen.length + Framing.framedLength newline (current ++ rest)) := by
  induction rest generalizing seen current lines with
  | nil =>
      have none := Framing.frames_of_not_mem newline free
      simp only [scan, List.append_nil, none, List.map_nil,
        Framing.framedLength_of_frames_eq_nil newline none, Nat.add_zero]
  | cons byte rest ih =>
      by_cases closes : byte = newline
      · subst closes
        have line : ((seen ++ current ++ newline :: rest).drop seen.length).take
            ((seen ++ current).length - seen.length) = current := by
          rw [List.append_assoc, List.drop_left, List.length_append, Nat.add_sub_cancel_left,
            List.take_left]
        have next := ih (seen ++ current ++ [newline]) [] (lines ++ [receivedText current])
          List.not_mem_nil
        have length : (seen ++ current ++ [newline]).length = (seen ++ current).length + 1 :=
          List.length_append
        rw [List.append_nil, List.append_assoc (seen ++ current), List.singleton_append,
          length, List.nil_append] at next
        simp only [scan, ↓reduceIte, line, next]
        rw [Framing.framedLength, Framing.framedLength, Framing.frames_frame_append newline free]
        simp only [List.map_cons, List.append_assoc, List.singleton_append, Framing.unframe_cons,
          List.length_append, List.length_cons, Nat.add_assoc, Nat.add_comm 1]
      · have next := ih seen (current ++ [byte]) lines (by simp [free, Ne.symm closes])
        simp only [← List.append_assoc, List.append_assoc _ [byte], List.singleton_append] at next
        rw [scan, if_neg closes]
        have length : (seen ++ current ++ [byte]).length = (seen ++ current).length + 1 :=
          List.length_append
        rw [length] at next
        exact next

/-- What a push returns and keeps. -/
theorem pushChunk_eq (buffer : LineBuffer) (chunk : List UInt8) :
    buffer.pushChunk chunk =
      (if maxLineBytes < (Framing.residue newline (buffer.pending ++ chunk)).length then
        .error ("line exceeds " ++ toString maxLineBytes ++ " bytes without a newline")
      else .ok ((Framing.frames newline (buffer.pending ++ chunk)).map receivedText),
        ⟨Framing.residue newline (buffer.pending ++ chunk)⟩) := by
  have scanned := scan_eq [] [] (buffer.pending ++ chunk) [] List.not_mem_nil
  simp only [List.nil_append, List.length_nil, Nat.zero_add] at scanned
  unfold pushChunk
  simp only [scanned]
  have kept : (if 0 < Framing.framedLength newline (buffer.pending ++ chunk) then
      (buffer.pending ++ chunk).drop (Framing.framedLength newline (buffer.pending ++ chunk))
      else buffer.pending ++ chunk) = Framing.residue newline (buffer.pending ++ chunk) := by
    rw [← Framing.drop_framedLength]
    split
    · rfl
    · next none => rw [Nat.eq_zero_of_not_pos none, List.drop_zero]
  rw [kept]
  split <;> rfl

/-- The lines of a push have no newlines of their own. -/
theorem newline_not_mem_pushChunk {buffer after : LineBuffer} {chunk : List UInt8}
    {lines : List String} (pushed : buffer.pushChunk chunk = (.ok lines, after)) :
    ∀ line ∈ lines, newline ∉ utf8Bytes line := by
  rw [pushChunk_eq] at pushed
  split at pushed
  · cases pushed
  · cases pushed
    intro line member
    obtain ⟨frame, closed, rfl⟩ := List.mem_map.mp member
    exact newline_not_mem_receivedText (Framing.not_mem_of_mem_frames newline closed)

/-- Chunks that are pushed one after the other are cut like the bytes they make up. -/
theorem pushChunks_eq {buffer last : LineBuffer} {chunks : List (List UInt8)}
    {lines : List String} (free : newline ∉ buffer.pending)
    (pushed : buffer.pushChunks chunks = .ok (lines, last)) :
    lines = (Framing.frames newline (buffer.pending ++ chunks.flatten)).map receivedText ∧
      last.pending = Framing.residue newline (buffer.pending ++ chunks.flatten) := by
  induction chunks generalizing buffer lines with
  | nil =>
      cases pushed
      rw [List.flatten_nil, List.append_nil, Framing.frames_of_not_mem newline free,
        Framing.residue_of_not_mem newline free]
      exact ⟨rfl, rfl⟩
  | cons chunk rest ih =>
      obtain ⟨first, here, pushed⟩ := exists_ok_of_bind pushed
      obtain ⟨⟨later, final⟩, there, pushed⟩ := exists_ok_of_bind pushed
      cases pushed
      rw [pushChunk_eq] at here there
      split at here
      · cases here
      · cases here
        obtain ⟨rfl, kept⟩ := ih (Framing.not_mem_residue newline _) there
        have frames := Framing.frames_append newline (buffer.pending ++ chunk) rest.flatten
        have residue := Framing.residue_append newline (buffer.pending ++ chunk) rest.flatten
        rw [List.flatten_cons, ← List.append_assoc, frames, List.map_append, residue]
        exact ⟨rfl, kept⟩

/-- However a sequence of bytes is cut into chunks: as long as no push fails, the lines are those
between the newlines of the whole sequence and the rest is kept, and the next push fails exactly
when it leaves too many bytes behind the last newline. -/
theorem lineBuffer_splits_at_newlines {chunks : List (List UInt8)} {lines : List String}
    {buffer : LineBuffer} (pushed : new.pushChunks chunks = .ok (lines, buffer)) :
    lines = (Framing.frames newline chunks.flatten).map receivedText ∧
      buffer.pending = Framing.residue newline chunks.flatten ∧
        ∀ chunk, (∃ error, (buffer.pushChunk chunk).1 = .error error) ↔
          maxLineBytes < (Framing.residue newline (chunks ++ [chunk]).flatten).length := by
  obtain ⟨whole, kept⟩ := pushChunks_eq List.not_mem_nil pushed
  refine ⟨whole, kept, fun chunk => ?_⟩
  have bytes : Framing.residue newline (chunks ++ [chunk]).flatten =
      Framing.residue newline (buffer.pending ++ chunk) := by
    rw [List.flatten_append, List.flatten_singleton, Framing.residue_append, kept]
    rfl
  rw [bytes, pushChunk_eq]
  split
  · next long =>
      constructor
      · intro _
        exact long
      · intro _
        exact ⟨_, rfl⟩
  · next short =>
      constructor
      · rintro ⟨_, failed⟩
        cases failed
      · intro long
        exact absurd long short

/-- A carriage return and its newline in different chunks. -/
theorem lineBuffer_splits_at_newlines_sample : ∃ lines buffer,
    new.pushChunks [[97, carriageReturn], [newline, 98], []] = .ok (lines, buffer) ∧
      lines = ["a"] ∧ buffer.pending = [98] := by
  have pushed : new.pushChunks [[97, carriageReturn], [newline, 98], []] =
      .ok (["a"], ⟨[98]⟩) := eq_ok_of_toOption (by decide +kernel)
  obtain ⟨_, kept, _⟩ := lineBuffer_splits_at_newlines pushed
  exact ⟨_, _, pushed, rfl, kept.trans (by decide)⟩

end LineBuffer

/-- `http::StatusCode`, with the reason phrase that the crate knows for it. -/
structure StatusCode where
  code : ℕ
  canonicalReason : Option String

namespace StatusCode

/-- `StatusCode::is_success`. -/
def IsSuccess (status : StatusCode) : Prop := 200 ≤ status.code ∧ status.code < 300

instance (status : StatusCode) : Decidable status.IsSuccess :=
  inferInstanceAs (Decidable (_ ∧ _))

/-- How a status is displayed. -/
def display (status : StatusCode) : String :=
  toString status.code ++ " " ++ status.canonicalReason.getD "<unknown status code>"

end StatusCode

/-- An HTTP response; a body item is a chunk or a failed read. -/
structure Response where
  status : StatusCode
  body : List (Except String (List UInt8))

/-- The calls of `on_line` for the lines of a chunk, up to the first that fails. -/
def callOnLine (onLine : String → Except String Unit) :
    List String → List String × Except String Unit
  | [] => ([], .ok ())
  | line :: rest =>
      match onLine line with
      | .error error => ([line], .error error)
      | .ok () =>
          let (called, result) := callOnLine onLine rest
          (line :: called, result)

/-- The loop of `tail_once`: the lines for which `on_line` was called, and the error. -/
def tailBody (onLine : String → Except String Unit) :
    LineBuffer → List (Except String (List UInt8)) → List String × String
  | _, [] => ([], "stream ended")
  | _, .error _ :: _ => ([], "failed to read response chunk")
  | buffer, .ok chunk :: rest =>
      match buffer.pushChunk chunk with
      | (.error error, _) => ([], error)
      | (.ok lines, buffer) =>
          match callOnLine onLine lines with
          | (called, .error error) => (called, error)
          | (called, .ok ()) =>
              let (later, error) := tailBody onLine buffer rest
              (called ++ later, error)

/-- `tail_once`, which only returns with an error; `none` is a request that fails. -/
def tailOnce (onLine : String → Except String Unit) (url : String) (response : Option Response) :
    List String × String :=
  match response with
  | none => ([], "failed to GET " ++ url)
  | some response =>
      if ¬ response.status.IsSuccess then
        ([], "GET " ++ url ++ " returned HTTP " ++ response.status.display)
      else tailBody onLine .new response.body

/-- The chunks that a body gives until a read fails or a push does. -/
def bodyChunks : LineBuffer → List (Except String (List UInt8)) → List (List UInt8)
  | _, [] => []
  | _, .error _ :: _ => []
  | buffer, .ok chunk :: rest =>
      match buffer.pushChunk chunk with
      | (.error _, _) => [chunk]
      | (.ok _, buffer) => chunk :: bodyChunks buffer rest

/-- The chunks received by `tail_once`. -/
def receivedChunks : Option Response → List (List UInt8)
  | none => []
  | some response =>
      if ¬ response.status.IsSuccess then []
      else bodyChunks .new response.body

/-- The lines closed by a newline in the bytes received. -/
def completeLines (chunks : List (List UInt8)) : List String :=
  (Framing.frames newline chunks.flatten).map receivedText

/-- Behind the bytes of an unfinished line: a last chunk that leaves too many bytes behind the last
newline has no newline itself. -/
def LastChunkUnbroken (pending : List UInt8) (chunks : List (List UInt8)) : Prop :=
  ∀ earlier last, chunks = earlier ++ [last] →
    maxLineBytes < (Framing.residue newline (pending ++ chunks.flatten)).length → newline ∉ last

theorem callOnLine_of_ok {onLine : String → Except String Unit}
    (succeeds : ∀ line, onLine line = .ok ()) (lines : List String) :
    callOnLine onLine lines = (lines, .ok ()) := by
  induction lines with
  | nil => rfl
  | cons line rest ih => simp only [callOnLine, succeeds, ih]

theorem lastChunkUnbroken_nil (pending : List UInt8) : LastChunkUnbroken pending [] := by
  intro earlier last split
  simp at split

/-- A single chunk that is too long. -/
theorem lastChunkUnbroken_singleton {pending chunk : List UInt8}
    (long : maxLineBytes < (Framing.residue newline (pending ++ chunk)).length) :
    LastChunkUnbroken pending [chunk] ↔ newline ∉ chunk := by
  constructor
  · intro unbroken
    apply unbroken [] chunk rfl
    rwa [List.flatten_singleton]
  · rintro free earlier last split -
    have same : [chunk] = [last] := (List.append_inj' (show [] ++ [chunk] = _ from split) rfl).2
    exact List.singleton_inj.mp same ▸ free

/-- A chunk that is not too long is not the one that ends the body. -/
theorem lastChunkUnbroken_cons {pending chunk : List UInt8} {rest : List (List UInt8)}
    (short : ¬ maxLineBytes < (Framing.residue newline (pending ++ chunk)).length) :
    LastChunkUnbroken pending (chunk :: rest) ↔
      LastChunkUnbroken (Framing.residue newline (pending ++ chunk)) rest := by
  have bytes : Framing.residue newline (pending ++ (chunk :: rest).flatten) =
      Framing.residue newline (Framing.residue newline (pending ++ chunk) ++ rest.flatten) := by
    rw [List.flatten_cons, ← List.append_assoc, Framing.residue_append]
  constructor
  · intro unbroken earlier last split long
    apply unbroken (chunk :: earlier) last
    · rw [split, List.cons_append]
    · rwa [bytes]
  · intro unbroken earlier last split long
    cases earlier with
    | nil =>
        cases split
        rw [List.flatten_singleton] at long
        exact absurd long short
    | cons first earlier =>
        apply unbroken earlier last (List.cons.inj split).2
        rwa [← bytes]

theorem tailBody_delivers_iff {onLine : String → Except String Unit}
    (succeeds : ∀ line, onLine line = .ok ()) {buffer : LineBuffer}
    (free : newline ∉ buffer.pending) (body : List (Except String (List UInt8))) :
    (tailBody onLine buffer body).1 =
        (Framing.frames newline (buffer.pending ++ (bodyChunks buffer body).flatten)).map
          receivedText ↔
      LastChunkUnbroken buffer.pending (bodyChunks buffer body) := by
  have nothing {pending : List UInt8} (free : newline ∉ pending) :
      [] = (Framing.frames newline (pending ++ ([] : List (List UInt8)).flatten)).map
        receivedText ↔ LastChunkUnbroken pending [] := by
    rw [List.flatten_nil, List.append_nil, Framing.frames_of_not_mem newline free, List.map_nil]
    exact iff_of_true rfl (lastChunkUnbroken_nil pending)
  induction body generalizing buffer with
  | nil => exact nothing free
  | cons item rest ih =>
      cases item with
      | error _ => exact nothing free
      | ok chunk =>
          have pushed := buffer.pushChunk_eq chunk
          by_cases long : maxLineBytes <
              (Framing.residue newline (buffer.pending ++ chunk)).length
          · rw [if_pos long] at pushed
            simp only [tailBody, bodyChunks, pushed]
            rw [lastChunkUnbroken_singleton long, List.flatten_singleton, eq_comm,
              List.map_eq_nil_iff, Framing.frames_eq_nil_iff, List.mem_append]
            exact not_congr (or_iff_right free)
          · rw [if_neg long] at pushed
            simp only [tailBody, bodyChunks, pushed, callOnLine_of_ok succeeds]
            have frames := Framing.frames_append newline (buffer.pending ++ chunk)
              (bodyChunks ⟨Framing.residue newline (buffer.pending ++ chunk)⟩ rest).flatten
            rw [lastChunkUnbroken_cons long, List.flatten_cons, ← List.append_assoc, frames,
              List.map_append, List.append_cancel_left_eq]
            exact ih (Framing.not_mem_residue newline _)

/-- `tail_once` with a handler that always succeeds hands on, in order and once each, the complete
lines of the chunks it has received, exactly when a chunk that ends the body by the length of an
unfinished line completes none itself. -/
theorem tail_once_delivers_iff {onLine : String → Except String Unit}
    (succeeds : ∀ line, onLine line = .ok ()) (url : String) (response : Option Response) :
    (tailOnce onLine url response).1 = completeLines (receivedChunks response) ↔
      LastChunkUnbroken [] (receivedChunks response) := by
  unfold tailOnce receivedChunks
  split
  · exact iff_of_true rfl (lastChunkUnbroken_nil [])
  · split
    · exact iff_of_true rfl (lastChunkUnbroken_nil [])
    · exact tailBody_delivers_iff succeeds List.not_mem_nil _

/-- Two lines over two chunks. -/
theorem tail_once_delivers_sample :
    (tailOnce (fun _ => .ok ()) "url"
        (some ⟨⟨200, some "OK"⟩, [.ok [97, newline, 98], .ok [newline]]⟩)).1 =
        completeLines [[97, newline, 98], [newline]] ∧
      completeLines [[97, newline, 98], [newline]] = ["a", "b"] := by
  have received : receivedChunks
      (some ⟨⟨200, some "OK"⟩, [.ok [97, newline, 98], .ok [newline]]⟩) =
      [[97, newline, 98], [newline]] := by decide +kernel
  have succeeds : ∀ line : String, (fun _ => .ok () : String → Except String Unit) line =
      .ok () := fun _ => rfl
  have delivered := tail_once_delivers_iff succeeds "url"
    (some ⟨⟨200, some "OK"⟩, [.ok [97, newline, 98], .ok [newline]]⟩)
  rw [received] at delivered
  refine ⟨delivered.mpr fun earlier last _ long => ?_, by decide +kernel⟩
  have short :
      (Framing.residue newline ([] ++ [[97, newline, 98], [newline]].flatten)).length = 0 := by
    decide
  rw [short] at long
  exact absurd long (Nat.not_lt_zero _)

namespace Sample

/-- A complete line, and more bytes behind it than a line may have, in one chunk. -/
def overlongChunk : List UInt8 := [97] ++ newline :: List.replicate (maxLineBytes + 1) 98

theorem residue_overlongChunk :
    Framing.residue newline ([] ++ overlongChunk) = List.replicate (maxLineBytes + 1) 98 := by
  have free : newline ∉ List.replicate (maxLineBytes + 1) (98 : UInt8) := fun member =>
    absurd (List.eq_of_mem_replicate member) (by decide)
  rw [List.nil_append, overlongChunk, Framing.residue_frame_append,
    Framing.residue_of_not_mem newline free]

end Sample

/-- A line that arrives in the chunk that ends the body is dropped. -/
theorem line_before_overlong_is_dropped : ¬ ∀ onLine : String → Except String Unit,
    (∀ line, onLine line = .ok ()) → ∀ url response,
      (tailOnce onLine url response).1 = completeLines (receivedChunks response) := by
  intro claim
  obtain ⟨chunk, long, inside⟩ : ∃ chunk,
      maxLineBytes < (Framing.residue newline ([] ++ chunk)).length ∧ newline ∈ chunk := by
    refine ⟨Sample.overlongChunk, ?_, List.mem_append_right _ List.mem_cons_self⟩
    rw [Sample.residue_overlongChunk, List.length_replicate]
    exact Nat.lt_succ_self _
  have pushed := LineBuffer.new.pushChunk_eq chunk
  rw [show LineBuffer.new.pending = [] from rfl, if_pos long] at pushed
  have received : bodyChunks .new [.ok chunk] = [chunk] := by simp only [bodyChunks, pushed]
  let status : StatusCode := ⟨200, some "OK"⟩
  have delivered := claim (fun _ => .ok ()) (fun _ => rfl) "url" (some ⟨status, [.ok chunk]⟩)
  have success : ¬ ¬ status.IsSuccess := by decide
  simp only [tailOnce, receivedChunks, if_neg success] at delivered
  have unbroken : LastChunkUnbroken [] (bodyChunks .new [.ok chunk]) :=
    (tailBody_delivers_iff (fun _ => rfl) List.not_mem_nil _).mp delivered
  rw [received] at unbroken
  exact (lastChunkUnbroken_singleton long).mp unbroken inside

end AribcapDb
