import AribcapDb.Archive.Writers
import AribcapDb.Tail.Connections
import AribcapDb.Tail.LineBuffer

/-! # Tailing all streams

The supervisors of all streams beside each other, over the recorder whose calls run at the same
time and may fail after any part of a record is written. A call that fails ends the attempt of its
target with all queued lines, and the next attempt begins with `deactivate_stream`, so no line is
handled between the two (`Tailing.Stalled`): records are never torn or merged
(`failed_writes_keep_records_intact`). -/

namespace AribcapDb

/-- The names of the configured streams, which are the keys of a map. -/
structure StreamNames where
  names : List String
  nodup : names.Nodup

/-- Where `pump_stream` stands for a target. -/
inductive Producer where
  /-- Before the next connection. -/
  | waiting
  /-- Reading a response, with the lines of the last chunk that are yet to be sent. -/
  | connected (buffer : LineBuffer) (outbox : List String)

/-- The lines that are yet to be sent. -/
def Producer.outbox : Producer → List String
  | .waiting => []
  | .connected _ outbox => outbox

/-- One target under its supervisor; the consumer's call runs in the recorder. -/
structure TailTarget where
  producer : Producer
  queue : List String

/-- What a new attempt begins with. -/
def TailTarget.new : TailTarget := ⟨.waiting, []⟩

/-- Whether a call has come to the file operations, which may fail. -/
def HandleLine.mayFail : HandleLine → Bool
  | .entered _ _ _ => false
  | .appending _ _ => true
  | .opening _ _ _ _ => true
  | .writing _ _ _ _ => true

/-- The recorder and the targets; a target and its calls have the same number. -/
structure Tailing extends ConcurrentRecorder where
  targets : ℕ → TailTarget
  /-- The lines passed to `handle_line` for every stream so far. -/
  passed : String → List String
  /-- The stream for which a call has created a file. -/
  recordedFor : String → Option String

namespace Tailing

def withTarget (state : Tailing) (id : ℕ) (target : TailTarget) : Tailing :=
  { state with targets := Function.update state.targets id target }

section Target

variable (state : Tailing) (id : ℕ) (target : TailTarget)

@[simp] theorem target_withTarget : (state.withTarget id target).targets id = target :=
  Function.update_self ..

theorem target_withTarget_of_ne {other : ℕ} (different : other ≠ id) :
    (state.withTarget id target).targets other = state.targets other :=
  Function.update_of_ne different _ _

@[simp] theorem toConcurrentRecorder_withTarget :
    (state.withTarget id target).toConcurrentRecorder = state.toConcurrentRecorder := rfl

@[simp] theorem store_withTarget : (state.withTarget id target).store = state.store := rfl

end Target

/-- Note the file that a call holds. -/
def note (state : Tailing) : Option HandleLine → String → Option String
  | some (.writing stream _ active _) =>
      Function.update state.recordedFor active.path (some stream)
  | _ => state.recordedFor

/-- The steps of `tail_targets_isolated` with the callbacks of the server. -/
inductive Step (crates : Crates) (reads : NaiveDateTime → Prop) (streams : StreamNames)
    (before : Tailing) : Tailing → Prop where
  /-- `before_connect`, and the start of the next connection. -/
  | connect (id : ℕ) (stream : String) : streams.names[id]? = some stream →
      (before.targets id).producer = .waiting → before.Unlocked →
      Step crates reads streams before
        ({ before with store := before.store.deactivateStream stream }.withTarget id
          { before.targets id with producer := .connected .new [] })
  | chunk (id : ℕ) (buffer after : LineBuffer) (bytes : List UInt8) (lines : List String) :
      (before.targets id).producer = .connected buffer [] →
      buffer.pushChunk bytes = (.ok lines, after) →
      Step crates reads streams before (before.withTarget id
        { before.targets id with producer := .connected after lines })
  | send (id : ℕ) (buffer : LineBuffer) (line : String) (outbox : List String) :
      (before.targets id).producer = .connected buffer (line :: outbox) →
      (before.targets id).queue.length < lineChannelCapacity →
      Step crates reads streams before (before.withTarget id
        ⟨.connected buffer outbox, (before.targets id).queue ++ [line]⟩)
  /-- `tail_once` returns, for whatever reason, and will be called again. -/
  | disconnect (id : ℕ) (buffer : LineBuffer) (outbox : List String) :
      (before.targets id).producer = .connected buffer outbox →
      Step crates reads streams before (before.withTarget id
        { before.targets id with producer := .waiting })
  /-- The consumer takes a line out of the channel and calls `handle_line`. -/
  | take (id : ℕ) (stream line : String) (rest : List String) (now : NaiveDateTime) :
      streams.names[id]? = some stream → (before.targets id).queue = line :: rest →
      before.calls id = none → reads now →
      Step crates reads streams before
        ({ before with
          toConcurrentRecorder :=
            before.toConcurrentRecorder.withCall id (some (.entered stream line now))
          passed := Function.update before.passed stream
            (before.passed stream ++ [line]) }.withTarget id
          { before.targets id with queue := rest })
  /-- A call in progress goes on. -/
  | handle (id : ℕ) (call : HandleLine) (recorder : ConcurrentRecorder) :
      before.calls id = some call →
      ConcurrentRecorder.Step crates reads before.toConcurrentRecorder recorder →
      recorder.calls id ≠ some call →
      Step crates reads streams before
        { before with
          toConcurrentRecorder := recorder
          recordedFor := before.note (recorder.calls id) }
  /-- A file operation fails: the consumer stops, the attempt drops the channel, and the
  supervisor begins another attempt. -/
  | fail (id : ℕ) (call : HandleLine) : before.calls id = some call → call.mayFail = true →
      Step crates reads streams before
        ({ before with
          toConcurrentRecorder := before.toConcurrentRecorder.withCall id none }.withTarget id .new)

/-- The given files, nothing active and nothing received. -/
structure Start (files : FileSystem) (state : Tailing) : Prop where
  files : state.files = files
  inactive : ∀ stream, state.store.active stream = none
  idle : state.Idle
  targets : ∀ id, state.targets id = .new
  passed : ∀ stream, state.passed stream = []
  recordedFor : ∀ path, state.recordedFor path = none

end Tailing

/-- What one step of a running call does to its call, to the store and to the files. -/
inductive CallStep (before : ConcurrentRecorder) :
    HandleLine → Option HandleLine → ArchiveStore → FileSystem → Prop where
  | skip (stream line : String) (now : NaiveDateTime) :
      CallStep before (.entered stream line now) none before.store before.files
  | lockAppend (stream line : String) (now : NaiveDateTime) (active : ActiveArchiveFile) :
      before.store.active stream = some active →
      CallStep before (.entered stream line now)
        (some (.appending active.path (lineBytes line))) before.store before.files
  | append (path : String) (chunk rest : List UInt8) :
      CallStep before (.appending path (chunk ++ rest)) (some (.appending path rest))
        before.store (before.files.append path chunk)
  | mark (path : String) :
      CallStep before (.appending path []) none (before.store.markDirty path) before.files
  | lockOpen (stream line : String) (now : NaiveDateTime) (program : Program) :
      CallStep before (.entered stream line now)
        (some (.opening stream line now program)) before.store before.files
  | create (stream line : String) (now : NaiveDateTime) (program : Program)
      (active : ActiveArchiveFile) : before.files active.path = none →
      CallStep before (.opening stream line now program)
        (some (.writing stream now active (lineBytes line))) before.store
        (before.files.create active.path)
  | write (stream : String) (now : NaiveDateTime) (active : ActiveArchiveFile)
      (chunk rest : List UInt8) :
      CallStep before (.writing stream now active (chunk ++ rest))
        (some (.writing stream now active rest)) before.store
        (before.files.append active.path chunk)
  | register (stream : String) (now : NaiveDateTime) (active : ActiveArchiveFile) :
      CallStep before (.writing stream now active []) none
        (before.store.replaceActive stream active) before.files

variable {crates : Crates} {reads : NaiveDateTime → Prop} {streams : StreamNames}

/-- A step that moves a running call on. -/
theorem ConcurrentRecorder.Step.call {before after : ConcurrentRecorder} {id : ℕ}
    {call : HandleLine} (running : before.calls id = some call)
    (stepped : ConcurrentRecorder.Step crates reads before after)
    (moves : after.calls id ≠ some call) :
    CallStep before call (after.calls id) after.store after.files ∧
      ∀ other ≠ id, after.calls other = before.calls other := by
  have own {state : ConcurrentRecorder} {other : ℕ} {next : Option HandleLine}
      (same : state.calls = before.calls)
      (changed : (state.withCall other next).calls id ≠ some call) : other = id := by
    by_contra different
    rw [calls_withCall_of_ne _ _ _ (Ne.symm different), same] at changed
    exact changed running
  cases stepped with
  | enter other stream line now free _ =>
      obtain rfl := own rfl moves
      rw [free] at running
      cases running
  | skip other stream line now entered _ =>
      obtain rfl := own rfl moves
      obtain rfl := Option.some.inj (running.symm.trans entered)
      rw [calls_withCall_self]
      exact ⟨.skip stream line now, fun _ different => calls_withCall_of_ne _ _ _ different⟩
  | lockAppend other stream line now active entered _ found _ =>
      obtain rfl := own rfl moves
      obtain rfl := Option.some.inj (running.symm.trans entered)
      rw [calls_withCall_self]
      exact ⟨.lockAppend stream line now active found,
        fun _ different => calls_withCall_of_ne _ _ _ different⟩
  | append other path chunk rest appending =>
      obtain rfl := own rfl moves
      obtain rfl := Option.some.inj (running.symm.trans appending)
      rw [calls_withCall_self]
      exact ⟨.append path chunk rest, fun _ different => calls_withCall_of_ne _ _ _ different⟩
  | mark other path appending =>
      obtain rfl := own rfl moves
      obtain rfl := Option.some.inj (running.symm.trans appending)
      rw [calls_withCall_self]
      exact ⟨.mark path, fun _ different => calls_withCall_of_ne _ _ _ different⟩
  | lockOpen other stream line now program entered _ _ _ =>
      obtain rfl := own rfl moves
      obtain rfl := Option.some.inj (running.symm.trans entered)
      rw [calls_withCall_self]
      exact ⟨.lockOpen stream line now program,
        fun _ different => calls_withCall_of_ne _ _ _ different⟩
  | create other stream line now program suffix active opening _ free =>
      obtain rfl := own rfl moves
      obtain rfl := Option.some.inj (running.symm.trans opening)
      rw [calls_withCall_self]
      exact ⟨.create stream line now program active free,
        fun _ different => calls_withCall_of_ne _ _ _ different⟩
  | write other stream now active chunk rest writing =>
      obtain rfl := own rfl moves
      obtain rfl := Option.some.inj (running.symm.trans writing)
      rw [calls_withCall_self]
      exact ⟨.write stream now active chunk rest,
        fun _ different => calls_withCall_of_ne _ _ _ different⟩
  | register other stream now active writing _ =>
      obtain rfl := own rfl moves
      obtain rfl := Option.some.inj (running.symm.trans writing)
      rw [calls_withCall_self]
      exact ⟨.register stream now active, fun _ different => calls_withCall_of_ne _ _ _ different⟩
  | deactivate stream _ => exact absurd running moves

/-- Behind a file whose lines are all closed, a record is one more line. -/
theorem frames_append_lineBytes {content : List UInt8}
    (whole : Framing.residue newline content = []) {line : String}
    (free : newline ∉ utf8Bytes line) :
    Framing.frames newline (content ++ lineBytes line) =
      Framing.frames newline content ++ [utf8Bytes line] := by
  have record := Framing.frames_frame_append newline free []
  rw [Framing.frames_nil] at record
  rw [Framing.frames_append, whole, List.nil_append, lineBytes, record]

/-- The complete records of a file come first in a longer one. -/
theorem frames_sublist_append (content more : List UInt8) :
    (Framing.frames newline content).Sublist (Framing.frames newline (content ++ more)) := by
  rw [Framing.frames_append]
  exact List.sublist_append_left _ _

namespace Tailing

/-- No line of a stream will be handled before the next attempt begins. -/
def Stalled (state : Tailing) (id : ℕ) : Prop := state.targets id = .new ∧ state.calls id = none

/-- The line of a call that has written nothing yet is the last one passed, and the files of its
stream hold earlier ones. -/
def Handed (state : Tailing) (stream line : String) : Prop :=
  newline ∉ utf8Bytes line ∧ ∃ earlier, state.passed stream = earlier ++ [line] ∧
    ∀ path content, state.recordedFor path = some stream →
      state.files path = some (.file content) →
        (Framing.frames newline content).Sublist (earlier.map utf8Bytes)

/-- The bytes left to write complete the last record of a file. -/
def Completes (state : Tailing) (stream path : String) (rest : List UInt8) : Prop :=
  ∃ content, state.files path = some (.file content) ∧
    Framing.residue newline (content ++ rest) = [] ∧
      (Framing.frames newline (content ++ rest)).Sublist ((state.passed stream).map utf8Bytes)

/-- What a call of a stream relies on. -/
def CallSound (state : Tailing) (stream : String) : HandleLine → Prop
  | .entered other line _ => other = stream ∧ state.Handed stream line
  | .appending path rest =>
      (∃ active, state.store.active stream = some active ∧ active.path = path) ∧
        state.Completes stream path rest
  | .opening other line _ _ => other = stream ∧ state.Handed stream line
  | .writing other _ active rest =>
      other = stream ∧ state.recordedFor active.path = some stream ∧
        (∀ old, state.store.active stream = some old → old.path ≠ active.path) ∧
          state.Completes stream active.path rest

/-- A stream and its target. -/
structure Lane (state : Tailing) (id : ℕ) (stream : String) : Prop where
  records : ∀ path, state.recordedFor path = some stream → ∃ content,
    state.files path = some (.file content) ∧
      (Framing.frames newline content).Sublist ((state.passed stream).map utf8Bytes)
  active : ∀ active, state.store.active stream = some active →
    state.recordedFor active.path = some stream
  call : ∀ call, state.calls id = some call → state.CallSound stream call
  /-- An active file that ends in an unfinished record, which no call is completing. -/
  torn : ∀ active content, state.store.active stream = some active →
    state.files active.path = some (.file content) → Framing.residue newline content ≠ [] →
      (∀ rest, state.calls id ≠ some (.appending active.path rest)) → state.Stalled id
  lines : ∀ line, line ∈ (state.targets id).queue ∨ line ∈ (state.targets id).producer.outbox →
    newline ∉ utf8Bytes line

/-- A step that is about one stream leaves a path alone, or the path is of that stream. -/
def OwnOnly (before after : Tailing) (stream path : String) : Prop :=
  after.recordedFor path = some stream ∧
      (before.recordedFor path = some stream ∨ before.files path = none) ∨
    after.files path = before.files path ∧ after.recordedFor path = before.recordedFor path

/-- A file of a stream that no call is writing and no line will be appended to: it is not active, or
no line is handled before the stream is deactivated. -/
structure Abandoned (state : Tailing) (id : ℕ) (stream path : String) : Prop where
  recordedFor : state.recordedFor path = some stream
  quiet : ∀ call, state.calls id = some call → call.writes ≠ some path
  inactive : (∀ active, state.store.active stream = some active → active.path ≠ path) ∨
    state.Stalled id

/-- A step of a target appends nothing to its abandoned files. -/
def KeepsAbandoned (before after : Tailing) (id : ℕ) (stream : String) : Prop :=
  ∀ path, before.Abandoned id stream path →
    after.Abandoned id stream path ∧ after.files path = before.files path

/-- A step leaves a stream and its target alone. -/
structure SameLane (before after : Tailing) (id : ℕ) (stream : String) : Prop where
  recordedFor : ∀ path, after.recordedFor path = some stream ↔
    before.recordedFor path = some stream
  files : ∀ path, before.recordedFor path = some stream → after.files path = before.files path
  passed : after.passed stream = before.passed stream
  active : after.store.active stream = before.store.active stream
  call : after.calls id = before.calls id
  target : after.targets id = before.targets id

variable {before after state : Tailing} {id : ℕ} {stream line path : String} {call : HandleLine}

theorem Handed.of_same (handed : before.Handed stream line)
    (same : SameLane before after id stream) : after.Handed stream line := by
  obtain ⟨free, earlier, passed, stored⟩ := handed
  refine ⟨free, earlier, same.passed.trans passed, fun path content owned present => ?_⟩
  rw [same.recordedFor] at owned
  rw [same.files path owned] at present
  exact stored path content owned present

theorem Completes.of_same {rest : List UInt8} (completes : before.Completes stream path rest)
    (same : SameLane before after id stream) (owned : before.recordedFor path = some stream) :
    after.Completes stream path rest := by
  obtain ⟨content, present, whole, records⟩ := completes
  exact ⟨content, (same.files path owned).trans present, whole, same.passed ▸ records⟩

namespace Lane

theorem of_same (lane : Lane before id stream) (same : SameLane before after id stream) :
    Lane after id stream where
  records path owned := by
    rw [same.recordedFor] at owned
    obtain ⟨content, present, records⟩ := lane.records path owned
    exact ⟨content, (same.files path owned).trans present, same.passed ▸ records⟩
  active active found := by
    rw [same.active] at found
    exact (same.recordedFor _).mpr (lane.active active found)
  call call running := by
    rw [same.call] at running
    have sound := lane.call call running
    cases call with
    | entered other line now => exact ⟨sound.1, sound.2.of_same same⟩
    | appending path rest =>
        obtain ⟨⟨active, found, rfl⟩, completes⟩ := sound
        exact ⟨⟨active, same.active.trans found, rfl⟩,
          completes.of_same same (lane.active active found)⟩
    | opening other line now program => exact ⟨sound.1, sound.2.of_same same⟩
    | writing other now active rest =>
        obtain ⟨own, owned, apart, completes⟩ := sound
        exact ⟨own, (same.recordedFor _).mpr owned,
          fun old found => apart old (same.active ▸ found), completes.of_same same owned⟩
  torn active content found present torn idle := by
    rw [same.active] at found
    rw [same.files _ (lane.active active found)] at present
    rw [same.call] at idle
    obtain ⟨target, none⟩ := lane.torn active content found present torn idle
    exact ⟨same.target.trans target, same.call.trans none⟩
  lines line member := by
    rw [same.target] at member
    exact lane.lines line member

/-- The active file ends in a whole record while lines may be handled. -/
theorem whole (lane : Lane state id stream) {active : ActiveArchiveFile} {content : List UInt8}
    (found : state.store.active stream = some active)
    (present : state.files active.path = some (.file content))
    (idle : ∀ rest, state.calls id ≠ some (.appending active.path rest))
    (going : ¬ state.Stalled id) : Framing.residue newline content = [] := by
  by_contra torn
  exact going (lane.torn active content found present torn idle)

/-- A line that is handed over makes a whole file one record longer. -/
theorem completes_of_handed {content : List UInt8} (handed : state.Handed stream line)
    (owned : state.recordedFor path = some stream)
    (present : state.files path = some (.file content))
    (whole : Framing.residue newline content = []) :
    state.Completes stream path (lineBytes line) := by
  obtain ⟨free, earlier, passed, stored⟩ := handed
  refine ⟨content, present, residue_append_lineBytes content line, ?_⟩
  rw [frames_append_lineBytes whole free, passed, List.map_append]
  exact (stored path content owned present).append (.refl _)

/-- Bytes written to a file of the stream. -/
theorem grow (lane : Lane before id stream) {chunk rest : List UInt8}
    (owned : before.recordedFor path = some stream)
    (completes : before.Completes stream path (chunk ++ rest))
    (files : after.files = before.files.append path chunk) (passed : after.passed = before.passed)
    (recordedFor : after.recordedFor = before.recordedFor) :
    after.Completes stream path rest ∧ ∀ other, after.recordedFor other = some stream →
      ∃ content, after.files other = some (.file content) ∧
        (Framing.frames newline content).Sublist ((after.passed stream).map utf8Bytes) := by
  obtain ⟨content, present, whole, records⟩ := completes
  rw [← List.append_assoc] at whole records
  have written : after.files path = some (.file (content ++ chunk)) := by
    rw [files, FileSystem.append_file present, Function.update_self]
  refine ⟨⟨content ++ chunk, written, whole, passed ▸ records⟩, fun other member => ?_⟩
  rw [recordedFor] at member
  by_cases same : other = path
  · subst same
    exact ⟨content ++ chunk, written,
      (frames_sublist_append (content ++ chunk) rest).trans (passed ▸ records)⟩
  · obtain ⟨bytes, there, kept⟩ := lane.records other member
    exact ⟨bytes, by rw [files, FileSystem.append_other _ same, there], passed ▸ kept⟩

/-- A step of the call that writes nothing. -/
theorem still (lane : Lane before id stream) (files : after.files = before.files)
    (recordedFor : after.recordedFor = before.recordedFor)
    (active : after.store.active stream = before.store.active stream)
    (passed : after.passed = before.passed) (targets : after.targets = before.targets)
    (call : ∀ call, after.calls id = some call → after.CallSound stream call)
    (whole : ∀ active content, before.store.active stream = some active →
      before.files active.path = some (.file content) → Framing.residue newline content = []) :
    Lane after id stream where
  records := by
    rw [recordedFor, files, passed]
    exact lane.records
  active := by
    rw [recordedFor, active]
    exact lane.active
  call := call
  torn file content found present torn _ := by
    rw [active] at found
    rw [files] at present
    exact absurd (whole file content found present) torn
  lines := by
    rw [targets]
    exact lane.lines

/-- A new file of the stream, which takes the line of the call. -/
theorem create (lane : Lane before id stream) {line : String} {now : NaiveDateTime}
    {file : ActiveArchiveFile} (handed : before.Handed stream line)
    (free : before.files file.path = none)
    (whole : ∀ active content, before.store.active stream = some active →
      before.files active.path = some (.file content) → Framing.residue newline content = [])
    (next : after.calls id = some (.writing stream now file (lineBytes line)))
    (active : after.store.active stream = before.store.active stream)
    (files : after.files = before.files.create file.path)
    (recordedFor : after.recordedFor =
      Function.update before.recordedFor file.path (some stream))
    (passed : after.passed = before.passed) (targets : after.targets = before.targets) :
    Lane after id stream := by
  have fresh : ∀ path, before.recordedFor path = some stream → path ≠ file.path := by
    rintro path owned rfl
    obtain ⟨content, present, _⟩ := lane.records _ owned
    rw [free] at present
    cases present
  have created : after.files file.path = some (.file []) := by
    rw [files, FileSystem.create, Function.update_self]
  refine ⟨fun path owned => ?_, fun old found => ?_, ?_, ?_, ?_⟩
  · by_cases same : path = file.path
    · subst same
      exact ⟨[], created, List.nil_sublist _⟩
    · rw [recordedFor, Function.update_of_ne same] at owned
      rw [files, FileSystem.create_other _ same, passed]
      exact lane.records path owned
  · rw [active] at found
    have owned := lane.active old found
    rw [recordedFor, Function.update_of_ne (fresh _ owned)]
    exact owned
  · rw [next]
    rintro _ ⟨⟩
    refine ⟨rfl, by rw [recordedFor, Function.update_self], fun old found => ?_, ?_⟩
    · rw [active] at found
      exact fresh _ (lane.active old found)
    · obtain ⟨closed, earlier, last, _⟩ := handed
      refine ⟨[], created, residue_append_lineBytes [] line, ?_⟩
      have record := frames_append_lineBytes (Framing.residue_nil newline) closed
      rw [record, Framing.frames_nil, List.nil_append, passed, last, List.map_append]
      exact List.sublist_append_right _ _
  · intro old content found present torn _
    rw [active] at found
    rw [files, FileSystem.create_other _ (fresh _ (lane.active old found))] at present
    exact absurd (whole old content found present) torn
  · rw [targets]
    exact lane.lines

/-- The file that has taken the line of the call becomes the active one. -/
theorem register (lane : Lane before id stream) {file : ActiveArchiveFile}
    (sound : before.recordedFor file.path = some stream ∧
      (∀ old, before.store.active stream = some old → old.path ≠ file.path) ∧
        before.Completes stream file.path [])
    (call : ∀ call, after.calls id = some call → after.CallSound stream call)
    (registered : after.store.active stream = some file) (files : after.files = before.files)
    (recordedFor : after.recordedFor = before.recordedFor)
    (passed : after.passed = before.passed) (targets : after.targets = before.targets) :
    Lane after id stream := by
  obtain ⟨owned, _, content, present, closed, _⟩ := sound
  refine ⟨?_, ?_, call, ?_, ?_⟩
  · rw [recordedFor, files, passed]
    exact lane.records
  · rw [registered]
    rintro _ ⟨⟩
    exact recordedFor ▸ owned
  · intro old content' found present' torn _
    rw [registered] at found
    cases found
    rw [files, present] at present'
    cases present'
    rw [List.append_nil] at closed
    exact absurd closed torn
  · rw [targets]
    exact lane.lines

/-- A step of the call of the target. -/
theorem handle (lane : Lane before id stream) (running : before.calls id = some call)
    (stepped : CallStep before.toConcurrentRecorder call (after.calls id) after.store after.files)
    (noted : after.recordedFor = before.note (after.calls id))
    (passed : after.passed = before.passed) (targets : after.targets = before.targets) :
    Lane after id stream := by
  have sound := lane.call call running
  have whole (idle : ∀ path rest, call ≠ .appending path rest) (active : ActiveArchiveFile)
      (content : List UInt8) (found : before.store.active stream = some active)
      (present : before.files active.path = some (.file content)) :
      Framing.residue newline content = [] := by
    apply lane.whole found present
    · intro rest appending
      exact idle _ rest (Option.some.inj (running.symm.trans appending))
    · rintro ⟨_, none⟩
      rw [none] at running
      cases running
  generalize next : after.calls id = moved at stepped noted
  generalize store : after.store = stored at stepped
  generalize files : after.files = written at stepped
  have active (kept : stored.active stream = before.store.active stream) :
      after.store.active stream = before.store.active stream := store ▸ kept
  cases stepped with
  | skip other line now =>
      apply lane.still files noted (active rfl) passed targets _ (whole nofun)
      rw [next]
      intro call found
      cases found
  | lockAppend other line now file found =>
      obtain ⟨rfl, handed⟩ := sound
      apply lane.still files noted (active rfl) passed targets _ (whole nofun)
      rw [next]
      rintro _ ⟨⟩
      have owned := lane.active file found
      obtain ⟨content, present, _⟩ := lane.records file.path owned
      obtain ⟨content', present', closed, records⟩ :=
        completes_of_handed handed owned present (whole nofun file content found present)
      exact ⟨⟨file, (active rfl).trans found, rfl⟩, content', files ▸ present', closed,
        passed ▸ records⟩
  | append path chunk rest =>
      obtain ⟨⟨file, found, rfl⟩, completes⟩ := sound
      have owned := lane.active file found
      obtain ⟨completes, records⟩ := lane.grow owned completes files passed noted
      refine ⟨records, ?_, ?_, ?_, ?_⟩
      · rw [active rfl, noted]
        exact lane.active
      · rw [next]
        rintro _ ⟨⟩
        exact ⟨⟨file, (active rfl).trans found, rfl⟩, completes⟩
      · intro other content found' present torn idle
        rw [active rfl, found] at found'
        cases found'
        exact absurd next (idle rest)
      · rw [targets]
        exact lane.lines
  | mark path =>
      obtain ⟨⟨file, found, rfl⟩, content, present, closed, _⟩ := sound
      apply lane.still files noted (active rfl) passed targets
      · rw [next]
        intro call found
        cases found
      · intro other content' found' present'
        rw [found] at found'
        cases found'
        rw [present] at present'
        cases present'
        rwa [List.append_nil] at closed
  | lockOpen other line now program =>
      apply lane.still files noted (active rfl) passed targets _ (whole nofun)
      rw [next]
      rintro _ ⟨⟩
      obtain ⟨own, free, earlier, last, records⟩ := sound
      refine ⟨own, free, earlier, passed ▸ last, ?_⟩
      rw [noted, files]
      exact records
  | create other line now program file free =>
      obtain ⟨rfl, handed⟩ := sound
      exact lane.create handed free (whole nofun) next (active rfl) files noted passed targets
  | write other now file chunk rest =>
      obtain ⟨rfl, owned, apart, completes⟩ := sound
      have recordedFor : after.recordedFor = before.recordedFor := by
        rw [noted, note, Function.update_eq_self_iff, owned]
      obtain ⟨completes, records⟩ := lane.grow owned completes files passed recordedFor
      refine ⟨records, ?_, ?_, ?_, ?_⟩
      · rw [active rfl, recordedFor]
        exact lane.active
      · rw [next]
        rintro _ ⟨⟩
        exact ⟨rfl, recordedFor ▸ owned, fun old found => apart old ((active rfl).symm.trans found),
          completes⟩
      · intro old content found present torn _
        rw [active rfl] at found
        rw [files, FileSystem.append_other _ (apart old found)] at present
        exact absurd (whole nofun old content found present) torn
      · rw [targets]
        exact lane.lines
  | register other now file =>
      obtain ⟨rfl, sound⟩ := sound
      apply lane.register sound _ _ files noted passed targets
      · rw [next]
        intro call found
        cases found
      · rw [store, ArchiveStore.active_replaceActive, if_pos rfl]

/-- The producer goes on while the target is not stalled. -/
theorem produce (lane : Lane before id stream) (going : ¬ before.Stalled id) {target : TailTarget}
    (lines : ∀ line, line ∈ target.queue ∨ line ∈ target.producer.outbox →
      newline ∉ utf8Bytes line) : Lane (before.withTarget id target) id stream where
  records := lane.records
  active := lane.active
  call call running := by
    have sound := lane.call call running
    cases call <;> exact sound
  torn active content found present torn idle :=
    absurd (lane.torn active content found present torn idle) going
  lines := by
    rw [target_withTarget]
    exact lines

/-- A connection begins without an active file. -/
theorem connect (lane : Lane before id stream) (unlocked : before.Unlocked) :
    Lane ({ before with store := before.store.deactivateStream stream }.withTarget id
      { before.targets id with producer := .connected .new [] }) id stream := by
  have inactive : (before.store.deactivateStream stream).active stream = none := by
    rw [ArchiveStore.active_deactivateStream, if_pos rfl]
  refine ⟨lane.records, ?_, ?_, ?_, ?_⟩
  · intro active found
    rw [store_withTarget, inactive] at found
    cases found
  · intro call running
    have sound := lane.call call running
    cases call with
    | entered other line now => exact sound
    | appending path rest => exact absurd running (unlocked id path rest)
    | opening other line now program => exact sound
    | writing other now file rest =>
        obtain ⟨own, owned, _, completes⟩ := sound
        refine ⟨own, owned, fun old found => ?_, completes⟩
        rw [store_withTarget, inactive] at found
        cases found
  · intro active content found
    rw [store_withTarget, inactive] at found
    cases found
  · intro line member
    rw [target_withTarget] at member
    exact lane.lines line (.inl (member.resolve_right List.not_mem_nil))

/-- A line is handed to the recorder. -/
theorem take (lane : Lane before id stream) {rest : List String} (now : NaiveDateTime)
    (queue : (before.targets id).queue = line :: rest) (idle : before.calls id = none) :
    Lane ({ before with
      toConcurrentRecorder :=
        before.toConcurrentRecorder.withCall id (some (.entered stream line now))
      passed := Function.update before.passed stream
        (before.passed stream ++ [line]) }.withTarget id
      { before.targets id with queue := rest }) id stream := by
  have lines : ∀ other, other = line ∨ other ∈ rest ∨
      other ∈ (before.targets id).producer.outbox → newline ∉ utf8Bytes other := by
    intro other member
    apply lane.lines other
    rw [queue, List.mem_cons, or_assoc]
    exact member
  have passed : Function.update before.passed stream (before.passed stream ++ [line]) stream =
      before.passed stream ++ [line] := Function.update_self ..
  refine ⟨fun path owned => ?_, lane.active, fun call running => ?_, ?_, ?_⟩
  · obtain ⟨content, present, records⟩ := lane.records path owned
    refine ⟨content, present, records.trans ?_⟩
    change (List.map utf8Bytes (before.passed stream)).Sublist
      (List.map utf8Bytes (Function.update before.passed stream (before.passed stream ++ [line])
        stream))
    rw [passed, List.map_append]
    exact List.sublist_append_left _ _
  · rcases ConcurrentRecorder.calls_withCall running with old | ⟨_, new⟩
    · rw [idle] at old
      cases old
    · cases new
      refine ⟨rfl, lines line (.inl rfl), before.passed stream, passed, ?_⟩
      intro path content owned there
      obtain ⟨bytes, present, records⟩ := lane.records path owned
      have same := there.symm.trans present
      cases same
      exact records
  · intro active content found present torn _
    refine absurd (lane.whole found present ?_ ?_) torn
    · rw [idle]
      nofun
    · rintro ⟨new, _⟩
      rw [new] at queue
      cases queue
  · intro other member
    rw [target_withTarget] at member
    exact lines other (.inr member)

/-- The attempt ends with the failed call. -/
theorem fail (lane : Lane before id stream) :
    Lane ({ before with
      toConcurrentRecorder := before.toConcurrentRecorder.withCall id none }.withTarget id .new)
      id stream where
  records := lane.records
  active := lane.active
  call call running := by
    rw [toConcurrentRecorder_withTarget, ConcurrentRecorder.calls_withCall_self] at running
    cases running
  torn _ _ _ _ _ _ :=
    ⟨target_withTarget .., ConcurrentRecorder.calls_withCall_self ..⟩
  lines line member := by
    rw [target_withTarget] at member
    rcases member with queued | sent
    · cases queued
    · cases sent

/-- A step of a call touches the files of its own stream only. -/
theorem handle_own (lane : Lane before id stream) (running : before.calls id = some call)
    (stepped : CallStep before.toConcurrentRecorder call (after.calls id) after.store after.files)
    (noted : after.recordedFor = before.note (after.calls id)) :
    (∀ other ≠ stream, after.store.active other = before.store.active other) ∧
      ∀ path, OwnOnly before after stream path := by
  have sound := lane.call call running
  unfold OwnOnly
  generalize after.calls id = moved at stepped noted
  generalize after.store = stored at stepped
  generalize after.files = written at stepped
  cases stepped with
  | skip other line now => exact ⟨fun _ _ => rfl, fun path => .inr ⟨rfl, congrFun noted path⟩⟩
  | lockAppend other line now file found =>
      exact ⟨fun _ _ => rfl, fun path => .inr ⟨rfl, congrFun noted path⟩⟩
  | append path chunk rest =>
      obtain ⟨⟨file, found, rfl⟩, _⟩ := sound
      have owned := lane.active file found
      refine ⟨fun _ _ => rfl, fun other => ?_⟩
      by_cases same : other = file.path
      · subst same
        exact .inl ⟨(congrFun noted _).trans owned, .inl owned⟩
      · exact .inr ⟨FileSystem.append_other _ same _, congrFun noted other⟩
  | mark path => exact ⟨fun _ _ => rfl, fun path => .inr ⟨rfl, congrFun noted path⟩⟩
  | lockOpen other line now program =>
      exact ⟨fun _ _ => rfl, fun path => .inr ⟨rfl, congrFun noted path⟩⟩
  | create other line now program file free =>
      obtain ⟨rfl, _⟩ := sound
      refine ⟨fun _ _ => rfl, fun path => ?_⟩
      rw [noted, note]
      by_cases same : path = file.path
      · subst same
        exact .inl ⟨Function.update_self .., .inr free⟩
      · exact .inr ⟨FileSystem.create_other _ same, Function.update_of_ne same _ _⟩
  | write other now file chunk rest =>
      obtain ⟨rfl, owned, _⟩ := sound
      refine ⟨fun _ _ => rfl, fun path => ?_⟩
      rw [noted, note]
      by_cases same : path = file.path
      · subst same
        exact .inl ⟨Function.update_self .., .inl owned⟩
      · exact .inr ⟨FileSystem.append_other _ same _, Function.update_of_ne same _ _⟩
  | register other now file =>
      obtain ⟨rfl, _⟩ := sound
      refine ⟨fun stream different => ?_, fun path => .inr ⟨rfl, congrFun noted path⟩⟩
      rw [ArchiveStore.active_replaceActive, if_neg different]

theorem handle_abandoned (lane : Lane before id stream) (running : before.calls id = some call)
    (stepped : CallStep before.toConcurrentRecorder call (after.calls id) after.store after.files)
    (noted : after.recordedFor = before.note (after.calls id)) :
    KeepsAbandoned before after id stream := by
  intro path abandoned
  have sound := lane.call call running
  have quiet := abandoned.quiet call running
  obtain ⟨content, present, _⟩ := lane.records path abandoned.recordedFor
  have inactive : ∀ active, before.store.active stream = some active → active.path ≠ path := by
    apply abandoned.inactive.resolve_right
    rintro ⟨_, none⟩
    rw [none] at running
    cases running
  have recorded : after.recordedFor path = some stream := by
    rcases (lane.handle_own running stepped noted).2 path with ⟨own, _⟩ | ⟨_, same⟩
    · exact own
    · exact same.trans abandoned.recordedFor
  suffices still : (∀ next, after.calls id = some next → next.writes ≠ some path) ∧
      (∀ active, after.store.active stream = some active → active.path ≠ path) ∧
        after.files path = before.files path from
    ⟨⟨recorded, still.1, .inl still.2.1⟩, still.2.2⟩
  generalize after.calls id = moved at stepped
  generalize after.store = stored at stepped
  generalize after.files = written at stepped
  cases stepped with
  | skip other line now =>
      refine ⟨?_, inactive, rfl⟩
      intro call found
      cases found
  | lockAppend other line now file found =>
      obtain ⟨rfl, _⟩ := sound
      refine ⟨?_, inactive, rfl⟩
      rintro _ ⟨⟩ same
      exact inactive file found (Option.some.inj same)
  | append other chunk rest =>
      refine ⟨?_, inactive, FileSystem.append_other _ ?_ _⟩
      · rintro _ ⟨⟩
        exact quiet
      · rintro rfl
        exact quiet rfl
  | mark other =>
      refine ⟨?_, inactive, rfl⟩
      intro call found
      cases found
  | lockOpen other line now program =>
      refine ⟨?_, inactive, rfl⟩
      rintro _ ⟨⟩
      nofun
  | create other line now program file free =>
      have apart : path ≠ file.path := by
        rintro rfl
        rw [free] at present
        cases present
      refine ⟨?_, inactive, FileSystem.create_other _ apart⟩
      rintro _ ⟨⟩ same
      exact apart (Option.some.inj same).symm
  | write other now file chunk rest =>
      refine ⟨?_, inactive, FileSystem.append_other _ ?_ _⟩
      · rintro _ ⟨⟩
        exact quiet
      · rintro rfl
        exact quiet rfl
  | register other now file =>
      obtain ⟨rfl, _⟩ := sound
      refine ⟨?_, fun active found => ?_, rfl⟩
      · intro call found
        cases found
      · rw [ArchiveStore.active_replaceActive, if_pos rfl, Option.some.injEq] at found
        rw [← found]
        rintro rfl
        exact quiet rfl

end Lane

/-- A target has one name. -/
theorem id_eq {first second : ℕ} (here : streams.names[first]? = some stream)
    (there : streams.names[second]? = some stream) : first = second := by
  have bound : first < streams.names.length := (List.getElem?_eq_some_iff.mp here).1
  exact (List.getElem?_inj bound streams.nodup).mp (here.trans there.symm)

/-- Every configured stream has its lane, and nothing else is recorded. -/
structure Intact (streams : StreamNames) (initial : FileSystem) (state : Tailing) : Prop where
  lanes : ∀ (id : ℕ) stream, streams.names[id]? = some stream → Lane state id stream
  calls : ∀ (id : ℕ) call, state.calls id = some call →
    ∃ stream, streams.names[id]? = some stream
  known : ∀ path stream, state.recordedFor path = some stream → stream ∈ streams.names
  others : ∀ path, state.recordedFor path = none → state.files path = initial path

namespace Intact

variable {initial : FileSystem}

theorem start (started : state.Start initial) : Intact streams initial state where
  lanes id stream _ := by
    refine ⟨fun path owned => ?_, fun active found => ?_, fun call running => ?_,
      fun active content found => ?_, fun line member => ?_⟩
    · rw [started.recordedFor] at owned
      cases owned
    · rw [started.inactive] at found
      cases found
    · rw [started.idle] at running
      cases running
    · rw [started.inactive] at found
      cases found
    · rw [started.targets] at member
      rcases member with queued | sent
      · cases queued
      · cases sent
  calls id call running := by
    rw [started.idle] at running
    cases running
  known path stream owned := by
    rw [started.recordedFor] at owned
    cases owned
  others path _ := congrFun started.files path

/-- What a step of one target leaves alone. -/
structure OthersKept (before after : Tailing) (id : ℕ) (stream : String) : Prop where
  active : ∀ other ≠ stream, after.store.active other = before.store.active other
  files : ∀ path, OwnOnly before after stream path
  passed : ∀ other ≠ stream, after.passed other = before.passed other
  calls : ∀ other ≠ id, after.calls other = before.calls other
  targets : ∀ other ≠ id, after.targets other = before.targets other

/-- A step of one target keeps the lanes of the others. -/
theorem sameLane (intact : Intact streams initial before)
    (here : streams.names[id]? = some stream) (kept : OthersKept before after id stream) {other : ℕ}
    {name : String} (there : streams.names[other]? = some name) (apart : other ≠ id) :
    SameLane before after other name := by
  have different : name ≠ stream := by
    rintro rfl
    exact apart (id_eq there here)
  -- A path of another stream is neither of this stream nor free.
  have foreign (path : String) (owned : before.recordedFor path = some name) :
      after.files path = before.files path ∧
        after.recordedFor path = before.recordedFor path := by
    rcases kept.files path with ⟨_, taken | free⟩ | same
    · rw [owned, Option.some.injEq] at taken
      exact absurd taken different
    · obtain ⟨content, present, _⟩ := (intact.lanes other name there).records path owned
      rw [free] at present
      cases present
    · exact same
  refine ⟨fun path => ⟨fun owned => ?_, fun owned => ?_⟩, fun path owned => (foreign path owned).1,
    kept.passed name different, kept.active name different, kept.calls other apart,
    kept.targets other apart⟩
  · rcases kept.files path with ⟨taken, _⟩ | same
    · rw [owned, Option.some.injEq] at taken
      exact absurd taken different
    · exact same.2 ▸ owned
  · exact (foreign path owned).2.trans owned

theorem of_own (intact : Intact streams initial before)
    (here : streams.names[id]? = some stream) (own : Lane after id stream)
    (kept : OthersKept before after id stream) : Intact streams initial after where
  lanes other name there := by
    by_cases same : other = id
    · subst same
      rw [here, Option.some.injEq] at there
      exact there ▸ own
    · exact (intact.lanes other name there).of_same (intact.sameLane here kept there same)
  calls other call running := by
    by_cases same : other = id
    · exact ⟨stream, same ▸ here⟩
    · rw [kept.calls other same] at running
      exact intact.calls other call running
  known path name owned := by
    rcases kept.files path with ⟨taken, _⟩ | same
    · rw [owned, Option.some.injEq] at taken
      exact taken ▸ List.mem_of_getElem? here
    · rw [same.2] at owned
      exact intact.known path name owned
  others path unowned := by
    rcases kept.files path with ⟨taken, _⟩ | same
    · rw [unowned] at taken
      cases taken
    · rw [same.2] at unowned
      exact same.1.trans (intact.others path unowned)

/-- Every step is one of a producer, or one of a stream that keeps the others. -/
inductive LaneStep (streams : StreamNames) (before : Tailing) : Tailing → Prop where
  | produce (id : ℕ) (target : TailTarget) : ¬ before.Stalled id →
      (∀ line, line ∈ target.queue ∨ line ∈ target.producer.outbox →
        (line ∈ (before.targets id).queue ∨ line ∈ (before.targets id).producer.outbox) ∨
          newline ∉ utf8Bytes line) →
      LaneStep streams before (before.withTarget id target)
  | own (id : ℕ) (stream : String) (after : Tailing) : streams.names[id]? = some stream →
      OthersKept before after id stream → Lane after id stream →
      KeepsAbandoned before after id stream → LaneStep streams before after

theorem laneStep (intact : Intact streams initial before)
    (stepped : Step crates reads streams before after) : LaneStep streams before after := by
  cases stepped with
  | connect id stream here waiting unlocked =>
      have inactive : (before.store.deactivateStream stream).active stream = none := by
        rw [ArchiveStore.active_deactivateStream, if_pos rfl]
      refine .own id stream _ here ⟨fun other different => ?_, fun _ => .inr ⟨rfl, rfl⟩,
        fun _ _ => rfl, fun _ _ => rfl,
        fun other different => target_withTarget_of_ne _ _ _ different⟩
        ((intact.lanes id stream here).connect unlocked) fun path abandoned =>
          ⟨⟨abandoned.recordedFor, abandoned.quiet, .inl fun active found => ?_⟩, rfl⟩
      · rw [store_withTarget, ArchiveStore.active_deactivateStream, if_neg different]
      · rw [store_withTarget, inactive] at found
        cases found
  | chunk id buffer buffer' bytes lines connected pushed =>
      refine .produce id _ ?_ fun line member => ?_
      · rintro ⟨new, _⟩
        rw [new] at connected
        cases connected
      · rcases member with queued | sent
        · exact .inl (.inl queued)
        · exact .inr (LineBuffer.newline_not_mem_pushChunk pushed line sent)
  | send id buffer line outbox connected room =>
      refine .produce id _ ?_ fun other member => .inl ?_
      · rintro ⟨new, _⟩
        rw [new] at connected
        cases connected
      · rw [connected]
        rcases member with queued | sent
        · rcases List.mem_append.mp queued with old | new
          · exact .inl old
          · exact .inr (List.mem_singleton.mp new ▸ List.mem_cons_self)
        · exact .inr (List.mem_cons_of_mem _ sent)
  | disconnect id buffer outbox connected =>
      refine .produce id _ ?_ fun line member => .inl (.inl ?_)
      · rintro ⟨new, _⟩
        rw [new] at connected
        cases connected
      · exact member.resolve_right List.not_mem_nil
  | take id stream line rest now here queue idle _ =>
      refine .own id stream _ here ⟨fun _ _ => rfl, fun _ => .inr ⟨rfl, rfl⟩,
        fun other different => Function.update_of_ne different _ _,
        fun other different => ConcurrentRecorder.calls_withCall_of_ne _ _ _ different,
        fun other different => target_withTarget_of_ne _ _ _ different⟩
        ((intact.lanes id stream here).take now queue idle) fun path abandoned =>
          ⟨⟨abandoned.recordedFor, fun call running => ?_, .inl ?_⟩, rfl⟩
      · rcases ConcurrentRecorder.calls_withCall running with old | ⟨_, new⟩
        · rw [idle] at old
          cases old
        · cases new
          nofun
      · apply abandoned.inactive.resolve_right
        rintro ⟨new, _⟩
        rw [new] at queue
        cases queue
  | handle id call recorder running moved moves =>
      obtain ⟨stream, here⟩ := intact.calls id call running
      have lane := intact.lanes id stream here
      obtain ⟨stepped, calls⟩ := ConcurrentRecorder.Step.call running moved moves
      let after : Tailing := { before with
        toConcurrentRecorder := recorder, recordedFor := before.note (recorder.calls id) }
      have noted : after.recordedFor = before.note (after.calls id) := rfl
      have frame := lane.handle_own running stepped noted
      exact .own id stream after here ⟨frame.1, frame.2, fun _ _ => rfl, calls, fun _ _ => rfl⟩
        (lane.handle running stepped noted rfl rfl) (lane.handle_abandoned running stepped noted)
  | fail id call running _ =>
      obtain ⟨stream, here⟩ := intact.calls id call running
      refine .own id stream _ here ⟨fun _ _ => rfl, fun _ => .inr ⟨rfl, rfl⟩, fun _ _ => rfl,
        fun other different => ConcurrentRecorder.calls_withCall_of_ne _ _ _ different,
        fun other different => target_withTarget_of_ne _ _ _ different⟩
        (intact.lanes id stream here).fail fun path abandoned =>
          ⟨⟨abandoned.recordedFor, fun call running => ?_,
            .inr ⟨target_withTarget .., ConcurrentRecorder.calls_withCall_self ..⟩⟩, rfl⟩
      rw [toConcurrentRecorder_withTarget, ConcurrentRecorder.calls_withCall_self] at running
      cases running

/-- The lanes of a target whose producer goes on. -/
theorem produce (intact : Intact streams initial before) (going : ¬ before.Stalled id)
    {target : TailTarget}
    (lines : ∀ line, line ∈ target.queue ∨ line ∈ target.producer.outbox →
      (line ∈ (before.targets id).queue ∨ line ∈ (before.targets id).producer.outbox) ∨
        newline ∉ utf8Bytes line) : Intact streams initial (before.withTarget id target) where
  lanes other stream there := by
    have lane := intact.lanes other stream there
    by_cases same : other = id
    · subst same
      exact lane.produce going fun line member => (lines line member).elim (lane.lines line) id
    · exact lane.of_same ⟨fun _ => Iff.rfl, fun _ _ => rfl, rfl, rfl, rfl,
        target_withTarget_of_ne _ _ _ same⟩
  calls := intact.calls
  known := intact.known
  others := intact.others

theorem step (intact : Intact streams initial before)
    (stepped : Step crates reads streams before after) : Intact streams initial after := by
  cases intact.laneStep stepped with
  | produce id target going lines => exact intact.produce going lines
  | own id stream _ here kept lane _ => exact intact.of_own here lane kept

theorem run (reachable : Transition.Reachable (Start initial) (Step crates reads streams) state) :
    Intact streams initial state :=
  reachable.invariant (fun _ => start) fun _ _ _ intact => intact.step

end Intact

/-- Nothing is appended to an abandoned file. -/
theorem Abandoned.step {initial : FileSystem} (abandoned : before.Abandoned id stream path)
    (intact : Intact streams initial before) (here : streams.names[id]? = some stream)
    (stepped : Step crates reads streams before after) :
    after.Abandoned id stream path ∧ after.files path = before.files path := by
  cases intact.laneStep stepped with
  | produce other target going lines =>
      refine ⟨⟨abandoned.recordedFor, abandoned.quiet, ?_⟩, rfl⟩
      rcases abandoned.inactive with inactive | ⟨new, idle⟩
      · exact .inl inactive
      · refine .inr ⟨?_, idle⟩
        have apart : id ≠ other := by
          rintro rfl
          exact going ⟨new, idle⟩
        exact (target_withTarget_of_ne _ _ _ apart).trans new
  | own other name _ there kept _ keeps =>
      by_cases same : id = other
      · subst same
        rw [there, Option.some.injEq] at here
        exact here ▸ keeps path (here.symm ▸ abandoned)
      · have lane := intact.sameLane there kept here same
        refine ⟨⟨(lane.recordedFor path).mpr abandoned.recordedFor, ?_, ?_⟩,
          lane.files path abandoned.recordedFor⟩
        · rw [lane.call]
          exact abandoned.quiet
        · rw [lane.active, Stalled, lane.target, lane.call]
          exact abandoned.inactive

/-- A file that the run has not created stays as it is. -/
theorem Intact.foreign {initial : FileSystem} {entry : Entry}
    (intact : Intact streams initial before) (unowned : before.recordedFor path = none)
    (present : before.files path = some entry)
    (stepped : Step crates reads streams before after) :
    after.recordedFor path = none ∧ after.files path = some entry := by
  cases intact.laneStep stepped with
  | produce _ _ _ _ => exact ⟨unowned, present⟩
  | own id stream _ here kept _ _ =>
      rcases kept.files path with ⟨_, taken | free⟩ | same
      · rw [unowned] at taken
        cases taken
      · rw [free] at present
        cases present
      · exact ⟨same.2.trans unowned, same.1.trans present⟩

/-- What failed writes leave of the archive files. -/
structure RecordsIntact (crates : Crates) (reads : NaiveDateTime → Prop) (streams : StreamNames)
    (initial : FileSystem) (state : Tailing) : Prop where
  /-- A file is as it was before the run, or its complete records are lines that were passed to
  `handle_line` for its stream, in their order. -/
  records : ∀ path content, state.files path = some (.file content) →
    state.recordedFor path = none ∧ initial path = some (.file content) ∨
      ∃ stream ∈ streams.names, state.recordedFor path = some stream ∧
        (Framing.frames newline content).Sublist ((state.passed stream).map utf8Bytes)
  /-- A file that ends in an incomplete record, which no call is writing, stays as it is. -/
  torn : ∀ path content, state.files path = some (.file content) →
    Framing.residue newline content ≠ [] → ¬ state.BeingWritten path →
      ∀ after, Transition.Reachable (· = state) (Step crates reads streams) after →
        after.files path = some (.file content)

/-- In every run, whichever writes fail and after whichever part of a record. -/
theorem failed_writes_keep_records_intact {initial : FileSystem}
    (reachable : Transition.Reachable (Start initial) (Step crates reads streams) state) :
    RecordsIntact crates reads streams initial state := by
  have intact := Intact.run reachable
  refine ⟨fun path content present => ?_, fun path content present torn quiet => ?_⟩
  · cases owned : state.recordedFor path with
    | none => exact .inl ⟨rfl, (intact.others path owned).symm.trans present⟩
    | some stream =>
        have known := intact.known path stream owned
        obtain ⟨id, here⟩ := List.getElem?_of_mem known
        obtain ⟨bytes, there, records⟩ := (intact.lanes id stream here).records path owned
        rw [present] at there
        cases there
        exact .inr ⟨stream, known, rfl, records⟩
  · cases owned : state.recordedFor path with
    | none =>
        intro after later
        have kept : Intact streams initial after ∧ after.recordedFor path = none ∧
            after.files path = some (.file content) := by
          induction later with
          | initial same =>
              subst same
              exact ⟨intact, owned, present⟩
          | next _ stepped ih =>
              exact ⟨ih.1.step stepped, ih.1.foreign ih.2.1 ih.2.2 stepped⟩
        exact kept.2.2
    | some stream =>
        obtain ⟨id, here⟩ := List.getElem?_of_mem (intact.known path stream owned)
        have lane := intact.lanes id stream here
        have silent : ∀ call, state.calls id = some call → call.writes ≠ some path :=
          fun call running writes => quiet ⟨id, call, running, writes⟩
        have abandoned : state.Abandoned id stream path := by
          refine ⟨owned, silent, ?_⟩
          by_cases inactive : ∀ active, state.store.active stream = some active →
              active.path ≠ path
          · exact .inl inactive
          · push Not at inactive
            obtain ⟨active, found, rfl⟩ := inactive
            exact .inr (lane.torn active content found present torn fun rest appending =>
              silent _ appending rfl)
        intro after later
        have kept : Intact streams initial after ∧ after.Abandoned id stream path ∧
            after.files path = some (.file content) := by
          induction later with
          | initial same =>
              subst same
              exact ⟨intact, abandoned, present⟩
          | next _ stepped ih =>
              obtain ⟨still, same⟩ := ih.2.1.step ih.1 here stepped
              exact ⟨ih.1.step stepped, still, same.trans ih.2.2⟩
        exact kept.2.2

end Tailing

namespace Sample

def oneStream : StreamNames := ⟨["nhk"], by simp⟩

/-- Nothing is connected, and there are no files. -/
def untailed : Tailing :=
  ⟨.idle (.new "data" fun _ => none), fun _ => .new, fun _ => [], fun _ => none⟩

/-- The file of the first program. -/
def tornFile : ActiveArchiveFile :=
  ⟨news.key, archivePath Sample.crates "data" "nhk" news (clock 1) 0⟩

end Sample

namespace Tailing

/-- The write of the first record fails after three bytes. -/
theorem failed_writes_keep_records_intact_sample : ∃ state : Tailing,
    state.files Sample.tornFile.path = some (.file ((lineBytes Sample.newsLine).take 3)) ∧
      Framing.residue newline ((lineBytes Sample.newsLine).take 3) ≠ [] ∧
        RecordsIntact Sample.crates (fun _ => True) Sample.oneStream (fun _ => none) state := by
  have eit : lineProgram Sample.crates Sample.newsLine = some (some Sample.news) := by
    decide +kernel
  have pushed : LineBuffer.new.pushChunk (lineBytes Sample.newsLine) =
      (.ok [Sample.newsLine], .new) :=
    Prod.ext (eq_ok_of_toOption (by decide +kernel)) (by decide +kernel)
  have start : Transition.Reachable (Start fun _ => none)
      (Step Sample.crates (fun _ => True) Sample.oneStream) Sample.untailed :=
    .initial ⟨rfl, fun _ => rfl, fun _ => rfl, fun _ => rfl, fun _ => rfl, fun _ => rfl⟩
  have idle : Sample.untailed.Idle := fun _ => rfl
  have shorter : some (HandleLine.writing "nhk" (Sample.clock 1) Sample.tornFile
      ((lineBytes Sample.newsLine).drop 3)) ≠ some (.writing "nhk" (Sample.clock 1) Sample.tornFile
        (lineBytes Sample.newsLine)) := by
    intro same
    injection same with same
    injection same with _ _ _ same
    exact absurd (congrArg List.length same) (by decide +kernel)
  have connected := start.next (.connect 0 "nhk" rfl rfl idle.unlocked)
  have received := connected.next (.chunk 0 .new .new _ _ rfl pushed)
  have queued := received.next (.send 0 .new Sample.newsLine [] rfl (by decide))
  have entered := queued.next
    (.take 0 "nhk" Sample.newsLine [] (Sample.clock 1) rfl rfl rfl trivial)
  have opening := entered.next (.handle 0 _ _ rfl (.lockOpen 0 "nhk" Sample.newsLine
    (Sample.clock 1) Sample.news rfl (idle.unlocked.withCall nofun) eit (by rintro _ ⟨⟩)) nofun)
  have created := opening.next (.handle 0 _ _ rfl (.create 0 "nhk" Sample.newsLine
    (Sample.clock 1) Sample.news 0 Sample.tornFile rfl rfl rfl) nofun)
  have written := created.next (.handle 0 _ _ rfl (.write 0 "nhk" (Sample.clock 1) Sample.tornFile
    ((lineBytes Sample.newsLine).take 3) ((lineBytes Sample.newsLine).drop 3)
    (by rw [List.take_append_drop]; rfl)) shorter)
  have failed := written.next (.fail 0 _ rfl rfl)
  refine ⟨_, ?_, ?_, failed_writes_keep_records_intact failed⟩
  · have files := FileSystem.create_append (fun _ => none) Sample.tornFile.path
      ((lineBytes Sample.newsLine).take 3)
    exact (congrFun files _).trans (Function.update_self ..)
  · decide +kernel

end Tailing

end AribcapDb
