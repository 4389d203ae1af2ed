import AribcapDb.Archive.Partition
import AribcapDb.Foundation.Transition

/-! # Recordings across reconnects

One stream under its supervisor: the producer reads the lines of one connection after the other
into a bounded channel, and the consumer hands them to the recorder. Every new connection begins
with `deactivate_stream`, which keeps the recordings of two connections apart as long as no
present EIT of an earlier connection is still on its way (`recordings_keep_connections_apart`);
such a line opens a file that goes on with lines of the new connection
(`queued_eit_mixes_connections`). -/

namespace AribcapDb

/-- `LINE_CHANNEL_CAPACITY`. -/
def lineChannelCapacity : ℕ := 256

/-- A line and the connection it was received on. -/
structure Received where
  connection : ℕ
  line : String
  deriving DecidableEq, Repr

/-- One stream under its supervisor. -/
structure Supervised where
  recorder : Recorder
  /-- The number of connections so far. -/
  connection : ℕ
  /-- The latest connection has not failed yet. -/
  connected : Bool
  queue : List Received
  /-- The line the consumer has taken out of the channel. -/
  inHand : Option Received
  /-- The files before the first connection. -/
  initial : FileSystem
  /-- The lines that calls have written to every file, or begun to write. -/
  stored : String → List Received

namespace Supervised

/-- The lines on their way to the recorder, in order. -/
def pending (state : Supervised) : List Received := state.inHand.toList ++ state.queue

/-- Note a line at the path whose file its call has changed. -/
def note (state : Supervised) (received : Received) (files : FileSystem) (path : String) :
    List Received :=
  if files path = state.recorder.files path then state.stored path
  else state.stored path ++ [received]

/-- The steps of `run_target_attempt` and its supervisor. -/
inductive Step (crates : Crates) (stream : String) (before : Supervised) : Supervised → Prop where
  /-- `before_connect`, and the start of the next connection. -/
  | connect : before.connected = false →
      Step crates stream before
        { before with
          recorder := before.recorder.deactivateStream stream
          connection := before.connection + 1
          connected := true }
  /-- The line buffer hands on lines without their newline. -/
  | receive (line : String) : before.connected = true →
      before.queue.length < lineChannelCapacity → '\n' ∉ line.toList →
      Step crates stream before
        { before with queue := before.queue ++ [⟨before.connection, line⟩] }
  | disconnect : before.connected = true →
      Step crates stream before { before with connected := false }
  | dequeue (received : Received) (rest : List Received) : before.inHand = none →
      before.queue = received :: rest →
      Step crates stream before { before with inHand := some received, queue := rest }
  | handle (received : Received) (io : IoOutcome) (now : NaiveDateTime)
      (event : Option ArchiveEvent) (after : Recorder) : before.inHand = some received →
      before.recorder.handleLineAt crates io stream received.line now = (.ok event, after) →
      Step crates stream before
        { before with
          recorder := after
          inHand := none
          stored := before.note received after.files }
  /-- A failed call ends the attempt, and the supervisor begins another with a new channel. -/
  | fail (received : Received) (io : IoOutcome) (now : NaiveDateTime) (error : String)
      (after : Recorder) : before.inHand = some received →
      before.recorder.handleLineAt crates io stream received.line now = (.error error, after) →
      Step crates stream before
        { before with
          recorder := after
          inHand := none
          queue := []
          connected := false
          stored := before.note received after.files }

/-- Any files, and a stream that has never been connected. -/
structure Start (stream : String) (state : Supervised) : Prop where
  inactive : state.recorder.store.active stream = none
  disconnected : state.connected = false
  idle : state.pending = []
  initial : state.recorder.files = state.initial
  unwritten : ∀ path, state.stored path = []

def IsPresentEit (crates : Crates) (line : String) : Prop :=
  ∃ key, classifyLine crates line = .header key

/-- When a connection begins, none of the lines on their way is a present EIT. -/
def NoEitOnTheWay (crates : Crates) (before after : Supervised) : Prop :=
  before.connected = false → after.connected = true →
    ∀ received ∈ before.pending, ¬ IsPresentEit crates received.line

/-- A file holds the given lines; the last one may have been cut short. -/
structure HoldsLines (content : List UInt8) (lines : List String) : Prop where
  begins : fileContent lines.dropLast <+: content
  within : content <+: fileContent lines

/-- The complete lines of a file are the given ones, or all but the last one. -/
theorem HoldsLines.frames {content : List UInt8} {lines : List String}
    (holds : HoldsLines content lines) (free : ∀ line ∈ lines, '\n' ∉ line.toList) :
    Framing.frames newline content = lines.map utf8Bytes ∨
      Framing.frames newline content = lines.dropLast.map utf8Bytes := by
  obtain ⟨begins, within⟩ := holds
  rcases List.eq_nil_or_concat lines with rfl | ⟨earlier, last, rfl⟩
  · rw [show content = [] by simpa [fileContent] using within]
    exact .inl rfl
  · rw [List.concat_eq_append] at begins within free ⊢
    rw [List.dropLast_concat] at begins ⊢
    obtain ⟨tail, rfl⟩ := begins
    rw [fileContent_snoc, List.prefix_append_right_inj] at within
    have bytes : ∀ frame ∈ earlier.map utf8Bytes, newline ∉ frame := by
      intro frame member
      obtain ⟨line, inside, rfl⟩ := List.mem_map.mp member
      exact newline_not_mem_utf8Bytes (free line (List.mem_append_left _ inside))
    have last_free : newline ∉ utf8Bytes last :=
      newline_not_mem_utf8Bytes (free last (List.mem_append_right _ List.mem_cons_self))
    rw [fileContent_eq_unframe, Framing.frames_unframe_append newline bytes]
    rcases List.prefix_concat_iff.mp within with rfl | part
    · left
      rw [Framing.frames_frame_append newline last_free, Framing.frames_nil, List.map_append,
        List.map_singleton]
    · right
      have open' : newline ∉ tail := fun member => last_free (part.subset member)
      rw [Framing.frames_of_not_mem newline open', List.append_nil]

/-- What is at a path: what was there before, or the file of lines that calls have written there,
which begin with a present EIT and were all received on its connection. -/
inductive Recorded (crates : Crates) (state : Supervised) (path : String) : Prop where
  | untouched : state.recorder.files path = state.initial path → state.stored path = [] →
      Recorded crates state path
  | lines (content : List UInt8) (opening : Received) (rest : List Received) :
      state.initial path = none → state.recorder.files path = some (.file content) →
      state.stored path = opening :: rest →
      HoldsLines content ((opening :: rest).map Received.line) →
      IsPresentEit crates opening.line →
      (∀ received ∈ rest, received.connection = opening.connection) →
      Recorded crates state path

/-- Every line stored in a file was received on the connection of the present EIT that opened the
file: what calls have written is so, and the file has no other line. -/
structure OneConnection (crates : Crates) (state : Supervised) (path : String) : Prop where
  recorded : Recorded crates state path
  frames : ∀ content, state.recorder.files path = some (.file content) →
    state.stored path ≠ [] →
      Framing.frames newline content =
          (state.stored path).map (fun received => utf8Bytes received.line) ∨
        Framing.frames newline content =
          (state.stored path).dropLast.map fun received => utf8Bytes received.line

/-- What keeps the connections apart. -/
structure Apart (crates : Crates) (stream : String) (state : Supervised) : Prop where
  recorded : ∀ path, Recorded crates state path
  single : ∀ path, ∀ received ∈ state.stored path, '\n' ∉ received.line.toList
  /-- The active file holds lines of the latest connection, and nothing else while a line may
  come. -/
  active : ∀ active, state.recorder.store.active stream = some active →
    state.stored active.path ≠ [] ∧
      (∀ received ∈ state.stored active.path, received.connection = state.connection) ∧
        (state.recorder.files active.path =
            storedFile ((state.stored active.path).map Received.line) ∨
          state.connected = false ∧ state.pending = [])
  ordered : (state.pending.map Received.connection).Pairwise (· ≤ ·)
  latest : ∀ received ∈ state.pending, received.connection ≤ state.connection
  coming : ∀ received ∈ state.pending, '\n' ∉ received.line.toList
  eit : ∀ received ∈ state.pending, IsPresentEit crates received.line →
    received.connection = state.connection
  following : (state.recorder.store.active stream).isSome → ∀ received ∈ state.pending,
    received.connection = state.connection

variable {crates : Crates} {stream : String} {before after state : Supervised}

section Note

variable {received : Received} {path : String} {entry : Entry}

/-- A call that changes one file is noted there. -/
theorem note_update (changed : before.recorder.files path ≠ some entry) :
    before.note received (Function.update before.recorder.files path (some entry)) =
      Function.update before.stored path (before.stored path ++ [received]) := by
  funext other
  unfold note
  by_cases own : other = path
  · subst own
    rw [Function.update_self, Function.update_self, if_neg (Ne.symm changed)]
  · rw [Function.update_of_ne own, Function.update_of_ne own, if_pos rfl]

theorem note_same : before.note received before.recorder.files = before.stored := by
  funext other
  exact if_pos rfl

/-- Nothing has been written to a path that is still free. -/
theorem Recorded.of_free (recorded : Recorded crates state path)
    (free : state.recorder.files path = none) :
    state.initial path = none ∧ state.stored path = [] := by
  cases recorded with
  | untouched same unwritten => exact ⟨same.symm.trans free, unwritten⟩
  | lines content _ _ _ held _ _ _ _ =>
      rw [held] at free
      cases free

/-- What is at a path stays, when neither its file nor its lines change. -/
theorem Recorded.congr {other : Supervised} (recorded : Recorded crates state path)
    (initial : other.initial = state.initial)
    (files : other.recorder.files path = state.recorder.files path)
    (stored : other.stored path = state.stored path) : Recorded crates other path := by
  cases recorded with
  | untouched same unwritten =>
      exact .untouched (by rw [files, same, initial]) (stored.trans unwritten)
  | lines content opening rest vacant held lines holds eit connection =>
      exact .lines content opening rest (by rw [initial, vacant]) (files.trans held)
        (stored.trans lines) holds eit connection

end Note

namespace Apart

theorem start (started : state.Start stream) : Apart crates stream state where
  recorded path := .untouched (congrFun started.initial path) (started.unwritten path)
  single path received member := by simp [started.unwritten] at member
  active active found := by
    rw [started.inactive] at found
    cases found
  ordered := by
    rw [started.idle]
    exact .nil
  latest := by simp [started.idle]
  coming := by simp [started.idle]
  eit := by simp [started.idle]
  following := by simp [started.idle]

/-- A new connection finds no present EIT on the way and no active file. -/
theorem connect (apart : Apart crates stream before)
    (drained : ∀ received ∈ before.pending, ¬ IsPresentEit crates received.line) :
    Apart crates stream
      { before with
        recorder := before.recorder.deactivateStream stream
        connection := before.connection + 1
        connected := true } := by
  have inactive : (before.recorder.deactivateStream stream).store.active stream = none := by
    rw [Recorder.store_deactivateStream, ArchiveStore.active_deactivateStream, if_pos rfl]
  refine ⟨fun path => (apart.recorded path).congr rfl rfl rfl, apart.single, ?_, apart.ordered,
    ?_, apart.coming, ?_, ?_⟩
  · intro active found
    rw [inactive] at found
    cases found
  · exact fun received member => (apart.latest received member).trans (Nat.le_succ _)
  · exact fun received member eit => absurd eit (drained received member)
  · intro active
    rw [inactive] at active
    cases active

theorem receive (apart : Apart crates stream before) (connected : before.connected = true)
    {line : String} (free : '\n' ∉ line.toList) :
    Apart crates stream { before with queue := before.queue ++ [⟨before.connection, line⟩] } := by
  have pending : ({ before with queue := before.queue ++ [⟨before.connection, line⟩] } :
      Supervised).pending = before.pending ++ [⟨before.connection, line⟩] :=
    (List.append_assoc _ _ _).symm
  have either {motive : Received → Prop} (old : ∀ received ∈ before.pending, motive received)
      (new : motive ⟨before.connection, line⟩) :
      ∀ received ∈ before.pending ++ [⟨before.connection, line⟩], motive received := by
    intro received member
    rcases List.mem_append.mp member with earlier | last
    · exact old received earlier
    · rw [List.mem_singleton.mp last]
      exact new
  refine ⟨fun path => (apart.recorded path).congr rfl rfl rfl, apart.single, ?_, ?_, ?_, ?_, ?_,
    ?_⟩
  · intro active found
    obtain ⟨nonempty, latest, exact' | ⟨disconnected, _⟩⟩ := apart.active active found
    · exact ⟨nonempty, latest, .inl exact'⟩
    · rw [connected] at disconnected
      cases disconnected
  · rw [pending, List.map_append]
    refine List.pairwise_append.mpr ⟨apart.ordered, List.pairwise_singleton _ _, ?_⟩
    intro earlier member last single
    obtain ⟨received, inside, rfl⟩ := List.mem_map.mp member
    rw [List.mem_singleton.mp single]
    exact apart.latest received inside
  · rw [pending]
    exact either apart.latest le_rfl
  · rw [pending]
    exact either apart.coming free
  · rw [pending]
    exact either apart.eit fun _ => rfl
  · rw [pending]
    exact fun active => either (apart.following active) rfl

theorem disconnect (apart : Apart crates stream before) (connected : before.connected = true) :
    Apart crates stream { before with connected := false } := by
  refine ⟨fun path => (apart.recorded path).congr rfl rfl rfl, apart.single, ?_, apart.ordered,
    apart.latest, apart.coming, apart.eit, apart.following⟩
  intro active found
  obtain ⟨nonempty, latest, exact' | ⟨disconnected, _⟩⟩ := apart.active active found
  · exact ⟨nonempty, latest, .inl exact'⟩
  · rw [connected] at disconnected
    cases disconnected

theorem dequeue (apart : Apart crates stream before) {received : Received} {rest : List Received}
    (free : before.inHand = none) (queue : before.queue = received :: rest) :
    Apart crates stream { before with inHand := some received, queue := rest } := by
  have pending : ({ before with inHand := some received, queue := rest } : Supervised).pending =
      before.pending := by
    simp [Supervised.pending, free, queue]
  refine ⟨fun path => (apart.recorded path).congr rfl rfl rfl, apart.single, ?_, ?_, ?_, ?_, ?_,
    ?_⟩
  · rw [pending]
    exact apart.active
  · rw [pending]
    exact apart.ordered
  · rw [pending]
    exact apart.latest
  · rw [pending]
    exact apart.coming
  · rw [pending]
    exact apart.eit
  · rw [pending]
    exact apart.following

/-- A line that a call has handled, or given up, without writing anything. -/
theorem drop (apart : Apart crates stream before) {received : Received}
    (held : before.inHand = some received) :
    Apart crates stream { before with inHand := none } := by
  have pending : before.pending = received :: before.queue := by
    simp [Supervised.pending, held]
  have fewer : ∀ other ∈ before.queue, other ∈ before.pending := fun other member =>
    pending ▸ List.mem_cons_of_mem _ member
  have ordered := apart.ordered
  rw [pending, List.map_cons] at ordered
  refine ⟨fun path => (apart.recorded path).congr rfl rfl rfl, apart.single, ?_, ordered.of_cons,
    fun other member => apart.latest other (fewer other member),
    fun other member => apart.coming other (fewer other member),
    fun other member => apart.eit other (fewer other member),
    fun active other member => apart.following active other (fewer other member)⟩
  intro active found
  obtain ⟨nonempty, latest, exact' | ⟨_, empty⟩⟩ := apart.active active found
  · exact ⟨nonempty, latest, .inl exact'⟩
  · rw [pending] at empty
    cases empty

/-- The files and their lines after a call has written a beginning of its line somewhere. -/
structure Wrote (crates : Crates) (before after : Supervised) (received : Received)
    (path : String) : Prop where
  recorded : ∀ other, Recorded crates after other
  single : ∀ other, ∀ line ∈ after.stored other, '\n' ∉ line.line.toList
  nonempty : after.stored path ≠ []
  lines : ∀ line ∈ after.stored path, line ∈ before.stored path ∨ line = received
  others : ∀ other, other ≠ path → after.stored other = before.stored other

section Writing

variable {received : Received} {active : ActiveArchiveFile} {bytes : List UInt8}

/-- Lines are noted nowhere but at one path. -/
theorem single_update (apart : Apart crates stream before) {path : String}
    {lines : List Received} (own : ∀ line ∈ lines, '\n' ∉ line.line.toList) (other : String) :
    ∀ line ∈ Function.update before.stored path lines other, '\n' ∉ line.line.toList := by
  rw [Function.update_apply]
  split
  · exact own
  · exact apart.single other

/-- A call that writes behind the active file, whose lines are all there. -/
theorem wrote_behind (apart : Apart crates stream before) (after : Supervised)
    (inside : received ∈ before.pending)
    (found : before.recorder.store.active stream = some active)
    (part : bytes <+: lineBytes received.line) (initial : after.initial = before.initial)
    (files : after.recorder.files = before.recorder.files.append active.path bytes)
    (stored : after.stored = before.note received after.recorder.files) :
    Wrote crates before after received active.path ∧
      (bytes = lineBytes received.line → after.recorder.files active.path =
        storedFile ((after.stored active.path).map Received.line)) := by
  obtain ⟨nonempty, _, exact' | ⟨_, empty⟩⟩ := apart.active active found
  · rw [FileSystem.append_file exact'] at files
    by_cases nothing : bytes = []
    · have same : some (Entry.file (fileContent
          ((before.stored active.path).map Received.line) ++ bytes)) =
            before.recorder.files active.path := by
        rw [nothing, List.append_nil, exact', storedFile]
      rw [same, Function.update_eq_self] at files
      rw [files, note_same] at stored
      refine ⟨⟨fun other => (apart.recorded other).congr initial (by rw [files]) (by rw [stored]),
        stored ▸ apart.single, stored ▸ nonempty, fun line member => .inl (stored ▸ member),
        fun other _ => by rw [stored]⟩, fun whole => ?_⟩
      simp [nothing, lineBytes] at whole
    · have changed : before.recorder.files active.path ≠ some (.file
          (fileContent ((before.stored active.path).map Received.line) ++ bytes)) := by
        simp [exact', storedFile, nothing]
      rw [files, note_update changed] at stored
      have own : after.stored active.path = before.stored active.path ++ [received] := by
        rw [stored, Function.update_self]
      have content : after.recorder.files active.path = some (.file
          (fileContent ((before.stored active.path).map Received.line) ++ bytes)) := by
        rw [files, Function.update_self]
      refine ⟨⟨fun other => ?_, ?_, by simp [own], ?_, ?_⟩, fun whole => ?_⟩
      · by_cases same : other = active.path
        · subst same
          have old := apart.recorded active.path
          cases old with
          | untouched _ unwritten => exact absurd unwritten nonempty
          | lines _ opening rest vacant _ lines _ eit connection =>
              refine .lines _ opening (rest ++ [received]) (initial ▸ vacant) content
                (by rw [own, lines, List.cons_append]) ⟨?_, ?_⟩ eit fun line member => ?_
              · rw [← List.cons_append, List.map_append, List.map_singleton,
                  List.dropLast_concat, ← lines]
                exact List.prefix_append _ _
              · rw [← List.cons_append, List.map_append, List.map_singleton, fileContent_snoc,
                  ← lines, List.prefix_append_right_inj]
                exact part
              · have first : opening.connection = before.connection := by
                  apply (apart.active active found).2.1
                  rw [lines]
                  exact List.mem_cons_self
                rcases List.mem_append.mp member with old | new
                · exact connection line old
                · rw [List.mem_singleton.mp new, first]
                  exact apart.following (by rw [found]; rfl) received inside
        · refine (apart.recorded other).congr initial ?_ ?_
          · rw [files, Function.update_of_ne same]
          · rw [stored, Function.update_of_ne same]
      · rw [stored]
        refine apart.single_update fun line member => ?_
        rcases List.mem_append.mp member with old | new
        · exact apart.single _ line old
        · rw [List.mem_singleton.mp new]
          exact apart.coming received inside
      · intro line member
        rw [own, List.mem_append, List.mem_singleton] at member
        exact member
      · intro other different
        rw [stored, Function.update_of_ne different]
      · rw [content, own, whole, List.map_append, storedFile, List.map_singleton,
          fileContent_snoc]
  · rw [empty] at inside
    cases inside

/-- A call that creates a file for its present EIT. -/
theorem wrote_new (apart : Apart crates stream before) (after : Supervised)
    (inside : received ∈ before.pending) (eit : IsPresentEit crates received.line) {path : String}
    (free : before.recorder.files path = none) (part : bytes <+: lineBytes received.line)
    (initial : after.initial = before.initial)
    (files : after.recorder.files = (before.recorder.files.create path).append path bytes)
    (stored : after.stored = before.note received after.recorder.files) :
    Wrote crates before after received path ∧ after.stored path = [received] ∧
      after.recorder.files path = some (.file bytes) := by
  rw [FileSystem.create_append] at files
  have changed : before.recorder.files path ≠ some (.file bytes) := by simp [free]
  obtain ⟨vacant, unwritten⟩ := (apart.recorded path).of_free free
  rw [files, note_update changed, unwritten, List.nil_append] at stored
  have own : after.stored path = [received] := by rw [stored, Function.update_self]
  have content : after.recorder.files path = some (.file bytes) := by
    rw [files, Function.update_self]
  refine ⟨⟨fun other => ?_, ?_, by simp [own], fun line member => ?_, fun other different => ?_⟩,
    own, content⟩
  · by_cases same : other = path
    · subst same
      refine .lines bytes received [] (initial ▸ vacant) content own ⟨?_, ?_⟩ eit (by simp)
      · exact List.nil_prefix
      · simpa [fileContent] using part
    · refine (apart.recorded other).congr initial ?_ ?_
      · rw [files, Function.update_of_ne same]
      · rw [stored, Function.update_of_ne same]
  · rw [stored]
    refine apart.single_update fun line member => ?_
    rw [List.mem_singleton.mp member]
    exact apart.coming received inside
  · rw [own, List.mem_singleton] at member
    exact .inr member
  · rw [stored, Function.update_of_ne different]

end Writing

/-- A line that goes on with the active file. -/
theorem append (apart : Apart crates stream before) {received : Received}
    (held : before.inHand = some received) {active : ActiveArchiveFile}
    (found : before.recorder.store.active stream = some active) :
    Apart crates stream
      { before with
        recorder := before.recorder.appended active received.line
        inHand := none
        stored := before.note received
          (before.recorder.appended active received.line).files } := by
  have pending : before.pending = received :: before.queue := by
    simp [Supervised.pending, held]
  have following := apart.following (by rw [found]; rfl)
  have inside : received ∈ before.pending := pending ▸ List.mem_cons_self
  have fewer : ∀ other ∈ before.queue, other ∈ before.pending := fun other member =>
    pending ▸ List.mem_cons_of_mem _ member
  have ordered := apart.ordered
  rw [pending, List.map_cons] at ordered
  obtain ⟨wrote, exact'⟩ := apart.wrote_behind
    { before with
      recorder := before.recorder.appended active received.line
      inHand := none
      stored := before.note received (before.recorder.appended active received.line).files }
    inside found List.prefix_rfl rfl rfl rfl
  refine ⟨wrote.recorded, wrote.single, ?_, ordered.of_cons,
    fun other member => (following other (fewer other member)).le,
    fun other member => apart.coming other (fewer other member),
    fun other member _ => following other (fewer other member),
    fun _ other member => following other (fewer other member)⟩
  intro other active'
  obtain rfl : active = other := Option.some.inj (found.symm.trans active')
  refine ⟨wrote.nonempty, fun line member => ?_, .inl (exact' rfl)⟩
  rcases wrote.lines line member with old | rfl
  · exact (apart.active active found).2.1 line old
  · exact following _ inside

/-- A line that opens a file. -/
theorem opened (apart : Apart crates stream before) {received : Received}
    (held : before.inHand = some received) {active : ActiveArchiveFile}
    (eit : IsPresentEit crates received.line) (free : before.recorder.files active.path = none) :
    Apart crates stream
      { before with
        recorder := before.recorder.started stream active received.line
        inHand := none
        stored := before.note received
          (before.recorder.started stream active received.line).files } := by
  have pending : before.pending = received :: before.queue := by
    simp [Supervised.pending, held]
  have inside : received ∈ before.pending := pending ▸ List.mem_cons_self
  have current := apart.eit received inside eit
  have ordered := apart.ordered
  rw [pending, List.map_cons, List.pairwise_cons] at ordered
  -- the lines behind a line of the latest connection are of that connection too
  have rest : ∀ other ∈ before.queue, other.connection = before.connection := by
    intro other member
    have lower := ordered.1 _ (List.mem_map_of_mem member)
    have upper := apart.latest other (pending ▸ List.mem_cons_of_mem _ member)
    omega
  obtain ⟨wrote, own, content⟩ := apart.wrote_new
    { before with
      recorder := before.recorder.started stream active received.line
      inHand := none
      stored := before.note received
        (before.recorder.started stream active received.line).files }
    inside eit free List.prefix_rfl rfl rfl rfl
  refine ⟨wrote.recorded, wrote.single, ?_, ordered.2, fun other member => (rest other member).le,
    fun other member => apart.coming other (pending ▸ List.mem_cons_of_mem _ member),
    fun other member _ => rest other member, fun _ => rest⟩
  intro other active'
  dsimp only [Recorder.started] at active'
  rw [ArchiveStore.active_replaceActive, if_pos rfl] at active'
  obtain rfl := Option.some.inj active'
  refine ⟨wrote.nonempty, fun line member => ?_, .inl ?_⟩
  · rw [own, List.mem_singleton] at member
    rw [member]
    exact current
  · rw [content, own]
    simp [storedFile, fileContent]

/-- A call that fails ends the attempt with the lines on their way. -/
theorem fail (apart : Apart crates stream before) {received : Received}
    (held : before.inHand = some received) {recorder : Recorder}
    (failed : Recorder.Failed crates before.recorder stream received.line recorder) :
    Apart crates stream
      { before with
        recorder, inHand := none, queue := [], connected := false
        stored := before.note received recorder.files } := by
  have inside : received ∈ before.pending := by simp [Supervised.pending, held]
  have idle : ∀ {after : Supervised}, after.pending = [] → after.connected = false →
      after.recorder.store = before.recorder.store → after.connection = before.connection →
      (∀ path, Recorded crates after path) →
      (∀ path, ∀ line ∈ after.stored path, '\n' ∉ line.line.toList) →
      (∀ active, before.recorder.store.active stream = some active →
        after.stored active.path ≠ [] ∧
          ∀ line ∈ after.stored active.path, line.connection = before.connection) →
      Apart crates stream after := by
    intro after empty disconnected store connection recorded single active
    refine ⟨recorded, single, fun own found => ?_, ?_, ?_, ?_, ?_, ?_⟩
    · rw [store] at found
      obtain ⟨nonempty, latest⟩ := active own found
      exact ⟨nonempty, connection ▸ latest, .inr ⟨disconnected, empty⟩⟩
    · rw [empty]
      exact .nil
    · simp [empty]
    · simp [empty]
    · simp [empty]
    · simp [empty]
  have old : ∀ active, before.recorder.store.active stream = some active →
      before.stored active.path ≠ [] ∧
        ∀ line ∈ before.stored active.path, line.connection = before.connection :=
    fun active found => ⟨(apart.active active found).1, (apart.active active found).2.1⟩
  cases failed with
  | untouched =>
      rw [note_same]
      exact idle rfl rfl rfl rfl (fun path => (apart.recorded path).congr rfl rfl rfl)
        apart.single old
  | append active count found =>
      obtain ⟨wrote, _⟩ := apart.wrote_behind
        { before with
          recorder := { before.recorder with
            files := before.recorder.files.append active.path
              ((lineBytes received.line).take count) }
          inHand := none, queue := [], connected := false
          stored := before.note received
            (before.recorder.files.append active.path ((lineBytes received.line).take count)) }
        inside found (List.take_prefix _ _) rfl rfl rfl
      refine idle rfl rfl rfl rfl wrote.recorded wrote.single fun other present => ?_
      obtain rfl : active = other := Option.some.inj (found.symm.trans present)
      refine ⟨wrote.nonempty, fun line member => ?_⟩
      rcases wrote.lines line member with before' | rfl
      · exact (old active found).2 line before'
      · exact apart.following (by rw [found]; rfl) _ inside
  | start program active count read free =>
      obtain ⟨wrote, _⟩ := apart.wrote_new
        { before with
          recorder := { before.recorder with
            files := (before.recorder.files.create active.path).append active.path
              ((lineBytes received.line).take count) }
          inHand := none, queue := [], connected := false
          stored := before.note received
            ((before.recorder.files.create active.path).append active.path
              ((lineBytes received.line).take count)) }
        inside ⟨program.key, by simp [classifyLine, read]⟩ free (List.take_prefix _ _) rfl rfl rfl
      refine idle rfl rfl rfl rfl wrote.recorded wrote.single fun other present => ?_
      have different : other.path ≠ active.path := by
        intro same
        have unwritten := ((apart.recorded active.path).of_free free).2
        exact (old other present).1 (same ▸ unwritten)
      rw [wrote.others _ different]
      exact old other present

theorem step (apart : Apart crates stream before) (stepped : Step crates stream before after)
    (drained : NoEitOnTheWay crates before after) : Apart crates stream after := by
  cases stepped with
  | connect disconnected => exact apart.connect (drained disconnected rfl)
  | receive line connected _ free => exact apart.receive connected free
  | disconnect connected => exact apart.disconnect connected
  | dequeue received rest free queue => exact apart.dequeue free queue
  | handle received io now event recorder held ran =>
      cases Recorder.handleLineAt_cases ran with
      | invalid _ =>
          rw [note_same]
          exact apart.drop held
      | noProgram _ _ =>
          rw [note_same]
          exact apart.drop held
      | append active found _ => exact apart.append held found
      | start program suffix active read _ named free =>
          exact apart.opened held ⟨program.key, by simp [classifyLine, read]⟩ free
  | fail received io now error recorder held ran =>
      exact apart.fail held (Recorder.handleLineAt_error ran)

theorem run (reachable : Transition.Reachable (Start stream)
    (Transition.Restricted (Step crates stream) (NoEitOnTheWay crates)) state) :
    Apart crates stream state :=
  reachable.invariant (fun _ started => start started) fun _ _ _ apart stepped =>
    apart.step stepped.1 stepped.2

/-- The complete lines of a file are the ones that calls have written to it. -/
theorem oneConnection (apart : Apart crates stream state) (path : String) :
    OneConnection crates state path := by
  refine ⟨apart.recorded path, fun content held written => ?_⟩
  cases apart.recorded path with
  | untouched _ unwritten => exact absurd unwritten written
  | lines bytes opening rest _ there lines holds _ _ =>
      obtain rfl : bytes = content := by simpa [there] using held
      have free : ∀ line ∈ (state.stored path).map Received.line, '\n' ∉ line.toList := by
        intro line member
        obtain ⟨received, inside, rfl⟩ := List.mem_map.mp member
        exact apart.single path received inside
      rw [← lines] at holds
      simpa [Function.comp_def, List.map_dropLast] using holds.frames free

end Apart

/-- In every run in which no present EIT is on the way when a connection begins, every line in a
file was received on the connection of the present EIT that opened it. -/
theorem recordings_keep_connections_apart
    (reachable : Transition.Reachable (Start stream)
      (Transition.Restricted (Step crates stream) (NoEitOnTheWay crates)) state)
    (path : String) : OneConnection crates state path :=
  (Apart.run reachable).oneConnection path

end Supervised

namespace Sample

def emptyRecorder : Recorder := .new "data" fun _ => none

/-- The recorder with a present EIT, and with a caption behind it. -/
def withNews : Recorder := (emptyRecorder.handleLineAt crates .success "nhk" newsLine (clock 1)).2

def withCaption : Recorder := (withNews.handleLineAt crates .success "nhk" captionLine (clock 2)).2

theorem handles_news : emptyRecorder.handleLineAt crates .success "nhk" newsLine (clock 1) =
    (.ok (some (.programStarted newsPath)), withNews) :=
  Prod.ext (eq_ok_of_toOption (by decide +kernel)) rfl

theorem handles_caption : withNews.handleLineAt crates .success "nhk" captionLine (clock 2) =
    (.ok none, withCaption) :=
  Prod.ext (eq_ok_of_toOption (by decide +kernel)) rfl

/-- The recorder when five bytes of the caption are written before the write fails. -/
def withTornCaption : Recorder :=
  (withNews.handleLineAt crates ⟨false, false, some 5⟩ "nhk" captionLine (clock 2)).2

theorem fails_caption :
    withNews.handleLineAt crates ⟨false, false, some 5⟩ "nhk" captionLine (clock 2) =
      (.error ("failed to write " ++ newsPath), withTornCaption) :=
  Prod.ext (by decide +kernel) rfl

/-- Nothing has been received. -/
def unconnected : Supervised :=
  ⟨emptyRecorder, 0, false, [], none, fun _ => none, fun _ => []⟩

theorem start_unconnected : unconnected.Start "nhk" := ⟨rfl, rfl, rfl, rfl, fun _ => rfl⟩

end Sample

namespace Supervised

/-- A present EIT of the first connection and a caption that is written in part; then the next
connection begins. -/
theorem recordings_keep_connections_apart_sample : ∃ state,
    state.connection = 2 ∧
    state.stored Sample.newsPath = [⟨1, Sample.newsLine⟩, ⟨1, Sample.captionLine⟩] ∧
    state.recorder.files Sample.newsPath =
      some (.file (lineBytes Sample.newsLine ++ (lineBytes Sample.captionLine).take 5)) ∧
    OneConnection Sample.crates state Sample.newsPath := by
  have start : Transition.Reachable (Start "nhk") (Transition.Restricted (Step Sample.crates "nhk")
      (NoEitOnTheWay Sample.crates)) Sample.unconnected := .initial Sample.start_unconnected
  have connected := start.next ⟨.connect rfl, by simp [NoEitOnTheWay, pending, Sample.unconnected]⟩
  have news := connected.next ⟨.receive Sample.newsLine rfl (by decide) (by decide), nofun⟩
  have held := news.next ⟨.dequeue ⟨1, Sample.newsLine⟩ [] rfl rfl, nofun⟩
  have opened := held.next ⟨.handle ⟨1, Sample.newsLine⟩ .success (Sample.clock 1) _ _ rfl
    Sample.handles_news, nofun⟩
  have caption := opened.next ⟨.receive Sample.captionLine rfl (by decide) (by decide), nofun⟩
  have held := caption.next ⟨.dequeue ⟨1, Sample.captionLine⟩ [] rfl rfl, nofun⟩
  have torn := held.next ⟨.fail ⟨1, Sample.captionLine⟩ ⟨false, false, some 5⟩ (Sample.clock 2) _ _
    rfl Sample.fails_caption, by simp [NoEitOnTheWay]⟩
  have again := torn.next ⟨.connect rfl, by simp [NoEitOnTheWay, pending]⟩
  exact ⟨_, rfl, by decide +kernel, by decide +kernel,
    recordings_keep_connections_apart again Sample.newsPath⟩

/-- A present EIT that is still queued when the next connection begins opens a file that goes on
with a caption of that connection. -/
theorem queued_eit_mixes_connections : ¬ ∀ state : Supervised,
    Transition.Reachable (Start "nhk") (Step Sample.crates "nhk") state →
      ∀ path, OneConnection Sample.crates state path := by
  intro claim
  have start : Transition.Reachable (Start "nhk") (Step Sample.crates "nhk") Sample.unconnected :=
    .initial Sample.start_unconnected
  have connected := start.next (.connect rfl)
  have news := connected.next (.receive Sample.newsLine rfl (by decide) (by decide))
  have lost := news.next (.disconnect rfl)
  have again := lost.next (.connect rfl)
  have caption := again.next (.receive Sample.captionLine rfl (by decide) (by decide))
  have held := caption.next (.dequeue ⟨1, Sample.newsLine⟩ [⟨2, Sample.captionLine⟩] rfl rfl)
  have opened := held.next (.handle ⟨1, Sample.newsLine⟩ .success (Sample.clock 1) _ _ rfl
    Sample.handles_news)
  have held := opened.next (.dequeue ⟨2, Sample.captionLine⟩ [] rfl rfl)
  have appended := held.next (.handle ⟨2, Sample.captionLine⟩ .success (Sample.clock 2) _ _ rfl
    Sample.handles_caption)
  obtain ⟨state, reachable, stored⟩ : ∃ state,
      Transition.Reachable (Start "nhk") (Step Sample.crates "nhk") state ∧
        state.stored Sample.newsPath = [⟨1, Sample.newsLine⟩, ⟨2, Sample.captionLine⟩] :=
    ⟨_, appended, by decide +kernel⟩
  cases (claim state reachable Sample.newsPath).recorded with
  | untouched _ unwritten =>
      rw [unwritten] at stored
      cases stored
  | lines _ opening rest _ _ lines _ _ connection =>
      rw [lines] at stored
      cases stored
      cases connection _ List.mem_cons_self

end Supervised

end AribcapDb
