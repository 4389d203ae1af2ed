import AribcapDb.Archive.Recorder

/-! # Concurrent calls of the recorder

Several calls of `handle_line` run at the same time. An append to the active file and its dirty
mark happen under the store lock, in steps that a reader of the file can see; a new file is
created and written outside the lock and registered afterwards. A call that runs alone does what
the sequential recorder does (`ConcurrentRecorder.runs_handleLineAt`). -/

namespace AribcapDb

/-- Where a call of `handle_line` stands. -/
inductive HandleLine where
  /-- The clock has been read. -/
  | entered (stream line : String) (now : NaiveDateTime)
  /-- The store is locked, and bytes are left to write to the active file. -/
  | appending (path : String) (rest : List UInt8)
  /-- The store has been found without the program and unlocked. -/
  | opening (stream line : String) (now : NaiveDateTime) (program : Program)
  /-- A new file is held, and bytes are left to write to it. -/
  | writing (stream : String) (now : NaiveDateTime) (active : ActiveArchiveFile)
      (rest : List UInt8)

/-- The path a call is writing to. -/
def HandleLine.writes : HandleLine → Option String
  | .entered _ _ _ => none
  | .appending path _ => some path
  | .opening _ _ _ _ => none
  | .writing _ _ active _ => some active.path

/-- The store, the files and the calls in progress. -/
structure ConcurrentRecorder extends Recorder where
  calls : ℕ → Option HandleLine

namespace ConcurrentRecorder

/-- A recorder without calls in progress. -/
def idle (recorder : Recorder) : ConcurrentRecorder := ⟨recorder, fun _ => none⟩

/-- No call holds the store lock between two of its steps. -/
def Unlocked (state : ConcurrentRecorder) : Prop :=
  ∀ id path rest, state.calls id ≠ some (.appending path rest)

/-- No call is in progress. -/
def Idle (state : ConcurrentRecorder) : Prop := ∀ id, state.calls id = none

def withCall (state : ConcurrentRecorder) (id : ℕ) (call : Option HandleLine) :
    ConcurrentRecorder :=
  { state with calls := Function.update state.calls id call }

def withStore (state : ConcurrentRecorder) (store : ArchiveStore) : ConcurrentRecorder :=
  { state with store }

def withFiles (state : ConcurrentRecorder) (files : FileSystem) : ConcurrentRecorder :=
  { state with files }

/-- The steps of the calls of `handle_line`, and `deactivate_stream`. The clock may show what
`reads` admits. -/
inductive Step (crates : Crates) (reads : NaiveDateTime → Prop) (before : ConcurrentRecorder) :
    ConcurrentRecorder → Prop where
  | enter (id : ℕ) (stream line : String) (now : NaiveDateTime) : before.calls id = none →
      reads now →
      Step crates reads before (before.withCall id (some (.entered stream line now)))
  | skip (id : ℕ) (stream line : String) (now : NaiveDateTime) :
      before.calls id = some (.entered stream line now) →
      (classifyLine crates line = .junk ∨ classifyLine crates line = .plain ∧
        before.Unlocked ∧ before.store.active stream = none) →
      Step crates reads before (before.withCall id none)
  | lockAppend (id : ℕ) (stream line : String) (now : NaiveDateTime)
      (active : ActiveArchiveFile) : before.calls id = some (.entered stream line now) →
      before.Unlocked → before.store.active stream = some active →
      (classifyLine crates line = .plain ∨
        classifyLine crates line = .header active.program) →
      Step crates reads before
        (before.withCall id (some (.appending active.path (lineBytes line))))
  | append (id : ℕ) (path : String) (chunk rest : List UInt8) :
      before.calls id = some (.appending path (chunk ++ rest)) →
      Step crates reads before
        ((before.withFiles (before.files.append path chunk)).withCall id
          (some (.appending path rest)))
  | mark (id : ℕ) (path : String) : before.calls id = some (.appending path []) →
      Step crates reads before
        ((before.withStore (before.store.markDirty path)).withCall id none)
  | lockOpen (id : ℕ) (stream line : String) (now : NaiveDateTime) (program : Program) :
      before.calls id = some (.entered stream line now) → before.Unlocked →
      lineProgram crates line = some (some program) →
      (∀ active, before.store.active stream = some active → active.program ≠ program.key) →
      Step crates reads before (before.withCall id (some (.opening stream line now program)))
  | create (id : ℕ) (stream line : String) (now : NaiveDateTime) (program : Program)
      (suffix : ℕ) (active : ActiveArchiveFile) :
      before.calls id = some (.opening stream line now program) →
      active = ⟨program.key, archivePath crates before.store.dataDir stream program now suffix⟩ →
      before.files active.path = none →
      Step crates reads before
        ((before.withFiles (before.files.create active.path)).withCall id
          (some (.writing stream now active (lineBytes line))))
  | write (id : ℕ) (stream : String) (now : NaiveDateTime) (active : ActiveArchiveFile)
      (chunk rest : List UInt8) :
      before.calls id = some (.writing stream now active (chunk ++ rest)) →
      Step crates reads before
        ((before.withFiles (before.files.append active.path chunk)).withCall id
          (some (.writing stream now active rest)))
  | register (id : ℕ) (stream : String) (now : NaiveDateTime) (active : ActiveArchiveFile) :
      before.calls id = some (.writing stream now active []) → before.Unlocked →
      Step crates reads before
        ((before.withStore (before.store.replaceActive stream active)).withCall id none)
  | deactivate (stream : String) : before.Unlocked →
      Step crates reads before (before.withStore (before.store.deactivateStream stream))

/-- A call returns an error wherever it stands. What it has written to its file stays there, and
nothing is marked or registered. -/
inductive Fails (before : ConcurrentRecorder) (id : ℕ) : ConcurrentRecorder → Prop where
  | fail (call : HandleLine) : before.calls id = some call →
      Fails before id (before.withCall id none)

variable {crates : Crates} {reads : NaiveDateTime → Prop} {before after : ConcurrentRecorder}

section Fields

variable (state : ConcurrentRecorder) (id : ℕ) (call : Option HandleLine)

@[simp] theorem store_withCall : (state.withCall id call).store = state.store := rfl

@[simp] theorem files_withCall : (state.withCall id call).files = state.files := rfl

@[simp] theorem store_withStore (store : ArchiveStore) : (state.withStore store).store = store :=
  rfl

@[simp] theorem files_withStore (store : ArchiveStore) :
    (state.withStore store).files = state.files := rfl

@[simp] theorem calls_withStore (store : ArchiveStore) :
    (state.withStore store).calls = state.calls := rfl

@[simp] theorem store_withFiles (files : FileSystem) :
    (state.withFiles files).store = state.store := rfl

@[simp] theorem files_withFiles (files : FileSystem) : (state.withFiles files).files = files :=
  rfl

@[simp] theorem calls_withFiles (files : FileSystem) :
    (state.withFiles files).calls = state.calls := rfl

@[simp] theorem calls_withCall_self : (state.withCall id call).calls id = call :=
  Function.update_self ..

theorem calls_withCall_of_ne {other : ℕ} (different : other ≠ id) :
    (state.withCall id call).calls other = state.calls other :=
  Function.update_of_ne different _ _

end Fields

theorem Idle.unlocked {state : ConcurrentRecorder} (idle : state.Idle) : state.Unlocked := by
  intro id path rest found
  rw [idle id] at found
  cases found

/-- A call that goes on without the lock. -/
theorem Unlocked.withCall {state : ConcurrentRecorder} (unlocked : state.Unlocked) {id : ℕ}
    {call : Option HandleLine} (free : ∀ path rest, call ≠ some (.appending path rest)) :
    (state.withCall id call).Unlocked := by
  intro other path rest found
  by_cases same : other = id
  · rw [same, calls_withCall_self] at found
    exact free path rest found
  · rw [calls_withCall_of_ne _ _ _ same] at found
    exact unlocked other path rest found

/-- A call is writing to a path. -/
def BeingWritten (state : ConcurrentRecorder) (path : String) : Prop :=
  ∃ id call, state.calls id = some call ∧ call.writes = some path

theorem beingWritten_withCall (state : ConcurrentRecorder) (id : ℕ) (call : Option HandleLine)
    (path : String) : (state.withCall id call).BeingWritten path ↔
      (call >>= HandleLine.writes) = some path ∨
        ∃ other ≠ id, ∃ running, state.calls other = some running ∧
          running.writes = some path := by
  constructor
  · rintro ⟨other, running, found, writes⟩
    by_cases same : other = id
    · subst same
      rw [calls_withCall_self] at found
      exact .inl (by simp [found, writes])
    · rw [calls_withCall_of_ne _ _ _ same] at found
      exact .inr ⟨other, same, running, found, writes⟩
  · rintro (own | ⟨other, different, running, found, writes⟩)
    · obtain ⟨running, found, writes⟩ := Option.bind_eq_some_iff.mp own
      exact ⟨id, running, by rw [calls_withCall_self, found], writes⟩
    · exact ⟨other, running, by rwa [calls_withCall_of_ne _ _ _ different], writes⟩

/-- A call that starts or stops writing to other paths only. -/
theorem beingWritten_withCall_iff {state : ConcurrentRecorder} {id : ℕ}
    {call : Option HandleLine} {path : String}
    (same : (call >>= HandleLine.writes) = some path ↔
      (state.calls id >>= HandleLine.writes) = some path) :
    (state.withCall id call).BeingWritten path ↔ state.BeingWritten path := by
  have unchanged : state.withCall id (state.calls id) = state := by
    unfold withCall
    rw [Function.update_eq_self]
  have before := beingWritten_withCall state id (state.calls id) path
  rw [unchanged] at before
  rw [beingWritten_withCall, before, same]

/-- A path goes on being written when another call changes. -/
theorem BeingWritten.withCall {state : ConcurrentRecorder} {id : ℕ} {path : String}
    (busy : state.BeingWritten path) (call : Option HandleLine)
    (elsewhere : (state.calls id >>= HandleLine.writes) ≠ some path) :
    (state.withCall id call).BeingWritten path := by
  obtain ⟨other, running, found, writes⟩ := busy
  have different : other ≠ id := by
    rintro rfl
    rw [found] at elsewhere
    exact elsewhere writes
  exact ⟨other, running, by rwa [calls_withCall_of_ne _ _ _ different], writes⟩

/-- A call that fails leaves the files and the store as they are. -/
theorem Fails.unchanged {id : ℕ} (fails : Fails before id after) :
    after.files = before.files ∧ after.store = before.store := by
  cases fails with
  | fail call _ => exact ⟨rfl, rfl⟩

/-- Only the path of a call that fails is no longer being written. -/
theorem Fails.beingWritten {id : ℕ} (fails : Fails before id after) {path : String}
    (busy : before.BeingWritten path) :
    after.BeingWritten path ∨ ∃ call, before.calls id = some call ∧ call.writes = some path := by
  cases fails with
  | fail call _ =>
      by_cases own : (before.calls id >>= HandleLine.writes) = some path
      · exact .inr (Option.bind_eq_some_iff.mp own)
      · exact .inl (busy.withCall none own)

/-- What one step does to a path: it marks the path dirty and leaves its file alone, or it leaves
the mark alone, and the file too unless a call is writing to it. -/
inductive Effect (before after : ConcurrentRecorder) (path : String) : Prop where
  | marked : after.store.generation path = some ((before.store.generation path).getD 0 + 1) →
      after.files path = before.files path → Effect before after path
  | written : after.store.generation path = before.store.generation path →
      after.BeingWritten path → Effect before after path
  | untouched : after.store.generation path = before.store.generation path →
      after.files path = before.files path →
      (after.BeingWritten path ↔ before.BeingWritten path) → Effect before after path

theorem Step.effect (stepped : Step crates reads before after) (path : String) :
    Effect before after path := by
  cases stepped with
  | enter id stream line now free _ =>
      refine .untouched rfl rfl (beingWritten_withCall_iff ?_)
      simp [free, HandleLine.writes]
  | skip id stream line now entered _ =>
      refine .untouched rfl rfl (beingWritten_withCall_iff ?_)
      simp [entered, HandleLine.writes]
  | lockAppend id stream line now active entered _ _ _ =>
      by_cases own : active.path = path
      · refine .written rfl ((beingWritten_withCall ..).mpr (.inl ?_))
        simp [HandleLine.writes, own]
      · refine .untouched rfl rfl (beingWritten_withCall_iff ?_)
        simp [entered, HandleLine.writes, own]
  | append id written chunk rest appending =>
      by_cases own : written = path
      · refine .written rfl ((beingWritten_withCall ..).mpr (.inl ?_))
        simp [HandleLine.writes, own]
      · refine .untouched rfl (FileSystem.append_other _ (Ne.symm own) _)
          (beingWritten_withCall_iff ?_)
        simp [appending, HandleLine.writes]
  | mark id written appending =>
      have marked := before.store.generation_markDirty written path
      by_cases own : written = path
      · rw [if_pos own.symm, own] at marked
        exact .marked (own ▸ marked) rfl
      · rw [if_neg (Ne.symm own)] at marked
        refine .untouched marked rfl (beingWritten_withCall_iff ?_)
        simp [appending, HandleLine.writes, own]
  | lockOpen id stream line now program entered _ _ _ =>
      refine .untouched rfl rfl (beingWritten_withCall_iff ?_)
      simp [entered, HandleLine.writes]
  | create id stream line now program suffix active opening _ _ =>
      by_cases own : active.path = path
      · refine .written rfl ((beingWritten_withCall ..).mpr (.inl ?_))
        simp [HandleLine.writes, own]
      · refine .untouched rfl (FileSystem.create_other _ (Ne.symm own))
          (beingWritten_withCall_iff ?_)
        simp [opening, HandleLine.writes, own]
  | write id stream now active chunk rest writing =>
      by_cases own : active.path = path
      · refine .written rfl ((beingWritten_withCall ..).mpr (.inl ?_))
        simp [HandleLine.writes, own]
      · refine .untouched rfl (FileSystem.append_other _ (Ne.symm own) _)
          (beingWritten_withCall_iff ?_)
        simp [writing, HandleLine.writes]
  | register id stream now active writing _ =>
      have marked := before.store.generation_markDirty active.path path
      by_cases own : active.path = path
      · rw [if_pos own.symm, own] at marked
        exact .marked (own ▸ marked) rfl
      · rw [if_neg (Ne.symm own)] at marked
        refine .untouched marked rfl (beingWritten_withCall_iff ?_)
        simp [writing, HandleLine.writes, own]
  | deactivate stream _ => exact .untouched rfl rfl Iff.rfl

theorem Step.dataDir (stepped : Step crates reads before after) :
    after.store.dataDir = before.store.dataDir := by
  cases stepped <;> rfl

/-- A file becomes active when the call that has written it registers it. -/
theorem Step.activePaths (stepped : Step crates reads before after) {path : String}
    (member : path ∈ after.store.activePaths) : path ∈ before.store.activePaths ∨
      ∃ id stream now active, before.calls id = some (.writing stream now active []) ∧
        active.path = path := by
  cases stepped with
  | enter _ _ _ _ _ _ | skip _ _ _ _ _ _ | lockAppend _ _ _ _ _ _ _ _ _ | append _ _ _ _ _
  | mark _ _ _ | lockOpen _ _ _ _ _ _ _ _ _ | create _ _ _ _ _ _ _ _ _ _
  | write _ _ _ _ _ _ _ => exact .inl member
  | register id stream now active writing _ =>
      rcases ArchiveStore.mem_activePaths_replaceActive _ _ _ member with own | old
      · exact .inr ⟨id, stream, now, active, writing, own.symm⟩
      · exact .inl old
  | deactivate stream _ =>
      exact .inl (ArchiveStore.mem_activePaths_deactivateStream _ _ _ member)

/-- The calls after a step: those that it leaves alone, and the one that takes it. -/
theorem calls_withCall {state : ConcurrentRecorder} {id : ℕ} {call : Option HandleLine}
    {other : ℕ} {running : HandleLine}
    (found : (state.withCall id call).calls other = some running) :
    state.calls other = some running ∨ other = id ∧ call = some running := by
  by_cases same : other = id
  · subst same
    rw [calls_withCall_self] at found
    exact .inr ⟨rfl, found⟩
  · rw [calls_withCall_of_ne _ _ _ same] at found
    exact .inl found

/-- A call that holds a new file has held it before, or has just created it where nothing
existed. -/
theorem Step.writing (stepped : Step crates reads before after) {id : ℕ} {stream : String}
    {now : NaiveDateTime} {active : ActiveArchiveFile} {rest : List UInt8}
    (found : after.calls id = some (.writing stream now active rest)) :
    (∃ rest, before.calls id = some (.writing stream now active rest)) ∨
      before.files active.path = none ∧ ∃ dataDir program suffix,
        active.path = archivePath crates dataDir stream program now suffix := by
  cases stepped with
  | enter _ _ _ _ _ _ | skip _ _ _ _ _ _ | lockAppend _ _ _ _ _ _ _ _ _ | append _ _ _ _ _
  | mark _ _ _ | lockOpen _ _ _ _ _ _ _ _ _ | register _ _ _ _ _ _ =>
      rcases calls_withCall found with old | ⟨_, new⟩
      · exact .inl ⟨rest, old⟩
      · cases new
  | create _ _ _ _ program suffix _ _ named free =>
      rcases calls_withCall found with old | ⟨_, new⟩
      · exact .inl ⟨rest, old⟩
      · cases new
        exact .inr ⟨free, _, program, suffix, by rw [named]⟩
  | write _ _ _ _ chunk _ writing =>
      rcases calls_withCall found with old | ⟨rfl, new⟩
      · exact .inl ⟨rest, old⟩
      · cases new
        exact .inl ⟨chunk ++ rest, writing⟩
  | deactivate _ _ => exact .inl ⟨rest, found⟩

section Alone

variable {recorder result : Recorder} {stream line : String} {now : NaiveDateTime}
  {event : Option ArchiveEvent}

/-- A single call, and where it stands. -/
def alone (recorder : Recorder) (call : Option HandleLine) : ConcurrentRecorder :=
  (idle recorder).withCall 0 call

theorem alone_none : alone recorder none = idle recorder := by
  unfold alone withCall idle
  rw [Function.update_eq_self_iff.mpr rfl]

theorem withCall_alone (call next : Option HandleLine) :
    (alone recorder call).withCall 0 next = alone recorder next := by
  unfold alone withCall
  rw [Function.update_idem]

theorem calls_alone (call : Option HandleLine) : (alone recorder call).calls 0 = call :=
  calls_withCall_self _ _ _

theorem withStore_alone (call : Option HandleLine) (store : ArchiveStore) :
    (alone recorder call).withStore store = alone ⟨store, recorder.files⟩ call := rfl

theorem withFiles_alone (call : Option HandleLine) (files : FileSystem) :
    (alone recorder call).withFiles files = alone ⟨recorder.store, files⟩ call := rfl

theorem unlocked_alone {call : Option HandleLine}
    (free : ∀ path rest, call ≠ some (.appending path rest)) : (alone recorder call).Unlocked :=
  Unlocked.withCall (Idle.unlocked fun _ => rfl) free

/-- The steps of a call that runs alone. -/
theorem runs_handled (handled : recorder.Handled crates stream line now event result)
    (shown : reads now) :
    Relation.ReflTransGen (Step crates reads) (idle recorder) (idle result) := by
  let entered : HandleLine := .entered stream line now
  have enter : Step crates reads (idle recorder) (alone recorder (some entered)) :=
    .enter 0 stream line now rfl shown
  have unlocked : (alone recorder (some entered)).Unlocked := unlocked_alone (by simp [entered])
  refine .head enter ?_
  rw [← alone_none]
  cases handled with
  | invalid junk =>
      have skip : Step crates reads (alone recorder (some entered))
          ((alone recorder (some entered)).withCall 0 none) :=
        .skip 0 stream line now (calls_alone _) (.inl junk)
      rw [withCall_alone] at skip
      exact .single skip
  | noProgram plain inactive =>
      have skip : Step crates reads (alone recorder (some entered))
          ((alone recorder (some entered)).withCall 0 none) :=
        .skip 0 stream line now (calls_alone _) (.inr ⟨plain, unlocked, inactive⟩)
      rw [withCall_alone] at skip
      exact .single skip
  | append active found continues =>
      let appending (rest : List UInt8) : HandleLine := .appending active.path rest
      let files := recorder.files.append active.path (lineBytes line)
      have lock : Step crates reads (alone recorder (some entered))
          ((alone recorder (some entered)).withCall 0 (some (appending (lineBytes line)))) :=
        .lockAppend 0 stream line now active (calls_alone _) unlocked found continues
      have append : Step crates reads (alone recorder (some (appending (lineBytes line))))
          (((alone recorder (some (appending (lineBytes line)))).withFiles files).withCall 0
            (some (appending []))) :=
        .append 0 active.path (lineBytes line) [] (by rw [List.append_nil, calls_alone])
      have mark : Step crates reads (alone ⟨recorder.store, files⟩ (some (appending [])))
          (((alone ⟨recorder.store, files⟩ (some (appending []))).withStore
            (recorder.store.markDirty active.path)).withCall 0 none) :=
        .mark 0 active.path (calls_alone _)
      rw [withCall_alone] at lock
      rw [withFiles_alone, withCall_alone] at append
      rw [withStore_alone, withCall_alone] at mark
      exact .head lock (.head append (.single mark))
  | start program suffix active header other named fresh =>
      let opening : HandleLine := .opening stream line now program
      let writing (rest : List UInt8) : HandleLine := .writing stream now active rest
      let created := recorder.files.create active.path
      let written := created.append active.path (lineBytes line)
      have lock : Step crates reads (alone recorder (some entered))
          ((alone recorder (some entered)).withCall 0 (some opening)) :=
        .lockOpen 0 stream line now program (calls_alone _) unlocked header other
      have create : Step crates reads (alone recorder (some opening))
          (((alone recorder (some opening)).withFiles created).withCall 0
            (some (writing (lineBytes line)))) :=
        .create 0 stream line now program suffix active (calls_alone _) named fresh
      have write : Step crates reads
          (alone ⟨recorder.store, created⟩ (some (writing (lineBytes line))))
          (((alone ⟨recorder.store, created⟩ (some (writing (lineBytes line)))).withFiles
            written).withCall 0 (some (writing []))) :=
        .write 0 stream now active (lineBytes line) [] (by rw [List.append_nil, calls_alone])
      have register : Step crates reads (alone ⟨recorder.store, written⟩ (some (writing [])))
          (((alone ⟨recorder.store, written⟩ (some (writing []))).withStore
            (recorder.store.replaceActive stream active)).withCall 0 none) :=
        .register 0 stream now active (calls_alone _) (unlocked_alone (by simp [writing]))
      rw [withCall_alone] at lock
      rw [withFiles_alone, withCall_alone] at create write
      rw [withStore_alone, withCall_alone] at register
      exact .head lock (.head create (.head write (.single register)))

/-- A call that runs alone does what the sequential recorder does. -/
theorem runs_handleLineAt {io : IoOutcome}
    (ran : recorder.handleLineAt crates io stream line now = (.ok event, result))
    (shown : reads now) :
    Relation.ReflTransGen (Step crates reads) (idle recorder) (idle result) :=
  runs_handled (Recorder.handleLineAt_cases ran) shown

end Alone

end ConcurrentRecorder

end AribcapDb
