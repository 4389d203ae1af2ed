import AribcapDb.Archive.Concurrent
import AribcapDb.Foundation.Transition

/-! # Garbage collection

One pass of `collect_garbage` beside the recorder. The pass spares the files that are active when
it looks, and the files whose names are not older than its cutoff. A file that a call has created
and not yet registered is spared by its name only, which is cut to whole seconds: such a file is
safe as long as that second does not begin before the cutoff (`garbage_collection_spares_recorded`),
and can be unlinked otherwise (`unregistered_file_is_unlinked`). -/

namespace AribcapDb

/-- The instant a number of nanoseconds earlier. -/
def Instant.minus (time : Instant) (nanoseconds : ℕ) : Instant :=
  let total := (ofLex time).1 * 10 ^ 9 + (ofLex time).2 - nanoseconds
  toLex (total / 10 ^ 9, (total % 10 ^ 9).toNat)

/-- `retention_cutoff`. The retention is in nanoseconds. -/
def retentionCutoff (chrono : Chrono) (now : Instant) (retention : ℕ) : Except String Instant :=
  if chrono.maxTimeDelta < retention then .error "retention is too large"
  else if now.minus retention < chrono.minUtc then
    .error "retention exceeds the supported date range"
  else .ok (now.minus retention)

/-- `validate_retention`, which reads the clock when the server starts. -/
def validateRetention (chrono : Chrono) (now : Instant) (retention : ℕ) : Except String Unit :=
  (retentionCutoff chrono now retention).map fun _ => ()

/-- `jst().from_local_datetime(..).single()` where the result may lie outside the supported
range. -/
def fromLocalDatetime (chrono : Chrono) (time : NaiveDateTime) : Option Instant :=
  if time.instant < chrono.minUtc then none else some time.instant

/-- `is_expired`. -/
def isExpired (chrono : Chrono) (path : String) (cutoff : Instant) : Bool :=
  match fileName path with
  | none => false
  | some filename =>
      match parseRecordingStartedAt chrono filename with
      | none => false
      | some recordingStartedAt =>
          match chrono.parseStartedAt recordingStartedAt with
          | none => false
          | some startedAt => (fromLocalDatetime chrono startedAt).any fun time => time < cutoff

/-- A recorded file expires by the second its name shows. -/
theorem isExpired_archivePath {crates : Crates} {dataDir stream : String} {program : Program}
    {now : NaiveDateTime} {suffix : ℕ} {cutoff : Instant}
    (expired : isExpired crates.chrono (archivePath crates dataDir stream program now suffix)
      cutoff = true) : now.HasFourDigitYear ∧ now.truncated.instant < cutoff := by
  unfold isExpired at expired
  rw [fileName_archivePath] at expired
  simp only at expired
  by_cases years : now.HasFourDigitYear
  · rw [parseRecordingStartedAt_archiveFilename crates program years] at expired
    simp only [crates.chrono.parseStartedAt_format now years, fromLocalDatetime] at expired
    split at expired
    · cases expired
    · exact ⟨years, by simpa using expired⟩
  · rw [parseRecordingStartedAt_archiveFilename_of_not crates program years] at expired
    cases expired

/-- Where a pass of `collect_garbage` stands. -/
inductive GarbagePass where
  | notStarted
  | cutoff (cutoff : Instant)
  /-- The store has been looked at, and the tree is being walked. -/
  | walking (cutoff : Instant) (activePaths : List String)
  | finished

/-- The recorder, the wall clock and one pass. -/
structure GarbageCollection extends ConcurrentRecorder where
  clock : Instant
  pass : GarbagePass

namespace GarbageCollection

/-- What `jst_now` returns; the system clock has no leap seconds. -/
def Reads (clock : Instant) (now : NaiveDateTime) : Prop :=
  now.instant = clock ∧ now.nanosecond < 10 ^ 9

/-- The pass is about to unlink a file. -/
def Unlinks (crates : Crates) (state : GarbageCollection) (path : String) : Prop :=
  ∃ cutoff activePaths, state.pass = .walking cutoff activePaths ∧
    (streamMonthFilename (archiveRoot state.store.dataDir) path).isSome ∧
      (∃ content, state.files path = some (.file content)) ∧
        isExpired crates.chrono path cutoff = true ∧ path ∉ activePaths

/-- A file is active, or held by a call that has created it. -/
def IsRecorded (state : GarbageCollection) (path : String) : Prop :=
  path ∈ state.store.activePaths ∨ ∃ id stream now active rest,
    state.calls id = some (.writing stream now active rest) ∧ active.path = path

/-- The clock does not run backwards, and any file operation of a call may fail. -/
inductive Step (crates : Crates) (retention : ℕ) (before : GarbageCollection) :
    GarbageCollection → Prop where
  | tick (later : Instant) : before.clock ≤ later →
      Step crates retention before { before with clock := later }
  | record (recorder : ConcurrentRecorder) :
      ConcurrentRecorder.Step crates (Reads before.clock) before.toConcurrentRecorder recorder →
      Step crates retention before { before with toConcurrentRecorder := recorder }
  | fail (id : ℕ) :
      Step crates retention before
        { before with toConcurrentRecorder := before.toConcurrentRecorder.withCall id none }
  | compute (cutoff : Instant) : before.pass = .notStarted →
      retentionCutoff crates.chrono before.clock retention = .ok cutoff →
      Step crates retention before { before with pass := .cutoff cutoff }
  | snapshot (cutoff : Instant) : before.pass = .cutoff cutoff → before.Unlocked →
      Step crates retention before
        { before with pass := .walking cutoff before.store.activePaths }
  | unlink (path : String) : before.Unlinks crates path →
      Step crates retention before { before with files := Function.update before.files path none }
  | finish (cutoff : Instant) (activePaths : List String) :
      before.pass = .walking cutoff activePaths →
      Step crates retention before { before with pass := .finished }

/-- Any files, any store and any time, without calls in progress. -/
def Start (state : GarbageCollection) : Prop := state.Idle ∧ state.pass = .notStarted

/-- While the tree is walked, the second in which a call has read the clock for the file it holds
does not begin before the cutoff. A name with another year than four digits never expires. -/
def HeldInTime (state : GarbageCollection) : Prop :=
  ∀ cutoff activePaths, state.pass = .walking cutoff activePaths →
    ∀ id stream now active rest, state.calls id = some (.writing stream now active rest) →
      now.HasFourDigitYear → cutoff ≤ now.truncated.instant

/-- What a pass that spares the recorded files relies on. -/
structure Spares (crates : Crates) (state : GarbageCollection) : Prop where
  inTime : state.HeldInTime
  named : ∀ id stream now active rest,
    state.calls id = some (.writing stream now active rest) → ∃ dataDir program suffix,
      active.path = archivePath crates dataDir stream program now suffix
  known : ∀ cutoff activePaths, state.pass = .walking cutoff activePaths →
    ∀ path ∈ state.store.activePaths, path ∈ activePaths ∨
      isExpired crates.chrono path cutoff = false

variable {crates : Crates} {retention : ℕ} {before after state : GarbageCollection}

namespace Spares

theorem start (started : state.Start) : Spares crates state := by
  obtain ⟨idle, notStarted⟩ := started
  refine ⟨?_, ?_, ?_⟩
  · intro cutoff activePaths walking
    rw [notStarted] at walking
    cases walking
  · intro id stream now active rest held
    rw [idle id] at held
    cases held
  · intro cutoff activePaths walking
    rw [notStarted] at walking
    cases walking

/-- A held file is not expired. -/
theorem held (spares : Spares crates state) {cutoff : Instant} {activePaths : List String}
    (walking : state.pass = .walking cutoff activePaths) {id : ℕ} {stream : String}
    {now : NaiveDateTime} {active : ActiveArchiveFile} {rest : List UInt8}
    (held : state.calls id = some (.writing stream now active rest)) :
    isExpired crates.chrono active.path cutoff = false := by
  obtain ⟨dataDir, program, suffix, named⟩ := spares.named id stream now active rest held
  rw [Bool.eq_false_iff]
  intro expired
  rw [named] at expired
  obtain ⟨years, early⟩ := isExpired_archivePath expired
  exact absurd early (not_lt_of_ge (spares.inTime cutoff activePaths walking _ _ _ _ _ held years))

theorem step (spares : Spares crates before) (stepped : Step crates retention before after)
    (inTime : after.HeldInTime) : Spares crates after := by
  refine ⟨inTime, ?_, ?_⟩
  · cases stepped with
    | tick _ _ | compute _ _ _ | snapshot _ _ _ | unlink _ _ | finish _ _ _ => exact spares.named
    | record recorder stepped =>
        intro id stream now active rest held
        rcases stepped.writing held with ⟨earlier, old⟩ | ⟨_, named⟩
        · exact spares.named id stream now active earlier old
        · exact named
    | fail failing =>
        intro id stream now active rest held
        rcases ConcurrentRecorder.calls_withCall held with old | ⟨_, new⟩
        · exact spares.named id stream now active rest old
        · cases new
  · cases stepped with
    | tick _ _ | unlink _ _ | fail _ => exact spares.known
    | record recorder stepped =>
        intro cutoff activePaths walking path member
        rcases stepped.activePaths member with old | ⟨id, stream, now, active, held, same⟩
        · exact spares.known cutoff activePaths walking path old
        · exact .inr (same ▸ spares.held walking held)
    | compute _ _ _ =>
        intro cutoff activePaths walking
        cases walking
    | snapshot _ _ _ =>
        intro cutoff activePaths walking path member
        cases walking
        exact .inl member
    | finish _ _ _ =>
        intro cutoff activePaths walking
        cases walking

theorem run (reachable : Transition.Reachable Start
    (Transition.Restricted (Step crates retention) fun _ after => after.HeldInTime) state) :
    Spares crates state :=
  reachable.invariant (fun _ started => start started) fun _ _ _ spares stepped =>
    spares.step stepped.1 stepped.2

end Spares

/-- In every run in which the unregistered files are held in time, the pass spares the files being
recorded. -/
theorem garbage_collection_spares_recorded
    (reachable : Transition.Reachable Start
      (Transition.Restricted (Step crates retention) fun _ after => after.HeldInTime) state)
    {path : String} (unlinks : state.Unlinks crates path) : ¬ state.IsRecorded path := by
  have spares := Spares.run reachable
  obtain ⟨cutoff, activePaths, walking, _, _, expired, missed⟩ := unlinks
  rintro (active | ⟨id, stream, now, active, rest, held, same⟩)
  · rcases spares.known cutoff activePaths walking path active with spared | recent
    · exact missed spared
    · rw [expired] at recent
      cases recent
  · have recent := spares.held walking held
    rw [same, expired] at recent
    cases recent

end GarbageCollection

namespace Sample

/-- Half a second past a second of `clock`. -/
def clockHalfPast (second : Fin 60) : NaiveDateTime :=
  { clock second with
    nanosecond := 5 * 10 ^ 8
    nanosecond_valid := .inl (by decide) }

/-- The file of a program that starts half a second past a second. -/
def heldFile (second : Fin 60) : ActiveArchiveFile :=
  ⟨news.key, archivePath crates "data" "nhk" news (clockHalfPast second) 0⟩

/-- The given files and nothing recorded. -/
def beforeCollection (files : FileSystem) : GarbageCollection :=
  ⟨.idle (.new "data" files), (clockHalfPast 1).instant, .notStarted⟩

/-- A call has read the clock. -/
def callEntered (files : FileSystem) : ConcurrentRecorder :=
  (beforeCollection files).withCall 0 (some (.entered "nhk" newsLine (clockHalfPast 1)))

/-- A call holds a new file. -/
def callHolds (files : FileSystem) : ConcurrentRecorder :=
  (((callEntered files).withCall 0
    (some (.opening "nhk" newsLine (clockHalfPast 1) news))).withFiles
      (files.create (heldFile 1).path)).withCall 0
        (some (.writing "nhk" (clockHalfPast 1) (heldFile 1) (lineBytes newsLine)))

theorem files_callHolds (files : FileSystem) :
    (callHolds files).files = files.create (heldFile 1).path := rfl

theorem calls_callHolds {files : FileSystem} {id : ℕ} {running : HandleLine}
    (found : (callHolds files).calls id = some running) : id = 0 ∧
      running = .writing "nhk" (clockHalfPast 1) (heldFile 1) (lineBytes newsLine) := by
  by_cases first : id = 0
  · subst first
    exact ⟨rfl, (Option.some.inj found).symm⟩
  · simp [callHolds, callEntered, ConcurrentRecorder.calls_withCall_of_ne _ _ _ first,
      beforeCollection, ConcurrentRecorder.idle] at found

/-- A file of the second before. -/
def oldFile : FileSystem := fun path =>
  if path = (heldFile 0).path then some (.file []) else none

/-- The tree is being walked while a call holds a new file. -/
def duringCollection (files : FileSystem) (cutoff : Instant) : GarbageCollection :=
  ⟨callHolds files, (clockHalfPast 1).instant, .walking cutoff []⟩

end Sample

namespace GarbageCollection

/-- A pass that starts while a call holds a new file, in runs of which the states meet a condition
on the walk. -/
theorem reachable_duringCollection {files : FileSystem} {cutoff : Instant}
    {condition : GarbageCollection → Prop}
    (free : files (Sample.heldFile 1).path = none)
    (computed : retentionCutoff Sample.crates.chrono (Sample.clockHalfPast 1).instant retention =
      .ok cutoff)
    (early : ∀ state, (∀ cutoff activePaths, state.pass ≠ .walking cutoff activePaths) →
      condition state)
    (walking : condition (Sample.duringCollection files cutoff)) :
    Transition.Reachable Start (Transition.Restricted (Step Sample.crates retention)
      fun _ after => condition after) (Sample.duringCollection files cutoff) := by
  have idle : (Sample.beforeCollection files).Idle := fun _ => rfl
  have unlocked : (Sample.callEntered files).Unlocked := by
    apply idle.unlocked.withCall
    rintro _ _ ⟨⟩
  have held : (Sample.callHolds files).Unlocked := by
    apply ConcurrentRecorder.Unlocked.withCall
    · apply unlocked.withCall
      rintro _ _ ⟨⟩
    · rintro _ _ ⟨⟩
  have eit : lineProgram Sample.crates Sample.newsLine = some (some Sample.news) := by
    decide +kernel
  have start : Transition.Reachable Start (Transition.Restricted (Step Sample.crates retention)
      fun _ after => condition after) (Sample.beforeCollection files) := .initial ⟨idle, rfl⟩
  have entered := start.next ⟨.record (Sample.callEntered files) (.enter 0 "nhk" Sample.newsLine
    (Sample.clockHalfPast 1) rfl ⟨rfl, by decide⟩), early _ (by rintro _ _ ⟨⟩)⟩
  have opening := entered.next ⟨.record _ (.lockOpen 0 "nhk" Sample.newsLine
    (Sample.clockHalfPast 1) Sample.news rfl unlocked eit (by rintro _ ⟨⟩)),
    early _ (by rintro _ _ ⟨⟩)⟩
  have created := opening.next ⟨.record (Sample.callHolds files) (.create 0 "nhk" Sample.newsLine
    (Sample.clockHalfPast 1) Sample.news 0 (Sample.heldFile 1) rfl rfl free),
    early _ (by rintro _ _ ⟨⟩)⟩
  have limit := created.next ⟨.compute cutoff rfl computed, early _ (by rintro _ _ ⟨⟩)⟩
  exact limit.next ⟨.snapshot cutoff rfl held, walking⟩

/-- With a retention of a second, the file of the second before goes while a call holds a new
one. -/
theorem garbage_collection_spares_recorded_sample : ∃ state : GarbageCollection,
    state.Unlinks Sample.crates (Sample.heldFile 0).path ∧
      state.IsRecorded (Sample.heldFile 1).path ∧
        ¬ state.IsRecorded (Sample.heldFile 0).path := by
  let cutoff := (Sample.clockHalfPast 1).instant.minus (10 ^ 9)
  have computed : retentionCutoff Sample.crates.chrono (Sample.clockHalfPast 1).instant (10 ^ 9) =
      .ok cutoff := by decide +kernel
  have free : Sample.oldFile (Sample.heldFile 1).path = none := if_neg (by decide +kernel)
  have inTime : (Sample.duringCollection Sample.oldFile cutoff).HeldInTime := by
    intro limit activePaths walking id stream now active rest held _
    cases walking
    cases (Sample.calls_callHolds held).2
    decide +kernel
  have reachable := reachable_duringCollection free computed (fun state other limit activePaths
    walking => absurd walking (other limit activePaths)) inTime
  have named : (streamMonthFilename (archiveRoot "data") (Sample.heldFile 0).path).isSome := by
    decide +kernel
  have present : (Sample.callHolds Sample.oldFile).files (Sample.heldFile 0).path =
      some (.file []) := by
    have different : (Sample.heldFile 0).path ≠ (Sample.heldFile 1).path := by decide +kernel
    rw [Sample.files_callHolds, FileSystem.create_other _ different]
    exact if_pos rfl
  have unlinks : (Sample.duringCollection Sample.oldFile cutoff).Unlinks Sample.crates
      (Sample.heldFile 0).path :=
    ⟨_, _, rfl, named, ⟨[], present⟩, by decide +kernel, List.not_mem_nil⟩
  exact ⟨_, unlinks, .inr ⟨0, _, _, Sample.heldFile 1, _, rfl, rfl⟩,
    garbage_collection_spares_recorded reachable unlinks⟩

/-- Without retention, a file that a call has created in the current second is unlinked before
the call has registered it. -/
theorem unregistered_file_is_unlinked : ¬ ∀ now retention,
    validateRetention Sample.crates.chrono now retention = .ok () →
      ∀ state : GarbageCollection,
        Transition.Reachable Start (Step Sample.crates retention) state →
          ∀ path, state.Unlinks Sample.crates path → ¬ state.IsRecorded path := by
  intro claim
  let cutoff := (Sample.clockHalfPast 1).instant.minus 0
  have computed : retentionCutoff Sample.crates.chrono (Sample.clockHalfPast 1).instant 0 =
      .ok cutoff := by decide +kernel
  have reachable : Transition.Reachable Start (Transition.Restricted (Step Sample.crates 0)
      fun _ _ => True) (Sample.duringCollection (fun _ => none) cutoff) :=
    reachable_duringCollection rfl computed (fun _ _ => trivial) trivial
  have named : (streamMonthFilename (archiveRoot "data") (Sample.heldFile 1).path).isSome := by
    decide +kernel
  have present : (Sample.callHolds fun _ => none).files (Sample.heldFile 1).path =
      some (.file []) := by
    rw [Sample.files_callHolds]
    exact Function.update_self ..
  have valid : validateRetention Sample.crates.chrono (Sample.clockHalfPast 1).instant 0 =
      .ok () := by
    rw [validateRetention, computed]
    rfl
  exact claim _ 0 valid _ reachable.unrestricted (Sample.heldFile 1).path
    ⟨_, _, rfl, named, ⟨[], present⟩, by decide +kernel, List.not_mem_nil⟩
    (.inr ⟨0, _, _, Sample.heldFile 1, _, rfl, rfl⟩)

end GarbageCollection

end AribcapDb
