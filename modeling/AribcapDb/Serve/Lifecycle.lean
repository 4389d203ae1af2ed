import AribcapDb.Maintenance.Loop

/-! # The life of `serve`

`run` supervises three tasks: ingest, the HTTP listeners and archive maintenance. It restarts the
last two in place, and on a shutdown it waits for ingest before it tells maintenance to stop.
The last pass of maintenance then finds a recorder at rest, and nothing of what was recorded is
left unindexed when `run` returns (`clean_shutdown_indexes_every_line`). -/

namespace AribcapDb

/-- Where `run` stands. -/
inductive ServeStage where
  /-- Ingest has been started, and the dry run of the garbage collection goes on. -/
  | dryRun
  /-- The loop over the tasks. -/
  | supervising
  /-- `shutdown_tx` has been sent, and ingest and the listeners are joined. -/
  | stopping
  /-- `maintenance_shutdown_tx` has been sent, and maintenance is joined. -/
  | finishing
  | returned
  deriving DecidableEq, Repr

/-- The ingest task. -/
inductive IngestTask where
  | running
  | ended
  /-- The task is over, but its streams have outlived it: they were not aborted in time, or the
  task has panicked. -/
  | detached
  deriving DecidableEq, Repr

/-- The task of `run_http_listeners`. -/
inductive HttpTask where
  | absent
  | running
  | exited
  deriving DecidableEq, Repr

/-- The task of `run_archive_maintenance`. -/
inductive MaintenanceTask where
  | absent
  | running
  /-- It has seen the shutdown and makes its final attempt. -/
  | lastPass
  | done
  | failed
  deriving DecidableEq, Repr

/-- The tasks of `run`, with what the recorder and the maintenance loop have made. -/
structure ServeRun extends Maintenance where
  stage : ServeStage
  ingest : IngestTask
  http : HttpTask
  maintenance : MaintenanceTask
  /-- A file that a garbage collection was unlinking when it was given up. -/
  unlinking : Option String

namespace Maintenance

/-- A step of the recorder, whose calls may fail. -/
inductive Records (crates : Crates) (failures : Failures) (before : Maintenance) :
    Maintenance → Prop where
  | record (recorder : ConcurrentRecorder) :
      ConcurrentRecorder.Step crates (fun _ => True) before.toConcurrentRecorder recorder →
      Records crates failures before (before.withIndexer (before.recording recorder))
  | fail (id : ℕ) (recorder : ConcurrentRecorder) :
      before.toConcurrentRecorder.Fails id recorder → failures.call before id →
      Records crates failures before
        (before.withIndexer { before.toIndexer with toConcurrentRecorder := recorder })
  | lose (recorder : ConcurrentRecorder) (path : String) :
      ConcurrentRecorder.Step crates (fun _ => True) before.toConcurrentRecorder recorder →
      path ∈ before.unlinked → before.files path ≠ none →
      recorder.files path ≠ before.files path →
      Records crates failures before
        (before.withIndexer (before.recording (recorder.withFiles before.files)))

/-- A step of the loop, which leaves the calls and the active files of the recorder alone. -/
structure Loops (crates : Crates) (failures : Failures) (before after : Maintenance) : Prop where
  step : Step crates failures before after
  calls : after.calls = before.calls
  active : after.store.active = before.store.active

/-- What a task keeps for itself is gone with it, and a transaction that it has not committed is
rolled back. -/
def respawned (state : Maintenance) : Maintenance :=
  { state with
    pass := .idle
    marks := fun _ => 0
    phase := .opening
    connected := false
    cleanupPending := true }

/-- The loop is left. -/
def lastIteration (state : Maintenance) : Maintenance :=
  state.withPhase (if state.connected then .applying else .opening)

/-- A file is unlinked. -/
def unlink (state : Maintenance) (path : String) : Maintenance :=
  { state with
    files := Function.update state.files path none
    unlinked := insert path state.unlinked }

end Maintenance

namespace ServeRun

def withMaintenance (state : ServeRun) (after : Maintenance) : ServeRun :=
  { state with toMaintenance := after }

/-- The steps of `run`, its tasks and the streams of ingest. A task may panic at any time. -/
inductive Step (crates : Crates) (failures : Failures) (before : ServeRun) : ServeRun → Prop where
  | record (after : Maintenance) : before.ingest ≠ .ended →
      Maintenance.Records crates failures before.toMaintenance after →
      Step crates failures before (before.withMaintenance after)
  | iterate (after : Maintenance) : before.maintenance = .running →
      Maintenance.Loops crates failures before.toMaintenance after →
      Step crates failures before (before.withMaintenance after)
  /-- The task has seen the shutdown while it slept, or gives up a garbage collection. -/
  | leaveLoop (unlinking : Option String) : before.maintenance = .running →
      before.stage = .finishing →
      before.phase = .sleeping ∨ before.phase = .collecting →
      (unlinking ≠ none → before.phase = .collecting) →
      Step crates failures before
        { before.withMaintenance before.lastIteration with
          maintenance := .lastPass
          unlinking }
  | lastChanges (after : Maintenance) : before.maintenance = .lastPass →
      before.phase ≠ .searched → Maintenance.Loops crates failures before.toMaintenance after →
      Step crates failures before (before.withMaintenance after)
  /-- The removal of a file is not given up with the collection. -/
  | unlinked (path : String) (content : List UInt8) : before.unlinking = some path →
      before.files path = some (.file content) →
      Step crates failures before
        { before.withMaintenance (before.unlink path) with unlinking := none }
  | maintenanceEnds : before.maintenance = .lastPass → before.phase = .searched →
      Step crates failures before { before with maintenance := .done }
  | maintenanceFails :
      before.maintenance = .running ∨ before.maintenance = .lastPass →
      Step crates failures before
        { before.withMaintenance before.respawned with maintenance := .failed }
  | ingestExits (task : IngestTask) : before.ingest = .running → task ≠ .running →
      (task = .ended → before.Idle) →
      Step crates failures before { before with ingest := task }
  | httpExits : before.http = .running →
      Step crates failures before { before with http := .exited }
  /-- The dry run has finished, and the other tasks are spawned. -/
  | spawn : before.stage = .dryRun →
      Step crates failures before
        { before with stage := .supervising, http := .running, maintenance := .running }
  | restartHttp : before.stage = .supervising → before.http = .exited →
      Step crates failures before { before with http := .running }
  | restartMaintenance : before.stage = .supervising → before.maintenance = .failed →
      Step crates failures before { before with maintenance := .running }
  /-- A signal, or the end of ingest while the loop runs. -/
  | shutdown : before.stage = .dryRun ∨ before.stage = .supervising →
      Step crates failures before { before with stage := .stopping }
  | joined : before.stage = .stopping → before.ingest ≠ .running → before.http ≠ .running →
      Step crates failures before
        { before with
          stage := if before.maintenance = .absent then .returned else .finishing }
  | maintenanceJoined : before.stage = .finishing → before.maintenance ≠ .running →
      before.maintenance ≠ .lastPass →
      Step crates failures before { before with stage := .returned }

/-- The process starts with any files and any index, and `run` has spawned ingest. -/
structure Start (crates : Crates) (state : ServeRun) : Prop where
  start : Maintenance.Start crates state.toMaintenance
  stage : state.stage = .dryRun
  ingest : state.ingest = .running
  http : state.http = .absent
  maintenance : state.maintenance = .absent
  unlinking : state.unlinking = none

/-- The last pass opens the database, and each of its transactions is committed. -/
structure LastPassSucceeds (before after : ServeRun) : Prop where
  opens : before.maintenance = .lastPass → before.phase = .opening → after.phase ≠ .searched
  ingests : before.maintenance = .lastPass → ∀ path generation visit todo rest,
    before.pass = .ingesting path generation visit todo → after.pass ≠ .between rest

/-- Reached by a run in which no path is marked `2 ^ 64` times within a pass, no failure loses
anything, and the last pass succeeds. -/
def Run (crates : Crates) : ServeRun → Prop :=
  Transition.Reachable (Start crates)
    (Transition.Restricted (Step crates (.harmless crates)) fun before after =>
      before.FewMarks ∧ LastPassSucceeds before after)

end ServeRun

section Unlinking

variable {crates : Crates} {root path other : String} {files : FileSystem}

/-- What is said of the files at a path holds, or there is no file any more. -/
theorem update_eq_file {content : List UInt8}
    (present : Function.update files path none other = some (.file content)) :
    files other = some (.file content) := by
  by_cases same : other = path
  · rw [same, Function.update_self] at present
    cases present
  · rwa [Function.update_of_ne same] at present

theorem SearchDb.IsCaughtUp.unlink {reaches : List UInt8 → ℕ → Prop} {db : SearchDb}
    (caughtUp : db.IsCaughtUp crates root reaches files other) (path : String) :
    db.IsCaughtUp crates root reaches (Function.update files path none) other :=
  fun content present => caughtUp content (update_eq_file present)

theorem FileVisit.SeesLines.unlink {visit : FileVisit} (sees : visit.SeesLines files other)
    (path : String) : visit.SeesLines (Function.update files path none) other :=
  fun content present => sees content (update_eq_file present)

end Unlinking

namespace Maintenance

variable {crates : Crates} {before after state : Maintenance}

theorem Records.step {failures : Failures} (records : Records crates failures before after) :
    Step crates failures before after := by
  cases records with
  | record recorder moved => exact .record recorder moved
  | fail id recorder fails allowed => exact .fail id recorder fails allowed
  | lose recorder path moved unlinked present changed =>
      exact .lose recorder path moved unlinked present changed

/-- A file may be unlinked at any time. -/
theorem Covers.unlinked (covers : Covers crates state) (path : String) :
    Covers crates (state.unlink path) := by
  have known {other : String} (known : state.IsKnown crates state.root NoLineBehind other) :
      (state.unlink path).IsKnown crates state.root NoLineBehind other :=
    known.imp_right fun rest => rest.imp_right fun caughtUp => caughtUp.unlink path
  have tracks := covers.tracks
  refine ⟨⟨rfl, tracks.formed, tracks.entries, tracks.once, ?_, ?_⟩, ?_, ?_⟩
  · intro current generation visit todo ingesting unmarked
    exact (tracks.visit current generation visit todo ingesting unmarked).imp_right
      fun current => current.unlink path
  · intro current generation todo committed unmarked
    exact (tracks.committed current generation todo committed unmarked).imp_right
      fun caughtUp => caughtUp.unlink path
  · exact fun connected other jsonl => known (covers.known connected other jsonl)
  · have held := covers.phase
    change PhaseHolds crates (state.unlink path).toIndexer state.phase
    cases phase : state.phase with
    | applying => exact trivial
    | sleeping | opening | tidying _ | searched | collecting =>
        rw [phase] at held
        exact held
    | scanning left visit =>
        rw [phase] at held
        cases visit with
        | none => exact ⟨held.1, fun other jsonl => (held.2 other jsonl).imp_left known⟩
        | some visit =>
            obtain ⟨current, visit⟩ := visit
            refine ⟨held.1, fun other jsonl => (held.2.1 other jsonl).imp_left known, ?_⟩
            exact held.2.2.imp_right fun rest => rest.imp_right fun current => current.unlink path
    | cleaning collected todo answers =>
        rw [phase] at held
        exact ⟨held.1, fun other content missing present =>
          held.2 other content missing (update_eq_file present)⟩

/-- A file that has unread lines is dirty, or the scan is still to come. -/
theorem Covers.isPending (covers : Covers crates state) (quiet : state.Idle) {path : String}
    (unread : state.IsUnread crates path) : state.IsPending path := by
  obtain ⟨jsonl, readable, content, present, unread⟩ := unread
  cases connected : state.connected with
  | false => exact .inr connected
  | true =>
      rcases covers.known connected path jsonl with dirty | ⟨id, call, found, _⟩ | caughtUp
      · exact .inl dirty
      · rw [quiet id] at found
        cases found
      · obtain ⟨row, found, reads⟩ := caughtUp content present readable
        obtain ⟨ok, line⟩ := unread row found
        exact absurd line (reads ok)

/-- A new task finds what the last one has committed, and scans the archive again. -/
theorem Covers.respawned (covers : Covers crates state) : Covers crates state.respawned :=
  ⟨.of_idle rfl covers.tracks.formed rfl, nofun, rfl⟩

/-- The rest of the last pass: every mark is the one of the snapshot, and is cleared with its
entry. -/
structure Clears (state : Maintenance) : Prop where
  listed : ∀ path, (state.store.generation path).isSome → path ∈ state.pass.entries.map Prod.fst
  unmarked : ∀ path, state.marks path = 0

/-- Nothing is left to index. -/
structure Finished (state : Maintenance) : Prop where
  connected : state.connected = true
  clean : ∀ path, state.store.generation path = none

/-- What the last pass relies on when no call is in progress. -/
def Finishes (state : Maintenance) : Prop :=
  match state.phase with
  | .opening | .scanning _ _ => True
  | .applying => state.connected = true ∧ (state.pass = .idle ∨ state.Clears)
  | .tidying false | .cleaning false _ _ | .searched => state.Finished
  | _ => False

/-- A recorder without a call in progress marks nothing before a call begins. -/
theorem generation_of_idle {reads : NaiveDateTime → Prop} {recorder after : ConcurrentRecorder}
    (idle : recorder.Idle) (stepped : ConcurrentRecorder.Step crates reads recorder after)
    (path : String) : after.store.generation path = recorder.store.generation path := by
  cases stepped with
  | enter _ _ _ _ _ _ | deactivate _ _ => rfl
  | skip id _ _ _ found _ | lockAppend id _ _ _ _ found _ _ _ | append id _ _ _ found
  | mark id _ found | lockOpen id _ _ _ _ found _ _ _ | create id _ _ _ _ _ _ found _ _
  | write id _ _ _ _ _ found | register id _ _ _ found _ =>
      rw [idle id] at found
      cases found

theorem Finishes.congr (finishes : state.Finishes) (phase : after.phase = state.phase)
    (connected : after.connected = state.connected) (pass : after.pass = state.pass)
    (generation : ∀ path, after.store.generation path = state.store.generation path)
    (marks : after.marks = state.marks) : after.Finishes := by
  have finished (ends : state.Finished) : after.Finished :=
    ⟨connected.trans ends.connected, fun path => (generation path).trans (ends.clean path)⟩
  have clears (clears : state.Clears) : after.Clears := by
    refine ⟨fun path dirty => ?_, fun path => ?_⟩
    · rw [generation] at dirty
      rw [pass]
      exact clears.listed path dirty
    · rw [marks]
      exact clears.unmarked path
  unfold Finishes at finishes ⊢
  rw [phase, connected, pass]
  split at finishes
  · trivial
  · trivial
  · exact ⟨finishes.1, finishes.2.imp_right clears⟩
  · exact finished finishes
  · exact finished finishes
  · exact finished finishes
  · exact finishes.elim

/-- The recorder does nothing to the marks while no call is in progress. -/
theorem Finishes.recording (finishes : state.Finishes) (idle : state.Idle)
    {recorder : ConcurrentRecorder} {reads : NaiveDateTime → Prop}
    (moved : ConcurrentRecorder.Step crates reads state.toConcurrentRecorder recorder)
    (files : FileSystem) :
    (state.withIndexer (state.recording (recorder.withFiles files))).Finishes := by
  have same := generation_of_idle idle moved
  refine finishes.congr rfl rfl rfl same ?_
  funext path
  exact if_pos (same path)

/-- A step of the pass over the marks, unless a transaction is rolled back. -/
theorem Finishes.pass (tracks : Indexer.Tracks crates state.root NoLineBehind state.toIndexer)
    {after : Indexer} (applying : state.phase = .applying) (finishes : state.Finishes)
    (passed : Indexer.PassStep crates state.toIndexer after)
    (ingests : ∀ path generation visit todo rest,
      state.pass = .ingesting path generation visit todo → after.pass ≠ .between rest) :
    ((state.withIndexer after).withPhase
      (match after.pass with
        | .idle => .tidying false
        | _ => .applying)).Finishes := by
  unfold Finishes at finishes
  rw [applying] at finishes
  obtain ⟨connected, rest⟩ := finishes
  have clears (busy : state.pass ≠ .idle) : state.Clears := rest.resolve_left busy
  cases passed with
  | snapshot todo _ _ listed =>
      refine ⟨connected, .inr ⟨fun path dirty => ?_, fun _ => rfl⟩⟩
      obtain ⟨generation, marked⟩ := Option.isSome_iff_exists.mp dirty
      exact List.mem_map.mpr ⟨(path, generation),
        ((state.store.snapshot_listed listed).2 (path, generation)).mpr marked, rfl⟩
  | start path generation todo between =>
      obtain ⟨listed, unmarked⟩ := clears (by simp [between])
      rw [between] at listed
      exact ⟨connected, .inr ⟨listed, unmarked⟩⟩
  | look path generation visit next todo ingesting _ =>
      obtain ⟨listed, unmarked⟩ := clears (by simp [ingesting])
      rw [ingesting] at listed
      exact ⟨connected, .inr ⟨listed, unmarked⟩⟩
  | fail path generation visit todo ingesting =>
      exact absurd rfl (ingests path generation visit todo todo ingesting)
  | commit path generation metadata content todo db ingesting _ =>
      obtain ⟨listed, unmarked⟩ := clears (by simp [ingesting])
      rw [ingesting] at listed
      exact ⟨connected, .inr ⟨listed, unmarked⟩⟩
  | clear path generation todo committed _ =>
      obtain ⟨listed, unmarked⟩ := clears (by simp [committed])
      refine ⟨connected, .inr ⟨fun other dirty => ?_, unmarked⟩⟩
      -- nobody has marked the path since the snapshot, so its mark goes
      have own := tracks.entries (path, generation)
        (by rw [committed]; exact List.mem_cons_self)
      change state.store.generation path =
        some (generation + UInt64.ofNat (state.marks path)) at own
      rw [unmarked path] at own
      simp only [UInt64.reduceOfNat, UInt64.add_zero] at own
      change (((state.store.clearDirtyPathIfUnchanged path generation).2).generation
        other).isSome = true at dirty
      rw [ArchiveStore.generation_clearDirtyPathIfUnchanged] at dirty
      split at dirty
      · cases dirty
      · next kept =>
          have member := listed other dirty
          rw [committed] at member
          rcases List.mem_cons.mp member with same | later
          · exact absurd ⟨same, own⟩ kept
          · exact later
  | finish between =>
      obtain ⟨listed, _⟩ := clears (by simp [between])
      refine ⟨connected, fun path => ?_⟩
      cases found : state.store.generation path with
      | none => exact found
      | some generation =>
          have member := listed path (by rw [found]; rfl)
          rw [between] at member
          cases member

/-- A step of the last pass. -/
theorem Finishes.loops (finishes : state.Finishes) (idle : state.Idle)
    (covers : Covers crates state) (loops : Loops crates (.harmless crates) state after)
    (more : state.phase ≠ .searched) (opens : state.phase = .opening → after.phase ≠ .searched)
    (ingests : ∀ path generation visit todo rest,
      state.pass = .ingesting path generation visit todo → after.pass ≠ .between rest) :
    after.Finishes := by
  have at' {phase : MaintenancePhase} (here : state.phase = phase) :
      (state.withPhase phase).Finishes := finishes.congr here.symm rfl rfl (fun _ => rfl) rfl
  cases loops.step with
  | record recorder moved => exact finishes.recording idle moved recorder.files
  | fail id _ fails _ =>
      cases fails with
      | fail call running =>
          rw [idle id] at running
          cases running
  | lose recorder _ moved _ _ _ => exact finishes.recording idle moved state.files
  | wake waiting =>
      rcases waiting with sleeping | collecting
      · exact (at' sleeping).elim
      · exact (at' collecting).elim
  | openFails opening => exact absurd rfl (opens opening)
  | opened _ | visit _ _ _ _ | look _ _ _ _ _ _ | commit _ _ _ _ _ _ _ | visitFails _ _ _ _ _
  | walkFails _ _ _ _ | gone _ _ _ _ => trivial
  | scanned scanning =>
      have held := covers.phase
      rw [scanning] at held
      exact ⟨rfl, .inl held.1⟩
  | apply after applying passed => exact .pass covers.tracks applying finishes passed ingests
  | tidy collected tidying =>
      cases collected with
      | false =>
          obtain ⟨connected, clean⟩ : (state.withPhase _).Finished := at' tidying
          change (state.withPhase _).Finishes
          split
          · exact ⟨connected, clean⟩
          · exact ⟨connected, clean⟩
      | true => exact (at' tidying).elim
  | check collected path todo answers answer cleaning _ _ =>
      cases collected with
      | false =>
          obtain ⟨connected, clean⟩ : (state.withPhase _).Finished := at' cleaning
          exact ⟨connected, clean⟩
      | true => exact (at' cleaning).elim
  | cleaned collected answers cleaning | cleanupFails collected todo answers cleaning =>
      cases collected with
      | false =>
          obtain ⟨connected, clean⟩ : (state.withPhase _).Finished := at' cleaning
          exact ⟨connected, clean⟩
      | true => exact (at' cleaning).elim
  | rest searched | collect searched => exact absurd searched more
  | unlink _ _ collecting _ | collected collecting => exact (at' collecting).elim

theorem Covers.lastIteration (covers : Covers crates state) (few : state.FewMarks)
    (waiting : state.phase = .sleeping ∨ state.phase = .collecting) :
    Covers crates state.lastIteration :=
  covers.step few (.wake waiting)

end Maintenance

namespace ServeRun

variable {crates : Crates} {before after state : ServeRun}

/-- The index covers the files, whatever happens to the tasks. -/
theorem covers_step (covers : Maintenance.Covers crates before.toMaintenance)
    (few : before.FewMarks) (stepped : Step crates (.harmless crates) before after) :
    Maintenance.Covers crates after.toMaintenance := by
  cases stepped with
  | record after _ records => exact covers.step few records.step
  | iterate after _ loops | lastChanges after _ _ loops => exact covers.step few loops.step
  | leaveLoop _ _ _ waiting _ => exact covers.lastIteration few waiting
  | unlinked path _ _ _ => exact covers.unlinked path
  | maintenanceFails _ => exact covers.respawned
  | maintenanceEnds _ _ | ingestExits _ _ _ _ | httpExits _ | spawn _ | restartHttp _ _
  | restartMaintenance _ _ | shutdown _ | joined _ _ _ | maintenanceJoined _ _ _ => exact covers

/-- Which task may be where while `run` stands at a stage. -/
structure Ordered (state : ServeRun) : Prop where
  /-- Maintenance is told to stop only after ingest and the listeners are over. -/
  joined : state.stage = .finishing ∨ state.stage = .returned →
    state.ingest ≠ .running ∧ state.http ≠ .running
  last : state.maintenance = .lastPass ∨ state.maintenance = .done →
    state.stage = .finishing ∨ state.stage = .returned
  returned : state.stage = .returned →
    state.maintenance ≠ .running ∧ state.maintenance ≠ .lastPass
  /-- No call outlives the streams of ingest. -/
  quiet : state.ingest = .ended → state.Idle

namespace Ordered

theorem start (started : state.Start crates) : Ordered state := by
  obtain ⟨_, stage, ingest, http, maintenance, _⟩ := started
  refine ⟨?_, ?_, ?_, ?_⟩
  · simp [stage]
  · simp [maintenance]
  · simp [stage]
  · simp [ingest]

/-- The loop of maintenance has no say in what the recorder does. -/
theorem idle_of_loops {failures : Failures} {after : Maintenance} (idle : before.Idle)
    (loops : Maintenance.Loops crates failures before.toMaintenance after) : after.Idle :=
  fun id => (congrFun loops.calls id).trans (idle id)

theorem step {failures : Failures} (ordered : Ordered before)
    (stepped : Step crates failures before after) : Ordered after := by
  obtain ⟨joined, last, returned, quiet⟩ := ordered
  cases stepped with
  | record after recording _ =>
      exact ⟨joined, last, returned, fun ended => absurd ended recording⟩
  | iterate after _ loops | lastChanges after _ _ loops =>
      exact ⟨joined, last, returned, fun ended => idle_of_loops (quiet ended) loops⟩
  | leaveLoop _ running finishing _ _ =>
      refine ⟨joined, fun _ => .inl finishing, fun gone => ?_, quiet⟩
      exact absurd (finishing.symm.trans gone) (by decide)
  | unlinked _ _ _ _ => exact ⟨joined, last, returned, quiet⟩
  | maintenanceEnds lastPass _ =>
      exact ⟨joined, fun _ => last (.inl lastPass), fun _ => ⟨nofun, nofun⟩, quiet⟩
  | maintenanceFails _ => exact ⟨joined, by simp, fun _ => ⟨nofun, nofun⟩, quiet⟩
  | ingestExits task _ stopped idle =>
      exact ⟨fun late => ⟨stopped, (joined late).2⟩, last, returned, idle⟩
  | httpExits _ => exact ⟨fun late => ⟨(joined late).1, nofun⟩, last, returned, quiet⟩
  | spawn _ => exact ⟨by simp, by simp, by simp, quiet⟩
  | restartHttp supervising _ =>
      exact ⟨fun late => by simp [supervising] at late, last, returned, quiet⟩
  | restartMaintenance supervising _ =>
      exact ⟨joined, by simp, fun gone => by simp [supervising] at gone, quiet⟩
  | shutdown early =>
      refine ⟨by simp, fun late => ?_, by simp, quiet⟩
      rcases early with dryRun | supervising
      · simpa [dryRun] using last late
      · simpa [supervising] using last late
  | joined stopping ingest http =>
      refine ⟨fun _ => ⟨ingest, http⟩, fun late => ?_, fun gone => ?_, quiet⟩
      · simpa [stopping] using last late
      · change (if before.maintenance = .absent then ServeStage.returned else .finishing) =
          .returned at gone
        split at gone
        · next absent => exact ⟨by simp [absent], by simp [absent]⟩
        · cases gone
  | maintenanceJoined finishing running lastPass =>
      exact ⟨fun _ => joined (.inl finishing), fun _ => .inr rfl, fun _ => ⟨running, lastPass⟩,
        quiet⟩

end Ordered

/-- What the last pass does when the streams of ingest are over. -/
structure Concludes (state : ServeRun) : Prop where
  finishes : state.maintenance = .lastPass → state.ingest = .ended → state.Finishes
  finished : state.maintenance = .done → state.ingest = .ended → state.Finished

theorem Concludes.start (started : state.Start crates) : Concludes state := by
  have absent := started.maintenance
  exact ⟨by simp [absent], by simp [absent]⟩

/-- The last pass begins between two passes. -/
theorem finishes_lastIteration {state : Maintenance} (covers : Maintenance.Covers crates state)
    (waiting : state.phase = .sleeping ∨ state.phase = .collecting) :
    state.lastIteration.Finishes := by
  have idle : state.pass = .idle := by
    have held := covers.phase
    rcases waiting with sleeping | collecting
    · rwa [sleeping] at held
    · rwa [collecting] at held
  unfold Maintenance.lastIteration
  split
  · next connected => exact ⟨connected, .inl idle⟩
  · trivial

theorem Concludes.step (concludes : Concludes before) (ordered : Ordered before)
    (covers : Maintenance.Covers crates before.toMaintenance)
    (stepped : Step crates (.harmless crates) before after)
    (succeeds : LastPassSucceeds before after) : Concludes after := by
  obtain ⟨finishes, finished⟩ := concludes
  cases stepped with
  | record after recording _ =>
      exact ⟨fun _ ended => absurd ended recording, fun _ ended => absurd ended recording⟩
  | iterate after running _ =>
      exact ⟨fun last => absurd (running.symm.trans last) (by decide),
        fun done => absurd (running.symm.trans done) (by decide)⟩
  | leaveLoop _ _ _ waiting _ => exact ⟨fun _ _ => finishes_lastIteration covers waiting, nofun⟩
  | lastChanges after last more loops =>
      refine ⟨fun _ ended => ?_, fun done => absurd (last.symm.trans done) (by decide)⟩
      exact (finishes last ended).loops (ordered.quiet ended) covers loops more
        (succeeds.opens last) (succeeds.ingests last)
  | unlinked _ _ _ _ =>
      refine ⟨fun last ended => ?_, fun done ended => ?_⟩
      · exact (finishes last ended).congr rfl rfl rfl (fun _ => rfl) rfl
      · exact ⟨(finished done ended).connected, (finished done ended).clean⟩
  | maintenanceEnds last searched =>
      refine ⟨nofun, fun _ ended => ?_⟩
      have ends := finishes last ended
      unfold Maintenance.Finishes at ends
      rw [searched] at ends
      exact ⟨ends.connected, ends.clean⟩
  | maintenanceFails _ | spawn _ | restartMaintenance _ _ => exact ⟨nofun, nofun⟩
  | ingestExits task running _ _ =>
      -- ingest is over when the last pass begins
      exact ⟨fun last => absurd running (ordered.joined (ordered.last (.inl last))).1,
        fun done => absurd running (ordered.joined (ordered.last (.inr done))).1⟩
  | httpExits _ | restartHttp _ _ | shutdown _ | joined _ _ _ | maintenanceJoined _ _ _ =>
      exact ⟨finishes, finished⟩

/-- The invariant of a run. -/
structure Holds (crates : Crates) (state : ServeRun) : Prop where
  covers : Maintenance.Covers crates state.toMaintenance
  ordered : Ordered state
  concludes : Concludes state

theorem Holds.run (run : Run crates state) : Holds crates state := by
  refine Transition.Reachable.invariant ?_ ?_ run
  · intro state started
    exact ⟨.start started.start, .start started, .start started⟩
  · intro before after _ ⟨covers, ordered, concludes⟩ ⟨stepped, few, succeeds⟩
    exact ⟨covers_step covers few stepped, ordered.step stepped,
      concludes.step ordered covers stepped succeeds⟩

/-- While a task is restarted in place, a later pass still comes to every unread file. When the
streams of ingest are over and maintenance has made its last pass, no file is left with lines that
the index has not read. -/
theorem clean_shutdown_indexes_every_line (run : Run crates state) :
    (state.Idle → ∀ path, state.IsUnread crates path → state.IsPending path) ∧
      (state.ingest = .ended → state.maintenance = .done →
        ∀ path, ¬ state.IsUnread crates path) := by
  obtain ⟨covers, ordered, concludes⟩ := Holds.run run
  refine ⟨fun quiet path unread => covers.isPending quiet unread, fun ended done path unread => ?_⟩
  obtain ⟨connected, clean⟩ := concludes.finished done ended
  rcases covers.isPending (ordered.quiet ended) unread with dirty | unconnected
  · rw [clean path] at dirty
    cases dirty
  · rw [connected] at unconnected
    cases unconnected

/-- Before the last pass nothing is asked of it. -/
theorem LastPassSucceeds.of_earlier (earlier : before.maintenance ≠ .lastPass) :
    LastPassSucceeds before after :=
  ⟨fun last => absurd last earlier, fun last => absurd last earlier⟩

/-- The tasks are supervised. -/
theorem LastPassSucceeds.of_running (running : before.maintenance = .running) :
    LastPassSucceeds before after := by
  apply LastPassSucceeds.of_earlier
  intro last
  rw [running] at last
  cases last

/-- A step that leaves the opened database open and rolls nothing back. -/
theorem LastPassSucceeds.of_later (opens : after.phase ≠ .searched)
    (kept : ∀ path generation visit todo, before.pass ≠ .ingesting path generation visit todo) :
    LastPassSucceeds before after :=
  ⟨fun _ _ => opens, fun _ _ _ _ _ _ ingesting => absurd ingesting (kept _ _ _ _)⟩

/-- A step of an opened database that rolls nothing back. -/
theorem LastPassSucceeds.of_opened (opened : before.phase ≠ .opening)
    (kept : ∀ path generation visit todo, before.pass ≠ .ingesting path generation visit todo) :
    LastPassSucceeds before after :=
  ⟨fun _ opening => absurd opening opened,
    fun _ _ _ _ _ _ ingesting => absurd ingesting (kept _ _ _ _)⟩

/-- The database cannot be opened before a signal comes, and the last pass scans the archive. -/
theorem clean_shutdown_indexes_every_line_sample : ∃ state, Run Sample.crates state ∧
    state.stage = .returned ∧
      state.files Sample.earlierFile = some (.file (lineBytes Sample.newsLine)) ∧
        ¬ state.IsUnread Sample.crates Sample.earlierFile := by
  obtain ⟨file, identified⟩ := Option.isSome_iff_exists.mp
    ((isSome_identify_archivePath Sample.crates "data" "nhk" Sample.news (Sample.clock 1) 0).mpr
      (by decide))
  let content := lineBytes Sample.newsLine
  obtain ⟨db, ran, _⟩ := ingestFile_of_readable identified .migrated ⟨content.length, 0⟩ content
  have there : Sample.oneFile.files Sample.earlierFile = some (.file content) := by
    simp only [Sample.oneFile, ↓reduceIte, content]
  have found (bytes : List UInt8)
      (present : Sample.oneFile.files Sample.earlierFile = some (.file bytes)) :
      bytes = content := by simpa using present.symm.trans there
  have start : Run Sample.crates ⟨Sample.oneFile, .dryRun, .running, .absent, .absent, none⟩ :=
    .initial ⟨Maintenance.start_oneFile, rfl, rfl, rfl, rfl, rfl⟩
  have spawned := start.next ⟨.spawn rfl, fun active => absurd rfl active,
    .of_earlier (by intro last; cases last)⟩
  have failed := spawned.next ⟨.iterate _ rfl ⟨.openFails rfl, rfl, rfl⟩,
    fun active => absurd rfl active, .of_running rfl⟩
  have slept := failed.next ⟨.iterate _ rfl ⟨.rest rfl, rfl, rfl⟩,
    fun active => absurd rfl active, .of_running rfl⟩
  have signalled := slept.next
    ⟨.shutdown (.inr rfl), fun active => absurd rfl active, .of_running rfl⟩
  have ended := signalled.next ⟨.ingestExits .ended rfl (by intro same; cases same) fun _ _ => rfl,
    fun active => absurd rfl active, .of_running rfl⟩
  have closed := ended.next ⟨.httpExits rfl, fun active => absurd rfl active, .of_running rfl⟩
  have joined := closed.next
    ⟨.joined rfl (by intro same; cases same) (by intro same; cases same),
      fun active => absurd rfl active, .of_running rfl⟩
  have left := joined.next ⟨.leaveLoop none rfl rfl (.inl rfl) fun given => absurd rfl given,
    fun active => absurd rfl active, .of_running rfl⟩
  have opened := left.next ⟨.lastChanges _ rfl (by intro same; cases same) ⟨.opened rfl, rfl, rfl⟩,
    fun active => absurd rfl active,
    .of_later (by intro same; cases same) (by intro _ _ _ _ same; cases same)⟩
  have visited := opened.next ⟨.lastChanges _ rfl (by intro same; cases same)
    ⟨.visit _ Sample.earlierFile rfl (extension_archivePath ..), rfl, rfl⟩,
    fun active => absurd rfl active,
    .of_later (by intro same; cases same) (by intro _ _ _ _ same; cases same)⟩
  have stated := visited.next ⟨.lastChanges _ rfl (by intro same; cases same)
    ⟨.look _ _ _ _ rfl (.stat (some ⟨content.length, 0⟩) fun bytes present => by
      simp [found bytes present]), rfl, rfl⟩,
    fun active => absurd rfl active,
    .of_later (by intro same; cases same) (by intro _ _ _ _ same; cases same)⟩
  have loaded := stated.next ⟨.lastChanges _ rfl (by intro same; cases same)
    ⟨.look _ _ _ _ rfl (.load _ (some content) fun bytes present => by
      simp [found bytes present]), rfl, rfl⟩,
    fun active => absurd rfl active,
    .of_later (by intro same; cases same) (by intro _ _ _ _ same; cases same)⟩
  have committed := loaded.next ⟨.lastChanges _ rfl (by intro same; cases same)
    ⟨.commit _ _ _ _ db rfl ran, rfl, rfl⟩,
    fun active => absurd rfl active,
    .of_later (by intro same; cases same) (by intro _ _ _ _ same; cases same)⟩
  have nothing : Sample.oneFile.archived \ {Sample.earlierFile} = ∅ := by
    apply Set.eq_empty_of_forall_notMem
    intro path member
    obtain ⟨⟨⟨bytes, present⟩, _⟩, other⟩ := member
    have absent : Sample.oneFile.files path = none := if_neg other
    rw [absent] at present
    cases present
  have scanned := committed.next ⟨.lastChanges _ rfl (by intro same; cases same)
    ⟨.scanned (congrArg (MaintenancePhase.scanning · none) nothing), rfl, rfl⟩,
    fun active => absurd rfl active,
    .of_later (by intro same; cases same) (by intro _ _ _ _ same; cases same)⟩
  have snapshot := scanned.next ⟨.lastChanges _ rfl (by intro same; cases same)
    ⟨.apply _ rfl (.snapshot [] rfl (by intro _ _ _ same; cases same) .nil), rfl, rfl⟩,
    fun active => absurd rfl active,
    .of_later (by intro same; cases same) (by intro _ _ _ _ same; cases same)⟩
  have finished := snapshot.next ⟨.lastChanges _ rfl (by intro same; cases same)
    ⟨.apply _ rfl (.finish rfl), rfl, rfl⟩,
    fun _ _ => Nat.two_pow_pos 64,
    .of_later (by intro same; cases same) (by intro _ _ _ _ same; cases same)⟩
  have tidied := finished.next ⟨.lastChanges _ rfl (by intro same; cases same)
    ⟨.tidy false rfl, rfl, rfl⟩,
    fun active => absurd rfl active,
    .of_later (by intro same; cases same) (by intro _ _ _ _ same; cases same)⟩
  have given := tidied.next ⟨.lastChanges _ rfl (by intro same; cases same)
    ⟨.cleanupFails false _ _ rfl, rfl, rfl⟩,
    fun active => absurd rfl active,
    .of_opened (by intro same; cases same) (by intro _ _ _ _ same; cases same)⟩
  have done := given.next
    ⟨.maintenanceEnds rfl rfl, fun active => absurd rfl active,
      .of_opened (by intro same; cases same) (by intro _ _ _ _ same; cases same)⟩
  have returned := done.next
    ⟨.maintenanceJoined rfl (by intro same; cases same) (by intro same; cases same),
      fun active => absurd rfl active,
      .of_opened (by intro same; cases same) (by intro _ _ _ _ same; cases same)⟩
  exact ⟨_, returned, rfl, there,
    (clean_shutdown_indexes_every_line returned).2 rfl rfl Sample.earlierFile⟩

end ServeRun

end AribcapDb
