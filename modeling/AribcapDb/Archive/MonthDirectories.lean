import AribcapDb.Archive.Components
import AribcapDb.Archive.Garbage

/-! # Month directories

One call of `handle_line` that starts a new program, beside one pass of `collect_garbage`, by
their steps on directories. The call makes the month directory and opens a file in it in two
steps, and between them the pass may find the directory empty and remove it: the call then fails
(`collection_breaks_starting_recording`). In every run without such a removal the call can go on
and the recording becomes active (`starting_recording_is_unbroken`). -/

namespace AribcapDb

/-- A call that opens a file for a new program. -/
structure NewRecording where
  dataDir : String
  stream : String
  program : Program
  now : NaiveDateTime

namespace NewRecording

variable (crates : Crates) (recording : NewRecording)

def directory : String :=
  archiveDirectory crates recording.dataDir recording.stream recording.now

def filename (suffix : ℕ) : String :=
  archiveFilename crates recording.program recording.now suffix

/-- The file that `open_archive_file` opens with a suffix. -/
def active (suffix : ℕ) : ActiveArchiveFile :=
  ⟨recording.program.key, join (recording.directory crates) (recording.filename crates suffix)⟩

end NewRecording

/-- Where the call stands after it has found the program to be new. -/
inductive Opening where
  /-- The next step of `create_dir_all` is `mkdir`; `again` once the directories above exist. -/
  | makeDirectory (again : Bool)
  | makeParents
  /-- `mkdir` has failed, and `create_dir_all` asks whether the directory is there. -/
  | checkDirectory
  | createNew (suffix : ℕ)
  | writeLine (active : ActiveArchiveFile)
  | register (active : ActiveArchiveFile)
  | started (active : ActiveArchiveFile)
  | failed (error : String)

/-- Where the pass stands. -/
inductive DirectoryPass where
  | notStarted
  | removingFiles (cutoff : Instant) (activePaths : List String)
  | removingDirectories
  | finished

/-- The store, the names in every month directory, the call and the pass. -/
structure StartingRecording where
  store : ArchiveStore
  streamDirectory : Bool
  months : String → Option (Finset String)
  opening : Opening
  pass : DirectoryPass

namespace StartingRecording

def withOpening (state : StartingRecording) (opening : Opening) : StartingRecording :=
  { state with opening }

def withMonth (state : StartingRecording) (directory : String) (names : Option (Finset String)) :
    StartingRecording :=
  { state with months := Function.update state.months directory names }

@[simp] theorem months_withMonth (state : StartingRecording) (directory : String)
    (names : Option (Finset String)) :
    (state.withMonth directory names).months = Function.update state.months directory names := rfl

@[simp] theorem months_withOpening (state : StartingRecording) (opening : Opening) :
    (state.withOpening opening).months = state.months := rfl

/-- The steps of the call; none fails unless the directory is not there. -/
inductive CallStep (crates : Crates) (recording : NewRecording) (before : StartingRecording) :
    StartingRecording → Prop where
  | made (again : Bool) : before.opening = .makeDirectory again →
      before.months (recording.directory crates) = none → before.streamDirectory = true →
      CallStep crates recording before
        ((before.withMonth (recording.directory crates) (some ∅)).withOpening (.createNew 0))
  | parentMissing : before.opening = .makeDirectory false →
      before.months (recording.directory crates) = none → before.streamDirectory = false →
      CallStep crates recording before (before.withOpening .makeParents)
  | parentMissingAgain : before.opening = .makeDirectory true →
      before.months (recording.directory crates) = none → before.streamDirectory = false →
      CallStep crates recording before
        (before.withOpening (.failed ("failed to create " ++ recording.directory crates)))
  | exists' (again : Bool) (names : Finset String) : before.opening = .makeDirectory again →
      before.months (recording.directory crates) = some names →
      CallStep crates recording before (before.withOpening .checkDirectory)
  | parentsMade : before.opening = .makeParents →
      CallStep crates recording before
        ({ before with streamDirectory := true }.withOpening (.makeDirectory true))
  | isDirectory (names : Finset String) : before.opening = .checkDirectory →
      before.months (recording.directory crates) = some names →
      CallStep crates recording before (before.withOpening (.createNew 0))
  | isNoDirectory : before.opening = .checkDirectory →
      before.months (recording.directory crates) = none →
      CallStep crates recording before
        (before.withOpening (.failed ("failed to create " ++ recording.directory crates)))
  | created (suffix : ℕ) (names : Finset String) : before.opening = .createNew suffix →
      before.months (recording.directory crates) = some names →
      recording.filename crates suffix ∉ names →
      CallStep crates recording before
        ((before.withMonth (recording.directory crates)
          (some (insert (recording.filename crates suffix) names))).withOpening
            (.writeLine (recording.active crates suffix)))
  | taken (suffix : ℕ) (names : Finset String) : before.opening = .createNew suffix →
      before.months (recording.directory crates) = some names →
      recording.filename crates suffix ∈ names →
      CallStep crates recording before (before.withOpening
        (if suffix + 1 < 2 ^ 32 then .createNew (suffix + 1)
          else .failed "unbounded collision suffix loop"))
  | noDirectory (suffix : ℕ) : before.opening = .createNew suffix →
      before.months (recording.directory crates) = none →
      CallStep crates recording before (before.withOpening
        (.failed ("failed to open " ++ (recording.active crates suffix).path)))
  | written (active : ActiveArchiveFile) : before.opening = .writeLine active →
      CallStep crates recording before (before.withOpening (.register active))
  | registered (active : ActiveArchiveFile) : before.opening = .register active →
      CallStep crates recording before
        ({ before with store := before.store.replaceActive recording.stream active }.withOpening
          (.started active))

/-- The steps of the pass. It walks the tree in any order, and may end at any time. -/
inductive PassStep (crates : Crates) (dates : DateParser) (before : StartingRecording) :
    StartingRecording → Prop where
  | begin (cutoff : Instant) : before.pass = .notStarted →
      PassStep crates dates before
        { before with pass := .removingFiles cutoff before.store.activePaths }
  | removeFile (cutoff : Instant) (activePaths : List String) (directory name : String)
      (names : Finset String) : before.pass = .removingFiles cutoff activePaths →
      before.months directory = some names → name ∈ names →
      isExpired crates.chrono (join directory name) cutoff = true →
      join directory name ∉ activePaths →
      PassStep crates dates before (before.withMonth directory (some (names.erase name)))
  | filesRemoved (cutoff : Instant) (activePaths : List String) :
      before.pass = .removingFiles cutoff activePaths →
      PassStep crates dates before { before with pass := .removingDirectories }
  | removeDirectory (directory month : String) : before.pass = .removingDirectories →
      fileName directory = some month → isMonthComponent dates month = true →
      before.months directory = some ∅ →
      PassStep crates dates before (before.withMonth directory none)
  | finish : PassStep crates dates before { before with pass := .finished }

inductive Step (crates : Crates) (dates : DateParser) (recording : NewRecording)
    (before after : StartingRecording) : Prop where
  | call : CallStep crates recording before after → Step crates dates recording before after
  | pass : PassStep crates dates before after → Step crates dates recording before after

/-- Any archive in which a file name for the call is free, before the call and the pass. -/
structure Start (crates : Crates) (recording : NewRecording) (state : StartingRecording) :
    Prop where
  opening : state.opening = .makeDirectory false
  pass : state.pass = .notStarted
  free : ∀ names, state.months (recording.directory crates) = some names →
    ∃ suffix < 2 ^ 32, recording.filename crates suffix ∉ names

/-- The call has found or made its month directory and has no file in it yet. -/
def NeedsDirectory (state : StartingRecording) : Prop :=
  state.opening = .checkDirectory ∨ ∃ suffix, state.opening = .createNew suffix

/-- The step does not remove the month directory that the call is about to use. -/
def KeepsDirectory (crates : Crates) (recording : NewRecording)
    (before after : StartingRecording) : Prop :=
  before.NeedsDirectory → before.months (recording.directory crates) ≠ none →
    after.months (recording.directory crates) ≠ none

/-- The call goes on to the end by its own steps. -/
def Completes (crates : Crates) (recording : NewRecording) (state : StartingRecording) : Prop :=
  ∃ final active, Relation.ReflTransGen (CallStep crates recording) state final ∧
    final.opening = .started active ∧ final.store.active recording.stream = some active

/-- The call has not failed, it is recording once it is done, and it can always go on
to that. -/
structure Unbroken (crates : Crates) (recording : NewRecording) (state : StartingRecording) :
    Prop where
  succeeds : ∀ error, state.opening ≠ .failed error
  records : ∀ active, state.opening = .started active →
    state.store.active recording.stream = some active
  completes : Completes crates recording state

variable {crates : Crates} {dates : DateParser} {recording : NewRecording}
  {before after state : StartingRecording}

/-- A name for the call is free from a suffix on, if the month directory is there. -/
def FreeFrom (crates : Crates) (recording : NewRecording) (suffix : ℕ)
    (state : StartingRecording) : Prop :=
  ∀ names, state.months (recording.directory crates) = some names →
    ∃ free, suffix ≤ free ∧ free < 2 ^ 32 ∧ recording.filename crates free ∉ names

/-- What the next step of the call relies on. -/
def Ready (crates : Crates) (recording : NewRecording) (state : StartingRecording) : Prop :=
  match state.opening with
  | .makeDirectory again =>
      (again = true → state.streamDirectory = true) ∧ state.FreeFrom crates recording 0
  | .makeParents => state.FreeFrom crates recording 0
  | .checkDirectory =>
      state.months (recording.directory crates) ≠ none ∧ state.FreeFrom crates recording 0
  | .createNew suffix =>
      state.months (recording.directory crates) ≠ none ∧ state.FreeFrom crates recording suffix
  | .writeLine _ => True
  | .register _ => True
  | .started active => state.store.active recording.stream = some active
  | .failed _ => False

/-- The pass only takes names and directories away. -/
theorem PassStep.frame (stepped : PassStep crates dates before after) :
    after.opening = before.opening ∧ after.store = before.store ∧
      after.streamDirectory = before.streamDirectory ∧
        ∀ directory names, after.months directory = some names →
          ∃ earlier, before.months directory = some earlier ∧ names ⊆ earlier := by
  cases stepped with
  | begin _ _ | filesRemoved _ _ _ | finish =>
      exact ⟨rfl, rfl, rfl, fun _ names found => ⟨names, found, subset_rfl⟩⟩
  | removeFile cutoff activePaths directory name names _ present _ _ _ =>
      refine ⟨rfl, rfl, rfl, fun other kept found => ?_⟩
      by_cases own : other = directory
      · subst own
        rw [months_withMonth, Function.update_self, Option.some.injEq] at found
        exact ⟨names, present, found ▸ Finset.erase_subset _ _⟩
      · rw [months_withMonth, Function.update_of_ne own] at found
        exact ⟨kept, found, subset_rfl⟩
  | removeDirectory directory month _ _ _ _ =>
      refine ⟨rfl, rfl, rfl, fun other kept found => ?_⟩
      by_cases own : other = directory
      · subst own
        rw [months_withMonth, Function.update_self] at found
        cases found
      · rw [months_withMonth, Function.update_of_ne own] at found
        exact ⟨kept, found, subset_rfl⟩

theorem FreeFrom.pass {suffix : ℕ} (free : before.FreeFrom crates recording suffix)
    (stepped : PassStep crates dates before after) : after.FreeFrom crates recording suffix := by
  intro names found
  obtain ⟨earlier, present, kept⟩ := stepped.frame.2.2.2 _ _ found
  obtain ⟨later, bound, small, absent⟩ := free earlier present
  exact ⟨later, bound, small, fun member => absent (kept member)⟩

namespace Ready

theorem start (started : Start crates recording state) : Ready crates recording state := by
  rw [Ready, started.opening]
  refine ⟨nofun, fun names found => ?_⟩
  obtain ⟨suffix, small, absent⟩ := started.free names found
  exact ⟨suffix, Nat.zero_le _, small, absent⟩

theorem call (ready : Ready crates recording before)
    (stepped : CallStep crates recording before after) : Ready crates recording after := by
  cases stepped with
  | made again phase absent present =>
      refine ⟨?_, fun names found => ?_⟩
      · simp
      · simp only [months_withOpening, months_withMonth, Function.update_self,
          Option.some.injEq] at found
        exact ⟨0, le_rfl, by omega, by simp [← found]⟩
  | parentMissing phase _ _ =>
      rw [Ready, phase] at ready
      exact ready.2
  | parentMissingAgain phase _ missing =>
      rw [Ready, phase] at ready
      rw [ready.1 rfl] at missing
      cases missing
  | exists' again names phase present =>
      rw [Ready, phase] at ready
      exact ⟨by simp [present], ready.2⟩
  | parentsMade phase =>
      rw [Ready, phase] at ready
      exact ⟨fun _ => rfl, ready⟩
  | isDirectory names phase present =>
      rw [Ready, phase] at ready
      exact ready
  | isNoDirectory phase absent =>
      rw [Ready, phase] at ready
      exact absurd absent ready.1
  | created suffix names _ _ _ => trivial
  | taken suffix names phase present member =>
      rw [Ready, phase] at ready
      obtain ⟨free, bound, small, absent⟩ := ready.2 names present
      have different : free ≠ suffix := by
        rintro rfl
        exact absent member
      have next : suffix + 1 < 2 ^ 32 := by omega
      rw [if_pos next]
      refine ⟨ready.1, fun others found => ?_⟩
      have same : others = names := by
        rw [months_withOpening, present] at found
        exact (Option.some.inj found).symm
      exact ⟨free, by omega, small, same ▸ absent⟩
  | noDirectory suffix phase absent =>
      rw [Ready, phase] at ready
      exact absurd absent ready.1
  | written active _ => trivial
  | registered active _ =>
      simp [Ready, withOpening, ArchiveStore.active_replaceActive]

theorem pass (ready : Ready crates recording before)
    (stepped : PassStep crates dates before after)
    (keeps : KeepsDirectory crates recording before after) : Ready crates recording after := by
  obtain ⟨opening, store, parents, _⟩ := stepped.frame
  unfold Ready at ready ⊢
  rw [opening]
  cases phase : before.opening with
  | makeDirectory again =>
      rw [phase] at ready
      exact ⟨fun second => parents ▸ ready.1 second, ready.2.pass stepped⟩
  | makeParents =>
      rw [phase] at ready
      exact FreeFrom.pass ready stepped
  | checkDirectory =>
      rw [phase] at ready
      exact ⟨keeps (.inl phase) ready.1, ready.2.pass stepped⟩
  | createNew suffix =>
      rw [phase] at ready
      exact ⟨keeps (.inr ⟨suffix, phase⟩) ready.1, ready.2.pass stepped⟩
  | writeLine active => trivial
  | register active => trivial
  | started active =>
      rw [phase] at ready
      exact store ▸ ready
  | failed error =>
      rw [phase] at ready
      exact ready

theorem run (reachable : Transition.Reachable (Start crates recording)
    (Transition.Restricted (Step crates dates recording) (KeepsDirectory crates recording))
      state) : Ready crates recording state :=
  reachable.invariant (fun _ started => start started) fun _ _ _ ready stepped => by
    cases stepped.1 with
    | call called => exact ready.call called
    | pass passed => exact ready.pass passed stepped.2

end Ready

/-- A bound on the steps that are left. -/
def remaining : Opening → ℕ
  | .makeDirectory again => if again then 2 ^ 32 + 5 else 2 ^ 32 + 7
  | .makeParents => 2 ^ 32 + 6
  | .checkDirectory => 2 ^ 32 + 4
  | .createNew suffix => 2 ^ 32 - suffix + 3
  | .writeLine _ => 2
  | .register _ => 1
  | .started _ => 0
  | .failed _ => 0

theorem CallStep.remaining_lt (stepped : CallStep crates recording before after) :
    remaining after.opening < remaining before.opening := by
  cases stepped with
  | made again phase _ _ | exists' again _ phase _ =>
      rw [phase]
      simp only [withOpening, remaining]
      split <;> omega
  | parentMissing phase _ _ | parentMissingAgain phase _ _ | parentsMade phase
    | isDirectory _ phase _ | isNoDirectory phase _ | created _ _ phase _ _
    | noDirectory _ phase _ | written _ phase | registered _ phase =>
      rw [phase]
      simp only [withOpening, remaining, ↓reduceIte, Bool.false_eq_true]
      omega
  | taken suffix names phase _ _ =>
      rw [phase]
      simp only [withOpening]
      split
      · simp only [remaining]
        omega
      · simp only [remaining]
        omega

/-- A call that is ready has started its recording or has a next step. -/
theorem Ready.progress (ready : Ready crates recording state) :
    (∃ active, state.opening = .started active) ∨
      ∃ after, CallStep crates recording state after := by
  unfold Ready at ready
  cases phase : state.opening with
  | makeDirectory again =>
      right
      cases present : state.months (recording.directory crates) with
      | some names => exact ⟨_, .exists' again names phase present⟩
      | none =>
          cases parents : state.streamDirectory with
          | true => exact ⟨_, .made again phase present parents⟩
          | false =>
              cases again with
              | false => exact ⟨_, .parentMissing phase present parents⟩
              | true => exact ⟨_, .parentMissingAgain phase present parents⟩
  | makeParents => exact .inr ⟨_, .parentsMade phase⟩
  | checkDirectory =>
      rw [phase] at ready
      obtain ⟨names, present⟩ := Option.ne_none_iff_exists'.mp ready.1
      exact .inr ⟨_, .isDirectory names phase present⟩
  | createNew suffix =>
      rw [phase] at ready
      obtain ⟨names, present⟩ := Option.ne_none_iff_exists'.mp ready.1
      by_cases member : recording.filename crates suffix ∈ names
      · exact .inr ⟨_, .taken suffix names phase present member⟩
      · exact .inr ⟨_, .created suffix names phase present member⟩
  | writeLine active => exact .inr ⟨_, .written active phase⟩
  | register active => exact .inr ⟨_, .registered active phase⟩
  | started active => exact .inl ⟨active, rfl⟩
  | failed error =>
      rw [phase] at ready
      exact ready.elim

theorem Ready.completes (ready : Ready crates recording state) :
    Completes crates recording state := by
  induction bound : remaining state.opening using Nat.strong_induction_on generalizing state with
  | _ count ih =>
      rcases ready.progress with ⟨active, done⟩ | ⟨after, stepped⟩
      · rw [Ready, done] at ready
        exact ⟨state, active, .refl, done, ready⟩
      · obtain ⟨final, active, run, done⟩ :=
          ih _ (bound ▸ stepped.remaining_lt) (ready.call stepped) rfl
        exact ⟨final, active, .head stepped run, done⟩

theorem Ready.unbroken (ready : Ready crates recording state) :
    Unbroken crates recording state where
  succeeds error failed := by
    rw [Ready, failed] at ready
    exact ready
  records active done := by
    rw [Ready, done] at ready
    exact ready
  completes := ready.completes

/-- The month directory is gone before the call has a file in it, or the call has failed. -/
def Stranded (crates : Crates) (recording : NewRecording) (state : StartingRecording) : Prop :=
  state.NeedsDirectory ∧ state.months (recording.directory crates) = none ∨
    ∃ error, state.opening = .failed error

/-- Nobody makes the directory again. -/
theorem Stranded.step (stranded : Stranded crates recording before)
    (stepped : Step crates dates recording before after) : Stranded crates recording after := by
  cases stepped with
  | call called =>
      rcases stranded with ⟨needs | ⟨suffix, needs⟩, absent⟩ | ⟨error, failed⟩
      · cases called <;> simp_all [Stranded, withOpening]
      · cases called <;> simp_all [Stranded, withOpening]
      · cases called <;> simp_all
  | pass passed =>
      obtain ⟨opening, _, _, months⟩ := passed.frame
      rcases stranded with ⟨needs, absent⟩ | ⟨error, failed⟩
      · refine .inl ⟨?_, ?_⟩
        · rw [NeedsDirectory, opening]
          exact needs
        · rw [Option.eq_none_iff_forall_ne_some]
          intro names found
          obtain ⟨earlier, present, _⟩ := months _ names found
          rw [absent] at present
          cases present
      · exact .inr ⟨error, opening ▸ failed⟩

/-- In every run in which the month directory is not removed under the call, the call does not
fail and the recording becomes active. -/
theorem starting_recording_is_unbroken
    (reachable : Transition.Reachable (Start crates recording)
      (Transition.Restricted (Step crates dates recording) (KeepsDirectory crates recording))
        state) : Unbroken crates recording state :=
  (Ready.run reachable).unbroken

/-- After any other step the recording never becomes active. -/
theorem removal_strands_recording (stepped : Step crates dates recording before after)
    (removes : ¬ KeepsDirectory crates recording before after) {later : StartingRecording}
    (reachable : Transition.Reachable (· = after) (Step crates dates recording) later)
    (active : ActiveArchiveFile) : later.opening ≠ .started active := by
  have stranded : Stranded crates recording after := by
    simp only [KeepsDirectory, Classical.not_imp, not_not] at removes
    obtain ⟨needs, present, absent⟩ := removes
    cases stepped with
    | call called =>
        exfalso
        rcases needs with needs | ⟨suffix, needs⟩
        · cases called <;> simp_all [withOpening]
        · cases called <;> simp_all [withOpening]
    | pass passed =>
        refine .inl ⟨?_, absent⟩
        rw [NeedsDirectory, passed.frame.1]
        exact needs
  have still : Stranded crates recording later := by
    refine reachable.invariant ?_ fun _ _ _ kept moved => kept.step moved
    rintro _ rfl
    exact stranded
  intro done
  rcases still with ⟨needs | ⟨suffix, needs⟩, _⟩ | ⟨error, failed⟩
  · rw [done] at needs
    cases needs
  · rw [done] at needs
    cases needs
  · rw [done] at failed
    cases failed

end StartingRecording

namespace Sample

def newsRecording : NewRecording := ⟨"data", "nhk", news, clock 1⟩

/-- The stream directory is there, without months. -/
def emptyStream : StartingRecording :=
  ⟨.new "data", true, fun _ => none, .makeDirectory false, .notStarted⟩

/-- The month directory has been made. -/
def madeMonth : StartingRecording :=
  (emptyStream.withMonth (newsRecording.directory crates) (some ∅)).withOpening (.createNew 0)

end Sample

namespace StartingRecording

theorem start_emptyStream : Start Sample.crates Sample.newsRecording Sample.emptyStream :=
  ⟨rfl, rfl, nofun⟩

theorem made_madeMonth : CallStep Sample.crates Sample.newsRecording Sample.emptyStream
    Sample.madeMonth :=
  .made false rfl rfl rfl

/-- A pass that starts while the call is about to open its file. -/
theorem starting_recording_is_unbroken_sample : ∃ state : StartingRecording,
    state.opening = .createNew 0 ∧ state.pass = .removingDirectories ∧
      Unbroken Sample.crates Sample.newsRecording state := by
  have start : Transition.Reachable (Start Sample.crates Sample.newsRecording)
      (Transition.Restricted (Step Sample.crates .padded Sample.newsRecording)
        (KeepsDirectory Sample.crates Sample.newsRecording)) Sample.emptyStream :=
    .initial start_emptyStream
  have made := start.next ⟨.call made_madeMonth, by
    rintro (needs | ⟨suffix, needs⟩) <;> cases needs⟩
  have begun := made.next ⟨.pass (.begin (Sample.clock 0).instant rfl), fun _ present => present⟩
  have walked := begun.next ⟨.pass (.filesRemoved _ _ rfl), fun _ present => present⟩
  exact ⟨_, rfl, rfl, starting_recording_is_unbroken walked⟩

/-- The pass removes the empty month directory that the call has just made. -/
theorem collection_breaks_starting_recording :
    ¬ ∀ (crates : Crates) (dates : DateParser) (recording : NewRecording)
      (state : StartingRecording), Transition.Reachable (Start crates recording)
        (Step crates dates recording) state → Unbroken crates recording state := by
  intro claim
  have start : Transition.Reachable (Start Sample.crates Sample.newsRecording)
      (Step Sample.crates .padded Sample.newsRecording) Sample.emptyStream :=
    .initial start_emptyStream
  have made := start.next (.call made_madeMonth)
  have begun := made.next (.pass (.begin (Sample.clock 0).instant rfl))
  have walked := begun.next (.pass (.filesRemoved _ _ rfl))
  have month : fileName (Sample.newsRecording.directory Sample.crates) = some "2026-07" := by
    decide +kernel
  have empty : Sample.madeMonth.months (Sample.newsRecording.directory Sample.crates) =
      some ∅ := by
    simp [Sample.madeMonth]
  have removed := walked.next (.pass (.removeDirectory _ "2026-07" rfl month
    (by decide +kernel) empty))
  have failed := removed.next (.call (.noDirectory 0 rfl (by simp)))
  exact (claim _ _ _ _ failed).succeeds _ rfl

end StartingRecording

end AribcapDb
