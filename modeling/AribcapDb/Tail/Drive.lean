import AribcapDb.Foundation.Transition

/-! # Driving tasks

`drive_tasks` waits for any number of tasks and for the shutdown, which complete in any order and
at any time. It is documented to end at the shutdown, at a task failure or when all tasks have
completed. What it returns is as documented in every run, but it does not always return: without
tasks the loop no longer looks at them, and waits for the shutdown alone
(`completed_tasks_are_not_noticed`). It gets there exactly when it handles the success of the last
task before the shutdown has resolved (`drive_tasks_outcome_iff`). -/

namespace AribcapDb

/-- `tokio::task::JoinError`. -/
inductive JoinError where
  | panicked
  | cancelled
  deriving DecidableEq, Repr

/-- The errors of tasks; a `JoinError` stands below the context `tail task failed`. -/
inductive TailError where
  | error (message : String)
  | tailTaskFailed (error : JoinError)
  deriving DecidableEq, Repr

/-- What a `JoinHandle` gives. -/
abbrev TaskResult := Except JoinError (Except TailError Unit)

/-- `flatten_task_result`. -/
def flattenTaskResult (result : TaskResult) : Except TailError Unit :=
  match result with
  | .error error => .error (.tailTaskFailed error)
  | .ok result => result

/-- Where `drive_tasks` stands. -/
inductive Driver where
  | selecting
  /-- In `abort_and_join`, with the tasks aborted. -/
  | joining (result : Except TailError Unit)
  | returned (result : Except TailError Unit)
  deriving DecidableEq

/-- What `select!` has handed to the loop. -/
inductive Handled where
  | shutdown (result : Except TailError Unit)
  | task (id : ℕ) (result : TaskResult)
  deriving DecidableEq

/-- The tasks, the shutdown and the loop, with a record of what it has handled. -/
structure DriveTasks where
  tasks : List ℕ
  /-- The tasks in the `FuturesUnordered`. -/
  outstanding : List ℕ
  completed : ℕ → Option TaskResult
  aborted : List ℕ
  shutdown : Option (Except TailError Unit)
  driver : Driver
  handled : List Handled

namespace DriveTasks

/-- What `tasks.next()` may give. -/
def Next (state : DriveTasks) : Option (ℕ × TaskResult) → Prop
  | none => state.outstanding = []
  | some (id, result) => id ∈ state.outstanding ∧ state.completed id = some result

/-- The steps of `drive_tasks`. The branch for the tasks is enabled while there are any. -/
inductive DriverStep (before : DriveTasks) : DriveTasks → Prop where
  | shutdown (result : Except TailError Unit) : before.driver = .selecting →
      before.shutdown = some result →
      DriverStep before
        { before with
          aborted := before.outstanding
          driver := .joining result
          handled := before.handled ++ [.shutdown result] }
  | success (id : ℕ) (result : TaskResult) : before.driver = .selecting →
      before.outstanding ≠ [] → before.Next (some (id, result)) →
      flattenTaskResult result = .ok () →
      DriverStep before
        { before with
          outstanding := before.outstanding.erase id
          handled := before.handled ++ [.task id result] }
  | failure (id : ℕ) (result : TaskResult) (error : TailError) : before.driver = .selecting →
      before.outstanding ≠ [] → before.Next (some (id, result)) →
      flattenTaskResult result = .error error →
      DriverStep before
        { before with
          outstanding := before.outstanding.erase id
          aborted := before.outstanding.erase id
          driver := .joining (.error error)
          handled := before.handled ++ [.task id result] }
  | noTask : before.driver = .selecting → before.outstanding ≠ [] → before.Next none →
      DriverStep before { before with driver := .returned (.ok ()) }
  | join (outcome : Except TailError Unit) (id : ℕ) (result : TaskResult) :
      before.driver = .joining outcome → before.Next (some (id, result)) →
      DriverStep before { before with outstanding := before.outstanding.erase id }
  | joined (outcome : Except TailError Unit) : before.driver = .joining outcome →
      before.Next none → DriverStep before { before with driver := .returned outcome }
  | timeout (outcome : Except TailError Unit) : before.driver = .joining outcome →
      DriverStep before { before with driver := .returned outcome }

/-- A step of `drive_tasks`, a task that completes, or the shutdown. Only an aborted task is
cancelled. -/
inductive Step (before : DriveTasks) : DriveTasks → Prop where
  | driver (after : DriveTasks) : before.DriverStep after → Step before after
  | complete (id : ℕ) (result : TaskResult) : before.completed id = none →
      (result = .error .cancelled → id ∈ before.aborted) →
      Step before
        { before with completed := Function.update before.completed id (some result) }
  | shutdown (result : Except TailError Unit) : before.shutdown = none →
      Step before { before with shutdown := some result }

/-- Any tasks, some of which may have completed, with the shutdown or without it. -/
structure Start (state : DriveTasks) : Prop where
  outstanding : state.outstanding = state.tasks
  aborted : state.aborted = []
  driver : state.driver = .selecting
  handled : state.handled = []

/-! ### The documented outcome -/

end DriveTasks

/-- The result that ends the waiting: that of the shutdown, or the failure of a task. -/
def Handled.decides : Handled → Option (Except TailError Unit)
  | .shutdown result => some result
  | .task _ result =>
      match flattenTaskResult result with
      | .ok () => none
      | .error error => some (.error error)

namespace DriveTasks

/-- The first failure or shutdown that has been handled. -/
def decision (state : DriveTasks) : Option (Except TailError Unit) :=
  state.handled.findSome? Handled.decides

/-- All tasks have completed, and none has failed. -/
def AllSucceeded (state : DriveTasks) : Prop :=
  ∀ id ∈ state.tasks, ∃ result, state.completed id = some result ∧
    flattenTaskResult result = .ok ()

/-- `drive_tasks` has the documented outcome. -/
structure DocumentedOutcome (state : DriveTasks) : Prop where
  /-- It returns the first failure, or the result of the shutdown if that is handled before. -/
  outcome : ∀ result decided, state.driver = .returned result → state.decision = some decided →
    result = decided
  /-- Otherwise it returns `Ok`, and only after all tasks have been handled. -/
  success : ∀ result, state.driver = .returned result → state.decision = none →
    result = .ok () ∧ ∀ id ∈ state.tasks, ∃ result, .task id result ∈ state.handled
  /-- Without a shutdown it returns `Ok` when all tasks complete successfully. -/
  completes : state.AllSucceeded → state.shutdown = none →
    ∀ result, state.driver = .returned result → result = .ok ()
  /-- When it stops, every task it has not handled has been aborted. -/
  aborted : state.driver ≠ .selecting →
    ∀ id ∈ state.tasks, (∃ result, .task id result ∈ state.handled) ∨ id ∈ state.aborted
  /-- It is not stuck when all tasks have completed without a shutdown. -/
  progress : (∀ id ∈ state.tasks, state.completed id ≠ none) → state.shutdown = none →
    (∀ result, state.driver ≠ .returned result) → ∃ after, state.DriverStep after

/-- The step does not handle the success of the only outstanding task before the shutdown has
resolved. -/
def KeepsTask (before after : DriveTasks) : Prop :=
  before.shutdown = none → ∀ id result, before.driver = .selecting → before.outstanding = [id] →
    before.completed id = some result → flattenTaskResult result = .ok () →
    after.outstanding = [id]

/-- The loop waits for the shutdown alone, which has not resolved. -/
def Stranded (state : DriveTasks) : Prop :=
  state.driver = .selecting ∧ state.outstanding = [] ∧ state.shutdown = none

/-- What holds in every run. -/
structure Records (state : DriveTasks) : Prop where
  known : ∀ id ∈ state.outstanding, id ∈ state.tasks
  shutdown : ∀ result, .shutdown result ∈ state.handled → state.shutdown = some result
  task : ∀ id result, .task id result ∈ state.handled →
    id ∈ state.tasks ∧ state.completed id = some result
  waiting : state.driver = .selecting → state.decision = none
  left : state.driver = .selecting →
    ∀ id ∈ state.tasks, id ∈ state.outstanding ∨ ∃ result, .task id result ∈ state.handled
  decided : ∀ result, state.driver = .joining result ∨ state.driver = .returned result →
    state.decision = some result
  aborted : state.driver ≠ .selecting →
    ∀ id ∈ state.tasks, (∃ result, .task id result ∈ state.handled) ∨ id ∈ state.aborted

section Runs

variable {before after state : DriveTasks}

theorem findSome_append_decides (handled : List Handled) (event : Handled)
    (undecided : handled.findSome? Handled.decides = none) :
    (handled ++ [event]).findSome? Handled.decides = event.decides := by
  rw [List.findSome?_append, undecided, Option.none_or, List.findSome?_singleton]

theorem decides_success {id : ℕ} {result : TaskResult}
    (success : flattenTaskResult result = .ok ()) : (Handled.task id result).decides = none := by
  simp only [Handled.decides, success]

theorem decides_failure {id : ℕ} {result : TaskResult} {error : TailError}
    (failed : flattenTaskResult result = .error error) :
    (Handled.task id result).decides = some (.error error) := by
  simp only [Handled.decides, failed]

namespace Records

theorem start (started : state.Start) : Records state where
  known id member := started.outstanding ▸ member
  shutdown result member := by
    rw [started.handled] at member
    cases member
  task id result member := by
    rw [started.handled] at member
    cases member
  waiting _ := by rw [decision, started.handled, List.findSome?_nil]
  left _ id member := .inl (started.outstanding ▸ member)
  decided result decided := by
    rw [started.driver] at decided
    rcases decided with decided | decided <;> cases decided
  aborted stopped := absurd started.driver stopped

/-- What has been handled after a task: the task has completed, as those before have. -/
theorem task_append (records : Records before) {other : ℕ} {outcome : TaskResult}
    (next : before.Next (some (other, outcome))) (id : ℕ) (result : TaskResult)
    (member : .task id result ∈ before.handled ++ [.task other outcome]) :
    id ∈ before.tasks ∧ before.completed id = some result := by
  rcases List.mem_append.mp member with earlier | last
  · exact records.task id result earlier
  · obtain ⟨rfl, rfl⟩ := Handled.task.inj (List.mem_singleton.mp last)
    exact ⟨records.known id next.1, next.2⟩

/-- A task that is handled does not touch the shutdown. -/
theorem shutdown_append (records : Records before) (other : ℕ) (outcome : TaskResult)
    (result : Except TailError Unit)
    (member : .shutdown result ∈ before.handled ++ [.task other outcome]) :
    before.shutdown = some result := by
  rcases List.mem_append.mp member with earlier | last
  · exact records.shutdown result earlier
  · cases List.mem_singleton.mp last

/-- After a task has been handled, the others are outstanding or have been handled. -/
theorem left_erase (records : Records before) (selecting : before.driver = .selecting)
    (other : ℕ) (outcome : TaskResult) (id : ℕ) (member : id ∈ before.tasks) :
    id ∈ before.outstanding.erase other ∨
      ∃ result, .task id result ∈ before.handled ++ [.task other outcome] := by
  rcases records.left selecting id member with here | ⟨earlier, found⟩
  · by_cases same : id = other
    · exact .inr ⟨outcome, by simp [same]⟩
    · exact .inl ((List.mem_erase_of_ne same).mpr here)
  · exact .inr ⟨earlier, List.mem_append_left _ found⟩

/-- What the loop has handled before it joins does not change until it returns. -/
theorem stopped (records : Records before) {outcome : Except TailError Unit}
    (joining : before.driver = .joining outcome) (outstanding : List ℕ) (driver : Driver)
    (known : ∀ id ∈ outstanding, id ∈ before.tasks)
    (same : driver = .joining outcome ∨ driver = .returned outcome) :
    Records { before with outstanding, driver } := by
  have stops : before.driver ≠ .selecting := by
    rw [joining]
    nofun
  have goes : driver ≠ .selecting := by
    rcases same with rfl | rfl <;> nofun
  refine ⟨known, records.shutdown, records.task, fun selecting => absurd selecting goes,
    fun selecting => absurd selecting goes, ?_, fun _ => records.aborted stops⟩
  intro result decided
  have outcome_eq : outcome = result := by
    rcases same with rfl | rfl <;> rcases decided with decided | decided <;> cases decided <;> rfl
  exact outcome_eq ▸ records.decided outcome (.inl joining)

theorem step (records : Records before) (stepped : Step before after) : Records after := by
  cases stepped with
  | complete id result unset _ =>
      refine ⟨records.known, records.shutdown, ?_, records.waiting, records.left, records.decided,
        records.aborted⟩
      intro other outcome member
      obtain ⟨known, completed⟩ := records.task other outcome member
      refine ⟨known, ?_⟩
      have different : other ≠ id := by
        rintro rfl
        rw [unset] at completed
        cases completed
      exact (Function.update_of_ne different _ _).trans completed
  | shutdown result unset =>
      refine ⟨records.known, ?_, records.task, records.waiting, records.left, records.decided,
        records.aborted⟩
      intro earlier member
      have resolved := records.shutdown earlier member
      rw [unset] at resolved
      cases resolved
  | driver after stepped =>
      cases stepped with
      | shutdown result selecting resolved =>
          have decides := findSome_append_decides before.handled (.shutdown result)
            (records.waiting selecting)
          refine ⟨records.known, ?_, ?_, nofun, nofun, ?_, ?_⟩
          · intro earlier member
            rcases List.mem_append.mp member with member | last
            · exact records.shutdown earlier member
            · cases List.mem_singleton.mp last
              exact resolved
          · intro id outcome member
            rcases List.mem_append.mp member with member | last
            · exact records.task id outcome member
            · cases List.mem_singleton.mp last
          · rintro outcome (joining | returned)
            · cases joining
              exact decides
            · cases returned
          · intro _ id member
            rcases records.left selecting id member with here | ⟨result, found⟩
            · exact .inr here
            · exact .inl ⟨result, List.mem_append_left _ found⟩
      | success id result selecting _ next success =>
          refine ⟨fun other member => records.known other (List.mem_of_mem_erase member),
            records.shutdown_append id result, records.task_append next, fun _ => ?_,
            fun _ => records.left_erase selecting id result, ?_,
            fun stopped => absurd selecting stopped⟩
          · exact (findSome_append_decides _ _ (records.waiting selecting)).trans
              (decides_success success)
          · rintro outcome (joining | returned)
            · cases selecting.symm.trans joining
            · cases selecting.symm.trans returned
      | failure id result error selecting _ next failed =>
          refine ⟨fun other member => records.known other (List.mem_of_mem_erase member),
            records.shutdown_append id result, records.task_append next, nofun, nofun, ?_,
            fun _ other member => (records.left_erase selecting id result other member).symm⟩
          rintro outcome (joining | returned)
          · cases joining
            exact (findSome_append_decides _ _ (records.waiting selecting)).trans
              (decides_failure failed)
          · cases returned
      | noTask _ some next => exact absurd next some
      | join outcome id result joining next =>
          exact records.stopped joining _ _
            (fun other member => records.known other (List.mem_of_mem_erase member)) (.inl joining)
      | joined outcome joining _ =>
          exact records.stopped joining _ _ records.known (.inr rfl)
      | timeout outcome joining =>
          exact records.stopped joining _ _ records.known (.inr rfl)

theorem run (reachable : Transition.Reachable Start Step state) : Records state :=
  reachable.invariant (fun _ started => start started)
    fun _ _ _ records stepped => records.step stepped

/-- When all tasks have succeeded and there is no shutdown, nothing has been decided. -/
theorem decision_eq_none (records : Records state) (succeeded : state.AllSucceeded)
    (noShutdown : state.shutdown = none) : state.decision = none := by
  rw [decision, List.findSome?_eq_none_iff]
  intro event member
  cases event with
  | shutdown result =>
      have resolved := records.shutdown result member
      rw [noShutdown] at resolved
      cases resolved
  | task id result =>
      obtain ⟨known, completed⟩ := records.task id result member
      obtain ⟨outcome, also, success⟩ := succeeded id known
      rw [completed, Option.some.injEq] at also
      exact decides_success (also ▸ success)

/-- Unless the loop waits for the shutdown alone, there is a step when all tasks have completed. -/
theorem progress (records : Records state) (goes : ¬ state.Stranded)
    (complete : ∀ id ∈ state.tasks, state.completed id ≠ none) (noShutdown : state.shutdown = none)
    (running : ∀ result, state.driver ≠ .returned result) : ∃ after, state.DriverStep after := by
  cases driver : state.driver with
  | selecting =>
      have busy : state.outstanding ≠ [] := fun empty => goes ⟨driver, empty, noShutdown⟩
      obtain ⟨id, member⟩ := List.exists_mem_of_ne_nil _ busy
      obtain ⟨result, completed⟩ := Option.ne_none_iff_exists'.mp
        (complete id (records.known id member))
      have next : state.Next (some (id, result)) := ⟨member, completed⟩
      cases flat : flattenTaskResult result with
      | ok _ => exact ⟨_, .success id result driver busy next flat⟩
      | error error => exact ⟨_, .failure id result error driver busy next flat⟩
  | joining outcome => exact ⟨_, .timeout outcome driver⟩
  | returned outcome => exact absurd driver (running outcome)

/-- While the loop waits for the shutdown alone, all tasks have completed and it has no step. -/
theorem not_documentedOutcome (records : Records state) (stranded : state.Stranded) :
    ¬ DocumentedOutcome state := by
  obtain ⟨selecting, empty, noShutdown⟩ := stranded
  intro documented
  have complete : ∀ id ∈ state.tasks, state.completed id ≠ none := by
    intro id member
    rcases records.left selecting id member with here | ⟨result, handled⟩
    · rw [empty] at here
      cases here
    · rw [(records.task id result handled).2]
      nofun
  have running : ∀ result, state.driver ≠ .returned result := by
    rw [selecting]
    nofun
  obtain ⟨after, stepped⟩ := documented.progress complete noShutdown running
  cases stepped with
  | shutdown result _ resolved => cases noShutdown.symm.trans resolved
  | success _ _ _ busy _ _ => exact busy empty
  | failure _ _ _ _ busy _ _ => exact busy empty
  | noTask _ busy _ => exact busy empty
  | join outcome _ _ joining _ => cases selecting.symm.trans joining
  | joined outcome joining _ => cases selecting.symm.trans joining
  | timeout outcome joining => cases selecting.symm.trans joining

/-- The outcome is the documented one in every state but those where the loop waits for the
shutdown alone. -/
theorem documentedOutcome_iff (records : Records state) :
    DocumentedOutcome state ↔ ¬ state.Stranded := by
  refine ⟨fun documented stranded => records.not_documentedOutcome stranded documented,
    fun goes => ?_⟩
  have some : ∀ result, state.driver = .returned result → state.decision = some result :=
    fun result returned => records.decided result (.inr returned)
  refine ⟨?_, ?_, ?_, records.aborted, records.progress goes⟩
  · intro result decided returned decision
    exact Option.some.inj ((some result returned).symm.trans decision)
  · intro result returned undecided
    cases (some result returned).symm.trans undecided
  · intro succeeded noShutdown result returned
    cases (some result returned).symm.trans (records.decision_eq_none succeeded noShutdown)

end Records

/-- A step leads to a state where the loop waits for the shutdown alone only from such a state, or
by handling the last success. -/
theorem stranded_of_step (stepped : Step before after) (stranded : after.Stranded) :
    before.Stranded ∨ ¬ KeepsTask before after := by
  obtain ⟨selecting, empty, noShutdown⟩ := stranded
  cases stepped with
  | complete _ _ _ _ => exact .inl ⟨selecting, empty, noShutdown⟩
  | shutdown result _ => cases noShutdown
  | driver after stepped =>
      cases stepped with
      | shutdown _ _ _ => cases selecting
      | failure _ _ _ _ _ _ _ => cases selecting
      | noTask _ _ _ => cases selecting
      | joined _ _ _ => cases selecting
      | timeout _ _ => cases selecting
      | join outcome _ _ joining _ => cases selecting.symm.trans joining
      | success id result _ some next success =>
          refine .inr fun keeps => ?_
          -- only the last task leaves nothing behind
          have last : before.outstanding = [id] :=
            (List.erase_eq_nil_iff.mp empty).resolve_left some
          have kept := keeps noShutdown id result selecting last next.2 success
          cases kept.symm.trans empty

/-- In runs that start with a task or a shutdown and keep a task, the loop never waits for the
shutdown alone before it has resolved. -/
theorem not_stranded (reachable : Transition.Reachable
    (fun state => Start state ∧ (state.tasks ≠ [] ∨ state.shutdown ≠ none))
    (Transition.Restricted Step KeepsTask) state) : ¬ state.Stranded := by
  induction reachable with
  | initial start =>
      obtain ⟨started, some | resolved⟩ := start
      · exact fun stranded => some (started.outstanding.symm.trans stranded.2.1)
      · exact fun stranded => resolved stranded.2.2
  | next _ stepped goes =>
      intro stranded
      rcases stranded_of_step stepped.1 stranded with already | loses
      · exact goes already
      · exact loses stepped.2

/-- The success of the last task leaves the loop with the shutdown alone. -/
theorem stranded_of_not_keepsTask (stepped : Step before after) (loses : ¬ KeepsTask before after) :
    after.Stranded := by
  simp only [KeepsTask, not_forall] at loses
  obtain ⟨noShutdown, id, result, selecting, last, completed, success, changed⟩ := loses
  cases stepped with
  | complete _ _ _ _ => exact absurd last changed
  | shutdown _ _ => exact absurd last changed
  | driver after stepped =>
      cases stepped with
      | shutdown _ _ _ => exact absurd last changed
      | noTask _ _ _ => exact absurd last changed
      | joined _ _ _ => exact absurd last changed
      | timeout _ _ => exact absurd last changed
      | join outcome _ _ joining _ => cases selecting.symm.trans joining
      | failure other otherResult error _ _ next failed =>
          obtain ⟨member, also⟩ := next
          rw [last, List.mem_singleton] at member
          rw [member, completed, Option.some.injEq] at also
          rw [← also, success] at failed
          cases failed
      | success other otherResult _ _ next _ =>
          have same : other = id := by
            have member := next.1
            rwa [last, List.mem_singleton] at member
          exact ⟨selecting, by simp [last, same], noShutdown⟩

end Runs

/-- In a run that starts with a task or a resolved shutdown, and never handles the success of the
only outstanding task before the shutdown has resolved, `drive_tasks` has the documented outcome
in every state. At a start with neither, or when that success is handled, it has not. -/
theorem drive_tasks_outcome_iff (state : DriveTasks) :
    (Transition.Reachable
      (fun state => Start state ∧ (state.tasks ≠ [] ∨ state.shutdown ≠ none))
      (Transition.Restricted Step KeepsTask) state → DocumentedOutcome state) ∧
    (Start state → state.tasks = [] → state.shutdown = none → ¬ DocumentedOutcome state) ∧
    ∀ after, Transition.Reachable Start Step state → Step state after →
      ¬ KeepsTask state after → ¬ DocumentedOutcome after := by
  refine ⟨?_, ?_, ?_⟩
  · intro reachable
    have run : Transition.Reachable Start Step state := by
      refine reachable.unrestricted.invariant (fun _ started => .initial started.1) ?_
      intro before after _ ran stepped
      exact .next ran stepped
    exact (Records.run run).documentedOutcome_iff.mpr (not_stranded reachable)
  · intro started empty noShutdown
    exact (Records.start started).not_documentedOutcome
      ⟨started.driver, started.outstanding.trans empty, noShutdown⟩
  · intro after reachable stepped loses
    exact ((Records.run reachable).step stepped).not_documentedOutcome
      (stranded_of_not_keepsTask stepped loses)

end DriveTasks

namespace Sample

/-- One task, which has completed, and no shutdown. -/
def oneTask : DriveTasks where
  tasks := [0]
  outstanding := [0]
  completed _ := some (.ok (.ok ()))
  aborted := []
  shutdown := none
  driver := .selecting
  handled := []

/-- A task that has succeeded, one that has panicked, and one that is still running. -/
def threeTasks : DriveTasks where
  tasks := [0, 1, 2]
  outstanding := [0, 1, 2]
  completed
    | 0 => some (.ok (.ok ()))
    | 1 => some (.error .panicked)
    | _ => none
  aborted := []
  shutdown := none
  driver := .selecting
  handled := []

/-- The loop has handled the success and the panic. -/
def panicHandled : DriveTasks :=
  { threeTasks with
    outstanding := [2]
    aborted := [2]
    driver := .joining (.error (.tailTaskFailed .panicked))
    handled := [.task 0 (.ok (.ok ())), .task 1 (.error .panicked)] }

/-- Afterwards the aborted task is cancelled, and a shutdown comes too late. -/
def panicReturned : DriveTasks :=
  { panicHandled with
    completed := Function.update panicHandled.completed 2 (some (.error .cancelled))
    shutdown := some (.ok ())
    outstanding := []
    driver := .returned (.error (.tailTaskFailed .panicked)) }

end Sample

namespace DriveTasks

/-- One of three tasks succeeds, another panics, and the third is aborted. -/
theorem drive_tasks_outcome_iff_sample : DocumentedOutcome Sample.panicReturned := by
  have start : Transition.Reachable
      (fun state => Start state ∧ (state.tasks ≠ [] ∨ state.shutdown ≠ none))
      (Transition.Restricted Step KeepsTask) Sample.threeTasks :=
    .initial ⟨⟨rfl, rfl, rfl, rfl⟩, .inl (List.cons_ne_nil _ _)⟩
  have keeps : ∀ (state after : DriveTasks), state.outstanding.length ≠ 1 ∨
      state.driver ≠ .selecting → KeepsTask state after := by
    intro state after many _ id _ selecting last _ _
    rcases many with many | stopped
    · exact absurd (congrArg List.length last) many
    · exact absurd selecting stopped
  have success := start.next ⟨.driver _ (.success 0 (.ok (.ok ())) rfl (List.cons_ne_nil _ _)
    ⟨by decide, rfl⟩ rfl), keeps _ _ (.inl (by decide))⟩
  have panic := success.next ⟨.driver _ (.failure 1 (.error .panicked)
    (.tailTaskFailed .panicked) rfl (by decide) ⟨by decide, rfl⟩ rfl),
    keeps _ _ (.inl (by decide))⟩
  have cancelled := panic.next ⟨.complete 2 (.error .cancelled) rfl (fun _ => by decide),
    keeps _ _ (.inr (by decide))⟩
  have late := cancelled.next ⟨.shutdown (.ok ()) rfl, keeps _ _ (.inr (by decide))⟩
  have joined := late.next ⟨.driver _ (.join _ 2 (.error .cancelled) rfl ⟨by decide, rfl⟩),
    keeps _ _ (.inr (by decide))⟩
  have returned := joined.next ⟨.driver _ (.joined _ rfl rfl), keeps _ _ (.inr (by decide))⟩
  exact (drive_tasks_outcome_iff _).1 returned

/-- The only task completes, and the loop waits for a shutdown that never comes. -/
theorem completed_tasks_are_not_noticed : ¬ ∀ state,
    Transition.Reachable Start Step state → DocumentedOutcome state := by
  intro claim
  have start : Transition.Reachable Start Step Sample.oneTask := .initial ⟨rfl, rfl, rfl, rfl⟩
  have handled := start.next (.driver _ (.success 0 (.ok (.ok ())) rfl (List.cons_ne_nil _ _)
    ⟨by decide, rfl⟩ rfl))
  exact (Records.run handled).not_documentedOutcome ⟨rfl, rfl, rfl⟩ (claim _ handled)

end DriveTasks

end AribcapDb
