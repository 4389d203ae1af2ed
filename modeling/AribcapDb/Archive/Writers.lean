import AribcapDb.Archive.Concurrent
import AribcapDb.Foundation.Framing

/-! # The writers of recorded files

A file of the recorder has at most one writer at a time: the call that has created it, and after
its registration the call that holds the lock. Between two writers the file ends where a line
ends (`WritesLines.step`), unless a call has failed while writing to it (`WritesLines.fails`). -/

namespace AribcapDb

/-- The bytes that a call has left to write. -/
def HandleLine.left : HandleLine → List UInt8
  | .entered _ _ _ => []
  | .appending _ rest => rest
  | .opening _ _ _ _ => []
  | .writing _ _ _ rest => rest

/-- Bytes that end with the line terminator. -/
theorem residue_append_lineBytes (content : List UInt8) (line : String) :
    Framing.residue newline (content ++ lineBytes line) = [] := by
  rw [lineBytes, ← List.append_assoc, Framing.residue_frame_append, Framing.residue_nil]

/-- The recorded files of a recorder have single writers and, but for the damaged ones, consist of
lines. -/
structure WritesLines (state : ConcurrentRecorder) (recorded damaged : Set String) : Prop where
  single : ∀ id other call running path, state.calls id = some call →
    state.calls other = some running → call.writes = some path → running.writes = some path →
      id = other
  unregistered : ∀ id stream now active rest,
    state.calls id = some (.writing stream now active rest) →
      active.path ∉ state.store.activePaths
  active : ∀ path ∈ state.store.activePaths, path ∈ recorded
  held : ∀ id call path, state.calls id = some call → call.writes = some path → path ∈ recorded
  whole : ∀ path ∈ recorded, ∃ content, state.files path = some (.file content) ∧
    (¬ state.BeingWritten path → path ∉ damaged → Framing.residue newline content = []) ∧
      ∀ id call, state.calls id = some call → call.writes = some path →
        Framing.residue newline (content ++ call.left) = []

namespace WritesLines

open ConcurrentRecorder

variable {state : ConcurrentRecorder} {recorded damaged : Set String} {id : ℕ}

/-- The files of a recorder that has not yet written. -/
theorem start (idle : state.Idle) (inactive : state.store.activePaths = []) :
    WritesLines state ∅ ∅ where
  single _ _ _ _ _ found := absurd found (by simp [idle _])
  unregistered _ _ _ _ _ found := absurd found (by simp [idle _])
  active path member := by
    rw [inactive] at member
    cases member
  held _ _ _ found := absurd found (by simp [idle _])
  whole _ member := absurd member (Set.notMem_empty _)

/-- A call goes on without writing. -/
theorem passes (lines : WritesLines state recorded damaged) {call : Option HandleLine}
    (before : (state.calls id >>= HandleLine.writes) = none)
    (after : (call >>= HandleLine.writes) = none) :
    WritesLines (state.withCall id call) recorded damaged := by
  have old {other : ℕ} {running : HandleLine} {path : String}
      (found : (state.withCall id call).calls other = some running)
      (writes : running.writes = some path) : state.calls other = some running := by
    rcases calls_withCall found with old | ⟨_, own⟩
    · exact old
    · rw [own, Option.bind_eq_bind, Option.bind_some, writes] at after
      cases after
  refine ⟨?_, ?_, lines.active, ?_, ?_⟩
  · intro first second firstCall secondCall path here there writes also
    exact lines.single _ _ _ _ path (old here writes) (old there also) writes also
  · intro other stream now active rest found
    exact lines.unregistered _ _ _ _ _ (old found rfl)
  · intro other running path found writes
    exact lines.held _ _ _ (old found writes) writes
  · intro path member
    obtain ⟨content, present, quiet, busy⟩ := lines.whole path member
    refine ⟨content, present, ?_, ?_⟩
    · intro idle
      have busy : (state.withCall id call).BeingWritten path ↔ state.BeingWritten path :=
        beingWritten_withCall_iff (by rw [before, after])
      exact quiet (busy.not.mp idle)
    · intro other running found writes
      exact busy other running (old found writes) writes

/-- A call that does not write starts to write a line to a file that nobody writes to. -/
theorem opens (lines : WritesLines state recorded damaged) {call : HandleLine}
    {path line : String}
    (before : (state.calls id >>= HandleLine.writes) = none) (writes : call.writes = some path)
    (left : call.left = lineBytes line) (member : path ∈ recorded)
    (free : ¬ state.BeingWritten path)
    (new : ∀ stream now active rest, call = .writing stream now active rest →
      path ∉ state.store.activePaths) :
    WritesLines (state.withCall id (some call)) recorded damaged := by
  have alone {other : ℕ} {running : HandleLine}
      (found : (state.withCall id (some call)).calls other = some running)
      (also : running.writes = some path) : other = id ∧ running = call := by
    rcases calls_withCall found with old | ⟨same, own⟩
    · exact absurd ⟨other, running, old, also⟩ free
    · exact ⟨same, (Option.some.inj own).symm⟩
  have old {other : ℕ} {running : HandleLine} {target : String}
      (found : (state.withCall id (some call)).calls other = some running)
      (also : running.writes = some target) (different : target ≠ path) :
      state.calls other = some running := by
    rcases calls_withCall found with old | ⟨_, own⟩
    · exact old
    · cases own
      rw [writes, Option.some.injEq] at also
      exact absurd also.symm different
  refine ⟨?_, ?_, lines.active, ?_, ?_⟩
  · intro first second firstCall secondCall target here there one two
    by_cases same : target = path
    · subst same
      rw [(alone here one).1, (alone there two).1]
    · exact lines.single _ _ _ _ target (old here one same) (old there two same) one two
  · intro other stream now active rest found
    by_cases same : active.path = path
    · rw [same]
      exact new stream now active rest (alone found (congrArg some same)).2.symm
    · exact lines.unregistered _ _ _ _ _ (old found rfl same)
  · intro other running target found also
    by_cases same : target = path
    · exact same ▸ member
    · exact lines.held _ _ _ (old found also same) also
  · intro target recordedTarget
    obtain ⟨content, present, quiet, busy⟩ := lines.whole target recordedTarget
    refine ⟨content, present, ?_, ?_⟩
    · intro idle
      refine quiet fun busy => idle (busy.withCall _ ?_)
      rw [before]
      exact (Option.some_ne_none target).symm
    · intro other running found also
      by_cases same : target = path
      · subst same
        rw [(alone found also).2, left]
        exact residue_append_lineBytes content line
      · exact busy other running (old found also same) also

/-- A call writes some of the bytes that it has left. -/
theorem writes (lines : WritesLines state recorded damaged) {call next : HandleLine}
    {path : String} {chunk : List UInt8} (running : state.calls id = some call)
    (writing : call.writes = some path) (goesOn : next.writes = some path)
    (left : call.left = chunk ++ next.left)
    (new : ∀ stream now active rest, next = .writing stream now active rest →
      path ∉ state.store.activePaths) :
    WritesLines ((state.withFiles (state.files.append path chunk)).withCall id (some next))
      recorded damaged := by
  have old {other : ℕ} {found : HandleLine} {target : String}
      (there : ((state.withFiles (state.files.append path chunk)).withCall id
        (some next)).calls other = some found) (also : found.writes = some target) :
      (other = id ∧ found = next ∧ target = path) ∨ other ≠ id ∧ target ≠ path ∧
        state.calls other = some found := by
    by_cases same : other = id
    · subst same
      rw [calls_withCall_self] at there
      cases there
      exact .inl ⟨rfl, rfl, Option.some.inj (also.symm.trans goesOn)⟩
    · rw [calls_withCall_of_ne _ _ _ same, calls_withFiles] at there
      refine .inr ⟨same, ?_, there⟩
      rintro rfl
      exact same (lines.single _ _ _ _ _ there running also writing)
  refine ⟨?_, ?_, lines.active, ?_, ?_⟩
  · intro first second firstCall secondCall target here there one two
    rcases old here one with ⟨rfl, _, rfl⟩ | ⟨_, apart, here⟩
    · rcases old there two with ⟨rfl, _, _⟩ | ⟨_, apart, _⟩
      · rfl
      · exact absurd rfl apart
    · rcases old there two with ⟨_, _, same⟩ | ⟨_, _, there⟩
      · exact absurd same apart
      · exact lines.single _ _ _ _ target here there one two
  · intro other stream now active rest found
    rcases old found rfl with ⟨_, same, own⟩ | ⟨_, _, found⟩
    · rw [own]
      exact new stream now active rest same.symm
    · exact lines.unregistered _ _ _ _ _ found
  · intro other found target there also
    rcases old there also with ⟨_, _, rfl⟩ | ⟨_, _, there⟩
    · exact lines.held _ _ _ running writing
    · exact lines.held _ _ _ there also
  · intro target member
    obtain ⟨content, present, quiet, busy⟩ := lines.whole target member
    by_cases same : target = path
    · subst same
      refine ⟨content ++ chunk, ?_, ?_, ?_⟩
      · rw [files_withCall, files_withFiles, FileSystem.append_file present, Function.update_self]
      · intro idle
        exact absurd ⟨id, next, calls_withCall_self _ _ _, goesOn⟩ idle
      · intro other found there also
        rcases old there also with ⟨_, rfl, _⟩ | ⟨_, apart, _⟩
        · rw [List.append_assoc, ← left]
          exact busy id call running writing
        · exact absurd rfl apart
    · refine ⟨content, ?_, ?_, ?_⟩
      · rw [files_withCall, files_withFiles, FileSystem.append_other _ same, present]
      · intro idle
        refine quiet fun busy => idle (busy.withCall _ ?_)
        rw [running]
        exact fun own => same (Option.some.inj (own.symm.trans writing))
      · intro other found there also
        rcases old there also with ⟨_, _, own⟩ | ⟨_, _, there⟩
        · exact absurd own same
        · exact busy other found there also

/-- A call ends that has written all its bytes, or whose path is damaged. -/
theorem ends (lines : WritesLines state recorded damaged) {call : HandleLine}
    (running : state.calls id = some call)
    (done : ∀ path, call.writes = some path → call.left = [] ∨ path ∈ damaged) :
    WritesLines (state.withCall id none) recorded damaged := by
  have old {other : ℕ} {found : HandleLine}
      (there : (state.withCall id none).calls other = some found) :
      state.calls other = some found := by
    rcases calls_withCall there with old | ⟨_, none⟩
    · exact old
    · cases none
  refine ⟨?_, ?_, lines.active, ?_, ?_⟩
  · intro first second firstCall secondCall target here there one two
    exact lines.single _ _ _ _ target (old here) (old there) one two
  · intro other stream now active rest found
    exact lines.unregistered _ _ _ _ _ (old found)
  · intro other found target there also
    exact lines.held _ _ _ (old there) also
  · intro target member
    obtain ⟨content, present, quiet, busy⟩ := lines.whole target member
    refine ⟨content, present, ?_, ?_⟩
    · intro idle undamaged
      by_cases writing : call.writes = some target
      · have complete := busy id call running writing
        rwa [(done target writing).resolve_right undamaged, List.append_nil] at complete
      · refine quiet (fun busy => idle (busy.withCall _ ?_)) undamaged
        rw [running]
        exact writing
    · intro other found there also
      exact busy other found (old there) also

/-- A call has written all its bytes and ends. -/
theorem closes (lines : WritesLines state recorded damaged) {call : HandleLine} {path : String}
    (running : state.calls id = some call) (writing : call.writes = some path)
    (done : call.left = []) :
    WritesLines (state.withCall id none) recorded damaged ∧
      ¬ (state.withCall id none).BeingWritten path := by
  refine ⟨lines.ends running fun _ _ => .inl done, ?_⟩
  rintro ⟨other, found, there, also⟩
  rcases calls_withCall there with old | ⟨_, none⟩
  · have same := lines.single _ _ _ _ path old running also writing
    rw [same, calls_withCall_self] at there
    cases there
  · cases none

/-- The store changes, and every path that it makes active is recorded and not held. -/
theorem withStore (lines : WritesLines state recorded damaged) {store : ArchiveStore}
    (known : ∀ path ∈ store.activePaths, path ∈ state.store.activePaths ∨
      path ∈ recorded ∧ ¬ state.BeingWritten path) :
    WritesLines (state.withStore store) recorded damaged := by
  refine ⟨lines.single, ?_, ?_, lines.held, lines.whole⟩
  · intro id stream now active rest found member
    rcases known _ member with old | ⟨_, free⟩
    · exact lines.unregistered id stream now active rest found old
    · exact free ⟨id, _, found, rfl⟩
  · intro path member
    rcases known path member with old | ⟨new, _⟩
    · exact lines.active path old
    · exact new

/-- A file is created where nothing exists. -/
theorem create (lines : WritesLines state recorded damaged) {path : String}
    (free : state.files path = none) :
    path ∉ recorded ∧
      WritesLines (state.withFiles (state.files.create path)) (insert path recorded) damaged := by
  have new : path ∉ recorded := by
    intro member
    obtain ⟨content, present, _⟩ := lines.whole path member
    rw [free] at present
    cases present
  refine ⟨new, lines.single, lines.unregistered, ?_, ?_, ?_⟩
  · intro other member
    exact .inr (lines.active other member)
  · intro other call target found writes
    exact .inr (lines.held other call target found writes)
  · intro other member
    by_cases same : other = path
    · subst same
      refine ⟨[], Function.update_self .., fun _ _ => Framing.residue_nil newline, ?_⟩
      intro id call found writes
      exact absurd (lines.held id call other found writes) new
    · obtain ⟨content, present, quiet, busy⟩ := lines.whole other (member.resolve_left same)
      exact ⟨content, (FileSystem.create_other _ same).trans present, quiet, busy⟩

variable {crates : Crates} {reads : NaiveDateTime → Prop} {before after : ConcurrentRecorder}

/-- A step keeps single writers and whole lines, for the files it changes too. -/
theorem step (lines : WritesLines before recorded damaged)
    (stepped : Step crates reads before after) :
    WritesLines after (recorded ∪ {path | after.files path ≠ before.files path}) damaged := by
  have unchanged (same : after.files = before.files) (kept : WritesLines after recorded damaged) :
      WritesLines after (recorded ∪ {path | after.files path ≠ before.files path}) damaged := by
    have nothing : {path | after.files path ≠ before.files path} = ∅ := by simp [same]
    rwa [nothing, Set.union_empty]
  have grown {path : String} (member : path ∈ recorded)
      (others : ∀ other, other ≠ path → after.files other = before.files other)
      (kept : WritesLines after recorded damaged) :
      WritesLines after (recorded ∪ {path | after.files path ≠ before.files path}) damaged := by
    have inside : {path | after.files path ≠ before.files path} ⊆ recorded := by
      intro other changed
      by_cases same : other = path
      · exact same ▸ member
      · exact absurd (others other same) changed
    rwa [Set.union_eq_self_of_subset_right inside]
  cases stepped with
  | enter id stream line now free _ =>
      exact unchanged rfl (lines.passes (by rw [free]; rfl) rfl)
  | skip id stream line now entered _ =>
      exact unchanged rfl (lines.passes (by rw [entered]; rfl) rfl)
  | lockOpen id stream line now program entered _ _ _ =>
      exact unchanged rfl (lines.passes (by rw [entered]; rfl) rfl)
  | lockAppend id stream line now active entered unlocked found _ =>
      have listed : active.path ∈ before.store.activePaths :=
        (ArchiveStore.mem_activePaths _ _).mpr ⟨stream, active, found, rfl⟩
      refine unchanged rfl (lines.opens (by rw [entered]; rfl) rfl rfl (lines.active _ listed) ?_
        nofun)
      rintro ⟨other, running, there, writes⟩
      cases running with
      | entered _ _ _ | opening _ _ _ _ => cases writes
      | appending path rest => exact unlocked other path rest there
      | writing _ _ held _ =>
          apply lines.unregistered other _ _ _ _ there
          rwa [Option.some.inj writes]
  | append id path chunk rest appending =>
      exact grown (lines.held _ _ _ appending rfl)
        (fun other different => FileSystem.append_other _ different _)
        (lines.writes appending rfl rfl rfl nofun)
  | mark id path appending =>
      exact unchanged rfl ((lines.closes appending rfl rfl).1.withStore fun _ => .inl)
  | create id stream line now program suffix active opening _ free =>
      obtain ⟨new, created⟩ := lines.create free
      have opened : WritesLines ((before.withFiles (before.files.create active.path)).withCall id
          (some (.writing stream now active (lineBytes line)))) (insert active.path recorded)
          damaged := by
        refine created.opens (by rw [calls_withFiles, opening]; rfl) rfl rfl
          (Set.mem_insert _ _) ?_ ?_
        · rintro ⟨other, call, there, writes⟩
          exact new (lines.held other call _ there writes)
        · intro _ _ _ _ _ member
          exact new (lines.active _ member)
      have changed : recorded ∪ {path | before.files.create active.path path ≠
          before.files path} = insert active.path recorded := by
        ext path
        by_cases same : path = active.path
        · subst same
          simp [FileSystem.create, free]
        · simp [FileSystem.create_other _ same, same]
      exact changed ▸ opened
  | write id stream now active chunk rest writing =>
      refine grown (lines.held _ _ _ writing rfl)
        (fun other different => FileSystem.append_other _ different _)
        (lines.writes writing rfl rfl rfl ?_)
      intro _ _ _ _ _
      exact lines.unregistered id stream now active _ writing
  | register id stream now active writing _ =>
      obtain ⟨closed, free⟩ := lines.closes writing rfl rfl
      refine unchanged rfl (closed.withStore fun path member => ?_)
      rcases ArchiveStore.mem_activePaths_replaceActive _ _ _ member with own | old
      · exact .inr (own ▸ ⟨lines.held _ _ _ writing rfl, free⟩)
      · exact .inl old
  | deactivate stream _ =>
      apply unchanged rfl
      apply lines.withStore
      intro path member
      exact .inl (ArchiveStore.mem_activePaths_deactivateStream _ _ _ member)

/-- More paths may be damaged. -/
theorem damage (lines : WritesLines state recorded damaged) {more : Set String}
    (inside : damaged ⊆ more) : WritesLines state recorded more := by
  refine ⟨lines.single, lines.unregistered, lines.active, lines.held, fun path member => ?_⟩
  obtain ⟨content, present, quiet, busy⟩ := lines.whole path member
  exact ⟨content, present, fun idle sound => quiet idle fun known => sound (inside known), busy⟩

/-- A call that fails damages the file that it was writing to. -/
theorem fails (lines : WritesLines before recorded damaged) (failed : Fails before id after) :
    WritesLines after recorded
      (damaged ∪ {path | ∃ call, before.calls id = some call ∧ call.writes = some path}) := by
  cases failed with
  | fail call found =>
      exact (lines.damage Set.subset_union_left).ends found fun path writes =>
        .inr (.inr ⟨call, found, writes⟩)

end WritesLines

end AribcapDb
