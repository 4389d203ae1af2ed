import AribcapDb.Archive.Writers
import AribcapDb.Foundation.Transition

/-! # Downloads of growing files

`raw_program` streams a file that the recorder may be writing to and that garbage collection may
unlink meanwhile. What a client has received is the beginning of the file, a finished download has
all that was there when it began, and it ends with a whole line unless the recorder was in the
middle of one or has failed there (`downloads_are_beginnings`). -/

namespace AribcapDb

/-- A response that streams an opened file. -/
structure Download where
  path : String
  /-- What the file held when it was opened. -/
  opened : List UInt8
  /-- What has been read. -/
  body : List UInt8
  /-- What the file holds after its path has gone. -/
  unlinked : Option (List UInt8)
  /-- The end of the file has been read. -/
  ended : Bool
  /-- A call was writing to the file by then, or one had failed to. -/
  torn : Prop
  /-- A call had failed while writing to the file before its path has gone. -/
  damaged : Prop
  /-- This process has created the file. -/
  own : Prop

namespace Download

/-- The download reads from a file with some content. -/
def Reads (files : FileSystem) (download : Download) (content : List UInt8) : Prop :=
  match download.unlinked with
  | some last => last = content
  | none => files download.path = some (.file content)

/-- A handle goes on leading to what its path has held. -/
def afterUnlink (path : String) (content : List UInt8) (damaged : Prop) (download : Download) :
    Download :=
  if download.path = path then
    { download with
      unlinked := some (download.unlinked.getD content)
      damaged := download.damaged ∨ download.unlinked = none ∧ damaged }
  else download

end Download

/-- The recorder with the downloads of its files. -/
structure Downloads extends ConcurrentRecorder where
  /-- The files that this process has created. -/
  recorded : Set String
  /-- The files that a call has failed to write to. -/
  damaged : Set String
  downloads : ℕ → Option Download

namespace Downloads

/-- A call is writing to the file of a download, or one has failed to. -/
def Interrupted (state : Downloads) (download : Download) : Prop :=
  match download.unlinked with
  | some _ => download.damaged
  | none => state.BeingWritten download.path ∨ download.path ∈ state.damaged

def withDownload (state : Downloads) (id : ℕ) (download : Download) : Downloads :=
  { state with downloads := Function.update state.downloads id (some download) }

@[simp] theorem downloads_withDownload (state : Downloads) (id : ℕ) (download : Download) :
    (state.withDownload id download).downloads id = some download :=
  Function.update_self ..

/-- The recorder, the unlinking and the downloads take turns. -/
inductive Step (crates : Crates) (reads : NaiveDateTime → Prop) (before : Downloads) :
    Downloads → Prop where
  | record (after : ConcurrentRecorder) :
      ConcurrentRecorder.Step crates reads before.toConcurrentRecorder after →
      Step crates reads before
        { before with
          toConcurrentRecorder := after
          recorded := before.recorded ∪ {path | after.files path ≠ before.files path} }
  /-- A call returns an error, and what it has written stays. -/
  | fail (id : ℕ) (after : ConcurrentRecorder) : before.toConcurrentRecorder.Fails id after →
      Step crates reads before
        { before with
          toConcurrentRecorder := after
          damaged := before.damaged ∪
            {path | ∃ call, before.calls id = some call ∧ call.writes = some path} }
  /-- A file that is not in use goes. -/
  | unlink (path : String) (content : List UInt8) :
      before.files path = some (.file content) → path ∉ before.store.activePaths →
      ¬ before.BeingWritten path →
      Step crates reads before
        { before with
          files := Function.update before.files path none
          recorded := before.recorded \ {path}
          damaged := before.damaged \ {path}
          downloads := fun id => (before.downloads id).map
            (Download.afterUnlink path content (path ∈ before.damaged)) }
  | openFile (id : ℕ) (path : String) (content : List UInt8) : before.downloads id = none →
      before.files path = some (.file content) →
      Step crates reads before
        (before.withDownload id
          ⟨path, content, [], none, false, False, False, path ∈ before.recorded⟩)
  | read (id : ℕ) (download : Download) (chunk rest : List UInt8) :
      before.downloads id = some download → download.ended = false →
      download.Reads before.files (download.body ++ (chunk ++ rest)) →
      Step crates reads before
        (before.withDownload id { download with body := download.body ++ chunk })
  | endOfFile (id : ℕ) (download : Download) :
      before.downloads id = some download → download.ended = false →
      download.Reads before.files download.body →
      Step crates reads before
        (before.withDownload id
          { download with ended := true, torn := before.Interrupted download })

/-- A recorder that has not yet written, and no downloads. -/
structure Start (state : Downloads) : Prop where
  idle : state.Idle
  inactive : state.store.activePaths = []
  recorded : state.recorded = ∅
  damaged : state.damaged = ∅
  downloads : ∀ id, state.downloads id = none

/-- Reached by any steps. -/
def Run (crates : Crates) (reads : NaiveDateTime → Prop) : Downloads → Prop :=
  Transition.Reachable Start (Step crates reads)

/-- What a download is of its file. -/
structure IsBeginning (files : FileSystem) (recorded : Set String) (download : Download) :
    Prop where
  content : ∃ content, download.Reads files content ∧ download.opened <+: content ∧
    download.body <+: content
  ended : download.ended = true → download.opened <+: download.body
  linked : download.own → download.unlinked = none → download.path ∈ recorded
  unlinked : download.own → ¬ download.damaged → ∀ content, download.unlinked = some content →
    Framing.residue newline content = []
  whole : download.ended = true → download.own → ¬ download.torn →
    Framing.residue newline download.body = []

/-- The invariant of a run. -/
structure Holds (state : Downloads) : Prop where
  lines : WritesLines state.toConcurrentRecorder state.recorded state.damaged
  downloads : ∀ id download, state.downloads id = some download →
    IsBeginning state.files state.recorded download

variable {crates : Crates} {reads : NaiveDateTime → Prop} {before after state : Downloads}
  {files : FileSystem} {recorded damaged : Set String} {download : Download} {path : String}
  {content : List UInt8}

/-- A handle leads to one content. -/
theorem reads_unique {first second : List UInt8} (one : download.Reads files first)
    (other : download.Reads files second) : first = second := by
  unfold Download.Reads at one other
  cases gone : download.unlinked with
  | some last =>
      rw [gone] at one other
      exact one.symm.trans other
  | none =>
      rw [gone] at one other
      rw [one] at other
      cases other
      rfl

/-- The recorder only adds to its files. -/
theorem grows_of_step {earlier later : ConcurrentRecorder}
    (stepped : ConcurrentRecorder.Step crates reads earlier later) :
    earlier.files.Grows later.files := by
  cases stepped with
  | enter _ _ _ _ _ _ | skip _ _ _ _ _ _ | lockAppend _ _ _ _ _ _ _ _ _ | mark _ _ _
  | lockOpen _ _ _ _ _ _ _ _ _ | register _ _ _ _ _ _ | deactivate _ _ =>
      exact .refl earlier.files
  | append _ path chunk _ _ => exact FileSystem.grows_append _ path chunk
  | create _ _ _ _ _ _ active _ _ free => exact FileSystem.grows_create free
  | write _ _ _ active chunk _ _ => exact FileSystem.grows_append _ active.path chunk

/-- A file that is not in use is none that a call depends on. -/
theorem lines_unlink {recorder : ConcurrentRecorder}
    (lines : WritesLines recorder recorded damaged)
    (inactive : path ∉ recorder.store.activePaths) (quiet : ¬ recorder.BeingWritten path) :
    WritesLines (recorder.withFiles (Function.update recorder.files path none))
      (recorded \ {path}) (damaged \ {path}) where
  single := lines.single
  unregistered := lines.unregistered
  active other member :=
    ⟨lines.active other member, fun same => inactive (Set.mem_singleton_iff.mp same ▸ member)⟩
  held id call other found writes :=
    ⟨lines.held id call other found writes, fun same =>
      quiet ⟨id, call, found, Set.mem_singleton_iff.mp same ▸ writes⟩⟩
  whole other member := by
    obtain ⟨content, present, ends, busy⟩ := lines.whole other member.1
    exact ⟨content, (Function.update_of_ne member.2 ..).trans present,
      fun idle sound => ends idle fun known => sound ⟨known, member.2⟩, busy⟩

namespace IsBeginning

/-- Files grow, and recorded ones stay. -/
theorem grow (beginning : IsBeginning files recorded download) {later : FileSystem}
    (grows : files.Grows later) {more : Set String} (kept : recorded ⊆ more) :
    IsBeginning later more download := by
  obtain ⟨content, reads, opened, body⟩ := beginning.content
  refine ⟨?_, beginning.ended, fun own linked => kept (beginning.linked own linked),
    beginning.unlinked, beginning.whole⟩
  unfold Download.Reads at reads ⊢
  cases gone : download.unlinked with
  | some last =>
      rw [gone] at reads
      exact ⟨content, reads, opened, body⟩
  | none =>
      rw [gone] at reads
      obtain ⟨more, present⟩ := grows _ _ reads
      exact ⟨content ++ more, present, opened.trans (List.prefix_append _ _),
        body.trans (List.prefix_append _ _)⟩

/-- The path of a file goes, and its handles stay. -/
theorem unlink (beginning : IsBeginning files recorded download)
    (present : files path = some (.file content))
    (whole : path ∈ recorded → path ∉ damaged → Framing.residue newline content = []) :
    IsBeginning (Function.update files path none) (recorded \ {path})
      (download.afterUnlink path content (path ∈ damaged)) := by
  obtain ⟨held, reads, opened, body⟩ := beginning.content
  unfold Download.afterUnlink
  split
  · next same =>
      subst same
      have left : download.unlinked.getD content = held := by
        unfold Download.Reads at reads
        cases gone : download.unlinked with
        | some last =>
            rw [gone] at reads
            exact reads
        | none =>
            rw [gone] at reads
            rw [present] at reads
            cases reads
            rfl
      refine ⟨⟨held, left, opened, body⟩, beginning.ended, fun _ linked => ?_,
        fun own sound last same => ?_, beginning.whole⟩
      · cases linked
      · obtain rfl := Option.some.inj same
        cases gone : download.unlinked with
        | some last => exact beginning.unlinked own (fun known => sound (.inl known)) last gone
        | none => exact whole (beginning.linked own gone) fun known => sound (.inr ⟨gone, known⟩)
  · next different =>
      refine ⟨⟨held, ?_, opened, body⟩, beginning.ended, fun own linked => ?_, beginning.unlinked,
        beginning.whole⟩
      · unfold Download.Reads at reads ⊢
        cases gone : download.unlinked with
        | some last =>
            rw [gone] at reads
            exact reads
        | none =>
            rw [gone] at reads
            exact (Function.update_of_ne different ..).trans reads
      · exact ⟨beginning.linked own linked, different⟩

end IsBeginning

namespace Holds

theorem start (started : Start state) : Holds state := by
  refine ⟨?_, fun id download found => ?_⟩
  · rw [started.recorded, started.damaged]
    exact .start started.idle started.inactive
  · rw [started.downloads] at found
    cases found

/-- A download goes on. -/
theorem withDownload (holds : Holds state) {id : ℕ}
    (beginning : IsBeginning state.files state.recorded download) :
    Holds (state.withDownload id download) := by
  refine ⟨holds.lines, fun other own found => ?_⟩
  by_cases same : other = id
  · subst same
    rw [downloads_withDownload] at found
    exact Option.some.inj found ▸ beginning
  · have known : (state.withDownload id download).downloads other = state.downloads other :=
      Function.update_of_ne same ..
    rw [known] at found
    exact holds.downloads other own found

/-- The end of a file is read. -/
theorem endOfFile (holds : Holds state) {id : ℕ} (found : state.downloads id = some download)
    (reads : download.Reads state.files download.body) :
    Holds (state.withDownload id
      { download with ended := true, torn := state.Interrupted download }) := by
  have beginning := holds.downloads id download found
  obtain ⟨held, readsHeld, opened, _⟩ := beginning.content
  have same := reads_unique readsHeld reads
  refine holds.withDownload ⟨⟨held, readsHeld, opened, same ▸ List.prefix_rfl⟩,
    fun _ => same ▸ opened, beginning.linked, beginning.unlinked, fun _ own untorn => ?_⟩
  dsimp only at untorn own ⊢
  unfold Interrupted at untorn
  cases gone : download.unlinked with
  | some last =>
      unfold Download.Reads at reads
      rw [gone] at reads untorn
      exact reads ▸ beginning.unlinked own untorn last gone
  | none =>
      obtain ⟨content, present, quiet, _⟩ := holds.lines.whole _ (beginning.linked own gone)
      unfold Download.Reads at reads
      rw [gone] at untorn
      rw [gone, present] at reads
      cases reads
      exact quiet (fun busy => untorn (.inl busy)) fun known => untorn (.inr known)

theorem step (holds : Holds before) (stepped : Step crates reads before after) : Holds after := by
  cases stepped with
  | record after stepped =>
      exact ⟨holds.lines.step stepped, fun id download found =>
        (holds.downloads id download found).grow (grows_of_step stepped) Set.subset_union_left⟩
  | fail id after failed =>
      have grows : before.files.Grows after.files := by
        rw [failed.unchanged.1]
        exact .refl before.files
      exact ⟨holds.lines.fails failed, fun other download found =>
        (holds.downloads other download found).grow grows subset_rfl⟩
  | unlink path content present inactive quiet =>
      refine ⟨lines_unlink holds.lines inactive quiet, fun id download found => ?_⟩
      obtain ⟨earlier, known, rfl⟩ := Option.map_eq_some_iff.mp found
      refine (holds.downloads id earlier known).unlink present fun member sound => ?_
      obtain ⟨held, there, ends, _⟩ := holds.lines.whole path member
      rw [present] at there
      cases there
      exact ends quiet sound
  | openFile id path content free present =>
      refine holds.withDownload ⟨⟨content, present, List.prefix_rfl, List.nil_prefix⟩, nofun,
        fun own _ => own, fun _ _ _ gone => ?_, nofun⟩
      cases gone
  | read id download chunk rest found running reads =>
      have beginning := holds.downloads id download found
      obtain ⟨held, readsHeld, opened, _⟩ := beginning.content
      refine holds.withDownload ⟨⟨held, readsHeld, opened, ?_⟩, fun ended => ?_, beginning.linked,
        beginning.unlinked, fun ended => ?_⟩
      · dsimp only
        rw [reads_unique readsHeld reads, ← List.append_assoc]
        exact List.prefix_append _ _
      · rw [running] at ended
        cases ended
      · rw [running] at ended
        cases ended
  | endOfFile id download found _ reads => exact holds.endOfFile found reads

theorem run (run : Run crates reads state) : Holds state := by
  refine Transition.Reachable.invariant ?_ ?_ run
  · intro state started
    exact .start started
  · intro before after _ holds stepped
    exact holds.step stepped

end Holds

/-- At any time a client has received the beginning of the file, in lines that are the first lines
of the file. A finished download has all that was there when it began; and when this process has
created the file, it ends with a whole line unless a call was writing to the file by then or one
had failed to. -/
theorem downloads_are_beginnings (run : Run crates reads state) {id : ℕ}
    (found : state.downloads id = some download) :
    (∃ content, download.Reads state.files content ∧ download.body <+: content ∧
      Framing.frames newline download.body <+: Framing.frames newline content) ∧
      (download.ended = true → download.opened <+: download.body) ∧
        (download.ended = true → download.own → ¬ download.torn →
          Framing.residue newline download.body = []) := by
  have beginning := (Holds.run run).downloads id download found
  obtain ⟨content, reads, _, body⟩ := beginning.content
  refine ⟨⟨content, reads, body, ?_⟩, beginning.ended, beginning.whole⟩
  obtain ⟨rest, rfl⟩ := body
  rw [Framing.frames_append]
  exact List.prefix_append _ _

/-- The recorder goes on while the downloads stay as they are. -/
theorem Run.records (run : Run crates reads state) {after : ConcurrentRecorder}
    (steps : Relation.ReflTransGen (ConcurrentRecorder.Step crates reads)
      state.toConcurrentRecorder after) :
    ∃ recorded, Run crates reads ⟨after, recorded, state.damaged, state.downloads⟩ := by
  induction steps with
  | refl => exact ⟨state.recorded, run⟩
  | tail _ stepped ih =>
      obtain ⟨recorded, run⟩ := ih
      exact ⟨_, run.next (.record _ stepped)⟩

/-- A file is created and read to its end. -/
theorem downloads_are_beginnings_sample : ∃ (state : Downloads) (download : Download),
    state.downloads 0 = some download ∧ download.body = lineBytes Sample.newsLine ∧
      download.opened <+: download.body := by
  let recorder : Recorder := ⟨.new "data", fun _ => none⟩
  let result := recorder.handleLineAt Sample.crates .success "nhk" Sample.newsLine (Sample.clock 1)
  have handled : result.1 = .ok (some (.programStarted Sample.newsPath)) :=
    eq_ok_of_toOption (by decide +kernel)
  have present : result.2.files Sample.newsPath = some (.file (lineBytes Sample.newsLine)) := by
    decide +kernel
  have start : Run Sample.crates (fun _ => True) ⟨.idle recorder, ∅, ∅, fun _ => none⟩ :=
    .initial ⟨fun _ => rfl, rfl, rfl, rfl, fun _ => rfl⟩
  obtain ⟨recorded, recording⟩ := start.records
    (ConcurrentRecorder.runs_handleLineAt (Prod.ext handled rfl) trivial)
  let content := lineBytes Sample.newsLine
  let download : Download :=
    ⟨Sample.newsPath, content, [], none, false, False, False, Sample.newsPath ∈ recorded⟩
  have opened := recording.next (.openFile 0 Sample.newsPath content rfl present)
  have received := opened.next
    (.read 0 download content [] (downloads_withDownload _ 0 download) rfl
      (by rw [List.append_nil]; exact present))
  obtain ⟨state, torn, ended⟩ : ∃ (state : Downloads) (torn : Prop),
      Run Sample.crates (fun _ => True)
        (state.withDownload 0 { download with body := content, ended := true, torn := torn }) :=
    ⟨_, _, received.next
      (.endOfFile 0 { download with body := content } (downloads_withDownload _ 0 _) rfl present)⟩
  have found := downloads_withDownload state 0
    { download with body := content, ended := true, torn := torn }
  exact ⟨_, _, found, rfl, (downloads_are_beginnings ended found).2.1 rfl⟩

end Downloads

end AribcapDb
