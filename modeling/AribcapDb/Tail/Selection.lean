import AribcapDb.Archive.Naming
import AribcapDb.Foundation.Duplicates

/-! # Selecting streams

A command runs for streams of the configuration: for all of them in the order of their names, or
for those that it is given. What it runs for is what was selected, every stream once and with a
part of the archive that is its own; and a selection is refused for the first name in it that is
wrong (`selection_is_exact`). -/

namespace AribcapDb

/-- `config::StreamConfig`. -/
structure StreamConfig where
  label : Option String
  /-- The entries of the `BTreeMap`. -/
  vars : List (String × String)
  deriving DecidableEq, Repr

/-- The part of a `config::Config` that streams are resolved from. -/
structure Config where
  urlTemplate : String
  /-- The entries of the `BTreeMap`. -/
  streams : List (String × StreamConfig)
  /-- A `BTreeMap` has each key once and iterates in the order of its keys. -/
  sorted : (streams.map Prod.fst).Pairwise (· < ·)

/-- `config::ResolvedStream`. -/
structure ResolvedStream where
  name : String
  label : String
  url : String
  deriving DecidableEq, Repr

/-- The messages of an `anyhow::Error`, from the outermost context to the root cause. -/
abbrev ErrorChain := List String

namespace Config

variable (crate : SanitizeFilename)
  (renderUrlTemplate : String → List (String × String) → Except String String) (config : Config)

/-- `BTreeMap::get` of the streams. -/
def get (target : String) : Option StreamConfig :=
  (config.streams.find? fun entry => entry.1 = target).map Prod.snd

/-- `Config::resolve_stream_config`. -/
def resolveStreamConfig (target : String) (stream : StreamConfig) :
    Except ErrorChain ResolvedStream :=
  if target = "" then .error ["stream name must not be empty"]
  else
    let sanitizedTarget := crate.sanitize target
    if sanitizedTarget ≠ target then
      .error ["stream name '" ++ target ++
        "' is not usable as an archive path component (sanitized form: '" ++ sanitizedTarget ++
        "')"]
    else
      let label := stream.label.getD target
      match renderUrlTemplate config.urlTemplate stream.vars with
      | .error cause => .error ["failed to resolve stream '" ++ target ++ "'", cause]
      | .ok url => .ok ⟨target, label, url⟩

/-- `Config::resolve_stream`. -/
def resolveStream (target : String) : Except ErrorChain ResolvedStream :=
  match config.get target with
  | none => .error ["stream target '" ++ target ++ "' is not defined"]
  | some stream => config.resolveStreamConfig crate renderUrlTemplate target stream

/-- `Config::resolve_streams`. -/
def resolveStreams (targets : List String) : Except ErrorChain (List ResolvedStream) :=
  targets.mapM (config.resolveStream crate renderUrlTemplate)

/-- `Config::resolve_all_streams`. -/
def resolveAllStreams : Except ErrorChain (List ResolvedStream) :=
  if config.streams.isEmpty then .error ["config defines no streams"]
  else config.streams.mapM fun entry =>
    config.resolveStreamConfig crate renderUrlTemplate entry.1 entry.2

end Config

/-- `tail::resolve_targets`. -/
def resolveTargets (crate : SanitizeFilename)
    (renderUrlTemplate : String → List (String × String) → Except String String)
    (config : Config) (streams : List String) (all : Bool) :
    Except ErrorChain (List ResolvedStream) :=
  match all, streams.isEmpty with
  | true, true => config.resolveAllStreams crate renderUrlTemplate
  | true, false => .error ["use either --stream <NAME> or --all, not both"]
  | false, true => .error ["use --stream <NAME> or --all"]
  | false, false =>
      match Duplicates.firstDuplicate streams with
      | some duplicate => .error ["stream '" ++ duplicate ++ "' was specified more than once"]
      | none => config.resolveStreams crate renderUrlTemplate streams

section Traversal

variable {ε α β : Type} {make : α → Except ε β} {entries : List α}

/-- A traversal succeeds when it makes one value of each entry. -/
theorem mapM_eq_ok_iff {made : List β} : entries.mapM make = .ok made ↔
    List.Forall₂ (fun entry value => make entry = .ok value) entries made := by
  induction entries generalizing made with
  | nil =>
      rw [List.mapM_nil, List.forall₂_nil_left_iff]
      exact ⟨fun same => (Except.ok.inj same).symm, fun same => congrArg Except.ok same.symm⟩
  | cons entry rest ih =>
      rw [List.mapM_cons, List.forall₂_cons_left_iff]
      constructor
      · intro ran
        cases first : make entry with
        | error error =>
            rw [first] at ran
            cases ran
        | ok value =>
            cases others : rest.mapM make with
            | error error =>
                rw [first, others] at ran
                cases ran
            | ok values =>
                rw [first, others] at ran
                cases ran
                exact ⟨value, values, rfl, ih.mp others, rfl⟩
      · rintro ⟨value, values, first, others, rfl⟩
        rw [first, ih.mpr others]
        rfl

/-- A traversal that fails does so at the first entry that fails. -/
theorem first_failure_of_mapM {error : ε} (failed : entries.mapM make = .error error) :
    ∃ before entry after, entries = before ++ entry :: after ∧
      (∀ earlier ∈ before, ∃ value, make earlier = .ok value) ∧ make entry = .error error := by
  induction entries with
  | nil => cases failed
  | cons entry rest ih =>
      rw [List.mapM_cons] at failed
      cases first : make entry with
      | error own =>
          rw [first] at failed
          cases failed
          exact ⟨[], entry, rest, rfl, List.forall_mem_nil _, first⟩
      | ok value =>
          cases others : rest.mapM make with
          | ok values =>
              rw [first, others] at failed
              cases failed
          | error own =>
              rw [first, others] at failed
              cases failed
              obtain ⟨before, later, after, split, fine, wrong⟩ := ih others
              refine ⟨entry :: before, later, after, congrArg (entry :: ·) split, ?_, wrong⟩
              exact List.forall_mem_cons.mpr ⟨⟨value, first⟩, fine⟩

theorem mapM_congr {other : α → Except ε β} (same : ∀ entry ∈ entries, make entry = other entry) :
    entries.mapM make = entries.mapM other := by
  induction entries with
  | nil => rfl
  | cons entry rest ih =>
      obtain ⟨first, others⟩ := List.forall_mem_cons.mp same
      rw [List.mapM_cons, List.mapM_cons, first, ih others]

end Traversal

/-- A name stands for a stream of the configuration that can be recorded. -/
structure Config.Resolves (crate : SanitizeFilename)
    (renderUrlTemplate : String → List (String × String) → Except String String) (config : Config)
    (target : String) (resolved : ResolvedStream) : Prop where
  name : resolved.name = target
  valid : ConfigValid crate target
  entry : ∃ stream, (target, stream) ∈ config.streams ∧
    resolved.label = stream.label.getD target ∧
      renderUrlTemplate config.urlTemplate stream.vars = .ok resolved.url

section Selection

variable {crates : Crates}
  {renderUrlTemplate : String → List (String × String) → Except String String} {config : Config}
  {target : String} {stream : StreamConfig} {resolved : ResolvedStream}

/-- Every entry is the one of its name. -/
theorem get_eq_some_iff : config.get target = some stream ↔ (target, stream) ∈ config.streams := by
  have once : (config.streams.map Prod.fst).Nodup := config.sorted.imp ne_of_lt
  constructor
  · intro found
    obtain ⟨entry, first, rfl⟩ := Option.map_eq_some_iff.mp found
    have name : entry.1 = target := by simpa using List.find?_some first
    rw [← name]
    exact List.mem_of_find?_eq_some first
  · intro member
    have some : (config.streams.find? fun entry => entry.1 = target).isSome := by
      rw [List.find?_isSome]
      exact ⟨_, member, by simp⟩
    obtain ⟨entry, first⟩ := Option.isSome_iff_exists.mp some
    have name : entry.1 = target := by simpa using List.find?_some first
    have same : entry = (target, stream) :=
      List.inj_on_of_nodup_map once (List.mem_of_find?_eq_some first) member name
    rw [Config.get, first, same]
    rfl

/-- What is resolved are the streams that can be recorded. -/
theorem resolveStream_eq_ok_iff :
    config.resolveStream crates.sanitizeFilename renderUrlTemplate target = .ok resolved ↔
      config.Resolves crates.sanitizeFilename renderUrlTemplate target resolved := by
  constructor
  · intro ran
    unfold Config.resolveStream at ran
    split at ran
    · cases ran
    · next stream found =>
        unfold Config.resolveStreamConfig at ran
        dsimp only at ran
        split at ran
        · cases ran
        · next given =>
            split at ran
            · cases ran
            · next sanitized =>
                split at ran
                · cases ran
                · next url rendered =>
                    cases ran
                    exact ⟨rfl, ⟨given, not_not.mp sanitized⟩, stream, get_eq_some_iff.mp found,
                      rfl, rendered⟩
  · rintro ⟨rfl, ⟨given, sanitized⟩, stream, member, label, rendered⟩
    rw [Config.resolveStream, get_eq_some_iff.mpr member]
    simp [Config.resolveStreamConfig, given, sanitized, rendered, ← label]

/-- All streams are resolved as those of their names. -/
theorem resolveAllStreams_eq : config.resolveAllStreams crates.sanitizeFilename renderUrlTemplate =
    if config.streams.isEmpty then .error ["config defines no streams"]
    else config.resolveStreams crates.sanitizeFilename renderUrlTemplate
      (config.streams.map Prod.fst) := by
  have each : ∀ entry ∈ config.streams,
      config.resolveStreamConfig crates.sanitizeFilename renderUrlTemplate entry.1 entry.2 =
        config.resolveStream crates.sanitizeFilename renderUrlTemplate entry.1 := by
    intro entry member
    rw [Config.resolveStream, get_eq_some_iff.mpr member]
  rw [Config.resolveAllStreams, Config.resolveStreams, List.mapM_map, mapM_congr each]
  rfl

/-- Different streams record into different parts of the archive. -/
theorem name_eq_of_archivePath {dataDir first second : String}
    (firstValid : ConfigValid crates.sanitizeFilename first)
    (secondValid : ConfigValid crates.sanitizeFilename second) {program other : Program}
    {now later : NaiveDateTime} {suffix next : ℕ}
    (same : archivePath crates dataDir first program now suffix =
      archivePath crates dataDir second other later next) : first = second := by
  have left := streamMonthFilename_archivePath crates dataDir first program now suffix
  rw [same, streamMonthFilename_archivePath, firstValid.safeComponent_eq,
    secondValid.safeComponent_eq] at left
  exact (congrArg Prod.fst (Option.some.inj left)).symm

/-- The resolved streams are named in order. -/
theorem names_of_resolves {names : List String} {targets : List ResolvedStream}
    (resolves : List.Forall₂ (config.Resolves crates.sanitizeFilename renderUrlTemplate) names
      targets) :
    targets.map ResolvedStream.name = names ∧
      ∀ target ∈ targets, ConfigValid crates.sanitizeFilename target.name := by
  induction resolves with
  | nil => exact ⟨rfl, List.forall_mem_nil _⟩
  | cons first _ ih =>
      exact ⟨congrArg₂ List.cons first.name ih.1,
        List.forall_mem_cons.mpr ⟨first.name ▸ first.valid, ih.2⟩⟩

end Selection

/-- The names that a command is to run for. -/
def selectedNames (config : Config) (streams : List String) (all : Bool) : List String :=
  if all then config.streams.map Prod.fst else streams

/-- A selection is accepted as it is meant, and its streams do not share paths of the archive. -/
structure Accepted (crates : Crates)
    (renderUrlTemplate : String → List (String × String) → Except String String) (config : Config)
    (names : List String) (targets : List ResolvedStream) : Prop where
  nonempty : names ≠ []
  once : names.Nodup
  resolves : List.Forall₂ (config.Resolves crates.sanitizeFilename renderUrlTemplate) names targets
  apart : ∀ dataDir, ∀ first ∈ targets, ∀ second ∈ targets, ∀ program now suffix other later next,
    archivePath crates dataDir first.name program now suffix =
      archivePath crates dataDir second.name other later next → first = second

/-- A selection is refused for what is wrong with it first. -/
inductive Refused (crates : Crates)
    (renderUrlTemplate : String → List (String × String) → Except String String) (config : Config)
    (names : List String) : ErrorChain → Prop where
  | empty : names = [] →
      Refused crates renderUrlTemplate config names ["config defines no streams"]
  | twice (front rest : List String) (name : String) : names = front ++ name :: rest →
      front.Nodup → name ∈ front →
      Refused crates renderUrlTemplate config names
        ["stream '" ++ name ++ "' was specified more than once"]
  | wrong (front rest : List String) (name : String) (error : ErrorChain) :
      names = front ++ name :: rest → names.Nodup →
      (∀ earlier ∈ front, ∃ resolved,
        config.Resolves crates.sanitizeFilename renderUrlTemplate earlier resolved) →
      config.resolveStream crates.sanitizeFilename renderUrlTemplate name = .error error →
      Refused crates renderUrlTemplate config names error

section Outcome

variable {crates : Crates}
  {renderUrlTemplate : String → List (String × String) → Except String String} {config : Config}
  {names streams : List String} {all : Bool}

theorem accepted_iff (nonempty : names ≠ []) (once : names.Nodup) {targets : List ResolvedStream} :
    Accepted crates renderUrlTemplate config names targets ↔
      config.resolveStreams crates.sanitizeFilename renderUrlTemplate names = .ok targets := by
  rw [Config.resolveStreams, mapM_eq_ok_iff]
  simp only [resolveStream_eq_ok_iff]
  refine ⟨Accepted.resolves, fun resolves => ⟨nonempty, once, resolves, ?_⟩⟩
  intro dataDir first firstMember second secondMember program now suffix other later next same
  obtain ⟨named, valid⟩ := names_of_resolves resolves
  have equal : first.name = second.name :=
    name_eq_of_archivePath (valid first firstMember) (valid second secondMember) same
  exact List.inj_on_of_nodup_map (named ▸ once) firstMember secondMember equal

theorem refused_of_resolveStreams (once : names.Nodup) {error : ErrorChain}
    (failed : config.resolveStreams crates.sanitizeFilename renderUrlTemplate names =
      .error error) : Refused crates renderUrlTemplate config names error := by
  obtain ⟨front, name, rest, split, fine, wrong⟩ := first_failure_of_mapM failed
  refine .wrong front rest name error split once (fun earlier member => ?_) wrong
  exact (fine earlier member).imp fun _ => resolveStream_eq_ok_iff.mp

/-- One way of selecting streams leads to the streams that are named, or to the first thing that
is wrong with the names. -/
theorem resolveTargets_of_selected (crates : Crates) (selected : all = streams.isEmpty) :
    (∀ targets, resolveTargets crates.sanitizeFilename renderUrlTemplate config streams all =
        .ok targets ↔
          Accepted crates renderUrlTemplate config (selectedNames config streams all) targets) ∧
      ∀ error, resolveTargets crates.sanitizeFilename renderUrlTemplate config streams all =
        .error error →
          Refused crates renderUrlTemplate config (selectedNames config streams all) error := by
  cases all with
  | true =>
      have called : resolveTargets crates.sanitizeFilename renderUrlTemplate config streams true =
          config.resolveAllStreams crates.sanitizeFilename renderUrlTemplate := by
        simp only [resolveTargets, ← selected]
      have once : (config.streams.map Prod.fst).Nodup := config.sorted.imp ne_of_lt
      rw [called, resolveAllStreams_eq, selectedNames, if_pos rfl]
      by_cases some : config.streams = []
      · rw [some]
        refine ⟨fun targets => ⟨fun failed => ?_, fun accepted => absurd rfl accepted.nonempty⟩,
          fun error failed => ?_⟩
        · cases failed
        · cases failed
          exact .empty rfl
      · have given : config.streams.map Prod.fst ≠ [] := by simpa using some
        rw [if_neg (by simpa using some)]
        exact ⟨fun targets => (accepted_iff given once).symm,
          fun error => refused_of_resolveStreams once⟩
  | false =>
      have given : streams ≠ [] := by
        intro none
        rw [none] at selected
        cases selected
      rw [selectedNames, if_neg Bool.false_ne_true]
      cases found : Duplicates.firstDuplicate streams with
      | some name =>
          obtain ⟨front, rest, split, distinct, earlier⟩ :=
            Duplicates.firstDuplicate_eq_some_iff.mp found
          have called : resolveTargets crates.sanitizeFilename renderUrlTemplate config streams
              false = .error ["stream '" ++ name ++ "' was specified more than once"] := by
            simp only [resolveTargets, ← selected, found]
          rw [called]
          refine ⟨fun targets => ⟨fun failed => ?_, fun accepted => ?_⟩, fun error failed => ?_⟩
          · cases failed
          · rw [Duplicates.firstDuplicate_eq_none_iff.mpr accepted.once] at found
            cases found
          · cases failed
            exact .twice front rest name split distinct earlier
      | none =>
          have once := Duplicates.firstDuplicate_eq_none_iff.mp found
          have called : resolveTargets crates.sanitizeFilename renderUrlTemplate config streams
              false = config.resolveStreams crates.sanitizeFilename renderUrlTemplate streams := by
            simp only [resolveTargets, ← selected, found]
          rw [called]
          exact ⟨fun targets => (accepted_iff given once).symm,
            fun error => refused_of_resolveStreams once⟩

end Outcome

/-- A command runs for exactly the streams that were selected in one of two ways, and it is
refused for what is wrong first. -/
theorem selection_is_exact (crates : Crates)
    (renderUrlTemplate : String → List (String × String) → Except String String) (config : Config)
    (streams : List String) (all : Bool) :
    (∀ targets, resolveTargets crates.sanitizeFilename renderUrlTemplate config streams all =
        .ok targets ↔ all = streams.isEmpty ∧
          Accepted crates renderUrlTemplate config (selectedNames config streams all) targets) ∧
      ∀ error, resolveTargets crates.sanitizeFilename renderUrlTemplate config streams all =
        .error error → all = !streams.isEmpty ∨
          Refused crates renderUrlTemplate config (selectedNames config streams all) error := by
  by_cases selected : all = streams.isEmpty
  · obtain ⟨accepted, refused⟩ := resolveTargets_of_selected crates selected
    exact ⟨fun targets => (accepted targets).trans (and_iff_right selected).symm,
      fun error failed => .inr (refused error failed)⟩
  · have other : all = !streams.isEmpty := Bool.eq_not.mpr selected
    refine ⟨fun targets => ⟨fun ran => ?_, fun accepted => absurd accepted.1 selected⟩,
      fun _ _ => .inl other⟩
    unfold resolveTargets at ran
    rw [other] at ran
    cases given : streams.isEmpty with
    | true =>
        rw [given] at ran
        cases ran
    | false =>
        rw [given] at ran
        cases ran

end AribcapDb
