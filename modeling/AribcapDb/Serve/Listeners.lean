import AribcapDb.Foundation.Duplicates
import AribcapDb.Tail.Drive

/-! # The HTTP listeners

`run_http_listeners` spawns one task for each configured address and restarts a task that ends.
Which address a task was for is looked up by the id of the task, which the runtime may use again
once the task has been joined. The lookup never fails, and until a shutdown every address has
exactly one task (`every_address_keeps_its_listener`). -/

namespace AribcapDb

variable {SocketAddr : Type} [DecidableEq SocketAddr]

/-- `config::ListenAddr`. -/
inductive ListenAddr (SocketAddr : Type) where
  | tcp (addr : SocketAddr)
  | unixSocket (path : String)
  deriving DecidableEq, Repr

/-- `impl Display for ListenAddr`; `display` is that of the socket addresses. -/
def ListenAddr.toText (display : SocketAddr → String) : ListenAddr SocketAddr → String
  | .tcp addr => display addr
  | .unixSocket path => "unix:" ++ path

/-- `resolve_listen_addrs`; `addrs` is `[serve].addrs`, when there is such a section. -/
def resolveListenAddrs (display : SocketAddr → String) (defaultListen : SocketAddr)
    (addrs : Option (List (ListenAddr SocketAddr))) :
    Except String (List (ListenAddr SocketAddr)) :=
  let addrs :=
    match addrs with
    | some (addr :: addrs) => addr :: addrs
    | _ => [.tcp defaultListen]
  match Duplicates.firstDuplicate addrs with
  | some duplicate =>
      .error ("duplicate [serve].addrs entry: " ++ duplicate.toText display)
  | none => .ok addrs

/-- What is resolved has no duplicates, and there is something to listen on. -/
theorem resolveListenAddrs_ok {display : SocketAddr → String} {defaultListen : SocketAddr}
    {configured : Option (List (ListenAddr SocketAddr))} {addrs : List (ListenAddr SocketAddr)}
    (resolved : resolveListenAddrs display defaultListen configured = .ok addrs) :
    addrs.Nodup ∧ addrs ≠ [] := by
  unfold resolveListenAddrs at resolved
  dsimp only at resolved
  split at resolved
  · cases resolved
  · next distinct =>
      rw [← Except.ok.inj resolved]
      refine ⟨Duplicates.firstDuplicate_eq_none_iff.mp distinct, ?_⟩
      split
      · exact List.cons_ne_nil _ _
      · exact List.cons_ne_nil _ _

/-- Where `run_http_listeners` stands. -/
inductive ListenersPhase (SocketAddr : Type) where
  /-- The first tasks are being spawned. -/
  | spawning (left : List (ListenAddr SocketAddr))
  | selecting
  /-- `drain_after_shutdown`. -/
  | draining
  | returned
  /-- A joined task was not in `addr_by_id`. -/
  | panicked

/-- The `JoinSet`, the map `addr_by_id` and the tasks. -/
structure HttpListeners (SocketAddr : Type) where
  phase : ListenersPhase SocketAddr
  /-- The ids of the tasks in the set. -/
  set : List ℕ
  addrById : ℕ → Option (ListenAddr SocketAddr)
  /-- The address that the task in the set was spawned for. -/
  listens : ℕ → ListenAddr SocketAddr
  /-- The tasks that have ended, and how. -/
  ended : ℕ → Option (Except JoinError Unit)
  shutdown : Bool

namespace HttpListeners

omit [DecidableEq SocketAddr]

/-- A task is spawned for an address, and tracked. -/
def spawn (state : HttpListeners SocketAddr) (id : ℕ) (addr : ListenAddr SocketAddr) :
    HttpListeners SocketAddr :=
  { state with
    set := id :: state.set
    addrById := Function.update state.addrById id (some addr)
    listens := Function.update state.listens id addr
    ended := Function.update state.ended id none }

/-- A task is joined. -/
def join (state : HttpListeners SocketAddr) (id : ℕ) : HttpListeners SocketAddr :=
  { state with set := state.set.erase id }

/-- The address of a task is taken from the map. -/
def untrack (state : HttpListeners SocketAddr) (id : ℕ) : HttpListeners SocketAddr :=
  { state with addrById := Function.update state.addrById id none }

def withPhase (state : HttpListeners SocketAddr) (phase : ListenersPhase SocketAddr) :
    HttpListeners SocketAddr :=
  { state with phase }

/-- The steps of `run_http_listeners` and its tasks, any of which may end or panic. The id of a
new task is that of no other task in the set. -/
inductive Step (before : HttpListeners SocketAddr) : HttpListeners SocketAddr → Prop where
  | spawn (id : ℕ) (addr : ListenAddr SocketAddr) (left : List (ListenAddr SocketAddr)) :
      before.phase = .spawning (addr :: left) → id ∉ before.set →
      Step before ((before.spawn id addr).withPhase (.spawning left))
  | spawned : before.phase = .spawning [] → Step before (before.withPhase .selecting)
  | ends (id : ℕ) (result : Except JoinError Unit) : id ∈ before.set → before.ended id = none →
      Step before { before with ended := Function.update before.ended id (some result) }
  | requestShutdown : Step before { before with shutdown := true }
  | drain : before.phase = .selecting → before.shutdown = true →
      Step before (before.withPhase .draining)
  /-- A task is joined after the shutdown was requested and before the loop has seen it. -/
  | ignore (id : ℕ) : before.phase = .selecting → id ∈ before.set → before.ended id ≠ none →
      before.shutdown = true → Step before (before.join id)
  | restart (id new : ℕ) (addr : ListenAddr SocketAddr) : before.phase = .selecting →
      id ∈ before.set → before.ended id ≠ none → before.shutdown = false →
      before.addrById id = some addr → new ∉ before.set.erase id →
      Step before (((before.join id).untrack id).spawn new addr)
  | untracked (id : ℕ) : before.phase = .selecting → id ∈ before.set → before.ended id ≠ none →
      before.shutdown = false → before.addrById id = none →
      Step before (before.withPhase .panicked)
  | drained (id : ℕ) : before.phase = .draining → id ∈ before.set → before.ended id ≠ none →
      Step before ((before.join id).untrack id)
  | finish : before.phase = .draining → before.set = [] →
      Step before (before.withPhase .returned)

/-- `run_http_listeners` is called with some addresses. -/
structure Start (addrs : List (ListenAddr SocketAddr)) (state : HttpListeners SocketAddr) :
    Prop where
  phase : state.phase = .spawning addrs
  set : state.set = []

/-- The addresses that tasks in the set listen on. -/
def listening (state : HttpListeners SocketAddr) : List (ListenAddr SocketAddr) :=
  state.set.map state.listens

/-- Which addresses have a task in a phase, or are to have one soon. -/
def Serves (addrs : List (ListenAddr SocketAddr)) (shutdown : Bool) (set : List ℕ)
    (listening : List (ListenAddr SocketAddr)) : ListenersPhase SocketAddr → Prop
  | .spawning left => (listening ++ left).Perm addrs
  | .selecting => shutdown = false → listening.Perm addrs
  | .draining => shutdown = true
  | .returned => shutdown = true ∧ set = []
  | .panicked => False

/-- The invariant of `run_http_listeners`. -/
structure Tracked (addrs : List (ListenAddr SocketAddr)) (state : HttpListeners SocketAddr) :
    Prop where
  once : state.set.Nodup
  tracked : ∀ id ∈ state.set, state.addrById id = some (state.listens id)
  /-- No address has two tasks. -/
  distinct : state.listening.Subperm addrs
  serves : Serves addrs state.shutdown state.set state.listening state.phase

section Listening

variable {state : HttpListeners SocketAddr} {id : ℕ}

/-- A new task adds its address, whatever task its id belonged to before. -/
theorem listening_spawn (fresh : id ∉ state.set) (addr : ListenAddr SocketAddr) :
    (state.spawn id addr).listening = addr :: state.listening := by
  change Function.update state.listens id addr id ::
    state.set.map (Function.update state.listens id addr) = addr :: state.set.map state.listens
  rw [Function.update_self]
  congr 1
  apply List.map_congr_left
  intro other member
  have different : other ≠ id := by
    rintro rfl
    exact fresh member
  rw [Function.update_of_ne different]

/-- A task that is joined takes its address with it. -/
theorem listening_join (member : id ∈ state.set) :
    state.listening.Perm (state.listens id :: (state.join id).listening) := by
  have split := (List.perm_cons_erase member).map state.listens
  rwa [List.map_cons] at split

end Listening

namespace Tracked

variable {addrs : List (ListenAddr SocketAddr)} {before after state : HttpListeners SocketAddr}

theorem start (started : state.Start addrs) : Tracked addrs state := by
  obtain ⟨phase, set⟩ := started
  refine ⟨by simp [set], by simp [set], ?_, ?_⟩
  · simp [listening, set]
  · rw [phase]
    simp [Serves, listening, set]

/-- The map knows the new task, and still knows the others. -/
theorem spawn_tracked (tracked : ∀ id ∈ state.set, state.addrById id = some (state.listens id))
    (id : ℕ) (addr : ListenAddr SocketAddr) : ∀ other ∈ (state.spawn id addr).set,
      (state.spawn id addr).addrById other = some ((state.spawn id addr).listens other) := by
  intro other member
  change Function.update state.addrById id (some addr) other =
    some (Function.update state.listens id addr other)
  by_cases same : other = id
  · rw [same, Function.update_self, Function.update_self]
  · rw [Function.update_of_ne same, Function.update_of_ne same]
    exact tracked other ((List.mem_cons.mp member).resolve_left same)

/-- After a join the map still knows the tasks that are left. -/
theorem join_tracked (inv : Tracked addrs state) (id : ℕ) :
    (∀ other ∈ (state.join id).set, state.addrById other = some (state.listens other)) ∧
      ∀ other ∈ (state.join id).set,
        ((state.join id).untrack id).addrById other = some (state.listens other) := by
  refine ⟨fun other member => inv.tracked other (List.mem_of_mem_erase member),
    fun other member => ?_⟩
  have different : other ≠ id := by
    rintro rfl
    exact inv.once.not_mem_erase member
  change Function.update state.addrById id none other = _
  rw [Function.update_of_ne different]
  exact inv.tracked other (List.mem_of_mem_erase member)

theorem step (inv : Tracked addrs before) (stepped : Step before after) : Tracked addrs after := by
  obtain ⟨once, tracked, distinct, serves⟩ := inv
  have fewer {id : ℕ} (member : id ∈ before.set) : (before.join id).listening.Subperm addrs :=
    (List.Sublist.subperm (List.sublist_cons_self _ _)).trans
      ((listening_join member).symm.subperm.trans distinct)
  have kept (id : ℕ) := join_tracked ⟨once, tracked, distinct, serves⟩ id
  cases stepped with
  | spawn id addr left spawning fresh =>
      rw [spawning] at serves
      have moved : ((before.spawn id addr).listening ++ left).Perm addrs := by
        rw [listening_spawn fresh, List.cons_append]
        exact List.perm_middle.symm.trans serves
      refine ⟨List.nodup_cons.mpr ⟨fresh, once⟩, spawn_tracked tracked id addr, ?_, moved⟩
      exact (List.sublist_append_left _ left).subperm.trans moved.subperm
  | spawned spawning =>
      rw [spawning] at serves
      refine ⟨once, tracked, distinct, fun _ => ?_⟩
      rwa [Serves, List.append_nil] at serves
  | ends id result _ _ => exact ⟨once, tracked, distinct, serves⟩
  | requestShutdown =>
      refine ⟨once, tracked, distinct, ?_⟩
      change Serves addrs true before.set before.listening before.phase
      cases phase : before.phase with
      | spawning left | panicked => rwa [phase] at serves
      | selecting => exact nofun
      | draining => rfl
      | returned =>
          rw [phase] at serves
          exact ⟨rfl, serves.2⟩
  | drain _ requested => exact ⟨once, tracked, distinct, requested⟩
  | ignore id selecting member _ requested =>
      refine ⟨once.erase id, (kept id).1, fewer member, ?_⟩
      change Serves addrs before.shutdown _ _ before.phase
      rw [selecting, requested]
      exact nofun
  | restart id new addr selecting member _ running found fresh =>
      rw [selecting] at serves
      have own : addr = before.listens id :=
        Option.some.inj (found.symm.trans (tracked id member))
      have respawned : (((before.join id).untrack id).spawn new addr).listening =
          addr :: (before.join id).listening := listening_spawn fresh addr
      have moved : (((before.join id).untrack id).spawn new addr).listening.Perm addrs := by
        rw [respawned, own]
        exact (listening_join member).symm.trans (serves running)
      refine ⟨List.nodup_cons.mpr ⟨fresh, once.erase id⟩, spawn_tracked (kept id).2 new addr,
        moved.subperm, ?_⟩
      change Serves addrs before.shutdown _ _ before.phase
      rw [selecting]
      exact fun _ => moved
  | untracked id _ member _ _ missing =>
      rw [tracked id member] at missing
      cases missing
  | drained id draining member _ =>
      refine ⟨once.erase id, (kept id).2, fewer member, ?_⟩
      change Serves addrs before.shutdown _ _ before.phase
      rw [draining] at serves ⊢
      exact serves
  | finish draining empty =>
      rw [draining] at serves
      exact ⟨once, tracked, distinct, serves, empty⟩

theorem run (reachable : Transition.Reachable (Start addrs) Step state) : Tracked addrs state :=
  reachable.invariant (fun _ started => start started) fun _ _ _ inv stepped => inv.step stepped

end Tracked

end HttpListeners

/-- The lookup in `addr_by_id` never fails, no address has two tasks, and every configured one has
a task until a shutdown is requested. The supervisor returns only after a shutdown, and with no
task left. -/
theorem every_address_keeps_its_listener {display : SocketAddr → String}
    {defaultListen : SocketAddr} {configured : Option (List (ListenAddr SocketAddr))}
    {addrs : List (ListenAddr SocketAddr)}
    (resolved : resolveListenAddrs display defaultListen configured = .ok addrs)
    {state : HttpListeners SocketAddr}
    (reachable : Transition.Reachable (HttpListeners.Start addrs) HttpListeners.Step state) :
    state.phase ≠ .panicked ∧ state.listening.Nodup ∧ (∀ addr ∈ state.listening, addr ∈ addrs) ∧
      (state.phase = .selecting → state.shutdown = false →
        ∀ addr ∈ addrs, ∃ id ∈ state.set, state.listens id = addr) ∧
        (state.phase = .returned → state.shutdown = true ∧ state.set = []) := by
  have distinct := (resolveListenAddrs_ok resolved).1
  have inv := HttpListeners.Tracked.run reachable
  have serves := inv.serves
  obtain ⟨some, perm, sub⟩ := inv.distinct
  refine ⟨fun panicked => ?_, ?_, fun addr member => ?_, fun selecting running addr member => ?_,
    fun returned => ?_⟩
  · rw [panicked] at serves
    exact serves
  · exact perm.nodup_iff.mp (distinct.sublist sub)
  · exact sub.subset (perm.mem_iff.mpr member)
  · rw [selecting] at serves
    exact List.mem_map.mp ((serves running).mem_iff.mpr member)
  · rw [returned] at serves
    exact serves

/-- The task of a TCP port panics, and the new one is given the same id. -/
theorem every_address_keeps_its_listener_sample : ∃ state : HttpListeners ℕ,
    state.phase = .selecting ∧ state.shutdown = false ∧
      ∀ addr ∈ [ListenAddr.tcp 40773, .unixSocket "api.sock"],
        ∃ id ∈ state.set, state.listens id = addr := by
  let addrs : List (ListenAddr ℕ) := [.tcp 40773, .unixSocket "api.sock"]
  have resolved : resolveListenAddrs (fun port => s!"{port}") 40773 (some addrs) = .ok addrs := by
    decide
  have start : Transition.Reachable (HttpListeners.Start addrs) HttpListeners.Step
      ⟨.spawning addrs, [], fun _ => none, fun _ => .tcp 0, fun _ => none, false⟩ :=
    .initial ⟨rfl, rfl⟩
  have tcp := start.next (.spawn 0 _ _ rfl List.not_mem_nil)
  have both := tcp.next (.spawn 1 _ _ rfl (by simp [HttpListeners.spawn,
    HttpListeners.withPhase]))
  have spawned := both.next (.spawned rfl)
  have panicked := spawned.next (.ends 0 (.error .panicked) (.tail _ (.head _)) rfl)
  have restarted := panicked.next (.restart 0 0 (.tcp 40773) rfl (.tail _ (.head _)) nofun rfl rfl
    (by decide))
  exact ⟨_, rfl, rfl, (every_address_keeps_its_listener resolved restarted).2.2.2.1 rfl rfl⟩

end AribcapDb
