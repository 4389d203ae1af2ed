import AribcapDb.Foundation.Transition

/-! # Ownership of a Unix socket path

Any number of processes run `bind_unix_listener` on one path. Whoever changes the path holds the
lock of the lock file next to it, from the first look at the path until its listener is gone, so
that the path belongs to one listener at a time (`socket_ownership_is_exclusive`), whatever
`connect` answers in between. -/

namespace AribcapDb

/-- What stands at the socket path; every bound socket file is known by a number. -/
inductive SocketNode where
  | absent
  | socket (file : ℕ)
  /-- A file that is not a socket. -/
  | other
  deriving DecidableEq, Repr

/-- Where a run of `bind_unix_listener`, or the listener it has returned, stands. -/
inductive Binder where
  | idle
  /-- The lock file is open. -/
  | opened
  | locked
  /-- `symlink_metadata` has found a socket. -/
  | foundSocket
  /-- `connect` was refused. -/
  | stale
  /-- Nothing stands in the way of `bind`. -/
  | clear
  /-- `bind` has created the file, and `listen` is to follow. -/
  | bound (file : ℕ)
  /-- The `LockedUnixListener` is live. -/
  | listening (file : ℕ)
  /-- The listener is closed and the lock file is not yet. -/
  | closing
  /-- The process has died. -/
  | dead
  deriving DecidableEq, Repr

/-- The runs that hold the lock. -/
def Binder.HoldsLock : Binder → Prop
  | .idle | .opened | .dead => False
  | .locked | .foundSocket | .stale | .clear | .bound _ | .listening _ | .closing => True

/-- The socket path, who holds the lock, and the runs of all processes. -/
structure SocketPath where
  node : SocketNode
  lock : Option ℕ
  binder : ℕ → Binder
  /-- The number of the next socket file. -/
  nextFile : ℕ

namespace SocketPath

/-- A run moves on, and may change who holds the lock and what stands at the path. -/
def moved (state : SocketPath) (id : ℕ) (binder : Binder) (lock : Option ℕ)
    (node : SocketNode) : SocketPath :=
  { state with node, lock, binder := Function.update state.binder id binder }

/-- The steps of `bind_unix_listener`, of dropping the listener and of dying processes. Every
file operation may fail, and a run that returns an error closes its lock file. -/
inductive Step (before : SocketPath) : SocketPath → Prop where
  | openLock (id : ℕ) : before.binder id = .idle →
      Step before (before.moved id .opened before.lock before.node)
  | tryLock (id : ℕ) : before.binder id = .opened → before.lock = none →
      Step before (before.moved id .locked (some id) before.node)
  | refused (id : ℕ) : before.binder id = .opened →
      Step before (before.moved id .idle before.lock before.node)
  | metadataAbsent (id : ℕ) : before.binder id = .locked → before.node = .absent →
      Step before (before.moved id .clear before.lock before.node)
  | metadataSocket (id file : ℕ) : before.binder id = .locked → before.node = .socket file →
      Step before (before.moved id .foundSocket before.lock before.node)
  | connectRefused (id : ℕ) : before.binder id = .foundSocket →
      Step before (before.moved id .stale before.lock before.node)
  | remove (id : ℕ) : before.binder id = .stale →
      Step before (before.moved id .clear before.lock .absent)
  | bind (id : ℕ) : before.binder id = .clear → before.node = .absent →
      Step before
        { before.moved id (.bound before.nextFile) before.lock (.socket before.nextFile) with
          nextFile := before.nextFile + 1 }
  | listen (id file : ℕ) : before.binder id = .bound file →
      Step before (before.moved id (.listening file) before.lock before.node)
  /-- Anything but a socket at the path, a successful `connect`, or another error. -/
  | fail (id : ℕ) : (before.binder id).HoldsLock → (∀ file, before.binder id ≠ .listening file) →
      Step before (before.moved id .idle none before.node)
  | drop (id file : ℕ) : before.binder id = .listening file →
      Step before (before.moved id .closing before.lock before.node)
  | crash (id : ℕ) : Step before (before.moved id .dead before.lock before.node)
  /-- The system closes the lock file of a dead process. -/
  | release (id : ℕ) : before.binder id = .dead → before.lock = some id →
      Step before (before.moved id .dead none before.node)

/-- Nothing, a stale socket or another file at the path, and no process yet. -/
def Start (state : SocketPath) : Prop := state.lock = none ∧ ∀ id, state.binder id = .idle

/-- What the lock protects: who acts on the path holds the lock, and finds there what it has left
there. -/
structure Protected (state : SocketPath) : Prop where
  locked : ∀ id, (state.binder id).HoldsLock → state.lock = some id
  found : ∀ id, state.binder id = .foundSocket ∨ state.binder id = .stale →
    ∃ file, state.node = .socket file
  owned : ∀ id file, state.binder id = .bound file ∨ state.binder id = .listening file →
    state.node = .socket file

namespace Protected

variable {before after state : SocketPath}

theorem start (started : state.Start) : Protected state := by
  obtain ⟨_, idle⟩ := started
  refine ⟨?_, ?_, ?_⟩
  · intro id holds
    rw [idle id] at holds
    exact holds.elim
  · intro id found
    rw [idle id] at found
    rcases found with found | found <;> cases found
  · intro id file owned
    rw [idle id] at owned
    rcases owned with owned | owned <;> cases owned

/-- A run that holds the lock, or takes it while it is free, or leaves lock and path alone. -/
theorem moved (protected' : Protected before) {id : ℕ} {binder : Binder} {lock : Option ℕ}
    {node : SocketNode}
    (rest : lock = before.lock ∧ node = before.node ∨ before.lock = some id ∨
      before.lock = none ∧ node = before.node)
    (locked : binder.HoldsLock → lock = some id)
    (found : binder = .foundSocket ∨ binder = .stale → ∃ file, node = .socket file)
    (owned : ∀ file, binder = .bound file ∨ binder = .listening file → node = .socket file) :
    Protected (before.moved id binder lock node) := by
  -- any other run that holds the lock keeps it, and the path with it
  have others : ∀ other ≠ id, (before.binder other).HoldsLock →
      lock = some other ∧ node = before.node := by
    intro other different holds
    have theirs := protected'.locked other holds
    rcases rest with ⟨same, path⟩ | own | ⟨free, _⟩
    · exact ⟨same.trans theirs, path⟩
    · rw [theirs] at own
      exact absurd (Option.some.inj own) different
    · rw [theirs] at free
      cases free
  have binders : ∀ other, (before.moved id binder lock node).binder other =
      if other = id then binder else before.binder other := fun other =>
    Function.update_apply _ _ _ _
  refine ⟨?_, ?_, ?_⟩
  · intro other holds
    rw [binders] at holds
    split at holds
    · next same => exact same ▸ locked holds
    · next different => exact (others other different holds).1
  · intro other looks
    rw [binders] at looks
    split at looks
    · exact found looks
    · next different =>
        have holds : (before.binder other).HoldsLock := by
          rcases looks with looks | looks <;> rw [looks] <;> trivial
        obtain ⟨file, there⟩ := protected'.found other looks
        exact ⟨file, (others other different holds).2.trans there⟩
  · intro other file owns
    rw [binders] at owns
    split at owns
    · exact owned file owns
    · next different =>
        have holds : (before.binder other).HoldsLock := by
          rcases owns with owns | owns <;> rw [owns] <;> trivial
        exact (others other different holds).2.trans (protected'.owned other file owns)

theorem step (protected' : Protected before) (stepped : Step before after) : Protected after := by
  have own {id : ℕ} {binder : Binder} (here : before.binder id = binder)
      (holds : binder.HoldsLock) : before.lock = some id :=
    protected'.locked id (here ▸ holds)
  cases stepped with
  | openLock id _ | refused id _ | crash id =>
      exact protected'.moved (.inl ⟨rfl, rfl⟩) False.elim (by simp) (by simp)
  | tryLock id _ free =>
      exact protected'.moved (.inr (.inr ⟨free, rfl⟩)) (fun _ => rfl) (by simp) (by simp)
  | metadataAbsent id locked _ =>
      have lock := own locked trivial
      exact protected'.moved (.inr (.inl lock)) (fun _ => lock) (by simp) (by simp)
  | metadataSocket id file locked there =>
      have lock := own locked trivial
      exact protected'.moved (.inr (.inl lock)) (fun _ => lock) (fun _ => ⟨file, there⟩) (by simp)
  | connectRefused id found =>
      have lock := own found trivial
      exact protected'.moved (.inr (.inl lock)) (fun _ => lock)
        (fun _ => protected'.found id (.inl found)) (by simp)
  | remove id stale =>
      have lock := own stale trivial
      exact protected'.moved (.inr (.inl lock)) (fun _ => lock) (by simp) (by simp)
  | bind id clear _ =>
      have lock := own clear trivial
      have bound : Protected (before.moved id (.bound before.nextFile) before.lock
          (.socket before.nextFile)) := by
        apply protected'.moved (.inr (.inl lock)) (fun _ => lock) (by simp)
        intro file own
        obtain own | own := own
        · cases own
          rfl
        · cases own
      exact ⟨bound.locked, bound.found, bound.owned⟩
  | listen id file bound =>
      have lock := own bound trivial
      apply protected'.moved (.inr (.inl lock)) (fun _ => lock) (by simp)
      intro other same
      obtain same | same := same
      · cases same
      · cases same
        exact protected'.owned id file (.inl bound)
  | fail id holds _ =>
      exact protected'.moved (.inr (.inl (protected'.locked id holds))) False.elim (by simp)
        (by simp)
  | drop id file listening =>
      have lock := own listening trivial
      exact protected'.moved (.inr (.inl lock)) (fun _ => lock) (by simp) (by simp)
  | release id _ lock =>
      exact protected'.moved (.inr (.inl lock)) False.elim (by simp) (by simp)

theorem run (reachable : Transition.Reachable Start Step state) : Protected state :=
  reachable.invariant (fun _ started => start started) fun _ _ _ protected' stepped =>
    protected'.step stepped

/-- A file that is not a socket stays. -/
theorem other_kept (protected' : Protected before) (stepped : Step before after)
    (other : before.node = .other) : after.node = .other := by
  cases stepped with
  | openLock _ _ | tryLock _ _ _ | refused _ _ | metadataAbsent _ _ _ | metadataSocket _ _ _ _
  | connectRefused _ _ | listen _ _ _ | fail _ _ _ | drop _ _ _ | crash _ | release _ _ _ =>
      exact other
  | remove id stale =>
      obtain ⟨file, there⟩ := protected'.found id (.inr stale)
      rw [other] at there
      cases there
  | bind id _ absent =>
      rw [other] at absent
      cases absent

end Protected

/-- At most one listener is live, its socket file stands at the path as long as it lives, and a
file that is not a socket is never removed. -/
theorem socket_ownership_is_exclusive {state : SocketPath}
    (reachable : Transition.Reachable Start Step state) :
    (∀ first second file other, state.binder first = .listening file →
        state.binder second = .listening other → first = second) ∧
      (∀ id file, state.binder id = .listening file → state.node = .socket file) ∧
        ∀ after, Step state after → state.node = .other → after.node = .other := by
  have protected' := Protected.run reachable
  refine ⟨?_, ?_, ?_⟩
  · intro first second file other one two
    have mine := protected'.locked first (by rw [one]; trivial)
    have theirs := protected'.locked second (by rw [two]; trivial)
    exact Option.some.inj (mine.symm.trans theirs)
  · exact fun id file listening => protected'.owned id file (.inr listening)
  · exact fun after stepped other => protected'.other_kept stepped other

/-- A process finds a stale socket, and binds the path while another one waits for the lock. -/
theorem socket_ownership_is_exclusive_sample : ∃ state : SocketPath,
    state.binder 0 = .listening 1 ∧ state.binder 1 = .opened ∧ state.node = .socket 1 := by
  have start : Transition.Reachable Start Step ⟨.socket 0, none, fun _ => .idle, 1⟩ :=
    .initial ⟨rfl, fun _ => rfl⟩
  have opened := start.next (.openLock 0 rfl)
  have waiting := opened.next (.openLock 1 rfl)
  have locked := waiting.next (.tryLock 0 rfl rfl)
  have found := locked.next (.metadataSocket 0 0 rfl rfl)
  have stale := found.next (.connectRefused 0 rfl)
  have removed := stale.next (.remove 0 rfl)
  have bound := removed.next (.bind 0 rfl rfl)
  have listening := bound.next (.listen 0 1 rfl)
  exact ⟨_, rfl, rfl, (socket_ownership_is_exclusive listening).2.1 0 1 rfl⟩

end SocketPath

end AribcapDb
