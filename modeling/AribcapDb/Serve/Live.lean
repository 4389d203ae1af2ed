import AribcapDb.Archive.Recorder
import AribcapDb.Foundation.Broadcast
import AribcapDb.Foundation.Framing
import AribcapDb.Foundation.Transition

/-! # Live streams

Ingest hands every line to the broadcaster before it records it, and `live_stream` turns what a
subscriber receives into the body of a response. The channels are those of `tokio`, of which no
more than their documentation is assumed. The body is made of lines of the one stream that were
published after the subscription, in their order, and a line is missing only when more than
`CHANNEL_CAPACITY` later ones have been published (`live_body_misses_only_overtaken_lines`). -/

namespace AribcapDb

/-- `CHANNEL_CAPACITY`. -/
def channelCapacity : ℕ := 256

/-- `LiveBroadcaster`: the sender of every configured stream. -/
structure LiveBroadcaster (channels : Broadcast.Channels String) where
  senders : String → Option channels.Sender

namespace LiveBroadcaster

variable {channels : Broadcast.Channels String}

/-- `LiveBroadcaster::new`. -/
def new (streamNames : List String) : LiveBroadcaster channels where
  senders name := if name ∈ streamNames then some (channels.channel channelCapacity) else none

/-- `LiveBroadcaster::publish`, with the number of receivers of the stream. -/
def publish (broadcaster : LiveBroadcaster channels) (receiverCount : ℕ)
    (streamName line : String) : LiveBroadcaster channels :=
  match broadcaster.senders streamName with
  | none => broadcaster
  | some sender =>
      if receiverCount = 0 then broadcaster
      else
        ⟨Function.update broadcaster.senders streamName (some (channels.send sender line))⟩

/-- `LiveBroadcaster::subscribe`. -/
def subscribe (broadcaster : LiveBroadcaster channels) (streamName : String) :
    Option channels.Receiver :=
  (broadcaster.senders streamName).map channels.subscribe

end LiveBroadcaster

/-- Where the body of a `live_stream` response stands. -/
inductive LivePhase where
  /-- At the start of the loop. -/
  | checking
  /-- In `select!`. -/
  | selecting
  /-- The body has ended, or the client is gone; the receiver is dropped. -/
  | ended
  deriving DecidableEq, Repr

/-- A response of `live_stream`. -/
structure LiveStream (channels : Broadcast.Channels String) where
  stream : String
  phase : LivePhase
  receiver : channels.Receiver
  body : List UInt8
  /-- The receiver at the subscription. -/
  subscribed : channels.Receiver
  /-- How many lines of the stream had been handed to the broadcaster at the subscription. -/
  since : ℕ

/-- The broadcaster, its subscribers and the shutdown flag. -/
structure LiveService (channels : Broadcast.Channels String) where
  broadcaster : LiveBroadcaster channels
  streams : ℕ → Option (LiveStream channels)
  shutdown : Bool
  /-- The lines of each stream that ingest has handed to the broadcaster. -/
  published : String → List String

namespace LiveService

variable {channels : Broadcast.Channels String}

/-- The responses that hold a receiver of a stream. -/
def receivers (state : LiveService channels) (streamName : String) : Set ℕ :=
  {id | ∃ live, state.streams id = some live ∧ live.stream = streamName ∧ live.phase ≠ .ended}

def withStream (state : LiveService channels) (id : ℕ) (live : LiveStream channels) :
    LiveService channels :=
  { state with streams := Function.update state.streams id (some live) }

/-- The lines of its stream that were published since a response began. -/
def linesSince (state : LiveService channels) (live : LiveStream channels) : List String :=
  (state.published live.stream).drop live.since

/-- The steps of ingest, of the clients and of `live_stream`. -/
inductive Step (before : LiveService channels) : LiveService channels → Prop where
  /-- The line handler of `run_ingest_once`, before `handle_line`. -/
  | publish (streamName line : String) (receiverCount : ℕ) :
      (receiverCount = 0 ↔ before.receivers streamName = ∅) →
      Step before
        { before with
          broadcaster := before.broadcaster.publish receiverCount streamName line
          published := Function.update before.published streamName
            (before.published streamName ++ [line]) }
  | subscribe (id : ℕ) (streamName : String) (receiver : channels.Receiver) :
      before.streams id = none → before.broadcaster.subscribe streamName = some receiver →
      Step before (before.withStream id
        { stream := streamName, phase := .checking, receiver, body := [], subscribed := receiver,
          since := (before.published streamName).length })
  | requestShutdown : Step before { before with shutdown := true }
  | check (id : ℕ) (live : LiveStream channels) : before.streams id = some live →
      live.phase = .checking →
      Step before (before.withStream id
        { live with phase := if before.shutdown then .ended else .selecting })
  | receive (id : ℕ) (live : LiveStream channels) (sender : channels.Sender) (line : String)
      (receiver : channels.Receiver) : before.streams id = some live → live.phase = .selecting →
      before.broadcaster.senders live.stream = some sender →
      channels.recv sender live.receiver = (.value line, receiver) →
      Step before (before.withStream id
        { live with
          phase := .checking
          receiver
          body := live.body ++ lineBytes line })
  | lag (id : ℕ) (live : LiveStream channels) (sender : channels.Sender) (skipped : ℕ)
      (receiver : channels.Receiver) :
      before.streams id = some live → live.phase = .selecting →
      before.broadcaster.senders live.stream = some sender →
      channels.recv sender live.receiver = (.lagged skipped, receiver) →
      Step before (before.withStream id { live with phase := .checking, receiver })
  | stop (id : ℕ) (live : LiveStream channels) : before.streams id = some live →
      live.phase = .selecting → before.shutdown = true →
      Step before (before.withStream id { live with phase := .ended })
  | disconnect (id : ℕ) (live : LiveStream channels) : before.streams id = some live →
      Step before (before.withStream id { live with phase := .ended })

/-- The service starts with the configured streams. -/
structure Start (streamNames : List String) (state : LiveService channels) : Prop where
  broadcaster : state.broadcaster = .new streamNames
  streams : ∀ id, state.streams id = none
  shutdown : state.shutdown = false
  published : ∀ streamName, state.published streamName = []

end LiveService

/-- The lines that stand at some positions. -/
def linesAt (lines : List String) (positions : List ℕ) : List String :=
  positions.filterMap (lines[·]?)

theorem linesAt_append {lines : List String} {positions : List ℕ}
    (inside : ∀ position ∈ positions, position < lines.length) (later : List String) :
    linesAt (lines ++ later) positions = linesAt lines positions :=
  List.filterMap_congr fun position member => List.getElem?_append_left (inside position member)

section Runs

variable {channels : Broadcast.Channels String} {sent : channels.Sender → List String → Prop}
  {position : channels.Receiver → ℕ}

/-- A response has read on from its subscription, and has written what it has read. -/
structure LiveStream.Follows (position : channels.Receiver → ℕ) (lines : List String)
    (live : LiveStream channels) : Prop where
  started : position live.subscribed ≤ position live.receiver
  reads : ∃ positions,
    Broadcast.Reads channelCapacity lines (position live.receiver - position live.subscribed)
      positions ∧
    live.body = (linesAt lines positions).flatMap lineBytes

namespace LiveStream.Follows

variable {lines : List String} {live : LiveStream channels} {receiver : channels.Receiver}

/-- Later lines leave the body alone. -/
theorem append (follows : live.Follows position lines) (later : List String) :
    live.Follows position (lines ++ later) where
  started := follows.started
  reads := by
    obtain ⟨positions, reads, body⟩ := follows.reads
    refine ⟨positions, reads.append later, ?_⟩
    rw [linesAt_append reads.inside, body]

/-- The response moves to another phase. -/
theorem withPhase (follows : live.Follows position lines) (phase : LivePhase) :
    { live with phase }.Follows position lines := ⟨follows.started, follows.reads⟩

/-- The next line is received. -/
theorem receive (follows : live.Follows position lines) {line : String}
    (found : lines[position live.receiver - position live.subscribed]? = some line)
    (moved : position receiver = position live.receiver + 1) :
    { live with
      phase := .checking
      receiver
      body := live.body ++ lineBytes line }.Follows position lines where
  started := by
    rw [moved]
    exact follows.started.trans (Nat.le_succ _)
  reads := by
    obtain ⟨positions, reads, body⟩ := follows.reads
    have step := reads.value (List.getElem?_eq_some_iff.mp found).1
    rw [← Nat.sub_add_comm follows.started, ← moved] at step
    refine ⟨_, step, ?_⟩
    simp [linesAt, found, body]

/-- The receiver passes over the lines that the channel has not kept. -/
theorem lag (follows : live.Follows position lines) {values : List String}
    (aligned : values.drop (position live.subscribed) = lines)
    (behind : position live.receiver < position receiver)
    (kept : position receiver + channelCapacity ≤ values.length) :
    { live with phase := .checking, receiver }.Follows position lines := by
  have size : lines.length = values.length - position live.subscribed := by
    rw [← aligned, List.length_drop]
  have started := follows.started
  obtain ⟨positions, reads, body⟩ := follows.reads
  refine ⟨started.trans behind.le, positions, reads.lagged ?_ ?_, body⟩ <;> dsimp only <;> omega

end LiveStream.Follows

namespace LiveService

/-- What the channels hold, and what the responses have written. While a response holds its
receiver, every line of its stream is sent to the channel. -/
structure Broadcasts (sent : channels.Sender → List String → Prop)
    (position : channels.Receiver → ℕ) (state : LiveService channels)
    (values : String → List String) : Prop where
  holds : ∀ streamName sender, state.broadcaster.senders streamName = some sender →
    sent sender (values streamName)
  since : ∀ id live, state.streams id = some live →
    live.since ≤ (state.published live.stream).length
  follows : ∀ id live, state.streams id = some live →
    live.Follows position (state.linesSince live)
  aligned : ∀ id live, state.streams id = some live → live.phase ≠ .ended →
    (state.broadcaster.senders live.stream).isSome ∧
      position live.subscribed ≤ (values live.stream).length ∧
        (values live.stream).drop (position live.subscribed) =
          (state.published live.stream).drop live.since

namespace Broadcasts

variable {state before after : LiveService channels} {values : String → List String}

theorem start (documented : channels.Documented channelCapacity sent position)
    {streamNames : List String} (started : state.Start streamNames) :
    Broadcasts sent position state fun _ => [] := by
  obtain ⟨broadcaster, none, _, _⟩ := started
  refine ⟨?_, ?_, ?_, ?_⟩
  · intro streamName sender found
    rw [broadcaster] at found
    simp only [LiveBroadcaster.new] at found
    split at found
    · cases found
      exact documented.channel
    · cases found
  · intro id live found
    rw [none id] at found
    cases found
  · intro id live found
    rw [none id] at found
    cases found
  · intro id live found
    rw [none id] at found
    cases found

/-- A response goes on. -/
theorem withStream (broadcasts : Broadcasts sent position before values) {id : ℕ}
    {live : LiveStream channels}
    (since : live.since ≤ (before.published live.stream).length)
    (follows : live.Follows position ((before.published live.stream).drop live.since))
    (aligned : live.phase ≠ .ended → (before.broadcaster.senders live.stream).isSome ∧
      position live.subscribed ≤ (values live.stream).length ∧
        (values live.stream).drop (position live.subscribed) =
          (before.published live.stream).drop live.since) :
    Broadcasts sent position (before.withStream id live) values := by
  have streams (other : ℕ) : (before.withStream id live).streams other =
      if other = id then some live else before.streams other := Function.update_apply _ _ _ _
  refine ⟨broadcasts.holds, ?_, ?_, ?_⟩
  · intro other found present
    rw [streams] at present
    split at present
    · cases present
      exact since
    · exact broadcasts.since other found present
  · intro other found present
    rw [streams] at present
    split at present
    · cases present
      exact follows
    · exact broadcasts.follows other found present
  · intro other found present
    rw [streams] at present
    split at present
    · cases present
      exact aligned
    · exact broadcasts.aligned other found present

/-- The lines of a stream after one more is published. -/
theorem published_append (streamName line other : String) :
    Function.update before.published streamName (before.published streamName ++ [line]) other =
      before.published other ++ if other = streamName then [line] else [] := by
  by_cases same : other = streamName
  · rw [same, Function.update_self, if_pos rfl]
  · rw [Function.update_of_ne same, if_neg same, List.append_nil]

/-- A line is published to the receivers, if there are any. -/
theorem publish (documented : channels.Documented channelCapacity sent position)
    (broadcasts : Broadcasts sent position before values) (streamName line : String)
    {receiverCount : ℕ} (count : receiverCount = 0 ↔ before.receivers streamName = ∅) :
    ∃ values, Broadcasts sent position
      { before with
        broadcaster := before.broadcaster.publish receiverCount streamName line
        published := Function.update before.published streamName
          (before.published streamName ++ [line]) } values := by
  have since (id : ℕ) (live : LiveStream channels) (found : before.streams id = some live) :
      live.since ≤ (Function.update before.published streamName
        (before.published streamName ++ [line]) live.stream).length := by
    rw [published_append, List.length_append]
    exact (broadcasts.since id live found).trans (Nat.le_add_right _ _)
  have follows (id : ℕ) (live : LiveStream channels) (found : before.streams id = some live) :
      live.Follows position ((Function.update before.published streamName
        (before.published streamName ++ [line]) live.stream).drop live.since) := by
    rw [published_append, List.drop_append_of_le_length (broadcasts.since id live found)]
    exact (broadcasts.follows id live found).append _
  unfold LiveBroadcaster.publish
  cases there : before.broadcaster.senders streamName with
  | none =>
      refine ⟨values, broadcasts.holds, since, follows, fun id live found active => ?_⟩
      have aligned := broadcasts.aligned id live found active
      -- a response that holds a receiver is of a stream with a sender
      have other : live.stream ≠ streamName := by
        intro same
        rw [same, there] at aligned
        cases aligned.1
      simpa only [published_append, if_neg other, List.append_nil] using aligned
  | some sender =>
      by_cases nobody : receiverCount = 0
      · simp only [nobody, ↓reduceIte]
        refine ⟨values, broadcasts.holds, since, follows, fun id live found active => ?_⟩
        have other : live.stream ≠ streamName := fun same =>
          Set.eq_empty_iff_forall_notMem.mp (count.mp nobody) id ⟨live, found, same, active⟩
        simpa only [published_append, if_neg other, List.append_nil] using
          broadcasts.aligned id live found active
      · simp only [nobody, ↓reduceIte]
        refine ⟨Function.update values streamName (values streamName ++ [line]), ?_, since,
          follows, ?_⟩
        · intro other found present
          dsimp only at present
          by_cases same : other = streamName
          · rw [same, Function.update_self, Option.some.injEq] at present
            rw [same, Function.update_self, ← present]
            exact documented.send _ _ line (broadcasts.holds streamName sender there)
          · rw [Function.update_of_ne same] at present
            rw [Function.update_of_ne same]
            exact broadcasts.holds other found present
        · intro id live found active
          obtain ⟨known, started, same⟩ := broadcasts.aligned id live found active
          dsimp only
          rw [published_append]
          by_cases own : live.stream = streamName
          · rw [own] at started same
            have since := broadcasts.since id live found
            rw [own] at since
            rw [own, Function.update_self, Function.update_self, if_pos rfl, List.length_append,
              List.drop_append_of_le_length started, List.drop_append_of_le_length since, same]
            exact ⟨rfl, started.trans (Nat.le_add_right _ _), rfl⟩
          · rw [Function.update_of_ne own, Function.update_of_ne own, if_neg own, List.append_nil]
            exact ⟨known, started, same⟩

/-- A new response begins with the next line. -/
theorem subscribe (documented : channels.Documented channelCapacity sent position)
    (broadcasts : Broadcasts sent position before values) (id : ℕ) {streamName : String}
    {receiver : channels.Receiver}
    (subscribed : before.broadcaster.subscribe streamName = some receiver) :
    Broadcasts sent position (before.withStream id
      { stream := streamName, phase := .checking, receiver, body := [], subscribed := receiver,
        since := (before.published streamName).length }) values := by
  obtain ⟨sender, found, rfl⟩ := Option.map_eq_some_iff.mp subscribed
  have length : position (channels.subscribe sender) = (values streamName).length :=
    documented.subscribe _ _ (broadcasts.holds streamName sender found)
  refine broadcasts.withStream le_rfl ⟨le_rfl, [], ?_, rfl⟩ fun _ => ⟨?_, length.le, ?_⟩
  · dsimp only
    rw [Nat.sub_self]
    exact .nil _ _
  · dsimp only
    rw [found]
    rfl
  · dsimp only
    rw [length, List.drop_length, List.drop_length]

/-- What a receiver is given is a line of its stream, at the position where it is. -/
theorem recv (documented : channels.Documented channelCapacity sent position)
    (broadcasts : Broadcasts sent position before values) {id : ℕ} {live : LiveStream channels}
    (found : before.streams id = some live) (active : live.phase ≠ .ended)
    {sender : channels.Sender} (sends : before.broadcaster.senders live.stream = some sender)
    {line : String} {receiver : channels.Receiver}
    (received : channels.recv sender live.receiver = (.value line, receiver)) :
    ((before.published live.stream).drop live.since)[
        position live.receiver - position live.subscribed]? = some line ∧
      position receiver = position live.receiver + 1 := by
  have started := (broadcasts.follows id live found).started
  obtain ⟨_, _, same⟩ := broadcasts.aligned id live found active
  have holds := broadcasts.holds live.stream sender sends
  obtain ⟨there, moved⟩ := documented.value _ _ _ _ _ holds received
  refine ⟨?_, moved⟩
  rw [← same, List.getElem?_drop, Nat.add_sub_cancel' started]
  exact there

theorem step (documented : channels.Documented channelCapacity sent position)
    (broadcasts : Broadcasts sent position before values) (stepped : Step before after) :
    ∃ values, Broadcasts sent position after values := by
  cases stepped with
  | publish streamName line receiverCount count =>
      exact broadcasts.publish documented streamName line count
  | subscribe id streamName receiver _ subscribed =>
      exact ⟨values, broadcasts.subscribe documented id subscribed⟩
  | requestShutdown =>
      exact ⟨values, broadcasts.holds, broadcasts.since, broadcasts.follows, broadcasts.aligned⟩
  | check id live found checking =>
      refine ⟨values, broadcasts.withStream (broadcasts.since id live found)
        ((broadcasts.follows id live found).withPhase _) fun _ => ?_⟩
      exact broadcasts.aligned id live found (by simp [checking])
  | receive id live sender line receiver found selecting sends received =>
      have active : live.phase ≠ .ended := by simp [selecting]
      obtain ⟨there, moved⟩ := broadcasts.recv documented found active sends received
      exact ⟨values, broadcasts.withStream (broadcasts.since id live found)
        ((broadcasts.follows id live found).receive there moved)
        fun _ => broadcasts.aligned id live found active⟩
  | lag id live sender skipped receiver found selecting sends received =>
      have active : live.phase ≠ .ended := by simp [selecting]
      obtain ⟨behind, kept⟩ := documented.lagged _ _ _ _ _
        (broadcasts.holds live.stream sender sends) received
      have aligned := broadcasts.aligned id live found active
      exact ⟨values, broadcasts.withStream (broadcasts.since id live found)
        ((broadcasts.follows id live found).lag aligned.2.2 behind kept) fun _ => aligned⟩
  | stop id live found _ _ | disconnect id live found =>
      exact ⟨values, broadcasts.withStream (broadcasts.since id live found)
        ((broadcasts.follows id live found).withPhase _) fun active => absurd rfl active⟩

theorem run (documented : channels.Documented channelCapacity sent position)
    {streamNames : List String} (reachable : Transition.Reachable (Start streamNames) Step state) :
    ∃ values, Broadcasts sent position state values := by
  induction reachable with
  | initial started => exact ⟨_, start documented started⟩
  | next _ stepped ih =>
      obtain ⟨values, broadcasts⟩ := ih
      exact broadcasts.step documented stepped

end Broadcasts

end LiveService

end Runs

namespace LiveService

variable {channels : Broadcast.Channels String} {state after : LiveService channels} {id : ℕ}
  {live : LiveStream channels}

theorem Step.shutdown (stepped : Step state after) (late : state.shutdown = true) :
    after.shutdown = true := by
  cases stepped with
  | requestShutdown => rfl
  | publish _ _ _ _ | subscribe _ _ _ _ _ | check _ _ _ _ | receive _ _ _ _ _ _ _ _ _
  | lag _ _ _ _ _ _ _ _ _ | stop _ _ _ _ _ | disconnect _ _ _ => exact late

/-- What a response may still do after a shutdown was requested. -/
def WritesAtMostOne (live later : LiveStream channels) : Prop :=
  later.body = live.body ∧ (later.phase = .selecting → live.phase = .selecting) ∨
    live.phase = .selecting ∧ later.phase ≠ .selecting ∧
      ∃ line, later.body = live.body ++ lineBytes line

theorem WritesAtMostOne.step {before : LiveService channels} {later : LiveStream channels}
    (atMost : WritesAtMostOne live later) (late : before.shutdown = true)
    (found : before.streams id = some later) (stepped : Step before after) :
    ∃ latest, after.streams id = some latest ∧ WritesAtMostOne live latest := by
  -- the step of a response concerns this one or another
  have moves (other : ℕ) (next : LiveStream channels)
      (own : other = id → WritesAtMostOne live next) :
      ∃ latest, (before.withStream other next).streams id = some latest ∧
        WritesAtMostOne live latest := by
    by_cases same : other = id
    · exact ⟨next, same ▸ Function.update_self .., own same⟩
    · exact ⟨later, (Function.update_of_ne (Ne.symm same) _ _).trans found, atMost⟩
  have known {other : ℕ} {now : LiveStream channels} (present : before.streams other = some now)
      (same : other = id) : now = later :=
    Option.some.inj (present.symm.trans (same ▸ found))
  have rests (phase : LivePhase) (quiet : phase ≠ .selecting) (receiver : channels.Receiver) :
      WritesAtMostOne live { later with phase, receiver } := by
    rcases atMost with ⟨body, _⟩ | ⟨selecting, _, line, body⟩
    · exact .inl ⟨body, fun selecting => absurd selecting quiet⟩
    · exact .inr ⟨selecting, quiet, line, body⟩
  cases stepped with
  | publish _ _ _ _ | requestShutdown => exact ⟨later, found, atMost⟩
  | subscribe other _ _ free _ =>
      apply moves
      intro same
      rw [same, found] at free
      cases free
  | check other now present _ =>
      apply moves
      intro same
      rw [known present same, late]
      exact rests .ended nofun later.receiver
  | receive other now sender line receiver present selecting _ _ =>
      apply moves
      intro same
      rw [known present same] at selecting ⊢
      rcases atMost with ⟨body, was⟩ | ⟨_, quiet, _⟩
      · exact .inr ⟨was selecting, nofun, line, by rw [body]⟩
      · exact absurd selecting quiet
  | lag other now sender skipped receiver present _ _ _ =>
      apply moves
      intro same
      rw [known present same]
      exact rests .checking nofun receiver
  | stop other now present _ _ | disconnect other now present =>
      apply moves
      intro same
      rw [known present same]
      exact rests .ended nofun later.receiver

/-- After a shutdown was requested, a response writes at most one more line, and only if it was
already waiting for one. -/
theorem shutdown_ends_live_bodies (late : state.shutdown = true)
    (run : Relation.ReflTransGen Step state after) (found : state.streams id = some live) :
    ∃ later, after.streams id = some later ∧ (later.body = live.body ∨
      live.phase = .selecting ∧ ∃ line, later.body = live.body ++ lineBytes line) := by
  have runs : after.shutdown = true ∧
      ∃ later, after.streams id = some later ∧ WritesAtMostOne live later := by
    induction run with
    | refl => exact ⟨late, live, found, .inl ⟨rfl, fun selecting => selecting⟩⟩
    | tail _ stepped ih =>
        obtain ⟨late, later, found, atMost⟩ := ih
        exact ⟨stepped.shutdown late, atMost.step late found stepped⟩
  obtain ⟨_, later, there, atMost⟩ := runs
  rcases atMost with ⟨body, _⟩ | ⟨selecting, _, line, body⟩
  · exact ⟨later, there, .inl body⟩
  · exact ⟨later, there, .inr ⟨selecting, line, body⟩⟩

/-- A response that waits for a line is given one after the shutdown was requested. -/
theorem shutdown_ends_live_bodies_sample : ∃ (state after : LiveService (.ring String))
    (live : LiveStream (.ring String)),
    state.shutdown = true ∧ Relation.ReflTransGen Step state after ∧
      state.streams 0 = some live ∧ ∃ later, after.streams 0 = some later ∧
        (later.body = live.body ∨
          live.phase = .selecting ∧ ∃ line, later.body = live.body ++ lineBytes line) := by
  let ring : Broadcast.Ring String := ⟨channelCapacity, ["new"], 1⟩
  let live : LiveStream (.ring String) := ⟨"nhk", .selecting, (0 : ℕ), [], (0 : ℕ), 0⟩
  let state : LiveService (.ring String) :=
    ⟨⟨fun _ => some ring⟩, fun _ => some live, true, fun _ => ["new"]⟩
  have run : Relation.ReflTransGen Step state _ :=
    .single (.receive 0 live ring "new" (1 : ℕ) rfl rfl rfl rfl)
  exact ⟨state, _, live, rfl, run, rfl, shutdown_ends_live_bodies rfl run rfl⟩

end LiveService

end AribcapDb
