import AribcapDb.Foundation.SharedOutput
import AribcapDb.Foundation.Transition
import AribcapDb.Render.NormalLine
import AribcapDb.Tail.Connections
import AribcapDb.Tail.LineBuffer

/-! # The output of `aribcap-tail`

Every target has a channel of lines and a consumer that prints them one by one. A line is rendered
and written by a blocking task that holds the lock of the output, and that goes on when its
consumer is aborted. The lines of all targets come out whole and one after the other, those of each
target in order and none left out, until a write fails (`output_lines_stay_whole`). Without colours
everything goes through a filter of escape sequences that may not see the end of one, so that this
is said of lines without control characters only; in the normal format all are. -/

namespace AribcapDb

inductive OutputFormat where
  | normal
  | jsonl
  deriving DecidableEq, Repr

/-- The `colored_json` crate with its compact formatter, which writes no line breaks. -/
structure ColoredJson where
  toColoredJson : Value → Option String
  compact : ∀ value text, toColoredJson value = some text → '\n' ∉ text.toList

/-- `anstream::AutoStream` without colours, which strips escape sequences: what it passes on when
pieces have been written to it, one after the other. -/
structure AutoStream where
  pass : List (List UInt8) → List UInt8
  /-- Text without control characters but line breaks is passed on as it is. -/
  printable : ∀ (text : String) (pieces : List (List UInt8)),
    (∀ char ∈ text.toList, isControl char = true → char = '\n') →
    pieces.flatten <+: utf8Bytes text → pass pieces = pieces.flatten

/-- What `aribcap-tail` prints with; styles are escape sequences. -/
structure TailPrinter where
  terminal : Terminal
  coloredJson : ColoredJson
  autoStream : AutoStream
  format : OutputFormat
  useColor : Bool
  render_free : ∀ style, '\n' ∉ (terminal.anstyle.render style).toList
  renderReset_free : ∀ style, '\n' ∉ (terminal.anstyle.renderReset style).toList

/-- `colorize_jsonl_line`. -/
def colorizeJsonlLine (serde : SerdeJson) (coloredJson : ColoredJson) (line : String) : String :=
  match serde.fromStr line with
  | none => line
  | some value => (coloredJson.toColoredJson value).getD line

/-- `format_jsonl_line`. -/
def formatJsonlLine (terminal : Terminal) (coloredJson : ColoredJson) (label line : String)
    (color : Bool) : String :=
  let body := if color then colorizeJsonlLine terminal.serde coloredJson line else line
  formatLabelPrefix terminal.anstyle label color ++ body

namespace TailPrinter

/-- The text that `write_normal_line` or `write_jsonl_line` writes of a line, where the terminal
has some width by then. -/
def print (printer : TailPrinter) (label line : String) (terminalWidth : Option ℕ) :
    Option String :=
  match printer.format with
  | .normal => formatNormalLine printer.terminal label line printer.useColor terminalWidth
  | .jsonl =>
      some (formatJsonlLine printer.terminal printer.coloredJson label line printer.useColor)

end TailPrinter

/-- `writeln!` of a text, when there is one. -/
def printedBytes (shown : Option String) : List UInt8 :=
  shown.toList.flatMap fun text => utf8Bytes text ++ [newline]

/-- A line of a target, and the text that is shown of it. -/
structure Printing where
  target : ℕ
  line : String
  shown : Option String
  deriving DecidableEq, Repr

/-- A target with its channel and its consumer. -/
structure TailLane where
  /-- The lines that the producer has sent. -/
  received : List String
  /-- How many of them the consumer has taken out of the channel. -/
  taken : ℕ
  /-- The line of a blocking task that does not have the lock yet. -/
  job : Option String
  /-- The consumer waits for a blocking task. -/
  printing : Bool
  /-- The consumer has failed or is aborted. -/
  ended : Bool

/-- The targets and the output that they share. -/
structure TailOutput where
  lanes : ℕ → TailLane
  stdout : SharedOutput Printing UInt8
  /-- What has been written to the `AutoStream`, piece by piece. -/
  pieces : List (List UInt8)

namespace TailOutput

def withLane (state : TailOutput) (target : ℕ) (lane : TailLane) : TailOutput :=
  { state with lanes := Function.update state.lanes target lane }

/-- What has come out at `stdout`: with colours, all that was written. -/
def emitted (printer : TailPrinter) (state : TailOutput) : List UInt8 :=
  if printer.useColor then state.pieces.flatten else printer.autoStream.pass state.pieces

/-- The consumers go on at the same time, and the output is written to a piece at a time. -/
inductive Step (printer : TailPrinter) (labels : ℕ → String) (before : TailOutput) :
    TailOutput → Prop where
  /-- The producer sends a line, and there is room for it. -/
  | receive (target : ℕ) (line : String) : (before.lanes target).ended = false →
      (before.lanes target).received.length - (before.lanes target).taken < lineChannelCapacity →
      newline ∉ utf8Bytes line →
      Step printer labels before
        (before.withLane target
          { before.lanes target with received := (before.lanes target).received ++ [line] })
  /-- `consume_lines` takes the next line, and a blocking task is spawned for it. -/
  | take (target : ℕ) (line : String) : (before.lanes target).ended = false →
      (before.lanes target).printing = false →
      (before.lanes target).received[(before.lanes target).taken]? = some line →
      Step printer labels before
        (before.withLane target
          { before.lanes target with
            taken := (before.lanes target).taken + 1
            job := some line
            printing := true })
  | lock (target : ℕ) (line : String) (terminalWidth : Option ℕ) :
      (before.lanes target).job = some line → before.stdout.current = none →
      Step printer labels before
        { before.withLane target { before.lanes target with job := none } with
          stdout := before.stdout.lock
            ⟨target, line, printer.print (labels target) line terminalWidth⟩
            (printedBytes (printer.print (labels target) line terminalWidth)) }
  | write (turn : SharedOutput.Turn Printing UInt8) (piece rest : List UInt8) :
      before.stdout.current = some turn → turn.text = turn.written ++ (piece ++ rest) →
      Step printer labels before
        { before with
          stdout := before.stdout.write turn piece
          pieces := before.pieces ++ [piece] }
  /-- All is written and flushed. -/
  | finish (turn : SharedOutput.Turn Printing UInt8) :
      before.stdout.current = some turn → turn.Whole →
      Step printer labels before
        { before.withLane turn.writer.target
            { before.lanes turn.writer.target with printing := false } with
          stdout := before.stdout.unlock turn }
  /-- A write or the flush fails, and the consumer with it. -/
  | fail (turn : SharedOutput.Turn Printing UInt8) : before.stdout.current = some turn →
      Step printer labels before
        { before.withLane turn.writer.target
            { before.lanes turn.writer.target with ended := true } with
          stdout := before.stdout.unlock turn }
  /-- `abort_and_join`; a blocking task goes on. -/
  | abort (target : ℕ) :
      Step printer labels before
        (before.withLane target { before.lanes target with ended := true })
  /-- `shutdown_background` drops a blocking task that has not begun. -/
  | drop (target : ℕ) : (before.lanes target).ended = true →
      Step printer labels before
        (before.withLane target { before.lanes target with job := none })

/-- Nothing is received or written. -/
def Start (state : TailOutput) : Prop :=
  (∀ target, state.lanes target = ⟨[], 0, none, false, false⟩) ∧ state.stdout = .empty ∧
    state.pieces = []

/-- Reached by any steps. -/
def Run (printer : TailPrinter) (labels : ℕ → String) : TailOutput → Prop :=
  Transition.Reachable Start (Step printer labels)

/-- The lines of a target that have had their turn, in order. -/
def printedLines (turns : List (SharedOutput.Turn Printing UInt8)) (target : ℕ) : List String :=
  (turns.filter fun turn => turn.writer.target = target).map fun turn => turn.writer.line

/-- A turn is about a line as the printer shows it. -/
structure Renders (printer : TailPrinter) (labels : ℕ → String)
    (turn : SharedOutput.Turn Printing UInt8) : Prop where
  shown : ∃ terminalWidth,
    turn.writer.shown = printer.print (labels turn.writer.target) turn.writer.line terminalWidth
  text : turn.text = printedBytes turn.writer.shown
  line : newline ∉ utf8Bytes turn.writer.line
  written : turn.written <+: turn.text

/-- No character of the text is a control character. -/
def Plain (text : String) : Prop := ∀ char ∈ text.toList, isControl char = false

/-- No escape sequence is printed that is not one of the printer. -/
def PrintsPlain (printer : TailPrinter) (labels : ℕ → String) (state : TailOutput) : Prop :=
  printer.useColor = false → (∀ target, Plain (labels target)) ∧
    (printer.format = .jsonl → ∀ target, ∀ line ∈ (state.lanes target).received, Plain line)

/-- What has come out of a run. -/
structure KeepsLines (printer : TailPrinter) (labels : ℕ → String) (state : TailOutput) :
    Prop where
  /-- Every turn writes what is shown of a line, from its beginning. -/
  rendered : ∀ turn ∈ state.stdout.turns, Renders printer labels turn
  /-- The lines of a target have their turns in the order in which they are received. -/
  ordered : ∀ target,
    printedLines state.stdout.turns target <+: (state.lanes target).received
  /-- Until its consumer ends, none is left out. -/
  complete : ∀ target, (state.lanes target).ended = false →
    printedLines state.stdout.turns target ++ (state.lanes target).job.toList =
      (state.lanes target).received.take (state.lanes target).taken
  /-- A turn that is cut short is the last of its target. -/
  broken : state.stdout.turns.Pairwise fun first second =>
    first.Whole ∨ first.writer.target ≠ second.writer.target
  /-- While no turn has been cut short, the lines of the output are the lines that are shown, and
  the unfinished one is that of the turn that is not over. -/
  framed : (∀ target, '\n' ∉ (labels target).toList) → PrintsPlain printer labels state →
    (∀ turn ∈ state.stdout.done, turn.Whole) →
    state.emitted printer =
        Framing.unframe newline
          ((state.stdout.done.filterMap fun turn => turn.writer.shown).map utf8Bytes) ++
            state.stdout.current.toList.flatMap SharedOutput.Turn.written ∧
      ∀ turn ∈ state.stdout.turns, ∀ text ∈ turn.writer.shown, newline ∉ utf8Bytes text

/-- How far a consumer is. -/
structure LaneHolds (lane : TailLane) (lines : List String) (writing : Prop) : Prop where
  bounded : lane.taken ≤ lane.received.length
  complete : lane.ended = false → lines ++ lane.job.toList = lane.received.take lane.taken
  ordered : lines ++ lane.job.toList <+: lane.received
  free : ∀ line ∈ lane.received, newline ∉ utf8Bytes line
  /-- A consumer that does not wait has no blocking task. -/
  idle : lane.ended = false → lane.printing = false → lane.job = none ∧ ¬ writing
  /-- A consumer has one blocking task at a time. -/
  single : writing → lane.job = none

/-- The turn that is not over is one of the target. -/
def Writing (stdout : SharedOutput Printing UInt8) (target : ℕ) : Prop :=
  ∃ turn ∈ stdout.current, turn.writer.target = target

/-- The invariant of a run. -/
structure Holds (printer : TailPrinter) (labels : ℕ → String) (state : TailOutput) : Prop where
  rendered : ∀ turn ∈ state.stdout.turns, Renders printer labels turn
  lanes : ∀ target, LaneHolds (state.lanes target) (printedLines state.stdout.turns target)
    (Writing state.stdout target)
  /-- A target that has failed has no more turns. -/
  failed : ∀ turn ∈ state.stdout.done, ¬ turn.Whole →
    (state.lanes turn.writer.target).ended = true ∧ (state.lanes turn.writer.target).job = none
  broken : state.stdout.turns.Pairwise fun first second =>
    first.Whole ∨ first.writer.target ≠ second.writer.target
  pieces : state.pieces.flatten = state.stdout.content

variable {printer : TailPrinter} {labels : ℕ → String} {state before after : TailOutput}
  {turns : List (SharedOutput.Turn Printing UInt8)} {turn : SharedOutput.Turn Printing UInt8}
  {target other : ℕ} {lane : TailLane} {lines : List String} {writing : Prop} {line : String}

@[simp] theorem lanes_withLane_self : (state.withLane target lane).lanes target = lane :=
  Function.update_self ..

theorem lanes_withLane_of_ne (different : other ≠ target) :
    (state.withLane target lane).lanes other = state.lanes other :=
  Function.update_of_ne different ..

theorem printedLines_snoc : printedLines (turns ++ [turn]) target =
    printedLines turns target ++
      if turn.writer.target = target then [turn.writer.line] else [] := by
  unfold printedLines
  rw [List.filter_append, List.map_append]
  by_cases own : turn.writer.target = target <;> simp [own]

namespace LaneHolds

theorem receive (holds : LaneHolds lane lines writing) (free : newline ∉ utf8Bytes line) :
    LaneHolds { lane with received := lane.received ++ [line] } lines writing where
  bounded := by
    have bounded := holds.bounded
    simp only [List.length_append, List.length_singleton]
    omega
  complete live := by
    rw [List.take_append_of_le_length holds.bounded]
    exact holds.complete live
  ordered := holds.ordered.trans (List.prefix_append _ _)
  free other member := by
    rcases List.mem_append.mp member with earlier | last
    · exact holds.free other earlier
    · exact List.mem_singleton.mp last ▸ free
  idle := holds.idle
  single := holds.single

theorem take (holds : LaneHolds lane lines writing) (live : lane.ended = false)
    (idle : lane.printing = false) (next : lane.received[lane.taken]? = some line) :
    LaneHolds { lane with taken := lane.taken + 1, job := some line, printing := true } lines
      writing := by
  obtain ⟨none, notWriting⟩ := holds.idle live idle
  have complete := holds.complete live
  rw [none] at complete
  have longer : lines ++ [line] = lane.received.take (lane.taken + 1) := by
    rw [List.take_add_one, next, ← complete]
    simp
  refine ⟨?_, fun _ => longer, ?_, holds.free, fun _ printing => ?_, fun writes => ?_⟩
  · exact Nat.succ_le_of_lt (List.getElem?_eq_some_iff.mp next).1
  · change lines ++ [line] <+: _
    rw [longer]
    exact List.take_prefix _ _
  · cases printing
  · exact absurd writes notWriting

/-- The blocking task of a consumer takes its turn. -/
theorem lock (holds : LaneHolds lane lines writing) (waiting : lane.job = some line) :
    LaneHolds { lane with job := none } (lines ++ [line]) True where
  bounded := holds.bounded
  complete live := by
    have complete := holds.complete live
    rw [waiting] at complete
    simpa using complete
  ordered := by
    have ordered := holds.ordered
    rw [waiting] at ordered
    simpa using ordered
  free := holds.free
  idle live idle := by
    rw [(holds.idle live idle).1] at waiting
    cases waiting
  single _ := rfl

/-- The turn of a consumer is over. -/
theorem finish (holds : LaneHolds lane lines writing) (writes : writing) :
    LaneHolds { lane with printing := false } lines False :=
  ⟨holds.bounded, holds.complete, holds.ordered, holds.free,
    fun _ _ => ⟨holds.single writes, id⟩, fun none => none.elim⟩

theorem ended (holds : LaneHolds lane lines writing) {still : Prop} (fewer : still → writing) :
    LaneHolds { lane with ended := true } lines still where
  bounded := holds.bounded
  complete live := by cases live
  ordered := holds.ordered
  free := holds.free
  idle live := by cases live
  single writes := holds.single (fewer writes)

theorem drop (holds : LaneHolds lane lines writing) (ended : lane.ended = true) :
    LaneHolds { lane with job := none } lines writing where
  bounded := holds.bounded
  complete live := by
    rw [ended] at live
    cases live
  ordered := by
    rw [Option.toList_none, List.append_nil]
    exact (List.prefix_append _ _).trans holds.ordered
  free := holds.free
  idle live := by
    rw [ended] at live
    cases live
  single _ := rfl

/-- No other consumer has a turn any more. -/
theorem congr (holds : LaneHolds lane lines writing) {still : Prop} (fewer : still → writing) :
    LaneHolds lane lines still :=
  ⟨holds.bounded, holds.complete, holds.ordered, holds.free,
    fun live idle => ⟨(holds.idle live idle).1, fun writes =>
      (holds.idle live idle).2 (fewer writes)⟩, fun writes => holds.single (fewer writes)⟩

end LaneHolds

namespace Holds

theorem start (started : Start state) : Holds printer labels state := by
  obtain ⟨lanes, stdout, pieces⟩ := started
  refine ⟨?_, fun target => ?_, ?_, ?_, ?_⟩
  · rw [stdout]
    intro turn member
    cases member
  · rw [lanes, stdout]
    refine ⟨le_rfl, fun _ => rfl, List.prefix_rfl, fun line member => ?_, fun _ _ => ⟨rfl, ?_⟩,
      fun _ => rfl⟩
    · cases member
    · rintro ⟨turn, member, _⟩
      cases member
  · rw [stdout]
    intro turn member
    cases member
  · rw [stdout]
    exact .nil
  · rw [stdout, pieces]
    rfl

/-- A consumer goes on while the output stays. -/
theorem withLane (holds : Holds printer labels state)
    (own : LaneHolds lane (printedLines state.stdout.turns target) (Writing state.stdout target))
    (failed : (state.lanes target).ended = true → (state.lanes target).job = none →
      lane.ended = true ∧ lane.job = none) :
    Holds printer labels (state.withLane target lane) := by
  refine ⟨holds.rendered, fun other => ?_, fun turn member cut => ?_, holds.broken,
    holds.pieces⟩
  · by_cases same : other = target
    · subst same
      rw [lanes_withLane_self]
      exact own
    · rw [lanes_withLane_of_ne same]
      exact holds.lanes other
  · obtain ⟨ended, none⟩ := holds.failed turn member cut
    by_cases same : turn.writer.target = target
    · subst same
      rw [lanes_withLane_self]
      exact failed ended none
    · rw [lanes_withLane_of_ne same]
      exact ⟨ended, none⟩

/-- A line of a target comes first in none of the turns that have failed. -/
theorem whole_or_ne (holds : Holds printer labels state)
    (waiting : (state.lanes target).job = some line) :
    ∀ turn ∈ state.stdout.done, turn.Whole ∨ turn.writer.target ≠ target := by
  intro turn member
  by_contra neither
  obtain ⟨cut, same⟩ := not_or.mp neither
  obtain ⟨_, none⟩ := holds.failed turn member cut
  rw [not_not.mp same, waiting] at none
  cases none

/-- A blocking task takes the lock. -/
theorem lock (holds : Holds printer labels state) (terminalWidth : Option ℕ)
    (waiting : (state.lanes target).job = some line) (free : state.stdout.current = none) :
    Holds printer labels
      { state.withLane target { state.lanes target with job := none } with
        stdout := state.stdout.lock
          ⟨target, line, printer.print (labels target) line terminalWidth⟩
          (printedBytes (printer.print (labels target) line terminalWidth)) } := by
  have turns := SharedOutput.turns_of_none free
  have lane := holds.lanes target
  have plain : newline ∉ utf8Bytes line := by
    have ordered := lane.ordered
    rw [waiting] at ordered
    exact lane.free line (ordered.subset (by simp))
  refine ⟨?_, fun other => ?_, fun turn member cut => ?_, ?_,
    holds.pieces.trans (SharedOutput.content_lock free).symm⟩
  · rw [SharedOutput.turns_lock]
    exact SharedOutput.forall_turns holds.rendered
      ⟨⟨terminalWidth, rfl⟩, rfl, plain, List.nil_prefix⟩
  · rw [SharedOutput.turns_lock, printedLines_snoc, ← turns]
    by_cases same : other = target
    · subst same
      rw [if_pos rfl]
      refine LaneHolds.congr ?_ fun _ => trivial
      have locked := lane.lock waiting
      simpa using locked
    · rw [if_neg (Ne.symm same), List.append_nil]
      change LaneHolds ((state.withLane target _).lanes other) _ _
      rw [lanes_withLane_of_ne same]
      refine (holds.lanes other).congr ?_
      rintro ⟨turn, own, writes⟩
      obtain rfl := Option.some.inj own
      exact absurd writes.symm same
  · obtain ⟨ended, none⟩ := holds.failed turn member cut
    by_cases same : turn.writer.target = target
    · rw [same, waiting] at none
      cases none
    · dsimp only
      rw [lanes_withLane_of_ne same]
      exact ⟨ended, none⟩
  · rw [SharedOutput.turns_lock, List.pairwise_append]
    refine ⟨turns ▸ holds.broken, List.pairwise_singleton _ _, fun first member second own => ?_⟩
    rw [List.mem_singleton.mp own]
    exact holds.whole_or_ne waiting first member

/-- The turn that is not over goes on. -/
theorem write (holds : Holds printer labels state) {piece rest : List UInt8}
    (held : state.stdout.current = some turn)
    (more : turn.text = turn.written ++ (piece ++ rest)) :
    Holds printer labels
      { state with
        stdout := state.stdout.write turn piece
        pieces := state.pieces ++ [piece] } := by
  have turns := SharedOutput.turns_of_some held
  have member : turn ∈ state.stdout.turns := by
    rw [turns]
    exact List.mem_append_right _ List.mem_cons_self
  have renders := holds.rendered turn member
  have lines (target : ℕ) :
      printedLines (state.stdout.write turn piece).turns target =
        printedLines state.stdout.turns target := by
    rw [turns, SharedOutput.turns_write, printedLines_snoc, printedLines_snoc]
  refine ⟨?_, fun target => ?_, holds.failed, ?_, ?_⟩
  · rw [SharedOutput.turns_write]
    refine SharedOutput.forall_turns holds.rendered
      ⟨renders.shown, renders.text, renders.line, ?_⟩
    dsimp only
    rw [more, ← List.append_assoc]
    exact List.prefix_append _ _
  · rw [lines]
    refine (holds.lanes target).congr ?_
    rintro ⟨other, own, writes⟩
    obtain rfl := Option.some.inj own
    exact ⟨turn, held, writes⟩
  · have broken := holds.broken
    rw [turns, List.pairwise_append] at broken
    rw [SharedOutput.turns_write, List.pairwise_append]
    refine ⟨broken.1, List.pairwise_singleton _ _, fun first earlier second own => ?_⟩
    rw [List.mem_singleton.mp own]
    exact broken.2.2 first earlier turn List.mem_cons_self
  · rw [List.flatten_append, holds.pieces, SharedOutput.content_write held, List.flatten_singleton]

/-- A turn is over, with all of its text or because a write has failed. -/
theorem unlock (holds : Holds printer labels state) (held : state.stdout.current = some turn)
    (own : LaneHolds lane (printedLines state.stdout.turns turn.writer.target) False)
    (none : lane.job = none) (ended : (state.lanes turn.writer.target).ended = true →
      lane.ended = true) (failed : ¬ turn.Whole → lane.ended = true) :
    Holds printer labels
      { state.withLane turn.writer.target lane with stdout := state.stdout.unlock turn } := by
  have turns : (state.stdout.unlock turn).turns = state.stdout.turns := by
    rw [SharedOutput.turns_unlock, SharedOutput.turns_of_some held]
  refine ⟨?_, fun target => ?_, fun other member cut => ?_, ?_,
    holds.pieces.trans (SharedOutput.content_unlock held).symm⟩
  · rw [turns]
    exact holds.rendered
  · rw [turns]
    have still : Writing (state.stdout.unlock turn) target → False := by
      rintro ⟨other, gone, _⟩
      cases gone
    by_cases same : target = turn.writer.target
    · subst same
      change LaneHolds ((state.withLane _ lane).lanes _) _ _
      rw [lanes_withLane_self]
      exact own.congr still
    · change LaneHolds ((state.withLane _ lane).lanes target) _ _
      rw [lanes_withLane_of_ne same]
      exact (holds.lanes target).congr fun writes => (still writes).elim
  · change ((state.withLane _ lane).lanes _).ended = true ∧
      ((state.withLane _ lane).lanes _).job = _
    have before (earlier : other ∈ state.stdout.done) := holds.failed other earlier cut
    by_cases same : other.writer.target = turn.writer.target
    · rw [same, lanes_withLane_self]
      refine ⟨?_, none⟩
      rcases List.mem_append.mp member with earlier | last
      · exact ended (same ▸ (before earlier).1)
      · exact failed (List.mem_singleton.mp last ▸ cut)
    · rw [lanes_withLane_of_ne same]
      rcases List.mem_append.mp member with earlier | last
      · exact before earlier
      · exact absurd (congrArg (fun turn => turn.writer.target) (List.mem_singleton.mp last)) same
  · rw [turns]
    exact holds.broken

theorem step (holds : Holds printer labels before)
    (stepped : Step printer labels before after) : Holds printer labels after := by
  cases stepped with
  | receive target line live room free =>
      refine holds.withLane ((holds.lanes target).receive free) ?_
      exact And.intro
  | take target line live idle next =>
      refine holds.withLane ((holds.lanes target).take live idle next) fun ended _ => ?_
      rw [live] at ended
      cases ended
  | lock target line terminalWidth waiting free => exact holds.lock terminalWidth waiting free
  | write turn piece rest held more => exact holds.write held more
  | finish turn held whole =>
      have writes : Writing before.stdout turn.writer.target := ⟨turn, held, rfl⟩
      have lane := holds.lanes turn.writer.target
      exact holds.unlock held (lane.finish writes) (lane.single writes) id
        fun cut => absurd whole cut
  | fail turn held =>
      have writes : Writing before.stdout turn.writer.target := ⟨turn, held, rfl⟩
      have lane := holds.lanes turn.writer.target
      exact holds.unlock held (lane.ended False.elim) (lane.single writes) (fun _ => rfl)
        fun _ => rfl
  | abort target =>
      exact holds.withLane ((holds.lanes target).ended id) fun _ none => ⟨rfl, none⟩
  | drop target ended =>
      exact holds.withLane ((holds.lanes target).drop ended) fun ended _ => ⟨ended, rfl⟩

theorem run (run : Run printer labels state) : Holds printer labels state := by
  refine Transition.Reachable.invariant ?_ ?_ run
  · intro state started
    exact .start started
  · intro before after _ holds stepped
    exact holds.step stepped

end Holds

/-! ### What the lines look like -/

theorem newline_mem_utf8Bytes {text : String} (inside : '\n' ∈ text.toList) :
    newline ∈ utf8Bytes text := by
  rw [utf8Bytes_eq_flatMap, List.mem_flatMap]
  exact ⟨'\n', inside, by decide⟩

/-- A label without line breaks is printed without line breaks. -/
theorem newline_not_mem_formatLabelPrefix (printer : TailPrinter) {label : String}
    (free : '\n' ∉ label.toList) (color : Bool) :
    '\n' ∉ (formatLabelPrefix printer.terminal.anstyle label color).toList := by
  have separated : '\n' ∉ separator.toList := by decide
  unfold formatLabelPrefix
  split
  · simp only [String.toList_append, List.mem_append, not_or]
    exact ⟨⟨⟨printer.render_free _, free⟩, printer.renderReset_free _⟩, separated⟩
  · simp only [String.toList_append, List.mem_append, not_or]
    exact ⟨free, separated⟩

/-- What is shown of a line without line breaks has none. -/
theorem newline_not_mem_print {label : String} {terminalWidth : Option ℕ} {text : String}
    (labelled : '\n' ∉ label.toList) (free : newline ∉ utf8Bytes line)
    (shown : printer.print label line terminalWidth = some text) : newline ∉ utf8Bytes text := by
  have lineFree : '\n' ∉ line.toList := fun inside => free (newline_mem_utf8Bytes inside)
  have front := newline_not_mem_formatLabelPrefix printer labelled printer.useColor
  apply newline_not_mem_utf8Bytes
  unfold TailPrinter.print at shown
  split at shown
  · obtain ⟨value, body, _, printable, rfl⟩ := formatNormalLine_eq_some.mp shown
    have plain := controlFree_shownBody printer.terminal.unicodeWidth label
      (isInline_normalBody printable).1.controlFree terminalWidth
    rw [String.toList_append, List.mem_append, not_or]
    refine ⟨front, fun inside => ?_⟩
    have control := plain _ inside
    revert control
    decide
  · obtain rfl := Option.some.inj shown
    unfold formatJsonlLine
    rw [String.toList_append, List.mem_append, not_or]
    refine ⟨front, ?_⟩
    split
    · unfold colorizeJsonlLine
      split
      · exact lineFree
      · next value parsed =>
          cases coloured : printer.coloredJson.toColoredJson value with
          | none => exact lineFree
          | some text => exact printer.coloredJson.compact value text coloured
    · exact lineFree

theorem flatMap_text (rendered : ∀ turn ∈ turns, Renders printer labels turn) :
    turns.flatMap SharedOutput.Turn.text =
      Framing.unframe newline
        ((turns.filterMap fun turn => turn.writer.shown).map utf8Bytes) := by
  induction turns with
  | nil => rfl
  | cons turn more ih =>
      rw [List.flatMap_cons, ih fun other member => rendered other (List.mem_cons_of_mem _ member),
        (rendered turn List.mem_cons_self).text]
      rw [List.filterMap_cons]
      cases turn.writer.shown with
      | none => rfl
      | some text => simp [printedBytes]

/-- Without colours, what is shown of a line has no control characters if it is to be shown as it
is. -/
theorem plain_print {label : String} {terminalWidth : Option ℕ} {text : String}
    (uncolored : printer.useColor = false) (labelled : Plain label)
    (free : printer.format = .jsonl → Plain line)
    (shown : printer.print label line terminalWidth = some text) : Plain text := by
  have front : Plain (formatLabelPrefix printer.terminal.anstyle label false) := by
    have separated : Plain separator := by simp [Plain, separator, isControl]
    intro char member
    rw [formatLabelPrefix, if_neg Bool.false_ne_true, String.toList_append,
      List.mem_append] at member
    exact member.elim (labelled char) (separated char)
  unfold TailPrinter.print at shown
  intro char
  cases format : printer.format with
  | normal =>
      rw [format, uncolored] at shown
      obtain ⟨value, body, _, printable, rfl⟩ := formatNormalLine_eq_some.mp shown
      rw [String.toList_append, List.mem_append]
      exact fun member => member.elim (front char)
        (controlFree_shownBody printer.terminal.unicodeWidth label
          (isInline_normalBody printable).1.controlFree terminalWidth char)
  | jsonl =>
      rw [format, uncolored] at shown
      obtain rfl := Option.some.inj shown
      rw [formatJsonlLine, if_neg Bool.false_ne_true, String.toList_append, List.mem_append]
      exact fun member => member.elim (front char) (free format char)

/-- Lines of plain text are text without control characters but line breaks. -/
theorem exists_unframe {texts : List String} (plain : ∀ text ∈ texts, Plain text) :
    ∃ text, utf8Bytes text = Framing.unframe newline (texts.map utf8Bytes) ∧
      ∀ char ∈ text.toList, isControl char = true → char = '\n' := by
  induction texts with
  | nil => exact ⟨"", rfl, nofun⟩
  | cons first more ih =>
      obtain ⟨rest, bytes, controls⟩ :=
        ih fun text member => plain text (List.mem_cons_of_mem _ member)
      refine ⟨first ++ "\n" ++ rest, ?_, fun char member control => ?_⟩
      · have ending : utf8Bytes "\n" = [newline] := by decide
        rw [utf8Bytes_append, utf8Bytes_append, bytes, ending, List.map_cons, Framing.unframe_cons,
          List.append_assoc, List.singleton_append]
      · simp only [String.toList_append, List.mem_append] at member
        rcases member with (own | last) | later
        · rw [plain first List.mem_cons_self char own] at control
          cases control
        · exact List.mem_singleton.mp last
        · exact controls char later control

/-- What is written is passed on, with colours or when it is plain. -/
theorem emitted_eq_content (holds : Holds printer labels state)
    (ordered : ∀ target, printedLines state.stdout.turns target <+: (state.lanes target).received)
    (plain : PrintsPlain printer labels state) (whole : ∀ turn ∈ state.stdout.done, turn.Whole) :
    state.emitted printer = state.stdout.content := by
  unfold emitted
  cases colored : printer.useColor with
  | true => exact holds.pieces
  | false =>
      obtain ⟨labelled, lines⟩ := plain colored
      have shown : ∀ text ∈ state.stdout.turns.filterMap fun turn => turn.writer.shown,
          Plain text := by
        intro text member
        obtain ⟨turn, inside, found⟩ := List.mem_filterMap.mp member
        obtain ⟨terminalWidth, printed⟩ := (holds.rendered turn inside).shown
        rw [printed] at found
        refine plain_print colored (labelled _) (fun format => ?_) found
        apply lines format turn.writer.target
        apply (ordered _).subset
        exact List.mem_map.mpr ⟨turn, List.mem_filter.mpr ⟨inside, by simp⟩, rfl⟩
      obtain ⟨text, bytes, controls⟩ := exists_unframe shown
      rw [if_neg Bool.false_ne_true, ← holds.pieces]
      apply printer.autoStream.printable text state.pieces controls
      rw [bytes, ← flatMap_text holds.rendered, holds.pieces,
        SharedOutput.content_of_whole whole, SharedOutput.turns, List.flatMap_append]
      refine List.prefix_append_right_inj _ |>.mpr ?_
      cases held : state.stdout.current with
      | none => exact List.nil_prefix
      | some turn =>
          have renders := holds.rendered turn (by
            rw [SharedOutput.turns_of_some held]
            exact List.mem_append_right _ List.mem_cons_self)
          simpa using renders.written

/-- The lines of all targets come out one after the other, those of a target in order and none left
out, until a write fails or a consumer is aborted. -/
theorem output_lines_stay_whole (run : Run printer labels state) :
    KeepsLines printer labels state := by
  have holds := Holds.run run
  have ordered (target : ℕ) :
      printedLines state.stdout.turns target <+: (state.lanes target).received :=
    (List.prefix_append _ _).trans (holds.lanes target).ordered
  refine ⟨holds.rendered, ordered, fun target => (holds.lanes target).complete,
    holds.broken, fun labelled plain whole => ⟨?_, fun turn member text shown => ?_⟩⟩
  · rw [emitted_eq_content holds ordered plain whole, SharedOutput.content_of_whole whole,
      flatMap_text fun turn member => holds.rendered turn (List.mem_append_left _ member)]
  · have renders := holds.rendered turn member
    obtain ⟨terminalWidth, printed⟩ := renders.shown
    rw [printed] at shown
    exact newline_not_mem_print (labelled _) renders.line shown

end TailOutput

namespace Sample

/-- JSON lines without colours. -/
def jsonlPrinter : TailPrinter where
  terminal := escapedTerminal
  coloredJson := ⟨fun _ => none, fun _ _ printed => by cases printed⟩
  autoStream := ⟨List.flatten, fun _ _ _ _ => rfl⟩
  format := .jsonl
  useColor := false
  render_free _ := by simp [escapedTerminal, terminal]
  renderReset_free _ := by simp [escapedTerminal, terminal]

/-- Two targets. -/
def labels (target : ℕ) : String := if target = 0 then "nhk" else "etv"

end Sample

namespace TailOutput

/-- The second target is printed first, and the first one is in the middle of a write. -/
theorem output_lines_stay_whole_sample : ∃ state : TailOutput,
    state.stdout.done.map (fun turn => turn.writer.line) = ["drama"] ∧
      state.emitted Sample.jsonlPrinter = utf8Bytes "etv │ drama\nnhk" ∧
        KeepsLines Sample.jsonlPrinter Sample.labels state := by
  let lane : TailLane := ⟨[], 0, none, false, false⟩
  have start : Run Sample.jsonlPrinter Sample.labels ⟨fun _ => lane, .empty, []⟩ :=
    .initial ⟨fun _ => rfl, rfl, rfl⟩
  have first := start.next (.receive 0 "news" rfl (by decide) (by decide))
  have second := first.next (.receive 1 "drama" rfl (by decide) (by decide))
  have taken := second.next (.take 0 "news" rfl rfl rfl)
  have both := taken.next (.take 1 "drama" rfl rfl rfl)
  have locked := both.next (.lock 1 "drama" none rfl rfl)
  have written := locked.next (.write _
    (printedBytes (Sample.jsonlPrinter.print (Sample.labels 1) "drama" none)) [] rfl
    (List.append_nil _).symm)
  have finished := written.next (.finish _ rfl (List.nil_append _))
  have again := finished.next (.lock 0 "news" none rfl rfl)
  have torn := again.next (.write _ (utf8Bytes "nhk") (utf8Bytes " │ news" ++ [newline]) rfl
    (by decide +kernel))
  exact ⟨_, rfl, by decide +kernel, output_lines_stay_whole torn⟩

end TailOutput

end AribcapDb
