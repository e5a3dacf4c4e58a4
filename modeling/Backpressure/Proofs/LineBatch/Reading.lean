import Backpressure.Proofs.LineBatch.Shadow
import Backpressure.Proofs.Writer.Progress

/-!
# What the main thread of the batcher does

The main thread writes the lines that can be read, in order, and reports where a line cannot be
read. It closes the writer, and sums up and reads the errors once the close has left the writer
quiet. So it ends with a status that depends on the input only.
-/

namespace Backpressure

/-- An open channel accepts an item, or lets a push wait for as long as it takes. -/
theorem Channel.cases_of_push {α : Type} {c : Channel α} (hopen : c.closed = false) (now : Instant)
    (item : α) :
    step c now (.push item none) =
        pushed { c with queue := c.queue ++ [item] } item (.pushed (.ok ())) ∨
      step c now (.push item none) =
        { state := c, outcome := .sleep .notFull none (.push item none), signals := [],
          notes := [] } := by
  simp only [step, stepPush, tryPush, hopen]
  by_cases hfull : c.isFull = true
  · right
    simp [hfull]
  · left
    simp [hfull]

/-- Who closes a writer does so for a call. -/
theorem Writer.isForCall_of_isClosing {α : Type} {position : Position α}
    {purposes : Buffer.Purpose → Prop} (hsuits : position.Suits purposes)
    (h : position.isClosing = true) : position.isForCall = true := by
  cases position with
  | channel task p => cases task <;> first | rfl | contradiction
  | buffer task p =>
    cases task with
    | close =>
      have hpurpose : p.purpose = .shutdown := hsuits
      simp [Position.isForCall, hpurpose]
    | own | pump => contradiction
  | drained => contradiction
  | lock | join | release | inspect => rfl

namespace LineBatch

/-- The number of the main thread. -/
abbrev mainThread : Nat := 2

/-- The batcher once its main thread has begun to read an input. -/
def underway (job : Job) (now : Instant) (input : Reading) : System monitor :=
  { system job now with
    threads := (system job now).threads ++ [.ready (start input now)]
    journal := [.called mainThread input] }

/-- What may happen to the batcher under way, where its sink and its periodic trigger are given some
inputs only: anything but another call. -/
def Working (fits : Buffer.Input → Prop) : Event monitor → Prop
  | .call _ _ => False
  | .step _ input _ => fits input.buffer
  | _ => True

/-- The inputs that a run needs in which the periodic trigger does not go off. -/
structure Suffices (fits : Buffer.Input → Prop) : Prop where
  nothing : fits .nothing
  accepted : fits (.outcome .accepted)
  stop : fits .stop

/-- The errors that reading an input comes to. -/
def Reading.errors (input : Reading) : List String := if input.broken then [unreadable] else []

/-- The status that reading an input comes to. -/
def Reading.status (input : Reading) : Nat := if input.broken then 1 else 0

/-- What the main thread still has to read or to write at a place. -/
def Position.unread? : Position → Option Reading
  | .read input => some input
  | .permit line rest _ | .write line rest => some { rest with lines := line :: rest.lines }
  | .writer (.write rest) (.channel .own (.push line none)) =>
    some { rest with lines := line :: rest.lines }
  | _ => none

/-- The lines that have been written, in order. -/
def written (l : Layout monitor) : List String :=
  told Writer.accepted? (writerPart.layout l).notes

/-- The errors that have been reported and not read. -/
def unreadErrors (l : Layout monitor) : List String := l.state.writer.channel.errors.unread

/-- How far the main thread has come after the close, with some errors left to read. -/
inductive Rest (input : Reading) (left : List String) : Position → Prop
  | count (same : left = input.errors) : Rest input left (.writer .count (.buffer .own .inspect))
  | sumUp {tally} (same : left = input.errors) (fine : tally.failedBatches = 0) :
      Rest input left (.sumUp tally)
  | poll {failed} (same : left = if failed then [] else input.errors)
      (broken : failed = true → input.broken = true) :
      Rest input left (.writer (.errors failed) (.channel .own .pollError))
  | tell {error} (same : left = []) (broken : input.broken = true) : Rest input left (.tell error)

/-- How far the main thread has come. -/
inductive Stage (input : Reading) (l : Layout monitor) : Position → Prop
  /-- It reads and writes lines. -/
  | reading {position unread} (holds : position.unread? = some unread)
      (all : written l ++ unread.lines = input.lines) (same : unread.broken = input.broken)
      (isOpen : l.state.writer.channel.closed = false) (clean : unreadErrors l = []) :
      Stage input l position
  /-- It has come to a line that cannot be read. -/
  | reporting (all : written l = input.lines) (broken : input.broken = true)
      (isOpen : l.state.writer.channel.closed = false) (clean : unreadErrors l = []) :
      Stage input l (.writer .report (.channel .own (.reportError unreadable)))
  /-- It closes the writer. -/
  | closing {p} (closing : p.isClosing = true) (all : written l = input.lines)
      (errors : unreadErrors l = input.errors) : Stage input l (.writer .close p)
  /-- It has closed the writer. -/
  | closed {position} (quiet : Writer.Quiet (writerPart.layout l)) (all : written l = input.lines)
      (rest : Rest input (unreadErrors l) position) : Stage input l position

/-- What holds once the main thread has returned. -/
structure Finished (input : Reading) (l : Layout monitor) : Prop where
  quiet : Writer.Quiet (writerPart.layout l)
  all : written l = input.lines

variable {input : Reading} {l l' : Layout monitor} {position : Position} {now : Instant}
  {stepInput : Input} {move : Step} {thread : Nat}

/-- A move adds to the lines that have been written what the channel accepts. -/
theorem written_after (l : Layout monitor) (thread : Nat) (move : Step) :
    written (l.after thread move) = written l ++
      (move.notes.filterMap Note.ofWriter?).filterMap
        fun note => Writer.accepted? (thread, note) :=
  writerPart.told_layout Writer.accepted? thread move l.place l.notes l.state move.state _

/-- What a step of the main thread leads to. -/
structure Leads (input : Reading) (l : Layout monitor) (move : Step) : Prop where
  goes : ∀ {place}, (Phase.ofOutcome (M := monitor) move.outcome).place? = some place →
    Stage input l place
  ends : ∀ {status}, move.outcome = .reply status → status = input.status ∧ Finished input l
  stays : move.outcome ≠ .exit

namespace Leads

theorem of_proceed {place : Position} (houtcome : move.outcome = .proceed place)
    (h : Stage input l place) : Leads input l move where
  goes hplace := by
    rw [houtcome] at hplace
    cases hplace
    exact h
  ends hreply := by
    rw [houtcome] at hreply
    contradiction
  stays hexit := by
    rw [houtcome] at hexit
    contradiction

theorem of_sleep {condition : Condition} {wakeAt : Deadline} {place : Position}
    (houtcome : move.outcome = .sleep condition wakeAt place) (h : Stage input l place) :
    Leads input l move where
  goes hplace := by
    rw [houtcome] at hplace
    cases hplace
    exact h
  ends hreply := by
    rw [houtcome] at hreply
    contradiction
  stays hexit := by
    rw [houtcome] at hexit
    contradiction

end Leads

/-- What the main thread has done and found is the same as before. -/
structure Unchanged (l l' : Layout monitor) : Prop where
  written : written l' = written l
  errors : unreadErrors l' = unreadErrors l
  closed : l'.state.writer.channel.closed = l.state.writer.channel.closed
  quiet : Writer.Quiet (writerPart.layout l) → Writer.Quiet (writerPart.layout l')

theorem Stage.unchanged (h : Stage input l position) (hsame : Unchanged l l') :
    Stage input l' position := by
  obtain ⟨hwritten, herrors, hclosed, hquiet⟩ := hsame
  cases h with
  | reading holds all same isOpen clean =>
    exact .reading holds (hwritten ▸ all) same (hclosed.trans isOpen) (herrors.trans clean)
  | reporting all broken isOpen clean =>
    exact .reporting (hwritten.trans all) broken (hclosed.trans isOpen) (herrors.trans clean)
  | closing closing all errors =>
    exact .closing closing (hwritten.trans all) (herrors.trans errors)
  | closed quiet all rest => exact .closed (hquiet quiet) (hwritten.trans all) (herrors ▸ rest)

theorem Finished.unchanged (h : Finished input l) (hsame : Unchanged l l') : Finished input l' :=
  ⟨hsame.quiet h.quiet, hsame.written.trans h.all⟩

/-! ### Steps outside the writer -/

/-- A step outside the writer changes nothing of what the main thread has done and found. -/
theorem unchanged_of_aside (haside : Aside l.state now move)
    (hquiet : Writer.Quiet (writerPart.layout l) →
      Writer.Quiet (writerPart.layout (l.after thread move))) :
    Unchanged l (l.after thread move) where
  written := by
    rw [written_after, haside.notes]
    exact List.append_nil _
  errors := congrArg (·.channel.errors.unread) haside.state
  closed := congrArg (·.channel.closed) haside.state
  quiet := hquiet

/-- Where the main thread goes from a place outside the writer. -/
theorem Stage.outside {job : Job} (h : Stage input l position)
    (heffect : Effect job now position move) (houtside : position.inWriter? = none) :
    Leads input l move := by
  cases heffect with
  | @limited unread line lines limiter first limits =>
    cases h with
    | reading holds all same isOpen clean =>
      cases holds
      refine .of_proceed rfl (.reading rfl ?_ same isOpen clean)
      rw [← all, first]
    | closed _ _ rest => cases rest
  | @unlimited unread line lines first limits =>
    cases h with
    | reading holds all same isOpen clean =>
      cases holds
      refine .of_proceed rfl (.reading rfl ?_ same isOpen clean)
      rw [← all, first]
    | closed _ _ rest => cases rest
  | @broken unread last breaks =>
    cases h with
    | reading holds all same isOpen clean =>
      cases holds
      rw [last, List.append_nil] at all
      exact .of_proceed rfl (.reporting all (same ▸ breaks) isOpen clean)
    | closed _ _ rest => cases rest
  | @exhausted unread last whole =>
    cases h with
    | reading holds all same isOpen clean =>
      cases holds
      rw [last, List.append_nil] at all
      refine .of_proceed rfl (.closing rfl all ?_)
      rw [clean, Reading.errors, ← same, whole]
      rfl
    | closed _ _ rest => cases rest
  | @permit line rest p reading limiter limits =>
    cases h with
    | reading holds all same isOpen clean =>
      have hstays : ∀ {place : Position},
          place.unread? = some { rest with lines := line :: rest.lines } →
            Stage input l place := by
        intro place hplace
        cases holds
        exact .reading hplace all same isOpen clean
      rcases admitted_or_sleeps job line rest limiter now p reading with
        hadmitted | ⟨wakeAt, p', hsleeps⟩
      · exact .of_proceed hadmitted (hstays rfl)
      · exact .of_sleep hsleeps (hstays rfl)
    | closed _ _ rest => cases rest
  | waive limits =>
    cases h with
    | reading holds all same isOpen clean =>
      exact .of_proceed rfl (.reading holds all same isOpen clean)
    | closed _ _ rest => cases rest
  | write =>
    cases h with
    | reading holds all same isOpen clean =>
      exact .of_proceed rfl (.reading holds all same isOpen clean)
    | closed _ _ rest => cases rest
  | writer => contradiction
  | sumUp =>
    cases h with
    | reading holds => contradiction
    | closed quiet all rest =>
      cases rest with
      | sumUp same fine =>
        refine .of_proceed rfl (.closed quiet all (.poll ?_ ?_))
        · simpa [fine] using same
        · simp [fine]
  | tell =>
    cases h with
    | reading holds => contradiction
    | closed quiet all rest =>
      cases rest with
      | tell same broken => exact .of_proceed rfl (.closed quiet all (.poll same fun _ => broken))

/-! ### Steps in a call on the writer -/

/-- In a call on the writer, what is left to write is the line that is being pushed. -/
theorem push_of_unread? {task : Task} {p : Writer.Position String} {unread : Reading}
    (h : (Position.writer task p).unread? = some unread) :
    ∃ line rest, task = .write rest ∧ p = .channel .own (.push line none) ∧
      unread = { rest with lines := line :: rest.lines } := by
  unfold Position.unread? at h
  split at h
  · contradiction
  · contradiction
  · contradiction
  · rename_i rest line hplace
    cases hplace
    cases h
    exact ⟨line, rest, rfl, rfl, rfl⟩
  · contradiction

section Inside

variable {writerMove : Writer.Step String} {writerInput : Buffer.Input}

/-- A line is written, or waits for room. -/
theorem Stage.push {line : String} {rest : Reading}
    (all : written l ++ line :: rest.lines = input.lines) (same : rest.broken = input.broken)
    (isOpen : l.state.writer.channel.closed = false) (clean : unreadErrors l = [])
    (moves : (Writer.monitor String).step l.state.writer now (.channel .own (.push line none))
      writerInput = some writerMove) (thread : Nat) :
    Leads input (l.after thread (ofWriter l.state now (.write rest) writerMove))
      (ofWriter l.state now (.write rest) writerMove) := by
  cases moves
  rcases Channel.cases_of_push isOpen now line with hpushed | hsleeps
  · have hgoes : (ofWriter l.state now (.write rest) (Writer.stepChannel l.state.writer now .own
        (.push line none))).outcome = .proceed (.read rest) := by
      simp only [Move.embed, Writer.stepChannel, hpushed]
      rfl
    refine .of_proceed hgoes (.reading rfl ?_ same ?_ ?_)
    · rw [← all, written_after]
      simp only [Move.embed, Writer.stepChannel, hpushed]
      exact List.append_assoc _ _ _
    · simp only [Move.embed, Writer.stepChannel, hpushed]
      exact isOpen
    · simp only [unreadErrors, Move.embed, Writer.stepChannel, hpushed]
      exact clean
  · have hgoes : (ofWriter l.state now (.write rest) (Writer.stepChannel l.state.writer now .own
        (.push line none))).outcome =
          .sleep (.writer (.channel .notFull)) none
            (.writer (.write rest) (.channel .own (.push line none))) := by
      simp only [Move.embed, Writer.stepChannel, hsleeps]
    refine .of_sleep hgoes (.reading rfl ?_ same ?_ ?_)
    · rw [written_after]
      simp only [Move.embed, Writer.stepChannel, hsleeps]
      exact (congrArg (· ++ _) (List.append_nil _)).trans all
    · simp only [Move.embed, Writer.stepChannel, hsleeps]
      exact isOpen
    · simp only [unreadErrors, Move.embed, Writer.stepChannel, hsleeps]
      exact clean

/-- The line that cannot be read is reported. -/
theorem Stage.report (all : written l = input.lines) (broken : input.broken = true)
    (clean : unreadErrors l = [])
    (moves : (Writer.monitor String).step l.state.writer now
      (.channel .own (.reportError unreadable)) writerInput = some writerMove) (thread : Nat) :
    Leads input (l.after thread (ofWriter l.state now .report writerMove))
      (ofWriter l.state now .report writerMove) := by
  have hempty : l.state.writer.channel.errors.unread = [] := clean
  have hroom : l.state.writer.channel.errors.isFull = false := by
    have hpos := l.state.writer.channel.errors.capacity_pos
    simp only [Sideband.isFull, hempty, List.length_nil]
    exact decide_eq_false (by omega)
  cases moves
  refine .of_proceed rfl (.closing rfl ?_ ?_)
  · rw [written_after]
    simp only [Move.embed, Writer.stepChannel, Channel.step, Channel.stepReportError,
      Sideband.discarded?, hroom]
    exact (List.append_nil _).trans all
  · simp only [unreadErrors, Move.embed, Writer.stepChannel, Channel.step,
      Channel.stepReportError, Sideband.report, hroom, Reading.errors, broken]
    exact congrArg (· ++ [unreadable]) hempty

/-- A close that returns leaves the writer quiet, whatever its thread does next. -/
theorem quiet_of_release {flush : Flush} {next : Position} {notes : List (Nat × Note)}
    (hknown : Writer.Known (writerPart.layout l))
    (here : (writerPart.layout l).place thread = some (.release flush))
    (hnext : ∀ flush', next.inWriter? = some (.release flush') → flush' = .empty) :
    Writer.Quiet (writerPart.layout
      { state := { l.state with writer := { l.state.writer with locked := false } }
        place := Function.update l.place thread (some next), notes }) := by
  have hquiet := hknown.quiet_of_release here
  have hupdated : Writer.Quiet ⟨_, Function.update _ thread next.inWriter?,
      (writerPart.layout { l with notes }).notes⟩ :=
    hquiet.update hquiet.claimed hquiet.ended hquiet.settled hnext
  rw [Function.update_idem] at hupdated
  rw [Part.layout, Part.place_update]
  exact hupdated

/-- The close goes on, or leaves the writer quiet. -/
theorem Stage.close {p : Writer.Position String} (closing : p.isClosing = true)
    (all : written l = input.lines) (errors : unreadErrors l = input.errors)
    (hknown : Writer.Known (writerPart.layout l))
    (here : (writerPart.layout l).place thread = some p)
    (moves : (Writer.monitor String).step l.state.writer now p writerInput = some writerMove) :
    Leads input (l.after thread (ofWriter l.state now .close writerMove))
      (ofWriter l.state now .close writerMove) := by
  have heffect := Writer.effect_of_moves moves
  have hsuits := hknown.posts.suits here
  have hwritten : written (l.after thread (ofWriter l.state now .close writerMove)) =
      input.lines := by
    have hoffers : p.offered? = none := by
      cases p with
      | channel task p => cases task <;> first | rfl | contradiction
      | _ => rfl
    rw [written_after]
    simp only [Move.embed, filterMap_ofWriter?_writer]
    rw [Writer.accepts_nothing heffect hsuits hoffers, List.append_nil, all]
  have herrors : unreadErrors (l.after thread (ofWriter l.state now .close writerMove)) =
      input.errors := by
    have hsame := Writer.errors_of_effect heffect hsuits (by rintro p' rfl; contradiction)
    rw [← errors]
    exact congrArg Sideband.unread hsame
  constructor
  · intro place hplace
    rcases cases_of_embed (W := monitor) (M := Writer.monitor String) hplace with
      ⟨p', rfl, hstays⟩ | ⟨reply, hreply, hover⟩
    · exact .closing ((Writer.keeps_of_effect heffect hstays).2.trans closing) hwritten herrors
    · obtain ⟨flush, rfl, rfl, rfl⟩ := Writer.release_of_reply heffect closing hreply
      cases hover
      exact .closed (quiet_of_release hknown here nofun) hwritten (.count herrors)
  · intro status hends
    simp only [Move.embed] at hends
    cases houtcome : writerMove.outcome with
    | reply reply =>
      rw [houtcome] at hends
      contradiction
    | _ => simp [houtcome] at hends
  · have hfor := Writer.isForCall_of_isClosing hsuits closing
    intro hexit
    simp only [Move.embed] at hexit
    cases houtcome : writerMove.outcome with
    | exit => exact Writer.ne_exit_of_effect heffect hfor houtcome
    | reply reply =>
      rw [houtcome] at hexit
      contradiction
    | _ => simp [houtcome] at hexit

/-- The counts are looked at, and no delivery has failed. -/
theorem Stage.count (hfine : l.state.writer.buffer.tally.failedBatches = 0)
    (quiet : Writer.Quiet (writerPart.layout
      (l.after thread (ofWriter l.state now .count writerMove))))
    (all : written l = input.lines) (errors : unreadErrors l = input.errors)
    (moves : (Writer.monitor String).step l.state.writer now (.buffer .own .inspect)
      writerInput = some writerMove) :
    Leads input (l.after thread (ofWriter l.state now .count writerMove))
      (ofWriter l.state now .count writerMove) := by
  cases moves
  have hwritten := (written_after l thread (ofWriter l.state now .count (Writer.ofBuffer
    l.state.writer .own (.reply l.state.writer.buffer (.snapshot l.state.writer.buffer))))).trans
      (List.append_nil _)
  exact .of_proceed rfl (.closed quiet (hwritten.trans all) (.sumUp errors hfine))

/-- The oldest error is read, if there is one. -/
theorem Stage.poll {failed : Bool} (quiet : Writer.Quiet (writerPart.layout
      (l.after thread (ofWriter l.state now (.errors failed) writerMove))))
    (all : written l = input.lines) (errors : unreadErrors l = if failed then [] else input.errors)
    (broken : failed = true → input.broken = true)
    (moves : (Writer.monitor String).step l.state.writer now (.channel .own .pollError)
      writerInput = some writerMove) :
    Leads input (l.after thread (ofWriter l.state now (.errors failed) writerMove))
      (ofWriter l.state now (.errors failed) writerMove) := by
  have hunread : l.state.writer.channel.errors.unread =
      if failed then [] else input.errors := errors
  cases moves
  by_cases hleft : failed = false ∧ input.broken = true
  · obtain ⟨rfl, hbroken⟩ := hleft
    have hone : l.state.writer.channel.errors.unread = [unreadable] := by
      simpa [Reading.errors, hbroken] using hunread
    have hgoes : (ofWriter l.state now (.errors false) (Writer.stepChannel l.state.writer now .own
        .pollError)).outcome = .proceed (.tell unreadable) := by
      simp [Move.embed, Writer.stepChannel, Channel.step, Channel.stepPollError, Sideband.oldest?,
        hone, Writer.afterChannel, afterWriter]
    refine .of_proceed hgoes (.closed quiet ?_ (.tell ?_ hbroken))
    · rw [written_after]
      simp [Move.embed, Writer.stepChannel, Channel.step, Channel.stepPollError, Sideband.oldest?,
        hone, Note.ofWriter?, Writer.accepted?, Writer.Note.ofChannel?, Channel.Note.accepted?, all]
    · simp [unreadErrors, Move.embed, Writer.stepChannel, Channel.step, Channel.stepPollError,
        Sideband.rest, hone]
  · have hnone : l.state.writer.channel.errors.unread = [] := by
      rw [hunread, Reading.errors]
      cases failed <;> simp_all
    have hwritten : written (l.after thread (ofWriter l.state now (.errors failed)
        (Writer.stepChannel l.state.writer now .own .pollError))) = input.lines := by
      rw [written_after]
      simp [Move.embed, Writer.stepChannel, Channel.step, Channel.stepPollError, Sideband.oldest?,
        hnone, all]
    have hreply : (ofWriter l.state now (.errors failed)
        (Writer.stepChannel l.state.writer now .own .pollError)).outcome =
          .reply (if failed then 1 else 0) := by
      simp [Move.embed, Writer.stepChannel, Channel.step, Channel.stepPollError, Sideband.oldest?,
        hnone, Writer.afterChannel, afterWriter]
    constructor
    · intro place hplace
      rw [hreply] at hplace
      contradiction
    · intro status hends
      rw [hreply] at hends
      cases hends
      refine ⟨?_, quiet, hwritten⟩
      rw [Reading.status]
      cases failed <;> simp_all
    · rw [hreply]
      rintro ⟨⟩

end Inside

/-- Where the main thread goes from any place. -/
theorem Stage.leads (h : Stage input l position) (hknown : Writer.Known (writerPart.layout l))
    (hfine : l.state.writer.buffer.tally.failedBatches = 0) (here : l.place thread = some position)
    (heffect : Effect l.state now position move)
    (hquiet : Writer.Quiet (writerPart.layout l) →
      Writer.Quiet (writerPart.layout (l.after thread move))) :
    Leads input (l.after thread move) move := by
  cases hplace : position.inWriter? with
  | none =>
    have hsame := unchanged_of_aside (heffect.aside hplace) hquiet
    exact (h.unchanged hsame).outside heffect hplace
  | some p =>
    have hhere : (writerPart.layout l).place thread = some p := by
      simp [Part.layout, here, writerPart, hplace]
    cases heffect with
    | @writer task p' writerInput writerMove moves =>
      cases hplace
      cases h with
      | reading holds all same isOpen clean =>
        obtain ⟨line, rest, rfl, rfl, rfl⟩ := push_of_unread? holds
        exact Stage.push all same isOpen clean moves thread
      | reporting all broken isOpen clean => exact Stage.report all broken clean moves thread
      | closing closing all errors => exact Stage.close closing all errors hknown hhere moves
      | closed quiet all rest =>
        cases rest with
        | count same => exact Stage.count hfine (hquiet quiet) all same moves
        | poll same broken => exact Stage.poll (hquiet quiet) all same broken moves
    | _ => contradiction

end LineBatch

end Backpressure
