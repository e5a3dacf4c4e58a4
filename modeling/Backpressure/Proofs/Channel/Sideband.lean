import Mathlib.Data.List.DropRight
import Backpressure.Proofs.Channel.Handoff
import Backpressure.Proofs.Course

/-!
# The sideband of a channel

Errors leave the sideband in the order in which they were reported, whether they are read or make
room for newer ones. An error makes room only for a report that finds no room, and every such error
is counted and warned of.
-/

namespace Backpressure

namespace Sideband

variable {s : Sideband} {error : String}

/-- A report without room discards the oldest error. -/
theorem discarded?_eq_some_iff :
    s.discarded? = some error ↔ s.capacity ≤ s.unread.length ∧ s.oldest? = some error := by
  by_cases hfull : s.capacity ≤ s.unread.length <;>
    simp [discarded?, isFull, oldest?, hfull]

/-- A report with room discards nothing, as there is always an error where there is no room. -/
theorem discarded?_eq_none_iff : s.discarded? = none ↔ s.unread.length < s.capacity := by
  by_cases hfull : s.capacity ≤ s.unread.length
  · have hsome : s.unread ≠ [] := by
      intro hnil
      have hpos := s.capacity_pos
      rw [hnil] at hfull
      exact Nat.not_lt.2 hfull hpos
    simp [discarded?, isFull, hfull, hsome, Nat.not_lt.2 hfull]
  · simp [discarded?, isFull, hfull, Nat.lt_of_not_le hfull]

theorem report_of_room (h : s.discarded? = none) (error : String) :
    s.report error = { s with unread := s.unread ++ [error] } := by
  have hroom : ¬ s.capacity ≤ s.unread.length := Nat.not_le.2 (discarded?_eq_none_iff.1 h)
  simp [report, isFull, hroom]

theorem report_of_full {oldest : String} (h : s.discarded? = some oldest) (error : String) :
    s.report error = { s with unread := s.unread.tail ++ [error], dropped := s.dropped + 1 } := by
  simp [report, isFull, (discarded?_eq_some_iff.1 h).1]

/-- What a report finds is what it discards and what it leaves, with the new error last. -/
theorem discarded?_append_unread (s : Sideband) (error : String) :
    s.discarded?.toList ++ (s.report error).unread = s.unread ++ [error] := by
  cases h : s.discarded? with
  | none => rw [report_of_room h, Option.toList_none, List.nil_append]
  | some oldest =>
    obtain ⟨later, hunread⟩ := List.head?_eq_some_iff.1 (discarded?_eq_some_iff.1 h).2
    rw [report_of_full h, hunread]
    rfl

/-- Every discarded error is counted. -/
theorem dropped_report (s : Sideband) (error : String) :
    (s.report error).dropped = s.dropped + s.discarded?.toList.length := by
  cases h : s.discarded? with
  | none => rw [report_of_room h]; rfl
  | some oldest => rw [report_of_full h]; rfl

@[simp]
theorem capacity_report (s : Sideband) (error : String) :
    (s.report error).capacity = s.capacity := by
  unfold report
  split <;> rfl

/-- A report leaves the newest errors for which there is room. -/
theorem unread_report (hbounded : s.unread.length ≤ s.capacity) (error : String) :
    (s.report error).unread = (s.unread ++ [error]).rtake s.capacity := by
  cases h : s.discarded? with
  | none =>
    have hroom := discarded?_eq_none_iff.1 h
    have hall : (s.unread ++ [error]).length - s.capacity = 0 := by
      rw [List.length_append, List.length_singleton]
      omega
    rw [report_of_room h, List.rtake, hall, List.drop_zero]
  | some oldest =>
    obtain ⟨hfull, holdest⟩ := discarded?_eq_some_iff.1 h
    obtain ⟨later, hunread⟩ := List.head?_eq_some_iff.1 holdest
    have hone : (s.unread ++ [error]).length - s.capacity = 1 := by
      rw [List.length_append, List.length_singleton]
      omega
    rw [report_of_full h, List.rtake, hone, hunread]
    rfl

theorem length_unread_report (hbounded : s.unread.length ≤ s.capacity) (error : String) :
    (s.report error).unread.length ≤ s.capacity := by
  rw [unread_report hbounded, List.rtake, List.length_drop]
  omega

/-- What a reading finds is what it reads and what it leaves. -/
theorem oldest?_append_rest (s : Sideband) : s.oldest?.toList ++ s.rest.unread = s.unread := by
  cases h : s.unread with
  | nil => simp [oldest?, rest, h]
  | cons oldest later => simp [oldest?, rest, h]

end Sideband

namespace Channel

variable {α : Type}

/-- How an error leaves the sideband. -/
inductive Removal where
  /-- A thread reads it. -/
  | read (error : String)
  /-- A report that finds no room discards it. -/
  | discarded (error : String)
  deriving DecidableEq, Repr

namespace Removal

/-- The error that leaves. -/
def error : Removal → String
  | .read error | .discarded error => error

/-- The error that is read, if it leaves so. -/
def read? : Removal → Option String
  | .read error => some error
  | .discarded _ => none

/-- The error that is discarded, if it leaves so. -/
def discarded? : Removal → Option String
  | .discarded error => some error
  | .read _ => none

variable (errors : List String)

@[simp]
theorem map_error_discarded : (errors.map discarded).map error = errors :=
  List.map_map.trans (List.map_id _)

@[simp]
theorem map_error_read : (errors.map read).map error = errors := List.map_map.trans (List.map_id _)

@[simp]
theorem filterMap_discarded?_discarded : (errors.map discarded).filterMap discarded? = errors :=
  List.filterMap_map.trans List.filterMap_some

@[simp]
theorem filterMap_discarded?_read : (errors.map read).filterMap discarded? = [] := by
  simp [List.filterMap_map, Function.comp_def, discarded?]

@[simp]
theorem filterMap_read?_discarded : (errors.map discarded).filterMap read? = [] := by
  simp [List.filterMap_map, Function.comp_def, read?]

@[simp]
theorem filterMap_read?_read : (errors.map read).filterMap read? = errors :=
  List.filterMap_map.trans List.filterMap_some

end Removal

/-- The error that a note says was reported. -/
def Note.reported? : Note α → Option String
  | .reported error => some error
  | _ => none

/-- How a note says that an error has left the sideband. -/
def Note.removal? : Note α → Option Removal
  | .read error => some (.read error)
  | .discarded error _ => some (.discarded error)
  | _ => none

/-- The warning that a note gives. -/
def Note.warning? (note : Note α) : Option LogLine := note.log?.filter (·.level = .warn)

/-- The warning about an error that a full sideband discards. -/
def warning (errorCapacity : Nat) (error : String) : LogLine :=
  ⟨.warn, "flowgate::channel::sideband",
    "channel error sideband full (" ++ toString errorCapacity ++
      " unread); discarding oldest error: " ++ error⟩

/-- The error that a call reports. -/
def Request.reported? : Request α → Option String
  | .reportError error => some error
  | _ => none

/-- The error that a thread at this place reports. -/
def Position.reported? : Position α → Option String
  | .reportError error => some error
  | _ => none

@[simp]
theorem reported?_start (request : Request α) (now : Instant) :
    (start request now).reported? = request.reported? := by
  cases request <;> rfl

/-- The error that a call came to, if it has read one. -/
def Reply.error? : Reply α → Option String
  | .error oldest => oldest
  | _ => none

/-- The errors that have been reported, in order. -/
def reports (s : System (monitor α)) : List String := s.returns.filterMap (·.1.request.reported?)

/-- The errors that readers have got, in order. -/
def readings (s : System (monitor α)) : List String := s.returns.filterMap (·.2.error?)

/-- The errors that have left the sideband, in the order in which they left it. -/
def removals (s : System (monitor α)) : List Removal := s.notes.filterMap Note.removal?

/-- The errors that have been discarded, in order. -/
def discards (s : System (monitor α)) : List String := (removals s).filterMap Removal.discarded?

/-- The warnings in the log, in order. -/
def warnings (s : System (monitor α)) : List LogLine := s.notes.filterMap Note.warning?

/-! ### One step -/

/-- What a step at a place does to the sideband. -/
inductive SidebandEffect (c : Channel α) : Position α → Step α → Prop
  /-- An error is reported. -/
  | report (error : String) : SidebandEffect c (.reportError error) (stepReportError c error)
  /-- The oldest error is read, if there is one. -/
  | read : SidebandEffect c .pollError (stepPollError c)
  /-- Nothing that concerns the errors happens. -/
  | aside {position : Position α} {move : Step α} (noReport : position.reported? = none)
      (sameErrors : move.state.errors = c.errors)
      (noneReported : move.notes.filterMap Note.reported? = [])
      (noneRemoved : move.notes.filterMap Note.removal? = [])
      (noWarning : move.notes.filterMap Note.warning? = [])
      (noError : ∀ reply, move.outcome = .reply reply → reply.error? = none) :
      SidebandEffect c position move

section Step

variable {c c' : Channel α} {now : Instant} {position : Position α}

theorem errors_of_tryPush {item : α} (h : c.tryPush item = .ok c') : c'.errors = c.errors := by
  obtain ⟨_, _, rfl⟩ := tryPush_eq_ok_iff.1 h
  rfl

theorem errors_of_tryPoll {item : α} (h : c.tryPoll = .ok (item, c')) : c'.errors = c.errors := by
  rw [(tryPoll_eq_ok_iff.1 h).2]

/-- A push leaves the errors aside. -/
theorem aside_stepPush (item : α) (deadline : Deadline) :
    SidebandEffect c (.push item deadline) (stepPush c now item deadline) := by
  unfold stepPush
  split
  · rename_i c' hpush
    exact .aside rfl (errors_of_tryPush hpush) rfl rfl rfl (by rintro _ ⟨⟩; rfl)
  · exact .aside rfl rfl rfl rfl rfl (by rintro _ ⟨⟩; rfl)
  · split
    · exact .aside rfl rfl rfl rfl rfl (by rintro _ ⟨⟩; rfl)
    · exact .aside rfl rfl rfl rfl rfl nofun

theorem aside_stepTryPush (item : α) : SidebandEffect c (.tryPush item) (stepTryPush c item) := by
  unfold stepTryPush
  split
  · rename_i c' hpush
    exact .aside rfl (errors_of_tryPush hpush) rfl rfl rfl (by rintro _ ⟨⟩; rfl)
  · exact .aside rfl rfl rfl rfl rfl (by rintro _ ⟨⟩; rfl)

/-- A poll leaves the errors aside. -/
theorem aside_stepPoll (deadline : Deadline) :
    SidebandEffect c (.poll deadline) (stepPoll c now deadline) := by
  unfold stepPoll
  split
  · rename_i item c' hpoll
    exact .aside rfl (errors_of_tryPoll hpoll) rfl rfl rfl (by rintro _ ⟨⟩; rfl)
  · exact .aside rfl rfl rfl rfl rfl (by rintro _ ⟨⟩; rfl)
  · split
    · exact .aside rfl rfl rfl rfl rfl (by rintro _ ⟨⟩; rfl)
    · exact .aside rfl rfl rfl rfl rfl nofun

theorem aside_stepTryPoll : SidebandEffect c .tryPoll (stepTryPoll c) := by
  unfold stepTryPoll
  split
  · rename_i item c' hpoll
    exact .aside rfl (errors_of_tryPoll hpoll) rfl rfl rfl (by rintro _ ⟨⟩; rfl)
  · exact .aside rfl rfl rfl rfl rfl (by rintro _ ⟨⟩; rfl)

/-- A close leaves the errors aside, and warns of nothing. -/
theorem aside_stepClose : SidebandEffect c .close (stepClose c) := by
  unfold stepClose
  split
  · exact .aside rfl rfl rfl rfl rfl (by rintro _ ⟨⟩; rfl)
  · exact .aside rfl rfl rfl rfl rfl (by rintro _ ⟨⟩; rfl)

/-- Every step of a channel has one of the effects on the sideband. -/
theorem sidebandEffect_step (position : Position α) :
    SidebandEffect c position (step c now position) := by
  cases position with
  | push item deadline => exact aside_stepPush item deadline
  | tryPush item => exact aside_stepTryPush item
  | poll deadline => exact aside_stepPoll deadline
  | tryPoll => exact aside_stepTryPoll
  | close => exact aside_stepClose
  | reportError error => exact .report error
  | pollError => exact .read
  | errorCount | droppedErrors | inspect =>
    exact .aside rfl rfl rfl rfl rfl (by rintro _ ⟨⟩; rfl)

theorem sidebandEffect_of_moves {move : Step α}
    (h : (monitor α).step c now position () = some move) : SidebandEffect c position move := by
  cases h
  exact sidebandEffect_step position

/-- A report records what it discards, and then what it reports. -/
theorem tells_stepReportError (c : Channel α) (error : String) :
    (stepReportError c error).notes.filterMap Note.reported? = [error] ∧
      (stepReportError c error).notes.filterMap Note.removal? =
        c.errors.discarded?.toList.map .discarded ∧
      (stepReportError c error).notes.filterMap Note.warning? =
        c.errors.discarded?.toList.map (warning c.errors.capacity) := by
  unfold stepReportError
  cases c.errors.discarded? <;> exact ⟨rfl, rfl, rfl⟩

/-- A reading records what it reads. -/
theorem tells_stepPollError (c : Channel α) :
    (stepPollError c).notes.filterMap Note.reported? = [] ∧
      (stepPollError c).notes.filterMap Note.removal? = c.errors.oldest?.toList.map .read ∧
      (stepPollError c).notes.filterMap Note.warning? = [] := by
  unfold stepPollError
  cases c.errors.oldest? <;> exact ⟨rfl, rfl, rfl⟩

variable {move : Step α}

/-- A call that returns records the error that it has reported, or the error that it has read. -/
theorem SidebandEffect.tells (h : SidebandEffect c position move) {reply : Reply α}
    (hreply : move.outcome = .reply reply) :
    move.notes.filterMap Note.reported? = position.reported?.toList ∧
      (move.notes.filterMap Note.removal?).filterMap Removal.read? = reply.error?.toList := by
  cases h with
  | report error =>
    cases hreply
    obtain ⟨hreported, hremoved, _⟩ := tells_stepReportError c error
    rw [hreported, hremoved, Removal.filterMap_read?_discarded]
    exact ⟨rfl, rfl⟩
  | read =>
    cases hreply
    obtain ⟨hreported, hremoved, _⟩ := tells_stepPollError c
    rw [hreported, hremoved, Removal.filterMap_read?_read]
    exact ⟨rfl, rfl⟩
  | aside noReport sameErrors noneReported noneRemoved noWarning noError =>
    rw [noneReported, noneRemoved, noReport, noError reply hreply]
    exact ⟨rfl, rfl⟩

/-- A step that does not return reports and reads nothing. -/
theorem SidebandEffect.tells_nothing (h : SidebandEffect c position move)
    (hreply : ∀ reply, move.outcome ≠ .reply reply) :
    move.notes.filterMap Note.reported? = [] ∧ move.notes.filterMap Note.removal? = [] := by
  cases h with
  | report | read => exact absurd rfl (hreply _)
  | aside noReport sameErrors noneReported noneRemoved => exact ⟨noneReported, noneRemoved⟩

end Step

/-! ### What is kept of the errors -/

/-- The errors that have left the sideband and those in it are the errors that have been reported,
in order. -/
structure Orderly (errorCapacity : Nat) (l : Layout (monitor α)) : Prop where
  capacity : l.state.errors.capacity = errorCapacity
  bounded : l.state.errors.unread.length ≤ errorCapacity
  order : (told (fun noted => noted.2.removal?) l.notes).map Removal.error ++
    l.state.errors.unread = told (fun noted => noted.2.reported?) l.notes
  /-- Every error that was discarded is counted. -/
  counted : l.state.errors.dropped =
    ((told (fun noted => noted.2.removal?) l.notes).filterMap Removal.discarded?).length
  /-- Every error that was discarded is warned of. -/
  warned : told (fun noted => noted.2.warning?) l.notes =
    ((told (fun noted => noted.2.removal?) l.notes).filterMap Removal.discarded?).map
      (warning errorCapacity)

namespace Orderly

variable {errorCapacity : Nat} {l : Layout (monitor α)} {thread : Nat}

theorem report (h : Orderly errorCapacity l) (error : String) :
    Orderly errorCapacity (l.after thread (stepReportError l.state error)) := by
  have hcapacity := h.capacity
  have hbounded := h.bounded
  obtain ⟨hreported, hremoved, hwarned⟩ := tells_stepReportError l.state error
  refine ⟨(Sideband.capacity_report _ _).trans hcapacity, ?_, ?_, ?_, ?_⟩
  · rw [← hcapacity] at hbounded ⊢
    exact Sideband.length_unread_report hbounded error
  · rw [told_record, told_record, hreported, hremoved, ← h.order, List.append_assoc,
      ← Sideband.discarded?_append_unread, List.map_append, Removal.map_error_discarded,
      List.append_assoc]
    rfl
  · rw [told_record, hremoved, List.filterMap_append, List.length_append, ← h.counted,
      Removal.filterMap_discarded?_discarded]
    exact Sideband.dropped_report _ _
  · rw [told_record, told_record, hremoved, hwarned, List.filterMap_append, List.map_append,
      h.warned, Removal.filterMap_discarded?_discarded, hcapacity]

theorem read (h : Orderly errorCapacity l) :
    Orderly errorCapacity (l.after thread (stepPollError l.state)) := by
  obtain ⟨hreported, hremoved, hwarned⟩ := tells_stepPollError l.state
  have hrest := Sideband.oldest?_append_rest l.state.errors
  refine ⟨h.capacity, ?_, ?_, ?_, ?_⟩
  · have hlength := congrArg List.length hrest
    rw [List.length_append] at hlength
    exact (Nat.le_add_left _ _).trans (hlength.le.trans h.bounded)
  · rw [told_record, told_record, hreported, hremoved, List.append_nil, ← h.order, ← hrest,
      List.map_append, Removal.map_error_read, List.append_assoc]
    rfl
  · rw [told_record, hremoved, List.filterMap_append, Removal.filterMap_discarded?_read,
      List.append_nil, ← h.counted]
    rfl
  · rw [told_record, told_record, hremoved, hwarned, List.filterMap_append,
      Removal.filterMap_discarded?_read, List.append_nil, List.append_nil, h.warned]

/-- A step keeps the errors in order. -/
theorem step {allowed : Event (monitor α) → Prop} {l' : Layout (monitor α)}
    (h : Orderly errorCapacity l) (hstep : l.Step allowed l') : Orderly errorCapacity l' := by
  cases hstep with
  | call asked free => exact ⟨h.capacity, h.bounded, h.order, h.counted, h.warned⟩
  | @move thread wakee input position now move asked here moves =>
    cases sidebandEffect_of_moves moves with
    | report error => exact h.report error
    | read => exact h.read
    | aside noReport sameErrors noneReported noneRemoved noWarning =>
      refine ⟨?_, ?_, ?_, ?_, ?_⟩
      · rw [sameErrors, h.capacity]
      · rw [sameErrors]
        exact h.bounded
      · rw [told_record, told_record, noneReported, noneRemoved, List.append_nil, List.append_nil,
          sameErrors, h.order]
      · rw [told_record, noneRemoved, List.append_nil, sameErrors, h.counted]
      · rw [told_record, told_record, noneRemoved, noWarning, List.append_nil, List.append_nil,
          h.warned]

/-- A channel without errors is in order, and every use of it keeps it so. -/
theorem of_reachable {c : Channel α} {now : Instant} {s : System (monitor α)}
    (hreachable : (system c now).Reachable s) (hunread : c.errors.unread = [])
    (hdropped : c.errors.dropped = 0) : Orderly c.errors.capacity s.layout := by
  refine hreachable.reachableBy.layout.invariant ?_ fun h hstep => h.step hstep
  have hstate : (system c now).layout.state = c := rfl
  refine ⟨rfl, ?_, ?_, hdropped, rfl⟩
  · rw [hstate, hunread]
    exact Nat.zero_le _
  · rw [hstate, hunread]
    rfl

end Orderly

/-! ### Errors and calls -/

/-- The notes of a channel tell of the same errors as the calls on it. -/
structure ToldErrors (s : System (monitor α)) : Prop where
  reported : told (fun noted => noted.2.reported?) s.view.notes = reports s
  /-- What the notes say was read is what readers have got. -/
  read : told (fun noted => noted.2.removal?.bind Removal.read?) s.view.notes = readings s

section Told

variable {s : System (monitor α)} {thread : Nat} {position : Position α} {now : Instant}
  {input : Unit} {move : Step α}

/-- A report that returns is the one that has reported its error. -/
theorem endedBy_reported? (hrule : (rule α).Holds s)
    (hplace : placeIn s.threads thread = some position)
    (moves : (monitor α).step s.state now position input = some move) :
    (endedBy thread move s.journal).toList.filterMap (·.1.request.reported?) =
      move.notes.filterMap Note.reported? := by
  obtain ⟨call, hopen, _, began, rfl⟩ := hrule.stands hplace
  have heffect := sidebandEffect_of_moves moves
  rw [endedBy]
  cases houtcome : move.outcome with
  | reply reply =>
    rw [(heffect.tells houtcome).1, reported?_start, hopen]
    cases hreported : call.request.reported? <;> simp [Call.record, hreported]
  | _ =>
    rw [(heffect.tells_nothing (by simp [houtcome])).1]
    rfl

/-- A reading that returns is the one that has read its error. -/
theorem endedBy_error? (hrule : (rule α).Holds s)
    (hplace : placeIn s.threads thread = some position)
    (moves : (monitor α).step s.state now position input = some move) :
    (endedBy thread move s.journal).toList.filterMap (·.2.error?) =
      move.notes.filterMap fun note => note.removal?.bind Removal.read? := by
  obtain ⟨call, hopen, _, began, rfl⟩ := hrule.stands hplace
  have heffect := sidebandEffect_of_moves moves
  rw [endedBy, ← List.filterMap_filterMap]
  cases houtcome : move.outcome with
  | reply reply =>
    rw [(heffect.tells houtcome).2, hopen]
    cases herror : Reply.error? reply <;> simp [herror]
  | _ =>
    rw [(heffect.tells_nothing (by simp [houtcome])).2]
    rfl

end Told

/-- The notes and the calls tell the same of the errors, in every use of a channel. -/
theorem ToldErrors.of_reachable {c : Channel α} {now : Instant} {s : System (monitor α)}
    (h : (system c now).Reachable s) : ToldErrors s := by
  induction h with
  | start => exact ⟨rfl, rfl⟩
  | next hreachable hnext ih =>
    have hrule := rule_holds hreachable
    have hchange := System.next_eq_some_iff.1 hnext
    constructor
    · exact told_change ih.reported (endedBy_reported? hrule) hchange
    · exact told_change ih.read (endedBy_error? hrule) hchange

/-- A call that has returned by now did so by a step that its thread took at this moment. -/
def ReturnedAt (call : Call (monitor α)) (reply : Reply α) (s moment : System (monitor α)) : Prop :=
  ∃ after input wakee, moment.next (.step call.thread input wakee) = some after ∧
    after.returns = moment.returns ++ [(call, reply)] ∧ after.Reachable s

/-- What a call has come to is what the channel told it at the moment at which it returned. -/
theorem exists_returnedAt {c : Channel α} {now : Instant} {s : System (monitor α)}
    (h : (system c now).Reachable s) {call : Call (monitor α)} {reply : Reply α}
    (hreturned : (call, reply) ∈ s.returns) :
    ∃ moment began, (system c now).Reachable moment ∧ ReturnedAt call reply s moment ∧
      (step moment.state moment.now (start call.request began)).outcome = .reply reply := by
  obtain ⟨moment, after, input, wakee, position, move, hmoment, hnext, hafter, hgrown, hplace,
    moves, houtcome⟩ := h.exists_reply hreturned
  obtain ⟨opened, hopen, _, began, rfl⟩ := (rule_holds hmoment).stands hplace
  have hended := System.returns_of_next hnext hplace moves
  rw [hgrown, List.append_cancel_left_eq] at hended
  have hcall : endedBy call.thread move moment.journal = some (call, reply) :=
    Option.mem_toList.1 (hended ▸ List.mem_singleton_self _)
  obtain ⟨_, opened', hopen', hsame⟩ := of_endedBy hcall
  cases hopen.symm.trans hopen'
  have hrequest : call.request = opened.request := (congrArg Call.request hsame).symm
  cases moves
  exact ⟨moment, began, hmoment, ⟨after, input, wakee, hnext, hgrown, hafter⟩,
    hrequest ▸ houtcome⟩

/-! ### What reports discard -/

theorem removals_eq (s : System (monitor α)) :
    removals s = told (fun noted => noted.2.removal?) s.view.notes := s.filterMap_notes _

/-- An event discards no error, or it is a report that finds the sideband full and discards the
oldest one. -/
theorem discards_of_next {s s' : System (monitor α)} {event : Event (monitor α)}
    (h : s.next event = some s') :
    discards s' = discards s ∨
      ∃ thread input wakee error oldest, event = .step thread input wakee ∧
        placeIn s.threads thread = some (.reportError error) ∧
        s.state.errors.capacity ≤ s.state.errors.unread.length ∧
        s.state.errors.unread.head? = some oldest ∧ discards s' = discards s ++ [oldest] := by
  rw [discards, discards, removals_eq, removals_eq]
  rcases (System.next_eq_some_iff.1 h).moves with ⟨_, hnotes⟩ |
    ⟨thread, input, wakee, position, move, hevent, hplace, moves, hlayout⟩
  · rw [hnotes]
    exact .inl rfl
  · have hnotes : s'.view.notes = move.record thread ++ s.view.notes :=
      congrArg Layout.notes hlayout
    rw [hnotes, told_record, List.filterMap_append]
    cases sidebandEffect_of_moves moves with
    | report error =>
      rw [(tells_stepReportError s.state error).2.1, Removal.filterMap_discarded?_discarded]
      cases hdiscarded : s.state.errors.discarded? with
      | none => exact .inl (List.append_nil _)
      | some oldest =>
        obtain ⟨hfull, holdest⟩ := Sideband.discarded?_eq_some_iff.1 hdiscarded
        exact .inr ⟨thread, input, wakee, error, oldest, hevent, hplace, hfull, holdest, rfl⟩
    | read =>
      rw [(tells_stepPollError s.state).2.1, Removal.filterMap_discarded?_read, List.append_nil]
      exact .inl rfl
    | aside noReport sameErrors noneReported noneRemoved =>
      rw [noneRemoved, List.filterMap_nil, List.append_nil]
      exact .inl rfl

section Newest

variable {β : Type} {n : Nat}

theorem rtake_of_length_le {l : List β} (h : l.length ≤ n) : l.rtake n = l := by
  rw [List.rtake, Nat.sub_eq_zero_of_le h, List.drop_zero]

/-- To keep the newest of what was kept of a list, and of what follows, is to keep the newest of
both. -/
theorem rtake_rtake_append (l r : List β) : (l.rtake n ++ r).rtake n = (l ++ r).rtake n := by
  simp only [List.rtake_eq_reverse_take_reverse, List.reverse_append, List.reverse_reverse,
    List.take_append, List.take_take]
  congr 3
  exact Nat.min_eq_left (Nat.sub_le _ _)

end Newest

/-- A step that reads no error leaves the newest errors of those that were there and of the one
that it reports. -/
theorem SidebandEffect.unread {c : Channel α} {position : Position α} {move : Step α}
    (h : SidebandEffect c position move) (hbounded : c.errors.unread.length ≤ c.errors.capacity)
    (hread : (move.notes.filterMap Note.removal?).filterMap Removal.read? = []) :
    move.state.errors.unread =
      (c.errors.unread ++ move.notes.filterMap Note.reported?).rtake c.errors.capacity := by
  cases h with
  | report error =>
    rw [(tells_stepReportError c error).1]
    exact Sideband.unread_report hbounded error
  | read =>
    obtain ⟨hreported, hremoved, _⟩ := tells_stepPollError c
    rw [hremoved, Removal.filterMap_read?_read, Option.toList_eq_nil_iff] at hread
    have hrest := c.errors.oldest?_append_rest
    rw [hread] at hrest
    rw [hreported, List.append_nil, rtake_of_length_le hbounded]
    exact hrest
  | aside noReport sameErrors noneReported =>
    rw [noneReported, sameErrors, List.append_nil, rtake_of_length_le hbounded]

section Unread

variable {c : Channel α} {now : Instant} {s s' : System (monitor α)}

/-- What readers have got they have got for ever. -/
theorem readings_isPrefix (h : (system c now).Reachable s) (hlater : s.Reachable s') :
    readings s <+: readings s' := by
  rw [← (ToldErrors.of_reachable h).read, ← (ToldErrors.of_reachable (h.trans hlater)).read]
  exact told_isPrefix _ hlater.notes_isSuffix

/-- An event that reads no error leaves the newest errors of those that were there and of the one
that it reports. -/
theorem unread_of_next {event : Event (monitor α)} (h : (system c now).Reachable s)
    (hunread : c.errors.unread = []) (hdropped : c.errors.dropped = 0)
    (hnext : s.next event = some s') (hread : readings s' = readings s) :
    ∃ new, reports s' = reports s ++ new ∧
      s'.state.errors.unread = (s.state.errors.unread ++ new).rtake c.errors.capacity := by
  have horderly := Orderly.of_reachable h hunread hdropped
  have hbounded : s.state.errors.unread.length ≤ c.errors.capacity := horderly.bounded
  have hcapacity : s.state.errors.capacity = c.errors.capacity := horderly.capacity
  have htold := ToldErrors.of_reachable h
  have htold' := ToldErrors.of_reachable (h.next hnext)
  rw [← htold.read, ← htold'.read] at hread
  rw [← htold.reported, ← htold'.reported]
  rcases (System.next_eq_some_iff.1 hnext).moves with ⟨hstate, hnotes⟩ |
    ⟨thread, input, wakee, position, move, _, _, moves, hlayout⟩
  · refine ⟨[], by rw [hnotes, List.append_nil], ?_⟩
    rw [hstate, List.append_nil, rtake_of_length_le hbounded]
  · have hnotes : s'.view.notes = move.record thread ++ s.view.notes :=
      congrArg Layout.notes hlayout
    have hstate : s'.state = move.state := congrArg Layout.state hlayout
    rw [hnotes, told_record, List.append_right_eq_self] at hread
    refine ⟨_, by rw [hnotes, told_record], ?_⟩
    rw [hstate, ← hcapacity]
    rw [← hcapacity] at hbounded
    exact (sidebandEffect_of_moves moves).unread hbounded (List.filterMap_filterMap.trans hread)

/-- As long as no error is read, the sideband keeps the newest of its errors and of those that are
reported. -/
theorem unread_of_readings (h : (system c now).Reachable s) (hunread : c.errors.unread = [])
    (hdropped : c.errors.dropped = 0) (hlater : s.Reachable s')
    (hread : readings s' = readings s) :
    ∃ new, reports s' = reports s ++ new ∧
      s'.state.errors.unread = (s.state.errors.unread ++ new).rtake c.errors.capacity := by
  induction hlater with
  | start =>
    have hbounded : s.state.errors.unread.length ≤ c.errors.capacity :=
      (Orderly.of_reachable h hunread hdropped).bounded
    exact ⟨[], (List.append_nil _).symm, by rw [List.append_nil, rtake_of_length_le hbounded]⟩
  | @next between s' event hbetween hnext ih =>
    have hthere := h.trans hbetween
    have hearlier := readings_isPrefix h hbetween
    have hafter := readings_isPrefix hthere (.single hnext)
    rw [hread] at hafter
    have hnone : readings between = readings s :=
      (hearlier.eq_of_length_le hafter.length_le).symm
    obtain ⟨new, hnew, hkept⟩ := ih hnone
    obtain ⟨newer, hnewer, hlast⟩ :=
      unread_of_next hthere hunread hdropped hnext (hread.trans hnone.symm)
    refine ⟨new ++ newer, by rw [hnewer, hnew, List.append_assoc], ?_⟩
    rw [hlast, hkept, rtake_rtake_append, List.append_assoc]

end Unread

/-- Whatever threads do with a channel: the errors that were read or discarded, in the order in
which they went, followed by the unread ones, are the errors that were reported, in order, and no
more are unread than there is room for. What was read is what readers got. The counter of discarded
errors is exact, and so was every answer to who asked for it; each of them is warned of once. An
error is discarded only by a report that finds no room, and so, as long as nobody reads an error,
the newest ones are kept for which there is room. -/
theorem newest_errors_kept {capacity errorCapacity : Nat} {capacity_pos : 0 < capacity}
    {errorCapacity_pos : 0 < errorCapacity} {now : Instant} {s : System (monitor α)}
    (h : (system (.empty capacity errorCapacity capacity_pos errorCapacity_pos) now).Reachable s) :
    (removals s).map Removal.error ++ s.state.errors.unread = reports s ∧
      (removals s).filterMap Removal.read? = readings s ∧
      s.state.errors.unread.length ≤ errorCapacity ∧
      s.state.errors.dropped = (discards s).length ∧
      (discards s).length ≤ (reports s).length ∧
      warnings s = (discards s).map (warning errorCapacity) ∧
      (∀ call reply, (call, reply) ∈ s.returns → call.request = .droppedErrors →
        ∃ moment, ReturnedAt call reply s moment ∧ reply = .count (discards moment).length) ∧
      (∀ event s', s.next event = some s' → discards s' = discards s ∨
        ∃ thread input wakee error oldest, event = .step thread input wakee ∧
          placeIn s.threads thread = some (.reportError error) ∧
          s.state.errors.unread.length = errorCapacity ∧
          s.state.errors.unread.head? = some oldest ∧ discards s' = discards s ++ [oldest]) ∧
      ∀ s', s.Reachable s' → readings s' = readings s →
        ∃ new, reports s' = reports s ++ new ∧
          s'.state.errors.unread = (s.state.errors.unread ++ new).rtake
            (min errorCapacity (s.state.errors.unread.length + new.length)) := by
  have horderly : Orderly errorCapacity s.layout := Orderly.of_reachable h rfl rfl
  have htold := ToldErrors.of_reachable h
  have hcounted : ∀ {moment : System (monitor α)},
      (system (.empty capacity errorCapacity capacity_pos errorCapacity_pos) now).Reachable moment →
        moment.state.errors.dropped = (discards moment).length := by
    intro moment hmoment
    rw [discards, removals_eq]
    exact (Orderly.of_reachable hmoment rfl rfl).counted
  have horder : (removals s).map Removal.error ++ s.state.errors.unread = reports s := by
    rw [removals_eq, ← htold.reported]
    exact horderly.order
  refine ⟨horder, ?_, horderly.bounded, hcounted h, ?_, ?_, ?_, ?_, ?_⟩
  · rw [removals, List.filterMap_filterMap]
    exact (s.filterMap_notes _).trans htold.read
  · rw [← horder, List.length_append, List.length_map]
    exact (List.length_filterMap_le _ _).trans (Nat.le_add_right _ _)
  · rw [discards, removals_eq]
    exact (s.filterMap_notes _).trans horderly.warned
  · intro call reply hreturned hrequest
    obtain ⟨moment, began, hmoment, hat, houtcome⟩ := exists_returnedAt h hreturned
    rw [hrequest] at houtcome
    cases houtcome
    exact ⟨moment, hat, by rw [hcounted hmoment]⟩
  · intro event s' hnext
    refine (discards_of_next hnext).imp_right ?_
    rintro ⟨thread, input, wakee, error, oldest, hevent, hplace, hfull, hrest⟩
    rw [show s.state.errors.capacity = errorCapacity from horderly.capacity] at hfull
    exact ⟨thread, input, wakee, error, oldest, hevent, hplace,
      Nat.le_antisymm horderly.bounded hfull, hrest⟩
  · intro s' hlater hread
    obtain ⟨new, hnew, hkept⟩ := unread_of_readings h rfl rfl hlater hread
    refine ⟨new, hnew, hkept.trans ?_⟩
    have hdropped : ∀ n : Nat, n - errorCapacity = n - min errorCapacity n := by omega
    simp only [List.rtake, List.length_append, Channel.empty, Sideband.empty]
    rw [hdropped]

/-- Two errors find room, the third one takes the place of the first, and one is read between two
more reports. -/
def overflowing : List (Event (monitor Nat)) :=
  [.arrive, .call 0 (.reportError "a"), .step 0 () 0, .call 0 (.reportError "b"), .step 0 () 0,
    .call 0 (.reportError "c"), .step 0 () 0, .call 0 .pollError, .step 0 () 0,
    .call 0 (.reportError "d"), .step 0 () 0, .call 0 (.reportError "e"), .step 0 () 0,
    .call 0 .droppedErrors, .step 0 () 0]

theorem newest_errors_kept_overflowing :
    ∃ s, (system (.empty 1 2 (by decide) (by decide)) .midrange).run overflowing = some s ∧
      removals s = [.discarded "a", .read "b", .discarded "c"] ∧
      s.state.errors.unread = ["d", "e"] ∧ s.state.errors.dropped = 2 ∧
      (removals s).map Removal.error ++ s.state.errors.unread = reports s := by
  have hruns : ((system (.empty 1 2 (by decide) (by decide)) .midrange).run overflowing).map
      (fun s => decide (removals s = [.discarded "a", .read "b", .discarded "c"] ∧
        s.state.errors.unread = ["d", "e"] ∧ s.state.errors.dropped = 2)) = some true := by
    decide +kernel
  simp only [Option.map_eq_some_iff, decide_eq_true_eq] at hruns
  obtain ⟨s, hrun, hremoved, hunread, hdropped⟩ := hruns
  exact ⟨s, hrun, hremoved, hunread, hdropped, (newest_errors_kept (.run .start hrun)).1⟩

end Channel

end Backpressure
