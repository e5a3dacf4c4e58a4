import Backpressure.Proofs.Buffer.Dropping
import Backpressure.Proofs.Following
import Backpressure.Proofs.OwnSteps

/-!
# After a shutdown

A shutdown goes on to flush only once the periodic trigger has ended: it has waited for that itself,
or it has had to wait for the lock of another shutdown, which gives it back no sooner. Nobody starts
the trigger again. So whoever takes a batch afterwards, or hands one to the sink, does so in a call
that has asked for it, and what nobody asks to be flushed stays pending.
-/

namespace Backpressure.Buffer

variable {α : Type}

/-- A step at which an add finds the buffer full, and goes on to flush it. -/
def SawFull (thread : Nat) (step : OwnStep (monitor α)) : Prop :=
  step.after.state.isDue = true ∧ placeIn step.after.threads thread = some (.enter .add)

/-- A call wants a flush, some steps after it has begun: it has asked for one, or it shuts the
buffer down, or it adds an item and one of its steps has found the buffer full, whatever has led
there. -/
inductive WantsFlush (thread : Nat) (begun s : System (monitor α)) (request : Request α) : Prop
  | flush (asks : request.purpose = .flush)
  | shutdown (asks : request.purpose = .shutdown)
  | add (asks : request.purpose = .add)
      (full : ∀ steps, OwnSteps thread begun steps s → ∃ step ∈ steps, SawFull thread step)

/-- A thread is in a call that wants a flush. -/
def InFlush (start s : System (monitor α)) (thread : Nat) : Prop :=
  ∃ request began begun, start.Reachable began ∧ began.next (.call thread request) = some begun ∧
    begun.Reachable s ∧ s.returnsOf thread = begun.returnsOf thread ∧
    WantsFlush thread begun s request

/-- A list of batches has this one since some moment, with the thread that put it there by a step
within a call that wanted a flush. -/
def AskedFor (start s s' : System (monitor α)) (list : System (monitor α) → List (Nat × List α))
    (load : Nat × List α) : Prop :=
  ∃ before input wakee after, s.Reachable before ∧
    before.next (.step load.1 input wakee) = some after ∧ after.Reachable s' ∧
    list after = list before ++ [load] ∧ InFlush start before load.1

theorem AskedFor.mono {start s s₁ s₂ : System (monitor α)}
    {list : System (monitor α) → List (Nat × List α)} {load : Nat × List α}
    (h : AskedFor start s s₁ list load) (hlater : s₁.Reachable s₂) :
    AskedFor start s s₂ list load := by
  obtain ⟨before, input, wakee, after, hbefore, hnext, hafter, hrest⟩ := h
  exact ⟨before, input, wakee, after, hbefore, hnext, hafter.trans hlater, hrest⟩

/-- Is a thread at this place about to begin a flush, or to call the sink in one? -/
def Position.flushes : Position α → Bool
  | .enter _ | .call _ _ => true
  | _ => false

/-! ### The end of the periodic trigger -/

/-- A shutdown is about to end the periodic trigger, or the trigger is over. -/
def StopsFirst (l : Layout (monitor α)) : Prop :=
  ∀ thread position, l.place thread = some position → position.purpose = .shutdown →
    position = .stop ∨ position = .await ∨ l.state.ticker = .stopped

section Moves

variable {b : Buffer α} {now : Instant} {position : Position α} {input : Input} {move : Step α}

/-- Nobody starts the periodic trigger again. -/
theorem stopped_of_moves (moves : (monitor α).step b now position input = some move)
    (hstopped : b.ticker = .stopped) : move.state.ticker = .stopped := by
  rcases ticker_of_moves moves with hsame | ⟨_, hother, _⟩ | ⟨_, hother, _⟩ | ⟨_, hother, _⟩
  · rw [hsame, hstopped]
  all_goals
    rw [hstopped] at hother
    contradiction

/-- A shutdown that goes on to flush has seen the end of the periodic trigger. -/
theorem stopped_of_shutdown (hposition : position = .stop ∨ position = .await)
    (moves : (monitor α).step b now position input = some move) :
    (∃ place, move.outcome = .proceed place) ∧
      ∀ place, (Phase.ofOutcome (M := monitor α) move.outcome).place? = some place →
        place = .await ∨ move.state.ticker = .stopped := by
  rcases hposition with rfl | rfl
  · simp only [step, stepStop] at moves
    split at moves
    · cases moves
      exact ⟨⟨_, rfl⟩, by rintro _ ⟨⟩; exact .inl rfl⟩
    · rename_i hstopped
      cases moves
      exact ⟨⟨_, rfl⟩, by rintro _ ⟨⟩; exact .inr hstopped⟩
    all_goals contradiction
  · simp only [step, stepAwait] at moves
    split at moves
    · cases moves
      exact ⟨⟨_, rfl⟩, by rintro _ ⟨⟩; exact .inr rfl⟩
    · contradiction

/-- Only a thread that is about to begin a flush, or to call the sink in one, takes a batch or calls
the sink, with one batch at a time. -/
theorem load_of_moves (thread : Nat) (moves : (monitor α).step b now position input = some move)
    {tell : Nat × Note α → Option (Nat × List α)} (htell : tell = called? ∨ tell = taken?) :
    move.notes.filterMap (fun note => tell (thread, note)) = [] ∨
      position.flushes = true ∧ ∃ load : Nat × List α, load.1 = thread ∧
        move.notes.filterMap (fun note => tell (thread, note)) = [load] := by
  cases effect_of_moves moves with
  | add | deliver | record =>
    left
    rcases htell with rfl | rfl <;> rfl
  | take =>
    rcases htell with rfl | rfl
    · exact .inl rfl
    · exact .inr ⟨rfl, (thread, b.pending), rfl, rfl⟩
  | @call errand batch =>
    rcases htell with rfl | rfl
    · exact .inr ⟨rfl, (thread, batch), rfl, rfl⟩
    · exact .inl rfl
  | aside noOffer free samePending sameFlushing sameRound sameTally sameLimit stays quiet =>
    left
    rw [List.filterMap_eq_nil_iff]
    intro note hnote
    have haside := quiet note hnote
    rcases htell with rfl | rfl <;> cases note <;> trivial

end Moves

theorem StopsFirst.step {l l' : Layout (monitor α)} {allowed : Event (monitor α) → Prop}
    (h : StopsFirst l) (hstep : l.Step allowed l') : StopsFirst l' := by
  intro t place hplace hpurpose
  cases hstep with
  | @call thread request moment asked free =>
    rcases cases_of_update hplace with ⟨_, hnew⟩ | ⟨_, hold⟩
    · cases hnew
      rw [purpose_start] at hpurpose
      cases request <;> first | exact .inl rfl | contradiction
    · exact h t place hold hpurpose
  | @move thread wakee input position moment move asked here moves =>
    rcases cases_of_update hplace with ⟨_, hnew⟩ | ⟨_, hold⟩
    · have hbefore := ((effect_of_moves moves).purpose hnew).symm.trans hpurpose
      rcases h thread position here hbefore with hstop | hawait | hstopped
      · exact .inr ((stopped_of_shutdown (.inl hstop) moves).2 place hnew)
      · exact .inr ((stopped_of_shutdown (.inr hawait) moves).2 place hnew)
      · exact .inr (.inr (stopped_of_moves moves hstopped))
    · exact (h t place hold hpurpose).imp_right (·.imp_right (stopped_of_moves moves))

section Runs

variable {b : Buffer α} {now : Instant} {s s' : System (monitor α)}

/-- An event adds one batch at most to what has been taken, and to what the sink has been called
with, and does so by a step of a thread that flushes. -/
theorem load_of_next {list : System (monitor α) → List (Nat × List α)}
    (hlist : list = sinkCalls ∨ list = taken) {event : Event (monitor α)}
    (hnext : s.next event = some s') :
    list s' = list s ∨ ∃ load input wakee position, event = .step load.1 input wakee ∧
      placeIn s.threads load.1 = some position ∧ position.flushes = true ∧
      list s' = list s ++ [load] := by
  obtain ⟨tell, htell, htold⟩ : ∃ tell, (tell = called? ∨ tell = taken?) ∧
      ∀ s, list s = told tell s.view.notes := by
    rcases hlist with rfl | rfl
    · exact ⟨_, .inl rfl, fun _ => rfl⟩
    · exact ⟨_, .inr rfl, fun _ => rfl⟩
  rw [htold, htold]
  rcases (System.next_eq_some_iff.1 hnext).moves with
    ⟨_, hnotes⟩ | ⟨thread, input, wakee, position, move, rfl, hplace, moves, hlayout⟩
  · exact .inl (congrArg (told tell) hnotes)
  · have hnotes : s'.view.notes = move.record thread ++ s.view.notes :=
      congrArg Layout.notes hlayout
    rw [hnotes, told_record]
    rcases load_of_moves thread moves htell with hnone | ⟨hflushes, load, rfl, hload⟩
    · rw [hnone, List.append_nil]
      exact .inl rfl
    · rw [hload]
      exact .inr ⟨load, input, wakee, position, rfl, hplace, hflushes, rfl⟩

theorem stopsFirst (h : (system b now).Reachable s) : StopsFirst s.layout := by
  refine h.reachableBy.layout.invariant (P := StopsFirst) ?_ fun hbefore hstep =>
    hbefore.step hstep
  intro thread position hplace hpurpose
  rw [System.place_layout] at hplace
  rw [List.mem_singleton.1 (placeIn_initial hplace)] at hpurpose
  contradiction

theorem stopped_of_reachable (hlater : s.Reachable s') (hstopped : s.state.ticker = .stopped) :
    s'.state.ticker = .stopped := by
  refine hlater.reachableBy.layout.invariant
    (P := fun l : Layout (monitor α) => l.state.ticker = .stopped) hstopped ?_
  intro l l' hbefore hstep
  cases hstep with
  | call => exact hbefore
  | move asked here moves => exact stopped_of_moves moves hbefore

/-- Once a shutdown has returned, the periodic trigger is over. -/
theorem stopped_of_returned (h : (system b now).Reachable s) {call : Call (monitor α)}
    {reply : Reply α} (hreturned : (call, reply) ∈ s.returns)
    (hshutdown : call.request = .shutdown) : s.state.ticker = .stopped := by
  obtain ⟨before, after, input, wakee, position, move, hbefore, hnext, hlater, hreturns, hplace,
    moves, houtcome⟩ := h.exists_reply hreturned
  have hended := System.returns_of_next hnext hplace moves
  rw [hreturns, List.append_cancel_left_eq] at hended
  obtain ⟨_, opened, hopen, rfl⟩ := of_endedBy (Option.mem_toList.1
    (hended ▸ List.mem_singleton_self _))
  obtain ⟨there, hthere, hpurpose⟩ := place_of_openCall hbefore hopen
  cases hplace.symm.trans hthere
  have hshuts : position.purpose = .shutdown := hpurpose.trans (congrArg Request.purpose hshutdown)
  have hreplies : ¬ ∃ place, move.outcome = .proceed place := by
    rw [houtcome]
    exact nofun
  have hstopped : before.state.ticker = .stopped := by
    rw [← System.place_layout] at hplace
    rcases stopsFirst hbefore _ position hplace hshuts with hstop | hawait | hstopped
    · exact absurd (stopped_of_shutdown (.inl hstop) moves).1 hreplies
    · exact absurd (stopped_of_shutdown (.inr hawait) moves).1 hreplies
    · exact hstopped
  exact stopped_of_reachable (.trans (.single hnext) hlater) hstopped

/-- The first thread is there for the periodic trigger, or has ended. -/
theorem ended_or_ticks (h : (system b now).Reachable s) :
    s.hasEnded 0 = true ∨
      ∃ position : Position α, placeIn s.threads 0 = some position ∧ position.purpose = .tick := by
  refine h.reachableBy.invariant (P := fun s : System (monitor α) => s.hasEnded 0 = true ∨
    ∃ position : Position α, placeIn s.threads 0 = some position ∧ position.purpose = .tick)
    (.inr ⟨.launch, rfl, rfl⟩) ?_
  rintro s s' event (hended | ⟨position, hplace, htick⟩) _ hchange
  · exact .inl (hchange.hasEnded hended)
  · by_cases hown : ∃ input wakee, event = .step 0 input wakee
    · obtain ⟨input, wakee, rfl⟩ := hown
      have hnext := System.next_eq_some_iff.2 hchange
      obtain ⟨place, move, hthere, moves, hlayout⟩ := System.moves_of_next hnext
      cases hplace.symm.trans hthere
      have hgoes : ∀ next, (Phase.ofOutcome (M := monitor α) move.outcome).place? = some next →
          ∃ position : Position α, placeIn s'.threads 0 = some position ∧
            position.purpose = .tick :=
        fun next hnext => ⟨next, (System.placeIn_of_layout hlayout).trans hnext,
          ((effect_of_moves moves).purpose hnext).trans htick⟩
      cases houtcome : move.outcome with
      | proceed next | sleep condition wakeAt next =>
        exact .inr (hgoes next (by rw [houtcome]; rfl))
      | reply reply =>
        have hallows := allows_of_moves moves houtcome
        rw [htick] at hallows
        exact absurd hallows id
      | exit =>
        obtain ⟨threads, hlt, rfl⟩ := System.eq_of_next hnext hplace moves
        left
        rw [System.hasEnded, List.getElem?_set_self hlt, houtcome]
        rfl
    · have hother : ∀ input wakee, event ≠ .step 0 input wakee :=
        fun input wakee hsame => hown ⟨input, wakee, hsame⟩
      exact .inr ⟨position, (hchange.aside hother hplace).1, htick⟩

end Runs

/-! ### Who flushes afterwards -/

section Calls

variable {thread : Nat} {begun s : System (monitor α)} {steps : List (OwnStep (monitor α))}

/-- An add that goes on once its item is in has found the buffer full. -/
theorem kept_full {item : α} (hplace : placeIn begun.threads thread = some (.append item)) :
    OwnSteps.Kept thread begun fun steps position => position.purpose = .add ∧
      (position = .append item ∨ ∃ step ∈ steps, SawFull thread step) := by
  refine ⟨⟨_, hplace, rfl, .inl rfl⟩, ?_⟩
  rintro steps step position move hmoves ⟨hpurpose, hstage⟩
  have hcalled : position.purpose ≠ .tick := by
    rw [hpurpose]
    decide
  refine ((leads_of_moves hmoves.moves).returns_or_stays hcalled).imp_right ?_
  rintro ⟨place, hthere⟩
  refine ⟨place, hthere, ((effect_of_moves hmoves.moves).purpose hthere).trans hpurpose, .inr ?_⟩
  rcases hstage with rfl | ⟨earlier, hmem, hfull⟩
  · obtain rfl : stepAppend step.before.state item = move := Option.some.inj hmoves.moves
    have hlater := System.placeIn_of_layout hmoves.layout
    rw [hthere] at hlater
    simp only [stepAppend] at hthere
    split at hthere
    · rename_i hdue
      cases hthere
      refine ⟨step, List.mem_append_right _ (List.mem_singleton_self _), ?_, hlater⟩
      rw [hmoves.state]
      exact hdue
    · contradiction
  · exact ⟨earlier, List.mem_append_left _ hmem, hfull⟩

end Calls

section New

variable {limit : Nat} {interval : Duration} {limit_pos : 0 < limit}
  {interval_pos : 0 < interval.nanos} {now : Instant} {s s' : System (monitor α)}
  (h : (system (.empty limit interval limit_pos interval_pos) now).Reachable s)
  (hstopped : s.state.ticker = .stopped)
include h hstopped

/-- Whoever flushes once the periodic trigger is over is in a call that wants it. -/
theorem inFlush_of_flushes {thread : Nat} {position : Position α}
    (hplace : placeIn s.threads thread = some position) (hflushes : position.flushes = true) :
    InFlush (system (.empty limit interval limit_pos interval_pos) now) s thread := by
  have hcalled := purpose_ne_tick h hstopped hplace
  obtain ⟨call, hopen, hrequest⟩ := exists_openCall h hplace hcalled
  obtain ⟨began, begun, hbegan, hbegin, hlater, hlasts⟩ := h.exists_begun hopen
  refine ⟨call.request, began, begun, hbegan, hbegin, hlater, hlasts, ?_⟩
  obtain ⟨hstarts, hopened, _⟩ := System.begun_of_next hbegin
  cases hasked : call.request with
  | flush | flushTimeout | flushDeadline => exact .flush rfl
  | shutdown => exact .shutdown rfl
  | add item =>
    rw [hasked] at hstarts
    refine .add rfl ?_
    intro steps hsteps
    obtain ⟨there, hthere, _, hstage⟩ := (kept_full hstarts).of_lasts hopened hsteps hlasts
    cases hplace.symm.trans hthere
    refine hstage.resolve_left ?_
    rintro rfl
    contradiction
  | inspect =>
    rw [hasked] at hrequest
    rw [eq_inspect_of_purpose hrequest.symm] at hflushes
    contradiction

/-- Once the periodic trigger is over, every batch that is taken or handed to the sink has been
asked for. -/
theorem askedFor_of_reachable {list : System (monitor α) → List (Nat × List α)}
    (hlist : list = sinkCalls ∨ list = taken) (hlater : s.Reachable s') :
    ∃ loads, list s' = list s ++ loads ∧ ∀ load ∈ loads,
      AskedFor (system (.empty limit interval limit_pos interval_pos) now) s s' list load := by
  induction hlater with
  | start => exact ⟨[], (List.append_nil _).symm, nofun⟩
  | @next s₁ s₂ event hbetween hnext ih =>
    obtain ⟨loads, hloads, hasked⟩ := ih
    have hearlier : ∀ load ∈ loads,
        AskedFor (system (.empty limit interval limit_pos interval_pos) now) s s₂ list load :=
      fun load hmem => (hasked load hmem).mono (.single hnext)
    rcases load_of_next hlist hnext with
      hsame | ⟨load, input, wakee, position, rfl, hplace, hflushes, hnew⟩
    · exact ⟨loads, hsame.trans hloads, hearlier⟩
    · refine ⟨loads ++ [load], by rw [hnew, hloads, List.append_assoc], ?_⟩
      intro load' hmem
      rcases List.mem_append.1 hmem with hold | hlast
      · exact hearlier load' hold
      · rw [List.mem_singleton.1 hlast]
        exact ⟨s₁, input, wakee, s₂, hbetween, hnext, .start, hnew,
          inFlush_of_flushes (h.trans hbetween) (stopped_of_reachable hbetween hstopped) hplace
            hflushes⟩

omit hstopped in
/-- What is added while no batch is taken joins the pending items, and stays. -/
theorem pending_of_taken_eq (hlater : s.Reachable s') (htaken : taken s' = taken s) :
    ∃ new, additions s' = additions s ++ new ∧ s'.state.pending = s.state.pending ++ new := by
  obtain ⟨new, hnew⟩ := additions_isPrefix hlater
  refine ⟨new, hnew.symm, ?_⟩
  have hbatched : batched s' = batched s := by rw [batched, htaken, batched]
  have hitems := batched_append_pending (h.trans hlater)
  rw [← hnew, ← batched_append_pending h, hbatched, List.append_assoc] at hitems
  exact List.append_cancel_left hitems

end New

/-- After a shutdown nothing is flushed that nobody asks for. Let threads and the sink do whatever
they do, with any number of shutdowns at the same time, and let one of them have returned, though
another one may have ended the periodic trigger. The thread of the trigger has ended then, and for
good. Every batch that the sink is called with afterwards it is called with by a step within a call
that flushes, or shuts the buffer down, or adds an item and has found the buffer full; and every
batch that is taken afterwards is taken by such a step. As long as none is taken, what is added
joins the pending items, in order, and nothing leaves them. -/
theorem nothing_flushed_unasked {limit : Nat} {interval : Duration} {limit_pos : 0 < limit}
    {interval_pos : 0 < interval.nanos} {now : Instant} {s s' : System (monitor α)}
    (h : (system (.empty limit interval limit_pos interval_pos) now).Reachable s)
    {call : Call (monitor α)} {reply : Reply α} (hreturned : (call, reply) ∈ s.returns)
    (hshutdown : call.request = .shutdown) (hlater : s.Reachable s') :
    s'.hasEnded 0 = true ∧
      (∃ loads, sinkCalls s' = sinkCalls s ++ loads ∧ ∀ load ∈ loads,
        AskedFor (system (.empty limit interval limit_pos interval_pos) now) s s' sinkCalls load) ∧
      ∃ loads, taken s' = taken s ++ loads ∧
        (∀ load ∈ loads,
          AskedFor (system (.empty limit interval limit_pos interval_pos) now) s s' taken load) ∧
        (loads = [] → ∃ new, additions s' = additions s ++ new ∧
          s'.state.pending = s.state.pending ++ new) := by
  have hstopped := stopped_of_returned h hreturned hshutdown
  have hlate := h.trans hlater
  refine ⟨?_, askedFor_of_reachable h hstopped (.inl rfl) hlater, ?_⟩
  · refine (ended_or_ticks hlate).resolve_right ?_
    rintro ⟨position, hplace, htick⟩
    exact purpose_ne_tick hlate (stopped_of_reachable hlater hstopped) hplace htick
  · obtain ⟨loads, hloads, hasked⟩ := askedFor_of_reachable h hstopped (.inr rfl) hlater
    refine ⟨loads, hloads, hasked, ?_⟩
    rintro rfl
    rw [List.append_nil] at hloads
    exact pending_of_taken_eq h hlater hloads

theorem shutdown_of_purpose {request : Request α} (h : request.purpose = .shutdown) :
    request = .shutdown := by
  cases request <;> first | rfl | contradiction

/-- One shutdown ends the periodic trigger, which goes off once more all the same. Another one waits
for its lock meanwhile, finds the trigger gone, and returns first. -/
def racingShutdowns : List (Event (monitor Nat)) :=
  [.arrive, .arrive, .arrive, .step 0 .nothing 0, .call 1 .shutdown, .call 2 .shutdown,
    .step 1 .nothing 0, .step 0 .tick 0, .step 0 .nothing 0, .step 0 .stop 0, .step 1 .nothing 0,
    .step 2 .nothing 0, .step 2 .nothing 0]

/-- A thread adds an item, which stays. -/
def lateAdd : List (Event (monitor Nat)) := [.call 3 (.add 5), .step 3 .nothing 0]

/-- The first shutdown flushes it. -/
def lateFlush : List (Event (monitor Nat)) := [.step 1 .nothing 0, .step 1 .nothing 0]

theorem nothing_flushed_unasked_racingShutdowns :
    ∃ s added flushed,
      (system (.empty 9 ⟨1, by decide⟩ (by decide) (by decide)) .midrange).run racingShutdowns =
          some s ∧
        s.run lateAdd = some added ∧ added.run lateFlush = some flushed ∧
        s.returns.map (·.1.thread) = [2] ∧ s.hasEnded 0 = true ∧
        (∃ new, additions added = additions s ++ new ∧
          added.state.pending = s.state.pending ++ new) ∧
        sinkCalls flushed = [(1, [5])] ∧
        AskedFor (system (.empty 9 ⟨1, by decide⟩ (by decide) (by decide)) .midrange) s flushed
          sinkCalls (1, [5]) := by
  have hruns : ((system (.empty 9 ⟨1, by decide⟩ (by decide) (by decide)) .midrange).run
      racingShutdowns).bind (fun s => (s.run lateAdd).bind fun added =>
        (added.run lateFlush).map fun flushed => decide
          (s.returns.map (fun returned => (returned.1.thread, returned.1.request.purpose)) =
              [(2, .shutdown)] ∧
            sinkCalls s = [] ∧ taken added = taken s ∧ sinkCalls flushed = [(1, [5])])) =
          some true := by
    decide +kernel
  simp only [Option.bind_eq_some_iff, Option.map_eq_some_iff, decide_eq_true_eq] at hruns
  obtain ⟨s, hrace, added, hadd, flushed, hflush, hreturns, hnone, hsame, hcalls⟩ := hruns
  obtain ⟨⟨call, reply⟩, hreturned, hcall⟩ := List.map_eq_singleton_iff.1 hreturns
  obtain ⟨hthread, hpurpose⟩ := Prod.mk.inj hcall
  have hmem : (call, reply) ∈ s.returns := hreturned ▸ List.mem_singleton_self _
  have hshutdown := shutdown_of_purpose hpurpose
  have h := System.Reachable.run .start hrace
  have hlater := System.Reachable.run .start hadd
  obtain ⟨_, _, loads, hloads, _, hstays⟩ := nothing_flushed_unasked h hmem hshutdown hlater
  obtain ⟨_, ⟨calls, hnew, hasked⟩, _⟩ :=
    nothing_flushed_unasked h hmem hshutdown (hlater.run hflush)
  rw [hnone, List.nil_append, hcalls] at hnew
  refine ⟨s, added, flushed, hrace, hadd, hflush, ?_, ?_, ?_, hcalls, ?_⟩
  · rw [hreturned, List.map_singleton, hthread]
  · exact (nothing_flushed_unasked h hmem hshutdown .start).1
  · exact hstays (List.self_eq_append_right.1 (hsame.symm.trans hloads))
  · exact hasked _ (hnew ▸ List.mem_singleton_self _)

end Backpressure.Buffer
