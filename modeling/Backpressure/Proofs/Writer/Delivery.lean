import Backpressure.Proofs.Settings
import Backpressure.Proofs.Writer.Calls
import Backpressure.Proofs.Writer.Closing

/-!
# What a writer accepts, it delivers

Once a close has returned, the writer is quiet: its pump and its periodic trigger are over, and
nothing is in its channel or in its buffer. So the sink has been called with everything that the
channel accepted, and a later close finds nothing to do.
-/

namespace Backpressure.Writer

variable {α : Type} {w : Writer α} {now : Instant} {s s' : System (monitor α)}

/-- The batch that a note says the sink was called with, with the thread that called it. -/
def called? (noted : Nat × Note α) : Option (Nat × List α) :=
  noted.2.ofBuffer?.bind fun note => Buffer.called? (noted.1, note)

/-- The batch that a note says the sink has returned from, with the thread that called it. -/
def returned? (noted : Nat × Note α) : Option (Nat × List α) :=
  (noted.2.ofBuffer?.bind fun note => Buffer.returned? (noted.1, note)).map Buffer.Delivery.load

/-- The calls of the sink, in order: who called it, and with which batch. -/
def sinkCalls (s : System (monitor α)) : List (Nat × List α) := told called? s.view.notes

/-- The calls of the sink that have returned, in the order in which they did. -/
def sinkReturns (s : System (monitor α)) : List (Nat × List α) := told returned? s.view.notes

/-- A thread takes the lock on the pump by its next step. -/
def TakesLock (thread : Nat) (s s' : System (monitor α)) : Prop :=
  (∃ input wakee, s.next (.step thread input wakee) = some s') ∧
    s.state.locked = false ∧ s'.state.locked = true

/-! ### What the parts tell -/

theorem accepted_eq (s : System (monitor α)) :
    accepted s = (told Channel.addedBy? ((channelPart α).layout s.layout).notes).map (·.2) := by
  have hnotes := (channelPart α).told_notes Channel.addedBy? s.layout
  have htell : accepted? = fun noted : Nat × Note α =>
      (noted.2.ofChannel?.bind fun note => Channel.addedBy? (noted.1, note)).map (·.2) := by
    funext noted
    cases hnote : noted.2.ofChannel? <;>
      simp [accepted?, Channel.addedBy?, hnote, Function.comp_def]
  refine Eq.trans ?_ (congrArg (List.map (·.2)) hnotes.symm)
  rw [accepted, told, told, List.map_reverse, List.map_filterMap, htell]
  rfl

theorem sinkCalls_eq (s : System (monitor α)) :
    sinkCalls s = told Buffer.called? ((bufferPart α).layout s.layout).notes :=
  ((bufferPart α).told_notes Buffer.called? s.layout).symm

theorem sinkReturns_eq (s : System (monitor α)) :
    sinkReturns s =
      (told Buffer.returned? ((bufferPart α).layout s.layout).notes).map Buffer.Delivery.load := by
  have hnotes := (bufferPart α).told_notes Buffer.returned? s.layout
  refine Eq.trans ?_ (congrArg (List.map Buffer.Delivery.load) hnotes.symm)
  rw [told, List.map_reverse, List.map_filterMap]
  rfl

/-- Once the writer is quiet, everything that its channel accepted has been delivered. -/
theorem Quiet.delivered {capacity : Nat} (hquiet : Quiet s.layout) (h : Known s.layout)
    (hconserved : Channel.Conserved capacity ((channelPart α).layout s.layout)) :
    ((sinkCalls s).map (·.2)).flatten = accepted s ∧ sinkReturns s = sinkCalls s ∧
      s.state.channel.queue = [] ∧ s.state.buffer.pending = [] := by
  obtain ⟨⟨_, hqueue⟩, hnobody⟩ := h.drain.ended hquiet.ended
  have hhand : hand s.layout.place = [] := by
    unfold hand
    cases hplace : s.layout.place 1 with
    | none => rfl
    | some position => simp [inHand?_of_role (hnobody hplace)]
  cases h.ledger.flight with
  | busy flushing =>
    have hresting : s.state.buffer.flushing = false := hquiet.settled.flushing
    rw [show s.state.buffer.flushing = true from flushing] at hresting
    contradiction
  | resting _ _ settled called returned =>
    have hreturns : sinkReturns s = sinkCalls s := by
      rw [sinkReturns_eq, sinkCalls_eq, returned, called]
    refine ⟨?_, hreturns, hqueue, hquiet.settled.pending⟩
    have htaken : told Buffer.taken? ((bufferPart α).layout s.layout).notes = sinkCalls s := by
      rw [h.ledger.batches, settled, List.append_nil, ← called, sinkCalls_eq]
    calc ((sinkCalls s).map (·.2)).flatten
        = told Buffer.added? ((bufferPart α).layout s.layout).notes := by
          have hitems := h.ledger.items
          rw [htaken, show ((bufferPart α).layout s.layout).state.pending = [] from
            hquiet.settled.pending, List.append_nil] at hitems
          exact hitems
      _ = told Channel.taken? ((channelPart α).layout s.layout).notes := by
          rw [h.drain.moved, hhand, List.append_nil]
      _ = accepted s := by
          have hadded := hconserved.conserved
          rw [show ((channelPart α).layout s.layout).state.queue = [] from hqueue,
            List.append_nil] at hadded
          rw [accepted_eq, hadded]

/-! ### What stays as it is -/

/-- Once the channel is closed, it stays closed and accepts nothing more. -/
theorem accepted_of_closed {allowed : Event (monitor α) → Prop} (h : s.ReachableBy allowed s')
    (hclosed : s.state.channel.closed = true) :
    s'.state.channel.closed = true ∧ accepted s' = accepted s := by
  have hfrozen : s'.layout.state.channel.closed = true ∧
      told accepted? s'.layout.notes = told accepted? s.layout.notes := by
    refine h.layout.invariant (P := fun l : Layout (monitor α) => l.state.channel.closed = true ∧
      told accepted? l.notes = told accepted? s.layout.notes) ⟨hclosed, rfl⟩ ?_
    rintro l l' ⟨hbefore, hsame⟩ hstep
    cases hstep with
    | call => exact ⟨hbefore, hsame⟩
    | @move thread wakee input position now move asked here moves =>
      obtain ⟨hafter, hnone⟩ := closed_of_effect (effect_of_moves moves) hbefore
      refine ⟨hafter, ?_⟩
      rw [told_record, filterMap_accepted?, hnone, List.append_nil]
      exact hsame
  exact hfrozen

/-- Once a close has claimed the pump, the pump stays claimed. -/
theorem claimed_of_reachable {allowed : Event (monitor α) → Prop} (h : s.ReachableBy allowed s')
    (hclaimed : s.state.claimed = true) : s'.state.claimed = true := by
  have hstays : s'.layout.state.claimed = true := by
    refine h.layout.invariant
      (P := fun l : Layout (monitor α) => l.state.claimed = true) hclaimed ?_
    intro l l' hbefore hstep
    cases hstep with
    | call => exact hbefore
    | move asked here moves => exact claimed_of_effect (effect_of_moves moves) hbefore
  exact hstays

/-- The lock is taken by a close, where a close takes it. -/
theorem TakesLock.effect {thread : Nat} (h : TakesLock thread s s') :
    ∃ move, Effect s.state s.now .lock move ∧ s'.layout = s.layout.after thread move := by
  obtain ⟨⟨input, wakee, hnext⟩, hfree, htaken⟩ := h
  cases System.next_eq_some_iff.1 hnext with
  | @step _ _ _ phase position move threads here awake moves wakes =>
    have heffect := effect_of_moves moves
    rcases flags_of_effect heffect with rfl | ⟨flush, rfl⟩ | ⟨hsame, _⟩
    · exact ⟨move, heffect, System.layout_step here wakes⟩
    · cases heffect
      contradiction
    · rw [show move.state.locked = true from htaken, hfree] at hsame
      contradiction

theorem TakesLock.reachable {thread : Nat} {start : System (monitor α)}
    {purposes : Buffer.Purpose → Prop} (h : TakesLock thread s s')
    (hbefore : start.ReachableBy (Client purposes) s) :
    start.ReachableBy (Client purposes) s' := by
  obtain ⟨⟨input, wakee, hnext⟩, _⟩ := h
  have hallowed : Client purposes (.step thread input wakee) := trivial
  exact .next hbefore hallowed hnext

theorem TakesLock.claimed {thread : Nat} (h : TakesLock thread s s') : s'.state.claimed = true := by
  obtain ⟨move, heffect, hlayout⟩ := h.effect
  have hstate : s'.layout.state = move.state := by rw [hlayout]
  cases heffect
  exact congrArg Writer.claimed hstate

/-! ### Closes -/

/-- A quiet writer stays quiet whatever happens to it. -/
theorem Quiet.change {event : Event (monitor α)} (hquiet : Quiet s.layout) (h : Known s.layout)
    (hallowed : Client (· = .inspect) event) (hchange : System.Change s event s') :
    Quiet s'.layout := by
  rcases hchange.layout hallowed with hsame | hstep
  · rw [hsame]
    exact hquiet
  · exact hquiet.step h hstep

/-- What is known of the closes that have returned. -/
structure Finished (s : System (monitor α)) : Prop where
  /-- Each of them has come to the outcome of its own flush. -/
  outcome : ∀ returned ∈ closes s, returned.2 ≠ .closed .joined
  /-- The first one leaves the writer quiet. -/
  quiet : closes s ≠ [] → Quiet s.layout

theorem Finished.of_reachable (hfresh : Fresh w)
    (h : (system w now).ReachableBy (Client (· = .inspect)) s) : Finished s := by
  induction h with
  | start =>
    have hnone : closes (system w now) = [] := rfl
    refine ⟨?_, fun hreturned => absurd hnone hreturned⟩
    intro returned hmem
    rw [hnone] at hmem
    exact absurd hmem List.not_mem_nil
  | next hreachable hallowed hnext ih =>
    have hchange := System.next_eq_some_iff.1 hnext
    have hknown := Known.of_reachable hfresh hreachable.layout
    rcases closes_change (rule_holds hreachable.reachable) hchange
      with hsame | ⟨thread, flush, call, hplace, hlayout, hcloses⟩
    · refine ⟨?_, ?_⟩
      · rw [hsame]
        exact ih.outcome
      · intro hreturned
        rw [hsame] at hreturned
        exact (ih.quiet hreturned).change hknown hallowed hchange
    · refine ⟨?_, ?_⟩
      · rw [hcloses]
        intro returned hmem
        rcases List.mem_append.1 hmem with hold | hnew
        · exact ih.outcome returned hold
        · obtain ⟨_, _, hflush⟩ := hknown.closing.standing hplace
          rw [List.mem_singleton.1 hnew]
          rintro ⟨⟩
          exact hflush rfl
      · intro _
        rw [hlayout]
        exact hknown.quiet_of_release hplace

/-- Every close that returns from a quiet writer found it so. -/
theorem Quiet.closes_empty (hquiet : Quiet s.layout) (hfresh : Fresh w)
    (h : (system w now).ReachableBy (Client (· = .inspect)) s)
    (hlater : s.ReachableBy (Client (· = .inspect)) s') :
    Quiet s'.layout ∧
      ∃ later, closes s' = closes s ++ later ∧ ∀ returned ∈ later, returned.2 = .closed .empty := by
  induction hlater with
  | start =>
    refine ⟨hquiet, [], (List.append_nil _).symm, ?_⟩
    intro returned hmem
    exact absurd hmem List.not_mem_nil
  | next hbetween hallowed hnext ih =>
    obtain ⟨hstill, later, hlater, hempty⟩ := ih
    have hreachable := h.trans hbetween
    have hchange := System.next_eq_some_iff.1 hnext
    have hknown := Known.of_reachable hfresh hreachable.layout
    refine ⟨hstill.change hknown hallowed hchange, ?_⟩
    rcases closes_change (rule_holds hreachable.reachable) hchange
      with hsame | ⟨thread, flush, call, hplace, _, hcloses⟩
    · exact ⟨later, hsame.trans hlater, hempty⟩
    · refine ⟨later ++ [(call, .closed flush)], ?_, ?_⟩
      · rw [hcloses, hlater, List.append_assoc]
      · intro returned hmem
        rcases List.mem_append.1 hmem with hold | hnew
        · exact hempty returned hold
        · rw [List.mem_singleton.1 hnew, hstill.empty hplace]

/-- A thread that takes the lock after another one finds the writer quiet. -/
theorem TakesLock.quiet {thread : Nat} (h : TakesLock thread s s') (hknown : Known s.layout)
    (hclaimed : s.state.claimed = true) : Quiet s'.layout := by
  obtain ⟨move, heffect, hlayout⟩ := h.effect
  rw [hlayout]
  exact hknown.quiet_of_lock hclaimed heffect

/-- A writer with settings that pass their check has not been used. -/
theorem fresh_of_validate {config : WriterConfig} (h : config.validate = .ok ()) :
    ∃ w : Writer α, ofConfig config = .ok w ∧ Fresh w := by
  obtain ⟨_, _, _, _, hmade⟩ := ofConfig_eq_ok (α := α) h
  exact ⟨_, hmade, rfl, rfl, rfl, rfl, rfl, rfl⟩

/-- A writer delivers what it accepts. Its clients may do anything but take items from its channel
or use its buffer otherwise than to look at it. Then the channel accepts the items of the writes
that succeed, and once a close has returned: the channel is closed and accepts nothing more; the
sink has been called with everything that was accepted, in order and once; all these calls have
returned; and nothing is left in the channel or in the buffer. A close returns the outcome of its
own flush, and whoever takes the lock on the pump after the first one returns that there was
nothing to do. -/
theorem close_delivers_everything {config : WriterConfig} (hvalid : config.validate = .ok ()) :
    ∃ w : Writer α, ofConfig config = .ok w ∧
      ∀ now s, (system w now).ReachableBy (Client (· = .inspect)) s →
        accepted s = written s ∧
        (closes s ≠ [] →
          s.state.channel.closed = true ∧
          (∀ s', s.ReachableBy (Client (· = .inspect)) s' →
            s'.state.channel.closed = true ∧ accepted s' = accepted s) ∧
          ((sinkCalls s).map (·.2)).flatten = accepted s ∧ sinkReturns s = sinkCalls s ∧
          s.state.channel.queue = [] ∧ s.state.buffer.pending = []) ∧
        (∀ returned ∈ closes s, ∃ flush, returned.2 = .closed flush ∧ flush ≠ .joined) ∧
        ∀ first before after, TakesLock first before after →
          (system w now).ReachableBy (Client (· = .inspect)) before →
          ∀ second before' after', after.ReachableBy (Client (· = .inspect)) before' →
            TakesLock second before' after' → after'.ReachableBy (Client (· = .inspect)) s →
            ∃ later, closes s = closes after' ++ later ∧
              ∀ returned ∈ later, returned.2 = .closed .empty := by
  obtain ⟨w, hmade, hfresh⟩ := fresh_of_validate (α := α) hvalid
  refine ⟨w, hmade, ?_⟩
  intro now s h
  have hknown := Known.of_reachable hfresh h.layout
  have hfinished := Finished.of_reachable hfresh h
  refine ⟨accepted_eq_written h, ?_, ?_, ?_⟩
  · intro hreturned
    have hquiet := hfinished.quiet hreturned
    obtain ⟨⟨hclosed, _⟩, _⟩ := hknown.drain.ended hquiet.ended
    have hconserved := Writer.conserved h.layout hfresh.queue
    exact ⟨hclosed, fun s' hlater => accepted_of_closed hlater hclosed,
      hquiet.delivered hknown hconserved⟩
  · intro returned hmem
    obtain ⟨hreturns, hclose⟩ := List.mem_filter.1 hmem
    obtain ⟨flush, hflush⟩ := (rule_holds h.reachable).comes hreturns hclose
    refine ⟨flush, hflush, ?_⟩
    rintro rfl
    exact hfinished.outcome returned hmem hflush
  · intro first before after hfirst hbefore second before' after' hbetween hsecond hlater
    have hbefore' := (hfirst.reachable hbefore).trans hbetween
    have hclaimed := claimed_of_reachable hbetween hfirst.claimed
    have hquiet := hsecond.quiet (Known.of_reachable hfresh hbefore'.layout) hclaimed
    exact (hquiet.closes_empty hfresh (hsecond.reachable hbefore') hlater).2

/-- Settings of a writer that gathers three items for a batch. -/
def threeInBatch : WriterConfig := { channel := { capacity := 1 }, buffer := { limit := 3 } }

/-- Two items are written, and two threads begin to close the writer. -/
def twoWrites : List (Event (monitor Nat)) :=
  [.arrive, .arrive, .step 0 .nothing 0, .call 2 (.write 7), .step 2 .nothing 0,
    .step 1 .nothing 0, .call 2 (.write 8), .step 2 .nothing 0, .call 2 .close, .step 2 .nothing 0,
    .call 3 .close, .step 3 .nothing 0]

/-- The first close waits for the pump and delivers the items, which the sink refuses. -/
def firstClose : List (Event (monitor Nat)) :=
  [.step 1 .nothing 0, .step 1 .nothing 0, .step 1 .nothing 0, .step 1 .nothing 0,
    .step 1 .nothing 0, .step 2 .nothing 0, .step 2 .nothing 0, .step 0 .stop 0,
    .step 2 .nothing 0, .step 2 .nothing 0, .step 2 .nothing 0,
    .step 2 (.outcome (.refused "full")) 0, .step 2 .nothing 0, .step 2 .nothing 0]

/-- The second close goes straight on to the buffer. -/
def secondClose : List (Event (monitor Nat)) :=
  [.step 3 .nothing 0, .step 3 .nothing 0, .step 3 .nothing 0]

theorem close_delivers_everything_twoClosers :
    ∃ w before after before' after' s, ofConfig threeInBatch = .ok w ∧
      (system w .midrange).run twoWrites = some before ∧ TakesLock 2 before after ∧
      after.run firstClose = some before' ∧ TakesLock 3 before' after' ∧
      after'.run secondClose = some s ∧ accepted s = [7, 8] ∧ sinkCalls s = [(2, [7, 8])] ∧
      ((sinkCalls s).map (·.2)).flatten = accepted s ∧ closes after' ≠ [] ∧
      closes s ≠ closes after' ∧ ∃ later, closes s = closes after' ++ later ∧
        ∀ returned ∈ later, returned.2 = .closed .empty := by
  obtain ⟨w, hmade, hall⟩ := close_delivers_everything (α := Nat)
    (show threeInBatch.validate = .ok () from rfl)
  have hruns : ((ofConfig threeInBatch).toOption.bind fun w =>
      ((system w .midrange).run twoWrites).bind fun before =>
        (before.next (.step 2 .nothing 0)).bind fun after =>
          (after.run firstClose).bind fun before' =>
            (before'.next (.step 3 .nothing 0)).bind fun after' =>
              (after'.run secondClose).map fun s =>
                decide ((before.state.locked = false ∧ after.state.locked = true) ∧
                  (before'.state.locked = false ∧ after'.state.locked = true) ∧
                  accepted s = [7, 8] ∧ sinkCalls s = [(2, [7, 8])] ∧
                  (closes after').length = 1 ∧ (closes s).length = 2)) = some true := by
    decide +kernel
  rw [hmade] at hruns
  simp only [Except.toOption, Option.bind_some, Option.bind_eq_some_iff,
    Option.map_eq_some_iff, decide_eq_true_eq] at hruns
  obtain ⟨before, hbefore, after, hafter, before', hbefore', after', hafter', s, hrun,
    hlock, hlock', haccepted, hcalls, hone, htwo⟩ := hruns
  have hfirst : TakesLock 2 before after := ⟨⟨_, _, hafter⟩, hlock⟩
  have hsecond : TakesLock 3 before' after' := ⟨⟨_, _, hafter'⟩, hlock'⟩
  have hallowed : ∀ event ∈ twoWrites ++ firstClose ++ secondClose,
      Client (· = .inspect) event := by
    simp [twoWrites, firstClose, secondClose, Client]
  simp only [List.mem_append] at hallowed
  have hwritten := System.ReachableBy.start.run (fun _ h => hallowed _ (.inl (.inl h))) hbefore
  have hclosing := System.ReachableBy.start.run (fun _ h => hallowed _ (.inl (.inr h))) hbefore'
  have hend := System.ReachableBy.start.run (fun _ h => hallowed _ (.inr h)) hrun
  have hreachable := (hsecond.reachable ((hfirst.reachable hwritten).trans hclosing)).trans hend
  obtain ⟨_, hdelivered, _, hempty⟩ := hall .midrange s hreachable
  have hreturned : closes s ≠ [] := by
    intro hnone
    rw [hnone] at htwo
    contradiction
  refine ⟨w, before, after, before', after', s, hmade, hbefore, hfirst, hbefore', hsecond, hrun,
    haccepted, hcalls, (hdelivered hreturned).2.2.1, ?_, ?_,
    hempty 2 before after hfirst hwritten 3 before' after' hclosing hsecond hend⟩
  · intro hnone
    rw [hnone] at hone
    contradiction
  · intro hsame
    rw [hsame, hone] at htwo
    contradiction

end Backpressure.Writer
