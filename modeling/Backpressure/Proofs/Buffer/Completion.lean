import Backpressure.Proofs.Buffer.Calls
import Backpressure.Proofs.Buffer.Progress

/-!
# What a flush has waited for

A flush looks at the buffer once. It either finds a delivery on its way, and returns after a round
has ended since, or takes what is pending and returns after its own delivery. Rounds number complete
deliveries, and there is one delivery at a time, so that a flush which has seen a new round has seen
the end of the delivery that it found, whatever has begun in between.
-/

namespace Backpressure.Buffer

variable {α : Type}

/-- What must have happened, after a look at the buffer, for a flush that came to this. -/
structure Completed (look s : System (monitor α)) (flush : Flush) : Prop where
  /-- A flush that joined found a delivery on its way. The sink has returned from it and from all
  before it, and some delivery has been completed since. -/
  joined : flush = .joined → inFlight look ≠ [] ∧
    taken look <+: (sinkReturns s).map Delivery.load ∧
    (deliveries look).length < (deliveries s).length
  /-- Any other flush found none. The sink has returned from all that had been added. -/
  settled : flush ≠ .joined → inFlight look = [] ∧ additions look <+: settled s
  /-- Where there was nothing to deliver, nothing was pending. -/
  empty : flush = .empty → look.state.pending = []

/-- Where a flush stands that has looked at a buffer and goes on. -/
inductive HasLooked (b : Buffer α) (errand : Errand) : Position α → Prop
  | join (busy : b.flushing = true) : HasLooked b errand (.join errand b.round)
  | call (rests : b.flushing = false) (batch : List α) : HasLooked b errand (.call errand batch)
  | deliver (rests : b.flushing = false) (batch : List α) :
    HasLooked b errand (.deliver errand batch)
  | record (rests : b.flushing = false) (size : Nat) (accepted : Bool) :
    HasLooked b errand (.record errand size accepted)

/-- How a flush that has looked at a buffer returns: it gives up, or a round has ended, or its own
delivery has. -/
inductive Ends (look b b' : Buffer α) : Reply α → Prop
  | expired (error : FlushTimeoutError) : Ends look b b' (.flushed (.error error))
  | joined (busy : look.flushing = true) (round : b.round ≠ look.round) (same : b' = b) :
    Ends look b b' (.flushed (.ok .joined))
  | delivered (rests : look.flushing = false) (rests' : b'.flushing = false) (size : Nat)
      (accepted : Bool) : Ends look b b' (.flushed (.ok (.ofDelivery size accepted)))

/-- What a flush came to that did not give up. -/
def Reply.flush? : Reply α → Option Flush
  | .flushed (.ok flush) => some flush
  | _ => none

theorem eq_of_flush? {reply : Reply α} {flush : Flush} (h : reply.flush? = some flush) :
    reply = .flushed (.ok flush) := by
  unfold Reply.flush? at h
  split at h
  · cases h
    rfl
  · contradiction

/-- A thread whose first call to return is a flush. -/
theorem exists_flushed {s s' : System (monitor α)} {thread : Nat} {flush : Flush}
    (hnone : s.returnsOf thread = [])
    (hfirst : (s'.returnsOf thread).map (·.2.flush?) = [some flush]) :
    ∃ call, s.returnsOf thread ++ [(call, .flushed (.ok flush))] <+: s'.returnsOf thread := by
  obtain ⟨call, reply, hreturned, hreply⟩ := System.exists_first hnone hfirst
  cases eq_of_flush? hreply
  exact ⟨call, hreturned⟩

/-! ### One step -/

section Moves

variable {look b : Buffer α} {now : Instant} {errand : Errand} {position : Position α}
  {input : Input} {move : Step α}

/-- A flush waits on, or gives up. -/
theorem place_or_expired {round : Nat} {place : Position α}
    (h : (Phase.ofOutcome (M := monitor α) (wait b now errand round).outcome).place? =
      some place) : place = .join errand round := by
  unfold wait at h
  split at h
  · contradiction
  · cases h
    rfl

theorem expired_of_wait {round : Nat} {reply : Reply α}
    (h : (wait b now errand round).outcome = .reply reply) :
    ∃ error, reply = .flushed (.error error) := by
  unfold wait at h
  split at h
  · cases h
    exact ⟨{}, rfl⟩
  · contradiction

/-- A flush that looks at a buffer goes on, gives up, or finds nothing to deliver. -/
theorem looked_of_stepEnter
    (hfinish : ∀ flush, finish (α := α) errand flush = .reply (.flushed (.ok flush))) :
    (∀ place, (Phase.ofOutcome (M := monitor α) (stepEnter b now errand).outcome).place? =
        some place → HasLooked b errand place) ∧
      ∀ flush, (stepEnter b now errand).outcome = .reply (.flushed (.ok flush)) →
        flush = .empty ∧ b.flushing = false ∧ b.pending = [] := by
  unfold stepEnter
  split
  · rename_i hbusy
    constructor
    · intro place hplace
      rw [place_or_expired hplace]
      exact .join hbusy
    · intro flush hreply
      obtain ⟨error, herror⟩ := expired_of_wait hreply
      cases herror
  · rename_i hresting
    have hrests : b.flushing = false := eq_false_of_ne_true hresting
    split
    · rename_i hempty
      rw [hfinish]
      exact ⟨nofun, by rintro _ ⟨⟩; exact ⟨rfl, hrests, List.isEmpty_iff.1 hempty⟩⟩
    · exact ⟨by rintro _ ⟨⟩; exact .call hrests b.pending, nofun⟩

/-- A flush that finds no delivery on its way leaves nothing pending. -/
theorem pending_of_stepEnter (hrests : b.flushing = false) :
    (stepEnter b now errand).state.pending = [] := by
  unfold stepEnter
  rw [hrests, if_neg Bool.false_ne_true]
  split
  · rename_i hempty
    exact List.isEmpty_iff.1 hempty
  · rfl

/-- Looking at a buffer completes no delivery. -/
theorem completed_of_stepEnter (thread : Nat) (notes : List (Nat × Note α)) :
    completed ((stepEnter b now errand).record thread ++ notes) = completed notes := by
  unfold stepEnter wait
  split
  · split <;> rfl
  · split <;> rfl

/-- A flush that has looked goes on, or returns. -/
theorem HasLooked.step (h : HasLooked look errand position)
    (hfinish : ∀ flush, finish (α := α) errand flush = .reply (.flushed (.ok flush)))
    (moves : (monitor α).step b now position input = some move) :
    (∀ place, (Phase.ofOutcome (M := monitor α) move.outcome).place? = some place →
      HasLooked look errand place) ∧
      ∀ reply, move.outcome = .reply reply → Ends look b move.state reply := by
  cases h with
  | join busy =>
    cases moves
    unfold stepJoin
    split
    · constructor
      · intro place hplace
        rw [place_or_expired hplace]
        exact .join busy
      · intro reply hreply
        obtain ⟨error, rfl⟩ := expired_of_wait hreply
        exact .expired error
    · rename_i hround
      rw [hfinish]
      exact ⟨nofun, by rintro _ ⟨⟩; exact .joined busy hround rfl⟩
  | call rests batch =>
    cases moves
    exact ⟨by rintro _ ⟨⟩; exact .deliver rests batch, nofun⟩
  | deliver rests batch =>
    cases input with
    | outcome outcome =>
      cases moves
      exact ⟨by rintro _ ⟨⟩; exact .record rests _ _, nofun⟩
    | _ => contradiction
  | record rests size accepted =>
    cases moves
    unfold stepRecord
    rw [hfinish]
    exact ⟨nofun, by rintro _ ⟨⟩; exact .delivered rests rfl size accepted⟩

end Moves

theorem ofDelivery_ne {size : Nat} {accepted : Bool} :
    Flush.ofDelivery size accepted ≠ .joined ∧ Flush.ofDelivery size accepted ≠ .empty := by
  cases accepted <;> exact ⟨nofun, nofun⟩

/-! ### Whole runs -/

section Runs

variable {limit : Nat} {interval : Duration} {limit_pos : 0 < limit}
  {interval_pos : 0 < interval.nanos} {now : Instant} {look looked s s' : System (monitor α)}
  {flush : Flush}

/-- What has happened stays so. -/
theorem Completed.later (h : Completed look s flush) (hlater : s.Reachable s') :
    Completed look s' flush where
  joined hflush :=
    have ⟨hfound, hreturned, hrounds⟩ := h.joined hflush
    ⟨hfound, hreturned.trans ((sinkReturns_isPrefix hlater).map _),
      Nat.lt_of_lt_of_le hrounds (deliveries_isPrefix hlater).length_le⟩
  settled hflush := (h.settled hflush).imp id (·.trans (settled_isPrefix hlater))
  empty := h.empty

/-- A batch is on its way exactly where the buffer says so. -/
theorem length_inFlight
    (h : (system (.empty limit interval limit_pos interval_pos) now).Reachable s) :
    (inFlight s).length = if s.state.flushing then 1 else 0 :=
  (ledger h).flight.length_outstanding

theorem inFlight_eq_nil
    (h : (system (.empty limit interval limit_pos interval_pos) now).Reachable s)
    (hrests : s.state.flushing = false) : inFlight s = [] := by
  have hlength := length_inFlight h
  rw [hrests] at hlength
  exact List.length_eq_zero_iff.1 hlength

/-- A new round has ended the delivery that was under way, whatever has begun since. -/
theorem completed_of_round
    (h : (system (.empty limit interval limit_pos interval_pos) now).Reachable look)
    (hlater : look.Reachable s) (hbusy : look.state.flushing = true)
    (hround : s.state.round ≠ look.state.round) : Completed look s .joined := by
  have hone : (inFlight look).length = 1 := by rw [length_inFlight h, hbusy, if_pos rfl]
  have hmore : (deliveries look).length < (deliveries s).length := by
    have hgrown := (deliveries_isPrefix hlater).length_le
    rw [round_eq h, round_eq (h.trans hlater)] at hround
    omega
  refine ⟨fun _ => ⟨?_, ?_, hmore⟩, fun hother => absurd rfl hother, nofun⟩
  · intro hnone
    rw [hnone] at hone
    contradiction
  · -- both are beginnings of what has been taken by now, and the first is not the longer one
    have hcomplete : (deliveries s).map Delivery.load <+: taken s :=
      ⟨_, (taken_eq (h.trans hlater)).symm⟩
    have hlength : (taken look).length ≤ ((deliveries s).map Delivery.load).length := by
      rw [taken_eq h, List.length_append, List.length_map, List.length_map, hone]
      exact hmore
    have htaken := List.prefix_of_prefix_length_le (taken_isPrefix hlater) hcomplete hlength
    exact htaken.trans ((deliveries_isPrefix_sinkReturns (h.trans hlater)).map _)

/-- Between two deliveries, the sink has returned from all that has been taken. -/
theorem batched_isPrefix_settled
    (h : (system (.empty limit interval limit_pos interval_pos) now).Reachable s)
    (hrests : s.state.flushing = false) : batched s <+: settled s := by
  have htaken := taken_eq h
  rw [inFlight_eq_nil h hrests, List.append_nil] at htaken
  rw [batched, settled, htaken, List.map_map]
  exact flatten_isPrefix ((deliveries_isPrefix_sinkReturns h).map _)

/-- What a flush that finds no delivery on its way has waited for. -/
theorem completed_of_rests
    (h : (system (.empty limit interval limit_pos interval_pos) now).Reachable look)
    (hlater : look.Reachable s) (hrests : look.state.flushing = false)
    (hrests' : s.state.flushing = false) (htaken : additions look <+: batched s)
    (hflush : flush ≠ .joined) (hempty : flush = .empty → look.state.pending = []) :
    Completed look s flush where
  joined hjoined := absurd hjoined hflush
  settled _ :=
    ⟨inFlight_eq_nil h hrests, htaken.trans (batched_isPrefix_settled (h.trans hlater) hrests')⟩
  empty := hempty

/-- The course of a flush that has looked at the buffer and goes on. -/
def flushCourse
    (h : (system (.empty limit interval limit_pos interval_pos) now).Reachable look)
    (hlook : look.Reachable looked) {errand : Errand}
    (hfinish : ∀ flush, finish (α := α) errand flush = .reply (.flushed (.ok flush)))
    (thread : Nat)
    (hplace : ∀ {position}, placeIn looked.threads thread = some position →
      HasLooked look.state errand position)
    (htaken : look.state.flushing = false → additions look <+: batched looked) :
    Course looked thread where
  during _ position := HasLooked look.state errand position
  after s reply := ∀ flush, reply = .flushed (.ok flush) → Completed look s flush
  begins := hplace
  stays _ _ _ hduring := hduring
  goes := by
    intro s s' input wakee position move hreachable _ hnext _ moves hlayout hduring
    have hstate : s'.state = move.state := congrArg Layout.state hlayout
    have hlater : look.Reachable s' := hlook.trans (hreachable.trans (.single hnext))
    obtain ⟨hon, hreplies⟩ := hduring.step hfinish moves
    refine ⟨hon, ?_⟩
    rintro reply houtcome flush rfl
    cases hreplies _ houtcome with
    | joined busy round same =>
      rw [← same, ← hstate] at round
      exact completed_of_round h hlater busy round
    | delivered rests rests' size accepted =>
      have hbatched := batched_isPrefix (hreachable.trans (.single hnext))
      rw [← hstate] at rests'
      exact completed_of_rests h hlater rests rests' ((htaken rests).trans hbatched)
        ofDelivery_ne.1 fun hempty => absurd hempty ofDelivery_ne.2

end Runs

/-! ### From the look to the return -/

section Look

variable {limit : Nat} {interval : Duration} {limit_pos : 0 < limit}
  {interval_pos : 0 < interval.nanos} {now : Instant} {look looked s : System (monitor α)}
  {flush : Flush} {thread wakee : Nat} {input : Input} {errand : Errand}
  (h : (system (.empty limit interval limit_pos interval_pos) now).Reachable look)
  (hfinish : ∀ flush, finish (α := α) errand flush = .reply (.flushed (.ok flush)))
  (hplace : placeIn look.threads thread = some (.enter errand))
  (hlook : look.next (.step thread input wakee) = some looked)

include hplace hlook

/-- The step in which a flush looks at the buffer. -/
theorem layout_of_look :
    looked.layout = look.layout.after thread (stepEnter look.state look.now errand) := by
  obtain ⟨position, move, hposition, moves, hlayout⟩ := System.moves_of_next hlook
  rw [hplace] at hposition
  cases hposition
  cases moves
  exact hlayout

theorem deliveries_of_look : deliveries looked = deliveries look := by
  have hnotes : looked.view.notes =
      (stepEnter look.state look.now errand).record thread ++ look.view.notes :=
    congrArg Layout.notes (layout_of_look hplace hlook)
  rw [deliveries, hnotes]
  exact completed_of_stepEnter thread look.view.notes

include h

/-- A flush that finds no delivery on its way takes all that has been added. -/
theorem isPrefix_batched_of_look (hrests : look.state.flushing = false) :
    additions look <+: batched looked := by
  have hstate : looked.state = (stepEnter look.state look.now errand).state :=
    congrArg Layout.state (layout_of_look hplace hlook)
  have hlooked : look.Reachable looked := .single hlook
  have hall := batched_append_pending (h.trans hlooked)
  rw [hstate, pending_of_stepEnter hrests, List.append_nil] at hall
  rw [hall]
  exact additions_isPrefix hlooked

include hfinish

/-- A flush that returns at its look has found nothing, and has nothing to wait for. -/
theorem completed_at_look
    (hreply : (stepEnter look.state look.now errand).outcome = .reply (.flushed (.ok flush))) :
    Completed look looked flush := by
  obtain ⟨rfl, hrests, hempty⟩ := (looked_of_stepEnter hfinish).2 flush hreply
  have hstate : looked.state = (stepEnter look.state look.now errand).state :=
    congrArg Layout.state (layout_of_look hplace hlook)
  have hsame : looked.state.flushing = false := by
    rw [hstate]
    simp [stepEnter, hrests, hempty]
  exact completed_of_rests h (.single hlook) hrests hsame
    (isPrefix_batched_of_look h hplace hlook hrests) (by rintro ⟨⟩) fun _ => hempty

/-- A flush that looks at the buffer and returns at some time has completed what it found. -/
theorem completed_of_look (hlater : looked.Reachable s) {call : Call (monitor α)}
    (hreturned : look.returnsOf thread ++ [(call, .flushed (.ok flush))] <+:
      s.returnsOf thread) : Completed look s flush := by
  have hcalled : (Position.enter (α := α) errand).purpose ≠ .tick := by
    cases errand with
    | tick => exact absurd (hfinish .empty) nofun
    | _ => exact nofun
  obtain ⟨call', hopen, _⟩ := exists_openCall h hplace hcalled
  have hgoes : ∀ {position}, placeIn looked.threads thread = some position →
      HasLooked look.state errand position := by
    intro position hmoved
    rw [System.placeIn_of_layout (layout_of_look hplace hlook)] at hmoved
    exact (looked_of_stepEnter hfinish).1 position hmoved
  let course := flushCourse h (.single hlook) hfinish thread hgoes
    (isPrefix_batched_of_look h hplace hlook)
  have hfirst : ∀ {position move reply}, placeIn look.threads thread = some position →
      (monitor α).step look.state look.now position input = some move →
      looked.layout = look.layout.after thread move → move.outcome = .reply reply →
      course.after looked reply := by
    intro position move reply hposition moves _ houtcome flush hflush
    rw [hplace] at hposition
    cases hposition
    cases moves
    subst hflush
    exact completed_at_look h hfinish hplace hlook houtcome
  obtain ⟨_, moment, _, hmoment, hdone⟩ :=
    course.after_of_next (.of_reachable h) hopen hlook hfirst hlater hreturned
  exact (hdone flush rfl).later hmoment

end Look

/-- What a flush has waited for when it returns, whatever threads and the sink do. When it first
holds the lock it either finds a delivery on its way or not. If it does, it returns as one that
joined: the sink has returned from that delivery and from all before it, and some delivery has been
completed since. If it does not, the sink has returned from all that had been added before. It
returns as one that had nothing to deliver only if nothing was pending either. -/
theorem flush_completes {limit : Nat} {interval : Duration} {limit_pos : 0 < limit}
    {interval_pos : 0 < interval.nanos} {now : Instant} {look looked s : System (monitor α)}
    (h : (system (.empty limit interval limit_pos interval_pos) now).Reachable look)
    {thread wakee : Nat} {input : Input} {deadline : Deadline}
    (hplace : placeIn look.threads thread = some (.enter (.flush deadline)))
    (hlook : look.next (.step thread input wakee) = some looked) (hlater : looked.Reachable s)
    {call : Call (monitor α)} {flush : Flush}
    (hreturned : look.returnsOf thread ++ [(call, .flushed (.ok flush))] <+:
      s.returnsOf thread) :
    (flush = .joined ↔ inFlight look ≠ []) ∧
      (flush = .joined → taken look <+: (sinkReturns s).map Delivery.load ∧
        (deliveries looked).length < (deliveries s).length) ∧
      (flush ≠ .joined → additions look <+: settled s) ∧
      (flush = .empty → look.state.pending = []) := by
  have hdone := completed_of_look h (fun _ => rfl) hplace hlook hlater hreturned
  refine ⟨⟨fun hflush => (hdone.joined hflush).1, ?_⟩, ?_, fun hflush => (hdone.settled hflush).2,
    hdone.empty⟩
  · intro hfound
    by_contra hother
    exact hfound (hdone.settled hother).1
  · intro hflush
    rw [deliveries_of_look hplace hlook]
    exact (hdone.joined hflush).2

/-- While one thread delivers a first item, another is about to flush. -/
def flushDuringDelivery : List (Event (monitor Nat)) :=
  [.arrive, .arrive, .arrive, .call 1 (.add 1), .step 1 .nothing 0, .call 1 .flush,
    .step 1 .nothing 0, .step 1 .nothing 0, .call 2 (.flushTimeout ⟨5, by decide⟩)]

/-- Between the end of that delivery and the moment at which the flush that waits for it goes on, a
third thread begins the next one. -/
def nextDeliveryBegins : List (Event (monitor Nat)) :=
  [.call 3 (.add 2), .step 3 .nothing 0, .step 1 (.outcome .accepted) 0, .step 1 .nothing 0,
    .call 3 .flush, .step 3 .nothing 0, .step 3 .nothing 0, .step 2 .nothing 0]

theorem flush_completes_nextDeliveryBegins :
    ∃ look looked s call, (system (.empty 9 ⟨1, by decide⟩ (by decide) (by decide)) .midrange).run
        flushDuringDelivery = some look ∧
      look.next (.step 2 .nothing 0) = some looked ∧ looked.run nextDeliveryBegins = some s ∧
      look.returnsOf 2 ++ [(call, .flushed (.ok .joined))] <+: s.returnsOf 2 ∧
      inFlight look = [(1, [1])] ∧ inFlight s = [(3, [2])] ∧
      taken look <+: (sinkReturns s).map Delivery.load ∧
      (deliveries looked).length < (deliveries s).length := by
  have hruns : (((system (.empty 9 ⟨1, by decide⟩ (by decide) (by decide)) .midrange).run
      flushDuringDelivery).bind fun look => (look.next (.step 2 .nothing 0)).bind fun looked =>
        (looked.run nextDeliveryBegins).map fun s =>
          decide (placeIn look.threads 2 = some (.enter (.flush (.after .midrange ⟨5, by decide⟩))) ∧
            look.returnsOf 2 = [] ∧ (s.returnsOf 2).map (·.2.flush?) = [some .joined] ∧
            inFlight look = [(1, [1])] ∧ inFlight s = [(3, [2])])) = some true := by
    decide +kernel
  simp only [Option.bind_eq_some_iff, Option.map_eq_some_iff, decide_eq_true_eq] at hruns
  obtain ⟨look, hbefore, looked, hlook, s, hafter, hplace, hnone, hjoined, hfound, hnew⟩ := hruns
  obtain ⟨call, hprefix⟩ := exists_flushed hnone hjoined
  obtain ⟨hsettled, hlater⟩ := (flush_completes (.run .start hbefore) hplace hlook
    (.run .start hafter) hprefix).2.1 rfl
  exact ⟨look, looked, s, call, hbefore, hlook, hafter, hprefix, hfound, hnew, hsettled, hlater⟩

end Backpressure.Buffer
