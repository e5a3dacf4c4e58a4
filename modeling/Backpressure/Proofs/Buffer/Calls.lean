import Backpressure.Proofs.Buffer.Waking
import Backpressure.Proofs.History

/-!
# What calls on a buffer come to

A thread inside a buffer is in a call that it has made, and there for what the call asked for; only
the periodic trigger is there without a call. Of the calls, a flush alone can give up: an add and a
shutdown wait for another delivery as long as it takes.
-/

namespace Backpressure.Buffer

variable {α : Type}

/-- What a call that is there for this may come to. -/
def Purpose.Allows : Purpose → Reply α → Prop
  | .add, reply => reply = .added
  | .flush, reply => ∃ result, reply = .flushed result
  | .shutdown, reply => ∃ flush, reply = .flushed (.ok flush)
  | .tick, _ => False
  | .inspect, reply => ∃ buffer, reply = .snapshot buffer

section Moves

variable {b : Buffer α} {now : Instant} {errand : Errand} {reply : Reply α}

theorem allows_finish {flush : Flush} (h : finish errand flush = .reply reply) :
    errand.purpose.Allows reply := by
  cases errand with
  | flush deadline =>
    cases h
    exact ⟨_, rfl⟩
  | shutdown =>
    cases h
    exact ⟨_, rfl⟩
  | add =>
    simp only [finish] at h
    split at h
    · contradiction
    · cases h
      rfl
  | tick => contradiction

/-- Only a flush with a deadline gives up. -/
theorem allows_wait {round : Nat} (h : (wait b now errand round).outcome = .reply reply) :
    errand.purpose.Allows reply := by
  unfold wait at h
  split at h
  · rename_i hreached
    cases errand with
    | flush deadline =>
      cases h
      exact ⟨_, rfl⟩
    | add | shutdown | tick => contradiction
  · contradiction

/-- A call returns what it may. -/
theorem allows_of_moves {position : Position α} {input : Input} {move : Step α}
    (moves : (monitor α).step b now position input = some move)
    (hreply : move.outcome = .reply reply) : position.purpose.Allows reply := by
  cases position with
  | append item =>
    cases moves
    simp only [stepAppend] at hreply
    split at hreply
    · contradiction
    · cases hreply
      rfl
  | enter errand =>
    cases moves
    unfold stepEnter at hreply
    split at hreply
    · exact allows_wait hreply
    · split at hreply
      · exact allows_finish hreply
      · contradiction
  | join errand round =>
    cases moves
    unfold stepJoin at hreply
    split at hreply
    · exact allows_wait hreply
    · exact allows_finish hreply
  | call errand batch =>
    cases moves
    contradiction
  | deliver errand batch =>
    cases input <;> cases moves
    contradiction
  | record errand size accepted =>
    cases moves
    exact allows_finish hreply
  | recheck =>
    cases moves
    unfold stepRecheck at hreply
    split at hreply
    · contradiction
    · cases hreply
      rfl
  | stop =>
    simp only [step, stepStop] at moves
    split at moves <;> cases moves <;> contradiction
  | await =>
    simp only [step, stepAwait] at moves
    split at moves <;> cases moves
    contradiction
  | launch =>
    cases moves
    contradiction
  | select =>
    simp only [step, stepSelect] at moves
    split at moves
    · cases moves
      contradiction
    · split at moves <;> cases moves
      contradiction
    · contradiction
  | inspect =>
    cases moves
    cases hreply
    exact ⟨_, rfl⟩

end Moves

/-- A thread is there for what its call asked for, or for the periodic trigger. -/
def purposeRule (α : Type) : CallRule (monitor α) where
  stands call? position := (call?.map (·.request.purpose)).getD .tick = position.purpose
  comes call reply := call.request.purpose.Allows reply
  start _ request now := (purpose_start request now).symm
  step := by
    intro call? position state now input move hstands moves
    constructor
    · intro place hplace
      rw [(effect_of_moves moves).purpose hplace, ← hstands]
      cases call? <;> rfl
    · rintro call reply rfl hreply
      have hpurpose : call.request.purpose = position.purpose := hstands
      have hallows := allows_of_moves moves hreply
      rw [← hpurpose] at hallows
      exact hallows

theorem purposeRule_holds {b : Buffer α} {now : Instant} {s : System (monitor α)}
    (h : (system b now).Reachable s) : (purposeRule α).Holds s := by
  refine CallRule.holds h ?_
  intro position hposition
  rw [List.mem_singleton.1 hposition]
  rfl

/-- A thread inside a buffer is in a call, unless it is the periodic trigger. -/
theorem exists_openCall {b : Buffer α} {now : Instant} {s : System (monitor α)}
    (h : (system b now).Reachable s) {thread : Nat} {position : Position α}
    (hplace : placeIn s.threads thread = some position) (hpurpose : position.purpose ≠ .tick) :
    ∃ call, openCall thread s.journal = some call ∧ call.request.purpose = position.purpose := by
  have hstands : ((openCall thread s.journal).map (·.request.purpose)).getD .tick =
      position.purpose := (purposeRule_holds h).stands hplace
  cases hopen : openCall thread s.journal with
  | none =>
    rw [hopen] at hstands
    exact absurd hstands.symm hpurpose
  | some call =>
    rw [hopen] at hstands
    exact ⟨call, rfl, hstands⟩

/-- A call that has not returned is at some place, and there for what it asked for. -/
theorem place_of_openCall {b : Buffer α} {now : Instant} {s : System (monitor α)}
    (h : (system b now).Reachable s) {thread : Nat} {call : Call (monitor α)}
    (hopen : openCall thread s.journal = some call) :
    ∃ position, placeIn s.threads thread = some position ∧
      position.purpose = call.request.purpose := by
  have hbackground : ∀ position ∈ [(Position.launch : Position α)],
      (purposeRule α).stands none position := by
    intro position hposition
    rw [List.mem_singleton.1 hposition]
    rfl
  have hstays : ∀ {call : Call (monitor α)} {position : Position α} {state now input move},
      (purposeRule α).stands (some call) position →
        (monitor α).step state now position input = some move → move.outcome ≠ .exit := by
    intro call position state now input move hstands moves hexit
    have hleads := leads_of_moves moves
    rw [hexit] at hleads
    cases hleads with
    | exit hselect =>
      -- only the periodic trigger ends its thread, and it is in no call
      subst hselect
      have hpurpose : call.request.purpose = .tick := hstands
      cases hrequest : call.request <;> rw [hrequest] at hpurpose <;> contradiction
  obtain ⟨position, hplace⟩ := CallRule.exists_place h hbackground hstays hopen
  have hstands := (purposeRule_holds h).stands hplace
  rw [hopen] at hstands
  exact ⟨position, hplace, Eq.symm hstands⟩

end Backpressure.Buffer
