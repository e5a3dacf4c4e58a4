import Backpressure.Proofs.LineBatch.Outcome
import Backpressure.Proofs.LineBatch.Settings

/-!
# What the batcher prints
-/

namespace Backpressure.LineBatch

variable {job : Job} {input : Reading} {now : Instant} {s s' : System monitor}
  {m m' : System (Writer.monitor String)} {fits : Buffer.Input → Prop}

/-- The batches that have been printed, in order. -/
def batches (s : System monitor) : List (List String) := s.notes.filterMap Note.accepted?

/-- The batches that are printed are those that the sink of the writer accepts. -/
theorem batches_eq (h : Shadow s m) :
    batches s = told (fun noted : Nat × Writer.Note String => noted.2.accepted?) m.view.notes := by
  refine (s.filterMap_notes Note.accepted?).trans ?_
  rw [h.view]
  have htold := writerPart.told_notes (fun noted => noted.2.accepted?) s.layout
  refine Eq.trans ?_ htold.symm
  congr 1
  funext noted
  obtain ⟨thread, note⟩ := noted
  cases note with
  | writer note =>
    cases note with
    | buffer note =>
      cases note with
      | returned batch outcome => cases outcome <;> rfl
      | _ => rfl
    | channel | drained => rfl
  | _ => rfl

/-- Some batches are lines cut into groups, in order, none of them empty or larger than a limit. -/
structure Grouping (limit : Nat) (lines : List String) (batches : List (List String)) : Prop where
  whole : batches.flatten = lines
  fits : ∀ batch ∈ batches, batch ≠ [] ∧ batch.length ≤ limit

/-- Lines in chunks are a grouping of them in which only the last group may be short. -/
theorem grouping_toChunks {size : Nat} (hsize : 0 < size) (lines : List String) :
    Grouping size lines (lines.toChunks size) ∧
      ∀ chunk ∈ (lines.toChunks size).dropLast, chunk.length = size := by
  induction hlength : lines.length using Nat.strongRecOn generalizing lines with
  | ind length ih =>
    by_cases hshort : lines.length ≤ size
    · cases lines with
      | nil => exact ⟨⟨rfl, nofun⟩, nofun⟩
      | cons line rest =>
        rw [toChunks_of_length_le (List.cons_ne_nil _ _) hshort]
        refine ⟨⟨List.append_nil _, ?_⟩, nofun⟩
        intro batch hmem
        cases List.mem_singleton.1 hmem
        exact ⟨List.cons_ne_nil _ _, hshort⟩
    · have hfull : (lines.take size).length = size := by
        rw [List.length_take]
        omega
      have hsome : lines.take size ≠ [] := by
        rw [← List.length_pos_iff, hfull]
        exact hsize
      have hless : (lines.drop size).length < length := by
        rw [List.length_drop]
        omega
      obtain ⟨hgrouping, hrest⟩ := ih _ hless (lines.drop size) rfl
      have hchunks : lines.toChunks size =
          lines.take size :: (lines.drop size).toChunks size := by
        rw [← toChunks_append hsize hfull, List.take_append_drop]
      rw [hchunks]
      refine ⟨⟨?_, ?_⟩, ?_⟩
      · rw [List.flatten_cons, hgrouping.whole, List.take_append_drop]
      · exact List.forall_mem_cons.2 ⟨⟨hsome, Nat.le_of_eq hfull⟩, hgrouping.fits⟩
      · intro chunk hmem
        have hmore : (lines.drop size).toChunks size ≠ [] := by
          intro hnil
          rw [hnil] at hmem
          contradiction
        rw [List.dropLast_cons_of_ne_nil hmore] at hmem
        rcases List.mem_cons.1 hmem with rfl | hlater
        · exact hfull
        · exact hrest chunk hlater

/-- The sink of a writer is called with batches that are not empty and keep to the limit. -/
theorem fits_of_sinkCalls {w : Writer String} (hfresh : Writer.Fresh w)
    (h : (Writer.system w now).ReachableBy (Writer.Client (· = .inspect)) m) :
    ∀ batch ∈ (Writer.sinkCalls m).map (·.2), batch ≠ [] ∧ batch.length ≤ w.buffer.limit := by
  have hledger := Writer.ledger h.layout hfresh.pending hfresh.flushing
  have hbacklog := Writer.backlog_of_reachable hfresh.pending nofun h.layout
  intro batch hmem
  obtain ⟨load, hload, rfl⟩ := List.mem_map.1 hmem
  rw [Writer.sinkCalls_eq] at hload
  have htaken := (hledger.flight.prefixes hledger.batches).1.mem hload
  exact ⟨hledger.nonempty load htaken, hbacklog.taken load htaken⟩

section Returned

variable (h : Tracked job now input fits s m) {status : Nat}
  (hreturned : s.threads[mainThread]? = some (.returned status))
include h hreturned

/-- A main thread that has returned has come to the end of its course. -/
theorem finished_of_returned : status = input.status ∧ Finished input s.layout := by
  cases h.main with
  | works here =>
    rw [System.place_layout, placeIn, hreturned] at here
    contradiction
  | returned here finished =>
    rw [hreturned] at here
    exact ⟨Option.some.inj here, finished⟩

variable (hbegun : Begun job) (hfits : ∀ input, fits input → input.Accepts)
include hbegun hfits

/-- What has been printed by then is what the sink was called with. -/
theorem batches_of_returned :
    batches s = (Writer.sinkCalls m).map (·.2) ∧ Writer.accepted m = input.lines ∧
      ((Writer.sinkCalls m).map (·.2)).flatten = Writer.accepted m := by
  obtain ⟨_, hquiet, hall⟩ := finished_of_returned h hreturned
  have hclient := h.reached.mono fun _ => Writer.client_of_served
  have hknown := Writer.Known.of_reachable hbegun.fresh hclient.layout
  have hconserved := Writer.conserved hclient.layout hbegun.fresh.queue
  rw [← h.shadow.layout] at hquiet
  obtain ⟨hitems, hreturns, _⟩ := hquiet.delivered hknown hconserved
  have haccepted : Writer.accepted m = input.lines := by
    rw [← hall, written, ← h.shadow.layout]
    rfl
  refine ⟨?_, haccepted, hitems⟩
  rw [batches_eq h.shadow, Writer.accepted_eq_sinkReturns hfits h.reached, hreturns]

/-- What has been printed by then is a grouping of the lines. -/
theorem grouping_of_returned : Grouping job.writer.buffer.limit input.lines (batches s) := by
  obtain ⟨hbatches, haccepted, hitems⟩ := batches_of_returned h hreturned hbegun hfits
  have hclient := h.reached.mono fun _ => Writer.client_of_served
  rw [hbatches]
  exact ⟨hitems.trans haccepted, fits_of_sinkCalls hbegun.fresh hclient⟩

/-- Where the periodic trigger does not go off, it is the lines in chunks. -/
theorem chunks_of_returned (huntimed : ∀ input, fits input → input ≠ .tick) :
    batches s = input.lines.toChunks job.writer.buffer.limit := by
  obtain ⟨hbatches, haccepted, _⟩ := batches_of_returned h hreturned hbegun hfits
  obtain ⟨_, hquiet, _⟩ := finished_of_returned h hreturned
  rw [← h.shadow.layout] at hquiet
  have huntimed' := h.reached.mono fun _ => Writer.untimed_of_served huntimed
  rw [hbatches, Writer.chunks_of_quiet hbegun.fresh huntimed' hquiet, haccepted]

end Returned

end Backpressure.LineBatch
