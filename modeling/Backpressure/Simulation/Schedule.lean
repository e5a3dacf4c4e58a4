import Backpressure.Simulation.Session

/-!
# Simulated runs are schedules

Whatever a session does to its system is a run of the system on one of its schedules. So what holds
of every reachable system holds of every simulated one.
-/

namespace Backpressure

namespace World

variable {M : Monitor} {S : Surroundings M}

theorem reachable_lapse (s : System M) : s.Reachable (lapse s) := by
  unfold lapse
  cases h : s.next (.elapse (Duration.ofNanos 1)) with
  | none => exact .start
  | some s' => exact .single h

theorem reachable_react {w w' : World M S} {event : Event M} (h : w.react event = some w') :
    w.system.Reachable w'.system := by
  obtain ⟨system, hnext, rfl⟩ := Option.map_eq_some_iff.1 h
  exact .single hnext

/-- A thread's step in its surroundings is a step of the system, and time that passes. -/
theorem reachable_stepThread {w w' : World M S} {thread : Nat}
    (h : w.stepThread thread = some w') : w.system.Reachable w'.system := by
  unfold stepThread at h
  split at h
  · split at h
    · exact reachable_react h
    · contradiction
  · simp only [Option.bind_eq_bind, Option.bind_eq_some_iff, Option.some.injEq] at h
    obtain ⟨_, _, _, _, _, _, system, hnext, rfl⟩ := h
    exact (System.Reachable.single hnext).trans (reachable_lapse system)
  · contradiction

theorem reachable_stepBackground {w w' : World M S} {bound : Nat}
    (h : w.stepBackground bound = some w') : w.system.Reachable w'.system := by
  obtain ⟨thread, _, hstep⟩ := List.exists_of_findSome?_eq_some h
  exact reachable_stepThread hstep

theorem reachable_passTime {w w' : World M S} {limit : Deadline}
    (h : w.passTime limit = some w') : w.system.Reachable w'.system := by
  unfold passTime at h
  split at h
  · contradiction
  · simp only [Option.bind_eq_bind, Option.bind_eq_some_iff] at h
    obtain ⟨_, _, hmove⟩ := h
    exact reachable_react hmove

end World

namespace Client

variable {S : Stage} {c c' : Client S} {w w' : World S.monitor S.surroundings}

/-- A turn of an operation is a call, or nothing that the system sees. -/
theorem reachable_take {turn : Turn S.monitor.Request S.surroundings.Env S.Answer}
    (h : c.take w turn = some (c', w')) : w.system.Reachable w'.system := by
  unfold take at h
  split at h
  · obtain ⟨_, hreact, heq⟩ := Option.map_eq_some_iff.1 h
    simp only [Prod.mk.injEq] at heq
    have hreached := World.reachable_react hreact
    rwa [heq.2] at hreached
  · split at h
    · contradiction
    · simp only [Option.some.injEq, Prod.mk.injEq] at h
      rw [← h.2]
      exact .start
  · simp only [Option.some.injEq, Prod.mk.injEq] at h
    rw [← h.2]
    exact .start

/-- A client's step is a turn of its operation, a step of its thread, or nothing that the system
sees. -/
theorem reachable_step (h : c.step w = some (c', w')) : w.system.Reachable w'.system := by
  unfold step at h
  split at h
  · split at h
    · simp only [Option.some.injEq, Prod.mk.injEq] at h
      rw [← h.2]
      exact .start
    · obtain ⟨_, hstep, heq⟩ := Option.map_eq_some_iff.1 h
      simp only [Prod.mk.injEq] at heq
      rw [← heq.2]
      exact World.reachable_stepThread hstep
  · obtain ⟨_, _, htake⟩ := Option.bind_eq_some_iff.1 h
    exact reachable_take htake

end Client

namespace Session

variable {S : Stage}

theorem reachable_stepWorkers {w w' : World S.monitor S.surroundings}
    {workers workers' : List (Client S)} (h : stepWorkers w workers = some (workers', w')) :
    w.system.Reachable w'.system := by
  induction workers generalizing workers' with
  | nil => contradiction
  | cons c rest ih =>
    unfold stepWorkers at h
    split at h
    · rename_i hstep
      simp only [Option.some.injEq, Prod.mk.injEq] at h
      rw [← h.2]
      exact Client.reachable_step hstep
    · obtain ⟨⟨rest', w''⟩, hrest, heq⟩ := Option.map_eq_some_iff.1 h
      simp only [Prod.mk.injEq] at heq
      exact ih (heq.2 ▸ hrest)

theorem reachable_step {s s' : Session S} (h : s.step = some s') :
    s.world.system.Reachable s'.world.system := by
  unfold step at h
  split at h
  · rename_i hmain
    cases h
    exact Client.reachable_step hmain
  · split at h
    · rename_i hbackground
      cases h
      exact World.reachable_stepBackground hbackground
    · obtain ⟨⟨workers, world⟩, hworkers, rfl⟩ := Option.map_eq_some_iff.1 h
      exact reachable_stepWorkers hworkers

/-- However long a session goes on, its system stays on a schedule. -/
theorem reachable_drive (wanted : Session S → Bool) (limit : Deadline) (fuel : Nat)
    (s : Session S) :
    s.world.system.Reachable (drive wanted limit fuel s).world.system := by
  induction fuel generalizing s with
  | zero => exact .start
  | succ fuel ih =>
    unfold drive
    split
    · exact .start
    · split
      · rename_i hstep
        exact (reachable_step hstep).trans (ih _)
      · split
        · rename_i world hpass
          exact (World.reachable_passTime hpass).trans (ih { s with world })
        · exact .start

theorem reachable_settle (s : Session S) : s.world.system.Reachable s.settle.world.system :=
  reachable_drive _ _ _ _

/-- What the main thread does in a session, some schedule of the system does. -/
theorem reachable_perform (s : Session S) (operation : S.Operation) :
    s.world.system.Reachable (s.perform operation).2.world.system :=
  reachable_drive _ _ patience { s with main := .begin "main" s.main.thread [operation] }

theorem reachable_enlist (s : Session S) (name : String) (script : List S.Operation) :
    s.world.system.Reachable (s.enlist name script).world.system := by
  unfold enlist
  cases h : s.world.react .arrive with
  | none => exact .start
  | some world => exact World.reachable_react h

/-- What a new worker does in a session, some schedule of the system does. -/
theorem reachable_spawn (s : Session S) (name : String) (script : List S.Operation) :
    s.world.system.Reachable (s.spawn name script).world.system :=
  (reachable_enlist s name script).trans (reachable_settle _)

end Session

end Backpressure
