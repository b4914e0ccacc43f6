import WaveCollapse.Proofs.Search.Ring
import WaveCollapse.Proofs.Search.Upkeep
import WaveCollapse.Proofs.System.Snapshot

/-! # Searching from a snapshot

A search begins by forgetting what an earlier one left behind, so solvers that agree in their
system, configuration, source and reports search alike (`Alike.collapse_eq`, `Alike.next_eq`).
A system that was written out and read back is the one that was written; a search from it is
therefore the search that could have been made at the time (`System.snapshot_round_trip`).

What a text may bring in is wider than what is ever written (`System.readSnapshot_admits`): waves
of another class, with bits that belong to no state, or wider than their word.
-/

namespace WaveCollapse

/-! ## Searches that start alike -/

namespace Solver
variable {V ρ : Type} {a b : Solver V ρ}

/-- The solvers agree in all that a search does not begin by clearing. -/
structure Alike (a b : Solver V ρ) : Prop where
  system : a.system = b.system
  config : a.config = b.config
  source : a.source = b.source
  reports : a.reports = b.reports

/-- What an earlier search left on the stacks and the frontier does not matter. -/
theorem Alike.start_eq (h : a.Alike b) (run : Run) : a.start run = b.start run := by
  cases a
  cases b
  cases h.system
  cases h.config
  cases h.source
  cases h.reports
  rfl

variable [PickSource ρ]

theorem Alike.step_eq (h : a.Alike b) (limit : Nat) : a.step { limit } = b.step { limit } :=
  h.start_eq { limit }

/-- **Alike solvers search alike.** -/
theorem Alike.collapse_eq (h : a.Alike b) (limit : Nat) (journal : Journal) :
    a.collapse limit journal = b.collapse limit journal := by
  have step := h.step_eq limit
  unfold collapse
  rw [h.system, h.config]
  cases told : (b.step { limit }).outcome with
  | event e => rw [drive_event told, drive_event (step ▸ told), step]
  | finished result => rw [drive_finished told, drive_finished (step ▸ told), step]

/-- Taken one by one, their events are the same from the first on. -/
theorem Alike.next_eq (h : a.Alike b) (limit : Nat) (journal : Journal) :
    (Stepper.ofSolver a limit).next journal = (Stepper.ofSolver b limit).next journal := by
  unfold Stepper.next Stepper.ofSolver
  dsimp only
  rw [h.step_eq limit]

end Solver

namespace System
variable {V : Type} {s t built : System V}

/-- Whatever happens to a system, it remains the same one. -/
theorem History.sameNetwork (hbuilt : built.Intact) (h : built.History s) :
    s.SameNetwork built := by
  obtain ⟨hs, hproblem, hconnections⟩ := h.intact hbuilt
  exact ⟨hproblem, hconnections, hbuilt.size_eq hs hproblem⟩

/-! ## Written out and read back -/

/-- **A snapshot restores a system exactly, and a failed change leaves it alone.** In whatever
later state `t` of the system the text is read, the system is again the one that was written:
every wave with its bits, class, stride and width, whichever bits are set.  Every search from
there, with the source as it was, is the search from the system that was written, whatever
searches left behind in the meantime.  Reading, restoring, setting a wave and resetting change
nothing when they fail. -/
theorem snapshot_round_trip {ρ : Type} [PickSource ρ] (hwords : s.WordSized)
    (hlater : t.SameNetwork s) :
    (Change.readSnapshot s.writeSnapshot).run t = .ok () s ∧
    (∀ a b : Solver V ρ, a.system = s → b.system = t → b.config = a.config →
      b.source = a.source → b.reports = a.reports →
      ∃ r, t.readSnapshot s.writeSnapshot = .ok r ∧ ∀ limit journal,
        ({ b with system := r } : Solver V ρ).collapse limit journal = a.collapse limit journal ∧
        (Stepper.ofSolver { b with system := r } limit).next journal =
          (Stepper.ofSolver a limit).next journal) ∧
    ∀ (u after : System V) (e : CollapseError),
      (∀ text, (Change.readSnapshot text).run u = .error e after → after = u) ∧
      (∀ ws, (Change.restore ws).run u = .error e after → after = u) ∧
      (∀ v w, (Change.setWave v w).run u = .error e after → after = u) ∧
      (Change.reset.run u = .error e after → after = u) := by
  have hread := readSnapshot_writeSnapshot hwords hlater
  refine ⟨(Change.readSnapshot_does _).ok hread, ?_, ?_⟩
  · intro a b ha _ hconfig hsource hreports
    refine ⟨s, hread, fun limit journal => ?_⟩
    have halike : ({ b with system := s } : Solver V ρ).Alike a :=
      ⟨ha.symm, hconfig, hsource, hreports⟩
    exact ⟨halike.collapse_eq limit journal, halike.next_eq limit journal⟩
  · intro u after e
    exact ⟨fun text => (Change.readSnapshot_does text).unchanged,
      fun ws => (Change.restore_does ws).unchanged,
      fun v w => (Change.setWave_does v w).unchanged, Change.reset_does.unchanged⟩

/-- On the ring of three with all 64 states at every vertex, so that every bit of every word is
set: the text is read while a search stands abandoned after 20 events, and the search made anew
from there, with the source as it was, is the search from the start. -/
theorem snapshot_round_trip_ring :
    let s := System.ring 3 64
    let a := Solver.ring 3 64 {} [7]
    let left := ((Stepper.ofSolver a 5).skip .silent 20).1.solver
    (∀ v < 3, (s.wave v).bits = BitVec.allOnes 64) ∧
      (Change.readSnapshot s.writeSnapshot).run left.system = .ok () s ∧
      ∀ limit journal, ({ left with
          system := s, config := a.config, source := a.source, reports := a.reports } :
            Solver Int WordStream).collapse limit journal = a.collapse limit journal := by
  intro s a left
  have hvalid : (Layout.mk 0 64 64).Valid := by decide
  have hwords : s.WordSized := by
    intro w hw
    have hfull : w = Wave.full ⟨0, 64, 64⟩ :=
      List.eq_of_mem_replicate (Array.toList_replicate ▸ hw)
    rw [hfull]
    exact (Wave.wellFormed_full hvalid).wordSized (by decide) (by decide)
  have hbuilt : s.Intact := (System.ring_laid 3 64).intact (System.ring_wellFormed hvalid)
  have past : s.History left.system := .abandoned (a := a) .built 5 .silent 20
  have hlater : left.system.SameNetwork s := past.sameNetwork hbuilt
  obtain ⟨hrun, hsearch, -⟩ := snapshot_round_trip (V := Int) (ρ := WordStream) hwords hlater
  refine ⟨fun v hv => ?_, hrun, fun limit journal => ?_⟩
  · rw [System.wave_ring hv]
    decide
  · obtain ⟨r, hread, hsame⟩ := hsearch a { left with
      config := a.config, source := a.source, reports := a.reports } rfl rfl rfl rfl rfl
    cases hread.symm.trans (readSnapshot_writeSnapshot hwords hlater)
    exact (hsame limit journal).1

/-! ## What a text may bring in -/

/-- **A snapshot is taken as it is spelled.** Reading asks of a text that it spells one wave for
every variable.  So the systems that some text leads to are all those of the same network whose
layouts are made of words: nothing is asked about the bits of a wave or about its class, stride
and width. -/
theorem readSnapshot_admits (s : System V) :
    (∀ text, (∃ t, s.readSnapshot text = .ok t) ↔
      ∃ ws, Wave.ofSnapshotText? text = some ws ∧ ws.length = s.size) ∧
    ∀ t, (∃ text, s.readSnapshot text = .ok t) ↔ t.SameNetwork s ∧ t.WordSized := by
  refine ⟨fun text => ?_, fun t => ?_⟩
  · constructor
    · rintro ⟨t, h⟩
      obtain ⟨ws, hspelled, hlength, -⟩ := readSnapshot_eq_ok_iff.mp h
      exact ⟨ws, hspelled, hlength⟩
    · rintro ⟨ws, hspelled, hlength⟩
      exact ⟨_, readSnapshot_eq_ok_iff.mpr ⟨ws, hspelled, hlength, rfl⟩⟩
  · constructor
    · rintro ⟨text, h⟩
      obtain ⟨ws, hspelled, hlength, rfl⟩ := readSnapshot_eq_ok_iff.mp h
      exact ⟨⟨rfl, rfl, hlength⟩, Wave.wordSized_of_ofSnapshotText? hspelled⟩
    · rintro ⟨hsame, hwords⟩
      exact ⟨t.writeSnapshot, readSnapshot_writeSnapshot hwords hsame.symm⟩

/-- The ring of three with two states, after a snapshot brought in a wave wider than its word, a
bit past the width of its wave, and a wave of another class. -/
def strayRing : System Int :=
  { System.ring 3 2 with waves := #[⟨⟨0, 65, 65⟩, 3⟩, ⟨⟨0, 2, 2⟩, 4⟩, ⟨⟨4, 2, 2⟩, 1⟩] }

/-- The text that spells these waves is read.  A search cannot read the first; the second variable
counts as resolved but has no state; the third has the states of another class. -/
theorem readSnapshot_stray :
    (System.ring 3 2).Intact ∧
      (System.ring 3 2).readSnapshot strayRing.writeSnapshot = .ok strayRing ∧
      (({ Solver.ring 3 2 {} [7] with system := strayRing } : Solver Int WordStream).collapse 5
        .silent).result = .error .unreadableWave ∧
      (strayRing.wave 1).isResolved = true ∧ (strayRing.wave 1).resolvedState = none ∧
      (strayRing.wave 2).layout.classId ≠ ((System.ring 3 2).wave 2).layout.classId := by
  have hintact : (System.ring 3 2).Intact :=
    (System.ring_laid 3 2).intact (System.ring_wellFormed (by decide))
  have hwords : strayRing.WordSized := by
    intro w hw
    have hlow : ∀ w ∈ strayRing.waves.toList, w.layout.classId < twoTo 64 ∧
      w.layout.stride < twoTo 64 ∧ w.layout.width < twoTo 64 := by decide
    exact ⟨(hlow w hw).1, (hlow w hw).2.1, (hlow w hw).2.2⟩
  have hsame : (System.ring 3 2).SameNetwork strayRing := ⟨rfl, rfl, rfl⟩
  have hread := readSnapshot_writeSnapshot hwords hsame
  have hstuck : (({ Solver.ring 3 2 {} [7] with system := strayRing } : Solver Int
      WordStream).collapse 5 .silent).result = .error .unreadableWave :=
    Solver.drive_result_of_within (n := 3) (by decide +kernel) _
  exact ⟨hintact, hread, hstuck, by decide, by decide, by decide⟩

end System
end WaveCollapse
