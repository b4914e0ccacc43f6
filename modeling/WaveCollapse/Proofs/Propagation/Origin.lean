import WaveCollapse.Proofs.Propagation.Run
import WaveCollapse.Proofs.Propagation.Solutions
import WaveCollapse.Proofs.Search.Ring

/-! # Propagation from one variable

A propagation may be asked of any vector, with waves that were edited by hand: some of them may
be empty, and connections away from the origin may be broken already.  So the fixed point that
it ends with is a local one.  The frontier covers the connections that leave the origin, and with
every wave that it changes those that leave the changed variable (`Relaxes.coveredFrom`); where
the run ends well, all of these support the waves.  A wave that was empty to begin with has
nothing to lose, so it is never named in a contradiction (`Intact.drain_emptied`).
-/

namespace WaveCollapse.System
variable {V : Type} {s : System V}

/-- To carry the wave of the origin is to look after the connections that leave it. -/
theorem coveredFrom_origin (s : System V) (origin : Nat) :
    s.CoveredFrom (· = origin) [{ v := origin }] :=
  fun _ hu i _ _ => .inr ⟨{ v := origin }, List.mem_singleton_self _, hu.symm, Nat.zero_le i⟩

/-- An assignment that satisfies the system stays inside the waves, and its variables keep a
state, so a run meets no contradiction. -/
theorem Sound.drain_inside (hs : s.Sound) {f : Nat → Nat} (hf : s.Satisfies f)
    (hin : Inside s.waves f) (frontier : Frontier) (journal : Journal) :
    (s.drain frontier journal).1 = .ok () ∧ Inside (s.drain frontier journal).2.1.waves f := by
  obtain ⟨hended, -, hwithin, hcontains⟩ := hs.drain_keeps frontier journal
  have hkept : Inside (s.drain frontier journal).2.1.waves f := by
    refine fun v hv => hcontains _ hf.arcConsistent ?_ v hv (f v) rfl
    rintro u hu p rfl
    exact hin u hu
  refine ⟨?_, hkept⟩
  rcases hs.intact.drain_emptied frontier journal with ⟨hok, -⟩ | ⟨v, hv, -, ⟨-, hempty⟩, -⟩
  · exact hok
  · have hv' : v < (s.drain frontier journal).2.1.waves.size := by
      rw [hwithin.size]
      exact hv
    exact absurd hkept (not_inside_of_isEmpty hended.wellFormed hv' hempty f)

variable [Ord V] [Std.TransOrd V]

/-- **Propagation loses nothing and reports truthfully**, from any vector of well-formed waves and
any origin, known or not.  Whatever the rules answer, the waves that are left lie within those
that were given, and the run ends well or in a contradiction.  It ends well with no wave empty
that was not empty before; a contradiction names the one variable that lost its last state.  With
rules that answer as they promise, a run that ends well leaves every connection supported that
leaves the origin or a variable whose wave has changed: its destination has only what its source
admits.  An assignment inside the given waves that satisfies the system is inside those that are
left then, and after a contradiction there is none. -/
theorem propagate_truthful (s : System V) (hlaid : s.Laid) (hwf : s.WellFormed) (origin : Nat)
    (journal : Journal) :
    let verdict := (s.propagate origin journal).1
    let ended := (s.propagate origin journal).2.1
    (ended.problem = s.problem ∧ ended.connections = s.connections ∧ ended.WellFormed) ∧
    (ended.size = s.size ∧ ∀ v, ended.wave v ⊆ s.wave v) ∧
    (verdict = .ok () ∨ ∃ v, verdict = .error (.contradiction v)) ∧
    (verdict = .ok () → ∀ v, (s.wave v).isEmpty = false → (ended.wave v).isEmpty = false) ∧
    (∀ v, verdict = .error (.contradiction v) →
      v < s.size ∧ (s.wave v).isEmpty = false ∧ (ended.wave v).isEmpty = true ∧
        ∀ u, u ≠ v → (s.wave u).isEmpty = false → (ended.wave u).isEmpty = false) ∧
    (s.problem.rules.Faithful →
      (verdict = .ok () → ∀ u, u = origin ∨ ended.wave u ≠ s.wave u → ∀ c ∈ s.outgoing u,
        ended.wave c.destination ⊆
          s.problem.rules.allowed (ended.wave u) c.kind (ended.wave c.destination)) ∧
      (verdict = .ok () → ∀ f, Inside s.waves f → s.Satisfies f → Inside ended.waves f) ∧
      ∀ v, verdict = .error (.contradiction v) → ∀ f, Inside s.waves f → ¬ s.Satisfies f) := by
  have hs : s.Intact := hlaid.intact hwf
  intro verdict ended
  obtain ⟨hended, ⟨hproblem, hconnections⟩, hwithin⟩ := hs.drain_keeps [{ v := origin }] journal
  have hemptied := hs.drain_emptied [{ v := origin }] journal
  refine ⟨⟨hproblem, hconnections, hended.wellFormed⟩, ⟨hwithin.size, hwithin.subset⟩, ?_,
    fun hok v hhad => ?_, fun v herror => ?_, fun hrules => ⟨fun hok u hu c hc => ?_,
      fun _ f hin hf => ?_, fun v herror f hin hf => ?_⟩⟩
  · rcases hemptied with ⟨hok, -⟩ | ⟨v, -, herror, -⟩
    · exact .inl hok
    · exact .inr ⟨v, herror⟩
  · rcases hemptied with ⟨-, hsame⟩ | ⟨_, -, herror, -⟩
    · exact (hsame v).trans hhad
    · cases hok.symm.trans herror
  · rcases hemptied with ⟨hok, -⟩ | ⟨w, hw, herror', ⟨hhad, hempty⟩, hsame⟩
    · cases herror.symm.trans hok
    · cases herror.symm.trans herror'
      exact ⟨hw, hhad, hempty, fun u hu hhad => (hsame u hu).trans hhad⟩
  · have hsup := (hs.sound hrules).drain_supports (s.coveredFrom_origin origin) journal hok u hu c hc
    have hd : c.destination < ended.size :=
      Nat.lt_of_lt_of_eq (hs.linked.destination_lt u c hc) hwithin.size.symm
    exact (supports_iff_subset hrules (hended.wellFormed _ hd)).mp hsup
  · exact ((hs.sound hrules).drain_inside hf hin _ journal).2
  · cases herror.symm.trans ((hs.sound hrules).drain_inside hf hin [{ v := origin }] journal).1

/-- Around a ring whose third vertex is empty the first colour is carried both ways: what the second
vertex leaves to its neighbours is then supported.  Where two neighbours start with the same
colour, one of them is emptied, and the ring has no colouring. -/
theorem propagate_truthful_rings :
    (let s := System.ringOf 2 [[0], [0, 1], [], [0, 1]]
     let ended := (s.propagate 0 .silent).2.1
     (s.propagate 0 .silent).1 = .ok () ∧ ended.wave 1 ≠ s.wave 1 ∧
       ∀ c ∈ s.outgoing 1, ended.wave c.destination ⊆
         (Rules.differing 2).allowed (ended.wave 1) c.kind (ended.wave c.destination)) ∧
    (let s := System.ringOf 2 [[0], [0], [0, 1], [0, 1]]
     (s.propagate 1 .silent).1 = .error (.contradiction 0) ∧
       ∀ f, Inside s.waves f → ¬ s.Satisfies f) := by
  have hvalid : (Layout.mk 0 2 2).Valid := by decide
  constructor
  · intro s ended
    obtain ⟨-, -, -, -, -, hfaithful⟩ := propagate_truthful s (ringOf_laid 2 _)
      (ringOf_wellFormed hvalid _) 0 .silent
    obtain ⟨hok, hchanged⟩ :
        (s.propagate 0 .silent).1 = .ok () ∧ (s.propagate 0 .silent).2.1.wave 1 ≠ s.wave 1 :=
      drain_of_any (n := 6) (P := fun t => t.wave 1 ≠ s.wave 1) (by decide +kernel) .silent
    exact ⟨hok, hchanged, (hfaithful (Rules.differing_faithful 2)).1 hok 1 (.inr hchanged)⟩
  · intro s
    obtain ⟨-, -, -, -, -, hfaithful⟩ := propagate_truthful s (ringOf_laid 2 _)
      (ringOf_wellFormed hvalid _) 1 .silent
    obtain ⟨herror, -⟩ : (s.propagate 1 .silent).1 = .error (.contradiction 0) ∧ True :=
      drain_of_any (n := 0) (P := fun _ => True) (by decide +kernel) .silent
    exact ⟨herror, (hfaithful (Rules.differing_faithful 2)).2.2 0 herror⟩

end WaveCollapse.System
