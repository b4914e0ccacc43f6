import WaveCollapse.Proofs.Propagation.Work

/-! # Runs of propagation

`System.PropagatesTo` holds between a system with a frontier and every system and frontier
that propagation passes through before its last step; `drain` performs the last step from one
of these (`drain_ends`), after no more steps than there is work (`drain_within`).  What a step
keeps is therefore kept by a whole run, and the outcome of a run is read off its last step
(`Sound.drain_outcome`).
-/

namespace WaveCollapse

namespace System
variable {V : Type} {s t : System V} {frontier g : Frontier}

/-- Propagation passes through `t` with the frontier `g`. -/
inductive PropagatesTo (s : System V) (frontier : Frontier) : System V → Frontier → Prop where
  | start : PropagatesTo s frontier s frontier
  | step {t : System V} {g : Frontier} (before : PropagatesTo s frontier t g)
      (on : (t.propagateStep g).relaxation.verdict? = none) :
      PropagatesTo s frontier (t.propagateStep g).system (t.propagateStep g).frontier

theorem PropagatesTo.trans (h : s.PropagatesTo frontier t g) {u : System V} {f : Frontier}
    (h' : t.PropagatesTo g u f) : s.PropagatesTo frontier u f := by
  induction h' with
  | start => exact h
  | step _ on ih => exact .step ih on

/-- The last step gives what a run ends with. -/
theorem drain_of_verdict {verdict : Except PropagationError Unit}
    (last : (s.propagateStep frontier).relaxation.verdict? = some verdict) (journal : Journal) :
    (s.drain frontier journal).1 = verdict ∧
      (s.drain frontier journal).2.1 = (s.propagateStep frontier).system := by
  rw [drain]
  -- the first three cases end the run, the last two go on
  split
  · next h =>
    rw [h] at last
    exact ⟨Option.some.inj last, rfl⟩
  · next h =>
    rw [h] at last
    exact ⟨Option.some.inj last, rfl⟩
  · next h =>
    rw [h] at last
    exact ⟨Option.some.inj last, rfl⟩
  · next h =>
    rw [h] at last
    cases last
  · next h =>
    rw [h] at last
    cases last

/-- Any other step leaves the rest of the run. -/
theorem drain_of_on (on : (s.propagateStep frontier).relaxation.verdict? = none)
    (journal : Journal) : ∃ journal', s.drain frontier journal =
      (s.propagateStep frontier).system.drain (s.propagateStep frontier).frontier journal' := by
  rw [drain]
  split
  · next h =>
    rw [h] at on
    cases on
  · next h =>
    rw [h] at on
    cases on
  · next h =>
    rw [h] at on
    cases on
  · exact ⟨_, rfl⟩
  · exact ⟨_, rfl⟩

/-- The system and the frontier after `n` steps of propagation, if none of them was the last. -/
def afterSteps (s : System V) (frontier : Frontier) : Nat → Option (System V × Frontier)
  | 0 => some (s, frontier)
  | n + 1 =>
    match (s.propagateStep frontier).relaxation.verdict? with
    | none => (s.propagateStep frontier).system.afterSteps (s.propagateStep frontier).frontier n
    | some _ => none

/-- **Propagation comes to its end within the work that it is given.** -/
theorem drain_within (s : System V) (frontier : Frontier) (journal : Journal) :
    ∃ n t g, n ≤ s.work frontier ∧ s.afterSteps frontier n = some (t, g) ∧
      (t.propagateStep g).relaxation.verdict? = some (s.drain frontier journal).1 ∧
      (s.drain frontier journal).2.1 = (t.propagateStep g).system := by
  cases hverdict : (s.propagateStep frontier).relaxation.verdict? with
  | some verdict =>
    obtain ⟨hresult, hsystem⟩ := drain_of_verdict hverdict journal
    refine ⟨0, s, frontier, Nat.zero_le _, rfl, ?_, hsystem⟩
    rw [hverdict, hresult]
  | none =>
    obtain ⟨journal', hdrain⟩ := drain_of_on hverdict journal
    obtain ⟨n, t, g, hn, hafter, hlast⟩ := drain_within (s.propagateStep frontier).system
      (s.propagateStep frontier).frontier journal'
    refine ⟨n + 1, t, g, Nat.lt_of_le_of_lt hn (s.work_lt frontier hverdict), ?_, ?_⟩
    · unfold afterSteps
      rw [hverdict]
      exact hafter
    · rw [hdrain]
      exact hlast
termination_by s.work frontier
decreasing_by exact s.work_lt frontier ‹_›

theorem propagatesTo_of_afterSteps {n : Nat} (h : s.afterSteps frontier n = some (t, g)) :
    s.PropagatesTo frontier t g := by
  induction n generalizing s frontier with
  | zero =>
    cases h
    exact .start
  | succ n ih =>
    unfold afterSteps at h
    split at h
    · next on => exact PropagatesTo.trans (.step .start on) (ih h)
    · cases h

/-- What a run ends with is what the step gives that follows some others and is the last. -/
theorem drain_of_afterSteps {n : Nat} {verdict : Except PropagationError Unit}
    (h : s.afterSteps frontier n = some (t, g))
    (last : (t.propagateStep g).relaxation.verdict? = some verdict) (journal : Journal) :
    (s.drain frontier journal).1 = verdict ∧
      (s.drain frontier journal).2.1 = (t.propagateStep g).system := by
  induction n generalizing s frontier journal with
  | zero =>
    cases h
    exact drain_of_verdict last journal
  | succ n ih =>
    unfold afterSteps at h
    split at h
    · next on =>
      obtain ⟨journal', hdrain⟩ := drain_of_on on journal
      rw [hdrain]
      exact ih h journal'
    · cases h

/-- A run ends with what can be computed of the step that follows some others and is the last. -/
theorem drain_of_any [DecidableEq (Except PropagationError Unit)] {n : Nat}
    {verdict : Except PropagationError Unit} {P : System V → Prop} [DecidablePred P]
    (h : (s.afterSteps frontier n).any (fun q =>
      decide ((q.1.propagateStep q.2).relaxation.verdict? = some verdict ∧
        P (q.1.propagateStep q.2).system)) = true)
    (journal : Journal) :
    (s.drain frontier journal).1 = verdict ∧ P (s.drain frontier journal).2.1 := by
  obtain ⟨q, hafter, hq⟩ := (Option.any_eq_true _ _).mp h
  obtain ⟨last, hP⟩ := of_decide_eq_true hq
  obtain ⟨hverdict, hsystem⟩ := drain_of_afterSteps hafter last journal
  exact ⟨hverdict, hsystem ▸ hP⟩

/-- A propagation to the end passes through some system whose next step is the last. -/
theorem drain_ends (s : System V) (frontier : Frontier) (journal : Journal) :
    ∃ t g, s.PropagatesTo frontier t g ∧
      (t.propagateStep g).relaxation.verdict? = some (s.drain frontier journal).1 ∧
      (s.drain frontier journal).2.1 = (t.propagateStep g).system := by
  obtain ⟨n, t, g, -, hafter, hlast⟩ := drain_within s frontier journal
  exact ⟨t, g, propagatesTo_of_afterSteps hafter, hlast⟩

/-! ## What a run keeps -/

/-- Arc consistency looks at the connections and the rules of a system only. -/
theorem ArcConsistent.of_network {G : Family} (h : s.ArcConsistent G)
    (hnet : t.problem = s.problem ∧ t.connections = s.connections) : t.ArcConsistent G := by
  unfold ArcConsistent Supports outgoing at h ⊢
  rw [hnet.1, hnet.2]
  exact h

theorem not_contradiction_of_on {r : Relaxation} (hr : r.verdict? = none) :
    ¬ ∃ u v k, r = .contradiction u v k := by
  rintro ⟨u, v, k, rfl⟩
  cases hr

namespace PropagatesTo

/-- Whatever the rules answer, propagation takes states away and does nothing else. -/
theorem intact (hs : s.Intact) (h : s.PropagatesTo frontier t g) :
    t.Intact ∧ (t.problem = s.problem ∧ t.connections = s.connections) ∧
      Within t.waves s.waves := by
  induction h with
  | start => exact ⟨hs, ⟨rfl, rfl⟩, .refl _⟩
  | @step t g _ _ ih =>
    obtain ⟨ht, ⟨hp, hc⟩, hwithin⟩ := ih
    have hstep := ht.propagateStep g
    exact ⟨hstep.intact ht, ⟨hstep.network.1.trans hp, hstep.network.2.trans hc⟩,
      (hstep.within_of_intact ht).trans hwithin⟩

theorem sound (hs : s.Sound) (h : s.PropagatesTo frontier t g) : t.Sound := by
  obtain ⟨ht, hnet, -⟩ := h.intact hs.intact
  exact ht.sound (hnet.1 ▸ hs.faithful)

theorem network (hs : s.Sound) (h : s.PropagatesTo frontier t g) :
    t.problem = s.problem ∧ t.connections = s.connections :=
  (h.intact hs.intact).2.1

theorem contains (hs : s.Sound) {G : Family} (hG : s.ArcConsistent G) (hin : Contains s.waves G)
    (h : s.PropagatesTo frontier t g) : Contains t.waves G := by
  induction h with
  | start => exact hin
  | step before _ ih =>
    have ht := before.sound hs
    exact (ht.propagateStep _).contains ht (hG.of_network (before.network hs)) ih

/-- Covered stay the connections that were looked after from the beginning, and those that leave
a variable whose wave has changed since. -/
theorem coveredFrom (hs : s.Sound) {D : Nat → Prop} (hc : s.CoveredFrom D frontier)
    (h : s.PropagatesTo frontier t g) :
    t.CoveredFrom (fun u => D u ∨ t.wave u ≠ s.wave u) g := by
  induction h with
  | start => exact fun u hu => hc u (hu.resolve_right (not_not_intro rfl))
  | @step t g before on ih =>
    have ht := before.sound hs
    have hnext := ((ht.propagateStep g).coveredFrom ht ih).resolve_left
      (not_contradiction_of_on on)
    intro u hu
    -- a wave that differs from the first one was changed before this step or by it
    by_cases hlast : (t.propagateStep g).system.wave u = t.wave u
    · rw [hlast] at hu
      exact hnext u (.inl hu)
    · exact hnext u (.inr hlast)

/-- Until a contradiction is met, the empty waves are those that were empty to begin with. -/
theorem isEmpty_wave (hs : s.Intact) (h : s.PropagatesTo frontier t g) (x : Nat) :
    (t.wave x).isEmpty = (s.wave x).isEmpty := by
  induction h with
  | start => rfl
  | @step t g before on ih =>
    have ht := (before.intact hs).1
    refine ((ht.propagateStep g).isEmpty_wave ht fun u k what => ?_).trans ih
    exact not_contradiction_of_on on ⟨u, x, k, what⟩

end PropagatesTo

/-! ## The outcome of a run -/

/-- Whatever the rules answer, what a run of propagation leaves is intact again and lies within
the waves that it was given. -/
theorem Intact.drain_keeps (hs : s.Intact) (frontier : Frontier) (journal : Journal) :
    let ended := (s.drain frontier journal).2.1
    ended.Intact ∧ (ended.problem = s.problem ∧ ended.connections = s.connections) ∧
      Within ended.waves s.waves := by
  obtain ⟨t, g, hto, -, hsystem⟩ := drain_ends s frontier journal
  obtain ⟨ht, ⟨hp, hc⟩, hwithin⟩ := hto.intact hs
  have hlast := ht.propagateStep g
  simp only [hsystem]
  exact ⟨hlast.intact ht, ⟨hlast.network.1.trans hp, hlast.network.2.trans hc⟩,
    (hlast.within_of_intact ht).trans hwithin⟩

/-- Whatever the rules answer, a run leaves the empty waves as they were, or it ends in a
contradiction and empties the variable that this names, and no other. -/
theorem Intact.drain_emptied (hs : s.Intact) (frontier : Frontier) (journal : Journal) :
    let ended := (s.drain frontier journal).2.1
    ((s.drain frontier journal).1 = .ok () ∧ ∀ x, (ended.wave x).isEmpty = (s.wave x).isEmpty) ∨
      ∃ v < s.size, (s.drain frontier journal).1 = .error (.contradiction v) ∧
        ((s.wave v).isEmpty = false ∧ (ended.wave v).isEmpty = true) ∧
        ∀ x, x ≠ v → (ended.wave x).isEmpty = (s.wave x).isEmpty := by
  obtain ⟨t, g, hto, hverdict, hsystem⟩ := drain_ends s frontier journal
  obtain ⟨ht, -, hwithin⟩ := hto.intact hs
  have hbefore := hto.isEmpty_wave hs
  have hlast := ht.propagateStep g
  simp only [hsystem]
  generalize t.propagateStep g = last at hlast hverdict
  cases hlast with
  | idle => exact .inl ⟨(Option.some.inj hverdict).symm, hbefore⟩
  | unchanged => cases hverdict
  | narrowed => cases hverdict
  | @contradiction u c _ notes next changed emptied =>
    have hstep := Relaxes.contradiction notes next changed emptied
    obtain ⟨hv, hhad, hleft⟩ := hstep.emptied ht rfl
    refine .inr ⟨c.destination, Nat.lt_of_lt_of_eq hv hwithin.size,
      (Option.some.inj hverdict).symm, ⟨(hbefore _).symm.trans hhad, hleft⟩, fun x hx => ?_⟩
    refine (hstep.isEmpty_wave ht fun _ _ what => ?_).trans (hbefore x)
    cases what
    exact hx rfl

/-- What a run of propagation leaves is sound again, lies within the waves it was given, and
holds every arc consistent family that these held. -/
theorem Sound.drain_keeps (hs : s.Sound) (frontier : Frontier) (journal : Journal) :
    let ended := (s.drain frontier journal).2.1
    ended.Sound ∧ (ended.problem = s.problem ∧ ended.connections = s.connections) ∧
      Within ended.waves s.waves ∧
      ∀ G, s.ArcConsistent G → Contains s.waves G → Contains ended.waves G := by
  obtain ⟨hended, hnet, hwithin⟩ := hs.intact.drain_keeps frontier journal
  refine ⟨hended.sound (hnet.1 ▸ hs.faithful), hnet, hwithin, fun G hG hin => ?_⟩
  obtain ⟨t, g, hto, -, hsystem⟩ := drain_ends s frontier journal
  have ht := hto.sound hs
  rw [hsystem]
  exact (ht.propagateStep g).contains ht (hG.of_network (hto.network hs)) (hto.contains hs hG hin)

/-- On a sound system every wave can be read. -/
theorem Sound.drain_readable (hs : s.Sound) (frontier : Frontier) (journal : Journal) :
    (s.drain frontier journal).1 ≠ .error .unreadableWave := by
  rcases hs.intact.drain_emptied frontier journal with ⟨h, -⟩ | ⟨v, -, h, -⟩
  all_goals
    rw [h]
    nofun

/-- Where a run ends well, all connections support the waves that were looked after from the
beginning or leave a variable whose wave has changed. -/
theorem Sound.drain_supports (hs : s.Sound) {D : Nat → Prop} (hc : s.CoveredFrom D frontier)
    (journal : Journal) (hok : (s.drain frontier journal).1 = .ok ()) :
    let ended := (s.drain frontier journal).2.1
    ∀ u, D u ∨ ended.wave u ≠ s.wave u → ∀ c ∈ s.outgoing u,
      s.Supports (members ended.waves) u c := by
  obtain ⟨t, g, hto, hverdict, hsystem⟩ := drain_ends s frontier journal
  obtain ⟨hproblem, hconnections⟩ := hto.network hs
  have hcovered := hto.coveredFrom hs hc
  have hlast := (hto.sound hs).propagateStep g
  rw [hok] at hverdict
  simp only [hsystem]
  generalize t.propagateStep g = last at hlast hverdict
  cases hlast with
  | idle idle =>
    intro u hu c hmem
    obtain ⟨i, hi⟩ := Array.mem_iff_getElem?.mp hmem
    have hi' : (t.outgoing u)[i]? = some c := by
      unfold outgoing at hi ⊢
      rwa [hconnections]
    have hsup := (hcovered u hu i c hi').resolve_right (nextConnection_none idle hi')
    unfold Supports at hsup ⊢
    rwa [hproblem] at hsup
  | unchanged | narrowed | contradiction => cases hverdict

/-- Where the frontier covers and no wave is empty, a run ends in a contradiction, with a
variable that has no state left, or its waves are arc consistent and none is empty. -/
theorem Sound.drain_outcome (hs : s.Sound) (hc : s.Covered frontier) (ha : AliveWaves s.waves)
    (journal : Journal) :
    (∃ v < s.size, (s.drain frontier journal).1 = .error (.contradiction v) ∧
        ((s.drain frontier journal).2.1.wave v).isEmpty = true) ∨
      (s.drain frontier journal).1 = .ok () ∧
        AliveWaves (s.drain frontier journal).2.1.waves ∧
        s.ArcConsistent (members (s.drain frontier journal).2.1.waves) := by
  rcases hs.intact.drain_emptied frontier journal with
    ⟨hok, hsame⟩ | ⟨v, hv, herror, ⟨-, hempty⟩, -⟩
  · refine .inr ⟨hok, fun v hv => ?_, fun u => ?_⟩
    · have hsize := (hs.intact.drain_keeps frontier journal).2.2.size
      exact (hsame v).trans (ha v (hsize ▸ hv))
    · exact hs.drain_supports (D := fun _ => True) (fun w _ => hc w) journal hok u (.inl trivial)
  · exact .inl ⟨v, hv, herror, hempty⟩

/-- Arc consistent waves have nothing to lose: from any frontier a run ends well and changes
nothing. -/
theorem Sound.drain_of_consistent (hs : s.Sound) (hG : s.ArcConsistent (members s.waves))
    (frontier : Frontier) (journal : Journal) : s.drain frontier journal = (.ok (), s, journal) := by
  have hstep := hs.propagateStep frontier
  rw [drain]
  generalize s.propagateStep frontier = next at hstep ⊢
  cases hstep with
  | idle => rfl
  | @unchanged u c rest h same =>
    have hless := s.nextConnection_pending h
    exact hs.drain_of_consistent hG rest journal
  | narrowed _ h changed | contradiction _ h changed =>
    have hsup := hG _ _ (nextConnection_mem h)
    exact absurd ((hs.relaxed_eq_iff (nextConnection_mem h)).mpr hsup) changed
termination_by s.pending frontier

end System
end WaveCollapse
