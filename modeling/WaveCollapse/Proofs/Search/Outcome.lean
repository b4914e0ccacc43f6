import WaveCollapse.Proofs.Propagation.Solutions
import WaveCollapse.Proofs.Search.Ready
import WaveCollapse.Proofs.Search.Upkeep

/-! # The outcomes of a search

A search over a system that was built can end in four ways only (`Solver.Documented`): every
variable is resolved, no decision is left to undo, the observer stopped it, or the observations
are used up.  Restoring a saved vector always fits and a reset always succeeds, since whatever
happened to the system its network and its size are those that were built (`System.History`).

Where a search is ready to observe, it asks first whether anything is ambiguous and then whether
an observation is left (`Upkeep.ready_outcome`).  So a vector that the last observation allowed
resolves is a success, and a search that stops for want of observations leaves a variable with a
choice.
-/

namespace WaveCollapse

/-- The reason that a run gives when its observer stops it with this error. -/
def CollapseError.abortReason : CollapseError → String
  | aborted reason => reason
  | other => other.message

/-- Where no wave is empty, every variable is resolved exactly when nothing is ambiguous. -/
theorem System.fullyResolved_iff_entropy {V : Type} {s : System V} (hwf : s.WellFormed)
    (ha : AliveWaves s.waves) :
    s.fullyResolved = true ↔ ∀ v < s.size, (s.wave v).entropy = 0 := by
  rw [System.fullyResolved_iff hwf]
  refine forall_congr' fun v => forall_congr' fun hv => ?_
  constructor
  · rintro ⟨p, hp⟩
    unfold Wave.entropy
    rw [Wave.popcount_eq_length (hwf v hv), hp]
    rfl
  · exact Wave.components_of_entropy_zero (hwf v hv) (ha v hv)

namespace Solver
variable {V ρ : Type} {start s t : Solver V ρ} {limit : Nat} {run r : Run}

/-! ## The observer's verdict -/

/-- After an observation the observer decides; whatever error it gives aborts the run. -/
theorem announce_outcome (s : Solver V ρ) (run : Run) (v p : Nat) :
    (s.announce run v p).outcome = match s.config.observer with
      | none => .event (.observed v p)
      | some observer =>
        match observer.verdict (s.announce run v p).solver.reports with
        | .ok _ => .event (.observed v p)
        | .error cause => .finished (.error (.aborted cause.abortReason)) := by
  cases ho : s.config.observer with
  | none => simp only [announce, report, ho]
  | some observer =>
    cases hv : observer.verdict (s.progress run :: s.reports) with
    | ok _ => simp only [announce, report, ho, hv]
    | error cause => cases cause <;> simp only [announce, report, ho, hv, CollapseError.abortReason]

/-! ## Where a search is ready -/

theorem ready_of_idle (begun : run.initialized = true) (on : run.inconsistent = false)
    (idle : s.system.nextConnection s.frontier = none) : s.Ready run := by
  refine ⟨begun, on, ?_⟩
  unfold System.propagateStep
  rw [idle]

section Steps
variable [PickSource ρ]

/-- Ready to observe, a search asks first whether anything is ambiguous and then whether an
observation is left. -/
theorem Upkeep.ready_outcome (h : Upkeep start limit s run) (ready : s.Ready run) :
    (s.system.fullyResolved = true → (s.step run).outcome = .finished (.ok run.stats)) ∧
    (s.system.fullyResolved = false → limit ≤ run.observations →
      (s.step run).outcome = .finished (.error (.stepLimit limit))) ∧
    (s.system.fullyResolved = false → run.observations < limit →
      (s.step run).run.observations = run.observations + 1) := by
  have halive := h.alive ready.2.1
  have hclear := System.fullyResolved_iff_entropy h.intact.wellFormed halive
  rw [ready.step_eq]
  rcases observe_cases h.intact.wellFormed halive run with
    ⟨source, clear, hend⟩ | ⟨v, chosen, hrest⟩
  · have hresolved := hclear.mpr clear
    rw [hend, hresolved]
    exact ⟨fun _ => rfl, nofun, nofun⟩
  · obtain ⟨hv, hpos, -⟩ := mem_lowestCandidates.mp chosen
    have hambiguous : ¬ s.system.fullyResolved = true :=
      fun hresolved => Nat.ne_of_gt hpos (hclear.mp hresolved v hv)
    refine ⟨fun hresolved => absurd hresolved hambiguous, fun _ full => ?_, fun _ room => ?_⟩
    · rcases hrest with ⟨source, -, hend⟩ | ⟨p, -, source, room, -⟩
      · rw [hend, h.limit]
      · exact absurd (h.limit ▸ full) (Nat.not_le_of_lt room)
    · rcases hrest with ⟨source, full, -⟩ | ⟨p, -, source, -, hannounce⟩
      · exact absurd (h.limit ▸ full) (Nat.not_le_of_lt room)
      · rw [hannounce, announce_run]
        rfl

/-- A step that makes an observation ends as the observer of the search says. -/
theorem Upkeep.verdict (h : Upkeep start limit s run)
    (one_more : (s.step run).run.observations = run.observations + 1) :
    ∃ v p, (s.step run).outcome = match start.config.observer with
      | none => .event (.observed v p)
      | some observer =>
        match observer.verdict (s.step run).solver.reports with
        | .ok _ => .event (.observed v p)
        | .error cause => .finished (.error (.aborted cause.abortReason)) := by
  have ready : s.Ready run := by
    have hmove := h.step_move
    generalize s.step run = next at hmove one_more
    cases hmove with
    | observed on idle | aborted on idle => exact ready_of_idle h.begun on idle
    | unchanged | narrowed | contradicted | solved | limited | backtracked | exhausted | hopeless
    | restarted | restartedEmpty | unstartable =>
      exact absurd one_more (Nat.ne_of_lt (Nat.lt_succ_self _))
  rw [ready.step_eq] at one_more ⊢
  rcases observe_cases h.intact.wellFormed (h.alive ready.2.1) run with ⟨source, -, hend⟩ |
    ⟨v, -, ⟨source, -, hend⟩ | ⟨p, -, source, -, hannounce⟩⟩
  · rw [hend] at one_more
    exact absurd one_more (Nat.ne_of_lt (Nat.lt_succ_self _))
  · rw [hend] at one_more
    exact absurd one_more (Nat.ne_of_lt (Nat.lt_succ_self _))
  · have hconfig : (s.decided v p source s.reports).config = start.config := h.config
    refine ⟨v, p, ?_⟩
    rw [hannounce, announce_outcome, hconfig]

/-- A search that an observation ends was stopped by its observer. -/
theorem Upkeep.stopped (h : Upkeep start limit s run)
    (one_more : (s.step run).run.observations = run.observations + 1)
    {result : Except CollapseError Stats} (last : (s.step run).outcome = .finished result) :
    ∃ observer cause, start.config.observer = some observer ∧
      observer.verdict (s.step run).solver.reports = .error cause ∧
      result = .error (.aborted cause.abortReason) := by
  obtain ⟨v, p, hheard⟩ := h.verdict one_more
  rw [last] at hheard
  cases ho : start.config.observer with
  | none =>
    rw [ho] at hheard
    cases hheard
  | some observer =>
    rw [ho] at hheard
    cases hv : observer.verdict (s.step run).solver.reports with
    | ok _ =>
      simp only [hv] at hheard
      cases hheard
    | error cause =>
      simp only [hv] at hheard
      exact ⟨observer, cause, rfl, hv, Outcome.finished.inj hheard⟩

/-- Over resolved waves that are arc consistent, a step ends the search well or changes no
wave. -/
theorem Upkeep.step_of_resolved (h : Upkeep start limit s run) (on : run.inconsistent = false)
    (hrules : s.system.problem.rules.Faithful) (resolved : s.system.fullyResolved = true)
    (consistent : s.system.ArcConsistent (members s.system.waves)) :
    (s.step run).outcome = .finished (.ok run.stats) ∨
      ∃ e, (s.step run).outcome = .event e ∧ (s.step run).run.inconsistent = false ∧
        (s.step run).solver.system = s.system := by
  have hsound := h.intact.sound hrules
  have hclear := (System.fullyResolved_iff_entropy h.intact.wellFormed (h.alive on)).mp resolved
  have hkept : ∀ {u c rest}, s.system.nextConnection s.frontier = some (u, c, rest) →
      s.system.relaxed u c = s.system.wave c.destination := fun hnext =>
    have hc := System.nextConnection_mem hnext
    (hsound.relaxed_eq_iff hc).mpr (consistent _ _ hc)
  have hmove := h.step_move
  generalize s.step run = next at hmove ⊢
  cases hmove with
  | solved => exact .inl rfl
  | unchanged _ step what =>
    cases step with
    | unchanged => exact .inr ⟨_, rfl, on, rfl⟩
    | idle | narrowed | contradiction => cases what
  | narrowed _ step what =>
    cases step with
    | narrowed _ hnext changed => exact absurd (hkept hnext) changed
    | idle | unchanged | contradiction => cases what
  | contradicted _ step what =>
    cases step with
    | contradiction _ hnext changed => exact absurd (hkept hnext) changed
    | idle | unchanged | narrowed => cases what
  | observed _ _ chosen | aborted _ _ chosen | limited _ _ chosen =>
    obtain ⟨hv, hpos, -⟩ := mem_lowestCandidates.mp chosen
    exact absurd (hclear _ hv) (Nat.ne_of_gt hpos)
  | backtracked off | exhausted off | hopeless off | restarted off | restartedEmpty off
  | unstartable off => exact absurd off (Bool.eq_false_iff.mp on)

/-- Over such waves a search goes straight to success. -/
theorem Upkeep.drive_of_resolved (s : Solver V ρ) (run : Run) (h : Upkeep start limit s run)
    (on : run.inconsistent = false) (hrules : s.system.problem.rules.Faithful)
    (resolved : s.system.fullyResolved = true)
    (consistent : s.system.ArcConsistent (members s.system.waves)) (journal : Journal) :
    ∃ stats, (s.drive run journal).result = .ok stats := by
  rcases h.step_of_resolved on hrules resolved consistent with last | ⟨e, told, on', hsame⟩
  · exact ⟨run.stats, congrArg Ending.result (drive_finished last journal)⟩
  · rw [drive_event told]
    refine drive_of_resolved _ _ (h.move h.step_move told) on' ?_ ?_ ?_ _
    · rwa [hsame]
    · rwa [hsame]
    · rwa [hsame]
termination_by s.potential run
decreasing_by exact step_below told

/-- What a search still has to do on its way gives what it gives in all. -/
theorem LeadsTo.drive_result (h : s.LeadsTo run t r) (journal : Journal) :
    ∃ journal', (t.drive r journal').result = (s.drive run journal).result := by
  induction h with
  | start => exact ⟨journal, rfl⟩
  | step _ told ih =>
    obtain ⟨journal', hdrive⟩ := ih
    exact ⟨_, (congrArg Ending.result (drive_event told journal')).symm.trans hdrive⟩

end Steps

end Solver

/-- Resolved waves at which no violation is reported are arc consistent. -/
theorem System.Intact.arcConsistent_of_resolved {V : Type} {s : System V} (hs : s.Intact)
    (resolved : s.fullyResolved = true) (clean : s.violations = []) :
    s.ArcConsistent (members s.waves) := by
  obtain ⟨f, hf⟩ := System.exists_value ((System.fullyResolved_iff hs.wellFormed).mp resolved)
  have hsat := (System.violations_eq_nil_iff hs.wellFormed hs.linked hf).mp clean
  intro u c hc y hy
  have hu := hs.linked.source_lt u c hc
  have hd := hs.linked.destination_lt u c hc
  have hy' : y = f c.destination := (Wave.mem_iff_eq_of_components (hf _ hd)).mp hy
  refine ⟨f u, (Wave.mem_iff_eq_of_components (hf u hu)).mpr rfl, ?_⟩
  rw [hy']
  exact hsat u c hc

namespace Solver
variable {V ρ : Type} [PickSource ρ] {a : Solver V ρ} {limit : Nat}

/-! ## How a search ends -/

/-- The results that are documented for a search, and where each of them leaves it. -/
inductive Documented (a : Solver V ρ) (limit : Nat) (ended : Ending V ρ) : Prop where
  | solved (result : ended.result = .ok ended.run.stats)
      (resolved : ended.solver.system.fullyResolved = true)
  | exhausted
      (result : ended.result = .error (.exhausted ended.run.observations ended.run.backtracks))
  | aborted {observer : Observer} {cause : CollapseError}
      (watched : a.config.observer = some observer)
      (refused : observer.verdict ended.solver.reports = .error cause)
      (result : ended.result = .error (.aborted cause.abortReason))
  | limited (result : ended.result = .error (.stepLimit limit))
      (observations : ended.run.observations = limit)
      (ready : ∃ t, a.LeadsTo { limit } t ended.run ∧ t.Ready ended.run ∧
        t.system = ended.solver.system)
      (alive : AliveWaves ended.solver.system.waves)
      (ambiguous : ∃ v < ended.solver.system.size,
        2 ≤ (ended.solver.system.wave v).components.length)

/-- The last step of a search whose resets succeed is documented. -/
theorem Upkeep.documented {t : Solver V ρ} {r : Run} (hup : Upkeep a limit t r)
    (hcounted : Counted limit r) (hto : a.LeadsTo { limit } t r) {ws : Array Wave}
    (hreset : a.system.problem.startingWaves = .ok ws) {result : Except CollapseError Stats}
    (last : (t.step r).outcome = .finished result) (journal : Journal) :
    Documented a limit ⟨result, (t.step r).solver, (t.step r).run, journal⟩ := by
  have hmove := hup.step_move
  have hstopped := fun one_more => hup.stopped one_more last
  generalize t.step r = next at hmove hstopped last ⊢
  cases hmove with
  | solved on idle clear =>
    cases last
    exact .solved rfl ((System.fullyResolved_iff_entropy hup.intact.wellFormed (hup.alive on)).mpr clear)
  | limited on idle chosen full =>
    cases last
    obtain ⟨hv, hpos, -⟩ := mem_lowestCandidates.mp chosen
    refine .limited (congrArg (Except.error ∘ CollapseError.stepLimit) hup.limit) ?_
      ⟨t, hto, ready_of_idle hup.begun on idle, rfl⟩ (hup.alive on) ⟨_, hv, ?_⟩
    · exact Nat.le_antisymm hcounted.observations (hup.limit ▸ full)
    · exact (Wave.entropy_pos_iff (hup.intact.wellFormed _ hv)).mp hpos
  | exhausted | hopeless =>
    cases last
    exact .exhausted rfl
  | aborted =>
    obtain ⟨observer, cause, watched, refused, hresult⟩ := hstopped rfl
    exact .aborted watched refused hresult
  | unstartable off mode since starting =>
    rw [hup.network.1, hreset] at starting
    cases starting
  | unchanged | narrowed | contradicted | observed | backtracked | restarted
  | restartedEmpty => cases last

/-- A search over an intact system whose resets succeed has a documented end. -/
theorem collapse_documented (hs : a.system.Intact) {ws : Array Wave}
    (hreset : a.system.problem.startingWaves = .ok ws) (limit : Nat) (journal : Journal) :
    Documented a limit (a.collapse limit journal) := by
  obtain ⟨t, r, hto, hlast, hsolver, hrun⟩ := a.collapse_last limit journal
  obtain ⟨hup, hcounted⟩ := hto.upkeep_of_finished hs hlast
  have hdocumented := hup.documented hcounted hto hreset hlast (a.collapse limit journal).journal
  rw [← hsolver, ← hrun] at hdocumented
  exact hdocumented

variable [Ord V] [Std.TransOrd V]

/-- **Only the documented outcomes occur.**  Whatever a system that was built went through, a
search over it is resolved, exhausted, stopped by its observer, or cut short by its limit, and in
the last case a vector was reached that is ready to be observed and ambiguous, with exactly as
many observations made as were allowed.  A reset gives what was built, then and at every moment
of a search; a saved vector always fits; whatever error an observer gives aborts the search.
Being resolved comes before being cut short: where a search is ready to observe and everything is
resolved it has succeeded, however many observations it took.  With rules that keep their promise,
being ready means that all connections support the waves, and a resolved vector without a
violation, wherever a search comes upon it, makes the search succeed. -/
theorem collapse_outcomes {p : Problem V} {built : System V} (hbuilt : p.system = .ok built)
    (a : Solver V ρ) (past : built.History a.system) (limit : Nat) (journal : Journal) :
    let ended := a.collapse limit journal
    Documented a limit ended ∧
    (∀ s, built.History s → s.reset = .ok built) ∧
    (∀ t r, a.LeadsTo { limit } t r → t.system.reset = .ok built) ∧
    ∀ t r, a.LeadsTo { limit } t r → r.initialized = true →
      (∀ ws ∈ t.checkpoints, t.system.restore ws = .ok { t.system with waves := ws }) ∧
      (∀ observer cause, a.config.observer = some observer →
        (t.step r).run.observations = r.observations + 1 →
        observer.verdict (t.step r).solver.reports = .error cause →
        ended.result = .error (.aborted cause.abortReason)) ∧
      (t.Ready r → if t.system.fullyResolved then ended.result = .ok r.stats
        else limit ≤ r.observations → ended.result = .error (.stepLimit limit)) ∧
      (p.rules.Faithful →
        (t.Ready r → t.system.ArcConsistent (members t.system.waves) ∧
          ∀ notes, t.system.drain (.all t.system.size) notes = (.ok (), t.system, notes)) ∧
        (r.inconsistent = false → t.system.fullyResolved = true → t.system.violations = [] →
          ∃ stats, ended.result = .ok stats)) := by
  obtain ⟨hp, hlaid, hwf⟩ := p.system_laid hbuilt
  obtain ⟨hs, hnet⟩ := past.intact (hlaid.intact hwf)
  have hends : ∀ {t r result}, a.LeadsTo { limit } t r →
      (t.step r).outcome = .finished result → (a.collapse limit journal).result = result := by
    intro t r result hto last
    obtain ⟨journal', hdrive⟩ := hto.drive_result
      (journal.tell (SearchNote.starting a.system.size limit a.config.backtracking))
    exact hdrive.symm.trans (congrArg Ending.result (drive_finished last journal'))
  intro ended
  refine ⟨?_, fun s hs => hs.reset_eq hbuilt, fun t r hto => ?_, fun t r hto begun => ?_⟩
  · exact collapse_documented hs (System.reset_of_network hbuilt hnet).1 limit journal
  · obtain ⟨⟨-, hproblem, hconnections⟩, -⟩ := hto.intact hs
    exact (System.reset_of_network hbuilt
      ⟨hproblem.trans hnet.1, hconnections.trans hnet.2⟩).2
  have hup : Upkeep a limit t r := by
    rcases hto.upkeep hs with ⟨-, rfl⟩ | ⟨hup, -⟩
    · cases begun
    · exact hup
  refine ⟨fun ws hws => hup.restore_eq hws, ?_, fun ready => ?_, fun hrules => ?_⟩
  · intro observer cause watched one_more refused
    obtain ⟨v, p, hheard⟩ := hup.verdict one_more
    simp only [watched, refused] at hheard
    exact hends hto hheard
  · obtain ⟨hresolved, hfull, -⟩ := hup.ready_outcome ready
    split
    · next resolved => exact hends hto (hresolved resolved)
    · next ambiguous => exact fun full => hends hto (hfull (Bool.not_eq_true _ ▸ ambiguous) full)
  · have hsound : a.system.Sound := hs.sound (by rw [hnet.1, hp]; exact hrules)
    obtain ⟨base, hinv⟩ := hto.invariant hsound begun
    have ht := hinv.sound hsound
    refine ⟨fun ready => ?_, fun on resolved clean => ?_⟩
    · have hconsistent := (hinv.consistent_of_ready hsound ready).2
      exact ⟨hconsistent, ht.drain_of_consistent hconsistent _⟩
    · have hconsistent := ht.intact.arcConsistent_of_resolved resolved clean
      obtain ⟨journal', hdrive⟩ := hto.drive_result
        (journal.tell (SearchNote.starting a.system.size limit a.config.backtracking))
      obtain ⟨stats, hok⟩ :=
        Upkeep.drive_of_resolved t r hup on ht.faithful resolved hconsistent journal'
      exact ⟨stats, hdrive.symm.trans hok⟩

/-- A search that is allowed one observation on the ring of four, after another one was abandoned
there; and one whose observer gives an error of another kind. -/
theorem collapse_outcomes_ring :
    let built := System.ring 4 3
    let left := ((Stepper.ofSolver (Solver.ring 4 3 {} [7]) 5).skip .silent 20).1.solver
    let observer : Observer := { verdict := fun _ => .error (.unknownVariable 2) }
    (Problem.ring 4 3).system = .ok built ∧ built.History left.system ∧
      left.system.reset = .ok built ∧
      (∃ v < (left.collapse 1 .silent).solver.system.size,
        2 ≤ ((left.collapse 1 .silent).solver.system.wave v).components.length) ∧
      ((Solver.ring 4 3 { observer := some observer } [7]).collapse 5 .silent).result =
        .error (.aborted "Unknown wave variable #2") := by
  intro built left observer
  have hbuilt : (Problem.ring 4 3).system = .ok built := rfl
  have past : built.History left.system :=
    .abandoned (a := Solver.ring 4 3 {} [7]) .built 5 .silent 20
  obtain ⟨hdocumented, hreset, -⟩ := collapse_outcomes hbuilt left past 1 .silent
  have hcut : (left.collapse 1 .silent).result = .error (.stepLimit 1) :=
    drive_result_of_within (n := 40) (by decide +kernel) _
  refine ⟨hbuilt, past, hreset _ past, ?_, ?_⟩
  · cases hdocumented with
    | limited _ _ _ _ ambiguous => exact ambiguous
    | solved result | exhausted result | aborted _ _ result => cases hcut.symm.trans result
  · have hafter : ((Solver.ring 4 3 { observer := some observer } [7]).after { limit := 5 }
        9).any (fun q => q.2.initialized = true ∧
          (q.1.step q.2).run.observations = q.2.observations + 1) = true := by decide +kernel
    obtain ⟨⟨t, r⟩, hto, begun, one_more⟩ := exists_leadsTo_of_after hafter
    obtain ⟨-, -, -, hway⟩ := collapse_outcomes hbuilt
      (Solver.ring 4 3 { observer := some observer } [7]) .built 5 .silent
    obtain ⟨-, hheeded, -⟩ := hway t r hto begun
    exact hheeded observer _ rfl one_more rfl

end Solver
end WaveCollapse
