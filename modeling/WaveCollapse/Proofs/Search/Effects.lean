import WaveCollapse.Proofs.Search.Calls
import WaveCollapse.Proofs.Search.Ring

/-! # What the events say of the waves

Every event of a stepwise search says what its step did to the waves, and nothing else is done to
them: a step changes one wave (`OnlyAt`), or it brings back a whole vector, or none is changed.
`Event.Describes` is the account of an event; every step that a search can take meets the account
of its own event (`Takes.describes`).

An undone decision brings back the vector that was saved when it was taken.  That this is the
vector in which it was taken is a fact about the past: `Stepper.Recorded` ties the entries of both
stacks to the calls that pushed them.
-/

namespace WaveCollapse

/-! ## Changes of one wave -/

/-- The vectors differ at most in the wave of one known variable, whose layout stays. -/
structure OnlyAt (v : Nat) (before after : Array Wave) : Prop where
  known : v < before.size
  size : after.size = before.size
  layout : (waveAt after v).layout = (waveAt before v).layout
  others : ∀ u ≠ v, waveAt after u = waveAt before u

/-- One wave loses states and keeps some. -/
structure Narrowed (v : Nat) (before after : Array Wave) : Prop extends OnlyAt v before after where
  subset : waveAt after v ⊆ waveAt before v
  lost : ∃ p ∈ waveAt before v, p ∉ waveAt after v
  left : ∃ p, p ∈ waveAt after v

/-- One wave loses all its states, and it had some. -/
structure Emptied (v : Nat) (before after : Array Wave) : Prop extends OnlyAt v before after where
  before : ∃ p, p ∈ waveAt before v
  after : ∀ p, p ∉ waveAt after v

/-- One wave that had two states or more is left with one of them. -/
structure Collapsed (v p : Nat) (before after : Array Wave) : Prop
    extends OnlyAt v before after where
  ambiguous : 2 ≤ (waveAt before v).components.length
  mem : p ∈ waveAt before v
  single : (waveAt after v).components = [p]

/-- One wave loses one of its states and keeps the others, of which there are some. -/
structure Excluded (v p : Nat) (before after : Array Wave) : Prop
    extends OnlyAt v before after where
  mem : p ∈ waveAt before v
  others_kept : ∀ q, q ∈ waveAt after v ↔ q ∈ waveAt before v ∧ q ≠ p
  left : ∃ q, q ∈ waveAt after v

theorem onlyAt_set {ws : Array Wave} {v : Nat} {w : Wave} (hv : v < ws.size)
    (hl : w.layout = (waveAt ws v).layout) : OnlyAt v ws (ws.setIfInBounds v w) where
  known := hv
  size := Array.size_setIfInBounds
  layout := by
    rw [waveAt_set_self hv]
    exact hl
  others u hu := waveAt_set_ne hv w hu

theorem narrowed_set {ws : Array Wave} {v : Nat} {w : Wave} (hv : v < ws.size)
    (hwave : (waveAt ws v).WellFormed) (hw : w.WellFormed) (hsub : w ⊆ waveAt ws v)
    (changed : w ≠ waveAt ws v) (left : w.isEmpty = false) :
    Narrowed v ws (ws.setIfInBounds v w) := by
  refine ⟨onlyAt_set hv hsub.1, ?_, ?_, ?_⟩
  all_goals rw [waveAt_set_self hv]
  · exact hsub
  · by_contra hall
    push Not at hall
    exact changed (hw.eq_of_subset hwave hsub ⟨hsub.1.symm, hall⟩)
  · exact (Wave.isEmpty_eq_false_iff hw).mp left

theorem emptied_set {ws : Array Wave} {v : Nat} {w : Wave} (hv : v < ws.size)
    (hwave : (waveAt ws v).WellFormed) (hw : w.WellFormed) (hl : w.layout = (waveAt ws v).layout)
    (alive : (waveAt ws v).isEmpty = false) (emptied : w.isEmpty = true) :
    Emptied v ws (ws.setIfInBounds v w) := by
  refine ⟨onlyAt_set hv hl, (Wave.isEmpty_eq_false_iff hwave).mp alive, ?_⟩
  rw [waveAt_set_self hv]
  exact (Wave.isEmpty_iff hw).mp emptied

theorem collapsed_set {ws : Array Wave} {v p : Nat} (hwf : WellFormedWaves ws)
    (chosen : v ∈ lowestCandidates ws) (mem : p ∈ waveAt ws v) :
    Collapsed v p ws (ws.setIfInBounds v ((waveAt ws v).single p)) := by
  obtain ⟨hv, hpos, -⟩ := mem_lowestCandidates.mp chosen
  refine ⟨onlyAt_set hv (Wave.layout_single _ _), ?_, mem, ?_⟩
  · exact (Wave.entropy_pos_iff (hwf v hv)).mp hpos
  · rw [waveAt_set_self hv]
    exact Wave.components_single (hwf v hv).readable mem

theorem Undoable.excluded {n : Nat} {ws : Array Wave} {c : Choice} (h : Undoable n ws c) :
    Excluded c.v c.state ws (alternative ws c) := by
  obtain ⟨hv, hmem⟩ := h.decided
  refine ⟨onlyAt_set hv (Wave.layout_remove _ _), hmem, fun q => ?_, ?_⟩
  all_goals
    unfold alternative
    rw [waveAt_set_self hv]
  · exact Wave.mem_remove
  · exact (Wave.isEmpty_eq_false_iff ((h.wellFormed c.v hv).remove _)).mp h.undo

/-! ## The accounts of the events -/

section Accounts
variable {V ρ : Type}

/-- The waves of a stepper. -/
def Stepper.waves (st : Stepper V ρ) : Array Wave := st.solver.system.waves

/-- Where a contradiction at `v` comes from: propagation empties a wave, or a check finds an empty
one, before the first step or in the vector that a reset brings back. -/
inductive Stepper.Contradicts (before after : Stepper V ρ) (v : Nat) : Prop where
  | propagated (begun : before.run.initialized = true) (on : before.run.inconsistent = false)
      (emptied : Emptied v before.waves after.waves)
  | beforehand (fresh : before.run.initialized = false) (same : after.waves = before.waves)
      (known : v < after.waves.size) (empty : ∀ p, p ∉ waveAt after.waves v)
  | reset (off : before.run.inconsistent = true)
      (reset : before.solver.system.reset = .ok after.solver.system)
      (known : v < after.waves.size) (empty : ∀ p, p ∉ waveAt after.waves v)

/-- What an event says of the steppers before and after its step. -/
def Event.Describes (before after : Stepper V ρ) : Event → Prop
  | initialized _ | completed | propagated _ _ _ false => after.waves = before.waves
  | propagated u v t true =>
    ⟨v, t⟩ ∈ before.solver.system.outgoing u ∧ Narrowed v before.waves after.waves
  | contradiction v => before.Contradicts after v
  | observed v p => Collapsed v p before.waves after.waves
  | backtracked v p depth => ∃ ws saved choices,
    before.solver.checkpoints = ws :: saved ∧ before.solver.choices = ⟨v, p⟩ :: choices ∧
      depth = choices.length ∧ Excluded v p ws after.waves
  | restarted => before.solver.system.reset = .ok after.solver.system
  | failed =>
    (∀ reason, after.outcome ≠ some (.error (.aborted reason))) ∧ after.waves = before.waves ∨
      (∃ reason, after.outcome = some (.error (.aborted reason))) ∧
        ∃ v p, Collapsed v p before.waves after.waves ∧
          after.solver.choices = ⟨v, p⟩ :: before.solver.choices

end Accounts

namespace Solver
variable {V ρ : Type} {a s : Solver V ρ} {limit : Nat} {run : Run} {next : Stepped V ρ}

theorem Begins.describes (h : Begins a { limit } next) (hs : a.system.Intact) {e : Event}
    (told : next.outcome = .event e) :
    e.Describes (Stepper.ofSolver a limit) { solver := next.solver, run := next.run } := by
  cases h with
  | alive =>
    cases told
    rfl
  | @empty v empty =>
    cases told
    exact .beforehand rfl rfl empty.1 ((Wave.isEmpty_iff (hs.wellFormed v empty.1)).mp empty.2)

/-- A step does to the waves what its event says. -/
theorem Move.describes (hmove : Move s run next) (h : Upkeep a limit s run) {e : Event}
    (told : next.outcome = .event e) :
    e.Describes { solver := s, run } { solver := next.solver, run := next.run } := by
  have hwf := h.intact.wellFormed
  cases hmove with
  | @unchanged next u v t on step what =>
    cases told
    cases step with
    | unchanged =>
      cases what
      rfl
    | idle | narrowed | contradiction => cases what
  | @narrowed next u v t on step what =>
    cases told
    cases step with
    | @narrowed _ c _ _ next changed left =>
      cases what
      have hc := System.nextConnection_mem next
      have hd := h.intact.linked.destination_lt u c hc
      obtain ⟨hrelaxed, hsub⟩ := h.intact.relaxed hc
      exact ⟨hc, narrowed_set hd (hwf _ hd) hrelaxed hsub changed left⟩
    | idle | unchanged | contradiction => cases what
  | @contradicted next u v t on step what =>
    cases told
    cases step with
    | @contradiction _ c _ _ next changed emptied =>
      cases what
      have hc := System.nextConnection_mem next
      have hd := h.intact.linked.destination_lt u c hc
      obtain ⟨hrelaxed, hsub⟩ := h.intact.relaxed hc
      exact .propagated h.begun on
        (emptied_set hd (hwf _ hd) hrelaxed hsub.1 (h.alive on _ hd) emptied)
    | idle | unchanged | narrowed => cases what
  | observed _ _ chosen _ mem =>
    cases told
    exact collapsed_set hwf chosen mem
  | @backtracked ws saved c choices _ mode checkpoints taken =>
    cases told
    have hstacks := h.undoing mode
    rw [checkpoints, taken] at hstacks
    obtain ⟨undoable, -⟩ := List.forall₂_cons.mp hstacks
    exact ⟨ws, saved, choices, checkpoints, taken, rfl, undoable.excluded⟩
  | restarted _ _ _ starting =>
    cases told
    exact System.reset_eq starting
  | @restartedEmpty ws v off _ _ starting empty =>
    cases told
    have hws := (Problem.startingWaves_spec _ starting).2
    exact .reset off (System.reset_eq starting) empty.1
      ((Wave.isEmpty_iff (hws v empty.1)).mp empty.2)
  | aborted | solved | limited | exhausted | hopeless | unstartable => cases told

/-- The last step changes no wave, unless the observer stops the search at an observation. -/
theorem Move.describes_last (hmove : Move s run next) (h : Upkeep a limit s run)
    {result : Except CollapseError Stats} (last : next.outcome = .finished result) :
    (Stepper.lastEvent result).Describes { solver := s, run }
      { solver := next.solver, run := next.run, outcome := some result } := by
  cases hmove with
  | aborted _ _ chosen _ mem =>
    cases last
    exact .inr ⟨⟨_, rfl⟩, _, _, collapsed_set h.intact.wellFormed chosen mem, rfl⟩
  | solved =>
    cases last
    rfl
  | limited | exhausted | hopeless =>
    cases last
    exact .inl ⟨nofun, rfl⟩
  | unstartable _ _ _ starting =>
    cases last
    refine .inl ⟨fun reason heq => ?_, rfl⟩
    cases heq
    exact Problem.startingWaves_ne_aborted _ _ starting
  | unchanged | narrowed | contradicted | observed | backtracked | restarted | restartedEmpty =>
    cases last

/-- Only a search that is configured for it undoes decisions. -/
theorem Move.undoing {v p depth : Nat} (hmove : Move s run next)
    (told : next.outcome = .event (.backtracked v p depth)) : s.config.backtracking = true := by
  cases hmove with
  | backtracked _ mode => exact mode
  | unchanged | narrowed | contradicted | observed | restarted | restartedEmpty | aborted | solved
  | limited | exhausted | hopeless | unstartable => cases told

end Solver

/-! ## Every call -/

namespace Stepper
open Solver (Begins Move Upkeep)

variable {V ρ : Type} [PickSource ρ] {a : Solver V ρ} {limit : Nat} {journal : Journal}

omit [PickSource ρ] in
theorem Takes.describes {before after : Stepper V ρ} {e : Event}
    (h : Takes a limit before (some e) after) : e.Describes before after := by
  generalize hsaid : some e = said at h
  cases h with
  | told hup hmove told =>
    cases hsaid
    exact hmove.describes hup told
  | last hup hmove last =>
    cases hsaid
    exact hmove.describes_last hup last
  | past => cases hsaid

/-- Each decision was told by a call before call number `k`, which found the waves that are saved
beside it and left the stacks as they are from there on. -/
inductive Recorded (st : Stepper V ρ) (journal : Journal) (k : Nat) :
    List (Array Wave) → List Choice → Prop where
  | nil : Recorded st journal k [] []
  | cons {saved : List (Array Wave)} {c : Choice} {choices : List Choice} {j : Nat}
      (below : Recorded st journal k saved choices) (earlier : j < k)
      (told : st.event journal j = some (.observed c.v c.state))
      (checkpoints : (st.stage journal (j + 1)).solver.checkpoints =
        (st.stage journal j).waves :: saved)
      (made : (st.stage journal (j + 1)).solver.choices = c :: choices) :
      Recorded st journal k ((st.stage journal j).waves :: saved) (c :: choices)

theorem Recorded.succ {st : Stepper V ρ} {k : Nat} {saved : List (Array Wave)}
    {choices : List Choice} (h : Recorded st journal k saved choices) :
    Recorded st journal (k + 1) saved choices := by
  induction h with
  | nil => exact .nil
  | cons _ earlier told checkpoints made ih =>
    exact .cons ih (Nat.lt_succ_of_lt earlier) told checkpoints made

/-- With backtracking, the decisions that stand were told and their vectors are those in which they
were taken. -/
theorem recorded (hs : a.system.Intact) (mode : a.config.backtracking = true) (k : Nat)
    (running : ((ofSolver a limit).stage journal (k + 1)).outcome = none) :
    Recorded (ofSolver a limit) journal (k + 1)
      ((ofSolver a limit).stage journal (k + 1)).solver.checkpoints
      ((ofSolver a limit).stage journal (k + 1)).solver.choices := by
  refine stage_induct (P := fun k s _ =>
    Recorded (ofSolver a limit) journal k s.checkpoints s.choices) hs ?_ ?_ k running
  · intro next e begins _ _
    cases begins with
    | alive | empty => exact .nil
  · intro k s run next e hbefore hup h hmove told hevent hafter
    have mode' : s.config.backtracking = true := hup.config ▸ mode
    cases hmove with
    | unchanged | narrowed | contradicted => exact h.succ
    | @observed v p =>
      cases told
      rw [Solver.decided_checkpoints mode']
      have hwaves : s.system.waves = ((ofSolver a limit).stage journal k).waves := by
        rw [hbefore]
        rfl
      rw [hwaves]
      refine .cons h.succ (Nat.lt_succ_self k) hevent ?_ ?_
      all_goals rw [hafter]
      · rw [← hwaves]
        exact Solver.decided_checkpoints mode' ..
      · rfl
    | @backtracked ws saved c choices _ _ checkpoints taken =>
      rw [checkpoints, taken] at h
      cases h with
      | cons below => exact below.succ
    | restarted _ mode'' | restartedEmpty _ mode'' => cases mode'.symm.trans mode''
    | aborted | solved | limited | exhausted | hopeless | unstartable => cases told

/-- **Every event of a search from a well-formed vector describes exactly what its step does to the
waves**, whatever the rules answer.  An undone decision was told before, the stacks are as they
were when it was taken, and all but the excluded state is as it was before it. -/
theorem events_describe [Ord V] [Std.TransOrd V] (a : Solver V ρ) (hlaid : a.system.Laid)
    (hwf : a.system.WellFormed) (limit : Nat) (journal : Journal) (k : Nat) :
    let st := ofSolver a limit
    (∀ e, st.event journal k = some e →
      e.Describes (st.stage journal k) (st.stage journal (k + 1))) ∧
    (st.event journal k = none → st.stage journal (k + 1) = st.stage journal k) ∧
    ∀ v p depth, st.event journal k = some (.backtracked v p depth) → ∃ j < k,
      st.event journal j = some (.observed v p) ∧
      (st.stage journal (j + 1)).solver.checkpoints = (st.stage journal k).solver.checkpoints ∧
      (st.stage journal (j + 1)).solver.choices = (st.stage journal k).solver.choices ∧
      Excluded v p (st.stage journal j).waves (st.stage journal (k + 1)).waves := by
  have hs := hlaid.intact hwf
  intro st
  have hdescribes : ∀ e, st.event journal k = some e →
      e.Describes (st.stage journal k) (st.stage journal (k + 1)) := by
    intro e told
    cases k with
    | zero =>
      obtain ⟨next, first, begins, htold, hevent, hstage⟩ := first_call a limit journal
      cases hevent.symm.trans told
      rw [show st.stage journal 1 = _ from hstage]
      exact begins.describes hs htold
    | succ k => exact (told ▸ takes hs limit journal k).describes
  refine ⟨hdescribes, fun none => ?_, fun v p depth told => ?_⟩
  · cases k with
    | zero =>
      obtain ⟨_, _, -, -, hevent, -⟩ := first_call a limit journal
      cases hevent.symm.trans none
    | succ k =>
      have hcall := takes hs limit journal k
      rw [show (ofSolver a limit).event journal (k + 1) = _ from none] at hcall
      show (ofSolver a limit).stage journal (k + 2) = (ofSolver a limit).stage journal (k + 1)
      generalize (ofSolver a limit).stage journal (k + 2) = after at hcall ⊢
      generalize (ofSolver a limit).stage journal (k + 1) = before at hcall ⊢
      cases hcall
      rfl
  · obtain ⟨ws, saved, choices, hcheckpoints, hchoices, -, hexcluded⟩ := hdescribes _ told
    obtain ⟨i, s, run, next, rfl, hstage, hup, hmove, htold⟩ := recovery_call hs told rfl
    have mode : a.config.backtracking = true := hup.config ▸ hmove.undoing htold
    have hrecorded := recorded hs mode i (congrArg outcome hstage)
    rw [show ((ofSolver a limit).stage journal (i + 1)).solver.checkpoints = _ from hcheckpoints,
      show ((ofSolver a limit).stage journal (i + 1)).solver.choices = _ from hchoices] at hrecorded
    cases hrecorded with
    | @cons _ _ _ j _ earlier made checkpoints taken =>
      exact ⟨j, earlier, made, checkpoints.trans hcheckpoints.symm, taken.trans hchoices.symm,
        hexcluded⟩

/-- The odd ring with two states: a wave is emptied, and the decision is undone.  The even one, whose
observer stops the search at its first decision.  And a ring that has an empty wave to begin with. -/
theorem events_describe_rings :
    let undoing := ofSolver (Solver.ring 3 2 {} [7]) 5
    let observer : Observer := { verdict := fun _ => .error (.unknownVariable 2) }
    let stopped := ofSolver (Solver.ring 4 2 { observer := some observer } [7]) 5
    let blocked := ofSolver (Solver.ringOf 2 [[0, 1], [], [0, 1]] {} [7]) 5
    Emptied 0 (undoing.stage .silent 12).waves (undoing.stage .silent 13).waves ∧
      (∃ j < 13, undoing.event .silent j = some (.observed 0 0) ∧
        Excluded 0 0 (undoing.stage .silent j).waves (undoing.stage .silent 14).waves) ∧
      (∃ v p, Collapsed v p (stopped.stage .silent 9).waves (stopped.stage .silent 10).waves) ∧
      blocked.Contradicts (blocked.stage .silent 1) 1 := by
  intro undoing observer stopped blocked
  have two : (Layout.mk 0 2 2).Valid := by decide
  have hundoing := events_describe (Solver.ring 3 2 {} [7]) (System.ring_laid 3 2)
    (System.ring_wellFormed two) 5 .silent
  have hstopped := events_describe (Solver.ring 4 2 { observer := some observer } [7])
    (System.ring_laid 4 2) (System.ring_wellFormed two) 5 .silent
  have hblocked := events_describe (Solver.ringOf 2 [[0, 1], [], [0, 1]] {} [7])
    (System.ringOf_laid 2 _) (System.ringOf_wellFormed two _) 5 .silent
  refine ⟨?_, ?_, ?_, ?_⟩
  · have told : undoing.event .silent 12 = some (.contradiction 0) := by decide +kernel
    have consistent : (undoing.stage .silent 12).run.inconsistent = false := by decide +kernel
    have begun : (undoing.stage .silent 12).run.initialized = true := by decide +kernel
    cases (hundoing 12).1 _ told with
    | propagated _ _ emptied => exact emptied
    | beforehand fresh => cases fresh.symm.trans begun
    | reset off => cases off.symm.trans consistent
  · have told : undoing.event .silent 13 = some (.backtracked 0 0 0) := by decide +kernel
    obtain ⟨j, earlier, made, -, -, excluded⟩ := (hundoing 13).2.2 _ _ _ told
    exact ⟨j, earlier, made, excluded⟩
  · have told : stopped.event .silent 9 = some .failed := by decide +kernel
    have aborted : (stopped.stage .silent 10).outcome =
        some (.error (.aborted "Unknown wave variable #2")) := by decide +kernel
    rcases (hstopped 9).1 _ told with ⟨unaborted, -⟩ | ⟨-, v, p, collapsed, -⟩
    · exact absurd aborted (unaborted _)
    · exact ⟨v, p, collapsed⟩
  · exact (hblocked 0).1 (.contradiction 1) (by decide +kernel)

end Stepper
end WaveCollapse
