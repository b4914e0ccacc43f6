import WaveCollapse.Proofs.Propagation.Step

/-! # How long propagation can take

Propagation may come to a variable many times, through cycles and loops, and its frames pile up
on the frontier.  Still it does a bounded number of steps: a step that narrows takes away a
component and makes at most all connections wait once more, and every other step uses up one of
those that wait.  So `System.work`, the components weighted with the connections together with
what waits, falls with every step that goes on (`System.work_lt`), and a run of propagation from
any frontier over any vector takes no more steps than that (`System.drain_within`).
-/

namespace WaveCollapse

/-- How a propagation ends with a step, if it does. -/
def Relaxation.verdict? : Relaxation → Option (Except System.PropagationError Unit)
  | .idle => some (.ok ())
  | .contradiction _ destination _ => some (.error (.contradiction destination))
  | .unreadable => some (.error .unreadableWave)
  | .unchanged .. | .narrowed .. => none

/-! ## Totals -/

theorem le_total_of_mem {ns : List Nat} {n : Nat} (h : n ∈ ns) : n ≤ total ns := by
  induction ns with
  | nil => cases h
  | cons m ns ih =>
    rw [total_cons]
    rcases List.mem_cons.mp h with rfl | h
    · exact Nat.le_add_right _ _
    · exact Nat.le_trans (ih h) (Nat.le_add_left _ _)

theorem total_map_le {α : Type} {weight : α → Nat} {bound : Nat} {xs : List α}
    (h : ∀ x ∈ xs, weight x ≤ bound) : total (xs.map weight) ≤ bound * xs.length := by
  induction xs with
  | nil => exact Nat.le_refl 0
  | cons x xs ih =>
    rw [List.forall_mem_cons] at h
    rw [List.map_cons, total_cons, List.length_cons, Nat.mul_succ, Nat.add_comm]
    exact Nat.add_le_add (ih h.2) h.1

/-- Reading the places below `n` of a list finds no more than there is. -/
theorem total_range_le {α : Type} (weight : α → Nat) (xs : List α) (n : Nat) :
    total ((List.range n).map fun i => (xs[i]?.map weight).getD 0) ≤ total (xs.map weight) := by
  induction n generalizing xs with
  | zero => exact Nat.zero_le _
  | succ n ih =>
    rw [List.range_succ_eq_map, List.map_cons, List.map_map, total_cons]
    cases xs with
    | nil => exact Nat.le_trans (Nat.add_le_add_left (ih []) _) (Nat.le_refl 0)
    | cons x xs => exact Nat.add_le_add_left (ih xs) (weight x)

/-- A wave has no more components than a word has bits. -/
theorem Wave.length_components_le_maxWidth (w : Wave) : w.components.length ≤ maxWidth := by
  unfold components
  rw [List.length_map]
  refine Nat.le_trans (List.length_filter_le _ _) ?_
  rw [List.length_range]
  exact Nat.min_le_right _ _

namespace System
variable {V : Type} {s : System V} {frontier rest : Frontier}

/-! ## What waits -/

/-- How many connections there are. -/
def links (s : System V) : Nat := total (s.connections.toList.map Array.size)

/-- What is left to do: a component that goes may make every connection wait once more. -/
def work (s : System V) (frontier : Frontier) : Nat :=
  (s.links + 1) * s.totalComponents + s.pending frontier

theorem outgoing_size_le (s : System V) (v : Nat) : (s.outgoing v).size ≤ s.links := by
  unfold outgoing
  rw [Array.getD_eq_getD_getElem?]
  cases h : s.connections[v]? with
  | none => exact Nat.zero_le _
  | some cs =>
    refine le_total_of_mem (List.mem_map_of_mem ?_)
    exact Array.mem_toList_iff.mpr (Array.mem_of_getElem? h)

/-- One frame a variable lets every connection wait once at most. -/
theorem pending_all_le (s : System V) (n : Nat) : s.pending (.all n) ≤ s.links := by
  have hall : s.pending (.all n) =
      total ((List.range n).map fun i => (s.connections.toList[i]?.map Array.size).getD 0) := by
    unfold pending Frontier.all
    rw [List.map_map]
    refine congrArg total (List.map_congr_left fun v _ => ?_)
    show (s.outgoing v).size - 0 = _
    unfold outgoing
    rw [Array.getD_eq_getD_getElem?, Array.getElem?_toList]
    cases s.connections[v]? <;> rfl
  rw [hall]
  exact total_range_le Array.size _ n

theorem totalComponents_le (s : System V) : s.totalComponents ≤ maxWidth * s.size := by
  unfold totalComponents size
  rw [← Array.length_toList]
  exact total_map_le fun w _ => w.length_components_le_maxWidth

/-- More than the work of a frontier on which no connection waits twice, whatever the waves. -/
def roundBound (s : System V) : Nat := (s.links + 1) * (maxWidth * s.size + 1) + 1

theorem work_lt_roundBound (h : s.pending frontier ≤ s.links) :
    s.work frontier + 1 < s.roundBound := by
  have hcomponents := Nat.mul_le_mul_left (s.links + 1) s.totalComponents_le
  unfold work roundBound
  rw [Nat.mul_succ]
  omega

/-- The bound looks at the connections and the number of variables only. -/
theorem roundBound_eq {t : System V} (hnet : t.connections = s.connections)
    (hsize : t.size = s.size) : t.roundBound = s.roundBound := by
  unfold roundBound links
  rw [hnet, hsize]

/-! ## Every step leaves less work -/

theorem work_lt_of_pending (h : s.pending rest < s.pending frontier) :
    s.work rest < s.work frontier :=
  Nat.add_lt_add_left h _

/-- A component that goes pays for all connections of the variable that is scheduled. -/
theorem work_push_lt {v : Nat} {w : Wave}
    (fewer : w.components.length < (s.wave v).components.length)
    (h : s.pending rest < s.pending frontier) :
    ({ s with waves := s.waves.setIfInBounds v w } : System V).work (rest.push v) <
      s.work frontier := by
  have hgone := s.totalComponents_set fewer
  have hsize := s.outgoing_size_le v
  have hpaid := Nat.mul_le_mul_left (s.links + 1) hgone
  rw [Nat.mul_succ] at hpaid
  show (s.links + 1) * _ + ((s.outgoing v).size + s.pending rest) < _
  unfold work
  omega

/-- **Every step of propagation that goes on leaves less work.** -/
theorem work_lt (s : System V) (frontier : Frontier)
    (on : (s.propagateStep frontier).relaxation.verdict? = none) :
    (s.propagateStep frontier).system.work (s.propagateStep frontier).frontier <
      s.work frontier := by
  unfold propagateStep at on ⊢
  split at on
  · cases on
  · next u c rest h =>
    have hpending := s.nextConnection_pending h
    dsimp only at on ⊢
    split at on
    · cases on
    · next readable =>
      rw [if_neg readable]
      split at on
      · next agreed =>
        rw [if_pos agreed]
        exact work_lt_of_pending hpending
      · next changed =>
        rw [if_neg changed]
        split at on
        · cases on
        · next left =>
          rw [if_neg left]
          exact work_push_lt (Wave.length_components_maskBy_lt (Bool.not_eq_true _ ▸ changed))
            hpending

/-- Of the steps that propagation can do on a sound system, those that go on leave less work. -/
theorem Relaxes.work_lt (hs : s.Sound) {next : Propagated V} (h : s.Relaxes frontier next)
    (on : next.relaxation.verdict? = none) : next.system.work next.frontier < s.work frontier := by
  cases h with
  | idle | contradiction => cases on
  | unchanged h same => exact work_lt_of_pending (s.nextConnection_pending h)
  | @narrowed u c rest notes h changed left =>
    have hc := nextConnection_mem h
    obtain ⟨hwf, hsub, -⟩ := hs.relaxed hc
    have hd := hs.wellFormed _ (hs.linked.destination_lt u c hc)
    have hagrees : (s.relaxed u c).agrees (s.wave c.destination) = false :=
      Bool.eq_false_iff.mpr fun same => changed ((Wave.agrees_iff_eq hwf hd hsub.1).mp same)
    exact work_push_lt (Wave.length_components_maskBy_lt hagrees) (s.nextConnection_pending h)

end System
end WaveCollapse
