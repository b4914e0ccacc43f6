import WaveCollapse.Proofs.Propagation.Solutions
import WaveCollapse.Proofs.System.Network
import WaveCollapse.Proofs.Topology.Cutout

/-! # Solutions of parts put back into the whole

The waves of a part are put back by setting them, one after the other, where their variables come
from (`System.paste`).  When the whole was solved and the part is solved, and both agree at the
cells where the part lost an edge, all connections of the whole are satisfied again
(`System.pasted_satisfies`): those kept by the part by its solution, all others by the old one,
since an edge that is lost is lost at every end that lies in the part.
-/

namespace WaveCollapse
namespace System
variable {V : Type}

/-- Puts the waves of a part where its variables come from. -/
def paste (whole part : System V) (origin : List Nat) : Except CollapseError (System V) :=
  origin.zipIdx.foldlM (fun s (v, i) => s.setWave v (part.wave i)) whole

/-- Waves set at different variables, one after the other. -/
theorem foldlM_setWave (wave : Nat → Wave) {s : System V} {places : List (Nat × Nat)}
    (hnodup : (places.map (·.1)).Nodup) (hlt : ∀ e ∈ places, e.1 < s.size) :
    ∃ r, places.foldlM (fun s (v, i) => s.setWave v (wave i)) s = .ok r ∧
      (r.problem = s.problem ∧ r.connections = s.connections) ∧ r.size = s.size ∧
      (∀ v ∉ places.map (·.1), r.wave v = s.wave v) ∧ ∀ e ∈ places, r.wave e.1 = wave e.2 := by
  induction places generalizing s with
  | nil => exact ⟨s, rfl, ⟨rfl, rfl⟩, rfl, fun _ _ => rfl, fun e he => nomatch he⟩
  | cons e places ih =>
    obtain ⟨u, j⟩ := e
    rw [List.map_cons, List.nodup_cons] at hnodup
    have hu : u < s.size := hlt (u, j) List.mem_cons_self
    let t : System V := { s with waves := s.waves.setIfInBounds u (wave j) }
    have hset : s.setWave u (wave j) = .ok t := if_pos hu
    have hsize : t.size = s.size := Array.size_setIfInBounds
    obtain ⟨r, hr, hnet, hrsize, hkept, hput⟩ := ih (s := t) hnodup.2
      fun e he => hsize ▸ hlt e (List.mem_cons_of_mem _ he)
    refine ⟨r, ?_, hnet, hrsize.trans hsize, fun v hv => ?_, fun e he => ?_⟩
    · rw [List.foldlM_cons]
      show s.setWave u (wave j) >>= _ = _
      rw [hset]
      exact hr
    · rw [List.map_cons, List.mem_cons, not_or] at hv
      rw [hkept v hv.2]
      exact waveAt_set_ne hu _ hv.1
    · rcases List.mem_cons.mp he with rfl | he
      · -- the later places are others
        rw [hkept u hnodup.1]
        exact waveAt_set_self hu _
      · exact hput e he

theorem paste_spec {whole : System V} (part : System V) {origin : List Nat}
    (hnodup : origin.Nodup) (hlt : ∀ v ∈ origin, v < whole.size) :
    ∃ pasted, whole.paste part origin = .ok pasted ∧
      (pasted.problem = whole.problem ∧ pasted.connections = whole.connections) ∧
      pasted.size = whole.size ∧ (∀ v ∉ origin, pasted.wave v = whole.wave v) ∧
      ∀ (i v : Nat), origin[i]? = some v → pasted.wave v = part.wave i := by
  have hplaces : (origin.zipIdx.map (·.1)).Nodup := by rwa [List.zipIdx_map_fst]
  obtain ⟨pasted, hpaste, hnet, hsize, hkept, hput⟩ := foldlM_setWave part.wave hplaces
    fun e he => hlt e.1 (List.fst_mem_of_mem_zipIdx he)
  rw [List.zipIdx_map_fst] at hkept
  refine ⟨pasted, hpaste, hnet, hsize, hkept, fun i v hi => hput (v, i) ?_⟩
  rwa [List.mem_zipIdx_iff_getElem?]

/-! ## Parts of grids -/

theorem Laid.size_of_grid {g : Grid} {s : System Nat} (hs : s.Laid)
    (hgrid : s.problem.topology = g.topology) : s.size = g.size := by
  rw [hs.size, hgrid]
  exact List.length_range

/-- The connections of a system over a grid are the edges between its cells. -/
theorem mem_outgoing_grid_iff {g : Grid} {s : System Nat} (hs : s.Laid)
    (hgrid : s.problem.topology = g.topology) {u : Nat} {c : Connection} :
    c ∈ s.outgoing u ↔ ∃ e ∈ g.incident u, e.other = c.destination ∧
      e.kind < s.problem.rules.typeCount ∧
      c.kind = if e.outgoing then e.kind else s.problem.rules.dual e.kind := by
  have hvertices : s.problem.topology.vertices = List.range g.size := by
    rw [hgrid]
    rfl
  have hplace : ∀ {i v : Nat}, (List.range g.size)[i]? = some v → v = i := fun h => by
    obtain ⟨_, rfl⟩ := List.getElem?_eq_some_iff.mp h
    exact List.getElem_range _
  rw [hs.mem_outgoing_iff (by rw [hvertices]; exact List.nodup_range), hvertices, hgrid]
  constructor
  · rintro ⟨v, hv, e, he, hd, hkind, hc⟩
    rw [hplace hv] at he
    exact ⟨e, he, hplace hd, hkind, hc⟩
  · rintro ⟨e, he, hother, hkind, hc⟩
    have hu : u < g.size := by
      refine Nat.lt_of_not_le fun hle => ?_
      rw [Grid.incident_eq_nil hle] at he
      cases he
    refine ⟨u, List.getElem?_range hu, e, he, ?_, hkind, hc⟩
    rw [← hother]
    exact List.getElem?_range (Grid.mem_incident_swap he).1

/-- **Where the part lost an edge it has to agree with the whole; then its solution fits in.** -/
theorem pasted_satisfies {g h : Grid} {cut : Grid.Cutout} {whole part : System Nat}
    (hwhole : whole.Laid) (hg : whole.problem.topology = g.topology)
    (hpart : part.Laid) (hh : part.problem.topology = h.topology) (hshape : h.SameShape cut.grid)
    (hrules : part.problem.rules = whole.problem.rules) {old new f : Nat → Nat}
    (hold : whole.Satisfies old) (hnew : part.Satisfies new)
    (hagree : ∀ (i v : Nat), cut.origin[i]? = some v → cut.Severs g i → new i = old v)
    (hinside : ∀ (i v : Nat), cut.origin[i]? = some v → f v = new i)
    (houtside : ∀ v ∉ cut.origin, f v = old v) : whole.Satisfies f := by
  intro u c hc
  obtain ⟨e, he, hother, hkind, hckind⟩ := (mem_outgoing_grid_iff hwhole hg).mp hc
  by_cases hkept : ∃ i, cut.origin[i]? = some u ∧ cut.Keeps i e
  · -- the part has this connection, and its solution satisfies it there
    obtain ⟨i, hi, d, hd, hdkind, hdout, hdother⟩ := hkept
    have hmem : (⟨d.other, c.kind⟩ : Connection) ∈ part.outgoing i := by
      refine (mem_outgoing_grid_iff hpart hh).mpr ⟨d, ?_, rfl, ?_, ?_⟩
      · rwa [hshape.incident]
      · rwa [hrules, hdkind]
      · rw [hrules, hdkind, hdout]
        exact hckind
    have hallowed := hnew i _ hmem
    rwa [hrules, ← hinside i u hi, ← hinside d.other c.destination (hother ▸ hdother)] at hallowed
  · -- the connection is lost at both of its ends, so both keep their states
    have hsource : f u = old u := by
      by_cases hu : u ∈ cut.origin
      · obtain ⟨i, hi⟩ := List.mem_iff_getElem?.mp hu
        rw [hinside i u hi]
        exact hagree i u hi
          (Grid.Cutout.severs_of_not_keeps hi he fun hk => hkept ⟨i, hi, hk⟩)
      · exact houtside u hu
    have hdestination : f c.destination = old c.destination := by
      by_cases hv : c.destination ∈ cut.origin
      · obtain ⟨j, hj⟩ := List.mem_iff_getElem?.mp hv
        rw [hinside j c.destination hj]
        obtain ⟨-, hback⟩ := Grid.mem_incident_swap he
        rw [hother] at hback
        refine hagree j c.destination hj (Grid.Cutout.severs_of_not_keeps hj hback fun hk => ?_)
        obtain ⟨i, hi, hki⟩ := Grid.Cutout.keeps_swap hj hk
        rw [← hother] at hki
        exact hkept ⟨i, hi, hki⟩
      · exact houtside c.destination hv
    rw [hsource, hdestination]
    exact hold u c hc

end System
end WaveCollapse
