import WaveCollapse.Proofs.System.Laid

/-! # Connections where no vertex repeats

When the vertices of a topology differ, every vertex is numbered with its one place
(`Problem.numbering_eq_some_iff`), and the connections of a variable are the edges at its vertex,
each led to the place of the vertex at its other end (`System.Laid.mem_outgoing_iff`).
-/

namespace WaveCollapse
variable {V : Type} [Ord V] [Std.TransOrd V] [Std.LawfulEqOrd V]

theorem foldl_insert_eq_some_iff {l : List (V × Nat)} (hl : (l.map (·.1)).Nodup)
    (m : Std.TreeMap V Nat) {v : V} {i : Nat} :
    (l.foldl (fun m (v, i) => m.insert v i) m)[v]? = some i ↔
      (v, i) ∈ l ∨ v ∉ l.map (·.1) ∧ m[v]? = some i := by
  induction l generalizing m with
  | nil => simp
  | cons e l ih =>
    obtain ⟨u, j⟩ := e
    rw [List.map_cons, List.nodup_cons] at hl
    rw [List.foldl_cons, ih hl.2, Std.TreeMap.getElem?_insert]
    by_cases huv : u = v
    · subst huv
      have hnot : ∀ k, (u, k) ∉ l := fun k hk => hl.1 (List.mem_map.mpr ⟨_, hk, rfl⟩)
      simp [hnot, hl.1, eq_comm]
    · have hne : compare u v ≠ .eq := fun h => huv (Std.LawfulEqOrd.eq_of_compare h)
      simp [hne, Ne.symm huv]

/-- A vertex that occurs once is numbered with its place. -/
theorem Problem.numbering_eq_some_iff {p : Problem V} (hp : p.topology.vertices.Nodup) {v : V}
    {i : Nat} : p.numbering[v]? = some i ↔ p.topology.vertices[i]? = some v := by
  have hkeys : (p.topology.vertices.zipIdx.map (·.1)).Nodup := by
    rwa [List.zipIdx_map_fst]
  unfold numbering
  rw [foldl_insert_eq_some_iff hkeys, List.mem_zipIdx_iff_getElem?]
  simp

theorem Problem.connect?_eq_some_iff {p : Problem V} (hp : p.topology.vertices.Nodup)
    {e : Edge V} {c : Connection} : p.connect? p.numbering e = some c ↔
      p.topology.vertices[c.destination]? = some e.other ∧ e.kind < p.rules.typeCount ∧
        c.kind = if e.outgoing then e.kind else p.rules.dual e.kind := by
  rw [← numbering_eq_some_iff hp]
  unfold connect?
  obtain ⟨destination, kind⟩ := c
  constructor
  · intro h
    split at h
    · cases h
    · next d hd =>
      split at h
      · next hk =>
        cases h
        exact ⟨hd, hk, rfl⟩
      · cases h
  · rintro ⟨hd, hk, rfl⟩
    rw [hd]
    dsimp only
    rw [if_pos hk]

/-- The connections of a variable are the edges at its vertex. -/
theorem System.Laid.mem_outgoing_iff {s : System V} (hs : s.Laid)
    (hp : s.problem.topology.vertices.Nodup) {u : Nat} {c : Connection} :
    c ∈ s.outgoing u ↔ ∃ v, s.problem.topology.vertices[u]? = some v ∧
      ∃ e ∈ s.problem.topology.incident v,
        s.problem.topology.vertices[c.destination]? = some e.other ∧
        e.kind < s.problem.rules.typeCount ∧
        c.kind = if e.outgoing then e.kind else s.problem.rules.dual e.kind := by
  unfold System.outgoing
  rw [hs.connections, Array.getD_eq_getD_getElem?]
  unfold Problem.connections
  simp only [List.getElem?_toArray, List.getElem?_map]
  cases hv : s.problem.topology.vertices[u]? with
  | none => simp
  | some v =>
    rw [Option.map_some, Option.getD_some, List.mem_toArray, List.mem_filterMap]
    simp only [Problem.connect?_eq_some_iff hp, Option.some.injEq, exists_eq_left']

end WaveCollapse
