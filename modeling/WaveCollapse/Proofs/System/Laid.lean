import WaveCollapse.Proofs.Except
import WaveCollapse.Proofs.System.Vector

/-! # Systems laid over their problems

A system is laid over its problem (`System.Laid`) when it has the problem's connections and
one wave a vertex.  Building a system gives such a system, with well-formed waves, and
`reset`, `setWave` and `restore` keep it laid.  In a laid system every connection leads from
a variable to a variable, whatever the topology lists: repeated vertices, dangling edges,
loops, or an edge at one of its ends only.
-/

namespace WaveCollapse
variable {V : Type}

/-- The system has the connections of its problem and a wave for every listed vertex. -/
structure System.Laid [Ord V] (s : System V) : Prop where
  connections : s.connections = s.problem.connections
  size : s.size = s.problem.topology.vertices.length

/-- The wave of every variable is well-formed. -/
def System.WellFormed (s : System V) : Prop := ∀ v < s.size, (s.wave v).WellFormed

/-- Every connection leads from a variable to a variable. -/
structure System.Linked (s : System V) : Prop where
  source_lt : ∀ u, ∀ c ∈ s.outgoing u, u < s.size
  destination_lt : ∀ u, ∀ c ∈ s.outgoing u, c.destination < s.size

/-! ## The numbering of the vertices -/

section Numbering
variable [Ord V] [Std.TransOrd V]

theorem getElem?_foldl_insert (l : List (V × Nat)) (m : Std.TreeMap V Nat) {v : V} {i : Nat}
    (h : (l.foldl (fun m (v, i) => m.insert v i) m)[v]? = some i) :
    m[v]? = some i ∨ ∃ e ∈ l, e.2 = i := by
  induction l generalizing m with
  | nil => exact .inl h
  | cons e l ih =>
    rcases ih _ h with hm | ⟨d, hd, hi⟩
    · rw [Std.TreeMap.getElem?_insert] at hm
      split at hm
      · exact .inr ⟨e, List.mem_cons_self, Option.some.inj hm⟩
      · exact .inl hm
    · exact .inr ⟨d, List.mem_cons_of_mem _ hd, hi⟩

/-- A numbered vertex is numbered with one of its places. -/
theorem Problem.numbering_lt (p : Problem V) {v : V} {i : Nat} (h : p.numbering[v]? = some i) :
    i < p.topology.vertices.length := by
  rcases getElem?_foldl_insert _ _ h with h | ⟨⟨u, j⟩, he, rfl⟩
  · simp at h
  · have := List.mem_zipIdx he
    omega

theorem Problem.connect?_destination_lt (p : Problem V) {e : Edge V} {c : Connection}
    (h : p.connect? p.numbering e = some c) :
    c.destination < p.topology.vertices.length := by
  unfold connect? at h
  split at h
  · cases h
  · next d hd =>
    split at h
    · cases h
      exact p.numbering_lt hd
    · cases h

theorem System.Laid.linked {s : System V} (hs : s.Laid) : s.Linked := by
  -- both ends are read off the same list entry: its place, and the numbering of its far vertex
  have key : ∀ u, ∀ c ∈ s.outgoing u, u < s.size ∧ c.destination < s.size := by
    intro u c hc
    unfold System.outgoing at hc
    rw [hs.connections, Array.getD_eq_getD_getElem?] at hc
    rw [hs.size]
    cases hu : s.problem.connections[u]? with
    | none => simp [hu] at hc
    | some cs =>
      rw [hu, Option.getD_some] at hc
      simp only [Problem.connections, List.getElem?_toArray, List.getElem?_map,
        Option.map_eq_some_iff] at hu
      obtain ⟨v, hv, rfl⟩ := hu
      obtain ⟨e, -, he⟩ := List.mem_filterMap.mp (List.mem_toArray.mp hc)
      exact ⟨(List.getElem?_eq_some_iff.mp hv).1, s.problem.connect?_destination_lt he⟩
  exact ⟨fun u c hc => (key u c hc).1, fun u c hc => (key u c hc).2⟩

end Numbering

/-! ## The starting waves -/

/-- The starting wave of a variable fails with its class or its layout, or is a wave of its class,
whose layout is valid. -/
theorem Problem.startingWave_cases (p : Problem V) (i : Nat) (v : V) :
    (∃ e, p.classOf i v = .error e ∧ p.startingWave i v = .error e) ∨
      (∃ cause, p.startingWave i v = .error (.invalidClass i cause)) ∨
      ∃ c, p.classOf i v = .ok c ∧ (p.layoutOf c).Valid ∧
        p.startingWave i v = .ok (match p.forcedAt v with
          | some q => (Wave.empty (p.layoutOf c)).add q
          | none => Wave.full (p.layoutOf c)) := by
  cases hc : p.classOf i v with
  | error e =>
    refine .inl ⟨e, rfl, ?_⟩
    unfold startingWave
    rw [hc]
    rfl
  | ok c =>
    right
    have hclass : p.startingWave i v = (do
        ((p.layoutOf c).check).mapError (.invalidClass i)
        match p.forcedAt v with
        | some q => return (Wave.empty (p.layoutOf c)).add q
        | none => return Wave.full (p.layoutOf c)) := by
      unfold startingWave
      rw [hc]
      rfl
    rw [hclass]
    cases hl : (p.layoutOf c).check with
    | error cause => exact .inl ⟨cause, rfl⟩
    | ok _ =>
      refine .inr ⟨c, rfl, Layout.check_eq_ok_iff.mp hl, ?_⟩
      cases p.forcedAt v <;> rfl

theorem Problem.startingWave_wellFormed (p : Problem V) {i : Nat} {v : V} {w : Wave}
    (h : p.startingWave i v = .ok w) : w.WellFormed := by
  rcases p.startingWave_cases i v with ⟨e, -, he⟩ | ⟨cause, he⟩ | ⟨c, -, hvalid, hok⟩
  · cases h.symm.trans he
  · cases h.symm.trans he
  · cases h.symm.trans hok
    split
    · exact (Wave.wellFormed_empty hvalid).add _
    · exact Wave.wellFormed_full hvalid

/-- The starting wave of a variable has the layout of its class; a state of this class that is
forced is its only one. -/
theorem Problem.startingWave_class (p : Problem V) {i : Nat} {v : V} {w : Wave}
    (h : p.startingWave i v = .ok w) : ∃ c, p.classOf i v = .ok c ∧ w.layout = p.layoutOf c ∧
      ∀ q ∈ (p.layoutOf c).states, p.forcedAt v = some q → ∀ x, x ∈ w ↔ x = q := by
  rcases p.startingWave_cases i v with ⟨e, -, he⟩ | ⟨cause, he⟩ | ⟨c, hc, hvalid, hok⟩
  · cases h.symm.trans he
  · cases h.symm.trans he
  · cases h.symm.trans hok
    refine ⟨c, hc, ?_, fun q hq hforced x => ?_⟩
    · split
      · exact Wave.layout_add _ _
      · rfl
    · rw [hforced, Wave.mem_add (w := Wave.empty (p.layoutOf c)) hvalid.2.1 hq]
      exact or_iff_left (Wave.not_mem_empty _)

/-- Where a state is forced, it is the only one that a variable can start with. -/
theorem Problem.eq_of_mem_startingWave (p : Problem V) {i q x : Nat} {v : V} {w : Wave}
    (h : p.startingWave i v = .ok w) (hforced : p.forcedAt v = some q) (hx : x ∈ w) : x = q := by
  rcases p.startingWave_cases i v with ⟨e, -, he⟩ | ⟨cause, he⟩ | ⟨c, -, hvalid, hok⟩
  · cases h.symm.trans he
  · cases h.symm.trans he
  · cases h.symm.trans hok
    rw [hforced] at hx
    exact Wave.eq_of_mem_add_empty hvalid hx

theorem Problem.startingWave_error (p : Problem V) {i : Nat} {v : V} {e : CollapseError}
    (h : p.startingWave i v = .error e) :
    (∃ c, e = .negativeClass i c) ∨ ∃ cause, e = .invalidClass i cause := by
  rcases p.startingWave_cases i v with ⟨e', hc, he⟩ | ⟨cause, he⟩ | ⟨c, -, -, hok⟩
  · cases h.symm.trans he
    unfold classOf at hc
    split at hc
    · cases hc
    · split at hc
      · cases hc
      · cases hc
        exact .inl ⟨_, rfl⟩
  · cases h.symm.trans he
    exact .inr ⟨cause, rfl⟩
  · cases h.symm.trans hok

/-- There is one starting wave a vertex, each well-formed. -/
theorem Problem.startingWaves_spec (p : Problem V) {ws : Array Wave}
    (h : p.startingWaves = .ok ws) :
    ws.size = p.topology.vertices.length ∧ WellFormedWaves ws := by
  unfold startingWaves at h
  obtain ⟨zs, hm, rfl⟩ := map_eq_ok_iff.mp h
  obtain ⟨hlen, hget⟩ := getElem?_of_mapM_ok hm
  rw [List.length_zipIdx] at hlen
  refine ⟨hlen, fun v hv => ?_⟩
  rw [waveAt_eq_getElem hv]
  obtain ⟨⟨u, i⟩, -, hstart⟩ := hget v zs.toArray[v] (List.getElem?_eq_getElem hv)
  exact p.startingWave_wellFormed hstart

/-- Every variable starts with the wave of its vertex. -/
theorem Problem.startingWave_at (p : Problem V) {ws : Array Wave} (h : p.startingWaves = .ok ws)
    {i : Nat} {v : V} (hv : p.topology.vertices[i]? = some v) :
    p.startingWave i v = .ok (waveAt ws i) := by
  unfold startingWaves at h
  obtain ⟨waves, hmap, rfl⟩ := map_eq_ok_iff.mp h
  have hentry : p.topology.vertices.zipIdx[i]? = some (v, i) := by
    rw [List.getElem?_zipIdx, hv, Nat.zero_add]
    rfl
  obtain ⟨w, hw, hstart⟩ := getElem?_mapM_ok hmap hentry
  have hat : waveAt waves.toArray i = w := by
    unfold waveAt
    rw [Array.getD_eq_getD_getElem?, List.getElem?_toArray, hw]
    rfl
  rw [hat]
  exact hstart

/-- Starting waves fail for the class of a vertex only. -/
theorem Problem.startingWaves_error (p : Problem V) {e : CollapseError}
    (h : p.startingWaves = .error e) :
    (∃ i c, e = .negativeClass i c) ∨ ∃ i cause, e = .invalidClass i cause := by
  unfold startingWaves at h
  obtain ⟨⟨v, i⟩, -, hstart⟩ := exists_of_mapM_error (map_eq_error_iff.mp h)
  rcases p.startingWave_error hstart with ⟨c, he⟩ | ⟨cause, he⟩
  · exact .inl ⟨i, c, he⟩
  · exact .inr ⟨i, cause, he⟩

/-- It is not for an observer that they fail. -/
theorem Problem.startingWaves_ne_aborted (p : Problem V) (reason : String) :
    p.startingWaves ≠ .error (.aborted reason) := by
  intro h
  rcases p.startingWaves_error h with ⟨_, _, hcause⟩ | ⟨_, _, hcause⟩ <;> cases hcause

/-! ## How a laid system comes about -/

section Entry
variable [Ord V]

theorem Problem.system_laid (p : Problem V) {s : System V} (h : p.system = .ok s) :
    s.problem = p ∧ s.Laid ∧ s.WellFormed := by
  unfold system at h
  obtain ⟨ws, hw, rfl⟩ := map_eq_ok_iff.mp h
  obtain ⟨hsize, hwf⟩ := p.startingWaves_spec hw
  exact ⟨rfl, ⟨rfl, hsize⟩, hwf⟩

/-- A system is built with its starting waves. -/
theorem Problem.system_waves (p : Problem V) {s : System V} (h : p.system = .ok s) :
    p.startingWaves = .ok s.waves := by
  unfold system at h
  obtain ⟨ws, hws, rfl⟩ := map_eq_ok_iff.mp h
  exact hws

theorem Problem.system_eq_ok (p : Problem V) {ws : Array Wave} (h : p.startingWaves = .ok ws) :
    p.system = .ok ⟨p, p.connections, ws⟩ := by
  unfold system
  rw [h]
  rfl

omit [Ord V] in
theorem System.reset_eq {s : System V} {ws : Array Wave} (h : s.problem.startingWaves = .ok ws) :
    s.reset = .ok { s with waves := ws } := by
  unfold System.reset
  rw [h]
  rfl

theorem System.Laid.reset {s r : System V} (hs : s.Laid) (h : s.reset = .ok r) :
    r.Laid ∧ r.WellFormed := by
  unfold System.reset at h
  obtain ⟨ws, hw, rfl⟩ := map_eq_ok_iff.mp h
  obtain ⟨hsize, hwf⟩ := s.problem.startingWaves_spec hw
  exact ⟨⟨hs.connections, hsize⟩, hwf⟩

theorem System.Laid.setWave {s r : System V} (hs : s.Laid) {v : Nat} {w : Wave}
    (h : s.setWave v w = .ok r) :
    r.Laid ∧ (s.WellFormed → w.WellFormed → r.WellFormed) := by
  unfold System.setWave at h
  split at h
  · cases h
    refine ⟨⟨hs.connections, Eq.trans Array.size_setIfInBounds hs.size⟩, fun hwf hw => ?_⟩
    exact WellFormedWaves.set hwf hw
  · cases h

theorem System.Laid.restore {s r : System V} (hs : s.Laid) {ws : Array Wave}
    (h : s.restore ws = .ok r) : r.Laid ∧ (WellFormedWaves ws → r.WellFormed) := by
  unfold System.restore at h
  split at h
  · next hsize =>
    cases h
    exact ⟨⟨hs.connections, Eq.trans hsize hs.size⟩, id⟩
  · cases h

end Entry

end WaveCollapse
