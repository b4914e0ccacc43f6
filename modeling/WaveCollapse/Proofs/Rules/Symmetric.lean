import WaveCollapse.Proofs.Rules.Served

/-! # Connections read from either end

A connection of type `t` from `x` to `y` is one of the dual type from `y` to `x`, and rules should
say the same of both.  The two kinds of rules over a registry do, for every pure state and every
type, registered or not: a table of neighbours because it is filled from both ends, a table of
sockets because equality of vectors does not look at the order of the ends
(`RuleSet.Over.symmetric`).  So a state is among those that another one admits across `t` exactly
when that one is among those that it admits across the dual of `t` (`Rules.served_symmetric`).
-/

namespace WaveCollapse

/-! ## Tables -/

section Tables
variable {r : Registry}

/-- A type and its dual are in range together. -/
theorem Registry.Lawful.dual_lt_iff (hr : r.Lawful) {t : Nat} :
    r.dual t < r.typeCount ↔ t < r.typeCount := by
  refine ⟨fun h => ?_, hr.dual_lt⟩
  have hback := hr.dual_lt h
  rwa [hr.dual_dual] at hback

theorem AdjacencyTable.allows_comm (hr : r.Lawful) {tuples : List NeighborTuple}
    {table : AdjacencyTable} (h : ofTuples r tuples = .ok table) (x t y : Nat) :
    table.allows x t y = true ↔ table.allows y (r.dual t) x = true := by
  obtain ⟨hchecked, -⟩ := ofTuples_eq_ok_iff.mp h
  have hrange : ∀ e ∈ tuples, e.t < r.typeCount := fun e he =>
    (NeighborTuple.check_eq_ok_iff.mp (hchecked e he)).2.2
  rw [allows_iff hr h, allows_iff hr h, hr.dual_lt_iff, hr.dual_dual]
  constructor
  · rintro (hxy | ⟨-, hyx⟩)
    · exact .inr ⟨hrange _ hxy, hxy⟩
    · exact .inl hyx
  · rintro (hyx | ⟨-, hxy⟩)
    · exact .inr ⟨hr.dual_lt_iff.mp (hrange _ hyx), hyx⟩
    · exact .inl hxy

theorem SocketTable.allows_comm (s : SocketTable) (hdual : ∀ t, s.dual (s.dual t) = t)
    (x t y : Nat) : s.allows x t y = true ↔ s.allows y (s.dual t) x = true := by
  rw [allows_iff, allows_iff, hdual]
  exact ⟨fun ⟨v, hx, hy⟩ => ⟨v, hy, hx⟩, fun ⟨v, hy, hx⟩ => ⟨v, hx, hy⟩⟩

/-- **Rules over a registry are symmetric.** -/
theorem RuleSet.Over.symmetric {set : RuleSet} (hr : r.Lawful) (h : set.Over r) :
    set.rules.Symmetric := by
  obtain ⟨-, -, -, hdual⟩ := h.shape
  have hback : ∀ t, set.rules.dual (set.rules.dual t) = t := by
    rw [hdual]
    exact hr.dual_dual
  refine ⟨hback, fun x t y => Bool.eq_iff_iff.mpr ?_⟩
  cases set with
  | adjacency table =>
    obtain ⟨tuples, htable⟩ := h
    rw [hdual]
    exact AdjacencyTable.allows_comm hr htable x t y
  | sockets table => exact table.allows_comm hback x t y

end Tables

/-! ## Single states -/

/-- Across `t` a single state admits the states of the far class that it allows. -/
theorem Rules.Faithful.mem_allowed_single {q : Rules} (hq : q.Faithful) {u w : Wave} {x y : Nat}
    (hu : u.Readable) (hw : w.layout.Valid) (hx : x ∈ u.layout.states)
    (hy : y ∈ w.layout.states) (t : Nat) :
    y ∈ q.allowed (u.single x) t w ↔ q.allows x t y = true := by
  have hsingle : ∀ s, s ∈ u.single x ↔ s = x := by
    intro s
    unfold Wave.single
    rw [Wave.mem_add (w := u.emptied) hu hx]
    exact or_iff_left (Wave.not_mem_empty _)
  obtain ⟨-, -, hmem⟩ := admitted_spec q.allows (u.single x) t hw
  rw [hq, hmem]
  constructor
  · rintro ⟨-, s, hs, ha⟩
    rwa [(hsingle s).mp hs] at ha
  · intro ha
    exact ⟨hy, x, (hsingle x).mpr rfl, ha⟩

/-- **Rules over a registry say the same of both ends of a connection**, in whatever way they are
served: taking the dual twice leads back, also for types out of range; `x` allows `y` across `t`
exactly when `y` allows `x` across the dual of `t`, whatever the two states are; and the state `y`
is among those that `x` alone admits exactly when `x` is among those that `y` alone admits. -/
theorem Rules.served_symmetric {types : List String} {duals : List Nat}
    {modules : List (String × Nat)} {registry : Registry}
    (hreg : Registry.register types duals modules = .ok registry) {set : RuleSet}
    (hset : set.Over registry) {q : Rules} (hq : Served set.rules q) :
    (∀ t, q.dual (q.dual t) = t) ∧ (∀ x t y, q.allows x t y = q.allows y (q.dual t) x) ∧
      ∀ u w : Wave, u.layout.Valid → w.layout.Valid →
        ∀ x ∈ u.layout.states, ∀ y ∈ w.layout.states, ∀ t,
          (y ∈ q.allowed (u.single x) t w ↔ x ∈ q.allowed (w.single y) (q.dual t) u) := by
  have hfaithful := set.faithful
  rw [hq.eq hfaithful]
  obtain ⟨hback, hcomm⟩ := hset.symmetric (Registry.lawful_of_register hreg)
  refine ⟨hback, hcomm, fun u w hu hw x hx y hy t => ?_⟩
  rw [hfaithful.mem_allowed_single hu.2.1 hw hx hy,
    hfaithful.mem_allowed_single hw.2.1 hu hy hx, hcomm]

/-- With a self-dual type and an unused class between two others, a cached table of neighbours
and a table of sockets, which has some also for a state without a module, are read from both
ends. -/
theorem Rules.served_symmetric_gap :
    ∃ registry, Registry.register ["E", "W", "up"] [1, 0, 2]
        [("a", 0), ("b", 0), ("door", 2)] = .ok registry ∧
      (∃ table c, AdjacencyTable.ofTuples registry [⟨0, 4, 0⟩, ⟨0, 1, 2⟩] = .ok table ∧
        table.rules.cached registry.stride = .ok c ∧ c.allows 4 1 0 = true ∧
        c.allows 1 2 0 = true ∧
        (4 ∈ c.allowed ((Wave.empty ⟨0, 2, 2⟩).single 0) 0 (Wave.empty ⟨2, 2, 1⟩) ↔
          0 ∈ c.allowed ((Wave.empty ⟨2, 2, 1⟩).single 4) (c.dual 0) (Wave.empty ⟨0, 2, 2⟩))) ∧
      ∃ table, SocketTable.ofEntries registry [(0, #[#[1], #[2], #[3]]), (1, #[#[2], #[1], #[3]]),
          (4, #[#[1], #[1], #[0]]), (9, #[#[2], #[5], #[5]])] = .ok table ∧
        table.allows 9 0 0 = true ∧ table.allows 0 (table.dual 0) 9 = true ∧
        table.dual (table.dual 7) = 7 := by
  have hreg : Registry.register ["E", "W", "up"] [1, 0, 2]
      [("a", 0), ("b", 0), ("door", 2)] = .ok
        ⟨[⟨"a", 0, 0⟩, ⟨"b", 0, 1⟩, ⟨"door", 2, 4⟩], #[2, 0, 1], ["E", "W", "up"],
          #[1, 0, 2]⟩ := by decide +kernel
  refine ⟨_, hreg, ?_, ?_⟩
  · obtain ⟨table, htable, hmarked⟩ : ∃ table, AdjacencyTable.ofTuples
        ⟨[⟨"a", 0, 0⟩, ⟨"b", 0, 1⟩, ⟨"door", 2, 4⟩], #[2, 0, 1], ["E", "W", "up"],
          #[1, 0, 2]⟩ [⟨0, 4, 0⟩, ⟨0, 1, 2⟩] = .ok table ∧
        table.allows 0 0 4 = true ∧ table.allows 0 2 1 = true ∧
        table.duals = #[1, 0, 2] := ⟨_, rfl, by decide +kernel⟩
    have hover : (RuleSet.adjacency table).Over _ := ⟨_, htable⟩
    obtain ⟨c, hc⟩ := hover.cached_isOk (Registry.lawful_of_register hreg) rfl
    obtain ⟨-, hcomm, hadmits⟩ := served_symmetric hreg hover (.cached (.adjacency table) hc)
    have hsame : c.allows = table.allows ∧ c.dual = table.rules.dual := by
      rw [cached_eq hc]
      exact ⟨rfl, rfl⟩
    have hdual : ∀ t, c.dual t = #[1, 0, 2].getD t t := by
      intro t
      rw [hsame.2, ← hmarked.2.2]
      rfl
    refine ⟨table, c, htable, hc, ?_, ?_, ?_⟩
    · have h := hcomm 0 0 4
      rw [hsame.1, hmarked.1, hdual] at h
      rw [hsame.1]
      exact h.symm
    · have h := hcomm 0 2 1
      rw [hsame.1, hmarked.2.1, hdual] at h
      rw [hsame.1]
      exact h.symm
    · exact hadmits _ _ (by decide) (by decide) 0 (by decide) 4 (by decide) 0
  · obtain ⟨table, htable, hfit⟩ : ∃ table, SocketTable.ofEntries
        ⟨[⟨"a", 0, 0⟩, ⟨"b", 0, 1⟩, ⟨"door", 2, 4⟩], #[2, 0, 1], ["E", "W", "up"],
          #[1, 0, 2]⟩ [(0, #[#[1], #[2], #[3]]), (1, #[#[2], #[1], #[3]]),
            (4, #[#[1], #[1], #[0]]), (9, #[#[2], #[5], #[5]])] = .ok table ∧
        table.allows 9 0 0 = true := ⟨_, rfl, by decide +kernel⟩
    have hover : (RuleSet.sockets table).Over _ := ⟨_, htable⟩
    obtain ⟨hback, hcomm, -⟩ := served_symmetric hreg hover (.sockets table)
    exact ⟨table, htable, hfit, (hcomm 9 0 0).symm.trans hfit, hback 7⟩

end WaveCollapse
